import Ciphr.LibPaging
import Ciphr.AuditRetention
import Ciphr.ServerApi

/-!
Reading the trail page by page, from either end. A page from the newest end is turned around before it
is handed out, so both readers see every page in chain order, and together each sees the filtered trail.
-/

namespace Ciphr

open Paging
open SqliteAuditDevice (rowOf)

/-! ### One page -/

namespace AuditFilter

variable (json : JsonExtract) (filter : AuditFilter)

/-- What a filter asks of a row, wherever its window is: the time, and each field that it names is the
entry's own. -/
def wants (row : AuditLogRow) : Bool :=
  filter.since.all (· ≤ row.ts) &&
    filter.identity.all (fun name => (json row.payload).any (·.principalName == some name)) &&
    filter.path.all (fun path => (json row.payload).any (·.path == some path)) &&
    filter.allowed.all (fun allowed => (json row.payload).any (·.allowed == some allowed))

theorem wants_eq {row : AuditLogRow} {fields : PayloadFields} (h : json row.payload = some fields) :
    filter.wants json row =
      (filter.since.all (· ≤ row.ts) && (!filter.looksInside || filter.admits fields)) := by
  unfold wants looksInside admits
  rw [h]
  cases filter.identity <;> cases filter.path <;> cases filter.allowed <;> simp [Bool.and_assoc]

theorem selects_eq {row : AuditLogRow} (h : (json row.payload).isSome) :
    filter.selects json row = .ok (filter.inWindow row && filter.wants json row) := by
  obtain ⟨fields, hfields⟩ := Option.isSome_iff_exists.mp h
  rw [filter.wants_eq json hfields]
  unfold selects
  rw [hfields]
  cases filter.inWindow row with
  | false => rfl
  | true =>
      cases filter.since.all (· ≤ row.ts) with
      | false => rfl
      | true =>
          cases hinside : filter.looksInside with
          | false => rfl
          | true => rfl

/-- A page is the first of the rows that are wanted inside the window. -/
theorem page_eq : ∀ (limit : Nat) (rows : List AuditLogRow), (∀ row ∈ rows, (json row.payload).isSome) →
    filter.page json limit rows =
      .ok ((rows.filter fun row => filter.inWindow row && filter.wants json row).take limit)
  | 0, _, _ => by rw [page, List.take_zero]
  | limit + 1, [], _ => by rw [page, List.filter_nil, List.take_nil]
  | limit + 1, row :: rows, h => by
      obtain ⟨hrow, hrows⟩ := List.forall_mem_cons.mp h
      rw [page, selects_eq json filter hrow]
      change (if (filter.inWindow row && filter.wants json row) = true then
        (do let rest ← filter.page json limit rows; .ok (row :: rest)) else filter.page json (limit + 1) rows) = _
      by_cases hwanted : (filter.inWindow row && filter.wants json row) = true
      · rw [if_pos hwanted, page_eq limit rows hrows, List.filter_cons_of_pos (by exact hwanted),
          List.take_succ_cons]
        rfl
      · rw [if_neg hwanted, page_eq (limit + 1) rows hrows, List.filter_cons_of_neg (by exact hwanted)]

/-- The filter of another page. -/
def inPage (window : AuditWindow) : AuditFilter := { filter with window := window }

end AuditFilter

/-! ### The rows of a trail -/

/-- What a reader calls a record: the number to go on from. -/
def Database.Row.mark (row : Database.Row) : UInt64 := .ofNat row.seq

def afterSeq (seq : UInt64) (row : Database.Row) : Bool := seq.toNat < row.seq

def beforeSeq (seq : UInt64) (row : Database.Row) : Bool := row.seq < seq.toNat

namespace Database

variable {codec : Codec} {json : JsonExtract} {db : Database} {records : List EncodedRecord} {k : Nat}
  {filter : AuditFilter}

/-- The whole trail, as far as a filter wants it. -/
def filteredTrail (json : JsonExtract) (db : Database) (filter : AuditFilter) :
    Except StoreError (List Row) :=
  (db.orderedRows.filter (filter.wants json)).mapM decodeRow

/-- Every payload is JSON to the database that is asked to look inside. -/
def Legible (json : JsonExtract) (db : Database) : Prop :=
  ∀ row ∈ db.auditLog, (json row.payload).isSome

def asRow (record : EncodedRecord) : Row := ⟨record.seq, record.hash, record.payload⟩

/-- The records of the trail that a filter wants. -/
def wanted (json : JsonExtract) (filter : AuditFilter) (records : List EncodedRecord) (k : Nat) :
    List EncodedRecord :=
  (records.drop k).filter fun record => filter.wants json (rowOf record)

namespace TrailOf

variable (h : TrailOf codec db records k)
include h

theorem seq_lt_of_wanted {record : EncodedRecord} (hmem : record ∈ wanted json filter records k) :
    record.seq < 2 ^ 63 :=
  h.seq_lt_of_mem_drop (List.mem_of_mem_filter hmem)

theorem filteredTrail_eq : db.filteredTrail json filter = .ok ((wanted json filter records k).map asRow) := by
  unfold filteredTrail wanted
  rw [h.orderedRows, List.filter_map]
  exact mapM_decodeRow fun record hmem => h.seq_lt_of_wanted hmem

theorem pairwise_wanted : ((wanted json filter records k).map asRow).Pairwise (·.seq < ·.seq) := by
  have hrows := pairwise_rows h.continues_drop.continued fun record hmem => h.seq_lt_of_mem_drop hmem
  rw [List.pairwise_map] at hrows ⊢
  refine (hrows.filter _).imp_of_mem fun {a b} ha hb hlt => ?_
  rw [rowOf_seq (h.seq_lt_of_wanted ha), rowOf_seq (h.seq_lt_of_wanted hb)] at hlt
  exact Int.ofNat_lt.mp hlt

theorem mark_toNat {row : Row} (hrow : row ∈ (wanted json filter records k).map asRow) :
    row.mark.toNat = row.seq ∧ row.seq < 2 ^ 63 := by
  obtain ⟨record, hrecord, rfl⟩ := List.mem_map.mp hrow
  have hlt := h.seq_lt_of_wanted hrecord
  refine ⟨UInt64.toNat_ofNat_of_lt' ?_, hlt⟩
  exact lt_trans hlt (by decide)

theorem marked_after : Marked afterSeq Row.mark ((wanted json filter records k).map asRow) := by
  refine ⟨h.pairwise_wanted.imp_of_mem fun {a b} ha hb hlt => ?_, fun a ha => ?_⟩
  · unfold afterSeq
    rw [(h.mark_toNat ha).1, (h.mark_toNat hb).1]
    exact ⟨decide_eq_true hlt, decide_eq_false (by omega)⟩
  · unfold afterSeq
    rw [(h.mark_toNat ha).1]
    exact decide_eq_false (lt_irrefl _)

theorem marked_before : Marked beforeSeq Row.mark ((wanted json filter records k).map asRow).reverse := by
  refine ⟨List.pairwise_reverse.mpr (h.pairwise_wanted.imp_of_mem fun {a b} ha hb hlt => ?_), fun a ha => ?_⟩
  · unfold beforeSeq
    rw [(h.mark_toNat ha).1, (h.mark_toNat hb).1]
    exact ⟨decide_eq_true hlt, decide_eq_false (by omega)⟩
  · unfold beforeSeq
    rw [(h.mark_toNat (List.mem_reverse.mp ha)).1]
    exact decide_eq_false (lt_irrefl _)

theorem legible_drop (hjson : db.Legible json) :
    ∀ row ∈ (records.drop k).map rowOf, (json row.payload).isSome := by
  rw [← h.log]
  exact hjson

end TrailOf

/-! ### Both readers -/

/-- A reader who goes on with `after_seq` from the last record received. -/
def Forward (json : JsonExtract) (db : Database) (filter : AuditFilter) : List (List Row) → Prop :=
  Pages (fun seq => db.auditQuery json (filter.inPage (.oldest seq)))
    (fun page => page.getLast?.map Row.mark) none

/-- A reader who goes on with `before_seq` from the first record received. -/
def Backward (json : JsonExtract) (db : Database) (filter : AuditFilter) : List (List Row) → Prop :=
  Pages (fun seq => db.auditQuery json (filter.inPage (.newest seq)))
    (fun page => page.head?.map Row.mark) none

theorem cursorColumn_lt_iff {seq : UInt64} {n : Nat} (h : n < 2 ^ 63) :
    cursorColumn seq < (n : Int) ↔ seq.toNat < n := by
  unfold cursorColumn
  omega

theorem lt_cursorColumn_iff {seq : UInt64} {n : Nat} (h : seq.toNat < 2 ^ 63) :
    (n : Int) < cursorColumn seq ↔ n < seq.toNat := by
  unfold cursorColumn
  omega

/-- The rows of a page of some records, where its window holds of a row what `inside` says of what it is
decoded to. -/
theorem page_rows {source : List EncodedRecord} {window : AuditWindow} (inside : Row → Bool)
    (hinside : ∀ record ∈ source, (filter.inPage window).inWindow (rowOf record) = inside (asRow record))
    (limit : Nat) :
    ((source.map rowOf).filter fun row => (filter.inPage window).inWindow row &&
      (filter.inPage window).wants json row).take limit =
        (((source.filter fun record => filter.wants json (rowOf record)).filter
          fun record => inside (asRow record)).take limit).map rowOf := by
  rw [List.filter_map, List.map_take, List.filter_filter]
  congr 2
  apply List.filter_congr
  intro record hrecord
  rw [Function.comp_apply, hinside record hrecord]
  rfl

namespace TrailOf

variable (h : TrailOf codec db records k)
include h

theorem auditQuery_oldest (hjson : db.Legible json) (seq : Option UInt64) :
    db.auditQuery json (filter.inPage (.oldest seq)) =
      .ok (fetched afterSeq filter.limit.toNat ((wanted json filter records k).map asRow) seq) := by
  have hinside : ∀ record ∈ records.drop k, (filter.inPage (.oldest seq)).inWindow (rowOf record) =
      seq.all (afterSeq · (asRow record)) := by
    intro record hmem
    have hlt := h.seq_lt_of_mem_drop hmem
    cases seq with
    | none => rfl
    | some seq =>
        change decide (cursorColumn seq < (rowOf record).seq) = decide (seq.toNat < record.seq)
        rw [rowOf_seq hlt, decide_eq_decide]
        exact cursorColumn_lt_iff hlt
  unfold auditQuery queriedRows
  change (do
    let rows ← (filter.inPage (.oldest seq)).page json filter.limit.toNat db.orderedRows
    rows.mapM decodeRow) = _
  rw [h.orderedRows, AuditFilter.page_eq _ _ _ _ (h.legible_drop hjson)]
  change (((records.drop k).map rowOf).filter _ |>.take _).mapM decodeRow = _
  rw [page_rows (fun row => seq.all (afterSeq · row)) hinside, mapM_decodeRow]
  · unfold fetched wanted
    rw [List.filter_map, ← List.map_take]
    rfl
  · intro record hmem
    have hsource := List.mem_of_mem_filter (List.mem_of_mem_filter (List.mem_of_mem_take hmem))
    exact h.seq_lt_of_mem_drop hsource

theorem auditQuery_newest (hjson : db.Legible json) (seq : Option UInt64)
    (hseq : ∀ own, seq = some own → own.toNat < 2 ^ 63) :
    db.auditQuery json (filter.inPage (.newest seq)) =
      .ok (fetched beforeSeq filter.limit.toNat ((wanted json filter records k).map asRow).reverse seq).reverse := by
  have hinside : ∀ record ∈ (records.drop k).reverse,
      (filter.inPage (.newest seq)).inWindow (rowOf record) = seq.all (beforeSeq · (asRow record)) := by
    intro record hmem
    have hlt := h.seq_lt_of_mem_drop (List.mem_reverse.mp hmem)
    cases seq with
    | none => rfl
    | some seq =>
        change decide ((rowOf record).seq < cursorColumn seq) = decide (record.seq < seq.toNat)
        rw [rowOf_seq hlt, decide_eq_decide]
        exact lt_cursorColumn_iff (hseq seq rfl)
  have hlegible : ∀ row ∈ (records.drop k).reverse.map rowOf, (json row.payload).isSome := by
    intro row hrow
    rw [List.map_reverse, List.mem_reverse] at hrow
    exact h.legible_drop hjson row hrow
  unfold auditQuery queriedRows
  change (do
    let rows ← ((filter.inPage (.newest seq)).page json filter.limit.toNat db.orderedRows.reverse).map List.reverse
    rows.mapM decodeRow) = _
  rw [h.orderedRows, ← List.map_reverse, AuditFilter.page_eq _ _ _ _ hlegible]
  change ((((records.drop k).reverse.map rowOf).filter _ |>.take _).reverse).mapM decodeRow = _
  rw [page_rows (fun row => seq.all (beforeSeq · row)) hinside, ← List.map_reverse, mapM_decodeRow]
  · unfold fetched wanted
    rw [← List.map_reverse, List.filter_map, ← List.map_take, ← List.map_reverse, ← List.filter_reverse]
    rfl
  · intro record hmem
    have hsource := List.mem_of_mem_filter (List.mem_of_mem_filter
      (List.mem_of_mem_take (List.mem_reverse.mp hmem)))
    exact h.seq_lt_of_mem_drop (List.mem_reverse.mp hsource)

theorem serves_oldest (hjson : db.Legible json) :
    Serves (fun seq => db.auditQuery json (filter.inPage (.oldest seq))) afterSeq Row.mark
      filter.limit.toNat ((wanted json filter records k).map asRow) :=
  fun seq _ => h.auditQuery_oldest hjson seq

/-- What a page from the newest end is before it is turned around. -/
theorem serves_newest (hjson : db.Legible json) :
    Serves (fun seq => (db.auditQuery json (filter.inPage (.newest seq))).map List.reverse) beforeSeq
      Row.mark filter.limit.toNat ((wanted json filter records k).map asRow).reverse := by
  intro seq hseq
  have hsmall : ∀ own, seq = some own → own.toNat < 2 ^ 63 := by
    rintro own rfl
    obtain ⟨row, hrow, hown⟩ := hseq.resolve_left (Option.some_ne_none _)
    cases hown
    obtain ⟨hmark, hlt⟩ := h.mark_toNat (List.mem_reverse.mp hrow)
    rwa [hmark]
  dsimp only
  rw [h.auditQuery_newest hjson seq hsmall]
  exact congrArg Except.ok (List.reverse_reverse _)

theorem forward_flatten (hjson : db.Legible json) (hlimit : 0 < filter.limit.toNat)
    {pages : List (List Row)} (hpages : db.Forward json filter pages) :
    pages.flatten = (wanted json filter records k).map asRow ∧
      ∀ page ∈ pages, page.length ≤ filter.limit.toNat :=
  (h.serves_oldest hjson).flatten_eq h.marked_after hlimit hpages (.inl ⟨rfl, rfl⟩)

theorem backward_flatten (hjson : db.Legible json) (hlimit : 0 < filter.limit.toNat)
    {pages : List (List Row)} (hpages : db.Backward json filter pages) :
    pages.reverse.flatten = (wanted json filter records k).map asRow ∧
      ∀ page ∈ pages, page.length ≤ filter.limit.toNat := by
  have hraw := Pages.reverse hpages
  have hcursor : (fun page : List Row => page.reverse.head?.map Row.mark) =
      fun page => page.getLast?.map Row.mark := by
    funext page
    rw [List.head?_reverse]
  rw [hcursor] at hraw
  obtain ⟨hflatten, hshort⟩ :=
    (h.serves_newest hjson).flatten_eq h.marked_before hlimit hraw (.inl ⟨rfl, rfl⟩)
  refine ⟨flatten_of_reversed hflatten, fun page hpage => ?_⟩
  rw [← List.length_reverse]
  exact hshort page.reverse (List.mem_map_of_mem hpage)

theorem exists_forward (hjson : db.Legible json) (hlimit : 0 < filter.limit.toNat) :
    ∃ pages, db.Forward json filter pages :=
  (h.serves_oldest hjson).exists_pages h.marked_after hlimit (.inl ⟨rfl, rfl⟩)

theorem exists_backward (hjson : db.Legible json) (hlimit : 0 < filter.limit.toNat) :
    ∃ pages, db.Backward json filter pages := by
  obtain ⟨raw, hraw⟩ := (h.serves_newest hjson).exists_pages h.marked_before hlimit (.inl ⟨rfl, rfl⟩)
  have hpages := hraw.reverse
  have hfetch : (fun seq => ((db.auditQuery json (filter.inPage (.newest seq))).map List.reverse).map
      List.reverse) = fun seq => db.auditQuery json (filter.inPage (.newest seq)) := by
    funext seq
    cases db.auditQuery json (filter.inPage (.newest seq)) with
    | error e => rfl
    | ok page => exact congrArg Except.ok (List.reverse_reverse page)
  have hcursor : (fun page : List Row => page.reverse.getLast?.map Row.mark) =
      fun page => page.head?.map Row.mark := by
    funext page
    rw [List.getLast?_reverse]
  rw [hfetch, hcursor] at hpages
  exact ⟨raw.map List.reverse, hpages⟩

end TrailOf

/-- What two readers of a trail see, one from each end. -/
structure Paged (json : JsonExtract) (db : Database) (filter : AuditFilter) (trail : List Row) : Prop where
  ascending : trail.Pairwise (·.seq < ·.seq)
  reachesEnd : ∃ pages, db.Forward json filter pages
  reachesStart : ∃ pages, db.Backward json filter pages
  forward : ∀ pages, db.Forward json filter pages → pages.flatten = trail ∧
    ∀ page ∈ pages, page.Pairwise (·.seq < ·.seq) ∧ page.length ≤ filter.limit.toNat
  backward : ∀ pages, db.Backward json filter pages → pages.reverse.flatten = trail ∧
    ∀ page ∈ pages, page.Pairwise (·.seq < ·.seq) ∧ page.length ≤ filter.limit.toNat

/-- A page of an ascending list is ascending. -/
theorem pairwise_of_mem_flatten {trail : List Row} (h : trail.Pairwise (·.seq < ·.seq))
    {pages : List (List Row)} (hflatten : pages.flatten = trail) {page : List Row} (hpage : page ∈ pages) :
    page.Pairwise (·.seq < ·.seq) :=
  (hflatten ▸ h).sublist (List.sublist_flatten_of_mem hpage)

theorem TrailOf.paged (h : TrailOf codec db records k) (hjson : db.Legible json)
    (hlimit : 0 < filter.limit.toNat) : db.Paged json filter ((wanted json filter records k).map asRow) where
  ascending := h.pairwise_wanted
  reachesEnd := h.exists_forward hjson hlimit
  reachesStart := h.exists_backward hjson hlimit
  forward := by
    intro pages hpages
    obtain ⟨hflatten, hshort⟩ := h.forward_flatten hjson hlimit hpages
    exact ⟨hflatten, fun page hpage =>
      ⟨pairwise_of_mem_flatten h.pairwise_wanted hflatten hpage, hshort page hpage⟩⟩
  backward := by
    intro pages hpages
    obtain ⟨hflatten, hshort⟩ := h.backward_flatten hjson hlimit hpages
    exact ⟨hflatten, fun page hpage =>
      ⟨pairwise_of_mem_flatten h.pairwise_wanted hflatten (List.mem_reverse.mpr hpage), hshort page hpage⟩⟩

end Database

/-! ### The requests of the readers -/

/-- `after_seq` of a reader who goes on from the oldest end, nothing for the first page. -/
def AuditQuery.forward (query : AuditQuery) (seq : Option UInt64) : AuditQuery :=
  { query with page := none, afterSeq := seq, beforeSeq := none }

/-- `before_seq` of a reader who goes on from the newest end. -/
def AuditQuery.backward (query : AuditQuery) (seq : Option UInt64) : AuditQuery :=
  { query with page := some "newest", afterSeq := none, beforeSeq := seq }

/-- The filter of a query, where it pages from an end it can page from. -/
theorem auditFilter_pages {query : AuditQuery} {filter : AuditFilter}
    (h : auditFilter (query.forward none) = .ok filter) (seq : Option UInt64) :
    auditFilter (query.forward seq) = .ok (filter.inPage (.oldest seq)) ∧
      auditFilter (query.backward seq) = .ok (filter.inPage (.newest seq)) ∧ 0 < filter.limit.toNat := by
  unfold auditFilter at h
  obtain ⟨allowed, hallowed, h⟩ := Loop.bind_eq_ok h
  obtain ⟨window, -, h⟩ := Loop.bind_eq_ok h
  cases h
  have hforward : auditFilter (query.forward seq) = (do
      let allowed ← wantedDecision query.decision
      let window ← auditWindow (query.forward seq)
      .ok ⟨max 1 (min (query.limit.getD auditLimitDefault) auditLimitMax), window, query.since,
        query.identity, query.path, allowed⟩) := rfl
  have hbackward : auditFilter (query.backward seq) = (do
      let allowed ← wantedDecision query.decision
      let window ← auditWindow (query.backward seq)
      .ok ⟨max 1 (min (query.limit.getD auditLimitDefault) auditLimitMax), window, query.since,
        query.identity, query.path, allowed⟩) := rfl
  have hallowed' : wantedDecision query.decision = .ok allowed := hallowed
  rw [hforward, hbackward, hallowed']
  refine ⟨?_, ?_, ?_⟩
  · cases seq <;> rfl
  · cases seq <;> rfl
  · have hone : ∀ limit : UInt32, (1 : UInt32) ≤ max 1 limit := by
      intro limit
      change (1 : UInt32) ≤ if (1 : UInt32) ≤ limit then limit else 1
      split
      · assumption
      · exact UInt32.le_refl 1
    exact UInt32.le_iff_toNat_le.mp (hone _)

/-! ### Every trail -/

/-- Every table that a service and its operator leave is one end of a chain. -/
theorem Trail.reachable_kept {codec : Codec} {config : Config} (hcodec : codec.ReadsBack) {s : Trail}
    (h : Transition.Reachable Trail.Fresh (Trail.step codec config) (fun _ _ => True) s) :
    s.Kept codec := by
  refine h.invariant ?_ ?_
  · intro s hfresh
    exact ⟨[], 0, Trail.inv_fresh hfresh⟩
  · rintro s event s' ⟨records, k, h⟩ _ hstep
    exact h.step hcodec hstep

/-- What reads the header of a payload finds JSON, and so does the database. -/
def Codec.LegibleTo (codec : Codec) (json : JsonExtract) : Prop :=
  ∀ payload header, codec.headerFromStr payload = .ok header → (json payload).isSome

theorem Trail.Inv.legible {codec : Codec} {json : JsonExtract} {s : Trail} {records : List EncodedRecord}
    {k : Nat} (h : s.Inv codec records k) (hjson : codec.LegibleTo json) : s.db.Legible json := by
  intro row hrow
  rw [h.trail.log] at hrow
  obtain ⟨record, hrecord, rfl⟩ := List.mem_map.mp hrow
  exact hjson _ _ (h.trail.continues.wellEncoded record (List.mem_of_mem_drop hrecord)).header

/-- Paging is complete from both ends, for every trail, filter and limit, and for the requests that ask
for it. -/
theorem audit_paged (codec : Codec) (config : Config) (json : JsonExtract) (hcodec : codec.ReadsBack)
    (hjson : codec.LegibleTo json) :
    (∀ s, Transition.Reachable Trail.Fresh (Trail.step codec config) (fun _ _ => True) s →
      ∀ filter : AuditFilter, 0 < filter.limit.toNat →
        ∃ trail, s.db.filteredTrail json filter = .ok trail ∧ s.db.Paged json filter trail) ∧
      ∀ (query : AuditQuery) (filter : AuditFilter), auditFilter (query.forward none) = .ok filter →
        ∀ seq, auditFilter (query.forward seq) = .ok (filter.inPage (.oldest seq)) ∧
          auditFilter (query.backward seq) = .ok (filter.inPage (.newest seq)) ∧
          0 < filter.limit.toNat := by
  refine ⟨fun s hs filter hlimit => ?_, fun query filter hfilter seq => auditFilter_pages hfilter seq⟩
  obtain ⟨records, k, h⟩ := Trail.reachable_kept hcodec hs
  exact ⟨_, h.trail.filteredTrail_eq, h.trail.paged (h.legible hjson) hlimit⟩

namespace Sample

/-- A read by `ci` that was allowed, and one by `root` of another secret that was not. -/
def servedRead : Entry :=
  { Entry.permitted .read with principal := some (.named "ci"), path := some "infra/DB" }

def deniedRead : Entry :=
  { Entry.permitted .read with
    principal := some (.named "root")
    path := some "infra/KEY"
    allowed := false
    denyReason := some "no-matching-rule" }

def quotedOr (text : Option String) : String := (text.map fun text => "\"" ++ text ++ "\"").getD "null"

/-- What `serde_json` makes of a record of a read. -/
def readText (seq : Nat) (prevHash : String) (entry : Entry) : String :=
  "\x7b\"seq\":" ++ toString seq ++ ",\"ts\":\"" ++ ts ++ "\",\"prev_hash\":\"" ++ prevHash ++
    "\",\"entry\":\x7b\"principal\":\x7b\"name\":" ++ quotedOr (entry.principal.map (·.name)) ++
    ",\"kind\":null,\"token_id\":null\x7d" ++ ",\"subject\":null,\"action\":\"read\",\"path\":" ++
    quotedOr entry.path ++ ",\"version\":null,\"allowed\":" ++ toString entry.allowed ++
    ",\"deny_reason\":" ++ quotedOr entry.denyReason ++ ",\"rule\":null,\"results\":null,\"detail\":null" ++
    ",\"request\":\x7b\"request_id\":null,\"client_ip\":null,\"user_agent\":null,\"http_status\":null" ++
    ",\"channel\":null\x7d\x7d\x7d"

def pagedHash1 : Hash :=
  #v[0xe5, 0x77, 0x48, 0x8e, 0x1f, 0x03, 0x7c, 0x09, 0x0a, 0x3d, 0x52, 0x48, 0x8a, 0xbf, 0x97, 0x93,
    0x31, 0x87, 0xe8, 0x83, 0x29, 0xdb, 0xa1, 0x31, 0x91, 0x76, 0x6b, 0x46, 0xc0, 0xa0, 0x2c, 0x68]

def pagedHash2 : Hash :=
  #v[0x39, 0x15, 0x6d, 0x55, 0x00, 0xc3, 0x4c, 0x56, 0x8b, 0xe6, 0xf9, 0xc2, 0xfd, 0x44, 0xfa, 0x0c,
    0x6a, 0x74, 0x6a, 0x1b, 0x16, 0xf4, 0x86, 0x1b, 0x46, 0xba, 0xdd, 0x89, 0xcc, 0xb7, 0xe2, 0x63]

def pagedHash3 : Hash :=
  #v[0x81, 0xea, 0xed, 0x09, 0xa0, 0xdd, 0xbf, 0x0e, 0xfd, 0xdf, 0x4b, 0x08, 0xe3, 0x77, 0xd4, 0x8a,
    0x97, 0x23, 0x54, 0x39, 0x04, 0x6f, 0x49, 0x6b, 0xe0, 0xf5, 0x18, 0xcc, 0x57, 0xc8, 0x04, 0x5c]

def pagedHash4 : Hash :=
  #v[0xc8, 0x26, 0x24, 0x93, 0xa5, 0x26, 0xbe, 0xe1, 0xce, 0xbc, 0xd2, 0x2c, 0xbf, 0xc6, 0x89, 0x45,
    0x91, 0x8a, 0x2c, 0xda, 0x7c, 0x8c, 0x25, 0x88, 0xe5, 0x80, 0x85, 0x51, 0xad, 0xc0, 0x7f, 0x5c]

def pagedRow (seq : Nat) (prevHash : String) (entry : Entry) (hash : Hash) : Record × String × Hash :=
  (⟨seq, ts, prevHash, entry⟩, readText seq prevHash entry, hash)

/-- Two allowed reads, a denied one, and an allowed one. -/
def pagedTable : List (Record × String × Hash) :=
  [pagedRow 1 zeros servedRead pagedHash1,
    pagedRow 2 "e577488e1f037c090a3d52488abf97933187e88329dba13191766b46c0a02c68" servedRead pagedHash2,
    pagedRow 3 "39156d5500c34c568be6f9c2fd44fa0c6a746a1b16f4861b46badd89ccb7e263" deniedRead pagedHash3,
    pagedRow 4 "81eaed09a0ddbf0efddf4b08e377d48a97235439046f496be0f518cc57c8045c" servedRead pagedHash4]

def pagedCodec : Codec := tabled pagedTable

/-- What the query reads inside the records of the trail that was cut and continued. -/
def extractEntry : JsonExtract := fun payload =>
  (pagedTable.find? fun row => payload == row.2.1).map fun row =>
    ⟨row.1.entry.principal.map (·.name), row.1.entry.path, some row.1.entry.allowed⟩

/-- What `ci` was allowed to do with one secret, one entry on each page. -/
def oneByOne : AuditFilter := ⟨1, .oldest none, none, some "ci", some "infra/DB", some true⟩

/-- Two records, a cut through the first, a restart, and two more. -/
def cutAndRead : List TrailEvent :=
  [.service (.restart noFaults noFaults), .service (.record servedRead millis noFaults),
    .service (.record servedRead millis noFaults), .cut 1 pagedHash1 millis none fun _ => none,
    .service (.restart noFaults noFaults), .service (.record deniedRead millis noFaults),
    .service (.record servedRead millis noFaults)]

/-- The denied entry between the two allowed ones is on no page. -/
theorem cutAndRead_paged :
    ∃ s trail, Transition.run (Trail.step pagedCodec storeAndFileConfig) ⟨start, []⟩ cutAndRead =
        some s ∧ s.db.auditLog.map (·.seq) = [2, 3, 4] ∧
      s.db.filteredTrail extractEntry oneByOne = .ok trail ∧
      trail.map (·.seq) = [2, 4] ∧ s.db.Paged extractEntry oneByOne trail := by
  have hrun : (Transition.run (Trail.step pagedCodec storeAndFileConfig) ⟨start, []⟩
      cutAndRead).map (fun s => (s.db.auditLog.map (·.seq),
        ((s.db.filteredTrail extractEntry oneByOne).map (·.map (·.seq))).toOption)) =
      some ([2, 3, 4], some [2, 4]) := by
    decide +kernel
  obtain ⟨s, hs, hfacts⟩ := Option.map_eq_some_iff.mp hrun
  obtain ⟨hlog, hrows⟩ := Prod.mk.inj hfacts
  have hreachable : Transition.Reachable Trail.Fresh
      (Trail.step pagedCodec storeAndFileConfig) (fun _ _ => True) s :=
    Transition.reachable_of_any_run cutAndRead (.start ⟨start_fresh, rfl⟩) hs
  have hreadsBack : pagedCodec.ReadsBack := tabled_readsBack (by decide +kernel)
  have hlegible : pagedCodec.LegibleTo extractEntry := by
    intro payload header hheader
    unfold pagedCodec tabled at hheader
    dsimp only at hheader
    unfold extractEntry
    rw [Option.isSome_map]
    split at hheader
    · rename_i row hrow
      rw [hrow]
      rfl
    · cases hheader
  obtain ⟨trail, htrail, hpaged⟩ := (audit_paged pagedCodec storeAndFileConfig extractEntry
    hreadsBack hlegible).1 s hreachable oneByOne (by decide)
  rw [htrail] at hrows
  exact ⟨s, trail, hs, hlog, htrail, Option.some.inj hrows, hpaged⟩

end Sample

end Ciphr
