import Ciphr.CliTrailRuns

/-!
The queries that `ciphr audit verify`, `ciphr audit anchor` and `ciphr audit cut` make one after another
on a connection of their own, beside the service and beside cuts. Each of them sees one committed
state; no transaction holds them together.
-/

namespace Ciphr

open Database (Row)

inductive ReadingCommand where
  | verify
  | anchor
  | cut
  deriving DecidableEq, Repr

/-- How far a command has come: the next query is the one for the rows, for the latest cut, or for the
start. Then it verifies. -/
inductive ReadProgress where
  | opened
  | rows (rows : AuditRows)
  | latestCut (rows : AuditRows) (cut : Option AuditCut)
  | verifying (rows : AuditRows) (start : Start)
  | failed (error : StoreError)

structure TrailReader where
  command : ReadingCommand
  progress : ReadProgress

namespace TrailReader

/-- What a command does with the answer of a query. -/
def proceed {α : Type} (reader : TrailReader) (answer : Except StoreError α) (next : α → ReadProgress) :
    TrailReader :=
  match answer with
  | .ok a => { reader with progress := next a }
  | .error error => { reader with progress := .failed error }

/-- The next query of the command. Only `verify` asks for the latest cut. -/
def query (db : Database) (fault : Option String) (reader : TrailReader) : Option TrailReader :=
  match reader.progress with
  | .opened => some (reader.proceed (AnchoredTrail.query fault (AnchoredTrail.readRows db)) .rows)
  | .rows rows =>
      if reader.command = .verify then
        some (reader.proceed (AnchoredTrail.query fault db.latestCutOf) (.latestCut rows))
      else some (reader.proceed (AnchoredTrail.query fault db.startOf) (.verifying rows))
  | .latestCut rows _ => some (reader.proceed (AnchoredTrail.query fault db.startOf) (.verifying rows))
  | _ => none

/-- The rows have been read and the start has not. -/
def InBetween (reader : TrailReader) : Prop :=
  match reader.progress with
  | .rows _ => True
  | .latestCut _ _ => True
  | _ => False

instance : (reader : TrailReader) → Decidable reader.InBetween
  | ⟨_, .rows _⟩ => .isTrue trivial
  | ⟨_, .latestCut _ _⟩ => .isTrue trivial
  | ⟨_, .opened⟩ => .isFalse id
  | ⟨_, .verifying _ _⟩ => .isFalse id
  | ⟨_, .failed _⟩ => .isFalse id

end TrailReader

/-- The service with its store, and the commands that read it. -/
structure ReadTrail where
  trail : Trail
  readers : List TrailReader

namespace ReadTrail

inductive Event where
  | trail (event : TrailEvent)
  | start (command : ReadingCommand)
  | query (i : Nat) (fault : Option String)

def step (codec : Codec) (config : Config) (s : ReadTrail) : Event → Option ReadTrail
  | .trail event => (s.trail.step codec config event).map fun trail => { s with trail := trail }
  | .start command => some { s with readers := s.readers ++ [⟨command, .opened⟩] }
  | .query i fault =>
      (s.readers[i]?).bind fun reader =>
        (reader.query s.trail.db fault).map fun reader =>
          { s with readers := s.readers.set i reader }

/-- No cut is committed while a command has read the rows and not yet the start. -/
def CutsApart (s : ReadTrail) : Event → Prop
  | .trail (.cut throughSeq throughHash nowMillis anchor fault) =>
      (s.trail.db.cut throughSeq throughHash nowMillis anchor fault).2.isOk = true →
        ∀ reader ∈ s.readers, ¬reader.InBetween
  | _ => True

instance (s : ReadTrail) : (event : Event) → Decidable (s.CutsApart event)
  | .trail (.cut throughSeq throughHash nowMillis anchor fault) =>
      inferInstanceAs (Decidable
        ((s.trail.db.cut throughSeq throughHash nowMillis anchor fault).2.isOk = true →
          ∀ reader ∈ s.readers, ¬reader.InBetween))
  | .trail (.service _) => .isTrue trivial
  | .start _ => .isTrue trivial
  | .query _ _ => .isTrue trivial

/-- Nothing has been recorded, and no command is running. -/
def Fresh (s : ReadTrail) : Prop := s.trail.Fresh ∧ s.readers = []

/-! ### What a reader holds -/

/-- The rows are those that a trail has had from its cut on. -/
structure Snapshot (codec : Codec) (records : List EncodedRecord) (k : Nat) (rows : AuditRows) : Prop where
  trail : ∃ db : Database, db.TrailOf codec records k
  rows : rows.toList = Database.TrailOf.rowsOf records k

/-- The start is the one of that cut. -/
structure StartOf (records : List EncodedRecord) (k : Nat) (start : Start) : Prop where
  chain : start.chain = Chain.new.after (records.take k)
  first : start.firstSeq = k + 1
  prev : ∀ last, 0 < k → records[k - 1]? = some last → start.expectedPrev = last.hash

/-- What a command knows of a trail with these records, of which so many have been cut off. -/
def Knows (codec : Codec) (records : List EncodedRecord) (k : Nat) (reader : TrailReader) : Prop :=
  match reader.progress with
  | .rows rows => ∃ earlier, earlier <+: records ∧ Snapshot codec earlier k rows
  | .latestCut rows _ => ∃ earlier, earlier <+: records ∧ Snapshot codec earlier k rows
  | .verifying rows start => ∃ earlier cut, Snapshot codec earlier cut rows ∧ StartOf earlier cut start
  | _ => True

def Inv (codec : Codec) (s : ReadTrail) : Prop :=
  ∃ records k, s.trail.Inv codec records k ∧ ∀ reader ∈ s.readers, Knows codec records k reader

variable {codec : Codec} {config : Config} {s s' : ReadTrail} {records records' : List EncodedRecord}
  {k : Nat}

theorem Knows.appended {reader : TrailReader} (h : Knows codec records k reader)
    (hmore : records <+: records') : Knows codec records' k reader := by
  obtain ⟨command, progress⟩ := reader
  cases progress with
  | opened => exact trivial
  | failed error => exact trivial
  | verifying rows start => exact h
  | rows rows =>
      obtain ⟨earlier, hearlier, hrows⟩ := h
      exact ⟨earlier, hearlier.trans hmore, hrows⟩
  | latestCut rows cut =>
      obtain ⟨earlier, hearlier, hrows⟩ := h
      exact ⟨earlier, hearlier.trans hmore, hrows⟩

/-- A command that is not between its queries knows nothing that a cut could change. -/
theorem Knows.cut {reader : TrailReader} {k' : Nat} (h : Knows codec records k reader)
    (hapart : ¬reader.InBetween) : Knows codec records k' reader := by
  obtain ⟨command, progress⟩ := reader
  cases progress with
  | opened => exact trivial
  | failed error => exact trivial
  | verifying rows start => exact h
  | rows rows => exact absurd trivial hapart
  | latestCut rows cut => exact absurd trivial hapart

theorem StartOf.earlier {earlier : List EncodedRecord} {start : Start} (h : StartOf records k start)
    (hmore : earlier <+: records) (hk : k ≤ earlier.length) : StartOf earlier k start := by
  obtain ⟨more, rfl⟩ := hmore
  refine ⟨?_, h.first, ?_⟩
  · rw [h.chain, List.take_append_of_le_length hk]
  · intro last hpos hlast
    apply h.prev last hpos
    rw [List.getElem?_append_left (by omega)]
    exact hlast

theorem query_eq_ok {α : Type} {fault : Option String} {result : Except StoreError α} {a : α}
    (h : AnchoredTrail.query fault result = .ok a) : result = .ok a := by
  unfold AnchoredTrail.query at h
  split at h
  · cases h
  · exact h

theorem snapshot_of_query {db : Database} (h : db.TrailOf codec records k) {fault : Option String}
    {rows : AuditRows} (hquery : AnchoredTrail.query fault (AnchoredTrail.readRows db) = .ok rows) :
    Snapshot codec records k rows := by
  obtain ⟨rows', hrows', hlist⟩ := AnchoredTrail.readRows_eq h
  have hread := query_eq_ok hquery
  rw [hrows', Except.ok.injEq] at hread
  rw [← hread]
  exact ⟨⟨db, h⟩, hlist⟩

theorem startOf_of_query {db : Database} (h : db.TrailOf codec records k) {fault : Option String}
    {start : Start} (hquery : AnchoredTrail.query fault db.startOf = .ok start) :
    StartOf records k start := by
  obtain ⟨start', hstart', hchain, hfirst, hprev⟩ := h.startOf_facts
  have hread := query_eq_ok hquery
  rw [hstart', Except.ok.injEq] at hread
  rw [← hread]
  exact ⟨hchain, hfirst, hprev⟩

theorem knows_proceed {α : Type} {reader : TrailReader} {answer : Except StoreError α}
    {next : α → ReadProgress}
    (h : ∀ a, answer = .ok a → Knows codec records k { reader with progress := next a }) :
    Knows codec records k (reader.proceed answer next) := by
  unfold TrailReader.proceed
  cases answer with
  | ok a => exact h a rfl
  | error error => exact trivial

/-- A query of a trail tells what the trail is, and goes with the rows that were read before. -/
theorem Knows.query {db : Database} (htrail : db.TrailOf codec records k) {reader reader' : TrailReader}
    (h : Knows codec records k reader) {fault : Option String}
    (hquery : reader.query db fault = some reader') : Knows codec records k reader' := by
  have hverifying : ∀ {rows : AuditRows}, (∃ earlier, earlier <+: records ∧ Snapshot codec earlier k rows) →
      Knows codec records k
        (reader.proceed (AnchoredTrail.query fault db.startOf) (.verifying rows)) := by
    rintro rows ⟨earlier, hearlier, hrows⟩
    obtain ⟨db', htrail'⟩ := hrows.trail
    exact knows_proceed fun start hstart =>
      ⟨earlier, k, hrows, (startOf_of_query htrail hstart).earlier hearlier htrail'.le_length⟩
  obtain ⟨command, progress⟩ := reader
  unfold TrailReader.query at hquery
  cases progress with
  | opened =>
      cases hquery
      exact knows_proceed fun rows hrows =>
        ⟨records, List.prefix_rfl, snapshot_of_query htrail hrows⟩
  | rows rows =>
      dsimp only at hquery
      split at hquery
      · cases hquery
        exact knows_proceed fun cut _ => h
      · cases hquery
        exact hverifying h
  | latestCut rows cut =>
      cases hquery
      exact hverifying h
  | verifying rows start => cases hquery
  | failed error => cases hquery

theorem Inv.step (hcodec : codec.ReadsBack) (h : s.Inv codec) {event : Event} (hok : s.CutsApart event)
    (hstep : s.step codec config event = some s') : s'.Inv codec := by
  obtain ⟨records, k, htrail, hreaders⟩ := h
  cases event with
  | start command =>
      cases hstep
      refine ⟨records, k, htrail, fun reader hmem => ?_⟩
      rcases List.mem_append.mp hmem with hold | hnew
      · exact hreaders reader hold
      · rw [List.mem_singleton.mp hnew]
        exact trivial
  | query i fault =>
      obtain ⟨reader, hreader, hstep⟩ := Option.bind_eq_some_iff.mp hstep
      obtain ⟨reader', hquery, rfl⟩ := Option.map_eq_some_iff.mp hstep
      refine ⟨records, k, htrail, fun other hmem => ?_⟩
      rcases List.mem_or_eq_of_mem_set hmem with hold | rfl
      · exact hreaders other hold
      · exact (hreaders reader (List.mem_of_getElem? hreader)).query htrail.trail hquery
  | trail event =>
      obtain ⟨trail, htrail', rfl⟩ := Option.map_eq_some_iff.mp hstep
      cases event with
      | service event =>
          obtain ⟨records', hmore, hnext⟩ := htrail.service hcodec htrail'
          exact ⟨records', k, hnext, fun reader hmem => (hreaders reader hmem).appended hmore⟩
      | cut throughSeq throughHash nowMillis anchor fault =>
          cases htrail'
          rcases htrail.cut throughSeq throughHash nowMillis anchor fault with
            ⟨error, heq⟩ | ⟨-, cut, -, heq, hnext⟩
          · rw [heq]
            exact ⟨records, k, htrail, hreaders⟩
          · have happart := hok (by rw [heq]; rfl)
            rw [heq]
            exact ⟨records, throughSeq, hnext, fun reader hmem =>
              (hreaders reader hmem).cut (happart reader hmem)⟩

theorem inv_of_reachable (hcodec : codec.ReadsBack)
    (h : Transition.Reachable Fresh (step codec config) CutsApart s) : s.Inv codec := by
  refine Transition.Reachable.invariant ?_ (fun _ _ _ hinv hok hstep => hinv.step hcodec hok hstep) h
  rintro s ⟨hfresh, hreaders⟩
  refine ⟨[], 0, Trail.inv_fresh hfresh, fun reader hmem => ?_⟩
  rw [hreaders] at hmem
  cases hmem

/-- Rows and a start that belong together verify, also against an anchor over one of the rows. -/
theorem Snapshot.verifies {rows : AuditRows} {start : Start} (h : Snapshot codec records k rows)
    (hstart : StartOf records k start) :
    (∃ verified, codec.verifyFrom start rows.storedRecords.toList = .ok verified) ∧
      ∀ row ∈ rows.toList, ∀ anchor : Anchor, anchor.seq = row.seq →
        anchor.hash = codec.hashPayload row.payload →
        (codec.verifyWithAnchor anchor start rows.storedRecords).isOk = true := by
  obtain ⟨db, htrail⟩ := h.trail
  have hslice : rows.storedRecords.toList =
      (Database.TrailOf.rowsOf records k).map Row.asStored := by
    change rows.toList.map Row.asStored = _
    rw [h.rows]
  constructor
  · obtain ⟨verified, hverified⟩ := htrail.verifyFrom_take hstart.chain (2 ^ 32 - 1)
    refine ⟨verified, ?_⟩
    rw [hslice]
    exact hverified
  · intro row hrow anchor hseq hhash
    rw [h.rows] at hrow
    have hholds := htrail.holds_of_mem_rowsOf hrow
    obtain ⟨i, hi⟩ := List.mem_iff_getElem?.mp hrow
    have hfirst := htrail.rowsOf_seq hi
    rw [htrail.verifyWithAnchor_isOk ⟨row.payload, hseq ▸ hholds, hhash⟩ hstart.chain hstart.first
      hstart.prev hslice]
    exact decide_eq_true (by omega)

end ReadTrail

open ReadTrail in
/-- Where no cut is committed between the queries of a command, what the command has read verifies
together. -/
theorem readers_verify (codec : Codec) (config : Config) (hcodec : codec.ReadsBack) {s : ReadTrail}
    (h : Transition.Reachable Fresh (step codec config) CutsApart s) {reader : TrailReader}
    (hreader : reader ∈ s.readers) {rows : AuditRows} {start : Start}
    (hread : reader.progress = .verifying rows start) :
    (∃ verified, codec.verifyFrom start rows.storedRecords.toList = .ok verified) ∧
      ∀ row ∈ rows.toList, ∀ anchor : Anchor, anchor.seq = row.seq →
        anchor.hash = codec.hashPayload row.payload →
        (codec.verifyWithAnchor anchor start rows.storedRecords).isOk = true := by
  obtain ⟨records, k, -, hreaders⟩ := inv_of_reachable hcodec h
  have hknows := hreaders reader hreader
  unfold Knows at hknows
  rw [hread] at hknows
  obtain ⟨earlier, cut, hrows, hstart⟩ := hknows
  exact hrows.verifies hstart

namespace Sample

open ReadTrail

def readStart : ReadTrail := ⟨⟨start, []⟩, []⟩

/-- Two records are written, a command reads them, and the first is cut off before it reads the start. -/
def cutInBetween : List ReadTrail.Event :=
  [.trail (.service (.restart noFaults noFaults)), .trail (.service (.record entry millis noFaults)),
    .trail (.service (.record entry millis noFaults)), .start .verify, .query 0 none,
    .trail (.cut 1 hash1 millis none fun _ => none), .query 0 none, .query 0 none]

/-- The same run, where the command reads the start before the cut. -/
def cutAfterwards : List ReadTrail.Event :=
  [.trail (.service (.restart noFaults noFaults)), .trail (.service (.record entry millis noFaults)),
    .trail (.service (.record entry millis noFaults)), .start .verify, .query 0 none, .query 0 none,
    .query 0 none, .trail (.cut 1 hash1 millis none fun _ => none)]

/-- The numbers of the rows that the first command has read, and whether they verify from its start. -/
def firstReads (s : ReadTrail) : Option (List Nat × Bool) :=
  match s.readers with
  | [⟨_, .verifying rows start⟩] => some (rows.toList.map (·.seq),
      (readingCodec.verifyFrom start rows.storedRecords.toList).isOk)
  | _ => none

theorem firstReads_eq {s : ReadTrail} {seqs : List Nat} {verifies : Bool}
    (h : firstReads s = some (seqs, verifies)) :
    ∃ reader ∈ s.readers, ∃ rows start, reader.progress = .verifying rows start ∧
      rows.toList.map (·.seq) = seqs ∧
      (readingCodec.verifyFrom start rows.storedRecords.toList).isOk = verifies := by
  unfold firstReads at h
  split at h
  · rename_i command rows start hreaders
    rw [Option.some.injEq, Prod.mk.injEq] at h
    rw [hreaders]
    exact ⟨_, List.mem_cons_self, rows, start, rfl, h.1, h.2⟩
  · cases h

/-- Nobody has tampered with the trail, and the command reports it as broken. -/
theorem cut_in_between_is_reported :
    ∃ s, Transition.Reachable Fresh (step readingCodec storeAndFileConfig) (fun _ _ => True) s ∧
      ∃ reader ∈ s.readers, ∃ rows start, reader.progress = .verifying rows start ∧
        rows.toList.map (·.seq) = [1, 2] ∧
        ∀ verified, readingCodec.verifyFrom start rows.storedRecords.toList ≠ .ok verified := by
  have hrun : (Transition.run (step readingCodec storeAndFileConfig) readStart cutInBetween).map
      firstReads = some (some ([1, 2], false)) := by
    decide +kernel
  obtain ⟨s, hs, hreads⟩ := Option.map_eq_some_iff.mp hrun
  obtain ⟨reader, hreader, rows, start, hprogress, hseqs, hbroken⟩ := firstReads_eq hreads
  refine ⟨s, Transition.reachable_of_any_run cutInBetween (.start ⟨⟨start_fresh, rfl⟩, rfl⟩) hs,
    reader, hreader, rows, start, hprogress, hseqs, ?_⟩
  intro verified h
  rw [h] at hbroken
  cases hbroken

theorem readers_verify_before_cut :
    ∃ s, Transition.run (step readingCodec storeAndFileConfig) readStart cutAfterwards = some s ∧
      s.trail.db.auditLog.map (·.seq) = [2] ∧
      ∃ reader ∈ s.readers, ∃ rows start verified, reader.progress = .verifying rows start ∧
        rows.toList.map (·.seq) = [1, 2] ∧
        readingCodec.verifyFrom start rows.storedRecords.toList = .ok verified := by
  have hrun : (Transition.run (step readingCodec storeAndFileConfig) readStart cutAfterwards).map
      (fun s => (s.trail.db.auditLog.map (·.seq), firstReads s)) = some ([2], some ([1, 2], true)) := by
    decide +kernel
  obtain ⟨s, hs, hreads⟩ := Option.map_eq_some_iff.mp hrun
  rw [Prod.mk.injEq] at hreads
  obtain ⟨reader, hreader, rows, start, hprogress, hseqs, -⟩ := firstReads_eq hreads.2
  have hreachable : Transition.Reachable Fresh (step readingCodec storeAndFileConfig) CutsApart s :=
    Transition.reachable_of_run cutAfterwards (.start ⟨⟨start_fresh, rfl⟩, rfl⟩) (by decide +kernel) hs
  obtain ⟨⟨verified, hverified⟩, -⟩ := readers_verify readingCodec storeAndFileConfig
    readingCodec_readsBack hreachable hreader hprogress
  exact ⟨s, hs, hreads.1, reader, hreader, rows, start, verified, hprogress, hseqs, hverified⟩

end Sample

end Ciphr
