import Ciphr.CliTrail

/-!
The anchor file in any interleaving of the service and the commands. Every anchor that a command
appends is one over a record that the table has held; what an interleaving can spoil is its place: an
anchor over records that have been cut off in the meantime, as the newest line, can be checked against
nothing that is left.
-/

namespace Ciphr

open Database (Row)

/-! ### What commands know -/

/-- The records that the table has held, and how many of them have been cut off. -/
structure TrailWorld where
  records : List EncodedRecord
  cut : Nat

instance : Preorder TrailWorld where
  le w w' := w.records <+: w'.records ∧ w.cut ≤ w'.cut
  le_refl w := ⟨List.prefix_rfl, le_rfl⟩
  le_trans _ _ _ h h' := ⟨h.1.trans h'.1, h.2.trans h'.2⟩

namespace TrailWorld

variable {codec : Codec} {w w' : TrailWorld}

/-- Record number `seq` has the payload, and a query of at most `u32::MAX` rows reaches it. -/
structure Holds (w : TrailWorld) (seq : Nat) (payload : String) : Prop where
  pos : 0 < seq
  record : ∃ record, w.records[seq - 1]? = some record ∧ record.payload = payload
  near : seq ≤ w.cut + (2 ^ 32 - 1)

theorem Holds.mono {seq : Nat} {payload : String} (h : w.Holds seq payload) (hw : w ≤ w') :
    w'.Holds seq payload := by
  obtain ⟨record, hrecord, hpayload⟩ := h.record
  obtain ⟨more, hmore⟩ := hw.1
  have hlt := (List.getElem?_eq_some_iff.mp hrecord).1
  refine ⟨h.pos, ⟨record, ?_, hpayload⟩, ?_⟩
  · rw [← hmore, List.getElem?_append_left hlt]
    exact hrecord
  · have hnear := h.near
    have hcut := hw.2
    omega

/-- The anchor is one over a record that the table has held. -/
def Genuine (codec : Codec) (w : TrailWorld) (anchor : Anchor) : Prop :=
  ∃ payload, w.Holds anchor.seq payload ∧ anchor.hash = codec.hashPayload payload

theorem Genuine.mono {anchor : Anchor} (h : w.Genuine codec anchor) (hw : w ≤ w') :
    w'.Genuine codec anchor := by
  obtain ⟨payload, hholds, hhash⟩ := h
  exact ⟨payload, hholds.mono hw, hhash⟩

/-- An anchor over records that the table has held. -/
theorem genuine_over {start : Start} {records : List StoredRecord} {verified : Verified}
    (hrecords : ∀ record ∈ records, w.Holds record.seq record.payload) (hne : records ≠ [])
    (h : codec.verifyFrom start records = .ok verified) (nowMillis : Int) :
    w.Genuine codec (.ofVerified verified nowMillis) := by
  obtain ⟨front, last, rfl⟩ := (List.eq_nil_or_concat' records).resolve_left hne
  obtain ⟨hseq, hhash⟩ := Codec.verifyFrom_head h
  refine ⟨last.payload, ?_, hhash⟩
  change w.Holds verified.headSeq last.payload
  rw [hseq]
  exact hrecords last (by simp)

end TrailWorld

/-- A command appends the lines of genuine anchors only, and the rows of a query are those of records
that the table has held. -/
def trailContract (codec : Codec) (json : AnchorJson) :
    Script.Contract TrailWorld TrailCall TrailCall.Reply where
  requires
    | .writeLine line, w => ∃ anchor, line = anchor.encode json ∧ w.Genuine codec anchor
    | _, _ => True
  answers
    | .auditAll, reply, w =>
        ∀ rows : AuditRows, reply = .ok rows → ∀ row ∈ rows.toList, w.Holds row.seq row.payload
    | _, _, _ => True

section Commands

open Script

variable {codec : Codec} {json : AnchorJson} {w : TrailWorld}

theorem auditAll_keeps :
    (ask .auditAll (·.mapError .store) : Command AuditRows).Keeps (trailContract codec json)
      (fun rows w => ∀ row ∈ rows.toList, w.Holds row.seq row.payload) w := by
  refine keeps_ask (fun _ _ => trivial) ?_
  intro reply w' rows _ hanswers hreply
  exact hanswers rows (Loop.mapError_eq_ok hreply)

theorem appendAnchor_keeps {anchor : Anchor} (h : w.Genuine codec anchor) :
    (appendAnchor json anchor).Keeps (trailContract codec json) (fun _ _ => True) w := by
  unfold appendAnchor
  refine keeps_ask_bind (fun _ => trivial) fun _ w' hw => ?_
  refine (keeps_ask ?_ fun _ _ _ _ _ _ => trivial : Keeps _ _ (fun _ _ => True) w').bind
    fun _ _ _ _ => ?_
  · intro later hlater
    exact ⟨anchor, rfl, h.mono (hw.trans hlater)⟩
  · exact keeps_ask_bind (fun _ => trivial) fun _ _ _ => keeps_pure trivial

theorem verifyFrom_of_verifyPrevious {previous : Option Anchor} {start : Start}
    {records : RecordSlice} {verified : Verified}
    (h : verifyPrevious codec previous start records = .ok verified) :
    codec.verifyFrom start records.toList = .ok verified := by
  cases previous with
  | none => exact Loop.mapError_eq_ok h
  | some anchor => exact (Codec.verifyWithAnchor_eq_ok (Loop.mapError_eq_ok h)).1

theorem holds_storedRecords {rows : AuditRows}
    (h : ∀ row ∈ rows.toList, w.Holds row.seq row.payload) :
    ∀ record ∈ rows.storedRecords.toList, w.Holds record.seq record.payload := by
  intro record hrecord
  obtain ⟨row, hrow, rfl⟩ := List.mem_map.mp hrecord
  exact h row hrow

theorem takeAnchor_keeps (out : String) :
    (takeAnchor codec json out).Keeps (trailContract codec json) (fun _ _ => True) w := by
  unfold takeAnchor
  refine keeps_ask_bind (fun _ => trivial) fun _ w₁ _ => ?_
  refine auditAll_keeps.bind fun rows w₂ _ hrows => ?_
  refine keeps_ask_bind (fun _ => trivial) fun start w₃ h₃ => ?_
  refine keeps_ask_bind (fun _ => trivial) fun text w₄ h₄ => ?_
  refine keeps_ofExcept_bind fun previous _ => ?_
  refine keeps_ofExcept_bind fun verified hverified => ?_
  split
  · exact trivial
  · rename_i hhead
    refine keeps_ask_bind (fun _ => trivial) fun now w₅ h₅ => ?_
    have hverified := verifyFrom_of_verifyPrevious hverified
    have hne : rows.storedRecords.toList ≠ [] := by
      intro hnil
      rw [hnil] at hverified
      exact hhead (Codec.verifyFrom_nil hverified)
    have hgenuine := TrailWorld.genuine_over (holds_storedRecords hrows) hne hverified now
    exact (appendAnchor_keeps (hgenuine.mono
      (h₃.trans (h₄.trans h₅)))).bind fun _ _ _ _ => keeps_pure trivial

theorem cutTrail_keeps (args : CutArgs) :
    (cutTrail codec json args).Keeps (trailContract codec json) (fun _ _ => True) w := by
  unfold cutTrail
  refine keeps_ask_bind (fun _ => trivial) fun _ _ _ => ?_
  refine keeps_ask_bind (fun _ => trivial) fun _ _ _ => ?_
  refine auditAll_keeps.bind fun rows w₁ _ hrows => ?_
  refine keeps_ask_bind (fun _ => trivial) fun start w₂ h₂ => ?_
  refine keeps_ask_bind (fun _ => trivial) fun text w₃ h₃ => ?_
  refine keeps_ofExcept_bind fun previous _ => ?_
  refine keeps_ofExcept_bind fun _ _ => ?_
  split
  · exact keeps_pure trivial
  · rename_i hmore
    have hkeep := args.keep_pos
    have hlength : rows.storedRecords.toList.length = rows.toList.length := List.length_map _
    have hrecords := holds_storedRecords fun row hrow => (hrows row hrow).mono (h₂.trans h₃)
    refine keeps_ofExcept_bind fun verified hverified => ?_
    refine keeps_ask_bind (fun _ => trivial) fun now w₄ h₄ => ?_
    refine keeps_ask_bind (fun _ => trivial) fun _ w₅ h₅ => ?_
    split
    · exact keeps_pure trivial
    · have hatCut := TrailWorld.genuine_over
        (fun record hmem => hrecords record (List.mem_of_mem_take hmem))
        (List.ne_nil_of_length_pos (by rw [List.length_take]; omega))
        (Loop.mapError_eq_ok hverified) now
      refine (appendAnchor_keeps (hatCut.mono (h₄.trans h₅))).bind fun _ w₆ h₆ _ => ?_
      refine keeps_ask_bind (fun _ => trivial) fun _ w₇ h₇ => ?_
      refine keeps_ask_bind (fun _ => trivial) fun now w₈ h₈ => ?_
      refine keeps_ask_bind (fun _ => trivial) fun cut w₉ h₉ => ?_
      refine keeps_ofExcept_bind fun remainder hremainder => ?_
      refine keeps_ask_bind (fun _ => trivial) fun now w₁₀ h₁₀ => ?_
      have hhead := TrailWorld.genuine_over
        (fun record hmem => hrecords record (List.mem_of_mem_drop hmem))
        (List.ne_nil_of_length_pos (by rw [List.length_drop]; omega))
        (Loop.mapError_eq_ok hremainder) now
      have hlater : w₃ ≤ w₁₀ :=
        h₄.trans (h₅.trans (h₆.trans (h₇.trans (h₈.trans (h₉.trans h₁₀)))))
      exact (appendAnchor_keeps (hhead.mono hlater)).bind fun _ _ _ _ => keeps_pure trivial

end Commands

/-! ### Which anchors can be checked -/

namespace Database.TrailOf

variable {codec : Codec} {db : Database} {records : List EncodedRecord} {k : Nat}

/-- The rows that one query reads. -/
def rowsOf (records : List EncodedRecord) (k : Nat) : List Row :=
  ((records.drop k).take (2 ^ 32 - 1)).map fun record => ⟨record.seq, record.hash, record.payload⟩

theorem auditAll_eq (h : TrailOf codec db records k) : db.auditAll = .ok (rowsOf records k) := by
  unfold Database.auditAll rowsOf
  rw [h.orderedRows, ← List.map_take]
  exact mapM_decodeRow fun record hmem => h.seq_lt_of_mem_drop (List.mem_of_mem_take hmem)

/-- The rows of a query, each in its place. -/
theorem rowsOf_at (h : TrailOf codec db records k) {seq : Nat} {record : EncodedRecord}
    (hrecord : records[seq - 1]? = some record) (hlow : k < seq) (hhigh : seq ≤ k + (2 ^ 32 - 1)) :
    (rowsOf records k)[seq - 1 - k]? = some ⟨seq, record.hash, record.payload⟩ := by
  have hseq := h.seq hrecord
  have hindex : k + (seq - 1 - k) = seq - 1 := by omega
  have hsame : record.seq = seq := by omega
  unfold rowsOf
  rw [List.getElem?_map, List.getElem?_take, if_pos (by omega), List.getElem?_drop, hindex, hrecord,
    Option.map_some, hsame]

theorem rowsOf_seq (h : TrailOf codec db records k) {i : Nat} {row : Row}
    (hrow : (rowsOf records k)[i]? = some row) : row.seq = k + i + 1 := by
  unfold rowsOf at hrow
  rw [List.getElem?_map, Option.map_eq_some_iff] at hrow
  obtain ⟨record, hrecord, rfl⟩ := hrow
  rw [List.getElem?_take] at hrecord
  split at hrecord
  · rw [List.getElem?_drop] at hrecord
    exact h.seq hrecord
  · cases hrecord

theorem holds_of_mem_rowsOf (h : TrailOf codec db records k) {row : Row}
    (hmem : row ∈ rowsOf records k) : TrailWorld.Holds ⟨records, k⟩ row.seq row.payload := by
  obtain ⟨i, hi⟩ := List.mem_iff_getElem?.mp hmem
  have hseq := h.rowsOf_seq hi
  have hlt := (List.getElem?_eq_some_iff.mp hi).1
  unfold rowsOf at hi hlt
  rw [List.length_map, List.length_take] at hlt
  rw [List.getElem?_map, Option.map_eq_some_iff] at hi
  obtain ⟨record, hrecord, rfl⟩ := hi
  rw [List.getElem?_take, if_pos (by omega), List.getElem?_drop] at hrecord
  refine ⟨by omega, ⟨record, ?_, rfl⟩, ?_⟩
  · have hindex : record.seq - 1 = k + i := by
      simp only at hseq
      omega
    rw [hindex]
    exact hrecord
  · simp only at hseq ⊢
    omega

/-- Where a verification of the table begins. -/
theorem startOf_facts (h : TrailOf codec db records k) :
    ∃ start, db.startOf = .ok start ∧ start.chain = Chain.new.after (records.take k) ∧
      start.firstSeq = k + 1 ∧
      ∀ last, 0 < k → records[k - 1]? = some last → start.expectedPrev = last.hash := by
  obtain ⟨start, hstart, hchain⟩ := h.startOf_eq
  have hle := h.le_length
  have hfits := h.fits
  have hnext : start.chain.nextSeq = k + 1 := by
    have hall := h.continues.take k
    rw [hchain, hall.continued.after_nextSeq, List.length_take, Nat.min_eq_left hle, Nat.add_comm]
    rfl
  refine ⟨start, hstart, hchain, ?_, ?_⟩
  · rw [← hnext, Start.chain_nextSeq (by omega)]
  · intro last hk hlast
    have htake : records.take k = records.take (k - 1) ++ [last] := by
      have hsucc : k - 1 + 1 = k := by omega
      rw [← hsucc, List.take_add_one, hlast, Option.toList_some, hsucc]
    rw [← Start.chain_prevHash, hchain, htake, Chain.after_concat]
    rfl

/-- An anchor over a record that the table has held can be checked exactly where the record is still
there or is the last one that was cut off. -/
theorem verifyWithAnchor_isOk (h : TrailOf codec db records k) {anchor : Anchor} {start : Start}
    (hgenuine : TrailWorld.Genuine codec ⟨records, k⟩ anchor)
    (hchain : start.chain = Chain.new.after (records.take k)) (hfirst : start.firstSeq = k + 1)
    (hprev : ∀ last, 0 < k → records[k - 1]? = some last → start.expectedPrev = last.hash)
    {slice : RecordSlice} (hslice : slice.toList = (rowsOf records k).map Row.asStored) :
    (codec.verifyWithAnchor anchor start slice).isOk = decide (k ≤ anchor.seq) := by
  obtain ⟨payload, ⟨hpos, ⟨record, hrecord, hpayload⟩, hnear⟩, hhash⟩ := hgenuine
  dsimp only at hrecord hnear
  have hlt := (List.getElem?_eq_some_iff.mp hrecord).1
  have hwell := h.continues.wellEncoded record (List.mem_of_getElem? hrecord)
  have hlive : k < records.length := h.live.resolve_right (by
    rintro ⟨-, hnil⟩
    rw [hnil] at hlt
    simp at hlt)
  obtain ⟨verified, hverified⟩ := h.verifyFrom_take hchain (2 ^ 32 - 1)
  have hverified : codec.verifyFrom start slice.toList = .ok verified := by
    rw [hslice]
    exact hverified
  have hlength : (rowsOf records k).length = min (2 ^ 32 - 1) (records.length - k) := by
    unfold rowsOf
    rw [List.length_map, List.length_take, List.length_drop]
  obtain ⟨first, hhead⟩ : ∃ row, (rowsOf records k)[0]? = some row :=
    ⟨_, List.getElem?_eq_getElem (by omega)⟩
  obtain ⟨last, hlast⟩ : ∃ row, (rowsOf records k)[(rowsOf records k).length - 1]? = some row :=
    ⟨_, List.getElem?_eq_getElem (by omega)⟩
  have hfirstSeq := h.rowsOf_seq hhead
  have hlastSeq := h.rowsOf_seq hlast
  have hheadSlice : slice.toList.head? = some first.asStored := by
    rw [hslice, List.head?_map, List.head?_eq_getElem?, hhead]
    rfl
  have hlastSlice : slice.toList.getLast? = some last.asStored := by
    rw [hslice, List.getLast?_map, List.getLast?_eq_getElem?, hlast]
    rfl
  unfold Codec.verifyWithAnchor
  rw [hheadSlice, hlastSlice, hverified, hfirst]
  dsimp only [bind, Except.bind, Option.map_some, Option.getD_some, Row.asStored]
  rcases Nat.lt_trichotomy anchor.seq k with hbehind | hat | hinside
  · rw [if_neg (by omega), if_pos (by omega), decide_eq_false (by omega)]
    rfl
  · rw [if_pos (by omega), decide_eq_true (by omega)]
    rw [hat] at hrecord hpos
    rw [hprev record hpos hrecord, hwell.hash, hpayload, ← hhash, if_neg (by simp)]
    rfl
  · have hrow := h.rowsOf_at hrecord hinside hnear
    have hreach := (List.getElem?_eq_some_iff.mp hrow).1
    have hfind : slice.toList.find? (·.seq == anchor.seq) =
        some (Row.asStored ⟨anchor.seq, record.hash, record.payload⟩) := by
      rw [hslice, List.find?_map, (?_ : (rowsOf records k).find?
        ((fun stored : StoredRecord => stored.seq == anchor.seq) ∘ Row.asStored) =
          some ⟨anchor.seq, record.hash, record.payload⟩), Option.map_some]
      rw [List.find?_eq_some_iff_getElem]
      refine ⟨by simp [Row.asStored], anchor.seq - 1 - k, hreach, ?_, ?_⟩
      · rw [List.getElem?_eq_getElem hreach, Option.some.injEq] at hrow
        exact hrow
      · intro j hj
        have hseq := h.rowsOf_seq (List.getElem?_eq_getElem (Nat.lt_trans hj hreach))
        simp only [Function.comp_apply, Row.asStored, hseq, Bool.not_eq_true', beq_eq_false_iff_ne]
        omega
    rw [if_neg (by omega), if_neg (by omega), hfind, decide_eq_true (by omega)]
    dsimp only [Row.asStored]
    rw [hpayload, ← hhash, if_neg (by simp)]
    rfl

end Database.TrailOf

/-! ### Runs -/

/-- What `verify_with_anchor` says of the store and the newest line of the file. A file without a
line has nothing to be checked. -/
def AnchoredTrail.newestVerifies (codec : Codec) (json : AnchorJson) (s : AnchoredTrail) : Bool :=
  match Anchor.latest json s.text with
  | .error _ => false
  | .ok none => true
  | .ok (some anchor) =>
      match s.trail.db.startOf, readRows s.trail.db with
      | .ok start, .ok rows => (codec.verifyWithAnchor anchor start rows.storedRecords).isOk
      | _, _ => false

/-- The last record that was cut off, as the store records it, and zero where none was. -/
def Database.cutSeq (db : Database) : Nat :=
  match db.latestCutOf with
  | .ok (some cut) => cut.seq
  | _ => 0

/-- A command that appends an anchor finds no cut recorded past it, and one that cuts finds the newest
line of the file at the cut or past it. -/
def inOrder (json : AnchorJson) (s : AnchoredRun) :
    Script.Happens AuditEvent TrailOutside TrailArgs → Bool
  | .advance i _ =>
      match s.nextCall i with
      | some (.writeLine line) =>
          match Anchor.parse json line with
          | .ok anchor => s.shared.trail.db.cutSeq ≤ anchor.seq
          | .error _ => true
      | some (.cut throughSeq _ _ _) =>
          match Anchor.latest json s.shared.text with
          | .ok (some newest) => throughSeq ≤ newest.seq
          | _ => true
      | _ => true
  | _ => true

namespace AnchoredTrail

variable {codec : Codec} {json : AnchorJson} {config : Config} {s : AnchoredTrail} {w : TrailWorld}

/-- The table is an end of the records, and the newest line of the file is over a record that is still
there or is the last one that was cut off. -/
structure DescribedBy (codec : Codec) (json : AnchorJson) (s : AnchoredTrail) (w : TrailWorld) :
    Prop where
  inv : s.trail.Inv codec w.records w.cut
  complete : Anchor.Complete s.text
  newest : Anchor.latest json s.text = .ok none ∨
    ∃ anchor, Anchor.latest json s.text = .ok (some anchor) ∧ w.Genuine codec anchor ∧
      w.cut ≤ anchor.seq

theorem readRows_eq {db : Database} {records : List EncodedRecord} {k : Nat}
    (h : db.TrailOf codec records k) :
    ∃ rows, readRows db = .ok rows ∧ rows.toList = Database.TrailOf.rowsOf records k := by
  unfold readRows
  split
  · rename_i rows hrows
    rw [h.auditAll_eq, Except.ok.injEq] at hrows
    exact ⟨_, rfl, hrows.symm⟩
  · rename_i error herror
    rw [h.auditAll_eq] at herror
    cases herror

/-- A genuine anchor in the newest line is checked exactly where no cut has gone past it. -/
theorem newestVerifies_eq {anchor : Anchor} (h : s.trail.Inv codec w.records w.cut)
    (hlatest : Anchor.latest json s.text = .ok (some anchor)) (hgenuine : w.Genuine codec anchor) :
    s.newestVerifies codec json = decide (w.cut ≤ anchor.seq) := by
  obtain ⟨start, hstart, hchain, hfirst, hprev⟩ := h.trail.startOf_facts
  obtain ⟨rows, hrows, hlist⟩ := readRows_eq h.trail
  unfold newestVerifies
  rw [hlatest, hstart, hrows]
  refine h.trail.verifyWithAnchor_isOk hgenuine hchain hfirst hprev ?_
  change rows.toList.map Row.asStored = _
  rw [hlist]

theorem cutSeq_eq (h : s.trail.Inv codec w.records w.cut) : s.trail.db.cutSeq = w.cut := by
  unfold Database.cutSeq
  rcases Nat.eq_zero_or_pos w.cut with hk | hk
  · rw [h.trail.latestCutOf_zero hk, hk]
  · obtain ⟨last, hlast⟩ := h.trail.exists_last hk
    obtain ⟨cut, hcut, hseq, -⟩ := h.trail.latestCutOf_pos hk hlast
    rw [hcut]
    exact hseq

theorem DescribedBy.newestVerifies (h : s.DescribedBy codec json w) :
    s.newestVerifies codec json = true := by
  rcases h.newest with hnone | ⟨anchor, hlatest, hgenuine, hcut⟩
  · unfold AnchoredTrail.newestVerifies
    rw [hnone]
  · rw [newestVerifies_eq h.inv hlatest hgenuine, decide_eq_true hcut]

theorem DescribedBy.pos_lt {anchor : Anchor} (h : s.trail.Inv codec w.records w.cut)
    (hgenuine : w.Genuine codec anchor) : 0 < anchor.seq ∧ anchor.seq < 2 ^ 64 := by
  obtain ⟨payload, ⟨hpos, ⟨record, hrecord, -⟩, -⟩, -⟩ := hgenuine
  have hlt := (List.getElem?_eq_some_iff.mp hrecord).1
  have hfits := h.trail.fits
  omega

theorem DescribedBy.serve (hcodec : codec.ReadsBack) (h : s.DescribedBy codec json w)
    {event : AuditEvent} {s' : AnchoredTrail}
    (hstep : (anchoredMachine codec json config).serve s event = some s') :
    ∃ w', w ≤ w' ∧ s'.DescribedBy codec json w' := by
  obtain ⟨trail, htrail, rfl⟩ := Option.map_eq_some_iff.mp hstep
  obtain ⟨records, hrecords, hinv⟩ := h.inv.service hcodec htrail
  have hle : w ≤ ⟨records, w.cut⟩ := ⟨hrecords, le_rfl⟩
  refine ⟨⟨records, w.cut⟩, hle, hinv, h.complete, ?_⟩
  rcases h.newest with hnone | ⟨anchor, hlatest, hgenuine, hcut⟩
  · exact .inl hnone
  · exact .inr ⟨anchor, hlatest, hgenuine.mono hle, hcut⟩

/-- The file after the line of a genuine anchor was appended. -/
theorem DescribedBy.written (hjson : json.Lawful) (h : s.DescribedBy codec json w) {anchor : Anchor}
    (hgenuine : w.Genuine codec anchor) :
    Anchor.latest json (s.text ++ anchor.encode json ++ "\n") = .ok (some anchor) := by
  obtain ⟨hpos, hlt⟩ := pos_lt h.inv hgenuine
  exact Anchor.latest_append hjson hpos hlt h.complete

/-- The call appends an anchor behind the recorded cut, or cuts past the newest line. -/
def Spoils (json : AnchorJson) (s : AnchoredTrail) : TrailCall → Prop
  | .writeLine line =>
      ∃ anchor, Anchor.parse json line = .ok anchor ∧ anchor.seq < s.trail.db.cutSeq
  | .cut throughSeq _ _ _ =>
      ∃ newest, Anchor.latest json s.text = .ok (some newest) ∧ newest.seq < throughSeq
  | _ => False

theorem DescribedBy.answer (hjson : json.Lawful) (h : s.DescribedBy codec json w)
    (outside : TrailOutside) {c : TrailCall} (hrequires : (trailContract codec json).requires c w)
    (hfine : ¬ s.Spoils json c) :
    ∃ w', w ≤ w' ∧ (s.answer outside c).1.DescribedBy codec json w' ∧
      (trailContract codec json).answers c (s.answer outside c).2 w' := by
  cases c with
  | openReadOnly => exact ⟨w, le_rfl, h, trivial⟩
  | requireCutTable => exact ⟨w, le_rfl, h, trivial⟩
  | auditStart => exact ⟨w, le_rfl, h, trivial⟩
  | readToString => exact ⟨w, le_rfl, h, trivial⟩
  | requireArchived removing => exact ⟨w, le_rfl, h, trivial⟩
  | nowMillis => exact ⟨w, le_rfl, h, trivial⟩
  | syncAll => exact ⟨w, le_rfl, h, trivial⟩
  | openDevice => exact ⟨w, le_rfl, h, trivial⟩
  | auditAll =>
      refine ⟨w, le_rfl, h, ?_⟩
      intro rows hreply row hrow
      obtain ⟨found, hfound, hlist⟩ := readRows_eq h.inv.trail
      have hread : query (outside.fault 0) (readRows s.trail.db) = .ok rows := hreply
      unfold query at hread
      split at hread
      · cases hread
      · rw [hfound, Except.ok.injEq] at hread
        rw [← hread, hlist] at hrow
        exact h.inv.trail.holds_of_mem_rowsOf hrow
  | openAppend =>
      refine ⟨w, le_rfl, ?_, trivial⟩
      unfold AnchoredTrail.answer
      dsimp only
      split
      · exact h
      · exact ⟨h.inv, h.complete, h.newest⟩
  | writeLine line =>
      refine ⟨w, le_rfl, ?_, trivial⟩
      obtain ⟨anchor, rfl, hgenuine⟩ := hrequires
      obtain ⟨hpos, hlt⟩ := pos_lt h.inv hgenuine
      unfold AnchoredTrail.answer
      dsimp only
      split
      · exact h
      · refine ⟨h.inv, Anchor.complete_append _ _,
          .inr ⟨anchor, h.written hjson hgenuine, hgenuine, ?_⟩⟩
        rw [← cutSeq_eq h.inv]
        by_contra hbehind
        exact hfine ⟨anchor, Anchor.parse_encode hjson hpos hlt, Nat.not_le.mp hbehind⟩
  | cut throughSeq throughHash nowMillis path =>
      unfold AnchoredTrail.answer
      dsimp only
      rcases h.inv.cut throughSeq throughHash nowMillis path outside.fault with
        ⟨error, heq⟩ | ⟨hlt, cut, hcuts, heq, hinv⟩
      · rw [heq]
        exact ⟨w, le_rfl, ⟨h.inv, h.complete, h.newest⟩, trivial⟩
      · rw [heq]
        have hle : w ≤ ⟨w.records, throughSeq⟩ := ⟨List.prefix_rfl, hlt.le⟩
        refine ⟨⟨w.records, throughSeq⟩, hle, ⟨hinv, h.complete, ?_⟩, trivial⟩
        rcases h.newest with hnone | ⟨anchor, hlatest, hgenuine, -⟩
        · exact .inl hnone
        · refine .inr ⟨anchor, hlatest, hgenuine.mono hle, ?_⟩
          by_contra hbehind
          exact hfine ⟨anchor, hlatest, Nat.not_le.mp hbehind⟩

/-- A call that is not in order, and that is performed, leaves a newest line that fails. -/
theorem DescribedBy.spoiled (hjson : json.Lawful) (h : s.DescribedBy codec json w)
    (outside : TrailOutside) {c : TrailCall} (hrequires : (trailContract codec json).requires c w)
    (hspoils : s.Spoils json c) (hchanged : (s.answer outside c).1 ≠ s) :
    (s.answer outside c).1.newestVerifies codec json = false := by
  cases c with
  | writeLine line =>
      obtain ⟨anchor, hparse, hbehind⟩ := hspoils
      obtain ⟨genuine, rfl, hgenuine⟩ := hrequires
      obtain ⟨hpos, hlt⟩ := pos_lt h.inv hgenuine
      rw [Anchor.parse_encode hjson hpos hlt, Except.ok.injEq] at hparse
      rw [cutSeq_eq h.inv, ← hparse] at hbehind
      unfold AnchoredTrail.answer at hchanged ⊢
      dsimp only at hchanged ⊢
      split at hchanged
      · exact absurd rfl hchanged
      · rw [newestVerifies_eq (s := { s with file := some (s.text ++ genuine.encode json ++ "\n") })
          h.inv (h.written hjson hgenuine) hgenuine, decide_eq_false (Nat.not_le.mpr hbehind)]
  | cut throughSeq throughHash nowMillis path =>
      obtain ⟨newest, hlatest, hbehind⟩ := hspoils
      unfold AnchoredTrail.answer at hchanged ⊢
      dsimp only at hchanged ⊢
      rcases h.inv.cut throughSeq throughHash nowMillis path outside.fault with
        ⟨error, heq⟩ | ⟨hlt, cut, hcuts, heq, hinv⟩
      · rw [heq] at hchanged
        exact absurd rfl hchanged
      · rw [heq]
        have hle : w ≤ ⟨w.records, throughSeq⟩ := ⟨List.prefix_rfl, hlt.le⟩
        have hgenuine : w.Genuine codec newest := by
          rcases h.newest with hnone | ⟨anchor, hanchor, hgenuine, -⟩
          · rw [hnone] at hlatest
            cases hlatest
          · rw [hanchor, Except.ok.injEq, Option.some.injEq] at hlatest
            exact hlatest ▸ hgenuine
        rw [newestVerifies_eq (s := { s with trail := s.trail.withDb (s.trail.db.afterCut cut) })
          (w := ⟨w.records, throughSeq⟩) hinv hlatest (hgenuine.mono hle),
          decide_eq_false (Nat.not_le.mpr hbehind)]
  | _ => exact hspoils.elim

end AnchoredTrail

section Runs

variable {codec : Codec} {json : AnchorJson} {config : Config}

/-- What `inOrder` says of the call that a command makes next. -/
theorem inOrder_advance {s : AnchoredRun} {i : Nat} (outside : TrailOutside) {c : TrailCall}
    (hc : s.nextCall i = some c) :
    inOrder json s (.advance i outside) = true ↔ ¬ s.shared.Spoils json c := by
  unfold inOrder AnchoredTrail.Spoils
  dsimp only
  rw [hc]
  cases c with
  | writeLine line =>
      dsimp only
      cases Anchor.parse json line with
      | ok anchor => simp
      | error error => simp
  | cut throughSeq throughHash nowMillis path =>
      dsimp only
      cases Anchor.latest json s.shared.text with
      | error error => simp
      | ok newest =>
          cases newest with
          | none => simp
          | some newest => simp
  | _ => simp

theorem described_of_reachable (hcodec : codec.ReadsBack) (hjson : json.Lawful) {s : AnchoredRun}
    (hs : Transition.Reachable AnchoredRun.Fresh (anchoredMachine codec json config).step
      (fun s event => inOrder json s event = true) s) :
    s.Described (trailContract codec json) (AnchoredTrail.DescribedBy codec json) := by
  refine Script.Machine.described ?_ ?_ ?_ ?_ hs
  · intro s hfresh
    obtain ⟨htrail, htext, hscripts⟩ := hfresh
    refine ⟨hscripts, ⟨[], 0⟩, Trail.inv_fresh htrail, ?_, .inl ?_⟩
    · rw [htext]
      exact .inl rfl
    · rw [htext]
      rfl
  · intro shared w event shared' h hserve
    exact h.serve hcodec hserve
  · intro args w
    cases args with
    | anchor out => exact takeAnchor_keeps out
    | cut args => exact cutTrail_keeps args
  · intro s w i outside c h hc hok hrequires
    exact h.answer hjson outside hrequires ((inOrder_advance outside hc).mp hok)

/-- In any interleaving of the service and any number of commands, each stopped anywhere, in which no
anchor is appended behind the recorded cut and no cut goes past the newest line, the newest line
verifies; and the first step that changes the store or the file and is not so makes it fail. -/
theorem anchor_file_stays_usable (codec : Codec) (json : AnchorJson) (config : Config)
    (hcodec : codec.ReadsBack) (hjson : json.Lawful) (s : AnchoredRun)
    (hs : Transition.Reachable AnchoredRun.Fresh (anchoredMachine codec json config).step
      (fun s event => inOrder json s event = true) s) :
    s.shared.newestVerifies codec json = true ∧
      ∀ event s', (anchoredMachine codec json config).step s event = some s' →
        (s'.shared.newestVerifies codec json = true ↔
          inOrder json s event = true ∨ s'.shared = s.shared) := by
  obtain ⟨w, h, hkeeps⟩ := described_of_reachable hcodec hjson hs
  refine ⟨h.newestVerifies, ?_⟩
  intro event s' hstep
  constructor
  · intro hverifies
    by_contra hspoiled
    rw [not_or, Bool.not_eq_true] at hspoiled
    obtain ⟨hnot, hchanged⟩ := hspoiled
    cases event with
    | serve event => cases hnot
    | start args => cases hnot
    | stop i => cases hnot
    | advance i outside =>
        obtain ⟨c, next, hat, hc, rfl⟩ := Script.Machine.step_advance hstep
        obtain ⟨hrequires, -⟩ := hkeeps _ (List.mem_of_getElem? hat) w le_rfl
        have hspoils : s.shared.Spoils json c := by
          by_contra hfine
          rw [(inOrder_advance outside hc).mpr hfine] at hnot
          cases hnot
        have hfails := h.spoiled hjson outside hrequires hspoils hchanged
        exact absurd (hfails.symm.trans hverifies) (by decide)
  · rintro (horder | hsame)
    · obtain ⟨w', h', -⟩ := described_of_reachable hcodec hjson (.next hs horder hstep)
      exact h'.newestVerifies
    · rw [hsame]
      exact h.newestVerifies

end Runs

namespace Sample

/-- No call fails, and the archive is complete. -/
def quiet : TrailOutside := ⟨fun _ => none, millis, .ok ()⟩

def anchorPath : String := "/backup/ciphr.anchors"

/-- The arguments of `ciphr audit cut --keep 1`. -/
def keepOne : CutArgs := ⟨1, Nat.one_pos, anchorPath, false⟩

/-- A command makes its next `n` calls. -/
def advances (i n : Nat) : List (Script.Happens AuditEvent TrailOutside TrailArgs) :=
  List.replicate n (.advance i quiet)

def recordOne : Script.Happens AuditEvent TrailOutside TrailArgs :=
  .serve (.record entry millis noFaults)

def anchoredStart : AnchoredRun := ⟨⟨⟨start, []⟩, none⟩, []⟩

theorem anchoredStart_fresh : anchoredStart.Fresh := ⟨⟨start_fresh, rfl⟩, rfl, rfl⟩

/-- A cut through the first of two records, stopped before it appends an anchor over the other. -/
def cutAndStopped : List (Script.Happens AuditEvent TrailOutside TrailArgs) :=
  [.serve (.restart noFaults noFaults), recordOne, recordOne, .start (.cut keepOne)] ++
    advances 0 13 ++ [.stop 0]

theorem anchor_file_stays_usable_after_cut :
    ∃ s, Transition.run (anchoredMachine readingCodec anchorJson storeAndFileConfig).step
        anchoredStart cutAndStopped = some s ∧ s.shared.trail.db.cutSeq = 1 ∧
      s.shared.newestVerifies readingCodec anchorJson = true := by
  have hrun : (Transition.run (anchoredMachine readingCodec anchorJson storeAndFileConfig).step
      anchoredStart cutAndStopped).map (·.shared.trail.db.cutSeq) = some 1 := by
    decide +kernel
  obtain ⟨s, hs, hcut⟩ := Option.map_eq_some_iff.mp hrun
  have hreachable : Transition.Reachable AnchoredRun.Fresh
      (anchoredMachine readingCodec anchorJson storeAndFileConfig).step
      (fun s event => inOrder anchorJson s event = true) s :=
    Transition.reachable_of_run cutAndStopped (.start anchoredStart_fresh) (by decide +kernel) hs
  exact ⟨s, hs, hcut, (anchor_file_stays_usable readingCodec anchorJson storeAndFileConfig
    readingCodec_readsBack anchorJson_lawful s hreachable).1⟩

/-- A command has verified one record and is about to append the anchor over it; two more are
recorded, a cut through the second runs to its end, and then the command appends its line. -/
def anchoredLate : List (Script.Happens AuditEvent TrailOutside TrailArgs) :=
  [.serve (.restart noFaults noFaults), recordOne, .start (.anchor anchorPath)] ++ advances 0 5 ++
    [recordOne, recordOne, .start (.cut keepOne)] ++ advances 1 17 ++ advances 0 3

def anchorOver (seq : Nat) (hash : Hash) : Anchor := ⟨"2026-01-01T00:00:00.000Z", seq, hash⟩

/-- What the three appends have left in the file. -/
def lateText : String :=
  ("" ++ (anchorOver 2 hash2).encode anchorJson ++ "\n" ++ (anchorOver 3 hash3).encode anchorJson ++
    "\n") ++ (anchorOver 1 hash1).encode anchorJson ++ "\n"

/-- The check against the anchor over the first record. -/
def checksFirst (s : AnchoredTrail) : Bool :=
  match s.trail.db.startOf, AnchoredTrail.readRows s.trail.db with
  | .ok start, .ok rows =>
      (readingCodec.verifyWithAnchor (anchorOver 1 hash1) start rows.storedRecords).isOk
  | _, _ => false

theorem late_anchor_does_not_verify :
    ∃ s, Transition.Reachable AnchoredRun.Fresh
        (anchoredMachine readingCodec anchorJson storeAndFileConfig).step (fun _ _ => True) s ∧
      s.shared.newestVerifies readingCodec anchorJson = false := by
  have hrun : (Transition.run (anchoredMachine readingCodec anchorJson storeAndFileConfig).step
      anchoredStart anchoredLate).map (fun s => (s.shared.text, checksFirst s.shared)) =
        some (lateText, false) := by
    decide +kernel
  obtain ⟨s, hs, hfacts⟩ := Option.map_eq_some_iff.mp hrun
  rw [Prod.mk.injEq] at hfacts
  refine ⟨s, Transition.reachable_of_any_run anchoredLate (.start anchoredStart_fresh) hs, ?_⟩
  have hlatest : Anchor.latest anchorJson s.shared.text = .ok (some (anchorOver 1 hash1)) := by
    rw [hfacts.1]
    exact Anchor.latest_append anchorJson_lawful (by decide) (by decide) (Anchor.complete_append _ _)
  unfold AnchoredTrail.newestVerifies
  rw [hlatest]
  exact hfacts.2

end Sample

end Ciphr
