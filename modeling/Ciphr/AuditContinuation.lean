import Ciphr.LibTransition
import Ciphr.AuditVerify

/-!
What a chain encodes, its verification accepts. A list of records continues a chain when each of them
is what the chain encodes next; the records of every run of `encode` and `commit` do, and a list that
does verifies from the place where the chain began, to the head it has come to.
-/

namespace Ciphr

/-- What `serde_json` is relied on for: the number and the hash that a record was serialized with are
read back from its text, where the number is one of 64 bits. -/
def Codec.ReadsBack (codec : Codec) : Prop :=
  ∀ record text, codec.recordToString record = .ok text → record.seq < 2 ^ 64 →
    codec.headerFromStr text = .ok ⟨record.seq, record.prevHash⟩

/-- The payload says what the record says, and the hash is that of the payload. -/
structure Codec.WellEncoded (codec : Codec) (record : EncodedRecord) : Prop where
  header : codec.headerFromStr record.payload =
    .ok ⟨record.seq, Hex.encode record.prevHash.toList⟩
  hash : record.hash = codec.hashPayload record.payload

/-- A stored copy of a record, with the hash beside it or without. -/
structure StoredRecord.CopyOf (record : EncodedRecord) (stored : StoredRecord) : Prop where
  seq : stored.seq = record.seq
  payload : stored.payload = record.payload
  hash : ∀ hash, stored.hash = some hash → hash = record.hash

/-- The chain after a list of records that continues another chain. -/
def Chain.after (start : Chain) (records : List EncodedRecord) : Chain :=
  match records.getLast? with
  | none => start
  | some record => .resume record.seq record.hash

/-- Records that continue a chain one after the other. -/
def Chain.Continued : Chain → List EncodedRecord → Prop
  | _, [] => True
  | chain, record :: records =>
      record.seq = chain.nextSeq ∧ record.prevHash = chain.prevHash ∧
        Continued (.resume record.seq record.hash) records

namespace Chain

theorem after_concat (start : Chain) (records : List EncodedRecord) (record : EncodedRecord) :
    start.after (records ++ [record]) = .resume record.seq record.hash := by
  simp [after]

theorem after_cons (start : Chain) (record : EncodedRecord) (records : List EncodedRecord) :
    start.after (record :: records) = (Chain.resume record.seq record.hash).after records := by
  cases records with
  | nil => rfl
  | cons other records =>
      unfold after
      rw [List.getLast?_cons_cons, List.getLast?_cons]

theorem continued_concat {start : Chain} {records : List EncodedRecord} {record : EncodedRecord} :
    start.Continued (records ++ [record]) ↔
      start.Continued records ∧ record.seq = (start.after records).nextSeq ∧
        record.prevHash = (start.after records).prevHash := by
  induction records generalizing start with
  | nil => simp [Continued, after]
  | cons first records ih =>
      simp only [List.cons_append, Continued, ih, after_cons]
      tauto

theorem continued_append {start : Chain} {records more : List EncodedRecord} :
    start.Continued (records ++ more) ↔
      start.Continued records ∧ (start.after records).Continued more := by
  induction records generalizing start with
  | nil =>
      simp only [List.nil_append, Continued, true_and]
      rfl
  | cons record records ih => simp only [List.cons_append, Continued, ih, after_cons, and_assoc]

/-- A record that a chain encodes continues it. -/
theorem Continued.encode {codec : Codec} {start : Chain} {records : List EncodedRecord} {entry : Entry}
    {nowMillis : Int} {record : EncodedRecord} (h : start.Continued records)
    (hencode : (start.after records).encode codec entry nowMillis = .ok record) :
    start.Continued (records ++ [record]) :=
  continued_concat.mpr ⟨h, (encode_eq_ok hencode).1, (encode_eq_ok hencode).2.1⟩

theorem Continued.seq {start : Chain} {records : List EncodedRecord} (h : start.Continued records)
    {i : Nat} {record : EncodedRecord} (hi : records[i]? = some record) :
    record.seq = start.nextSeq + i := by
  induction records generalizing start i with
  | nil => cases hi
  | cons first records ih =>
      obtain ⟨hseq, -, hrest⟩ := h
      cases i with
      | zero =>
          cases hi
          exact hseq
      | succ i =>
          have := ih hrest hi
          simp only [resume] at this
          omega

theorem Continued.eq_of_seq_eq {start : Chain} {records : List EncodedRecord}
    (h : start.Continued records) {record record' : EncodedRecord} (hmem : record ∈ records)
    (hmem' : record' ∈ records) (hseq : record.seq = record'.seq) : record = record' := by
  obtain ⟨i, hi⟩ := List.mem_iff_getElem?.mp hmem
  obtain ⟨j, hj⟩ := List.mem_iff_getElem?.mp hmem'
  have hij : i = j := by
    have := h.seq hi
    have := h.seq hj
    omega
  rw [hij, hj] at hi
  exact (Option.some.inj hi).symm

/-- The last record has the greatest number. -/
theorem Continued.seq_le_last {start : Chain} {records : List EncodedRecord}
    (h : start.Continued records) {record last : EncodedRecord} (hmem : record ∈ records)
    (hlast : records.getLast? = some last) : record.seq ≤ last.seq := by
  obtain ⟨i, hi⟩ := List.mem_iff_getElem?.mp hmem
  rw [List.getLast?_eq_getElem?] at hlast
  have hlt := (List.getElem?_eq_some_iff.mp hi).1
  have := h.seq hi
  have := h.seq hlast
  omega

end Chain

namespace Chain

/-- The record is the next one of the chain. -/
structure Next (codec : Codec) (chain : Chain) (record : EncodedRecord) : Prop where
  seq : record.seq = chain.nextSeq
  prevHash : record.prevHash = chain.prevHash
  wellEncoded : codec.WellEncoded record

/-- Each record is the next one of the chain after those before it. -/
structure Continues (codec : Codec) (chain : Chain) (records : List EncodedRecord) : Prop where
  continued : chain.Continued records
  wellEncoded : ∀ record ∈ records, codec.WellEncoded record

variable {codec : Codec} {chain : Chain}

theorem continues_nil : chain.Continues codec [] := ⟨trivial, by simp⟩

theorem Continues.concat {records : List EncodedRecord} {record : EncodedRecord}
    (h : chain.Continues codec records) (hnext : (chain.after records).Next codec record) :
    chain.Continues codec (records ++ [record]) := by
  refine ⟨continued_concat.mpr ⟨h.continued, hnext.seq, hnext.prevHash⟩, ?_⟩
  intro other hother
  rcases List.mem_append.mp hother with hold | hnew
  · exact h.wellEncoded other hold
  · rw [List.mem_singleton.mp hnew]
    exact hnext.wellEncoded

theorem Continues.take {records : List EncodedRecord} (h : chain.Continues codec records) (n : Nat) :
    chain.Continues codec (records.take n) := by
  have hall := h.continued
  rw [← List.take_append_drop n records, continued_append] at hall
  exact ⟨hall.1, fun record hmem => h.wellEncoded record (List.mem_of_mem_take hmem)⟩

theorem Continued.after_nextSeq {records : List EncodedRecord} (h : chain.Continued records) :
    (chain.after records).nextSeq = chain.nextSeq + records.length := by
  unfold after
  split
  · rename_i hlast
    rw [List.getLast?_eq_none_iff] at hlast
    rw [hlast, List.length_nil, Nat.add_zero]
  · rename_i last hlast
    rw [List.getLast?_eq_getElem?] at hlast
    have hlt := (List.getElem?_eq_some_iff.mp hlast).1
    have hseq := h.seq hlast
    simp only [resume]
    omega

/-- What a chain encodes is its next record. -/
theorem next_of_encode (hcodec : codec.ReadsBack) {entry : Entry} {nowMillis : Int}
    {record : EncodedRecord} (h : chain.encode codec entry nowMillis = .ok record)
    (hfits : chain.nextSeq < 2 ^ 64) : chain.Next codec record := by
  obtain ⟨hseq, hprev, hhash, -, htext⟩ := encode_eq_ok h
  refine ⟨hseq, hprev, ?_, hhash⟩
  rw [hseq, hprev]
  exact hcodec _ _ htext hfits

end Chain

namespace Codec

variable {codec : Codec} {chain : Chain}

/-- One round of the verification on a copy of the next record. -/
theorem verifyRecord_copy {state : Verification} {record : EncodedRecord} {stored : StoredRecord}
    (hcopy : StoredRecord.CopyOf record stored) (hwell : codec.WellEncoded record)
    (hprevious : record.prevHash = state.previous)
    (hexpected : ∀ expected, state.expectedSeq = some expected → record.seq = expected) :
    codec.verifyRecord state stored =
      .ok ⟨record.hash, some ((record.seq + 1) % 2 ^ 64), state.count + 1, record.seq⟩ := by
  have hfilter : state.expectedSeq.filter (fun seq => decide (seq ≠ stored.seq)) = none := by
    cases hstate : state.expectedSeq with
    | none => rfl
    | some expected =>
        rw [hcopy.seq, hexpected expected hstate]
        simp [Option.filter]
  have hdecode : Hex.decodeInto (Hex.encode record.prevHash.toList) (List.replicate 32 0) =
      (record.prevHash.toList, .ok ()) := Hex.decodeInto_encode _ _ (by simp)
  have hstored : ¬ stored.hash.any (fun hash => decide (hash ≠ record.hash)) = true := by
    cases hhash : stored.hash with
    | none => simp
    | some hash => simp [hcopy.hash hash hhash]
  unfold verifyRecord
  rw [hfilter, hcopy.payload, hwell.header]
  dsimp only
  rw [if_neg (by simp [hcopy.seq]), hdecode]
  dsimp only
  rw [if_neg (by simp [hprevious]), ← hwell.hash, if_neg hstored, hcopy.seq]

/-- The loop of `verify` on copies of records that continue a chain. -/
theorem verifyRecords_continues (state : Verification) {records : List EncodedRecord}
    {copies : List StoredRecord} (hcopies : List.Forall₂ StoredRecord.CopyOf records copies)
    (h : chain.Continues codec records) (hfits : chain.nextSeq + records.length < 2 ^ 64)
    (hprevious : state.previous = chain.prevHash)
    (hexpected : ∀ expected, state.expectedSeq = some expected → chain.nextSeq = expected) :
    ∃ state', copies.foldlM codec.verifyRecord state = .ok state' ∧
      state'.previous = (chain.after records).prevHash ∧
      state'.count = state.count + records.length ∧
      state'.headSeq = match records.getLast? with
        | some last => last.seq
        | none => state.headSeq := by
  induction hcopies generalizing chain state with
  | nil => exact ⟨state, rfl, hprevious, rfl, rfl⟩
  | @cons record stored records copies hcopy _ ih =>
      obtain ⟨⟨hseq, hprev, hrest⟩, hwell⟩ := h
      have hround := verifyRecord_copy hcopy (hwell record List.mem_cons_self)
        (hprev.trans hprevious.symm) (fun expected he => hseq.trans (hexpected expected he))
      rw [List.length_cons] at hfits
      have hwraps : (record.seq + 1) % 2 ^ 64 = record.seq + 1 := Nat.mod_eq_of_lt (by omega)
      have hmore : (Chain.resume record.seq record.hash).nextSeq + records.length < 2 ^ 64 := by
        simp only [Chain.resume]
        omega
      obtain ⟨state', hfold, hprev', hcount', hhead'⟩ := ih
        ⟨record.hash, some ((record.seq + 1) % 2 ^ 64), state.count + 1, record.seq⟩
        ⟨hrest, fun other hother => hwell other (List.mem_cons_of_mem _ hother)⟩ hmore rfl (by
          intro expected he
          rw [Option.some.injEq] at he
          rw [← he, hwraps]
          rfl)
      refine ⟨state', ?_, ?_, ?_, ?_⟩
      · rw [List.foldlM_cons, hround]
        exact hfold
      · rw [hprev', Chain.after_cons]
      · rw [hcount', List.length_cons]
        dsimp only
        omega
      · rw [hhead', List.getLast?_cons]
        cases records.getLast? with
        | none => rfl
        | some last => rfl

end Codec

/-- The chain that begins where a verification does. -/
def Start.chain : Start → Chain
  | .genesis => .new
  | .afterCut seq hash => .resume seq hash

theorem Start.chain_prevHash (start : Start) : start.chain.prevHash = start.expectedPrev := by
  cases start with
  | genesis => rfl
  | afterCut seq hash => rfl

/-- `first_seq` stops at the last number of 64 bits, where `resume` has none to go on with. -/
theorem Start.chain_nextSeq {start : Start} (h : start.chain.nextSeq < 2 ^ 64) :
    start.chain.nextSeq = start.firstSeq := by
  cases start with
  | genesis => rfl
  | afterCut seq hash =>
      simp only [Start.chain, Chain.resume, Start.firstSeq] at h ⊢
      omega

/-- Records that continue a chain verify from where it began, to where it has come. -/
theorem Codec.verifyFrom_continues {codec : Codec} {start : Start} {records : List EncodedRecord}
    {copies : List StoredRecord} (hcopies : List.Forall₂ StoredRecord.CopyOf records copies)
    (h : start.chain.Continues codec records)
    (hfits : start.chain.nextSeq + records.length < 2 ^ 64) :
    ∃ verified, codec.verifyFrom start copies = .ok verified ∧
      verified.headHash = (start.chain.after records).prevHash ∧
      verified.records = records.length ∧
      ∀ last, records.getLast? = some last → verified.headSeq = last.seq := by
  obtain ⟨state, hfold, hprevious, hcount, hhead⟩ := verifyRecords_continues
    ⟨start.expectedPrev, none, 0, 0⟩ hcopies h hfits (start.chain_prevHash).symm (by simp)
  have hfirst : copies.head?.filter (fun record => decide (record.seq ≠ start.firstSeq)) = none := by
    cases hcopies with
    | nil => rfl
    | cons hcopy _ =>
        have hseq := (hcopy.seq.trans h.continued.1).trans (Start.chain_nextSeq (by omega))
        simp [Option.filter, hseq]
  refine ⟨⟨state.count, state.headSeq, state.previous⟩, ?_, hprevious, ?_, ?_⟩
  · unfold verifyFrom verify
    rw [hfirst]
    dsimp only
    rw [hfold]
    rfl
  · rw [hcount]
    exact Nat.zero_add _
  · intro last hlast
    rw [hhead, hlast]

end Ciphr
