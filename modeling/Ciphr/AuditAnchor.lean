import Ciphr.AuditVerify

/-!
`ciphr-audit/src/anchor.rs`: verification against a copy of the chain head kept outside the store,
and that nothing at or before the anchored record can be changed under it.
-/

namespace Ciphr

/-- A chain head, recorded outside the store. -/
structure Anchor where
  takenAt : String
  seq : Nat
  hash : Hash
  deriving DecidableEq

namespace Anchor

def ofVerified (verified : Verified) (nowMillis : Int) : Anchor :=
  ⟨rfc3339Millis nowMillis, verified.headSeq, verified.headHash⟩

def asStart (anchor : Anchor) : Start := .afterCut anchor.seq anchor.hash

end Anchor

/-- A slice of records: no slice takes more than half of a 64-bit address space. -/
structure RecordSlice where
  toList : List StoredRecord
  length_lt : toList.length < 2 ^ 63

namespace Codec

variable (codec : Codec)

def verifyWithAnchor (anchor : Anchor) (start : Start) (records : RecordSlice) :
    Except ChainBreak Verified :=
  let unreachable (headSeq : Nat) : ChainBreak := ⟨anchor.seq, .anchorUnreachable headSeq⟩
  match records.toList.head? with
  | none => .error (unreachable 0)
  | some first => do
      let headSeq := (records.toList.getLast?.map (·.seq)).getD 0
      let verified ← codec.verifyFrom start records.toList
      if anchor.seq = start.firstSeq - 1 then
        let claimed := start.expectedPrev
        if claimed ≠ anchor.hash then
          .error ⟨anchor.seq, .anchorMismatch (Hex.encode anchor.hash.toList)
            (Hex.encode claimed.toList)⟩
        else .ok verified
      else if anchor.seq < first.seq ∨ headSeq < anchor.seq then .error (unreachable headSeq)
      else
        match records.toList.find? (·.seq == anchor.seq) with
        | none => .error (unreachable verified.headSeq)
        | some anchored =>
            let computed := codec.hashPayload anchored.payload
            if computed ≠ anchor.hash then
              .error ⟨anchor.seq, .anchorMismatch (Hex.encode anchor.hash.toList)
                (Hex.encode computed.toList)⟩
            else .ok verified

variable {codec}

theorem verifyWithAnchor_eq_ok {anchor : Anchor} {start : Start} {records : RecordSlice}
    {verified : Verified} (h : codec.verifyWithAnchor anchor start records = .ok verified) :
    codec.verifyFrom start records.toList = .ok verified ∧
      (anchor.seq = start.firstSeq - 1 ∨ ∃ record ∈ records.toList, record.seq = anchor.seq ∧
        codec.hashPayload record.payload = anchor.hash) := by
  unfold verifyWithAnchor at h
  simp only at h
  split at h
  · cases h
  · obtain ⟨found, hfound, h⟩ := Loop.bind_eq_ok h
    split at h
    · rename_i hcut
      split at h
      · cases h
      · cases h
        exact ⟨hfound, .inl hcut⟩
    · split at h
      · cases h
      · split at h
        · cases h
        · rename_i record hrecord
          split at h
          · cases h
          · rename_i hhash
            cases h
            exact ⟨hfound, .inr ⟨record, List.mem_of_find?_eq_some hrecord,
              by simpa using List.find?_some hrecord, not_not.mp hhash⟩⟩

/-! ### What an anchor commits to -/

theorem index_eq_of_seq_eq (first : Nat) {i j : Nat} (hi : i < 2 ^ 63) (hj : j < 2 ^ 63)
    (h : (first + i) % 2 ^ 64 = (first + j) % 2 ^ 64) : i = j := by
  omega

theorem firstSeq_pos (start : Start) : 0 < start.firstSeq := by
  cases start with
  | genesis => decide
  | afterCut seq hash =>
      simp only [Start.firstSeq]
      omega

/-- The anchored record stands at number `k` of a list that verifies. -/
structure AnchoredAt (codec : Codec) (anchor : Anchor) (start : Start)
    (records : List StoredRecord) (k : Nat) : Prop where
  counts : CountsFrom start.firstSeq records
  linked : codec.LinkedFrom start.expectedPrev (records.map (·.payload))
  consistent : ∀ record ∈ records, codec.Consistent record
  length_lt : records.length < 2 ^ 63
  anchored : ∃ record, records[k]? = some record ∧ record.seq = anchor.seq ∧
    codec.hashPayload record.payload = anchor.hash

variable {anchor : Anchor} {start : Start}

theorem seq_ne_cut {records : List StoredRecord} (hcounts : CountsFrom start.firstSeq records)
    (hlength : records.length < 2 ^ 63) {record : StoredRecord} (hrecord : record ∈ records) :
    record.seq ≠ start.firstSeq - 1 := by
  obtain ⟨i, hi⟩ := List.mem_iff_getElem?.mp hrecord
  have hlt := (List.getElem?_eq_some_iff.mp hi).1
  have hpos := firstSeq_pos start
  have hbound := firstSeq_lt start
  rw [hcounts i record hi]
  omega

theorem anchoredAt_of_inside {records : RecordSlice} {verified : Verified}
    (h : codec.verifyWithAnchor anchor start records = .ok verified)
    (hnotcut : anchor.seq ≠ start.firstSeq - 1) :
    ∃ k, AnchoredAt codec anchor start records.toList k := by
  obtain ⟨hverified, hplace⟩ := verifyWithAnchor_eq_ok h
  obtain ⟨hcounts, hlinked, hconsistent⟩ := verifyFrom_eq_ok hverified
  obtain ⟨record, hmem, hseq, hhash⟩ := hplace.resolve_left hnotcut
  obtain ⟨k, hk⟩ := List.mem_iff_getElem?.mp hmem
  exact ⟨k, hcounts, hlinked, hconsistent, records.length_lt, record, hk, hseq, hhash⟩

namespace AnchoredAt

variable {records records' : List StoredRecord} {k k' : Nat}

theorem lt_length (h : AnchoredAt codec anchor start records k) : k < records.length := by
  obtain ⟨record, hk, -⟩ := h.anchored
  exact (List.getElem?_eq_some_iff.mp hk).1

theorem index_eq (h : AnchoredAt codec anchor start records k)
    (h' : AnchoredAt codec anchor start records' k') : k = k' := by
  obtain ⟨record, hk, hseq, -⟩ := h.anchored
  obtain ⟨record', hk', hseq', -⟩ := h'.anchored
  refine index_eq_of_seq_eq start.firstSeq (Nat.lt_trans h.lt_length h.length_lt)
    (Nat.lt_trans h'.lt_length h'.length_lt) ?_
  rw [← h.counts k record hk, ← h'.counts k' record' hk', hseq, hseq']

theorem headHash_eq (h : AnchoredAt codec anchor start records k) (previous : List UInt8) :
    HashChain.headHash (fun payload => (codec.hashPayload payload).toList) previous
      ((records.map (·.payload)).take (k + 1)) = anchor.hash.toList := by
  obtain ⟨record, hk, -, hhash⟩ := h.anchored
  rw [List.take_add_one, List.getElem?_map, hk, HashChain.headHash_append, ← hhash]
  rfl

/-- The payloads up to the anchored record are the same in every list that verifies. -/
theorem payloads_eq (h : AnchoredAt codec anchor start records k)
    (h' : AnchoredAt codec anchor start records' k)
    (hinj : ∀ record ∈ records, ∀ record' ∈ records',
      codec.hashPayload record.payload = codec.hashPayload record'.payload →
        record.payload = record'.payload) :
    (records.map (·.payload)).take (k + 1) = (records'.map (·.payload)).take (k + 1) := by
  have hlt := h.lt_length
  have hlt' := h'.lt_length
  refine HashChain.eq_of_headHash_eq (k + 1) (h.linked.take _) (h'.linked.take _) ?_ ?_ ?_ ?_
  · rw [List.length_take, List.length_map]
    omega
  · rw [List.length_take, List.length_map]
    omega
  · intro p hp p' hp' heq
    obtain ⟨record, hrecord, rfl⟩ := List.mem_map.mp (List.mem_of_mem_take hp)
    obtain ⟨record', hrecord', rfl⟩ := List.mem_map.mp (List.mem_of_mem_take hp')
    exact hinj record hrecord record' hrecord' (Vector.toList_inj.mp heq)
  · rw [h.headHash_eq, h'.headHash_eq]

end AnchoredAt

/-- The records up to and including the first one with a sequence number. -/
def upTo (seq : Nat) (records : List StoredRecord) : List StoredRecord :=
  records.take (records.findIdx (·.seq == seq) + 1)

theorem AnchoredAt.findIdx_eq {records : List StoredRecord} {k : Nat}
    (h : AnchoredAt codec anchor start records k) :
    records.findIdx (·.seq == anchor.seq) = k := by
  have hlt := h.lt_length
  obtain ⟨record, hk, hseq, -⟩ := h.anchored
  rw [List.findIdx_eq hlt]
  constructor
  · rw [List.getElem?_eq_getElem hlt, Option.some.injEq] at hk
    rw [hk, hseq]
    exact beq_self_eq_true _
  · intro j hj
    have hjlt := Nat.lt_trans hj hlt
    rw [beq_eq_false_iff_ne]
    intro hsame
    have hcount := h.counts j records[j] (List.getElem?_eq_getElem hjlt)
    have hcountk := h.counts k record hk
    have hbound := h.length_lt
    have : j = k := index_eq_of_seq_eq start.firstSeq (by omega) (by omega) (by omega)
    omega

/-- What may have been done to the records at or before the one with a sequence number. -/
inductive Tampered (seq : Nat) : List StoredRecord → List StoredRecord → Prop
  | edited (before : List StoredRecord) (record record' : StoredRecord)
      (after : List StoredRecord) (hbefore : ∀ other ∈ before, other.seq ≠ seq)
      (hedit : record'.payload ≠ record.payload ∨ record'.seq ≠ record.seq ∨
        ∃ hash hash', record.hash = some hash ∧ record'.hash = some hash' ∧ hash' ≠ hash) :
      Tampered seq (before ++ record :: after) (before ++ record' :: after)
  | removed (before : List StoredRecord) (record : StoredRecord) (after : List StoredRecord)
      (hbefore : ∀ other ∈ before, other.seq ≠ seq) :
      Tampered seq (before ++ record :: after) (before ++ after)
  | inserted (before : List StoredRecord) (record : StoredRecord) (after : List StoredRecord)
      (hbefore : ∀ other ∈ before, other.seq ≠ seq) :
      Tampered seq (before ++ after) (before ++ record :: after)
  | duplicated (before : List StoredRecord) (record : StoredRecord) (after : List StoredRecord)
      (hbefore : ∀ other ∈ before, other.seq ≠ seq) (hrecord : record ∈ before ++ after) :
      Tampered seq (before ++ after) (before ++ record :: after)
  | reordered (records records' : List StoredRecord) (hperm : records.Perm records')
      (hmoved : upTo seq records' ≠ upTo seq records) : Tampered seq records records'

namespace AnchoredAt

variable {records records' : List StoredRecord} {k : Nat}

/-- A record stands in a verified list where its sequence number says. -/
theorem index_of_record (h : AnchoredAt codec anchor start records k)
    (h' : AnchoredAt codec anchor start records' k) {record : StoredRecord} {i j : Nat}
    (hi : records[i]? = some record) (hj : records'[j]? = some record) : i = j := by
  have hilt := (List.getElem?_eq_some_iff.mp hi).1
  have hjlt := (List.getElem?_eq_some_iff.mp hj).1
  refine index_eq_of_seq_eq start.firstSeq (Nat.lt_trans hilt h.length_lt)
    (Nat.lt_trans hjlt h'.length_lt) ?_
  rw [← h.counts i record hi, ← h'.counts j record hj]

theorem length_le_of_not_anchored {before after : List StoredRecord}
    (h : AnchoredAt codec anchor start (before ++ after) k)
    (hbefore : ∀ other ∈ before, other.seq ≠ anchor.seq) : before.length ≤ k := by
  by_contra hlt
  obtain ⟨record, hk, hseq, -⟩ := h.anchored
  rw [List.getElem?_append_left (Nat.not_le.mp hlt)] at hk
  exact hbefore record (List.mem_of_getElem? hk) hseq

theorem not_edited {before after : List StoredRecord} {record record' : StoredRecord}
    (h : AnchoredAt codec anchor start (before ++ record :: after) k)
    (h' : AnchoredAt codec anchor start (before ++ record' :: after) k)
    (hbefore : ∀ other ∈ before, other.seq ≠ anchor.seq)
    (hinj : ∀ r ∈ before ++ record :: after, ∀ r' ∈ before ++ record' :: after,
      codec.hashPayload r.payload = codec.hashPayload r'.payload → r.payload = r'.payload) :
    record'.payload = record.payload ∧ record'.seq = record.seq ∧
      ∀ hash hash', record.hash = some hash → record'.hash = some hash' → hash' = hash := by
  have hle := h.length_le_of_not_anchored hbefore
  have hrecord : (before ++ record :: after)[before.length]? = some record := by simp
  have hrecord' : (before ++ record' :: after)[before.length]? = some record' := by simp
  have hpayload : record'.payload = record.payload := by
    have hpayloads := congrArg (fun payloads => payloads[before.length]?) (h.payloads_eq h' hinj)
    simp only [List.getElem?_take_of_lt (Nat.lt_succ_of_le hle), List.getElem?_map, hrecord,
      hrecord', Option.map_some, Option.some.injEq] at hpayloads
    exact hpayloads.symm
  refine ⟨hpayload, ?_, ?_⟩
  · rw [h.counts _ _ hrecord, h'.counts _ _ hrecord']
  · intro hash hash' hhash hhash'
    rw [(h.consistent record (by simp)).2 hash hhash,
      (h'.consistent record' (by simp)).2 hash' hhash', hpayload]

theorem not_removed {before after : List StoredRecord} {record : StoredRecord}
    (h : AnchoredAt codec anchor start (before ++ record :: after) k)
    (h' : AnchoredAt codec anchor start (before ++ after) k)
    (hbefore : ∀ other ∈ before, other.seq ≠ anchor.seq) : False := by
  have hle := h'.length_le_of_not_anchored hbefore
  have hlt := h'.lt_length
  rw [List.length_append] at hlt
  cases after with
  | nil => simp at hlt; omega
  | cons next after =>
      have hnext : (before ++ record :: next :: after)[before.length + 1]? = some next := by
        rw [List.getElem?_append_right (by omega)]
        simp
      have hnext' : (before ++ next :: after)[before.length]? = some next := by simp
      have := h.index_of_record h' hnext hnext'
      omega

theorem not_inserted {before after : List StoredRecord} {record : StoredRecord}
    (h : AnchoredAt codec anchor start (before ++ after) k)
    (h' : AnchoredAt codec anchor start (before ++ record :: after) k)
    (hbefore : ∀ other ∈ before, other.seq ≠ anchor.seq) : False :=
  h'.not_removed h hbefore

theorem not_reordered (h : AnchoredAt codec anchor start records k)
    (h' : AnchoredAt codec anchor start records' k) (hperm : records.Perm records') :
    records' = records := by
  apply List.ext_getElem?
  intro i
  cases hi : records'[i]? with
  | none =>
      rw [List.getElem?_eq_none_iff, ← hperm.length_eq] at hi
      rw [List.getElem?_eq_none_iff.mpr hi]
  | some record =>
      have hmem : record ∈ records := hperm.mem_iff.mpr (List.mem_of_getElem? hi)
      obtain ⟨j, hj⟩ := List.mem_iff_getElem?.mp hmem
      rw [← h.index_of_record h' hj hi, hj]

end AnchoredAt

theorem AnchoredAt.not_tampered {records records' : List StoredRecord} {k : Nat}
    (h : AnchoredAt codec anchor start records k) (h' : AnchoredAt codec anchor start records' k)
    (hinj : ∀ record ∈ records, ∀ record' ∈ records',
      codec.hashPayload record.payload = codec.hashPayload record'.payload →
        record.payload = record'.payload) : ¬ Tampered anchor.seq records records' := by
  intro htampered
  cases htampered with
  | edited before record record' after hbefore hedit =>
      obtain ⟨hpayload, hseq, hhash⟩ := h.not_edited h' hbefore hinj
      rcases hedit with hne | hne | ⟨hash, hash', hstored, hstored', hne⟩
      · exact hne hpayload
      · exact hne hseq
      · exact hne (hhash hash hash' hstored hstored')
  | removed before record after hbefore => exact h.not_removed h' hbefore
  | inserted before record after hbefore => exact h.not_inserted h' hbefore
  | duplicated before record after hbefore _ => exact h.not_inserted h' hbefore
  | reordered _ _ hperm hmoved => exact hmoved (by rw [h.not_reordered h' hperm])

/-- Where the hash is injective on the payloads at hand, every list that verifies against an anchor
inside it has the same payloads up to the anchored record, and no list that differs from a verified
one by an edit, a removal, an insertion, a duplication or a reordering there verifies. -/
theorem anchored_trail_tamper_evident (codec : Codec) (anchor : Anchor) (start : Start)
    (records records' : RecordSlice) (verified : Verified)
    (hinj : ∀ record ∈ records.toList, ∀ record' ∈ records'.toList,
      codec.hashPayload record.payload = codec.hashPayload record'.payload →
        record.payload = record'.payload)
    (hverified : codec.verifyWithAnchor anchor start records = .ok verified)
    (hinside : ∃ record ∈ records.toList, record.seq = anchor.seq) :
    (∀ verified', codec.verifyWithAnchor anchor start records' = .ok verified' →
      (∃ record ∈ records'.toList, record.seq = anchor.seq) →
      (upTo anchor.seq records.toList).map (·.payload) =
        (upTo anchor.seq records'.toList).map (·.payload)) ∧
    (Tampered anchor.seq records.toList records'.toList →
      ∃ chainBreak, codec.verifyWithAnchor anchor start records' = .error chainBreak) := by
  obtain ⟨record, hmem, hseq⟩ := hinside
  have hnotcut : anchor.seq ≠ start.firstSeq - 1 := by
    obtain ⟨hcounts, -, -⟩ := verifyFrom_eq_ok (verifyWithAnchor_eq_ok hverified).1
    exact hseq ▸ seq_ne_cut hcounts records.length_lt hmem
  obtain ⟨k, h⟩ := anchoredAt_of_inside hverified hnotcut
  constructor
  · intro verified' hverified' _
    obtain ⟨k', h'⟩ := anchoredAt_of_inside hverified' hnotcut
    obtain rfl := h.index_eq h'
    unfold upTo
    rw [h.findIdx_eq, h'.findIdx_eq, List.map_take, List.map_take]
    exact h.payloads_eq h' hinj
  · intro htampered
    cases hresult : codec.verifyWithAnchor anchor start records' with
    | error chainBreak => exact ⟨chainBreak, rfl⟩
    | ok verified' =>
        obtain ⟨k', h'⟩ := anchoredAt_of_inside hresult hnotcut
        obtain rfl := h.index_eq h'
        exact absurd htampered (h.not_tampered h' hinj)

/-- The hash of `firstPayload`. -/
def firstHash : Hash :=
  #v[0x3c, 0x6c, 0x9b, 0xac, 0x68, 0xb8, 0x57, 0x17, 0x48, 0xec, 0xce, 0x0a, 0x2d, 0x70, 0x69, 0xec,
  0xd9, 0x5b, 0xcd, 0x69, 0x20, 0xc4, 0x77, 0x7b, 0x42, 0x27, 0x67, 0xb2, 0x56, 0xb0, 0xe0, 0xa4]

def secondHash : Hash :=
  #v[0xe8, 0xc6, 0x6b, 0xf7, 0xe1, 0x49, 0x6a, 0x71, 0x29, 0x70, 0x06, 0xf3, 0x14, 0xeb, 0xb2, 0xc6,
  0xa1, 0x75, 0x2f, 0x20, 0xa6, 0xea, 0xe4, 0x4f, 0x31, 0xed, 0xcf, 0xcd, 0xdc, 0xb5, 0x51, 0x91]

def firstPayload : String :=
  "\x7b\"seq\":1,\"prev_hash\":\"0000000000000000000000000000000000000000000000000000000000000000\"\x7d"

def secondPayload : String :=
  "\x7b\"seq\":2,\"prev_hash\":\"3c6c9bac68b8571748ecce0a2d7069ecd95bcd6920c4777b422767b256b0e0a4\"\x7d"

/-- SHA-256 and the JSON reader on the two payloads. -/
def twoRecordCodec : Codec where
  sha256 := fun bytes =>
    if bytes = firstPayload.toUTF8.data.toList then firstHash
    else if bytes = secondPayload.toUTF8.data.toList then secondHash
    else genesis
  recordToString := fun _ => .error "not asked for"
  headerFromStr := fun payload =>
    if payload = firstPayload then .ok ⟨1, "0000000000000000000000000000000000000000000000000000000000000000"⟩
    else if payload = secondPayload then
      .ok ⟨2, "3c6c9bac68b8571748ecce0a2d7069ecd95bcd6920c4777b422767b256b0e0a4"⟩
    else .error "expected value at line 1 column 1"
  valueSeq := fun _ => .error "not asked for"

def twoRecords : RecordSlice :=
  ⟨[⟨1, firstPayload, some firstHash⟩, ⟨2, secondPayload, some secondHash⟩], by decide⟩

def secondRecordOnly : RecordSlice := ⟨[⟨2, secondPayload, some secondHash⟩], by decide⟩

theorem anchored_trail_tamper_evident_on_removal :
    ∃ chainBreak, twoRecordCodec.verifyWithAnchor ⟨"2026-01-01T00:00:00.000Z", 2, secondHash⟩
      .genesis secondRecordOnly = .error chainBreak := by
  refine (anchored_trail_tamper_evident twoRecordCodec ⟨"2026-01-01T00:00:00.000Z", 2, secondHash⟩
    .genesis twoRecords secondRecordOnly ⟨2, 2, secondHash⟩ ?_ ?_ ?_).2 ?_
  · decide +kernel
  · decide +kernel
  · decide +kernel
  · exact .removed [] ⟨1, firstPayload, some firstHash⟩ [⟨2, secondPayload, some secondHash⟩] (by simp)

end Codec

end Ciphr
