import Ciphr.LibFold
import Ciphr.LibHashChain
import Ciphr.AuditChain

/-!
`ciphr-audit/src/verify.rs`: chain verification. What a list of records has to be for it to verify
is that its payloads are linked by hash, its sequence numbers count up from the start, and the
hashes stored beside them are theirs.
-/

namespace Ciphr

inductive BreakKind where
  | hashMismatch
  | prevHashMismatch
  | sequenceGap (expected : Nat)
  | malformed (detail : String)
  | sequenceMismatch (payloadSeq : Nat)
  | anchorMismatch (anchored stored : String)
  | anchorUnreachable (headSeq : Nat)
  deriving DecidableEq, Repr

structure ChainBreak where
  seq : Nat
  kind : BreakKind
  deriving DecidableEq, Repr

/-- One record as it was stored. -/
structure StoredRecord where
  seq : Nat
  payload : String
  hash : Option Hash
  deriving DecidableEq

/-- Where a verification of a stored chain begins. -/
inductive Start where
  | genesis
  | afterCut (seq : Nat) (hash : Hash)
  deriving DecidableEq

namespace Start

def firstSeq : Start → Nat
  | .genesis => 1
  | .afterCut seq _ => min (seq + 1) (2 ^ 64 - 1)

def expectedPrev : Start → Hash
  | .genesis => Ciphr.genesis
  | .afterCut _ hash => hash

end Start

structure Verified where
  records : Nat
  headSeq : Nat
  headHash : Hash
  deriving DecidableEq

/-- The variables of the loop of `verify`. -/
structure Verification where
  previous : Hash
  expectedSeq : Option Nat
  count : Nat
  headSeq : Nat

namespace Codec

variable (codec : Codec)

/-- One round of the loop of `verify`. The increment of the sequence number wraps at 64 bits. -/
def verifyRecord (state : Verification) (record : StoredRecord) :
    Except ChainBreak Verification :=
  match state.expectedSeq.filter (· ≠ record.seq) with
  | some expected => .error ⟨record.seq, .sequenceGap expected⟩
  | none =>
      match codec.headerFromStr record.payload with
      | .error detail => .error ⟨record.seq, .malformed detail⟩
      | .ok header =>
          if header.seq ≠ record.seq then .error ⟨record.seq, .sequenceMismatch header.seq⟩
          else
            match Hex.decodeInto header.prevHash (List.replicate 32 0) with
            | (_, .error error) =>
                .error ⟨record.seq, .malformed ("prev_hash is not a chain hash: " ++ error.display)⟩
            | (claimedPrev, .ok ()) =>
                if claimedPrev ≠ state.previous.toList then .error ⟨record.seq, .prevHashMismatch⟩
                else
                  let computed := codec.hashPayload record.payload
                  if record.hash.any (· ≠ computed) then .error ⟨record.seq, .hashMismatch⟩
                  else .ok ⟨computed, some ((record.seq + 1) % 2 ^ 64), state.count + 1, record.seq⟩

def verify (records : List StoredRecord) (expectedPrev : Hash) : Except ChainBreak Verified := do
  let state ← records.foldlM codec.verifyRecord ⟨expectedPrev, none, 0, 0⟩
  .ok ⟨state.count, state.headSeq, state.previous⟩

def verifyFrom (start : Start) (records : List StoredRecord) : Except ChainBreak Verified :=
  match records.head?.filter (·.seq ≠ start.firstSeq) with
  | some first => .error ⟨first.seq, .sequenceGap start.firstSeq⟩
  | none => codec.verify records start.expectedPrev

/-! ### What verifies -/

/-- The hash that a payload says its predecessor has. -/
def claimedPrev (payload : String) : Option (List UInt8) :=
  match codec.headerFromStr payload with
  | .error _ => none
  | .ok header =>
      match Hex.decodeInto header.prevHash (List.replicate 32 0) with
      | (_, .error _) => none
      | (bytes, .ok ()) => some bytes

/-- The payloads are linked, backwards by hash, to the given predecessor. -/
def LinkedFrom (previous : Hash) (payloads : List String) : Prop :=
  HashChain.Linked (fun payload => (codec.hashPayload payload).toList) codec.claimedPrev
    previous.toList payloads

/-- What verification finds of a record by itself. -/
def Consistent (record : StoredRecord) : Prop :=
  (∃ header, codec.headerFromStr record.payload = .ok header ∧ header.seq = record.seq) ∧
    ∀ hash, record.hash = some hash → hash = codec.hashPayload record.payload

variable {codec}

theorem verifyRecord_eq_ok {state state' : Verification} {record : StoredRecord}
    (h : codec.verifyRecord state record = .ok state') :
    (∀ expected, state.expectedSeq = some expected → record.seq = expected) ∧
      codec.claimedPrev record.payload = some state.previous.toList ∧ codec.Consistent record ∧
      state' = ⟨codec.hashPayload record.payload, some ((record.seq + 1) % 2 ^ 64), state.count + 1,
        record.seq⟩ := by
  unfold verifyRecord at h
  split at h
  · cases h
  · rename_i hseq
    split at h
    · cases h
    · rename_i header hheader
      split at h
      · cases h
      · rename_i hsame
        split at h
        · cases h
        · rename_i bytes hdecode
          split at h
          · cases h
          · rename_i hprev
            simp only at h
            split at h
            · cases h
            · rename_i hhash
              refine ⟨?_, ?_, ⟨⟨header, hheader, not_not.mp hsame⟩, ?_⟩, ?_⟩
              · intro expected hexpected
                by_contra hne
                rw [hexpected, Option.filter_some_pos (by simpa using fun h => hne h.symm)] at hseq
                cases hseq
              · simp only [claimedPrev, hheader, hdecode, not_not.mp hprev]
              · intro hash hstored
                rw [hstored] at hhash
                simpa using hhash
              · cases h
                rfl

/-- The sequence numbers count up from `first`, in 64 bits. -/
def CountsFrom (first : Nat) (records : List StoredRecord) : Prop :=
  ∀ i record, records[i]? = some record → record.seq = (first + i) % 2 ^ 64

theorem verifyRecords_eq_ok (records : List StoredRecord) {state state' : Verification}
    {first : Nat} (hfirst : state.expectedSeq = some (first % 2 ^ 64))
    (h : records.foldlM codec.verifyRecord state = .ok state') :
    CountsFrom first records ∧ codec.LinkedFrom state.previous (records.map (·.payload)) ∧
      ∀ record ∈ records, codec.Consistent record := by
  induction records generalizing state first with
  | nil => exact ⟨by simp [CountsFrom], trivial, by simp⟩
  | cons record records ih =>
      obtain ⟨mid, hmid, hrest⟩ := Loop.foldlM_cons_eq_ok h
      obtain ⟨hseq, hprev, hconsistent, rfl⟩ := verifyRecord_eq_ok hmid
      have hhere : record.seq = first % 2 ^ 64 := hseq _ hfirst
      obtain ⟨hcounts, hlinked, hall⟩ := @ih _ (first + 1) (by rw [hhere]; simp) hrest
      refine ⟨?_, ⟨hprev, hlinked⟩, ?_⟩
      · intro i other hother
        cases i with
        | zero =>
            rw [List.getElem?_cons_zero, Option.some.injEq] at hother
            rw [← hother, hhere, Nat.add_zero]
        | succ i =>
            rw [List.getElem?_cons_succ] at hother
            rw [hcounts i other hother, Nat.add_assoc, Nat.add_comm 1 i]
      · intro other hother
        rcases List.mem_cons.mp hother with rfl | hother
        · exact hconsistent
        · exact hall other hother

theorem firstSeq_lt (start : Start) : start.firstSeq < 2 ^ 64 := by
  cases start with
  | genesis => decide
  | afterCut seq hash =>
      have hle := Nat.min_le_right (seq + 1) (2 ^ 64 - 1)
      simp only [Start.firstSeq]
      omega

theorem verifyFrom_eq_ok {start : Start} {records : List StoredRecord} {verified : Verified}
    (h : codec.verifyFrom start records = .ok verified) :
    CountsFrom start.firstSeq records ∧
      codec.LinkedFrom start.expectedPrev (records.map (·.payload)) ∧
      ∀ record ∈ records, codec.Consistent record := by
  unfold verifyFrom at h
  split at h
  · cases h
  · rename_i hfirst
    obtain ⟨state, hstate, -⟩ := Loop.bind_eq_ok h
    cases records with
    | nil => exact ⟨by simp [CountsFrom], trivial, by simp⟩
    | cons record records =>
        have hseq : record.seq = start.firstSeq := by
          by_contra hne
          rw [List.head?_cons, Option.filter_some_pos (by simpa using hne)] at hfirst
          cases hfirst
        -- the first round checks nothing that the number expected of it would not have passed
        have hround : codec.verifyRecord ⟨start.expectedPrev, some record.seq, 0, 0⟩ record =
            codec.verifyRecord ⟨start.expectedPrev, none, 0, 0⟩ record := by
          have hpass : (some record.seq).filter (fun seq => decide (seq ≠ record.seq)) = none := by
            simp [Option.filter]
          simp only [verifyRecord, hpass, Option.filter_none]
        rw [List.foldlM_cons, ← hround, ← List.foldlM_cons] at hstate
        exact verifyRecords_eq_ok (record :: records)
          (by rw [hseq, Nat.mod_eq_of_lt (firstSeq_lt start)]) hstate

/-- The head of what was verified is the last record. -/
theorem verifyFrom_head {start : Start} {records : List StoredRecord} {last : StoredRecord}
    {verified : Verified} (h : codec.verifyFrom start (records ++ [last]) = .ok verified) :
    verified.headSeq = last.seq ∧ verified.headHash = codec.hashPayload last.payload := by
  unfold verifyFrom at h
  split at h
  · cases h
  · obtain ⟨state, hstate, hverified⟩ := Loop.bind_eq_ok h
    rw [List.foldlM_append] at hstate
    obtain ⟨mid, -, hstate⟩ := Loop.bind_eq_ok hstate
    obtain ⟨end', hround, hend⟩ := Loop.foldlM_cons_eq_ok hstate
    cases hend
    obtain ⟨-, -, -, rfl⟩ := verifyRecord_eq_ok hround
    cases hverified
    exact ⟨rfl, rfl⟩

theorem verifyFrom_nil {start : Start} {verified : Verified}
    (h : codec.verifyFrom start [] = .ok verified) : verified.headSeq = 0 := by
  cases h
  rfl

end Codec

end Ciphr
