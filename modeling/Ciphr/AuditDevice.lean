import Mathlib.Data.List.Forall2
import Ciphr.LibFold
import Ciphr.AuditChain

/-!
`ciphr-audit/src/device.rs`: devices, and the sink that writes to all of them. A device acts on a
world that it may share with other devices, and what the operating system makes of each of its
operations is an input.
-/

namespace Ciphr

/-- Devices of type `δ` in a world `ω`; `φ` is what happens to one operation outside the program. -/
class AuditDevice (δ : Type) (ω φ : outParam Type) where
  name : δ → String
  write : ω → δ → EncodedRecord → φ → ω × δ × Except String Unit
  headSeq : Codec → ω → δ → φ → Except String (Option Nat)
  reopen : ω → δ → φ → ω × δ × Except String Unit
  name_write : ∀ world device record io, name (write world device record io).2.1 = name device

structure Quarantined where
  device : String
  lastHeld : Option Nat
  missedFrom : Nat
  deriving DecidableEq, Repr

structure Written where
  seq : Nat
  hash : Hash
  failures : List DeviceFailure
  quarantined : List Quarantined
  deriving DecidableEq

/-- One device and whether the sink is still writing to it. -/
structure Slot (δ : Type) where
  device : δ
  quarantined : Option Quarantined
  deriving DecidableEq

structure AuditSink (δ : Type) where
  slots : List (Slot δ)
  chain : Chain
  deriving DecidableEq

/-- A slot after the first loop of `record`, and what its device answered; `none` when it was not
asked. -/
structure Attempt (δ : Type) where
  slot : Slot δ
  outcome : Option (Except String Unit)

section Sink

variable {δ ω φ : Type} [AuditDevice δ ω φ]

def Slot.name (slot : Slot δ) : String := AuditDevice.name slot.device

/-- Whether and where a device stands apart from the chain at startup. -/
def startSlot (codec : Codec) (world : ω) (head : Nat) (device : δ) (io : φ) : Slot δ :=
  match AuditDevice.headSeq codec world device io with
  | .ok (some seq) =>
      if seq ≠ head then ⟨device, some ⟨AuditDevice.name device, some seq, min (seq + 1) (2 ^ 64 - 1)⟩⟩
      else ⟨device, none⟩
  | .ok none | .error _ => ⟨device, none⟩

def AuditSink.new (codec : Codec) (world : ω) (devices : List δ) (chain : Chain) (io : Nat → φ) :
    Except AuditError (AuditSink δ) :=
  if devices.isEmpty then .error .noDevices
  else
    let head := chain.nextSeq - 1
    .ok ⟨devices.mapIdx fun i device => startSlot codec world head device (io i), chain⟩

/-- The first loop of `record`, from slot number `i` on. -/
def attemptAll (record : EncodedRecord) (io : Nat → φ) : Nat → ω → List (Slot δ) →
    ω × List (Attempt δ)
  | _, world, [] => (world, [])
  | i, world, slot :: slots =>
      if slot.quarantined.isSome then
        let rest := attemptAll record io (i + 1) world slots
        (rest.1, ⟨slot, none⟩ :: rest.2)
      else
        let written := AuditDevice.write world slot.device record (io i)
        let rest := attemptAll record io (i + 1) written.1 slots
        (rest.1, ⟨⟨written.2.1, none⟩, some written.2.2⟩ :: rest.2)

/-- What the first loop pushes onto `failures` for a slot. -/
def Attempt.failure (attempt : Attempt δ) : Option DeviceFailure :=
  match attempt.outcome with
  | some (.error reason) => some ⟨attempt.slot.name, reason⟩
  | _ => none

/-- What the second loop of `record` makes of a slot: devices that failed are found by name. -/
def Slot.afterCommit (seq : Nat) (failures : List DeviceFailure) (slot : Slot δ) : Slot δ :=
  if slot.quarantined.isNone && failures.any (·.device == slot.name) then
    ⟨slot.device, some ⟨slot.name, if seq = 0 then none else some (seq - 1), seq⟩⟩
  else slot

/-- What the second loop pushes onto `quarantined` for a slot. -/
def Slot.stopped (seq : Nat) (failures : List DeviceFailure) (slot : Slot δ) :
    Option Quarantined :=
  if slot.quarantined.isNone then (slot.afterCommit seq failures).quarantined else none

namespace AuditSink

variable (codec : Codec) (sink : AuditSink δ) (world : ω) (io : Nat → φ)

def quarantined : List Quarantined := sink.slots.filterMap (·.quarantined)

/-- The world and the sink after the entry has been offered to the devices, and the result. -/
def record (entry : Entry) (nowMillis : Int) :
    (ω × AuditSink δ) × Except AuditError Written :=
  match h : sink.chain.encode codec entry nowMillis with
  | .error error => ((world, sink), .error error)
  | .ok record =>
      let attempts := attemptAll record io 0 world sink.slots
      let slots := attempts.2.map (·.slot)
      let failures := attempts.2.filterMap (·.failure)
      let attempted := attempts.2.countP (·.outcome.isSome)
      if attempted = 0 ∨ failures.length = attempted then
        ((attempts.1, ⟨slots, sink.chain⟩), .error (.allDevicesFailed failures))
      else
        ((attempts.1, ⟨slots.map (·.afterCommit record.seq failures),
            sink.chain.commit record (Chain.seq_of_encode h)⟩),
          .ok ⟨record.seq, record.hash, failures, slots.filterMap (·.stopped record.seq failures)⟩)

/-- What each device's own write of the entry returned; `none` for a device that was not asked. -/
def outcomes (entry : Entry) (nowMillis : Int) : List (Option (Except String Unit)) :=
  match sink.chain.encode codec entry nowMillis with
  | .error _ => sink.slots.map fun _ => none
  | .ok record => (attemptAll record io 0 world sink.slots).2.map (·.outcome)

end AuditSink

/-! ### One record -/

/-- An attempt is one of a slot: it changes neither the name nor the quarantine, and asks exactly
the devices that are not quarantined. -/
structure Attempt.Of (slot : Slot δ) (attempt : Attempt δ) : Prop where
  quarantined : attempt.slot.quarantined = slot.quarantined
  name : attempt.slot.name = slot.name
  asked : attempt.outcome.isSome = true ↔ slot.quarantined = none

theorem attemptAll_length (record : EncodedRecord) (io : Nat → φ) (slots : List (Slot δ)) (n : Nat)
    (world : ω) : (attemptAll record io n world slots).2.length = slots.length := by
  induction slots generalizing n world with
  | nil => rfl
  | cons slot slots ih =>
      unfold attemptAll
      split
      · simp [ih]
      · simp [ih]

theorem attemptAll_getElem? (record : EncodedRecord) (io : Nat → φ) (slots : List (Slot δ))
    (n : Nat) (world : ω) {i : Nat} {slot : Slot δ} (hslot : slots[i]? = some slot) :
    ∃ attempt, (attemptAll record io n world slots).2[i]? = some attempt ∧
      Attempt.Of slot attempt := by
  induction slots generalizing n world i with
  | nil => simp at hslot
  | cons first slots ih =>
      unfold attemptAll
      split
      · rename_i hquarantined
        cases i with
        | zero =>
            rw [List.getElem?_cons_zero, Option.some.injEq] at hslot
            subst hslot
            refine ⟨⟨first, none⟩, rfl, rfl, rfl, ?_⟩
            simpa using Option.isSome_iff_ne_none.mp hquarantined
        | succ i => exact ih (n + 1) world hslot
      · rename_i hquarantined
        rw [Bool.not_eq_true, Option.isSome_eq_false_iff, Option.isNone_iff_eq_none] at hquarantined
        cases i with
        | zero =>
            rw [List.getElem?_cons_zero, Option.some.injEq] at hslot
            subst hslot
            exact ⟨_, rfl, hquarantined.symm, AuditDevice.name_write _ _ _ _, by simp [hquarantined]⟩
        | succ i => exact ih (n + 1) _ hslot

theorem attemptAll_of (record : EncodedRecord) (io : Nat → φ) (slots : List (Slot δ)) (n : Nat)
    (world : ω) : List.Forall₂ Attempt.Of slots (attemptAll record io n world slots).2 := by
  rw [List.forall₂_iff_get]
  refine ⟨(attemptAll_length record io slots n world).symm, ?_⟩
  intro i hslot hattempt
  obtain ⟨attempt, hget, hof⟩ := attemptAll_getElem? record io slots n world
    (List.getElem?_eq_getElem hslot)
  rw [List.getElem?_eq_getElem hattempt, Option.some.injEq] at hget
  rw [List.get_eq_getElem, List.get_eq_getElem, hget]
  exact hof

/-- The inverse of `attemptAll_getElem?`. -/
theorem attemptAll_slot (record : EncodedRecord) (io : Nat → φ) (slots : List (Slot δ)) (n : Nat)
    (world : ω) {i : Nat} {attempt : Attempt δ}
    (hattempt : (attemptAll record io n world slots).2[i]? = some attempt) :
    ∃ slot, slots[i]? = some slot ∧ Attempt.Of slot attempt := by
  have hlt := (List.getElem?_eq_some_iff.mp hattempt).1
  rw [attemptAll_length] at hlt
  obtain ⟨other, hother, hof⟩ :=
    attemptAll_getElem? record io slots n world (List.getElem?_eq_getElem hlt)
  rw [hattempt, Option.some.injEq] at hother
  exact ⟨slots[i], List.getElem?_eq_getElem hlt, hother ▸ hof⟩

theorem attemptAll_map_quarantined (record : EncodedRecord) (io : Nat → φ) (slots : List (Slot δ))
    (world : ω) : (attemptAll record io 0 world slots).2.map (·.slot.quarantined) =
      slots.map (·.quarantined) := by
  have hof := attemptAll_of record io slots 0 world
  generalize (attemptAll record io 0 world slots).2 = attempts at hof
  induction hof with
  | nil => rfl
  | cons hfirst _ ih => rw [List.map_cons, List.map_cons, ih, hfirst.quarantined]

theorem Attempt.failure_eq_some {attempt : Attempt δ} {failure : DeviceFailure} :
    attempt.failure = some failure ↔
      attempt.outcome = some (.error failure.reason) ∧ failure.device = attempt.slot.name := by
  unfold Attempt.failure
  split
  · rename_i reason houtcome
    rw [houtcome]
    constructor
    · intro h
      cases h
      exact ⟨rfl, rfl⟩
    · rintro ⟨hreason, hdevice⟩
      simp only [Option.some.injEq, Except.error.injEq] at hreason
      rw [hreason, ← hdevice]
  · rename_i hne
    constructor
    · intro h
      cases h
    · rintro ⟨houtcome, -⟩
      exact absurd houtcome (hne _)

/-- The names by which the second loop finds the devices that failed. -/
theorem any_failure_iff (attempts : List (Attempt δ)) (name : String) :
    (attempts.filterMap (·.failure)).any (·.device == name) = true ↔
      ∃ attempt ∈ attempts, attempt.slot.name = name ∧
        ∃ reason, attempt.outcome = some (.error reason) := by
  simp only [List.any_eq_true, List.mem_filterMap, beq_iff_eq, Attempt.failure_eq_some]
  constructor
  · rintro ⟨failure, ⟨attempt, hmem, houtcome, hdevice⟩, hname⟩
    exact ⟨attempt, hmem, hdevice.symm.trans hname, failure.reason, houtcome⟩
  · rintro ⟨attempt, hmem, hname, reason, houtcome⟩
    exact ⟨⟨attempt.slot.name, reason⟩, ⟨attempt, hmem, houtcome, rfl⟩, hname⟩

/-- When not every device that was asked failed, one of them accepted. -/
theorem exists_accepted {attempts : List (Attempt δ)}
    (hfailures : (attempts.filterMap (·.failure)).length ≠ attempts.countP (·.outcome.isSome)) :
    ∃ attempt ∈ attempts, attempt.outcome = some (.ok ()) := by
  by_contra hnone
  push Not at hnone
  apply hfailures
  rw [List.length_filterMap_eq_countP]
  refine List.countP_congr ?_
  intro attempt hmem
  have hne := hnone attempt hmem
  unfold Attempt.failure
  cases houtcome : attempt.outcome with
  | none => simp
  | some result =>
      cases result with
      | ok _ => exact absurd houtcome hne
      | error reason => simp

theorem none_accepted {attempts : List (Attempt δ)}
    (hfailures : attempts.countP (·.outcome.isSome) = 0 ∨
      (attempts.filterMap (·.failure)).length = attempts.countP (·.outcome.isSome)) :
    ∀ attempt ∈ attempts, attempt.outcome ≠ some (.ok ()) := by
  intro attempt hmem hok
  have hasked : attempt.outcome.isSome = true := by simp [hok]
  rcases hfailures with hnone | hall
  · rw [List.countP_eq_zero] at hnone
    exact hnone attempt hmem hasked
  · -- a device that accepts is one more that was asked than there are failures
    have hle : ∀ as : List (Attempt δ),
        as.countP (fun a => a.failure.isSome) ≤ as.countP (·.outcome.isSome) := by
      intro as
      refine List.countP_mono_left ?_
      intro a _ ha
      obtain ⟨failure, hfailure⟩ := Option.isSome_iff_exists.mp ha
      simp [(Attempt.failure_eq_some.mp hfailure).1]
    have hfailed : attempt.failure.isSome = false := by simp [Attempt.failure, hok]
    obtain ⟨before, after, rfl⟩ := List.append_of_mem hmem
    have hbefore := hle before
    have hafter := hle after
    rw [List.length_filterMap_eq_countP, List.countP_append, List.countP_append, List.countP_cons,
      List.countP_cons, if_pos hasked, if_neg (by simp [hfailed])] at hall
    omega

theorem Slot.afterCommit_device (seq : Nat) (failures : List DeviceFailure) (slot : Slot δ) :
    (slot.afterCommit seq failures).device = slot.device := by
  unfold Slot.afterCommit
  split
  · rfl
  · rfl

/-- A device that is still written to after a record was committed has accepted it: its own failure
would be among those found by name. -/
theorem Attempt.Of.accepted {slot : Slot δ} {attempts : List (Attempt δ)} {attempt : Attempt δ}
    {seq : Nat} (hof : Attempt.Of slot attempt) (hmem : attempt ∈ attempts)
    (h : (attempt.slot.afterCommit seq (attempts.filterMap (·.failure))).quarantined = none) :
    slot.quarantined = none ∧ attempt.outcome = some (.ok ()) := by
  unfold Slot.afterCommit at h
  split at h
  · cases h
  · rename_i hfailed
    rw [hof.quarantined] at h
    refine ⟨h, ?_⟩
    obtain ⟨result, hresult⟩ := Option.isSome_iff_exists.mp (hof.asked.mpr h)
    cases result with
    | ok done => exact hresult
    | error reason =>
        have hany := (any_failure_iff attempts attempt.slot.name).mpr
          ⟨attempt, hmem, rfl, reason, hresult⟩
        rw [hof.quarantined, h, hany] at hfailed
        simp at hfailed

theorem startSlot_device (codec : Codec) (world : ω) (head : Nat) (device : δ) (io : φ) :
    (startSlot codec world head device io).device = device := by
  unfold startSlot
  split
  · split
    · rfl
    · rfl
  · rfl
  · rfl

/-- A device that is written to after the start stands at the head, if it can say where it stands. -/
theorem eq_head_of_startSlot {codec : Codec} {world : ω} {head : Nat} {device : δ} {io : φ}
    (h : (startSlot codec world head device io).quarantined = none) {seq : Nat}
    (hseq : AuditDevice.headSeq codec world device io = .ok (some seq)) : seq = head := by
  unfold startSlot at h
  rw [hseq] at h
  dsimp only at h
  split at h
  · cases h
  · rename_i heq
    exact not_not.mp heq

namespace AuditSink

variable {codec : Codec} {sink : AuditSink δ} {world : ω} {io : Nat → φ} {entry : Entry}
  {nowMillis : Int}

theorem new_eq_ok {devices : List δ} {chain : Chain}
    (h : AuditSink.new codec world devices chain io = .ok sink) :
    sink.chain = chain ∧ sink.slots = devices.mapIdx fun i device =>
      startSlot codec world (chain.nextSeq - 1) device (io i) := by
  unfold AuditSink.new at h
  split at h
  · cases h
  · cases h
    exact ⟨rfl, rfl⟩

/-- What a committed record did. -/
structure Commits (codec : Codec) (sink : AuditSink δ) (world : ω) (io : Nat → φ) (entry : Entry)
    (nowMillis : Int) (record : EncodedRecord) (attempts : ω × List (Attempt δ)) : Prop where
  encoded : sink.chain.encode codec entry nowMillis = .ok record
  attempted : attempts = attemptAll record io 0 world sink.slots
  accepted : ∃ attempt ∈ attempts.2, attempt.outcome = some (.ok ())

theorem record_eq_ok {written : Written}
    (h : (sink.record codec world io entry nowMillis).2 = .ok written) :
    ∃ record attempts, Commits codec sink world io entry nowMillis record attempts ∧
      (sink.record codec world io entry nowMillis).1.1 = attempts.1 ∧
      (sink.record codec world io entry nowMillis).1.2.slots = attempts.2.map (fun attempt =>
        attempt.slot.afterCommit record.seq (attempts.2.filterMap (·.failure))) ∧
      (sink.record codec world io entry nowMillis).1.2.chain =
        ⟨sink.chain.nextSeq + 1, record.hash⟩ ∧
      written = ⟨record.seq, record.hash, attempts.2.filterMap (·.failure),
        attempts.2.filterMap (fun attempt =>
          attempt.slot.stopped record.seq (attempts.2.filterMap (·.failure)))⟩ := by
  unfold AuditSink.record at h ⊢
  split at h
  · cases h
  · rename_i record hencode
    dsimp only at h ⊢
    split at h
    · cases h
    · rename_i hfailed
      rw [if_neg hfailed]
      push Not at hfailed
      cases h
      refine ⟨record, _, ⟨hencode, rfl, exists_accepted hfailed.2⟩, rfl, ?_, rfl, ?_⟩
      · rw [List.map_map]
        rfl
      · rw [List.filterMap_map]
        rfl

theorem record_of_encode_error {error : AuditError}
    (hencode : sink.chain.encode codec entry nowMillis = .error error) :
    sink.record codec world io entry nowMillis = ((world, sink), .error error) := by
  unfold AuditSink.record
  split
  · rename_i error' hencode'
    rw [hencode, Except.error.injEq] at hencode'
    rw [hencode']
  · rename_i record hencode'
    rw [hencode] at hencode'
    cases hencode'

theorem outcomes_of_encode {record : EncodedRecord}
    (hencode : sink.chain.encode codec entry nowMillis = .ok record) :
    sink.outcomes codec world io entry nowMillis =
      (attemptAll record io 0 world sink.slots).2.map (·.outcome) := by
  unfold AuditSink.outcomes
  rw [hencode]

/-- A record that was encoded and that nobody stored leaves the chain and the quarantines alone; the
devices may have changed while they failed. -/
theorem record_eq_error_of_encode {record : EncodedRecord} {error : AuditError}
    (hencode : sink.chain.encode codec entry nowMillis = .ok record)
    (h : (sink.record codec world io entry nowMillis).2 = .error error) :
    (∀ attempt ∈ (attemptAll record io 0 world sink.slots).2, attempt.outcome ≠ some (.ok ())) ∧
      (sink.record codec world io entry nowMillis).1 =
        ((attemptAll record io 0 world sink.slots).1,
          ⟨(attemptAll record io 0 world sink.slots).2.map (·.slot), sink.chain⟩) := by
  unfold AuditSink.record at h ⊢
  split at h
  · rename_i error' hencode'
    rw [hencode] at hencode'
    cases hencode'
  · rename_i record' hencode'
    rw [hencode, Except.ok.injEq] at hencode'
    subst hencode'
    dsimp only at h ⊢
    split at h
    · rename_i hfailed
      rw [if_pos hfailed]
      exact ⟨none_accepted hfailed, rfl⟩
    · cases h

/-- What a record that was not committed has done. -/
theorem record_eq_error {error : AuditError}
    (h : (sink.record codec world io entry nowMillis).2 = .error error) :
    (sink.record codec world io entry nowMillis).1 = (world, sink) ∨
      ∃ record attempts, sink.chain.encode codec entry nowMillis = .ok record ∧
        attempts = attemptAll record io 0 world sink.slots ∧
        (∀ attempt ∈ attempts.2, attempt.outcome ≠ some (.ok ())) ∧
        (sink.record codec world io entry nowMillis).1 =
          (attempts.1, ⟨attempts.2.map (·.slot), sink.chain⟩) := by
  cases hencode : sink.chain.encode codec entry nowMillis with
  | error error' => exact .inl (by rw [record_of_encode_error hencode])
  | ok record =>
      obtain ⟨hnone, hafter⟩ := record_eq_error_of_encode hencode h
      exact .inr ⟨record, _, rfl, rfl, hnone, hafter⟩

end AuditSink

end Sink

end Ciphr
