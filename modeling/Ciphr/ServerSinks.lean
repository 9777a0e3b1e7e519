import Ciphr.LibTwins
import Ciphr.ServerState

/-!
Two sinks whose devices accept and refuse alike, whatever they are given to write. They may hold
different records, and they hold as many.
-/

namespace Ciphr

open Script

variable {δ ω φ : Type} [AuditDevice δ ω φ] {codec : Codec}

/-- Every record is serialized: it holds nothing but texts and numbers. -/
def Codec.Encodes (codec : Codec) : Prop :=
  ∀ record, ∃ payload, codec.recordToString record = .ok payload

/-! ### One record -/

/-- Two slots that look the same from outside of their devices. -/
structure Slot.Alike (slot slot' : Slot δ) : Prop where
  name : slot.name = slot'.name
  quarantined : slot.quarantined = slot'.quarantined

structure Attempt.Alike (attempt attempt' : Attempt δ) : Prop where
  slot : attempt.slot.Alike attempt'.slot
  outcome : attempt.outcome = attempt'.outcome

/-- The devices that are asked answer what is fixed for each of them. -/
def Answers (fixed : Nat → Except String Unit) (outcomes : List (Option (Except String Unit))) : Prop :=
  ∀ i result, outcomes[i]? = some (some result) → result = fixed i

theorem Answers.tail {fixed : Nat → Except String Unit} {outcome : Option (Except String Unit)}
    {outcomes : List (Option (Except String Unit))} (h : Answers fixed (outcome :: outcomes)) :
    Answers (fun i => fixed (i + 1)) outcomes :=
  fun i result hresult => h (i + 1) result hresult

theorem attemptAll_alike {record record' : EncodedRecord} {io io' : Nat → φ} {slots slots' : List (Slot δ)}
    (h : List.Forall₂ Slot.Alike slots slots') (fixed : Nat → Except String Unit) (n : Nat)
    (world world' : ω)
    (hfixed : Answers fixed ((attemptAll record io n world slots).2.map (·.outcome)))
    (hfixed' : Answers fixed ((attemptAll record' io' n world' slots').2.map (·.outcome))) :
    List.Forall₂ Attempt.Alike (attemptAll record io n world slots).2
      (attemptAll record' io' n world' slots').2 := by
  induction h generalizing fixed n world world' with
  | nil => exact .nil
  | @cons slot slot' slots slots' hslot _ ih =>
      unfold attemptAll at hfixed hfixed' ⊢
      rw [← hslot.quarantined] at hfixed' ⊢
      by_cases hquarantined : slot.quarantined.isSome = true
      · rw [if_pos hquarantined] at hfixed hfixed' ⊢
        rw [if_pos hquarantined]
        exact .cons ⟨hslot, rfl⟩ (ih _ _ _ _ hfixed.tail hfixed'.tail)
      · rw [if_neg hquarantined] at hfixed hfixed' ⊢
        rw [if_neg hquarantined]
        refine .cons ⟨⟨?_, rfl⟩, ?_⟩ (ih _ _ _ _ hfixed.tail hfixed'.tail)
        · exact (AuditDevice.name_write _ _ _ _).trans
            (hslot.name.trans (AuditDevice.name_write _ _ _ _).symm)
        · exact congrArg some ((hfixed 0 _ rfl).trans (hfixed' 0 _ rfl).symm)

theorem filterMap_eq_of_forall₂ {α β γ : Type} {R : α → β → Prop} {f : α → Option γ} {g : β → Option γ}
    {as : List α} {bs : List β} (h : List.Forall₂ R as bs) (hfg : ∀ a b, R a b → f a = g b) :
    as.filterMap f = bs.filterMap g := by
  induction h with
  | nil => rfl
  | cons hfirst _ ih => rw [List.filterMap_cons, List.filterMap_cons, ih, hfg _ _ hfirst]

theorem Attempt.Alike.failure {attempt attempt' : Attempt δ} (h : attempt.Alike attempt') :
    attempt.failure = attempt'.failure := by
  unfold Attempt.failure
  rw [h.outcome, h.slot.name]

theorem Slot.Alike.afterCommit {slot slot' : Slot δ} (h : slot.Alike slot') (seq : Nat)
    (failures : List DeviceFailure) : (slot.afterCommit seq failures).Alike (slot'.afterCommit seq failures) := by
  have hname : (slot.afterCommit seq failures).name = (slot'.afterCommit seq failures).name := by
    unfold Slot.name
    rw [Slot.afterCommit_device, Slot.afterCommit_device]
    exact h.name
  refine ⟨hname, ?_⟩
  unfold Slot.afterCommit
  rw [h.name, h.quarantined]
  split
  · rfl
  · exact h.quarantined

theorem Slot.Alike.stopped {slot slot' : Slot δ} (h : slot.Alike slot') (seq : Nat)
    (failures : List DeviceFailure) : slot.stopped seq failures = slot'.stopped seq failures := by
  unfold Slot.stopped
  rw [h.quarantined, (h.afterCommit seq failures).quarantined]

namespace AuditSink

variable {sink sink' : AuditSink δ} {world world' : ω} {io io' : Nat → φ} {entry entry' : Entry}
  {nowMillis nowMillis' : Int}

/-- A record that can be encoded is stored by some device or by none. -/
theorem record_of_encode {record : EncodedRecord}
    (hencode : sink.chain.encode codec entry nowMillis = .ok record) :
    let attempts := attemptAll record io 0 world sink.slots
    let failures := attempts.2.filterMap (·.failure)
    sink.record codec world io entry nowMillis =
      if attempts.2.countP (·.outcome.isSome) = 0 ∨
          failures.length = attempts.2.countP (·.outcome.isSome) then
        ((attempts.1, ⟨attempts.2.map (·.slot), sink.chain⟩), .error (.allDevicesFailed failures))
      else
        ((attempts.1, ⟨(attempts.2.map (·.slot)).map (·.afterCommit record.seq failures),
            ⟨sink.chain.nextSeq + 1, record.hash⟩⟩),
          .ok ⟨record.seq, record.hash, failures,
            (attempts.2.map (·.slot)).filterMap (·.stopped record.seq failures)⟩) := by
  unfold AuditSink.record
  split
  · rename_i error hencode'
    rw [hencode] at hencode'
    cases hencode'
  · rename_i record' hencode'
    rw [hencode, Except.ok.injEq] at hencode'
    subst hencode'
    rfl

/-- Sinks at one height, with slots that look the same. -/
structure Alike (sink sink' : AuditSink δ) : Prop where
  slots : List.Forall₂ Slot.Alike sink.slots sink'.slots
  nextSeq : sink.chain.nextSeq = sink'.chain.nextSeq

/-- What a record came to, but for the hash of what was recorded. -/
def SameWritten (written written' : Written) : Prop :=
  written.failures = written'.failures ∧ written.quarantined = written'.quarantined

theorem Alike.record (h : sink.Alike sink')
    (hencodes : codec.Encodes)
    {fixed : Nat → Except String Unit}
    (hfixed : Answers fixed (sink.outcomes codec world io entry nowMillis))
    (hfixed' : Answers fixed (sink'.outcomes codec world' io' entry' nowMillis')) :
    (sink.record codec world io entry nowMillis).1.2.Alike
        (sink'.record codec world' io' entry' nowMillis').1.2 ∧
      Related SameWritten (sink.record codec world io entry nowMillis).2
        (sink'.record codec world' io' entry' nowMillis').2 := by
  have hencoded : ∀ (sink : AuditSink δ) (entry : Entry) (now : Int),
      ∃ record, sink.chain.encode codec entry now = .ok record := by
    intro sink entry now
    unfold Chain.encode
    obtain ⟨payload, hpayload⟩ := hencodes
      ⟨sink.chain.nextSeq, rfc3339Millis now, Hex.encode sink.chain.prevHash.toList, entry⟩
    dsimp only
    rw [hpayload]
    exact ⟨_, rfl⟩
  obtain ⟨record, hrecord⟩ := hencoded sink entry nowMillis
  obtain ⟨record', hrecord'⟩ := hencoded sink' entry' nowMillis'
  rw [outcomes_of_encode hrecord] at hfixed
  rw [outcomes_of_encode hrecord'] at hfixed'
  have hattempts := attemptAll_alike h.slots fixed 0 world world' hfixed hfixed'
  have hseq : record.seq = record'.seq := by
    rw [Chain.seq_of_encode hrecord, Chain.seq_of_encode hrecord', h.nextSeq]
  rw [record_of_encode hrecord, record_of_encode hrecord']
  generalize attemptAll record io 0 world sink.slots = attempts at hattempts ⊢
  generalize attemptAll record' io' 0 world' sink'.slots = attempts' at hattempts ⊢
  have hfailures : attempts.2.filterMap (·.failure) = attempts'.2.filterMap (·.failure) :=
    filterMap_eq_of_forall₂ hattempts fun _ _ h => h.failure
  have hcount : attempts.2.countP (·.outcome.isSome) = attempts'.2.countP (·.outcome.isSome) := by
    rw [← List.length_filterMap_eq_countP, ← List.length_filterMap_eq_countP,
      filterMap_eq_of_forall₂ hattempts fun _ _ h => h.outcome]
  have hslots : List.Forall₂ Slot.Alike (attempts.2.map (·.slot)) (attempts'.2.map (·.slot)) := by
    rw [List.forall₂_map_left_iff, List.forall₂_map_right_iff]
    exact hattempts.imp fun _ _ h => h.slot
  rw [hfailures, hcount, hseq]
  split
  · exact ⟨⟨hslots, h.nextSeq⟩, rfl⟩
  · refine ⟨⟨?_, congrArg (· + 1) h.nextSeq⟩, rfl, ?_⟩
    · rw [List.forall₂_map_left_iff, List.forall₂_map_right_iff]
      exact hslots.imp fun _ _ h => h.afterCommit _ _
    · exact filterMap_eq_of_forall₂ hslots fun _ _ h => h.stopped _ _

end AuditSink

/-! ### The half of the state that records -/

namespace AppState

/-- The two have recorded as often, and as much. -/
structure Level (s s' : AppState δ ω) : Prop where
  audit : s.audit.Alike s'.audit
  writes : s.writes = s'.writes
  trail : s.trail.length = s'.trail.length
  refused : s.refused.length = s'.refused.length

section Record

variable (codec : Codec) (fixed : Nat → Nat → Except String Unit) (moments : Nat → Moment φ)

/-- The devices answer a write of the sink as is fixed for the write of its number. -/
def Meets (entry : Entry) (s : AppState δ ω) : Prop :=
  Answers (fixed s.writes)
    (s.audit.outcomes codec s.world (moments s.writes).io entry (moments s.writes).now)

/-- The same of each explanation of a gap. -/
def MeetsGap (quarantined : List Quarantined) : List DeviceFailure → AppState δ ω → Prop
  | [], _ => True
  | failure :: failures, s =>
      Meets codec fixed moments (gapEntry quarantined failure) s ∧
        MeetsGap quarantined failures (s.writeSink codec moments (gapEntry quarantined failure)).2

/-- The same of everything that is written for an entry. -/
structure MeetsAll (entry : Entry) (s : AppState δ ω) : Prop where
  first : Meets codec fixed moments entry s
  gap : ∀ written, (s.writeSink codec moments entry).1 = .ok written →
    MeetsGap codec fixed moments written.quarantined written.failures
      ((s.writeSink codec moments entry).2.noteDeviceOutcome written.failures written.quarantined)

end Record

variable {fixed : Nat → Nat → Except String Unit} {moments moments' : Nat → Moment φ}
  {s s' : AppState δ ω} {entry entry' : Entry}

theorem Level.writeSink (h : s.Level s')
    (hencodes : codec.Encodes)
    (hmeets : Meets codec fixed moments entry s) (hmeets' : Meets codec fixed moments' entry' s') :
    (s.writeSink codec moments entry).2.Level (s'.writeSink codec moments' entry').2 ∧
      Related AuditSink.SameWritten (s.writeSink codec moments entry).1
        (s'.writeSink codec moments' entry').1 := by
  unfold Meets at hmeets hmeets'
  rw [← h.writes] at hmeets'
  obtain ⟨haudit, hresult⟩ := h.audit.record hencodes hmeets hmeets'
  unfold AppState.writeSink
  rw [← h.writes]
  dsimp only
  refine ⟨⟨haudit, rfl, ?_, h.refused⟩, hresult⟩
  dsimp only
  rw [List.length_append, List.length_append, h.trail]
  revert hresult
  cases (s.audit.record codec s.world (moments s.writes).io entry (moments s.writes).now).2 with
  | error error =>
      cases (s'.audit.record codec s'.world (moments' s.writes).io entry' (moments' s.writes).now).2 with
      | error error' => exact fun _ => rfl
      | ok written' => exact fun hresult => hresult.elim
  | ok written =>
      cases (s'.audit.record codec s'.world (moments' s.writes).io entry' (moments' s.writes).now).2 with
      | error error' => exact fun hresult => hresult.elim
      | ok written' => exact fun _ => rfl

theorem Level.explainTheGap (h : s.Level s')
    (hencodes : codec.Encodes)
    {quarantined : List Quarantined} {failures : List DeviceFailure}
    (hmeets : MeetsGap codec fixed moments quarantined failures s)
    (hmeets' : MeetsGap codec fixed moments' quarantined failures s') :
    (explainTheGap codec moments quarantined failures s).Level
      (explainTheGap codec moments' quarantined failures s') := by
  induction failures generalizing s s' with
  | nil => exact h
  | cons failure failures ih =>
      exact ih (h.writeSink hencodes hmeets.1 hmeets'.1).1 hmeets.2 hmeets'.2

/-- Where the devices answer alike, an entry is recorded by both or by neither. -/
theorem Level.record (h : s.Level s')
    (hencodes : codec.Encodes)
    (hmeets : MeetsAll codec fixed moments entry s) (hmeets' : MeetsAll codec fixed moments' entry' s') :
    ((record codec moments entry).exec s).1 = ((record codec moments' entry').exec s').1 ∧
      ((record codec moments entry).exec s).2.Level ((record codec moments' entry').exec s').2 := by
  obtain ⟨hlevel, hresult⟩ := h.writeSink hencodes hmeets.first hmeets'.first
  cases hone : (s.writeSink codec moments entry).1 with
  | error error =>
      cases hother : (s'.writeSink codec moments' entry').1 with
      | error error' =>
          obtain ⟨devices, hrecord, -⟩ := record_of_error hone
          obtain ⟨devices', hrecord', -⟩ := record_of_error hother
          rw [hrecord, hrecord']
          refine ⟨rfl, hlevel.audit, hlevel.writes, hlevel.trail, ?_⟩
          rw [List.length_append, List.length_append, h.refused]
          rfl
      | ok written' =>
          rw [hone, hother] at hresult
          exact hresult.elim
  | ok written =>
      cases hother : (s'.writeSink codec moments' entry').1 with
      | error error' =>
          rw [hone, hother] at hresult
          exact hresult.elim
      | ok written' =>
          rw [hone, hother] at hresult
          obtain ⟨hfailures, hquarantined⟩ := hresult
          have hgap := hmeets.gap written hone
          have hgap' := hmeets'.gap written' hother
          rw [record_of_ok hone, record_of_ok hother]
          rw [← hfailures, ← hquarantined] at hgap' ⊢
          refine ⟨rfl, Level.explainTheGap ?_ hencodes hgap hgap'⟩
          exact ⟨hlevel.audit, hlevel.writes, hlevel.trail, hlevel.refused⟩

end AppState

end Ciphr
