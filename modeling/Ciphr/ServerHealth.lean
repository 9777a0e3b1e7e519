import Ciphr.LibTransition
import Ciphr.ServerState
import Ciphr.AuditQuarantine

/-!
What `/v1/health` says of the audit devices against what the sink does. Health is a second copy of
the quarantines, kept up from the result of each record. The record that explains a failure is a
write as well, and its result is dropped.
-/

namespace Ciphr

section Forall

variable {α β γ : Type} {R : α → β → Prop} {S : β → γ → Prop} {T : α → γ → Prop}

theorem forall₂_of_steps {as : List α} {bs : List β} {cs : List γ} (hR : List.Forall₂ R as bs)
    (hS : List.Forall₂ S bs cs) (h : ∀ a b c, b ∈ bs → R a b → S b c → T a c) :
    List.Forall₂ T as cs := by
  induction hR generalizing cs with
  | nil =>
      cases hS
      exact .nil
  | cons hab _ ih =>
      cases hS with
      | cons hbc hrest =>
          refine .cons (h _ _ _ (by simp) hab hbc) (ih hrest ?_)
          intro a b c hmem
          exact h a b c (List.mem_cons_of_mem _ hmem)

end Forall

/-- Every device that was asked for the record accepted it, and one was asked. -/
def AcceptedByAll (outcomes : List (Option (Except String Unit))) : Prop :=
  some (.ok ()) ∈ outcomes ∧ ∀ outcome ∈ outcomes, outcome = none ∨ outcome = some (.ok ())

instance (outcomes : List (Option (Except String Unit))) : Decidable (AcceptedByAll outcomes) :=
  inferInstanceAs (Decidable (_ ∧ _))

section Sink

variable {δ ω φ : Type} [AuditDevice δ ω φ]

/-- A slot before and after a record whose failures are given. -/
structure Slot.Stops (failures : List DeviceFailure) (slot slot' : Slot δ) : Prop where
  name : slot'.name = slot.name
  stopped : slot'.quarantined.isSome = true ↔
    slot.quarantined.isSome = true ∨ failures.any (·.device == slot.name) = true

theorem Slot.Stops.trans_nil {failures : List DeviceFailure} {slot slot' slot'' : Slot δ}
    (h : slot.Stops failures slot') (h' : slot'.Stops [] slot'') : slot.Stops failures slot'' := by
  refine ⟨h'.name.trans h.name, ?_⟩
  rw [h'.stopped, h.stopped]
  simp

theorem Slot.afterCommit_name (seq : Nat) (failures : List DeviceFailure) (slot : Slot δ) :
    (slot.afterCommit seq failures).name = slot.name :=
  congrArg AuditDevice.name (Slot.afterCommit_device seq failures slot)

theorem Attempt.Of.stops {slot : Slot δ} {attempt : Attempt δ} (h : Attempt.Of slot attempt)
    (seq : Nat) (failures : List DeviceFailure) :
    slot.Stops failures (attempt.slot.afterCommit seq failures) := by
  refine ⟨(Slot.afterCommit_name seq failures attempt.slot).trans h.name, ?_⟩
  unfold Slot.afterCommit
  rw [h.quarantined, h.name]
  cases hquarantined : slot.quarantined with
  | none =>
      by_cases hany : failures.any (·.device == slot.name) = true
      · simp [hany]
      · simp [hany, h.quarantined, hquarantined]
  | some stopped => simp [h.quarantined, hquarantined]

theorem Slot.stopped_eq_some {seq : Nat} {failures : List DeviceFailure} {slot : Slot δ}
    {stopped : Quarantined} (h : slot.stopped seq failures = some stopped) :
    slot.quarantined = none ∧ stopped.device = slot.name ∧
      failures.any (·.device == slot.name) = true := by
  unfold Slot.stopped Slot.afterCommit at h
  cases hquarantined : slot.quarantined with
  | some other => simp [hquarantined] at h
  | none =>
      by_cases hany : failures.any (·.device == slot.name) = true
      · simp only [hquarantined, Option.isNone_none, hany, Bool.and_self, if_true,
          Option.some.injEq] at h
        exact ⟨rfl, by rw [← h], hany⟩
      · simp [hquarantined, hany] at h

theorem Slot.exists_stopped (seq : Nat) {failures : List DeviceFailure} {slot : Slot δ}
    (hwriting : slot.quarantined = none) (hany : failures.any (·.device == slot.name) = true) :
    ∃ stopped, slot.stopped seq failures = some stopped ∧ stopped.device = slot.name := by
  unfold Slot.stopped Slot.afterCommit
  simp [hwriting, hany]

namespace AuditSink

variable {codec : Codec} {sink : AuditSink δ} {world : ω} {io : Nat → φ} {entry : Entry}
  {nowMillis : Int}

/-- A committed record stops the devices whose name is among its failures. -/
theorem stops_of_ok {written : Written}
    (h : (sink.record codec world io entry nowMillis).2 = .ok written) :
    List.Forall₂ (Slot.Stops written.failures) sink.slots
      (sink.record codec world io entry nowMillis).1.2.slots := by
  obtain ⟨record, attempts, hcommits, -, hslots, -, hwritten⟩ := record_eq_ok h
  rw [hslots, hwritten, hcommits.attempted, List.forall₂_map_right_iff]
  refine (attemptAll_of record io sink.slots 0 world).imp ?_
  intro slot attempt hof
  exact hof.stops record.seq _

/-- A record that nobody stored stops no device. -/
theorem stops_of_error {error : AuditError}
    (h : (sink.record codec world io entry nowMillis).2 = .error error) :
    List.Forall₂ (Slot.Stops []) sink.slots
      (sink.record codec world io entry nowMillis).1.2.slots := by
  rcases record_eq_error h with heq | ⟨record, attempts, -, hattempts, -, heq⟩
  · rw [heq, List.forall₂_same]
    intro slot _
    exact ⟨rfl, by simp⟩
  · rw [heq, hattempts, List.forall₂_map_right_iff]
    refine (attemptAll_of record io sink.slots 0 world).imp ?_
    intro slot attempt hof
    exact ⟨hof.name, by simp [hof.quarantined]⟩

/-- The names under which a committed record reports the devices it has stopped. -/
theorem any_stopped_iff {written : Written}
    (h : (sink.record codec world io entry nowMillis).2 = .ok written) (name : String) :
    written.quarantined.any (·.device == name) = true ↔
      (∃ slot ∈ sink.slots, slot.quarantined = none ∧ slot.name = name) ∧
        written.failures.any (·.device == name) = true := by
  obtain ⟨record, attempts, hcommits, -, -, -, rfl⟩ := record_eq_ok h
  rw [hcommits.attempted, List.any_eq_true]
  simp only [List.mem_filterMap, beq_iff_eq]
  constructor
  · rintro ⟨stopped, ⟨attempt, hmem, hstopped⟩, hname⟩
    obtain ⟨hwriting, hdevice, hany⟩ := Slot.stopped_eq_some hstopped
    obtain ⟨i, hi⟩ := List.mem_iff_getElem?.mp hmem
    obtain ⟨slot, hslot, hof⟩ := attemptAll_slot record io sink.slots 0 world hi
    have hslotName : attempt.slot.name = name := hdevice.symm.trans hname
    refine ⟨⟨slot, List.mem_of_getElem? hslot, hof.quarantined.symm.trans hwriting,
      hof.name.symm.trans hslotName⟩, ?_⟩
    rw [hslotName] at hany
    exact hany
  · rintro ⟨⟨slot, hmem, hwriting, hname⟩, hany⟩
    obtain ⟨i, hi⟩ := List.mem_iff_getElem?.mp hmem
    obtain ⟨attempt, hattempt, hof⟩ := attemptAll_getElem? record io sink.slots 0 world hi
    have hslotName : attempt.slot.name = name := hof.name.trans hname
    rw [← hslotName] at hany
    obtain ⟨stopped, hstopped, hdevice⟩ := Slot.exists_stopped record.seq
      (hof.quarantined.trans hwriting) hany
    exact ⟨stopped, ⟨attempt, List.mem_of_getElem? hattempt, hstopped⟩, hdevice.trans hslotName⟩

/-- A record that every device accepts is committed and stops none of them. -/
theorem ok_of_acceptedByAll
    (h : AcceptedByAll (sink.outcomes codec world io entry nowMillis)) :
    ∃ written, (sink.record codec world io entry nowMillis).2 = .ok written ∧
      written.failures = [] := by
  obtain ⟨haccepted, hrefused⟩ := h
  unfold AuditSink.outcomes at haccepted hrefused
  unfold AuditSink.record
  split
  · rename_i error hencode
    rw [hencode] at haccepted
    simp at haccepted
  · rename_i record hencode
    rw [hencode] at haccepted hrefused
    dsimp only at haccepted hrefused ⊢
    have hfailures : (attemptAll record io 0 world sink.slots).2.filterMap (·.failure) = [] := by
      rw [List.filterMap_eq_nil_iff]
      intro attempt hmem
      rw [Option.eq_none_iff_forall_ne_some]
      intro failure hfailure
      have houtcome := hrefused _ (List.mem_map_of_mem hmem)
      simp [(Attempt.failure_eq_some.mp hfailure).1] at houtcome
    have hasked : (attemptAll record io 0 world sink.slots).2.countP (·.outcome.isSome) ≠ 0 := by
      obtain ⟨attempt, hmem, hok⟩ := List.mem_map.mp haccepted
      intro hnone
      exact List.countP_eq_zero.mp hnone attempt hmem (by simp [hok])
    rw [hfailures, List.length_nil, if_neg (by omega)]
    exact ⟨_, rfl, rfl⟩

end AuditSink

/-! ### The state -/

/-- A device's entry in health says of its slot what is the case. -/
structure Agrees (device : DeviceHealth) (slot : Slot δ) : Prop where
  source : device.source = slot.name
  quarantined : device.quarantinedFrom.isSome = true ↔ slot.quarantined.isSome = true
  accepting : slot.quarantined.isSome = true → device.accepting ≠ some true

/-- A device that was written to at the start and is not any more is named in the trail. -/
structure NamedIn (trail : List Entry) (start slot : Slot δ) : Prop where
  name : slot.name = start.name
  named : start.quarantined = none → slot.quarantined.isSome = true →
    Entry.denied .auditDeviceFailed ("device-quarantined: " ++ slot.name) ∈ trail

/-- A device is noted as stopped when it was so before, or is among those just stopped, and is then
not reported as accepting. -/
theorem DeviceHealth.note_spec (failures : List DeviceFailure) (quarantined : List Quarantined)
    (device : DeviceHealth) :
    (device.note failures quarantined).source = device.source ∧
      ((device.note failures quarantined).quarantinedFrom.isSome = true ↔
        device.quarantinedFrom.isSome = true ∨
          quarantined.any (·.device == device.source) = true) ∧
      ((device.note failures quarantined).quarantinedFrom.isSome = true →
        (device.note failures quarantined).accepting = some false) := by
  unfold DeviceHealth.note
  dsimp only
  cases hfind : quarantined.find? (·.device == device.source) with
  | some stopped =>
      have hany : quarantined.any (·.device == device.source) = true :=
        List.any_eq_true.mpr ⟨stopped, List.mem_of_find?_eq_some hfind,
          List.find?_some (p := fun x : Quarantined => x.device == device.source) hfind⟩
      simp [hany]
  | none =>
      have hany : quarantined.any (·.device == device.source) = false := by
        rw [List.any_eq_false]
        exact List.find?_eq_none.mp hfind
      cases device.quarantinedFrom with
      | some _ => simp [hany]
      | none => simp [hany]

/-- After a committed record, health and the sink agree again. -/
theorem Agrees.note {codec : Codec} {sink : AuditSink δ} {world : ω} {io : Nat → φ} {entry : Entry}
    {nowMillis : Int} {written : Written}
    (hrecord : (sink.record codec world io entry nowMillis).2 = .ok written)
    {device : DeviceHealth} {slot slot' : Slot δ}
    (hmem : slot ∈ sink.slots) (h : Agrees device slot) (hstops : slot.Stops written.failures slot') :
    Agrees (device.note written.failures written.quarantined) slot' := by
  obtain ⟨hsource, hisSome, haccepting⟩ :=
    device.note_spec written.failures written.quarantined
  have hiff : (device.note written.failures written.quarantined).quarantinedFrom.isSome = true ↔
      slot'.quarantined.isSome = true := by
    rw [hisSome, hstops.stopped, h.quarantined, h.source, AuditSink.any_stopped_iff hrecord]
    constructor
    · rintro (hold | ⟨-, hany⟩)
      · exact .inl hold
      · exact .inr hany
    · rintro (hold | hany)
      · exact .inl hold
      · by_cases hold : slot.quarantined.isSome = true
        · exact .inl hold
        · exact .inr ⟨⟨slot, hmem, by simpa using hold, rfl⟩, hany⟩
  refine ⟨hsource.trans (h.source.trans hstops.name.symm), hiff, ?_⟩
  intro hstopped
  rw [haccepting (hiff.mpr hstopped)]
  simp

theorem Agrees.unchanged {device : DeviceHealth} {slot slot' : Slot δ} (h : Agrees device slot)
    (hstops : slot.Stops [] slot') : Agrees device slot' := by
  have hstopped : slot'.quarantined.isSome = true ↔ slot.quarantined.isSome = true := by
    rw [hstops.stopped]
    simp
  refine ⟨h.source.trans hstops.name.symm, h.quarantined.trans hstopped.symm, ?_⟩
  intro hquarantined
  exact h.accepting (hstopped.mp hquarantined)

theorem NamedIn.unchanged {trail : List Entry} {start slot slot' : Slot δ}
    (h : NamedIn trail start slot) (hstops : slot.Stops [] slot') : NamedIn trail start slot' := by
  refine ⟨hstops.name.trans h.name, ?_⟩
  intro hstart hstopped
  rw [hstops.name]
  apply h.named hstart
  simpa [hstops.stopped] using hstopped

namespace AppState

variable (codec : Codec) (moments : Nat → Moment φ)

/-- The explaining records of a call, one after the other, are each accepted by every device that
is asked, and one is asked. -/
def Explained (quarantined : List Quarantined) : List DeviceFailure → AppState δ ω → Prop
  | [], _ => True
  | failure :: failures, s =>
      AcceptedByAll (s.audit.outcomes codec s.world (moments s.writes).io
        (gapEntry quarantined failure) (moments s.writes).now) ∧
      Explained quarantined failures (s.writeSink codec moments (gapEntry quarantined failure)).2

instance decidableExplained (quarantined : List Quarantined) : (failures : List DeviceFailure) →
    (s : AppState δ ω) → Decidable (Explained codec moments quarantined failures s)
  | [], _ => .isTrue trivial
  | failure :: failures, s =>
      have := decidableExplained quarantined failures
        (s.writeSink codec moments (gapEntry quarantined failure)).2
      inferInstanceAs (Decidable (_ ∧ _))

variable {codec moments}

theorem writeSink_eq_ok {entry : Entry} {s : AppState δ ω} {written : Written}
    (h : (s.writeSink codec moments entry).1 = .ok written) :
    (s.writeSink codec moments entry).2.trail = s.trail ++ [entry] ∧
      (s.writeSink codec moments entry).2.devices = s.devices ∧
      List.Forall₂ (Slot.Stops written.failures) s.audit.slots
        (s.writeSink codec moments entry).2.audit.slots := by
  refine ⟨?_, rfl, AuditSink.stops_of_ok h⟩
  unfold writeSink at h ⊢
  dsimp only at h ⊢
  rw [h]

theorem writeSink_eq_error {entry : Entry} {s : AppState δ ω} {error : AuditError}
    (h : (s.writeSink codec moments entry).1 = .error error) :
    (s.writeSink codec moments entry).2.trail = s.trail ∧
      (s.writeSink codec moments entry).2.devices = s.devices ∧
      List.Forall₂ (Slot.Stops []) s.audit.slots
        (s.writeSink codec moments entry).2.audit.slots := by
  refine ⟨?_, rfl, AuditSink.stops_of_error h⟩
  unfold writeSink at h ⊢
  dsimp only at h ⊢
  rw [h, List.append_nil]

/-- Explaining records that are accepted reach the trail and change nothing else that health is
about. -/
theorem explainTheGap_of_explained {quarantined : List Quarantined} {failures : List DeviceFailure}
    {s : AppState δ ω} (h : Explained codec moments quarantined failures s) :
    (explainTheGap codec moments quarantined failures s).trail =
        s.trail ++ failures.map (gapEntry quarantined) ∧
      (explainTheGap codec moments quarantined failures s).devices = s.devices ∧
      List.Forall₂ (Slot.Stops []) s.audit.slots
        (explainTheGap codec moments quarantined failures s).audit.slots := by
  induction failures generalizing s with
  | nil =>
      refine ⟨by simp [explainTheGap], rfl, ?_⟩
      rw [explainTheGap, List.forall₂_same]
      intro slot _
      exact ⟨rfl, by simp⟩
  | cons failure failures ih =>
      obtain ⟨haccepted, hrest⟩ := h
      obtain ⟨written, hwritten, hnone⟩ := AuditSink.ok_of_acceptedByAll haccepted
      obtain ⟨htrail, hdevices, hslots⟩ := writeSink_eq_ok hwritten
      obtain ⟨htrail', hdevices', hslots'⟩ := ih hrest
      rw [hnone] at hslots
      refine ⟨?_, hdevices'.trans hdevices, ?_⟩
      · rw [explainTheGap, htrail', htrail, List.map_cons, List.append_assoc, List.singleton_append]
      · exact forall₂_of_steps hslots hslots' fun _ _ _ _ hfirst hsecond => hfirst.trans_nil hsecond

end AppState

/-- One call of `record`, with what it meets outside. -/
structure RecordCall (φ : Type) where
  entry : Entry
  moments : Nat → Moment φ

namespace AppState

variable (codec : Codec)

def recordStep (s : AppState δ ω) (call : RecordCall φ) : Option (AppState δ ω) :=
  some (Program.exec (record codec call.moments call.entry) s).2

/-- If a record was committed, the records that explain its failures are accepted. -/
def ResultExplained (moments : Nat → Moment φ) :
    Except AuditError Written → AppState δ ω → Prop
  | .ok written, s =>
      Explained codec moments written.quarantined written.failures
        (s.noteDeviceOutcome written.failures written.quarantined)
  | .error _, _ => True

instance (moments : Nat → Moment φ) : (result : Except AuditError Written) → (s : AppState δ ω) →
    Decidable (ResultExplained codec moments result s)
  | .ok written, s =>
      decidableExplained codec moments written.quarantined written.failures
        (s.noteDeviceOutcome written.failures written.quarantined)
  | .error _, _ => .isTrue trivial

def CallExplained (s : AppState δ ω) (call : RecordCall φ) : Prop :=
  ResultExplained codec call.moments (s.writeSink codec call.moments call.entry).1
    (s.writeSink codec call.moments call.entry).2

instance (s : AppState δ ω) (call : RecordCall φ) : Decidable (CallExplained codec s call) :=
  inferInstanceAs (Decidable (ResultExplained _ _ _ _))

/-- Health says of every device whether it is stopped, reports no stopped one as accepting, and the
trail names every device stopped since the start. -/
structure HealthAgrees (start : AuditSink δ) (s : AppState δ ω) : Prop where
  agrees : List.Forall₂ Agrees s.devices s.audit.slots
  named : List.Forall₂ (NamedIn s.trail) start.slots s.audit.slots

variable {codec}

/-- A record that was committed and explained: the devices it has stopped are the news in health and
in the trail. -/
theorem HealthAgrees.committed {start : AuditSink δ} {s : AppState δ ω} {call : RecordCall φ}
    {written : Written} (h : HealthAgrees start s)
    (hwritten : (s.writeSink codec call.moments call.entry).1 = .ok written)
    (hexplained : Explained codec call.moments written.quarantined written.failures
      ((s.writeSink codec call.moments call.entry).2.noteDeviceOutcome written.failures
        written.quarantined)) :
    HealthAgrees start (explainTheGap codec call.moments written.quarantined written.failures
      ((s.writeSink codec call.moments call.entry).2.noteDeviceOutcome written.failures
        written.quarantined)) := by
  obtain ⟨htrail, hdevices, hslots⟩ := writeSink_eq_ok hwritten
  obtain ⟨htrail', hdevices', hslots'⟩ := explainTheGap_of_explained hexplained
  have hstops := forall₂_of_steps hslots hslots' fun _ _ _ _ hfirst hsecond => hfirst.trans_nil hsecond
  constructor
  · rw [hdevices', noteDeviceOutcome, hdevices, List.forall₂_map_left_iff]
    refine forall₂_of_steps h.agrees hstops ?_
    intro device slot slot' hmem hagrees hslot
    exact hagrees.note hwritten hmem hslot
  · refine forall₂_of_steps h.named hstops ?_
    intro first slot slot' hmem hnamed hslot
    refine ⟨hslot.name.trans hnamed.name, ?_⟩
    intro hfirst hstopped
    rw [htrail', noteDeviceOutcome, htrail, hslot.name]
    by_cases hold : slot.quarantined.isSome = true
    · simp [hnamed.named hfirst hold]
    · -- it is one of the devices that this record has stopped, and its failure is explained so
      have hany : written.failures.any (·.device == slot.name) = true := by
        simpa [hold] using hslot.stopped.mp hstopped
      obtain ⟨failure, hfailure, hdevice⟩ := List.any_eq_true.mp hany
      rw [beq_iff_eq] at hdevice
      have hreported : written.quarantined.any (·.device == failure.device) = true := by
        rw [hdevice, AuditSink.any_stopped_iff hwritten]
        exact ⟨⟨slot, hmem, by simpa using hold, rfl⟩, hany⟩
      refine List.mem_append_right _ (List.mem_map.mpr ⟨failure, hfailure, ?_⟩)
      rw [gapEntry, if_pos hreported, hdevice]

/-- A record that nobody stored is noted, and stops no device. -/
theorem HealthAgrees.refused {start : AuditSink δ} {s : AppState δ ω} {call : RecordCall φ}
    {error : AuditError} (h : HealthAgrees start s)
    (herror : (s.writeSink codec call.moments call.entry).1 = .error error)
    {devices : List DeviceHealth} {refused : List Entry}
    (hdevices : devices = s.devices ∨ ∃ failures, devices = s.devices.map (·.note failures [])) :
    HealthAgrees start { (s.writeSink codec call.moments call.entry).2 with
      devices := devices, refused := refused } := by
  obtain ⟨htrail, -, hstops⟩ := writeSink_eq_error herror
  constructor
  · rcases hdevices with rfl | ⟨failures, rfl⟩
    · exact forall₂_of_steps h.agrees hstops fun _ _ _ _ hagrees hslot => hagrees.unchanged hslot
    · rw [List.forall₂_map_left_iff]
      refine forall₂_of_steps h.agrees hstops ?_
      intro device slot slot' _ hagrees hslot
      obtain ⟨hsource, hisSome, haccepting⟩ := device.note_spec failures []
      have hunchanged := hagrees.unchanged hslot
      refine ⟨hsource.trans hunchanged.source, ?_, ?_⟩
      · rw [hisSome, ← hunchanged.quarantined]
        simp
      · intro hstopped
        rw [haccepting (by simpa [hisSome] using hunchanged.quarantined.mpr hstopped)]
        simp
  · rw [htrail]
    exact forall₂_of_steps h.named hstops fun _ _ _ _ hnamed hslot => hnamed.unchanged hslot

theorem HealthAgrees.step {start : AuditSink δ} {s s' : AppState δ ω} {call : RecordCall φ}
    (h : HealthAgrees start s) (hexplained : CallExplained codec s call)
    (hstep : recordStep codec s call = some s') : HealthAgrees start s' := by
  unfold recordStep at hstep
  rw [Option.some.injEq] at hstep
  rw [← hstep]
  cases hwritten : (s.writeSink codec call.moments call.entry).1 with
  | ok written =>
      rw [record_of_ok hwritten]
      refine h.committed hwritten ?_
      rwa [CallExplained, hwritten] at hexplained
  | error error =>
      obtain ⟨devices, hexec, hdevices⟩ := record_of_error hwritten
      rw [hexec]
      exact h.refused hwritten hdevices

/-- What a monitor reads off health: which devices are stopped. -/
theorem HealthAgrees.stopped_eq {start : AuditSink δ} {s : AppState δ ω} (h : HealthAgrees start s) :
    s.devices.map (·.quarantinedFrom.isSome) = s.audit.slots.map (·.quarantined.isSome) := by
  rw [← List.forall₂_eq_eq_eq, List.forall₂_map_left_iff, List.forall₂_map_right_iff]
  refine h.agrees.imp ?_
  intro device slot hagrees
  exact Bool.eq_iff_iff.mpr hagrees.quarantined

/-- Devices of one name are all stopped, or all written to. -/
def NamesAlike (slots : List (Slot δ)) : Prop :=
  ∀ slot ∈ slots, ∀ slot' ∈ slots, slot.name = slot'.name →
    slot.quarantined.isSome = slot'.quarantined.isSome

/-- A device that is stopped at the start is reported under its own name. -/
theorem startSlot_quarantined {world : ω} {head : Nat} {device : δ} {io : φ} {stopped : Quarantined}
    (h : (startSlot codec world head device io).quarantined = some stopped) :
    stopped.device = (startSlot codec world head device io).name := by
  rw [Slot.name, startSlot_device]
  unfold startSlot at h
  split at h
  · split at h
    · rw [Option.some.injEq] at h
      rw [← h]
    · cases h
  · cases h
  · cases h

theorem startHealth_agrees {start : AuditSink δ}
    (hown : ∀ slot ∈ start.slots, ∀ stopped, slot.quarantined = some stopped →
      stopped.device = slot.name)
    (halike : NamesAlike start.slots) {slot : Slot δ} (hmem : slot ∈ start.slots)
    (label : String) : Agrees (startHealth start.quarantined label slot.name) slot := by
  refine ⟨rfl, ?_, fun _ => by simp [startHealth]⟩
  unfold startHealth
  rw [Option.isSome_map, List.find?_isSome]
  constructor
  · rintro ⟨stopped, hstopped, hname⟩
    obtain ⟨other, hother, hquarantined⟩ := List.mem_filterMap.mp hstopped
    have hother' : other.name = slot.name := by
      rw [← hown other hother stopped hquarantined]
      exact beq_iff_eq.mp hname
    rw [← halike other hother slot hmem hother', hquarantined, Option.isSome_some]
  · intro hisSome
    obtain ⟨stopped, hstopped⟩ := Option.isSome_iff_exists.mp hisSome
    exact ⟨stopped, List.mem_filterMap.mpr ⟨slot, hmem, hstopped⟩,
      beq_iff_eq.mpr (hown slot hmem stopped hstopped)⟩

theorem HealthAgrees.new {world : ω} {devices : List δ} {chain : Chain} {io : Nat → φ}
    {start : AuditSink δ} (hnew : AuditSink.new codec world devices chain io = .ok start)
    (halike : NamesAlike start.slots) : HealthAgrees start (AppState.new world start) := by
  have hown : ∀ slot ∈ start.slots, ∀ stopped, slot.quarantined = some stopped →
      stopped.device = slot.name := by
    intro slot hmem stopped hstopped
    rw [(AuditSink.new_eq_ok hnew).2] at hmem
    obtain ⟨i, hi, rfl⟩ := List.mem_mapIdx.mp hmem
    exact startSlot_quarantined hstopped
  constructor
  · rw [List.forall₂_iff_get]
    constructor
    · simp [AppState.new, deviceLabels, deviceLabelsFrom_length]
    · intro i _ hi
      have hagrees := startHealth_agrees hown halike (List.getElem_mem hi)
      simpa [AppState.new] using hagrees _
  · apply List.forall₂_same.mpr
    intro slot _
    refine ⟨rfl, ?_⟩
    intro hnone hsome
    simp [hnone] at hsome

/-- Health agrees with the sink after every call of `record`, in every run from a start at which
devices of one name are alike and in which the records that explain a failure are accepted. -/
theorem health_agrees (codec : Codec) (world : ω) (devices : List δ) (chain : Chain) (io : Nat → φ)
    (start : AuditSink δ) (hnew : AuditSink.new codec world devices chain io = .ok start)
    (halike : NamesAlike start.slots) (s : AppState δ ω)
    (hs : Transition.Reachable (· = AppState.new world start) (recordStep codec)
      (CallExplained codec) s) : HealthAgrees start s := by
  refine hs.invariant ?_ ?_
  · intro s hs
    rw [hs]
    exact HealthAgrees.new hnew halike
  · intro s call s' h hexplained hstep
    exact h.step hexplained hstep

end AppState

end Sink

/-! ### Two copies beside the store -/

namespace Sample

def twoFilesConfig : Config :=
  ⟨"/var/lib/ciphr/store.db",
    [.sqlite, .file "/var/log/ciphr/audit.jsonl" none, .file "/mnt/audit/audit.jsonl" none], [], []⟩

def twoFiles : AuditSink Device :=
  ⟨[⟨.sqlite ⟨"sqlite:/var/lib/ciphr/store.db"⟩, none⟩,
    ⟨.file ⟨"file:/var/log/ciphr/audit.jsonl", "/var/log/ciphr/audit.jsonl", 0, 0, none⟩, none⟩,
    ⟨.file ⟨"file:/mnt/audit/audit.jsonl", "/mnt/audit/audit.jsonl", 0, 0, none⟩, none⟩], .new⟩

def gapRecord : Record :=
  ⟨2, ts, "314fc8f2a0f30419f500ead3dda3874c6fce29fd8bb549d3d44786d5d0ba48f3",
    .denied .auditDeviceFailed "device-quarantined: file:/var/log/ciphr/audit.jsonl"⟩

def gapPayload : String :=
  "\x7b\"seq\":2" ++ ",\"ts\":\"" ++ ts ++ "\",\"prev_hash\":\"" ++
    "314fc8f2a0f30419f500ead3dda3874c" ++ "6fce29fd8bb549d3d44786d5d0ba48f3" ++
    "\",\"entry\":\x7b\"principal\":null" ++ ",\"subject\":null" ++
    ",\"action\":\"audit-device-failed\"" ++ ",\"path\":null" ++ ",\"version\":null" ++
    ",\"allowed\":false" ++ ",\"deny_reason\":\"" ++ "device-quarantined: " ++
    "file:/var/log/ciphr/audit.jsonl" ++ "\",\"rule\":null" ++ ",\"results\":null" ++
    ",\"detail\":null" ++ ",\"request\":\x7b\"request_id\":null" ++ ",\"client_ip\":null" ++
    ",\"user_agent\":null" ++ ",\"http_status\":null" ++ ",\"channel\":null\x7d\x7d\x7d"

def gapHash : Hash :=
  #v[0xbc, 0xb9, 0x85, 0xa5, 0x3c, 0x2b, 0x11, 0x99, 0x39, 0x74, 0x41, 0x6e, 0x17, 0x1b, 0x51, 0x70,
    0x2c, 0x32, 0x2d, 0x16, 0x7a, 0x5e, 0x57, 0x43, 0xc9, 0x79, 0x7f, 0xc9, 0xb6, 0x3d, 0x32, 0xdf]

/-- SHA-256 and `serde_json` also on the record that explains the gap in the first file. -/
def gapCodec : Codec :=
  { codec with
    sha256 := fun bytes =>
      if bytes == gapPayload.toUTF8.data.toList then gapHash else codec.sha256 bytes
    recordToString := fun record =>
      if record == gapRecord then .ok gapPayload else codec.recordToString record }

/-- The second file's disk is full. -/
def otherDiskFull : Nat → DeviceFault
  | 2 => { file := { write := some (100, "No space left on device (os error 28)") } }
  | _ => {}

/-- The first file refuses the record, and whatever is given meets the record that explains it. -/
def fullThen (explaining : Nat → DeviceFault) : RecordCall DeviceFault :=
  ⟨entry, fun n => ⟨millis, if n = 0 then diskFull else explaining⟩⟩

def afterCall (call : RecordCall DeviceFault) : AppState Device AuditWorld :=
  ((AppState.record gapCodec call.moments call.entry).exec (.new world twoFiles)).2

/-- While the gap of one file is explained, the other one refuses. The sink stops it as well, health
goes on to report it as accepting, and no entry names it. -/
theorem second_file_stopped_unnoticed :
    twoFilesConfig.validate = .ok () ∧
      (openDevices twoFilesConfig world noFaults).2 = .ok (twoFiles.slots.map (·.device)) ∧
      AuditSink.new gapCodec world (twoFiles.slots.map (·.device)) .new noFaults = .ok twoFiles ∧
      (afterCall (fullThen otherDiskFull)).audit.slots.map (·.quarantined.isSome) =
        [false, true, true] ∧
      (afterCall (fullThen otherDiskFull)).devices.map (fun device =>
          (device.accepting, device.quarantinedFrom)) =
        [(some true, none), (some false, some 1), (some true, none)] ∧
      (afterCall (fullThen otherDiskFull)).trail =
        [entry, .denied .auditDeviceFailed
          "device-quarantined: file:/var/log/ciphr/audit.jsonl"] ∧
      ¬ AppState.HealthAgrees twoFiles (afterCall (fullThen otherDiskFull)) := by
  have hslots : (afterCall (fullThen otherDiskFull)).audit.slots.map (·.quarantined.isSome) =
      [false, true, true] := by
    decide +kernel
  have hdevices : (afterCall (fullThen otherDiskFull)).devices.map (fun device =>
      (device.accepting, device.quarantinedFrom)) =
        [(some true, none), (some false, some 1), (some true, none)] := by
    decide +kernel
  refine ⟨by decide +kernel, by decide +kernel, by decide +kernel, hslots, hdevices,
    by decide +kernel, ?_⟩
  intro hagrees
  have hstopped := hagrees.stopped_eq
  rw [hslots] at hstopped
  have hnoted := congrArg (List.map fun pair => pair.2.isSome) hdevices
  rw [List.map_map] at hnoted
  have := hstopped.symm.trans hnoted
  simp at this

theorem health_agrees_after_full_disk :
    AppState.HealthAgrees twoFiles (afterCall (fullThen noFaults)) := by
  have hexplained : AppState.CallExplained gapCodec (.new world twoFiles) (fullThen noFaults) := by
    decide +kernel
  have hstart : Transition.Reachable (· = AppState.new world twoFiles) (AppState.recordStep gapCodec)
      (AppState.CallExplained gapCodec) (AppState.new world twoFiles) := .start rfl
  have halike : AppState.NamesAlike twoFiles.slots := by
    unfold AppState.NamesAlike
    decide +kernel
  have hstep : AppState.recordStep gapCodec (.new world twoFiles) (fullThen noFaults) =
      some (afterCall (fullThen noFaults)) := rfl
  have hreached : Transition.Reachable (· = AppState.new world twoFiles)
      (AppState.recordStep gapCodec) (AppState.CallExplained gapCodec)
      (afterCall (fullThen noFaults)) := by
    apply Transition.Reachable.next (a := fullThen noFaults) hstart
    · assumption
    · assumption
  exact AppState.health_agrees gapCodec world (twoFiles.slots.map (·.device)) .new noFaults twoFiles
    (by decide +kernel) halike _ hreached

end Sample

end Ciphr
