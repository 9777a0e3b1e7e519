import Ciphr.LibProgram
import Ciphr.AuditDevice
import Ciphr.Errors

/-!
`ciphr-server/src/state.rs`, the half of `AppState` that every record goes through: the sink, and
the health of its devices as `/v1/health` reports it. The state also remembers which entries were
committed and which were refused.
-/

namespace Ciphr

/-- Whether one audit device accepted the most recent record, and whether it is still written to. -/
structure DeviceHealth where
  name : String
  source : String
  accepting : Option Bool
  quarantinedFrom : Option Nat
  deriving DecidableEq, Repr

/-- The part of a device's name before the first colon. -/
def deviceKind (name : String) : String :=
  let kind := name.toList.takeWhile (· != ':')
  if name.toList.contains ':' && !kind.isEmpty then String.ofList kind else "device"

/-- The loop of `device_labels`; `seen` counts the devices of each kind so far. -/
def deviceLabelsFrom : List (String × Nat) → List String → List String
  | _, [] => []
  | seen, name :: names =>
      let kind := deviceKind name
      match seen.find? (·.1 == kind) with
      | some (_, count) =>
          let counted := seen.map fun one => if one.1 == kind then (kind, count + 1) else one
          (kind ++ "-" ++ toString (count + 1)) :: deviceLabelsFrom counted names
      | none => (kind ++ "-1") :: deviceLabelsFrom (seen ++ [(kind, 1)]) names

def deviceLabels (names : List String) : List String := deviceLabelsFrom [] names

theorem deviceLabelsFrom_length (seen : List (String × Nat)) (names : List String) :
    (deviceLabelsFrom seen names).length = names.length := by
  induction names generalizing seen with
  | nil => rfl
  | cons name names ih =>
      unfold deviceLabelsFrom
      dsimp only
      split
      · rw [List.length_cons, List.length_cons, ih]
      · rw [List.length_cons, List.length_cons, ih]

example : deviceLabels ["sqlite:/var/lib/ciphr/ciphr.db", "file:/var/log/ciphr/audit.jsonl",
    "file:/mnt/audit/audit.jsonl", "syslog"] = ["sqlite-1", "file-1", "file-2", "device-1"] := by
  decide

/-- One turn of the loop of `note_device_outcome`. -/
def DeviceHealth.note (failures : List DeviceFailure) (quarantined : List Quarantined)
    (device : DeviceHealth) : DeviceHealth :=
  let device :=
    match quarantined.find? (·.device == device.source) with
    | some stopped => { device with quarantinedFrom := some stopped.missedFrom }
    | none => device
  if device.quarantinedFrom.isSome then { device with accepting := some false }
  else { device with accepting := some (!failures.any (·.device == device.source)) }

/-- The entry that explains why a device is missing a record the others have. -/
def gapEntry (quarantined : List Quarantined) (failure : DeviceFailure) : Entry :=
  let reason :=
    if quarantined.any (·.device == failure.device) then "device-quarantined: " ++ failure.device
    else "device-refused: " ++ failure.device
  .denied .auditDeviceFailed reason

/-- The clock, and what each device meets, at one write of the sink. -/
structure Moment (φ : Type) where
  now : Int
  io : Nat → φ

/-- `writes` and `calls` count how often the sink and the store were used so far, `trail` is what
was committed and `refused` what `record` answered with an error. -/
structure AppState (δ ω : Type) where
  world : ω
  audit : AuditSink δ
  devices : List DeviceHealth
  writes : Nat
  calls : Nat
  trail : List Entry
  refused : List Entry

namespace AppState

variable {δ ω φ : Type} [AuditDevice δ ω φ]

/-- What health says of a device before the first write. -/
def startHealth (stopped : List Quarantined) (label source : String) : DeviceHealth :=
  ⟨label, source, none, (stopped.find? (·.device == source)).map (·.missedFrom)⟩

def new (world : ω) (audit : AuditSink δ) : AppState δ ω :=
  let sources := audit.slots.map (·.name)
  ⟨world, audit, List.zipWith (startHealth audit.quarantined) (deviceLabels sources) sources, 0, 0,
    [], []⟩

variable (codec : Codec) (moments : Nat → Moment φ)

/-- One `record` of the sink, which commits the entry or not. -/
def writeSink (entry : Entry) (s : AppState δ ω) : Except AuditError Written × AppState δ ω :=
  let moment := moments s.writes
  let outcome := s.audit.record codec s.world moment.io entry moment.now
  let committed := match outcome.2 with
    | .ok _ => [entry]
    | .error _ => []
  (outcome.2, { s with
    world := outcome.1.1, audit := outcome.1.2, writes := s.writes + 1,
    trail := s.trail ++ committed })

def noteDeviceOutcome (failures : List DeviceFailure) (quarantined : List Quarantined)
    (s : AppState δ ω) : AppState δ ω :=
  { s with devices := s.devices.map (·.note failures quarantined) }

/-- One further record for each failure; what becomes of it is not looked at. -/
def explainTheGap (quarantined : List Quarantined) : List DeviceFailure → AppState δ ω →
    AppState δ ω
  | [], s => s
  | failure :: failures, s =>
      explainTheGap quarantined failures
        (s.writeSink codec moments (gapEntry quarantined failure)).2

/-- Store one audit entry. -/
def record (entry : Entry) : Program (AppState δ ω) ApiError Unit := fun s =>
  match s.writeSink codec moments entry with
  | (.ok written, s) =>
      (.ok (), explainTheGap codec moments written.quarantined written.failures
        (s.noteDeviceOutcome written.failures written.quarantined))
  | (.error (.allDevicesFailed failures), s) =>
      (.error .auditUnavailable,
        { s.noteDeviceOutcome failures [] with refused := s.refused ++ [entry] })
  | (.error _, s) => (.error .auditUnavailable, { s with refused := s.refused ++ [entry] })

variable {codec moments} {entry : Entry} {s : AppState δ ω}

theorem record_of_ok {written : Written} (h : (s.writeSink codec moments entry).1 = .ok written) :
    (record codec moments entry).exec s =
      (.ok (), explainTheGap codec moments written.quarantined written.failures
        ((s.writeSink codec moments entry).2.noteDeviceOutcome written.failures
          written.quarantined)) := by
  change record codec moments entry s = _
  unfold record
  split
  · rename_i written' s' heq
    rw [heq] at h ⊢
    cases h
    rfl
  · rename_i heq
    rw [heq] at h
    cases h
  · rename_i heq
    rw [heq] at h
    cases h

/-- Where a record ends that nobody stored. -/
theorem record_of_error {error : AuditError}
    (h : (s.writeSink codec moments entry).1 = .error error) :
    ∃ devices, (record codec moments entry).exec s =
        (.error .auditUnavailable, { (s.writeSink codec moments entry).2 with
          devices := devices, refused := s.refused ++ [entry] }) ∧
      (devices = s.devices ∨ ∃ failures, devices = s.devices.map (·.note failures [])) := by
  change ∃ devices, record codec moments entry s = _ ∧ _
  unfold record
  split
  · rename_i written' s' heq
    rw [heq] at h
    cases h
  · rename_i failures s' heq
    refine ⟨s.devices.map (·.note failures []), ?_, .inr ⟨failures, rfl⟩⟩
    have hs : s' = (s.writeSink codec moments entry).2 := by rw [heq]
    rw [hs]
    rfl
  · rename_i s' _ heq
    refine ⟨s.devices, ?_, .inl rfl⟩
    have hs : s' = (s.writeSink codec moments entry).2 := by rw [heq]
    rw [hs]
    rfl

end AppState

end Ciphr
