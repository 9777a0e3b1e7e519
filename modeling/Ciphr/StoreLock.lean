import Ciphr.LibTransition
import Ciphr.LibFileSystem
import Ciphr.RustText

/-!
`ciphr-store/src/lock.rs`: one writer at a time, per store. `StoreLock::acquire` and `Drop` are
sequences of single file operations, so a process inside them is at one of the phases below and
every interleaving of processes is a run of `step`. The numbers of files that the phases carry are
what the operations acted on; the program has no access to them.
-/

namespace Ciphr.StoreLock

/-- A process as a lock file names it. -/
structure Process where
  pid : UInt32
  started : Option UInt64
  deriving DecidableEq, Repr

/-- The bytes a guard writes into the lock file. -/
def Process.identity (p : Process) : String :=
  match p.started with
  | some started => toString p.pid ++ " " ++ toString started
  | none => toString p.pid

/-- What `acquire` fails with: `StoreError::Locked` and `StoreError::Io`. -/
inductive AcquireError where
  | locked (holder : Option Nat)
  | io (detail : String)
  deriving DecidableEq, Repr

def readRaw (fs : FileSystem String String) (path : String) : Option String :=
  (fs.read path).filter fun text => !(Rust.trim text).isEmpty

def parseHolder (text : String) : Option (Nat × Option Nat) :=
  match Rust.splitWhitespace text with
  | [] => none
  | pid :: rest =>
      (Rust.parseUnsigned 32 pid).map fun pid => (pid, rest.head?.bind (Rust.parseUnsigned 64))

/-- `is_alive` on a `/proc` that lists the live processes with their start times. -/
def isAlive (live : List Process) (pid : Nat) (started : Option Nat) : Bool :=
  live.any fun q => q.pid.toNat == pid &&
    match started, q.started with
    | some recorded, some current => recorded == current.toNat
    | _, _ => true

/-- Where a live process stands: the operation of `acquire` or `drop` that it does next. -/
inductive Phase where
  | idle
  | failed (error : AcquireError)
  | creating
  | writing (file : Nat)
  | unwriting (file : Nat) (error : String)
  | readingBack (file : Nat)
  | reading
  | judging (file : Nat) (existing : String)
  | rechecking (file : Nat) (existing : String)
  | removing (file : Nat) (existing : String)
  | holding (file : Nat)
  | dropping (file : Nat)
  | releasing (file : Nat)
  deriving DecidableEq, Repr

namespace Phase

/-- The file this process created as its lock and has not given up, and what it has written
there. -/
def kept (p : Process) : Phase → Option (Nat × String)
  | writing file | unwriting file _ => some (file, "")
  | readingBack file | holding file | dropping file | releasing file => some (file, p.identity)
  | _ => none

/-- The file of another holder that this process has read, and what it read there. -/
def seen : Phase → Option (Nat × String)
  | judging file existing | rechecking file existing | removing file existing =>
      some (file, existing)
  | _ => none

/-- The file whose holder this process has found to be gone. -/
def stale : Phase → Option Nat
  | rechecking file _ | removing file _ => some file
  | _ => none

end Phase

/-- One operation of a process: `fault` is the error the operating system answers with instead of
performing it. Reading a file and comparing it is one operation, removing it is another. -/
def operate (path : String) (live : List Process) (p : Process) (fs : FileSystem String String)
    (fault : Option String) : Phase → Option (FileSystem String String × Phase)
  | .creating =>
      match fault with
      | some error => some (fs, .failed (.io ("cannot create " ++ path ++ ": " ++ error)))
      | none =>
          match fs.createNew path with
          | some (file, fs') => some (fs', .writing file)
          | none => some (fs, .reading)
  | .writing file =>
      match fault with
      | some error => some (fs, .unwriting file error)
      | none => some (fs.modify file fun _ => p.identity, .readingBack file)
  | .unwriting _ error =>
      some (if fault.isSome then fs else fs.remove path,
        .failed (.io ("cannot write " ++ path ++ ": " ++ error)))
  | .readingBack file =>
      if fault.isNone ∧ readRaw fs path = some p.identity then some (fs, .holding file)
      else some (fs, .creating)
  | .reading =>
      match fs.entry path, readRaw fs path with
      | some file, some existing =>
          if fault.isNone then some (fs, .judging file existing)
          else some (fs, .failed (.locked none))
      | _, _ => some (fs, .failed (.locked none))
  | .judging file existing =>
      match parseHolder existing with
      | some (pid, started) =>
          if isAlive live pid started then some (fs, .failed (.locked (some pid)))
          else some (fs, .rechecking file existing)
      | none => some (fs, .failed (.locked none))
  | .rechecking file existing =>
      if fault.isNone ∧ readRaw fs path = some existing then some (fs, .removing file existing)
      else some (fs, .creating)
  | .removing _ _ => some (if fault.isSome then fs else fs.remove path, .creating)
  | .dropping file =>
      if fault.isNone ∧ readRaw fs path = some p.identity then some (fs, .releasing file)
      else some (fs, .idle)
  | .releasing _ => some (if fault.isSome then fs else fs.remove path, .idle)
  | .idle | .failed _ | .holding _ => none

/-- The file system, the processes that are alive and where each of them stands. -/
structure State where
  fs : FileSystem String String
  live : List Process
  phase : Process → Phase

inductive Action where
  | start (p : Process)
  | acquire (p : Process)
  | operate (p : Process) (fault : Option String)
  | drop (p : Process)
  | crash (p : Process)
  deriving DecidableEq, Repr

namespace State

def setPhase (s : State) (p : Process) (phase : Phase) : State :=
  { s with phase := Function.update s.phase p phase }

/-- One step of one process. A process starts only with an identity no live process has. -/
def step (path : String) (s : State) : Action → Option State
  | .start p =>
      if s.live.any (·.identity == p.identity) then none
      else some { s.setPhase p .idle with live := p :: s.live }
  | .acquire p =>
      if p ∈ s.live then
        match s.phase p with
        | .idle | .failed _ => some (s.setPhase p .creating)
        | _ => none
      else none
  | .operate p fault =>
      if p ∈ s.live then
        (StoreLock.operate path s.live p s.fs fault (s.phase p)).map fun next =>
          { s.setPhase p next.2 with fs := next.1 }
      else none
  | .drop p =>
      if p ∈ s.live then
        match s.phase p with
        | .holding file => some (s.setPhase p (.dropping file))
        | _ => none
      else none
  | .crash p =>
      if p ∈ s.live then some { s with live := s.live.filter (· ≠ p) } else none

/-- Any file system, with or without a lock file in it, and no process yet. -/
def Initial (s : State) : Prop := s.live = []

/-- A live process has a guard that `acquire` returned and that it has not dropped. -/
def Holds (s : State) (p : Process) : Prop := p ∈ s.live ∧ ∃ file, s.phase p = .holding file

/-- The step is not the `remove_file` of a takeover at a moment when the lock file is another file
than the one whose holder the process found to be gone. -/
def RemovesWhatItRead (path : String) (s : State) : Action → Prop
  | .operate p none =>
      match s.phase p with
      | .removing file _ => (s.fs.entry path).all (· == file) = true
      | _ => True
  | _ => True

instance (path : String) (s : State) (a : Action) : Decidable (RemovesWhatItRead path s a) := by
  unfold RemovesWhatItRead
  split
  · split <;> infer_instance
  · infer_instance

end State

/-! ### What a lock file says about its holder -/

/-- What a process writes into its lock file is read back as its id and its start time. -/
theorem parseHolder_identity (p : Process) :
    parseHolder p.identity = some (p.pid.toNat, p.started.map UInt64.toNat) := by
  have hspace : ∀ n : Nat, ∀ c ∈ (toString n).toList, Rust.isWhitespace c = false := by
    intro n c hc
    exact Rust.not_isWhitespace_of_isDigit (Rust.isDigit_of_mem_toString hc)
  have hpid : Rust.parseUnsigned 32 (toString p.pid.toNat) = some p.pid.toNat :=
    Rust.parseUnsigned_toString 32 _ p.pid.toNat_lt
  unfold parseHolder Process.identity
  rw [show toString p.pid = toString p.pid.toNat from rfl]
  cases p.started with
  | some started =>
      have hstarted : Rust.parseUnsigned 64 (toString started.toNat) = some started.toNat :=
        Rust.parseUnsigned_toString 64 _ started.toNat_lt
      simp only [show toString started = toString started.toNat from rfl]
      rw [Rust.splitWhitespace_append_space _ (Rust.toList_toString_ne_nil _) (hspace _),
        Rust.splitWhitespace_of_forall (Rust.toList_toString_ne_nil _) (hspace _)]
      simp only [hpid, hstarted, Option.map_some, List.head?_cons, Option.bind_some]
  | none =>
      simp only
      rw [Rust.splitWhitespace_of_forall (Rust.toList_toString_ne_nil _) (hspace _)]
      simp only [hpid, Option.map_some, List.head?_nil, Option.bind_none, Option.map_none]

/-- A live process is never found to be gone by what it wrote into its lock file. -/
theorem isAlive_of_mem {live : List Process} {p : Process} (hp : p ∈ live) {pid : Nat}
    {started : Option Nat} (hholder : parseHolder p.identity = some (pid, started)) :
    isAlive live pid started = true := by
  rw [parseHolder_identity, Option.some.injEq, Prod.mk.injEq] at hholder
  obtain ⟨rfl, rfl⟩ := hholder
  unfold isAlive
  rw [List.any_eq_true]
  refine ⟨p, hp, ?_⟩
  cases p.started <;> simp

theorem readRaw_eq_some {fs : FileSystem String String} {path text : String}
    (h : readRaw fs path = some text) :
    ∃ file, fs.entry path = some file ∧ fs.data file = text ∧ text ≠ "" := by
  unfold readRaw FileSystem.read at h
  rw [Option.filter_eq_some_iff, Option.map_eq_some_iff] at h
  obtain ⟨⟨file, hentry, hdata⟩, hblank⟩ := h
  refine ⟨file, hentry, hdata, ?_⟩
  rintro rfl
  exact absurd hblank (by decide)

end Ciphr.StoreLock
