import Ciphr.CoreEnvName

/-!
`ciphr-core/src/process_env.rs` and `file_mode.rs`: which names decide how a process starts, and what
everyone on a host may do to the file of a credential.
-/

namespace Ciphr

/-! ### Names -/

/-- `CONTROL_NAMES`. -/
def controlNames : List String :=
  ["BASH_ENV", "ENV", "GCONV_PATH", "GLIBC_TUNABLES", "IFS", "JAVA_TOOL_OPTIONS", "_JAVA_OPTIONS",
    "JDK_JAVA_OPTIONS", "MALLOC_CONF", "NODE_OPTIONS", "NODE_REPL_EXTERNAL_MODULE", "PATH", "PERL5LIB",
    "PERL5OPT", "PYTHONHOME", "PYTHONPATH", "PYTHONSTARTUP", "PYTHONWARNINGS", "RUBYLIB", "RUBYOPT"]

/-- `CONTROL_PREFIXES`. -/
def controlStarts : List String := ["LD_", "DYLD_"]

/-- Whether a name decides how a process starts, and why. -/
def processControlReason (name : String) : Option String :=
  if controlStarts.any fun start => start.toList.isPrefixOf name.toList then
    some "the dynamic loader reads it before the program starts"
  else if controlNames.contains name then
    some "a language runtime or the shell reads it before the program starts"
  else none

example : processControlReason "LDAP_BIND_PASSWORD" = none := by decide +kernel

/-- The first of the names that decides how a process starts is refused. -/
def refuseControlNames {ε : Type} (refusal : String → String → ε) : List EnvVarName → Except ε Unit
  | [] => .ok ()
  | name :: names =>
      match processControlReason name.text with
      | some reason => .error (refusal name.text reason)
      | none => refuseControlNames refusal names

theorem refuseControlNames_ok_iff {ε : Type} {refusal : String → String → ε} {names : List EnvVarName} :
    refuseControlNames refusal names = .ok () ↔
      ∀ name ∈ names, processControlReason name.text = none := by
  induction names with
  | nil => simp [refuseControlNames]
  | cons name names ih =>
      rw [refuseControlNames, List.forall_mem_cons]
      cases hreason : processControlReason name.text with
      | none => simp [ih]
      | some reason => simp

theorem refuseControlNames_error {ε : Type} {refusal : String → String → ε} {names : List EnvVarName}
    {error : ε} (h : refuseControlNames refusal names = .error error) :
    ∃ name ∈ names, ∃ reason, processControlReason name.text = some reason ∧
      error = refusal name.text reason := by
  induction names with
  | nil => cases h
  | cons name names ih =>
      rw [refuseControlNames] at h
      cases hreason : processControlReason name.text with
      | none =>
          rw [hreason] at h
          obtain ⟨later, hmem, hlater⟩ := ih h
          exact ⟨later, List.mem_cons_of_mem _ hmem, hlater⟩
      | some reason =>
          rw [hreason] at h
          cases h
          exact ⟨name, List.mem_cons_self .., reason, hreason, rfl⟩

/-! ### Files -/

inductive WorldAccess where
  | read
  | write
  | readWrite
  deriving DecidableEq, Repr

namespace WorldAccess

/-- What the world may do to a file at a mode. -/
def ofMode (mode : UInt32) : Option WorldAccess :=
  match mode &&& 0o004 != 0, mode &&& 0o002 != 0 with
  | true, true => some .readWrite
  | true, false => some .read
  | false, true => some .write
  | false, false => none

def description : WorldAccess → String
  | .read => "world-readable"
  | .write => "world-writable"
  | .readWrite => "world-readable and world-writable"

theorem ofMode_eq_none_iff {mode : UInt32} :
    ofMode mode = none ↔ mode &&& 0o004 = 0 ∧ mode &&& 0o002 = 0 := by
  unfold ofMode
  by_cases hread : mode &&& 0o004 = 0
  · by_cases hwrite : mode &&& 0o002 = 0
    · simp [hread, hwrite]
    · have hset : (mode &&& 0o002 != 0) = true := by simp [hwrite]
      simp [hread, hwrite, hset]
  · have hset : (mode &&& 0o004 != 0) = true := by simp [hread]
    rw [hset]
    cases mode &&& 0o002 != 0
    · simp [hread]
    · simp [hread]

end WorldAccess

/-- What is known of an open file. -/
structure FileMetadata where
  isFile : Bool
  mode : UInt32

/-- A credential file, opened once, and what the world may do to the file that was opened. -/
structure Credential where
  file : Nat
  mode : Option UInt32
  world : Option WorldAccess

inductive CredentialError where
  | io (kind : String)
  | notARegularFile
  deriving DecidableEq, Repr

/-- The short category a caller puts in its own error. -/
def CredentialError.reason : CredentialError → String
  | .io kind => kind
  | .notARegularFile => "not a regular file"

/-- What `open_credential` makes of a file that it has open; only Unix has mode bits. -/
def Credential.inspect (unix : Bool) (file : Nat) (metadata : FileMetadata) :
    Except CredentialError Credential :=
  if metadata.isFile then
    let mode := if unix then some (metadata.mode &&& 0o777) else none
    .ok ⟨file, mode, mode.bind WorldAccess.ofMode⟩
  else .error .notARegularFile

/-- The mode a bind mount from a filesystem without Unix permissions reports. -/
def bindMountMode : UInt32 := 0o777

def bindMountHint : String :=
  ". Mode 0777 exactly is also what a bind mount from a " ++
    "filesystem without Unix permissions reports — a Windows or macOS host, or a CIFS share " ++
    "— whatever the file is on that host. If that is what happened, move the file into a " ++
    "named volume rather than relaxing this check"

end Ciphr
