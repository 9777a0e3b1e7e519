import Mathlib.Algebra.Group.Int.Defs
import Mathlib.Algebra.Group.Nat.Defs

/-!
`ciphr-core/src/version.rs` and `rotation.rs`: secret versions and how safe a secret is to rotate.
-/

namespace Ciphr

/-- A version of a secret, counting from one. -/
@[ext]
structure SecretVersion where
  number : Nat
  pos : 0 < number
  lt : number < 2 ^ 32
  deriving DecidableEq

namespace SecretVersion

def first : SecretVersion := ⟨1, by decide, by decide⟩

/-- Wrap a 32-bit number, rejecting zero. -/
def new (version : UInt32) : Option SecretVersion :=
  if h : version.toNat = 0 then none else some ⟨version.toNat, Nat.pos_of_ne_zero h, version.toNat_lt⟩

/-- The next version, or nothing on overflow. -/
def next (version : SecretVersion) : Option SecretVersion :=
  if h : version.number + 1 < 2 ^ 32 then some ⟨version.number + 1, Nat.succ_pos _, h⟩ else none

theorem new_number {version : UInt32} {v : SecretVersion} (h : new version = some v) :
    v.number = version.toNat := by
  unfold new at h
  split at h
  · cases h
  · rw [← Option.some.inj h]

theorem new_eq_none {version : UInt32} (h : new version = none) : version.toNat = 0 := by
  unfold new at h
  split at h
  · assumption
  · cases h

theorem next_number {version v : SecretVersion} (h : version.next = some v) :
    v.number = version.number + 1 := by
  unfold next at h
  split at h
  · rw [← Option.some.inj h]
  · cases h

end SecretVersion

inductive Rotation where
  | unclassified
  | rotatable
  | seedOnly
  | breaksData
  | volumeBound
  | invalidatesSessions
  deriving DecidableEq, Repr

inductive RotationError where
  | unknown (found : String)
  deriving DecidableEq, Repr

namespace Rotation

def all : List Rotation :=
  [.unclassified, .rotatable, .seedOnly, .breaksData, .volumeBound, .invalidatesSessions]

def asStr : Rotation → String
  | .unclassified => "unclassified"
  | .rotatable => "rotatable"
  | .seedOnly => "seed-only"
  | .breaksData => "breaks-data"
  | .volumeBound => "volume-bound"
  | .invalidatesSessions => "invalidates-sessions"

def parse (input : String) : Except RotationError Rotation :=
  match all.find? fun rotation => rotation.asStr == input with
  | some rotation => .ok rotation
  | none => .error (.unknown input)

/-- Whether a rotation needs more than a new version. -/
def needsCare : Rotation → Bool
  | .rotatable => false
  | .unclassified | .seedOnly | .breaksData | .volumeBound | .invalidatesSessions => true

/-- What to do instead of rotating blindly. -/
def advice : Rotation → String
  | .unclassified =>
      "Nobody has classified this secret, so nothing here says a rotation is safe. Find out what " ++
        "reads it and what happens when the value changes, then record the answer with " ++
        "`ciphr rotation <path> <class>`. Treat it as dangerous until then: the classes that " ++
        "destroy data look exactly like this one from here."
  | .rotatable => "Safe to rotate: write a new version and redeploy the consumers."
  | .seedOnly =>
      "Only read during first initialization. Rotating changes the stored value without changing " ++
        "the running system, so the two drift apart silently. Change it in the initialized system " ++
        "first, then record the new value here."
  | .breaksData =>
      "This value encrypts data at rest. A new value makes existing data unreadable. Re-encrypt " ++
        "with the application's own key-change procedure, or accept the data loss knowingly; a " ++
        "restore from backup will need the old value, so keep the previous version."
  | .volumeBound =>
      "Must match what the persistent volume was initialized with. Rotating requires changing it " ++
        "inside the volume as well, or recreating the volume. A restart with a mismatched value " ++
        "usually fails to start rather than corrupting anything, which is the good case."
  | .invalidatesSessions =>
      "Rotation works, but every session and derived token becomes invalid. Expect users to be " ++
        "signed out and integrations to need new tokens; schedule it rather than doing it mid-day."

theorem parse_asStr (rotation : Rotation) : parse rotation.asStr = .ok rotation := by
  cases rotation <;> rfl

end Rotation

/-- What `Display` writes. -/
def RotationError.text : RotationError → String
  | .unknown found =>
      "unknown rotation class '" ++ found ++ "', expected one of: " ++
        ", ".intercalate (Rotation.all.map Rotation.asStr)

end Ciphr
