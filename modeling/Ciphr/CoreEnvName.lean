import Ciphr.CorePath
import Ciphr.LibFold

/-!
`ciphr-core/src/env_name.rs`: the environment variable name of a secret, which is the last segment of
its path, and the names of a whole set of paths.
-/

namespace Ciphr

inductive NameFault where
  | empty
  | leadingDigit
  | character (character : Char)
  deriving DecidableEq

inductive EnvNameError where
  | notAName (found : String) (reason : NameFault)
  | collision (name first second : String)
  deriving DecidableEq

/-- `char::is_ascii_alphanumeric`, or an underscore. -/
def isNameChar (c : Char) : Bool := c.isAlphanum || c == '_'

def nameFault (input : String) : Option NameFault :=
  match input.toList with
  | [] => some .empty
  | first :: rest =>
      if first.isDigit then some .leadingDigit
      else ((first :: rest).find? fun c => !isNameChar c).map .character

/-- A validated environment variable name. -/
structure EnvVarName where
  text : String
  usable : nameFault text = none

namespace EnvVarName

instance : DecidableEq EnvVarName := fun a b =>
  decidable_of_iff (a.text = b.text) (by cases a; cases b; simp)

def parse (input : String) : Except EnvNameError EnvVarName :=
  match h : nameFault input with
  | some reason => .error (.notAName input reason)
  | none => .ok ⟨input, h⟩

variable {u : Unicode}

/-- The name of a secret: its last path segment. -/
def forPath (path : SecretPath u) : Except EnvNameError EnvVarName :=
  parse (path.segments.getLast?.getD path.text)

/-- One turn of the loop of `assign`: the names so far, each with the path that it came from. -/
def assignNext (assigned : List (EnvVarName × SecretPath u)) (path : SecretPath u) :
    Except EnvNameError (List (EnvVarName × SecretPath u)) := do
  let name ← forPath path
  match assigned.find? (·.1 == name) with
  | some (_, first) => .error (.collision name.text first.text path.text)
  | none => .ok (assigned ++ [(name, path)])

/-- The names of a set of paths, in their order. -/
def assign (paths : List (SecretPath u)) : Except EnvNameError (List EnvVarName) := do
  let assigned ← paths.foldlM assignNext []
  .ok (assigned.map (·.1))

theorem parse_text (name : EnvVarName) : parse name.text = .ok name := by
  unfold parse
  split
  · rename_i reason h
    rw [name.usable] at h
    cases h
  · rfl

/-- A name begins with a letter or an underscore, and has nothing but these and digits. -/
theorem chars (name : EnvVarName) :
    ∃ first rest, name.text.toList = first :: rest ∧ first.isDigit = false ∧
      ∀ c ∈ name.text.toList, isNameChar c = true := by
  have h := name.usable
  unfold nameFault at h
  cases hchars : name.text.toList with
  | nil =>
      rw [hchars] at h
      cases h
  | cons first rest =>
      rw [hchars] at h
      dsimp only at h
      split at h
      · cases h
      · rename_i hdigit
        rw [Option.map_eq_none_iff, List.find?_eq_none] at h
        exact ⟨first, rest, rfl, Bool.not_eq_true _ ▸ hdigit, fun c hc => by simpa using h c hc⟩

theorem assign_length {paths : List (SecretPath u)} {names : List EnvVarName}
    (h : assign paths = .ok names) : names.length = paths.length := by
  have hloop : ∀ (paths : List (SecretPath u)) (assigned all : List (EnvVarName × SecretPath u)),
      paths.foldlM assignNext assigned = .ok all → all.length = assigned.length + paths.length := by
    intro paths
    induction paths with
    | nil =>
        intro assigned all h
        cases h
        rfl
    | cons path paths ih =>
        intro assigned all h
        obtain ⟨next, hnext, h⟩ := Loop.foldlM_cons_eq_ok h
        obtain ⟨name, -, hnext⟩ := Loop.bind_eq_ok hnext
        rw [ih next all h, List.length_cons]
        split at hnext
        · cases hnext
        · cases hnext
          rw [List.length_append, List.length_singleton]
          omega
  obtain ⟨all, hall, hnames⟩ := Loop.bind_eq_ok h
  cases hnames
  have hlength := hloop paths [] all hall
  rw [List.length_map, hlength, List.length_nil, Nat.zero_add]

end EnvVarName

theorem isNameChar_toNat {c : Char} (h : isNameChar c = true) :
    (48 ≤ c.toNat ∧ c.toNat ≤ 57) ∨ (65 ≤ c.toNat ∧ c.toNat ≤ 90) ∨ c.toNat = 95 ∨
      (97 ≤ c.toNat ∧ c.toNat ≤ 122) := by
  unfold isNameChar at h
  rw [Bool.or_eq_true, beq_iff_eq] at h
  rcases h with h | rfl
  · have hranges : (decide (c.val ≥ 65 ∧ c.val ≤ 90) ||
        decide (c.val ≥ 97) && decide (c.val ≤ 122) ||
        decide (c.val ≥ 48) && decide (c.val ≤ 57)) = true := h
    simp only [Bool.or_eq_true, Bool.and_eq_true, decide_eq_true_eq, ge_iff_le,
      UInt32.le_iff_toNat_le] at hranges
    change ((65 ≤ c.toNat ∧ c.toNat ≤ 90) ∨ (97 ≤ c.toNat ∧ c.toNat ≤ 122)) ∨
      (48 ≤ c.toNat ∧ c.toNat ≤ 57) at hranges
    omega
  · exact .inr (.inr (.inl rfl))

theorem not_isWhitespace_of_isNameChar {c : Char} (h : isNameChar c = true) :
    Rust.isWhitespace c = false := by
  have hrange := isNameChar_toNat h
  simp only [Rust.isWhitespace, Bool.or_eq_false_iff, Bool.and_eq_false_iff, beq_eq_false_iff_ne,
    decide_eq_false_iff_not]
  omega

/-- A character that no name has. -/
theorem EnvVarName.not_mem (name : EnvVarName) {c : Char} (hc : isNameChar c = false) :
    c ∉ name.text.toList := by
  intro hmem
  obtain ⟨-, -, -, -, hall⟩ := name.chars
  rw [hall c hmem] at hc
  cases hc

end Ciphr
