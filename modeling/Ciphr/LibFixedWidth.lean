import Mathlib

/-!
Formats of fixed width: every number of a text has as many digits as the format gives it. Such a text
can be read back, and texts of one format are ordered as the numbers in them are.
-/

namespace FixedWidth

/-- So many digits. -/
def DigitBlock (width : Nat) (chars : List Char) : Prop :=
  chars.length = width ∧ ∀ c ∈ chars, c.isDigit = true

/-- The number that the digits denote. -/
def value (digits : List Char) : Nat := Nat.ofDigitChars 10 digits 0

/-! ### Digits -/

theorem isDigit_bounds {c : Char} (h : c.isDigit = true) : 48 ≤ c.toNat ∧ c.toNat ≤ 57 := by
  unfold Char.isDigit at h
  rw [Bool.and_eq_true, decide_eq_true_eq, decide_eq_true_eq] at h
  exact h

theorem value_cons (c : Char) (digits : List Char) :
    value (c :: digits) = 10 ^ digits.length * (c.toNat - 48) + value digits := by
  unfold value
  rw [Nat.ofDigitChars_cons, Nat.ofDigitChars_eq_ofDigitChars_zero, Nat.mul_zero, Nat.zero_add]
  rfl

theorem DigitBlock.tail {width : Nat} {c : Char} {digits : List Char}
    (h : DigitBlock (width + 1) (c :: digits)) : DigitBlock width digits :=
  ⟨Nat.succ.inj h.1, fun d hd => h.2 d (List.mem_cons_of_mem c hd)⟩

theorem value_lt {width : Nat} {digits : List Char} (h : DigitBlock width digits) :
    value digits < 10 ^ width := by
  obtain ⟨rfl, hdigits⟩ := h
  induction digits with
  | nil => decide
  | cons c digits ih =>
      obtain ⟨-, hmax⟩ := isDigit_bounds (hdigits c List.mem_cons_self)
      have hrest := ih fun d hd => hdigits d (List.mem_cons_of_mem c hd)
      have hfirst : 10 ^ digits.length * (c.toNat - 48) ≤ 10 ^ digits.length * 9 :=
        Nat.mul_le_mul_left _ (by omega)
      rw [value_cons, List.length_cons, Nat.pow_succ]
      omega

theorem char_lt_iff {c d : Char} : c < d ↔ c.toNat < d.toNat := Iff.rfl

theorem char_eq_iff {c d : Char} : c = d ↔ c.toNat = d.toNat :=
  ⟨fun h => congrArg Char.toNat h, fun h => Char.ext (UInt32.toNat_inj.mp h)⟩

/-- Between as many digits, the first place that differs decides, in the text as in the number. -/
theorem append_lt_append_iff {width : Nat} {digits digits' : List Char}
    (h : DigitBlock width digits) (h' : DigitBlock width digits') (rest rest' : List Char) :
    digits ++ rest < digits' ++ rest' ↔
      value digits < value digits' ∨ value digits = value digits' ∧ rest < rest' := by
  induction width generalizing digits digits' with
  | zero =>
      rw [List.eq_nil_of_length_eq_zero h.1, List.eq_nil_of_length_eq_zero h'.1]
      simp
  | succ width ih =>
      obtain ⟨c, digits, rfl⟩ := List.exists_cons_of_length_eq_add_one h.1
      obtain ⟨d, digits', rfl⟩ := List.exists_cons_of_length_eq_add_one h'.1
      obtain ⟨hc, hc'⟩ := isDigit_bounds (h.2 c List.mem_cons_self)
      obtain ⟨hd, hd'⟩ := isDigit_bounds (h'.2 d List.mem_cons_self)
      have hlow := value_lt h.tail
      have hlow' := value_lt h'.tail
      rw [List.cons_append, List.cons_append, List.cons_lt_cons_iff, ih h.tail h'.tail, value_cons,
        value_cons, h.tail.1, h'.tail.1, char_lt_iff, char_eq_iff]
      rcases Nat.lt_trichotomy c.toNat d.toNat with hlt | heq | hgt
      · have hstep : 10 ^ width * (c.toNat - 48 + 1) ≤ 10 ^ width * (d.toNat - 48) :=
          Nat.mul_le_mul_left _ (by omega)
        rw [Nat.mul_succ] at hstep
        exact iff_of_true (.inl hlt) (.inl (by omega))
      · rw [heq, Nat.add_lt_add_iff_left, Nat.add_left_cancel_iff]
        simp
      · have hstep : 10 ^ width * (d.toNat - 48 + 1) ≤ 10 ^ width * (c.toNat - 48) :=
          Nat.mul_le_mul_left _ (by omega)
        rw [Nat.mul_succ] at hstep
        exact iff_of_false (by omega) (by omega)

/-! ### Formats -/

inductive Part where
  | mark (c : Char)
  | number (width : Nat)

/-- The text has the format, with these numbers in it. -/
inductive Writes : List Part → List Nat → List Char → Prop where
  | done : Writes [] [] []
  | mark {parts : List Part} {values : List Nat} {chars : List Char} (c : Char)
      (h : Writes parts values chars) : Writes (.mark c :: parts) values (c :: chars)
  | number {parts : List Part} {values : List Nat} {chars digits : List Char} {width : Nat}
      (hdigits : DigitBlock width digits) (h : Writes parts values chars) :
      Writes (.number width :: parts) (value digits :: values) (digits ++ chars)

def Part.width : Part → Nat
  | .mark _ => 1
  | .number width => width

/-- How many characters a text of the format has. -/
def width (parts : List Part) : Nat := (parts.map Part.width).sum

theorem writes_nil_iff {values : List Nat} {chars : List Char} :
    Writes [] values chars ↔ values = [] ∧ chars = [] := by
  constructor
  · intro h
    cases h
    exact ⟨rfl, rfl⟩
  · rintro ⟨rfl, rfl⟩
    exact .done

theorem writes_mark_iff {c : Char} {parts : List Part} {values : List Nat} {chars : List Char} :
    Writes (.mark c :: parts) values chars ↔
      ∃ rest, chars = c :: rest ∧ Writes parts values rest := by
  constructor
  · intro h
    cases h with
    | mark _ h => exact ⟨_, rfl, h⟩
  · rintro ⟨rest, rfl, h⟩
    exact .mark c h

theorem writes_number_iff {width : Nat} {parts : List Part} {values : List Nat} {chars : List Char} :
    Writes (.number width :: parts) values chars ↔ ∃ digits rest values', DigitBlock width digits ∧
      chars = digits ++ rest ∧ values = value digits :: values' ∧ Writes parts values' rest := by
  constructor
  · intro h
    cases h with
    | number hdigits h => exact ⟨_, _, _, hdigits, rfl, rfl, h⟩
  · rintro ⟨digits, rest, values', hdigits, rfl, rfl, h⟩
    exact .number hdigits h

theorem Writes.length_eq {parts : List Part} {values : List Nat} {chars : List Char}
    (h : Writes parts values chars) : chars.length = width parts := by
  induction h with
  | done => rfl
  | mark c h ih =>
      rw [List.length_cons, ih]
      exact Nat.add_comm _ _
  | number hdigits h ih =>
      rw [List.length_append, ih, hdigits.1]
      rfl

/-- A text has no other characters than digits and the marks of its format. -/
theorem Writes.mem {parts : List Part} {values : List Nat} {chars : List Char}
    (h : Writes parts values chars) {c : Char} (hmem : c ∈ chars) :
    c.isDigit = true ∨ .mark c ∈ parts := by
  induction h with
  | done => cases hmem
  | mark d h ih =>
      rcases List.mem_cons.mp hmem with rfl | hmem
      · exact .inr List.mem_cons_self
      · exact (ih hmem).imp_right (List.mem_cons_of_mem _)
  | number hdigits h ih =>
      rcases List.mem_append.mp hmem with hmem | hmem
      · exact .inl (hdigits.2 c hmem)
      · exact (ih hmem).imp_right (List.mem_cons_of_mem _)

/-- Reads the numbers of a text of the format. -/
def read : List Part → List Char → Option (List Nat)
  | [], chars => if chars = [] then some [] else none
  | .mark c :: parts, chars => if chars.head? = some c then read parts chars.tail else none
  | .number width :: parts, chars =>
      if (chars.take width).length = width ∧ (chars.take width).all Char.isDigit = true then
        (read parts (chars.drop width)).map (value (chars.take width) :: ·)
      else none

/-- What is written is read. -/
theorem Writes.read {parts : List Part} {values : List Nat} {chars : List Char}
    (h : Writes parts values chars) : read parts chars = some values := by
  induction h with
  | done => rfl
  | mark c h ih =>
      unfold FixedWidth.read
      rw [if_pos List.head?_cons]
      exact ih
  | @number parts values chars digits width hdigits h ih =>
      have htake : (digits ++ chars).take width = digits := by
        rw [← hdigits.1, List.take_left]
      have hdrop : (digits ++ chars).drop width = chars := by
        rw [← hdigits.1, List.drop_left]
      unfold FixedWidth.read
      rw [htake, hdrop, if_pos ⟨hdigits.1, List.all_eq_true.mpr hdigits.2⟩, ih]
      rfl

/-- Texts of one format are ordered as the lists of their numbers are. -/
theorem Writes.lt_iff {parts : List Part} {values values' : List Nat} {chars chars' : List Char}
    (h : Writes parts values chars) (h' : Writes parts values' chars') :
    chars < chars' ↔ values < values' := by
  induction h generalizing values' chars' with
  | done =>
      cases h'
      simp
  | mark c h ih =>
      cases h' with
      | mark _ h' =>
          rw [List.cons_lt_cons_self]
          exact ih h'
  | number hdigits h ih =>
      cases h' with
      | number hdigits' h' =>
          rw [append_lt_append_iff hdigits hdigits', List.cons_lt_cons_iff, ih h']

end FixedWidth
