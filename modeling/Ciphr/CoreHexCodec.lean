import Mathlib
import Ciphr.CoreHex
import Ciphr.RustText

/-!
What hexadecimal decoding leaves in the buffer. The loop writes each byte as soon as its two digits are
read, so what a later digit spoils has been written by then.
-/

namespace Ciphr.Hex

/-- The pairs of digits that a text is read in. -/
def pairs : List UInt8 → List (UInt8 × UInt8)
  | high :: low :: bytes => (high, low) :: pairs bytes
  | _ => []

/-- The byte that two digits stand for. -/
def pairByte (pair : UInt8 × UInt8) : Option UInt8 :=
  match digit pair.1, digit pair.2 with
  | .ok high, .ok low => some (high <<< 4 ||| low)
  | _, _ => none

/-- The bytes of a text. -/
def textBytes (input : String) : List UInt8 := input.toUTF8.data.toList

/-- A call fills the buffer with what the text stands for, or fails and leaves the buffer as it was. -/
def WritesOnSuccess (input : String) (out : List UInt8) : Prop :=
  match decodeInto input out with
  | (buffer, .ok ()) => input.utf8ByteSize = out.length * 2 ∧ buffer.length = out.length ∧
      encode buffer = input.toLower
  | (buffer, .error _) => buffer = out

/-- A text of the right length whose first pair that is no byte follows pairs that stand for other bytes
than the buffer has. -/
def Spoils (input : String) (out : List UInt8) : Prop :=
  input.utf8ByteSize = out.length * 2 ∧
    ∃ front bad back values, pairs (textBytes input) = front ++ bad :: back ∧
      front.map pairByte = values.map some ∧ pairByte bad = none ∧ out.take values.length ≠ values

/-! ### The loop -/

/-- Either all the pairs are bytes, or there is a first that is none. -/
theorem all_or_first_bad (read : List (UInt8 × UInt8)) :
    (∃ values : List UInt8, read.map pairByte = values.map some) ∨
      ∃ front bad back, ∃ values : List UInt8, read = front ++ bad :: back ∧
        front.map pairByte = values.map some ∧ pairByte bad = none := by
  induction read with
  | nil => exact .inl ⟨[], rfl⟩
  | cons pair read ih =>
      cases hpair : pairByte pair with
      | none => exact .inr ⟨[], pair, read, [], rfl, rfl, hpair⟩
      | some value =>
          rcases ih with ⟨values, hvalues⟩ | ⟨front, bad, back, values, rfl, hvalues, hbad⟩
          · exact .inl ⟨value :: values, by simp [hpair, hvalues]⟩
          · exact .inr ⟨pair :: front, bad, back, value :: values, rfl, by simp [hpair, hvalues], hbad⟩

theorem digits_of_pairByte {high low value : UInt8} (h : pairByte (high, low) = some value) :
    ∃ hi lo, digit high = .ok hi ∧ digit low = .ok lo ∧ hi <<< 4 ||| lo = value := by
  unfold pairByte at h
  cases hhigh : digit high with
  | error error => simp [hhigh] at h
  | ok hi =>
      cases hlow : digit low with
      | error error => simp [hhigh, hlow] at h
      | ok lo =>
          simp only [hhigh, hlow, Option.some.injEq] at h
          exact ⟨hi, lo, rfl, rfl, h⟩

theorem bytes_of_pairs {bytes : List UInt8} {pair : UInt8 × UInt8} {read : List (UInt8 × UInt8)}
    (h : pairs bytes = pair :: read) : ∃ rest, bytes = pair.1 :: pair.2 :: rest ∧ pairs rest = read := by
  unfold pairs at h
  split at h
  · rename_i high low rest
    rw [List.cons.injEq] at h
    obtain ⟨rfl, hrest⟩ := h
    exact ⟨rest, rfl, hrest⟩
  · cases h

theorem length_of_pairs_nil {bytes : List UInt8} (h : pairs bytes = []) : bytes.length < 2 := by
  cases bytes with
  | nil => simp
  | cons high bytes =>
      cases bytes with
      | nil => simp
      | cons low rest => simp [pairs] at h

/-- A pair that is a byte fills the next slot. -/
theorem decodeSlots_pair {high low value slot : UInt8} (bytes slots : List UInt8)
    (h : pairByte (high, low) = some value) :
    decodeSlots (high :: low :: bytes) (slot :: slots) =
      (value :: (decodeSlots bytes slots).1, (decodeSlots bytes slots).2) := by
  obtain ⟨hi, lo, hhigh, hlow, hvalue⟩ := digits_of_pairByte h
  simp [decodeSlots, hhigh, hlow, hvalue]

/-- A pair that is no byte ends the loop. -/
theorem decodeSlots_bad {high low : UInt8} (bytes slots : List UInt8) (hsome : 0 < slots.length)
    (h : pairByte (high, low) = none) :
    ∃ error, decodeSlots (high :: low :: bytes) slots = (slots, .error error) := by
  obtain ⟨slot, slots, rfl⟩ := List.exists_cons_of_length_pos hsome
  unfold pairByte at h
  cases hhigh : digit high with
  | error error => exact ⟨error, by simp [decodeSlots, hhigh]⟩
  | ok hi =>
      cases hlow : digit low with
      | error error => exact ⟨error, by simp [decodeSlots, hhigh, hlow]⟩
      | ok lo => simp [hhigh, hlow] at h

/-- Pairs that are bytes fill all the slots. -/
theorem decodeSlots_of_all {bytes slots values : List UInt8} (hlength : bytes.length = slots.length * 2)
    (hvalues : (pairs bytes).map pairByte = values.map some) :
    decodeSlots bytes slots = (values, .ok ()) := by
  induction values generalizing bytes slots with
  | nil =>
      have hshort := length_of_pairs_nil (List.map_eq_nil_iff.mp hvalues)
      have hbytes : bytes = [] := List.length_eq_zero_iff.mp (by omega)
      have hslots : slots = [] := List.length_eq_zero_iff.mp (by omega)
      rw [hbytes, hslots]
      rfl
  | cons value values ih =>
      obtain ⟨⟨high, low⟩, read, hpairs, hpair, hread⟩ := List.map_eq_cons_iff.mp hvalues
      obtain ⟨rest, rfl, rfl⟩ := bytes_of_pairs hpairs
      simp only [List.length_cons] at hlength
      obtain ⟨slot, slots, rfl⟩ := List.exists_cons_of_length_pos (show 0 < slots.length by omega)
      have hrest := @ih rest slots (by simp only [List.length_cons] at hlength; omega) hread
      rw [decodeSlots_pair rest slots hpair, hrest]

/-- A pair that is no byte ends the loop, and what the pairs before it stand for has been written. -/
theorem decodeSlots_of_bad {front back : List (UInt8 × UInt8)} {bad : UInt8 × UInt8}
    {bytes slots values : List UInt8} (hlength : bytes.length = slots.length * 2)
    (hpairs : pairs bytes = front ++ bad :: back) (hvalues : front.map pairByte = values.map some)
    (hbad : pairByte bad = none) :
    ∃ error, decodeSlots bytes slots = (values ++ slots.drop values.length, .error error) := by
  induction front generalizing bytes slots values with
  | nil =>
      have hempty : values = [] := by simpa using hvalues.symm
      obtain ⟨rest, rfl, -⟩ := bytes_of_pairs hpairs
      simp only [List.length_cons] at hlength
      rw [hempty]
      exact decodeSlots_bad rest slots (by omega) hbad
  | cons pair front ih =>
      cases values with
      | nil => simp at hvalues
      | cons value values =>
          rw [List.map_cons, List.map_cons, List.cons.injEq] at hvalues
          obtain ⟨rest, rfl, hrest⟩ := bytes_of_pairs hpairs
          simp only [List.length_cons] at hlength
          obtain ⟨slot, slots, rfl⟩ := List.exists_cons_of_length_pos (show 0 < slots.length by omega)
          obtain ⟨error, hslots⟩ := @ih rest slots values
            (by simp only [List.length_cons] at hlength; omega) hrest hvalues.2
          refine ⟨error, ?_⟩
          rw [decodeSlots_pair rest slots hvalues.1, hslots]
          rfl

/-! ### The text of what was read -/

/-- The lower-case character of an ASCII byte. -/
def lowered (byte : UInt8) : Char := (Char.ofNat byte.toNat).toLower

theorem pairs_flatten (bytes : List UInt8) (n : Nat) (heven : bytes.length = n * 2) :
    (pairs bytes).flatMap (fun pair => [pair.1, pair.2]) = bytes := by
  induction n generalizing bytes with
  | zero =>
      rw [List.length_eq_zero_iff.mp (by omega : bytes.length = 0)]
      rfl
  | succ n ih =>
      obtain ⟨high, bytes, rfl⟩ := List.exists_cons_of_length_pos (show 0 < bytes.length by omega)
      rw [List.length_cons] at heven
      obtain ⟨low, bytes, rfl⟩ := List.exists_cons_of_length_pos (show 0 < bytes.length by omega)
      rw [List.length_cons] at heven
      rw [pairs, List.flatMap_cons, ih bytes (by omega)]
      rfl

theorem digit_facts : ∀ n : Fin 256, ∀ value : Fin 16, digit (.ofNat n) = .ok (.ofNat value) →
    n.val < 0x80 ∧ digits.getD value '0' = lowered (.ofNat n) := by
  decide +kernel

theorem digit_lt : ∀ n : Fin 256, ∀ value, digit (.ofNat n) = .ok value → value.toNat < 16 := by
  have hall : ∀ n : Fin 256, (digit (.ofNat n)).toOption.all (·.toNat < 16) = true := by decide +kernel
  intro n value h
  have hn := hall n
  rw [h] at hn
  simpa [Except.toOption] using hn

/-- A digit is an ASCII character, and is written in lower case. -/
theorem digit_eq_ok {byte value : UInt8} (h : digit byte = .ok value) :
    byte < 0x80 ∧ value.toNat < 16 ∧ digits.getD value.toNat '0' = lowered byte := by
  have hbyte : UInt8.ofNat byte.toNat = byte := UInt8.ofNat_toNat
  have hlt := digit_lt ⟨byte.toNat, byte.toNat_lt⟩ value (by rw [hbyte]; exact h)
  have hfacts := digit_facts ⟨byte.toNat, byte.toNat_lt⟩ ⟨value.toNat, hlt⟩
    (by rw [hbyte, UInt8.ofNat_toNat]; exact h)
  rw [hbyte] at hfacts
  exact ⟨UInt8.lt_iff_toNat_lt.mpr hfacts.1, hlt, hfacts.2⟩

theorem nibbles : ∀ hi lo : Fin 16,
    ((UInt8.ofNat hi <<< 4 ||| UInt8.ofNat lo) >>> 4).toNat = hi ∧
      ((UInt8.ofNat hi <<< 4 ||| UInt8.ofNat lo) &&& 0x0f).toNat = lo := by
  decide +kernel

/-- The digits of a byte are those it was read from, in lower case. -/
theorem encodeByte_of_pairByte {pair : UInt8 × UInt8} {value : UInt8} (h : pairByte pair = some value) :
    (pair.1 < 0x80 ∧ pair.2 < 0x80) ∧ encodeByte value = [lowered pair.1, lowered pair.2] := by
  obtain ⟨hi, lo, hhigh, hlow, rfl⟩ := digits_of_pairByte h
  obtain ⟨hascii, hhi, hhighText⟩ := digit_eq_ok hhigh
  obtain ⟨hascii', hlo, hlowText⟩ := digit_eq_ok hlow
  have hsplit := nibbles ⟨hi.toNat, hhi⟩ ⟨lo.toNat, hlo⟩
  rw [UInt8.ofNat_toNat, UInt8.ofNat_toNat] at hsplit
  refine ⟨⟨hascii, hascii'⟩, ?_⟩
  unfold encodeByte
  rw [hsplit.1, hsplit.2, hhighText, hlowText]

/-- The characters of a text of ASCII bytes. -/
theorem toList_of_ascii {input : String} (h : ∀ byte ∈ textBytes input, byte < 0x80) :
    input.toList = (textBytes input).map fun byte => Char.ofNat byte.toNat := by
  have hencoded : ∀ bytes : List UInt8, (∀ byte ∈ bytes, byte < 0x80) →
      (bytes.map fun byte => Char.ofNat byte.toNat).flatMap String.utf8EncodeChar = bytes := by
    intro bytes hbytes
    induction bytes with
    | nil => rfl
    | cons byte bytes ih =>
        rw [List.map_cons, List.flatMap_cons, Rust.utf8EncodeChar_ofNat (hbytes byte (.head _)),
          ih fun byte hmem => hbytes byte (.tail _ hmem)]
        rfl
  have hsame : input = String.ofList ((textBytes input).map fun byte => Char.ofNat byte.toNat) := by
    apply String.toByteArray_inj.mp
    apply ByteArray.ext
    apply Array.toList_inj.mp
    have hbytes := hencoded (textBytes input) h
    simpa [String.ofList, List.utf8Encode, textBytes] using hbytes.symm
  rw [hsame, String.toList_ofList, ← hsame]

/-- What is read from a text has that text in lower case. -/
theorem encode_of_pairs {input : String} {values : List UInt8} {n : Nat}
    (hlength : (textBytes input).length = n * 2)
    (hvalues : (pairs (textBytes input)).map pairByte = values.map some) :
    encode values = input.toLower := by
  have hwritten : ∀ (read : List (UInt8 × UInt8)) (values : List UInt8),
      read.map pairByte = values.map some →
        (∀ byte ∈ read.flatMap fun pair => [pair.1, pair.2], byte < 0x80) ∧
          values.flatMap encodeByte = (read.flatMap fun pair => [pair.1, pair.2]).map lowered := by
    intro read
    induction read with
    | nil =>
        intro values h
        rw [show values = [] by simpa using h.symm]
        exact ⟨by simp, rfl⟩
    | cons pair read ih =>
        intro values h
        cases values with
        | nil => simp at h
        | cons value values =>
            rw [List.map_cons, List.map_cons, List.cons.injEq] at h
            obtain ⟨hascii, hdigits⟩ := encodeByte_of_pairByte h.1
            obtain ⟨hrest, hrestText⟩ := ih values h.2
            constructor
            · intro byte hmem
              rw [List.flatMap_cons, List.mem_append, List.mem_pair] at hmem
              rcases hmem with (rfl | rfl) | hmem
              · exact hascii.1
              · exact hascii.2
              · exact hrest byte hmem
            · rw [List.flatMap_cons, List.flatMap_cons, List.map_append, hdigits, hrestText]
              rfl
  obtain ⟨hascii, htext⟩ := hwritten _ _ hvalues
  rw [pairs_flatten _ n hlength] at hascii htext
  apply String.toList_inj.mp
  rw [encode, String.toList_ofList, htext, String.toLower, String.toList_map, toList_of_ascii hascii,
    List.map_map]
  rfl

/-! ### The buffer -/

/-- What was encoded is read back. A call writes only on success exactly if the text does not spoil the
buffer. -/
theorem decodeInto_iff (input : String) (out bytes : List UInt8) :
    decode (encode bytes) = .ok bytes ∧ (WritesOnSuccess input out ↔ ¬ Spoils input out) := by
  refine ⟨decode_encode bytes, ?_⟩
  unfold WritesOnSuccess Spoils
  by_cases hsize : input.utf8ByteSize = out.length * 2
  swap
  · rw [decodeInto, if_pos hsize]
    exact iff_of_true rfl fun h => hsize h.1
  have hlength : (textBytes input).length = out.length * 2 := hsize
  have hrun : decodeInto input out = decodeSlots (textBytes input) out := if_neg (not_not.mpr hsize)
  rw [hrun]
  rcases all_or_first_bad (pairs (textBytes input)) with
    ⟨values, hvalues⟩ | ⟨front, bad, back, values, hpairs, hvalues, hbad⟩
  · have hslots := decodeSlots_of_all hlength hvalues
    have hsame := decodeSlots_length (textBytes input) out
    rw [hslots] at hsame ⊢
    refine iff_of_true ⟨hsize, hsame, encode_of_pairs hlength hvalues⟩ ?_
    rintro ⟨-, front, bad, back, values', hpairs, -, hbad, -⟩
    have hmem : pairByte bad ∈ (pairs (textBytes input)).map pairByte :=
      List.mem_map_of_mem (by rw [hpairs]; simp)
    rw [hvalues, hbad] at hmem
    simp at hmem
  · obtain ⟨error, hslots⟩ := decodeSlots_of_bad hlength hpairs hvalues hbad
    rw [hslots]
    show values ++ out.drop values.length = out ↔ _
    have hkept : values ++ out.drop values.length = out ↔ out.take values.length = values := by
      constructor
      · intro h
        rw [← h, List.take_left]
      · intro h
        calc values ++ out.drop values.length
            = out.take values.length ++ out.drop values.length := by rw [h]
          _ = out := List.take_append_drop ..
    rw [hkept]
    constructor
    · rintro heq ⟨-, front', bad', back', values', hpairs', hvalues', hbad', hne⟩
      obtain ⟨error', hslots'⟩ := decodeSlots_of_bad hlength hpairs' hvalues' hbad'
      rw [hslots, Prod.mk.injEq] at hslots'
      refine hne ?_
      rw [← hkept.mpr heq, hslots'.1, List.take_left]
    · intro hclean
      by_contra hne
      exact hclean ⟨hsize, front, bad, back, values, hpairs, hvalues, hbad, hne⟩

/-- The first of two bytes is written before the second is found to be none. -/
theorem Sample.badDigit_spoils : ¬ ∀ input out, WritesOnSuccess input out := by
  intro h
  have hrun : decodeInto "0fg0" [0xaa, 0xbb] = ([0x0f, 0xbb], .error .invalidCharacter) := by
    decide +kernel
  have hwrites := h "0fg0" [0xaa, 0xbb]
  unfold WritesOnSuccess at hwrites
  rw [hrun] at hwrites
  cases hwrites

end Ciphr.Hex
