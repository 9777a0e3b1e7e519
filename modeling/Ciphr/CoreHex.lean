import Mathlib.Data.List.Basic
import Mathlib.Data.Fintype.Basic

/-!
`ciphr-core/src/hex.rs`: lower-case hexadecimal. `decode_into` writes into a buffer that its caller
still has when it fails, so the buffer is part of what it returns.
-/

namespace Ciphr.Hex

inductive HexError where
  | length (expected found : Nat)
  | oddLength (found : Nat)
  | invalidCharacter
  deriving DecidableEq, Repr

def HexError.display : HexError → String
  | .length expected found =>
      "expected " ++ toString expected ++ " hex characters, found " ++ toString found
  | .oddLength found => "expected an even number of hex characters, found " ++ toString found
  | .invalidCharacter => "input contains a non-hexadecimal character"

def digits : List Char := "0123456789abcdef".toList

def encodeByte (byte : UInt8) : List Char :=
  [digits.getD (byte >>> 4).toNat '0', digits.getD (byte &&& 0x0f).toNat '0']

def encode (bytes : List UInt8) : String := String.ofList (bytes.flatMap encodeByte)

theorem getD_mem_digits (n : Nat) : digits.getD n '0' ∈ digits := by
  rw [List.getD_eq_getElem?_getD]
  cases hn : digits[n]? with
  | none => decide
  | some digit => exact List.mem_of_getElem? hn

theorem mem_digits_of_mem_encode {bytes : List UInt8} {c : Char} (h : c ∈ (encode bytes).toList) :
    c ∈ digits := by
  rw [encode, String.toList_ofList, List.mem_flatMap] at h
  obtain ⟨byte, -, hc⟩ := h
  rcases List.mem_pair.mp hc with rfl | rfl
  · exact getD_mem_digits _
  · exact getD_mem_digits _

theorem size_toArray_of_length {bytes : List UInt8} (h : bytes.length = 32) :
    bytes.toArray.size = 32 := by
  rw [List.size_toArray, h]

def digit (byte : UInt8) : Except HexError UInt8 :=
  if 0x30 ≤ byte && byte ≤ 0x39 then .ok (byte - 0x30)
  else if 0x61 ≤ byte && byte ≤ 0x66 then .ok (byte - 0x61 + 10)
  else if 0x41 ≤ byte && byte ≤ 0x46 then .ok (byte - 0x41 + 10)
  else .error .invalidCharacter

/-- The loop over the slots of the buffer: the slots before a bad digit have been written. -/
def decodeSlots : List UInt8 → List UInt8 → List UInt8 × Except HexError Unit
  | high :: low :: bytes, slot :: slots =>
      match digit high with
      | .error error => (slot :: slots, .error error)
      | .ok high =>
          match digit low with
          | .error error => (slot :: slots, .error error)
          | .ok low =>
              let (rest, result) := decodeSlots bytes slots
              ((high <<< 4 ||| low) :: rest, result)
  | _, slots => (slots, .ok ())

/-- The buffer afterwards and the result. -/
def decodeInto (input : String) (out : List UInt8) : List UInt8 × Except HexError Unit :=
  let expected := out.length * 2
  if input.utf8ByteSize ≠ expected then (out, .error (.length expected input.utf8ByteSize))
  else decodeSlots input.toUTF8.data.toList out

theorem decodeSlots_length (bytes slots : List UInt8) :
    (decodeSlots bytes slots).1.length = slots.length := by
  induction bytes, slots using decodeSlots.induct with
  | case1 high low bytes slot slots error hhigh => simp [decodeSlots, hhigh]
  | case2 high low bytes slot slots digit hhigh error hlow => simp [decodeSlots, hhigh, hlow]
  | case3 high low bytes slot slots digit hhigh digit' hlow rest result heq ih =>
      rw [heq] at ih
      simp [decodeSlots, hhigh, hlow, heq, ih]
  | case4 bytes slots h => simp [decodeSlots]

theorem decodeInto_length (input : String) (out : List UInt8) :
    (decodeInto input out).1.length = out.length := by
  unfold decodeInto
  dsimp only
  split
  · rfl
  · exact decodeSlots_length _ _

def decode (input : String) : Except HexError (List UInt8) :=
  if input.utf8ByteSize % 2 ≠ 0 then .error (.oddLength input.utf8ByteSize)
  else
    match decodeInto input (List.replicate (input.utf8ByteSize / 2) 0) with
    | (out, .ok ()) => .ok out
    | (_, .error error) => .error error

/-- The two digits of a byte, as bytes of the text. -/
def encodedByte (byte : UInt8) : List UInt8 := (encodeByte byte).flatMap String.utf8EncodeChar

theorem decodeSlots_encodedByte_ofNat : ∀ n : Fin 256,
    (encodedByte (.ofNat n)).length = 2 ∧
      decodeSlots (encodedByte (.ofNat n)) [0] = ([.ofNat n], .ok ()) := by
  decide +kernel

/-- A byte is what its two digits are read as. -/
theorem digits_encodedByte (byte : UInt8) :
    ∃ high low h l, encodedByte byte = [high, low] ∧ digit high = .ok h ∧ digit low = .ok l ∧
      h <<< 4 ||| l = byte := by
  have hn := decodeSlots_encodedByte_ofNat ⟨byte.toNat, byte.toNat_lt⟩
  rw [UInt8.ofNat_toNat] at hn
  obtain ⟨high, low, hbytes⟩ := List.length_eq_two.mp hn.1
  rw [hbytes] at hn ⊢
  have hdecode := hn.2
  unfold decodeSlots at hdecode
  cases hhigh : digit high with
  | error error =>
      rw [hhigh] at hdecode
      cases hdecode
  | ok h =>
      cases hlow : digit low with
      | error error =>
          rw [hhigh, hlow] at hdecode
          cases hdecode
      | ok l =>
          rw [hhigh, hlow] at hdecode
          simp only [decodeSlots, Prod.mk.injEq, List.cons.injEq] at hdecode
          exact ⟨high, low, h, l, rfl, hhigh, hlow, hdecode.1.1⟩

theorem toUTF8_encode (bytes : List UInt8) :
    (encode bytes).toUTF8.data.toList = bytes.flatMap encodedByte := by
  unfold encode String.toUTF8 String.ofList
  simp only [List.utf8Encode, List.flatMap_assoc]
  simp
  rfl

theorem decodeSlots_encoded (bytes slots : List UInt8) (h : slots.length = bytes.length) :
    decodeSlots (bytes.flatMap encodedByte) slots = (bytes, .ok ()) := by
  induction bytes generalizing slots with
  | nil =>
      rw [List.length_nil, List.length_eq_zero_iff] at h
      rw [h]
      rfl
  | cons byte bytes ih =>
      cases slots with
      | nil => cases h
      | cons slot slots =>
          obtain ⟨high, low, hh, hl, heq, hhigh, hlow, hbyte⟩ := digits_encodedByte byte
          rw [List.flatMap_cons, heq]
          simp only [List.cons_append, List.nil_append, decodeSlots, hhigh, hlow]
          rw [ih slots (by simpa using h), hbyte]

theorem encode_utf8ByteSize (bytes : List UInt8) : (encode bytes).utf8ByteSize = bytes.length * 2 := by
  have hlen : ∀ bs : List UInt8, (bs.flatMap encodedByte).length = bs.length * 2 := by
    intro bs
    induction bs with
    | nil => rfl
    | cons b bs ih =>
        obtain ⟨high, low, -, -, heq, -, -, -⟩ := digits_encodedByte b
        rw [List.flatMap_cons, List.length_append, ih, heq]
        simp only [List.length_cons, List.length_nil]
        omega
  rw [← hlen, ← toUTF8_encode]
  rfl

theorem decodeInto_encode (bytes out : List UInt8) (h : out.length = bytes.length) :
    decodeInto (encode bytes) out = (bytes, .ok ()) := by
  have hsize : (encode bytes).utf8ByteSize = out.length * 2 := by rw [h, encode_utf8ByteSize]
  unfold decodeInto
  rw [if_neg (by simp [hsize])]
  rw [toUTF8_encode]
  exact decodeSlots_encoded bytes out h

theorem decode_encode (bytes : List UInt8) : decode (encode bytes) = .ok bytes := by
  unfold decode
  rw [encode_utf8ByteSize, if_neg (by omega),
    decodeInto_encode bytes _ (by rw [List.length_replicate]; omega)]

end Ciphr.Hex
