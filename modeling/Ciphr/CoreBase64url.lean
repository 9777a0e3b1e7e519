import Mathlib.Algebra.Group.Int.Defs
import Mathlib.Algebra.Group.Nat.Defs
import Mathlib.Data.List.Basic

/-!
`ciphr-core/src/base64url.rs`: unpadded base64url. `decode_into` reads the whole input once before
it writes, and its buffer is part of what it returns.
-/

namespace Ciphr.Base64url

inductive Base64Error where
  | length (found : Nat)
  | invalidCharacter
  | trailingBits
  deriving DecidableEq, Repr

def alphabet : List Char :=
  "ABCDEFGHIJKLMNOPQRSTUVWXYZabcdefghijklmnopqrstuvwxyz0123456789-_".toList

/-- The character of the six bits of a group that stand `shift` bits from its end. -/
def character (group shift : Nat) : Char := alphabet.getD (group >>> shift &&& 0x3f) 'A'

/-- One turn of the loop of `encode_into`. -/
def encodeChunk : List UInt8 → List Char
  | [b0] =>
      let group := b0.toNat <<< 16
      [character group 18, character group 12]
  | [b0, b1] =>
      let group := b0.toNat <<< 16 ||| b1.toNat <<< 8
      [character group 18, character group 12, character group 6]
  | b0 :: b1 :: b2 :: _ =>
      let group := b0.toNat <<< 16 ||| b1.toNat <<< 8 ||| b2.toNat
      [character group 18, character group 12, character group 6, character group 0]
  | [] => []

/-- `chunks(3)`. -/
def threes : List UInt8 → List (List UInt8)
  | [] => []
  | b0 :: b1 :: b2 :: rest => [b0, b1, b2] :: threes rest
  | last => [last]

/-- `chunks(4)`. -/
def fours : List UInt8 → List (List UInt8)
  | [] => []
  | b0 :: b1 :: b2 :: b3 :: rest => [b0, b1, b2, b3] :: fours rest
  | last => [last]

def encode (bytes : List UInt8) : String := String.ofList ((threes bytes).flatMap encodeChunk)

def encodedLen (byteLen : Nat) : Nat :=
  byteLen / 3 * 4 + match byteLen % 3 with
    | 0 => 0
    | 1 => 2
    | _ => 3

def decodedLen (textLen : Nat) : Option Nat :=
  let whole := textLen / 4 * 3
  match textLen % 4 with
  | 0 => some whole
  | 2 => some (whole + 1)
  | 3 => some (whole + 2)
  | _ => none

def sextet (byte : UInt8) : Except Base64Error Nat :=
  if 0x41 ≤ byte && byte ≤ 0x5a then .ok (byte.toNat - 0x41)
  else if 0x61 ≤ byte && byte ≤ 0x7a then .ok (byte.toNat - 0x61 + 26)
  else if 0x30 ≤ byte && byte ≤ 0x39 then .ok (byte.toNat - 0x30 + 52)
  else if byte == 0x2d then .ok 62
  else if byte == 0x5f then .ok 63
  else .error .invalidCharacter

/-- The loop of `group`, from character number `index` on. -/
def groupBits : Nat → Nat → List UInt8 → Except Base64Error Nat
  | _, bits, [] => .ok bits
  | index, bits, byte :: rest => do
      let six ← sextet byte
      groupBits (index + 1) (bits ||| six <<< (18 - 6 * index)) rest

def group (chunk : List UInt8) : Except Base64Error Nat := do
  let bits ← groupBits 0 0 chunk
  let unused := match chunk.length with
    | 2 => 0xffff
    | 3 => 0xff
    | _ => 0
  if bits &&& unused ≠ 0 then .error .trailingBits else .ok bits

/-- The first loop of `decode_into`. -/
def checkGroups : List (List UInt8) → Except Base64Error Unit
  | [] => .ok ()
  | chunk :: chunks => do
      let _ ← group chunk
      checkGroups chunks

/-- The bytes a group carries, as many as it has slots for. -/
def slotsOf (bits : Nat) (slots : List UInt8) : List UInt8 :=
  slots.mapIdx fun index _ => UInt8.ofNat (bits >>> (16 - 8 * index) &&& 0xff)

/-- The second loop of `decode_into`. -/
def fillSlots : List (List UInt8) → List (List UInt8) → Except Base64Error (List UInt8)
  | chunk :: chunks, slots :: rest => do
      let bits ← group chunk
      let filled ← fillSlots chunks rest
      .ok (slotsOf bits slots ++ filled)
  | _, rest => .ok rest.flatten

/-- The buffer afterwards and the result. -/
def decodeInto (input : String) (out : List UInt8) : List UInt8 × Except Base64Error Unit :=
  let bytes := input.toUTF8.data.toList
  if decodedLen bytes.length ≠ some out.length then (out, .error (.length bytes.length))
  else
    match checkGroups (fours bytes) with
    | .error error => (out, .error error)
    | .ok () =>
        match fillSlots (fours bytes) (threes out) with
        | .error error => (out, .error error)
        | .ok filled => (filled, .ok ())

def decode (input : String) : Except Base64Error (List UInt8) :=
  match decodedLen input.utf8ByteSize with
  | none => .error (.length input.utf8ByteSize)
  | some expected =>
      match decodeInto input (List.replicate expected 0) with
      | (out, .ok ()) => .ok out
      | (_, .error error) => .error error

example : encode [0x66, 0x6f, 0x6f, 0x62, 0x61] = "Zm9vYmE" ∧
    decode "Zm9vYmE" = .ok [0x66, 0x6f, 0x6f, 0x62, 0x61] ∧ decode "Zh" = .error .trailingBits := by
  decide +kernel

theorem flatten_threes : ∀ bytes : List UInt8, (threes bytes).flatten = bytes
  | [] => rfl
  | [_] => rfl
  | [_, _] => rfl
  | b0 :: b1 :: b2 :: rest => by
      rw [threes, List.flatten_cons, flatten_threes rest]
      rfl

theorem fillSlots_length : ∀ (chunks slots : List (List UInt8)) {filled : List UInt8},
    fillSlots chunks slots = .ok filled → filled.length = slots.flatten.length
  | [], slots, filled, h => by
      simp only [fillSlots, Except.ok.injEq] at h
      rw [← h]
  | _ :: _, [], filled, h => by
      simp only [fillSlots, Except.ok.injEq] at h
      rw [← h]
  | chunk :: chunks, slots :: rest, filled, h => by
      rw [fillSlots] at h
      cases hbits : group chunk with
      | error error =>
          rw [hbits] at h
          cases h
      | ok bits =>
          cases hrest : fillSlots chunks rest with
          | error error =>
              rw [hbits, hrest] at h
              cases h
          | ok others =>
              rw [hbits, hrest] at h
              cases h
              rw [List.length_append, List.flatten_cons, List.length_append,
                fillSlots_length chunks rest hrest]
              simp [slotsOf]

/-- The buffer keeps its size. -/
theorem decodeInto_length (input : String) (out : List UInt8) :
    (decodeInto input out).1.length = out.length := by
  unfold decodeInto
  dsimp only
  split
  · rfl
  · split
    · rfl
    · split
      · rfl
      · rename_i filled hfill
        rw [fillSlots_length _ _ hfill, flatten_threes]

end Ciphr.Base64url
