import Mathlib.Data.List.Basic

/-!
Authenticated encryption with associated data, and the ideal of it: a ciphertext opens to what was
sealed under the same key, nonce and associated data, and nothing else opens.
-/

/-- A seal that was made. -/
structure Sealed (K N : Type) where
  key : K
  nonce : N
  aad : List UInt8
  plaintext : List UInt8
  ciphertext : List UInt8
  deriving DecidableEq

structure Aead (K N : Type) where
  encrypt : K → N → List UInt8 → List UInt8 → Option (List UInt8)
  decrypt : K → N → List UInt8 → List UInt8 → Option (List UInt8)

namespace Aead

variable {K N : Type}

/-- Opening succeeds exactly on what was sealed. -/
def Ideal (aead : Aead K N) (seals : List (Sealed K N)) : Prop :=
  ∀ key nonce aad plaintext ciphertext, aead.decrypt key nonce aad ciphertext = some plaintext ↔
    ⟨key, nonce, aad, plaintext, ciphertext⟩ ∈ seals

/-- Every ciphertext ends in a tag. -/
def Tagged (aead : Aead K N) : Prop :=
  ∀ key nonce aad plaintext ciphertext, aead.encrypt key nonce aad plaintext = some ciphertext →
    ciphertext.length = plaintext.length + 16

end Aead
