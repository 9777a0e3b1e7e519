import Ciphr.RustText
import Ciphr.Errors
import Ciphr.CoreBase64url

/-!
`ciphr-crypto/src/token.rs`: bearer tokens. HMAC-SHA256 is a parameter; a panic of the source is the
absence of a result.
-/

namespace Ciphr

structure TokenId where
  bytes : Vector UInt8 6
  deriving DecidableEq, Repr

structure Token where
  id : TokenId
  secret : Vector UInt8 32
  deriving DecidableEq, Repr

structure TokenPepper where
  key : Vector UInt8 32
  deriving DecidableEq, Repr

structure TokenVerifier where
  bytes : Vector UInt8 32
  deriving DecidableEq, Repr

/-- HMAC-SHA256 of a message under a key. -/
abbrev Hmac := List UInt8 → List UInt8 → Vector UInt8 32

def tokenPrefix : String := "cph_"

def tokenTextLen : Nat := 4 + 8 + 43

/-- Decode into a fresh buffer of a fixed size. -/
def decodeFixed (n : Nat) (input : String) : Except CryptoError (Vector UInt8 n) :=
  match h : Base64url.decodeInto input (List.replicate n 0) with
  | (bytes, .ok ()) =>
      .ok ⟨bytes.toArray, by
        have hlength := Base64url.decodeInto_length input (List.replicate n 0)
        rw [h] at hlength
        simpa using hlength⟩
  | (_, .error _) => .error .tokenFormat

namespace TokenId

def asText (id : TokenId) : String := Base64url.encode id.bytes.toList

def parse (input : String) : Except CryptoError TokenId := do
  let bytes ← decodeFixed 6 input
  .ok ⟨bytes⟩

end TokenId

namespace Token

def parse (input : String) : Option (Except CryptoError Token) :=
  if input.utf8ByteSize ≠ tokenTextLen then some (.error .tokenFormat)
  else
    match Rust.stripPrefix tokenPrefix input with
    | none => some (.error .tokenFormat)
    | some body =>
        match Rust.splitAtBytes body.toList 8 with
        | none => none
        | some (idText, secretText) => some do
            let id ← TokenId.parse (String.ofList idText)
            let secret ← decodeFixed 32 (String.ofList secretText)
            .ok ⟨id, secret⟩

def exposeText (token : Token) : String :=
  tokenPrefix ++ Base64url.encode token.id.bytes.toList ++ Base64url.encode token.secret.toList

def verifier (hmac : Hmac) (token : Token) (pepper : TokenPepper) : TokenVerifier :=
  ⟨hmac pepper.key.toList token.secret.toList⟩

end Token

/-- The pepper of a root key. -/
def TokenPepper.derive (hmac : Hmac) (root : Vector UInt8 32) : TokenPepper :=
  ⟨hmac root.toList "ciphr/token-pepper/v1".toUTF8.data.toList⟩

namespace TokenVerifier

def toHex (verifier : TokenVerifier) : String := Hex.encode verifier.bytes.toList

def fromHex (input : String) : Except CryptoError TokenVerifier :=
  match Hex.decodeInto input (List.replicate 32 0) with
  | (bytes, .ok ()) =>
      if h : bytes.length = 32 then .ok ⟨⟨bytes.toArray, Hex.size_toArray_of_length h⟩⟩
      else .error (.encoding (.length 64 input.utf8ByteSize))
  | (_, .error error) => .error (.encoding error)

def matchesBytes (verifier other : TokenVerifier) : Bool := verifier == other

theorem fromHex_toHex (verifier : TokenVerifier) : fromHex verifier.toHex = .ok verifier := by
  unfold fromHex toHex
  rw [Hex.decodeInto_encode _ _ (by simp)]
  dsimp only
  rw [dif_pos (by simp)]
  congr 1

end TokenVerifier

end Ciphr
