import Ciphr.LibAead
import Ciphr.CorePath
import Ciphr.CoreSecret
import Ciphr.Errors

/-!
`ciphr-crypto/src/key.rs` and `envelope.rs`: keys, their identifiers, and the two operations on the
wire format. AES-256-GCM is a parameter, and what the operating system returns when it is asked for
randomness is an input.
-/

namespace Ciphr

structure MasterKey where
  bytes : Vector UInt8 32
  deriving DecidableEq, Repr

structure RootKey where
  bytes : Vector UInt8 32
  deriving DecidableEq, Repr

structure Dek where
  bytes : Vector UInt8 32
  deriving DecidableEq, Repr

structure RootKeyId where
  bytes : Vector UInt8 16
  deriving DecidableEq, Repr

structure DekId where
  bytes : Vector UInt8 16
  deriving DecidableEq, Repr

abbrev Nonce := Vector UInt8 12

/-- Decode into a fresh buffer of a fixed size. -/
def hexFixed (n : Nat) (input : String) : Except CryptoError (Vector UInt8 n) :=
  match h : Hex.decodeInto input (List.replicate n 0) with
  | (bytes, .ok ()) =>
      .ok ⟨bytes.toArray, by
        have hlength := Hex.decodeInto_length input (List.replicate n 0)
        rw [h] at hlength
        simpa using hlength⟩
  | (_, .error error) => .error (.encoding error)

theorem hexFixed_encode {n : Nat} (bytes : Vector UInt8 n) :
    hexFixed n (Hex.encode bytes.toList) = .ok bytes := by
  have hdecode := Hex.decodeInto_encode bytes.toList (List.replicate n 0) (by simp)
  unfold hexFixed
  split
  · rename_i decoded h
    rw [hdecode, Prod.mk.injEq] at h
    congr 1
    apply Vector.toList_inj.mp
    exact h.1.symm
  · rename_i decoded error h
    rw [hdecode] at h
    simp at h

namespace RootKeyId

def toHex (id : RootKeyId) : String := Hex.encode id.bytes.toList

def fromHex (input : String) : Except CryptoError RootKeyId := (hexFixed 16 input).map (⟨·⟩)

end RootKeyId

namespace DekId

def toHex (id : DekId) : String := Hex.encode id.bytes.toList

def fromHex (input : String) : Except CryptoError DekId := (hexFixed 16 input).map (⟨·⟩)

end DekId

theorem RootKeyId.fromHex_toHex (id : RootKeyId) : RootKeyId.fromHex id.toHex = .ok id := by
  unfold fromHex toHex
  rw [hexFixed_encode]
  rfl

theorem DekId.fromHex_toHex (id : DekId) : DekId.fromHex id.toHex = .ok id := by
  unfold fromHex toHex
  rw [hexFixed_encode]
  rfl

/-- A root key wrapped by a master key, as stored. -/
structure WrappedRootKey where
  id : RootKeyId
  nonce : Nonce
  ciphertext : List UInt8
  deriving DecidableEq, Repr

/-- One encrypted secret version, as stored. -/
structure EncryptedValue where
  dekId : DekId
  dekNonce : Nonce
  wrappedDek : List UInt8
  valueNonce : Nonce
  ciphertext : List UInt8
  deriving DecidableEq, Repr

/-! ### Associated data -/

/-- The bytes of a text. -/
def utf8 (text : String) : List UInt8 := text.toUTF8.data.toList

def aadRootKey : List UInt8 := utf8 "ciphr/root-key/v1"

def aadDek : List UInt8 := utf8 "ciphr/dek/v1"

def aadValue : List UInt8 := utf8 "ciphr/value/v1"

/-- `u32::to_be_bytes`. -/
def u32be (n : Nat) : List UInt8 :=
  [.ofNat (n / 2 ^ 24), .ofNat (n / 2 ^ 16), .ofNat (n / 2 ^ 8), .ofNat n]

def SecretVersion.toBeBytes (version : SecretVersion) : List UInt8 := u32be version.number

def rootKeyAad (id : RootKeyId) : List UInt8 := aadRootKey ++ id.bytes.toList

def dekAad (id : DekId) : List UInt8 := aadDek ++ id.bytes.toList

variable {u : Unicode}

def valueAad (path : SecretPath u) (version : SecretVersion) (dekId : DekId) : List UInt8 :=
  let path := utf8 path.text
  let pathLen := min path.length (2 ^ 32 - 1)
  aadValue ++ u32be pathLen ++ path ++ version.toBeBytes ++ dekId.bytes.toList

/-! ### Sealing -/

abbrev KeyBytes := Vector UInt8 32

section Operations

variable (aead : Aead KeyBytes Nonce)

def sealBytes (key : KeyBytes) (nonce : Nonce) (aad plaintext : List UInt8) :
    Except CryptoError (List UInt8) :=
  match aead.encrypt key nonce aad plaintext with
  | some ciphertext => .ok ciphertext
  | none => .error .aead

def openBytes (key : KeyBytes) (nonce : Nonce) (aad ciphertext : List UInt8) :
    Except CryptoError (List UInt8) :=
  match aead.decrypt key nonce aad ciphertext with
  | some plaintext => .ok plaintext
  | none => .error .aead

/-- The key in what was opened, which has the length of a key. -/
def keyOf (bytes : List UInt8) : Except CryptoError KeyBytes :=
  if h : bytes.length = 32 then .ok ⟨bytes.toArray, Hex.size_toArray_of_length h⟩
  else .error .aead

/-- What the operating system returned, or its refusal. -/
def drawn {α : Type} : Option α → Except CryptoError α
  | some bytes => .ok bytes
  | none => .error .entropy

def wrapRootKeyWith (master : MasterKey) (root : RootKey) (id : RootKeyId) (nonce : Nonce) :
    Except CryptoError WrappedRootKey := do
  let ciphertext ← sealBytes aead master.bytes nonce (rootKeyAad id) root.bytes.toList
  .ok ⟨id, nonce, ciphertext⟩

def wrapRootKey (master : MasterKey) (root : RootKey) (id : RootKeyId) (nonce : Option Nonce) :
    Except CryptoError WrappedRootKey := do
  let nonce ← drawn nonce
  wrapRootKeyWith aead master root id nonce

def unwrapRootKey (master : MasterKey) (wrapped : WrappedRootKey) : Except CryptoError RootKey := do
  let bytes ← openBytes aead master.bytes wrapped.nonce (rootKeyAad wrapped.id) wrapped.ciphertext
  let key ← keyOf bytes
  .ok ⟨key⟩

/-- The material of one version. -/
structure ValueMaterial where
  dek : Dek
  dekId : DekId
  dekNonce : Nonce
  valueNonce : Nonce
  deriving DecidableEq, Repr

/-- What the operating system returned for each piece of the material. -/
structure ValueDraws where
  dek : Option Dek
  dekId : Option DekId
  dekNonce : Option Nonce
  valueNonce : Option Nonce
  deriving DecidableEq, Repr

def ValueDraws.material (draws : ValueDraws) : Except CryptoError ValueMaterial := do
  let dek ← drawn draws.dek
  let dekId ← drawn draws.dekId
  let dekNonce ← drawn draws.dekNonce
  let valueNonce ← drawn draws.valueNonce
  .ok ⟨dek, dekId, dekNonce, valueNonce⟩

def encryptWith (root : RootKey) (path : SecretPath u) (version : SecretVersion)
    (plaintext : List UInt8) (material : ValueMaterial) : Except CryptoError EncryptedValue := do
  let wrappedDek ← sealBytes aead root.bytes material.dekNonce (dekAad material.dekId)
    material.dek.bytes.toList
  let aad := valueAad path version material.dekId
  let ciphertext ← sealBytes aead material.dek.bytes material.valueNonce aad plaintext
  .ok ⟨material.dekId, material.dekNonce, wrappedDek, material.valueNonce, ciphertext⟩

def encrypt (root : RootKey) (path : SecretPath u) (version : SecretVersion)
    (plaintext : List UInt8) (draws : ValueDraws) : Except CryptoError EncryptedValue := do
  let material ← draws.material
  encryptWith aead root path version plaintext material

def unwrapDek (root : RootKey) (value : EncryptedValue) : Except CryptoError Dek := do
  let bytes ← openBytes aead root.bytes value.dekNonce (dekAad value.dekId) value.wrappedDek
  let key ← keyOf bytes
  .ok ⟨key⟩

def decrypt (root : RootKey) (path : SecretPath u) (version : SecretVersion)
    (value : EncryptedValue) : Except CryptoError (List UInt8) := do
  let dek ← unwrapDek aead root value
  let aad := valueAad path version value.dekId
  openBytes aead dek.bytes value.valueNonce aad value.ciphertext

end Operations

/-! ### Associated data tells its arguments -/

theorem rootKeyAad_injective : Function.Injective rootKeyAad := by
  intro id id' h
  have hbytes := Vector.toList_inj.mp (List.append_cancel_left h)
  cases id
  cases id'
  rw [RootKeyId.mk.injEq]
  exact hbytes

theorem dekAad_injective : Function.Injective dekAad := by
  intro id id' h
  have hbytes := Vector.toList_inj.mp (List.append_cancel_left h)
  cases id
  cases id'
  rw [DekId.mk.injEq]
  exact hbytes

theorem u32be_injective {n m : Nat} (hn : n < 2 ^ 32) (hm : m < 2 ^ 32) (h : u32be n = u32be m) :
    n = m := by
  have hbyte : ∀ a b : Nat, UInt8.ofNat a = UInt8.ofNat b → a % 256 = b % 256 := by
    intro a b hab
    have := congrArg UInt8.toNat hab
    rwa [UInt8.toNat_ofNat', UInt8.toNat_ofNat'] at this
  simp only [u32be, List.cons.injEq, and_true] at h
  have h₁ := hbyte _ _ h.1
  have h₂ := hbyte _ _ h.2.1
  have h₃ := hbyte _ _ h.2.2.1
  have h₄ := hbyte _ _ h.2.2.2
  omega

theorem utf8_injective {text text' : String} (h : utf8 text = utf8 text') : text = text' := by
  apply String.toByteArray_inj.mp
  apply ByteArray.ext
  exact Array.toList_inj.mp h

theorem valueAad_injective {path path' : SecretPath u} {version version' : SecretVersion}
    {dekId dekId' : DekId} (h : valueAad path version dekId = valueAad path' version' dekId') :
    path = path' ∧ version = version' ∧ dekId = dekId' := by
  unfold valueAad at h
  -- the two fields at the end have fixed widths, and so have the two at the start
  obtain ⟨h, hid⟩ := List.append_inj' h (by simp)
  obtain ⟨h, hversion⟩ := List.append_inj' h (by simp [SecretVersion.toBeBytes, u32be])
  obtain ⟨-, hpath⟩ := List.append_inj h (by simp [u32be])
  refine ⟨SecretPath.ext (utf8_injective hpath), ?_, ?_⟩
  · exact SecretVersion.ext (u32be_injective version.lt version'.lt hversion)
  · cases dekId
    cases dekId'
    rw [DekId.mk.injEq]
    exact Vector.toList_inj.mp hid

/-- The domains of the three kinds of associated data differ in their first bytes. -/
theorem domains_apart :
    (7 ≤ aadRootKey.length ∧ 7 ≤ aadDek.length ∧ 7 ≤ aadValue.length) ∧
      aadRootKey.take 7 ≠ aadDek.take 7 ∧ aadRootKey.take 7 ≠ aadValue.take 7 ∧
      aadDek.take 7 ≠ aadValue.take 7 := by
  decide +kernel

/-- Every kind of associated data begins with its domain. -/
theorem rootKeyAad_take (id : RootKeyId) : (rootKeyAad id).take 7 = aadRootKey.take 7 :=
  List.take_append_of_le_length domains_apart.1.1

theorem dekAad_take (id : DekId) : (dekAad id).take 7 = aadDek.take 7 :=
  List.take_append_of_le_length domains_apart.1.2.1

theorem valueAad_take (path : SecretPath u) (version : SecretVersion) (dekId : DekId) :
    (valueAad path version dekId).take 7 = aadValue.take 7 := by
  unfold valueAad
  simp only [List.append_assoc]
  exact List.take_append_of_le_length domains_apart.1.2.2

theorem rootKeyAad_ne_dekAad (id : RootKeyId) (id' : DekId) : rootKeyAad id ≠ dekAad id' := by
  intro h
  have hdomain := congrArg (List.take 7) h
  rw [rootKeyAad_take, dekAad_take] at hdomain
  exact domains_apart.2.1 hdomain

theorem rootKeyAad_ne_valueAad (id : RootKeyId) (path : SecretPath u) (version : SecretVersion)
    (dekId : DekId) : rootKeyAad id ≠ valueAad path version dekId := by
  intro h
  have hdomain := congrArg (List.take 7) h
  rw [rootKeyAad_take, valueAad_take] at hdomain
  exact domains_apart.2.2.1 hdomain

theorem dekAad_ne_valueAad (id : DekId) (path : SecretPath u) (version : SecretVersion)
    (dekId : DekId) : dekAad id ≠ valueAad path version dekId := by
  intro h
  have hdomain := congrArg (List.take 7) h
  rw [dekAad_take, valueAad_take] at hdomain
  exact domains_apart.2.2.2 hdomain

namespace Sample

def dbPassword : SecretPath asciiUnicode :=
  ⟨"infra/service-a/DB_PASSWORD", "infra/service-a/DB_PASSWORD", by decide +kernel⟩

/-- The encrypted value that the known-answer tests of the envelope pin. -/
def pinnedValue : EncryptedValue where
  dekId := ⟨Vector.replicate 16 0xb0⟩
  dekNonce := Vector.replicate 12 2
  wrappedDek :=
    [69, 237, 206, 34, 89, 174, 220, 133, 154, 126, 120, 122, 66, 147, 163, 33, 122, 238, 41, 201,
     22, 97, 59, 89, 200, 63, 77, 86, 191, 214, 219, 250, 165, 51, 15, 127, 22, 5, 186, 117, 175,
     219, 246, 165, 177, 150, 166, 10]
  valueNonce := Vector.replicate 12 3
  ciphertext :=
    [108, 69, 69, 165, 247, 48, 86, 223, 216, 163, 213, 184, 15, 254, 196, 255, 169, 223, 2, 35,
     187, 86, 93, 117, 197, 221, 135, 159, 253, 72, 10, 144, 54, 167, 187, 104, 60]

end Sample

end Ciphr
