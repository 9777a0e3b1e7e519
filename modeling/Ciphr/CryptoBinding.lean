import Ciphr.LibFold
import Ciphr.CryptoEnvelope

/-!
What an encrypted value is bound to, when the authenticated encryption is ideal: every seal was made
by one of the calls that a history lists.
-/

namespace Ciphr

variable {u : Unicode}

/-- A call that seals something, with what the operating system returned for it. -/
inductive SealCall (u : Unicode) where
  | encrypt (root : RootKey) (path : SecretPath u) (version : SecretVersion)
      (plaintext : List UInt8) (draws : ValueDraws)
  | wrapRootKey (master : MasterKey) (root : RootKey) (id : RootKeyId) (nonce : Option Nonce)

namespace SealCall

variable (aead : Aead KeyBytes Nonce)

/-- A seal, when the encryption accepts its input. -/
def sealed (key : KeyBytes) (nonce : Nonce) (aad plaintext : List UInt8) :
    List (Sealed KeyBytes Nonce) :=
  match aead.encrypt key nonce aad plaintext with
  | some ciphertext => [⟨key, nonce, aad, plaintext, ciphertext⟩]
  | none => []

/-- The seals that a call makes: a value is sealed after its data key. -/
def seals : SealCall u → List (Sealed KeyBytes Nonce)
  | .encrypt root path version plaintext draws =>
      match draws.material with
      | .error _ => []
      | .ok material =>
          let wrapped := sealed aead root.bytes material.dekNonce (dekAad material.dekId)
            material.dek.bytes.toList
          if wrapped.isEmpty then []
          else wrapped ++ sealed aead material.dek.bytes material.valueNonce
            (valueAad path version material.dekId) plaintext
  | .wrapRootKey master root id nonce =>
      match nonce with
      | none => []
      | some nonce => sealed aead master.bytes nonce (rootKeyAad id) root.bytes.toList

/-- The data key identifier that a call has drawn. -/
def dekId : SealCall u → Option DekId
  | .encrypt _ _ _ _ draws => draws.dekId
  | .wrapRootKey .. => none

def dekNonce : SealCall u → Option Nonce
  | .encrypt _ _ _ _ draws => draws.dekNonce
  | .wrapRootKey .. => none

/-- No two calls have drawn the same identifier or the same nonce for a data key. -/
structure Fresh (calls : List (SealCall u)) : Prop where
  dekIds : (calls.filterMap dekId).Nodup
  dekNonces : (calls.filterMap dekNonce).Nodup

variable {aead}

theorem mem_sealed {key : KeyBytes} {nonce : Nonce} {aad plaintext : List UInt8}
    {s : Sealed KeyBytes Nonce} : s ∈ sealed aead key nonce aad plaintext ↔
      ∃ ciphertext, aead.encrypt key nonce aad plaintext = some ciphertext ∧
        s = ⟨key, nonce, aad, plaintext, ciphertext⟩ := by
  unfold sealed
  cases aead.encrypt key nonce aad plaintext with
  | none => simp
  | some ciphertext => simp

/-- A seal is the root key's, or a data key's under the root key, or a value's under its data key. -/
theorem mem_seals {call : SealCall u} {s : Sealed KeyBytes Nonce} (h : s ∈ call.seals aead) :
    (∃ master root id nonce ciphertext, call = .wrapRootKey master root id (some nonce) ∧
      s = ⟨master.bytes, nonce, rootKeyAad id, root.bytes.toList, ciphertext⟩) ∨
    ∃ root path version message draws material ciphertext,
      call = .encrypt root path version message draws ∧ draws.material = .ok material ∧
      ((aead.encrypt root.bytes material.dekNonce (dekAad material.dekId) material.dek.bytes.toList =
          some ciphertext ∧
        s = ⟨root.bytes, material.dekNonce, dekAad material.dekId, material.dek.bytes.toList, ciphertext⟩) ∨
      (aead.encrypt material.dek.bytes material.valueNonce (valueAad path version material.dekId) message =
          some ciphertext ∧
        s = ⟨material.dek.bytes, material.valueNonce, valueAad path version material.dekId, message,
          ciphertext⟩)) := by
  cases call with
  | wrapRootKey master root rootId nonce =>
      cases nonce with
      | none => simp [seals] at h
      | some nonce =>
          obtain ⟨c, -, rfl⟩ := mem_sealed.mp h
          exact .inl ⟨master, root, rootId, nonce, c, rfl, rfl⟩
  | encrypt root path version message draws =>
      cases hmaterial : draws.material with
      | error e => simp [seals, hmaterial] at h
      | ok material =>
          simp only [seals, hmaterial] at h
          split at h
          · cases h
          · rcases List.mem_append.mp h with hdek | hvalue
            · obtain ⟨c, hc⟩ := mem_sealed.mp hdek
              exact .inr ⟨root, path, version, message, draws, material, c, rfl, hmaterial, .inl hc⟩
            · obtain ⟨c, hc⟩ := mem_sealed.mp hvalue
              exact .inr ⟨root, path, version, message, draws, material, c, rfl, hmaterial, .inr hc⟩

/-- What a call has sealed under the associated data of a data key. -/
theorem mem_seals_dek {call : SealCall u} {key : KeyBytes} {nonce : Nonce} {id : DekId}
    {plaintext ciphertext : List UInt8}
    (h : ⟨key, nonce, dekAad id, plaintext, ciphertext⟩ ∈ call.seals aead) :
    ∃ root path version message draws material,
      call = .encrypt root path version message draws ∧ draws.material = .ok material ∧
      root.bytes = key ∧ material.dekNonce = nonce ∧ material.dekId = id ∧
      material.dek.bytes.toList = plaintext ∧
      aead.encrypt key nonce (dekAad id) plaintext = some ciphertext := by
  rcases mem_seals h with ⟨master, root, rootId, nonce', c, -, heq⟩ |
    ⟨root, path, version, message, draws, material, c, hcall, hmaterial, ⟨hc, heq⟩ | ⟨-, heq⟩⟩
  · rw [Sealed.mk.injEq] at heq
    exact absurd heq.2.2.1.symm (rootKeyAad_ne_dekAad rootId id)
  · rw [Sealed.mk.injEq] at heq
    obtain ⟨rfl, rfl, haad, rfl, rfl⟩ := heq
    have hid := dekAad_injective haad
    exact ⟨root, path, version, message, draws, material, hcall, hmaterial, rfl, rfl, hid.symm, rfl,
      haad ▸ hc⟩
  · rw [Sealed.mk.injEq] at heq
    exact absurd heq.2.2.1 (dekAad_ne_valueAad id path version material.dekId)

theorem mem_seals_value {call : SealCall u} {key : KeyBytes} {nonce : Nonce} {path : SecretPath u}
    {version : SecretVersion} {id : DekId} {plaintext ciphertext : List UInt8}
    (h : ⟨key, nonce, valueAad path version id, plaintext, ciphertext⟩ ∈ call.seals aead) :
    ∃ root draws material, call = .encrypt root path version plaintext draws ∧
      draws.material = .ok material ∧ material.dek.bytes = key ∧ material.valueNonce = nonce ∧
      material.dekId = id ∧
      aead.encrypt key nonce (valueAad path version id) plaintext = some ciphertext := by
  rcases mem_seals h with ⟨master, root, rootId, nonce', c, -, heq⟩ |
    ⟨root, path', version', message, draws, material, c, hcall, hmaterial, ⟨-, heq⟩ | ⟨hc, heq⟩⟩
  · rw [Sealed.mk.injEq] at heq
    exact absurd heq.2.2.1.symm (rootKeyAad_ne_valueAad rootId path version id)
  · rw [Sealed.mk.injEq] at heq
    exact absurd heq.2.2.1.symm (dekAad_ne_valueAad material.dekId path version id)
  · rw [Sealed.mk.injEq] at heq
    obtain ⟨rfl, rfl, haad, rfl, rfl⟩ := heq
    obtain ⟨rfl, rfl, hid⟩ := valueAad_injective haad
    exact ⟨root, draws, material, hcall, hmaterial, rfl, rfl, hid.symm, haad ▸ hc⟩

end SealCall

/-! ### Opening -/

section Binding

variable {aead : Aead KeyBytes Nonce} {calls : List (SealCall u)}

theorem openBytes_ok {key : KeyBytes} {nonce : Nonce} {aad ciphertext plaintext : List UInt8} :
    openBytes aead key nonce aad ciphertext = .ok plaintext ↔
      aead.decrypt key nonce aad ciphertext = some plaintext := by
  unfold openBytes
  cases aead.decrypt key nonce aad ciphertext with
  | none => simp
  | some bytes => simp

theorem sealBytes_ok {key : KeyBytes} {nonce : Nonce} {aad plaintext ciphertext : List UInt8} :
    sealBytes aead key nonce aad plaintext = .ok ciphertext ↔
      aead.encrypt key nonce aad plaintext = some ciphertext := by
  unfold sealBytes
  cases aead.encrypt key nonce aad plaintext with
  | none => simp
  | some bytes => simp

theorem keyOf_ok {bytes : List UInt8} {key : KeyBytes} :
    keyOf bytes = .ok key ↔ bytes = key.toList := by
  unfold keyOf
  constructor
  · intro h
    split at h
    · cases h
      simp
    · cases h
  · rintro rfl
    rw [dif_pos (by simp)]
    congr 1

theorem unwrapDek_ok {root : RootKey} {value : EncryptedValue} {dek : Dek} :
    unwrapDek aead root value = .ok dek ↔
      aead.decrypt root.bytes value.dekNonce (dekAad value.dekId) value.wrappedDek =
        some dek.bytes.toList := by
  unfold unwrapDek
  constructor
  · intro h
    obtain ⟨bytes, hopen, h⟩ := Loop.bind_eq_ok h
    obtain ⟨key, hkey, h⟩ := Loop.bind_eq_ok h
    cases h
    rw [← keyOf_ok.mp hkey]
    exact openBytes_ok.mp hopen
  · intro h
    rw [openBytes_ok.mpr h]
    simp only [bind, Except.bind, keyOf_ok.mpr rfl]

theorem decrypt_ok {root : RootKey} {path : SecretPath u} {version : SecretVersion}
    {value : EncryptedValue} {plaintext : List UInt8} :
    decrypt aead root path version value = .ok plaintext ↔ ∃ dek : Dek,
      aead.decrypt root.bytes value.dekNonce (dekAad value.dekId) value.wrappedDek =
        some dek.bytes.toList ∧
      aead.decrypt dek.bytes value.valueNonce (valueAad path version value.dekId) value.ciphertext =
        some plaintext := by
  unfold decrypt
  constructor
  · intro h
    obtain ⟨dek, hdek, h⟩ := Loop.bind_eq_ok h
    exact ⟨dek, unwrapDek_ok.mp hdek, openBytes_ok.mp h⟩
  · rintro ⟨dek, hdek, hvalue⟩
    rw [unwrapDek_ok.mpr hdek]
    exact openBytes_ok.mpr hvalue

/-- What `encrypt` has sealed when it returns a value. -/
theorem encrypt_ok {root : RootKey} {path : SecretPath u} {version : SecretVersion}
    {plaintext : List UInt8} {draws : ValueDraws} {value : EncryptedValue} :
    encrypt aead root path version plaintext draws = .ok value ↔
      ∃ material, draws.material = .ok material ∧
        aead.encrypt root.bytes material.dekNonce (dekAad material.dekId) material.dek.bytes.toList =
          some value.wrappedDek ∧
        aead.encrypt material.dek.bytes material.valueNonce (valueAad path version material.dekId)
          plaintext = some value.ciphertext ∧
        value.dekId = material.dekId ∧ value.dekNonce = material.dekNonce ∧
        value.valueNonce = material.valueNonce := by
  unfold encrypt encryptWith
  constructor
  · intro h
    obtain ⟨material, hmaterial, h⟩ := Loop.bind_eq_ok h
    obtain ⟨wrapped, hwrapped, h⟩ := Loop.bind_eq_ok h
    obtain ⟨ciphertext, hciphertext, h⟩ := Loop.bind_eq_ok h
    cases h
    exact ⟨material, hmaterial, sealBytes_ok.mp hwrapped, sealBytes_ok.mp hciphertext, rfl, rfl, rfl⟩
  · rintro ⟨material, hmaterial, hwrapped, hciphertext, hid, hnonce, hvalueNonce⟩
    rw [hmaterial]
    simp only [bind, Except.bind, sealBytes_ok.mpr hwrapped, sealBytes_ok.mpr hciphertext]
    rw [← hid, ← hnonce, ← hvalueNonce]

/-- Two calls that have drawn one identifier are one call. -/
theorem eq_of_filterMap_nodup {α β : Type} {f : α → Option β} {xs : List α}
    (h : (xs.filterMap f).Nodup) {a b : α} {y : β} (ha : a ∈ xs) (hb : b ∈ xs) (hfa : f a = some y)
    (hfb : f b = some y) : a = b := by
  induction xs with
  | nil => cases ha
  | cons x xs ih =>
      -- an element of the rest draws what the first one drew only if they are not both drawn
      have hrest : ∀ c ∈ xs, f c = some y → f x ≠ some y := by
        intro c hc hfc hfx
        rw [List.filterMap_cons_some hfx, List.nodup_cons] at h
        exact h.1 (List.mem_filterMap.mpr ⟨c, hc, hfc⟩)
      have htail : (xs.filterMap f).Nodup := by
        cases hfx : f x with
        | none => rwa [List.filterMap_cons_none hfx] at h
        | some z =>
            rw [List.filterMap_cons_some hfx, List.nodup_cons] at h
            exact h.2
      rcases List.mem_cons.mp ha with rfl | ha'
      · rcases List.mem_cons.mp hb with rfl | hb'
        · rfl
        · exact absurd hfa (hrest b hb' hfb)
      · rcases List.mem_cons.mp hb with rfl | hb'
        · exact absurd hfb (hrest a ha' hfa)
        · exact ih htail ha' hb'

theorem drawn_ok {α : Type} {drawing : Option α} {a : α} (h : drawn drawing = .ok a) :
    drawing = some a := by
  cases drawing with
  | none => cases h
  | some b =>
      cases h
      rfl

theorem material_drawn {draws : ValueDraws} {material : ValueMaterial}
    (h : draws.material = .ok material) :
    draws.dekId = some material.dekId ∧ draws.dekNonce = some material.dekNonce := by
  unfold ValueDraws.material at h
  obtain ⟨dek, -, h⟩ := Loop.bind_eq_ok h
  obtain ⟨dekId, hdekId, h⟩ := Loop.bind_eq_ok h
  obtain ⟨dekNonce, hdekNonce, h⟩ := Loop.bind_eq_ok h
  obtain ⟨valueNonce, -, h⟩ := Loop.bind_eq_ok h
  cases h
  exact ⟨drawn_ok hdekId, drawn_ok hdekNonce⟩

/-- What a call returns is opened under what the call was made with. -/
theorem decrypt_encrypt (hideal : aead.Ideal (calls.flatMap (·.seals aead))) {root : RootKey}
    {path : SecretPath u} {version : SecretVersion} {plaintext : List UInt8} {draws : ValueDraws}
    {value : EncryptedValue} (hcall : .encrypt root path version plaintext draws ∈ calls)
    (hvalue : encrypt aead root path version plaintext draws = .ok value) :
    decrypt aead root path version value = .ok plaintext := by
  obtain ⟨material, hmaterial, hwrapped, hciphertext, hid, hnonce, hvalueNonce⟩ :=
    encrypt_ok.mp hvalue
  have hseals : ∀ s ∈ (SealCall.encrypt root path version plaintext draws).seals aead,
      s ∈ calls.flatMap (·.seals aead) := fun s hs => List.mem_flatMap.mpr ⟨_, hcall, hs⟩
  simp only [SealCall.seals, hmaterial, SealCall.sealed, hwrapped, hciphertext] at hseals
  refine decrypt_ok.mpr ⟨material.dek, ?_, ?_⟩
  · rw [hid, hnonce]
    exact (hideal _ _ _ _ _).mpr (hseals _ (by simp))
  · rw [hid, hvalueNonce]
    exact (hideal _ _ _ _ _).mpr (hseals _ (by simp))

/-- A value opens only under what it was made with, and only as it was made. -/
theorem encrypt_of_decrypt (hideal : aead.Ideal (calls.flatMap (·.seals aead)))
    (hfresh : SealCall.Fresh calls) {root : RootKey} {path : SecretPath u}
    {version : SecretVersion} {plaintext : List UInt8} {value : EncryptedValue}
    (h : decrypt aead root path version value = .ok plaintext) :
    ∃ draws, .encrypt root path version plaintext draws ∈ calls ∧
      encrypt aead root path version plaintext draws = .ok value := by
  obtain ⟨dek, hdek, hopened⟩ := decrypt_ok.mp h
  -- the data key and the value were each sealed by some call
  obtain ⟨call, hcall, hseal⟩ := List.mem_flatMap.mp ((hideal _ _ _ _ _).mp hdek)
  obtain ⟨root', path', version', message, draws, material, rfl, hmaterial, hroot, hnonce, hid, hbytes,
    hwrapped⟩ := SealCall.mem_seals_dek hseal
  obtain ⟨call', hcall', hseal'⟩ := List.mem_flatMap.mp ((hideal _ _ _ _ _).mp hopened)
  obtain ⟨root'', draws', material', rfl, hmaterial', hkey, hvalueNonce, hid', hciphertext⟩ :=
    SealCall.mem_seals_value hseal'
  -- and it was the same call, because both drew the identifier of this value
  have hsame := eq_of_filterMap_nodup hfresh.dekIds hcall hcall' (material_drawn hmaterial).1
    (by rw [hid, ← hid']; exact (material_drawn hmaterial').1)
  rw [SealCall.encrypt.injEq] at hsame
  obtain ⟨rfl, rfl, rfl, rfl, rfl⟩ := hsame
  rw [hmaterial, Except.ok.injEq] at hmaterial'
  obtain rfl := hmaterial'
  have hroot' : root' = root := by
    cases root'
    cases root
    rw [RootKey.mk.injEq]
    exact hroot
  subst hroot'
  refine ⟨draws, hcall, encrypt_ok.mpr ⟨material, hmaterial, ?_, ?_, hid.symm, hnonce.symm,
    hvalueNonce.symm⟩⟩
  · rw [hnonce, hid, hbytes]
    exact hwrapped
  · rw [hkey, hvalueNonce, hid]
    exact hciphertext

end Binding

end Ciphr
