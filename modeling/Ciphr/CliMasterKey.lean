import Ciphr.Errors
import Ciphr.CryptoBinding
import Ciphr.StoreSeal

/-!
`ciphr rotate-master-key`, in `ciphr-cli/src/main.rs` and `session.rs`, and what every value that was
encrypted stays bound to. Whether the lock is taken, the audit devices open, the entry is recorded,
and which keys the environment holds are inputs.
-/

namespace Ciphr

open Program

/-- What the database answers to the statements of each reading and writing of the seal record. -/
structure RotateFaults where
  opened : MetaFault
  again : MetaFault
  replaced : MetaFault

namespace MetaTable

/-- The seal record of an initialized store. -/
def requireState (database : String) (fault : MetaFault) : Program MetaTable CliError SealState := do
  let table ← getThe MetaTable
  let found ← Program.ofExcept ((sealState fault table).mapError .store)
  match found with
  | none => throw (.notInitialized database)
  | some state => pure state

end MetaTable

section Rotate

variable (aead : Aead KeyBytes Nonce)

/-- `Session::open` with its audit devices: the root key of the store. -/
def openSession (database : String) (lock devices : Except CliError Unit) (mechanism : StaticSeal)
    (fault : MetaFault) : Program MetaTable CliError RootKey := do
  Program.ofExcept lock
  let state ← MetaTable.requireState database fault
  let root ← Program.ofExcept ((mechanism.unsealKey aead state.wrappedRootKey).mapError .crypto)
  Program.ofExcept devices
  return root

def rotateMasterKey (database : String) (lock devices recorded : Except CliError Unit)
    (current replacement : Except CliError StaticSeal) (nonce : Option Nonce)
    (faults : RotateFaults) : Program MetaTable CliError Unit := do
  let mechanism ← Program.ofExcept current
  let root ← openSession aead database lock devices mechanism faults.opened
  let state ← MetaTable.requireState database faults.again
  let newSeal ← Program.ofExcept replacement
  let rewrapped ← Program.ofExcept
    ((newSeal.rewrap aead root state.wrappedRootKey.id nonce).mapError .crypto)
  Program.ofExcept recorded
  Program.mapError .store (MetaTable.replaceSeal faults.replaced ⟨StaticSeal.id, rewrapped⟩)

end Rotate

variable {u : Unicode} {aead : Aead KeyBytes Nonce} {calls : List (SealCall u)}

namespace MetaTable

theorem readMeta_ok {fault : MetaFault} {table : MetaTable} {key : String} {found : Option String}
    (h : readMeta fault table key = .ok found) : readMeta noFault table key = .ok found := by
  unfold readMeta at h
  obtain ⟨_, -, h⟩ := Loop.bind_eq_ok h
  exact h

theorem sealState_ok {fault : MetaFault} {table : MetaTable} {found : Option SealState}
    (h : sealState fault table = .ok found) : sealState noFault table = .ok found := by
  unfold sealState at h
  obtain ⟨sealId, hsealId, h⟩ := Loop.bind_eq_ok h
  obtain ⟨id, hid, h⟩ := Loop.bind_eq_ok h
  obtain ⟨nonce, hnonce, h⟩ := Loop.bind_eq_ok h
  obtain ⟨wrapped, hwrapped, h⟩ := Loop.bind_eq_ok h
  unfold sealState
  rw [readMeta_ok hsealId, readMeta_ok hid, readMeta_ok hnonce, readMeta_ok hwrapped]
  exact h

theorem requireState_ok {database : String} {fault : MetaFault} {table table' : MetaTable}
    {state : SealState} (h : exec (requireState database fault) table = (.ok state, table')) :
    sealState noFault table = .ok (some state) ∧ table' = table := by
  unfold requireState at h
  rw [exec_bind_ok (exec_getThe _)] at h
  obtain ⟨found, hfound, h⟩ := exec_ofExcept_bind_eq_ok h
  cases found with
  | none => simp at h
  | some found =>
      rw [exec_pure, Prod.mk.injEq, Except.ok.injEq] at h
      rw [← h.1]
      exact ⟨sealState_ok (Loop.mapError_eq_ok hfound), h.2.symm⟩

theorem replaceSeal_ok {fault : MetaFault} {table table' : MetaTable} {state : SealState} {x : Unit}
    (h : exec (replaceSeal fault state) table = (.ok x, table')) :
    sealState noFault table' = .ok (some state) := by
  unfold replaceSeal at h
  rw [exec_bind_ok (exec_getThe _)] at h
  obtain ⟨found, -, h⟩ := exec_ofExcept_bind_eq_ok h
  cases found with
  | none => simp at h
  | some current =>
      dsimp only at h
      split at h
      · simp at h
      · exact sealState_storeSeal h

end MetaTable

/-- A record that a key has wrapped is unwrapped by that key. -/
theorem unwrapRootKey_wrapRootKey (hideal : aead.Ideal (calls.flatMap (·.seals aead)))
    {master : MasterKey} {root : RootKey} {id : RootKeyId} {nonce : Option Nonce}
    {wrapped : WrappedRootKey} (hcall : .wrapRootKey master root id nonce ∈ calls)
    (hwrapped : wrapRootKey aead master root id nonce = .ok wrapped) :
    unwrapRootKey aead master wrapped = .ok root ∧ wrapped.id = id := by
  unfold wrapRootKey wrapRootKeyWith at hwrapped
  obtain ⟨drawnNonce, hnonce, hwrapped⟩ := Loop.bind_eq_ok hwrapped
  obtain ⟨ciphertext, hciphertext, hwrapped⟩ := Loop.bind_eq_ok hwrapped
  rw [drawn_ok hnonce] at hcall
  have hopened := (hideal master.bytes drawnNonce (rootKeyAad id) root.bytes.toList ciphertext).mpr
    (List.mem_flatMap.mpr ⟨_, hcall, SealCall.mem_sealed.mpr
      ⟨ciphertext, sealBytes_ok.mp hciphertext, rfl⟩⟩)
  rw [← Except.ok.inj hwrapped]
  refine ⟨?_, rfl⟩
  unfold unwrapRootKey
  rw [openBytes_ok.mpr hopened]
  simp only [bind, Except.bind, keyOf_ok.mpr rfl]

/-- The key and the record that a rotation leaves. -/
theorem rotateMasterKey_ok {database : String} {lock devices recorded : Except CliError Unit}
    {current replacement : Except CliError StaticSeal} {nonce : Option Nonce} {faults : RotateFaults}
    {table table' : MetaTable}
    (h : exec (rotateMasterKey aead database lock devices recorded current replacement nonce faults)
      table = (.ok (), table')) :
    ∃ mechanism newSeal state root rewrapped, current = .ok mechanism ∧ replacement = .ok newSeal ∧
      MetaTable.sealState MetaTable.noFault table = .ok (some state) ∧
      mechanism.unsealKey aead state.wrappedRootKey = .ok root ∧
      newSeal.rewrap aead root state.wrappedRootKey.id nonce = .ok rewrapped ∧
      MetaTable.sealState MetaTable.noFault table' = .ok (some ⟨StaticSeal.id, rewrapped⟩) := by
  unfold rotateMasterKey at h
  obtain ⟨mechanism, hmechanism, h⟩ := exec_ofExcept_bind_eq_ok h
  obtain ⟨root, table₁, hopen, h⟩ := exec_bind_eq_ok h
  unfold openSession at hopen
  obtain ⟨-, -, hopen⟩ := exec_ofExcept_bind_eq_ok hopen
  obtain ⟨state, table₂, hstate, hopen⟩ := exec_bind_eq_ok hopen
  obtain ⟨hstate, htable⟩ := MetaTable.requireState_ok hstate
  rw [htable] at hopen
  obtain ⟨root', hroot, hopen⟩ := exec_ofExcept_bind_eq_ok hopen
  obtain ⟨-, -, hopen⟩ := exec_ofExcept_bind_eq_ok hopen
  rw [exec_pure, Prod.mk.injEq, Except.ok.injEq] at hopen
  rw [← hopen.2] at h
  obtain ⟨state', table₃, hstate', h⟩ := exec_bind_eq_ok h
  obtain ⟨hstate', htable'⟩ := MetaTable.requireState_ok hstate'
  rw [hstate, Except.ok.injEq, Option.some.injEq] at hstate'
  rw [htable'] at h
  obtain ⟨newSeal, hnew, h⟩ := exec_ofExcept_bind_eq_ok h
  obtain ⟨rewrapped, hrewrapped, h⟩ := exec_ofExcept_bind_eq_ok h
  obtain ⟨-, -, h⟩ := exec_ofExcept_bind_eq_ok h
  refine ⟨mechanism, newSeal, state, root, rewrapped, hmechanism, hnew, hstate, ?_, ?_,
    MetaTable.replaceSeal_ok (exec_mapError_eq_ok h)⟩
  · rw [← hopen.1]
    exact Loop.mapError_eq_ok hroot
  · rw [hstate']
    exact Loop.mapError_eq_ok hrewrapped

/-- A value that does not open fails as one that was tampered with. -/
theorem decrypt_ok_or_aead (root : RootKey) (path : SecretPath u) (version : SecretVersion)
    (value : EncryptedValue) :
    (∃ plaintext, decrypt aead root path version value = .ok plaintext) ∨
      decrypt aead root path version value = .error .aead := by
  have hopen : ∀ key nonce aad ciphertext,
      (∃ bytes, openBytes aead key nonce aad ciphertext = .ok bytes) ∨
        openBytes aead key nonce aad ciphertext = .error .aead := by
    intro key nonce aad ciphertext
    unfold openBytes
    cases aead.decrypt key nonce aad ciphertext with
    | none => exact .inr rfl
    | some bytes => exact .inl ⟨bytes, rfl⟩
  unfold decrypt unwrapDek
  rcases hopen root.bytes value.dekNonce (dekAad value.dekId) value.wrappedDek with
    ⟨bytes, hbytes⟩ | herror
  · rw [hbytes]
    by_cases hlength : bytes.length = 32
    · simp only [bind, Except.bind, keyOf, dif_pos hlength]
      exact hopen _ _ _ _
    · refine .inr ?_
      simp only [bind, Except.bind, keyOf, dif_neg hlength]
  · rw [herror]
    exact .inr rfl

/-- A value whose every field is that of one of two values. -/
structure EncryptedValue.Mixes (mixed first second : EncryptedValue) : Prop where
  dekId : mixed.dekId = first.dekId ∨ mixed.dekId = second.dekId
  dekNonce : mixed.dekNonce = first.dekNonce ∨ mixed.dekNonce = second.dekNonce
  wrappedDek : mixed.wrappedDek = first.wrappedDek ∨ mixed.wrappedDek = second.wrappedDek
  valueNonce : mixed.valueNonce = first.valueNonce ∨ mixed.valueNonce = second.valueNonce
  ciphertext : mixed.ciphertext = first.ciphertext ∨ mixed.ciphertext = second.ciphertext

/-- A value that one of the calls has returned. -/
def Stored (aead : Aead KeyBytes Nonce) (calls : List (SealCall u)) (root : RootKey)
    (path : SecretPath u) (version : SecretVersion) (plaintext : List UInt8)
    (value : EncryptedValue) : Prop :=
  ∃ draws, .encrypt root path version plaintext draws ∈ calls ∧
    encrypt aead root path version plaintext draws = .ok value

/-- Values of one call are one value, which is bound to one root key, path and version. -/
theorem encrypt_unique {root root' : RootKey} {path path' : SecretPath u}
    {version version' : SecretVersion} {plaintext plaintext' : List UInt8} {draws draws' : ValueDraws}
    {value value' : EncryptedValue}
    (hsame : SealCall.encrypt root path version plaintext draws =
      .encrypt root' path' version' plaintext' draws')
    (hvalue : encrypt aead root path version plaintext draws = .ok value)
    (hvalue' : encrypt aead root' path' version' plaintext' draws' = .ok value') :
    root = root' ∧ path = path' ∧ version = version' ∧ value = value' := by
  rw [SealCall.encrypt.injEq] at hsame
  obtain ⟨rfl, rfl, rfl, rfl, rfl⟩ := hsame
  rw [hvalue, Except.ok.injEq] at hvalue'
  exact ⟨rfl, rfl, rfl, hvalue'⟩

namespace Stored

variable {root root' : RootKey} {path path' : SecretPath u} {version version' : SecretVersion}
  {plaintext plaintext' : List UInt8} {value value' : EncryptedValue}

theorem eq_of_dekId (hfresh : SealCall.Fresh calls)
    (h : Stored aead calls root path version plaintext value)
    (h' : Stored aead calls root' path' version' plaintext' value') (hid : value.dekId = value'.dekId) :
    root = root' ∧ path = path' ∧ version = version' ∧ value = value' := by
  obtain ⟨draws, hcall, hvalue⟩ := h
  obtain ⟨draws', hcall', hvalue'⟩ := h'
  obtain ⟨material, hmaterial, -, -, hdekId, -⟩ := encrypt_ok.mp hvalue
  obtain ⟨material', hmaterial', -, -, hdekId', -⟩ := encrypt_ok.mp hvalue'
  refine encrypt_unique (eq_of_filterMap_nodup hfresh.dekIds hcall hcall' (material_drawn hmaterial).1 ?_)
    hvalue hvalue'
  rw [← hdekId, hid, hdekId']
  exact (material_drawn hmaterial').1

theorem eq_of_dekNonce (hfresh : SealCall.Fresh calls)
    (h : Stored aead calls root path version plaintext value)
    (h' : Stored aead calls root' path' version' plaintext' value')
    (hnonce : value.dekNonce = value'.dekNonce) :
    root = root' ∧ path = path' ∧ version = version' ∧ value = value' := by
  obtain ⟨draws, hcall, hvalue⟩ := h
  obtain ⟨draws', hcall', hvalue'⟩ := h'
  obtain ⟨material, hmaterial, -, -, -, hdekNonce, -⟩ := encrypt_ok.mp hvalue
  obtain ⟨material', hmaterial', -, -, -, hdekNonce', -⟩ := encrypt_ok.mp hvalue'
  refine encrypt_unique
    (eq_of_filterMap_nodup hfresh.dekNonces hcall hcall' (material_drawn hmaterial).2 ?_) hvalue hvalue'
  rw [← hdekNonce, hnonce, hdekNonce']
  exact (material_drawn hmaterial').2

theorem wrappedDek_ne_nil (htagged : aead.Tagged)
    (h : Stored aead calls root path version plaintext value) : value.wrappedDek ≠ [] := by
  obtain ⟨draws, -, hvalue⟩ := h
  obtain ⟨material, -, hwrapped, -⟩ := encrypt_ok.mp hvalue
  have hlength := htagged _ _ _ _ _ hwrapped
  intro hnil
  rw [hnil] at hlength
  simp at hlength

end Stored

/-- What an encrypted value is bound to, over every history of calls that seal something: `calls` are
all of them, the encryption is ideal for what they sealed, and what was drawn is fresh. -/
theorem envelope_binding (hideal : aead.Ideal (calls.flatMap (·.seals aead)))
    (htagged : aead.Tagged) (hfresh : SealCall.Fresh calls) :
    -- what was encrypted is decrypted
    (∀ root path version plaintext value, Stored aead calls root path version plaintext value →
      decrypt aead root path version value = .ok plaintext) ∧
    -- and under nothing else
    (∀ root path version plaintext value, Stored aead calls root path version plaintext value →
      ∀ root' path' version' dekId',
        (root' ≠ root ∨ path' ≠ path ∨ version' ≠ version ∨ dekId' ≠ value.dekId) →
          decrypt aead root' path' version' { value with dekId := dekId' } = .error .aead) ∧
    -- nor as a mix of two
    (∀ root₁ path₁ version₁ plaintext₁ value₁, Stored aead calls root₁ path₁ version₁ plaintext₁ value₁ →
      ∀ root₂ path₂ version₂ plaintext₂ value₂,
        Stored aead calls root₂ path₂ version₂ plaintext₂ value₂ →
        ∀ mixed : EncryptedValue, mixed.Mixes value₁ value₂ → mixed ≠ value₁ → mixed ≠ value₂ →
          ∀ root (path : SecretPath u) version, decrypt aead root path version mixed = .error .aead) ∧
    -- a shredded value
    (∀ root (path : SecretPath u) version value, value.wrappedDek = [] →
      decrypt aead root path version value = .error .aead) ∧
    -- the associated data
    (Function.Injective rootKeyAad ∧ Function.Injective dekAad ∧
      (∀ (path path' : SecretPath u) version version' dekId dekId',
        valueAad path version dekId = valueAad path' version' dekId' →
          path = path' ∧ version = version' ∧ dekId = dekId') ∧
      (∀ rootKeyId dekId, rootKeyAad rootKeyId ≠ dekAad dekId) ∧
      (∀ rootKeyId (path : SecretPath u) version dekId,
        rootKeyAad rootKeyId ≠ valueAad path version dekId) ∧
      ∀ dekId (path : SecretPath u) version dekId', dekAad dekId ≠ valueAad path version dekId') ∧
    -- a new master key
    (∀ database lock devices recorded current replacement nonce faults table table' mechanism newSeal
        state root,
      exec (rotateMasterKey aead database lock devices recorded current replacement nonce faults)
        table = (.ok (), table') →
      current = .ok mechanism → replacement = .ok newSeal →
      MetaTable.sealState MetaTable.noFault table = .ok (some state) →
      mechanism.unsealKey aead state.wrappedRootKey = .ok root →
      .wrapRootKey newSeal.master root state.wrappedRootKey.id nonce ∈ calls →
        ∃ state', MetaTable.sealState MetaTable.noFault table' = .ok (some state') ∧
          state'.wrappedRootKey.id = state.wrappedRootKey.id ∧
          newSeal.unsealKey aead state'.wrappedRootKey = .ok root ∧
          ∀ path version plaintext value, Stored aead calls root path version plaintext value →
            (newSeal.unsealKey aead state'.wrappedRootKey >>= fun unsealed =>
              decrypt aead unsealed path version value) = .ok plaintext) := by
  have hround : ∀ root path version plaintext value,
      Stored aead calls root path version plaintext value →
        decrypt aead root path version value = .ok plaintext := by
    rintro root path version plaintext value ⟨draws, hcall, hvalue⟩
    exact decrypt_encrypt hideal hcall hvalue
  refine ⟨hround, ?_, ?_, ?_, ⟨rootKeyAad_injective, dekAad_injective,
    fun _ _ _ _ _ _ h => valueAad_injective h, rootKeyAad_ne_dekAad, rootKeyAad_ne_valueAad,
    dekAad_ne_valueAad⟩, ?_⟩
  · intro root path version plaintext value hstored root' path' version' dekId' hother
    rcases decrypt_ok_or_aead root' path' version' { value with dekId := dekId' } with
      ⟨plaintext', hopened⟩ | herror
    · have hstored' : Stored aead calls root' path' version' plaintext' { value with dekId := dekId' } :=
        encrypt_of_decrypt hideal hfresh hopened
      -- it was stored with this nonce, so it is the value itself
      obtain ⟨rfl, rfl, rfl, hvalue⟩ := hstored.eq_of_dekNonce hfresh hstored' rfl
      have hid : value.dekId = dekId' := congrArg EncryptedValue.dekId hvalue
      rcases hother with h | h | h | h
      · exact absurd rfl h
      · exact absurd rfl h
      · exact absurd rfl h
      · exact absurd hid.symm h
    · exact herror
  · intro root₁ path₁ version₁ plaintext₁ value₁ hstored₁ root₂ path₂ version₂ plaintext₂ value₂ hstored₂
      mixed hmixes hne₁ hne₂ root path version
    rcases decrypt_ok_or_aead root path version mixed with ⟨plaintext, hopened⟩ | herror
    · have hstored : Stored aead calls root path version plaintext mixed :=
        encrypt_of_decrypt hideal hfresh hopened
      rcases hmixes.dekId with hid | hid
      · exact absurd (hstored.eq_of_dekId hfresh hstored₁ hid).2.2.2 hne₁
      · exact absurd (hstored.eq_of_dekId hfresh hstored₂ hid).2.2.2 hne₂
    · exact herror
  · intro root path version value hnil
    rcases decrypt_ok_or_aead root path version value with ⟨plaintext, hopened⟩ | herror
    · have hstored : Stored aead calls root path version plaintext value :=
        encrypt_of_decrypt hideal hfresh hopened
      exact absurd hnil (hstored.wrappedDek_ne_nil htagged)
    · exact herror
  · intro database lock devices recorded current replacement nonce faults table table' mechanism newSeal
      state root hrotated hcurrent hreplacement hstate hroot hcall
    obtain ⟨mechanism', newSeal', state', root', rewrapped, hcurrent', hreplacement', hstate', hroot',
      hrewrapped, hstored⟩ := rotateMasterKey_ok hrotated
    rw [hcurrent, Except.ok.injEq] at hcurrent'
    rw [hreplacement, Except.ok.injEq] at hreplacement'
    rw [hstate, Except.ok.injEq, Option.some.injEq] at hstate'
    rw [← hcurrent', ← hstate', hroot, Except.ok.injEq] at hroot'
    rw [← hreplacement', ← hroot', ← hstate'] at hrewrapped
    obtain ⟨hunwrapped, hid⟩ := unwrapRootKey_wrapRootKey hideal hcall hrewrapped
    refine ⟨⟨StaticSeal.id, rewrapped⟩, hstored, hid, hunwrapped, ?_⟩
    intro path version plaintext value hvalue
    show (unwrapRootKey aead newSeal.master rewrapped >>= _) = _
    rw [hunwrapped]
    exact hround root path version plaintext value hvalue

namespace Sample

/-- The keys and identifiers that the known-answer tests of the envelope use, and a new master key. -/
def pinnedSeal : StaticSeal := ⟨⟨Vector.replicate 32 0x11⟩⟩

def otherSeal : StaticSeal := ⟨⟨Vector.replicate 32 0x44⟩⟩

def pinnedRoot : RootKey := ⟨Vector.replicate 32 0x22⟩

def pinnedRootId : RootKeyId := ⟨Vector.replicate 16 0xa0⟩

def pinnedPlaintext : List UInt8 := utf8 "the value of a secret"

def pinnedDraws : ValueDraws :=
  ⟨some ⟨Vector.replicate 32 0x33⟩, some pinnedValue.dekId, some pinnedValue.dekNonce,
    some pinnedValue.valueNonce⟩

def pinnedWrapped : WrappedRootKey where
  id := pinnedRootId
  nonce := Vector.replicate 12 1
  ciphertext :=
    [100, 145, 162, 254, 172, 33, 238, 238, 35, 42, 139, 252, 141, 147, 84, 159, 189, 100, 1, 161,
     148, 205, 216, 129, 122, 35, 143, 173, 214, 250, 180, 183, 165, 89, 94, 168, 68, 97, 57, 95,
     184, 22, 106, 124, 161, 194, 157, 149]

def otherWrapped : WrappedRootKey where
  id := pinnedRootId
  nonce := Vector.replicate 12 4
  ciphertext :=
    [145, 227, 74, 153, 194, 105, 67, 15, 208, 219, 145, 102, 223, 65, 221, 1, 17, 142, 187, 239,
     7, 82, 100, 99, 44, 47, 151, 57, 111, 10, 14, 107, 114, 210, 231, 61, 26, 99, 56, 47, 236,
     46, 112, 80, 52, 206, 88, 27]

/-- What AES-256-GCM returns for the inputs of the four seals. -/
def pinnedSeals : List (Sealed KeyBytes Nonce) :=
  [⟨pinnedSeal.master.bytes, pinnedWrapped.nonce, rootKeyAad pinnedRootId, pinnedRoot.bytes.toList,
      pinnedWrapped.ciphertext⟩,
    ⟨pinnedRoot.bytes, pinnedValue.dekNonce, dekAad pinnedValue.dekId, List.replicate 32 0x33,
      pinnedValue.wrappedDek⟩,
    ⟨Vector.replicate 32 0x33, pinnedValue.valueNonce,
      valueAad dbPassword .first pinnedValue.dekId, pinnedPlaintext, pinnedValue.ciphertext⟩,
    ⟨otherSeal.master.bytes, otherWrapped.nonce, rootKeyAad pinnedRootId, pinnedRoot.bytes.toList,
      otherWrapped.ciphertext⟩]

def pinnedAead : Aead KeyBytes Nonce where
  encrypt key nonce aad plaintext :=
    (pinnedSeals.find? fun s =>
      s.key = key ∧ s.nonce = nonce ∧ s.aad = aad ∧ s.plaintext = plaintext).map (·.ciphertext)
  decrypt key nonce aad ciphertext :=
    (pinnedSeals.find? fun s =>
      s.key = key ∧ s.nonce = nonce ∧ s.aad = aad ∧ s.ciphertext = ciphertext).map (·.plaintext)

/-- A store is made, a value is encrypted, and the master key is replaced. -/
def pinnedCalls : List (SealCall asciiUnicode) :=
  [.wrapRootKey pinnedSeal.master pinnedRoot pinnedRootId (some pinnedWrapped.nonce),
    .encrypt pinnedRoot dbPassword .first pinnedPlaintext pinnedDraws,
    .wrapRootKey otherSeal.master pinnedRoot pinnedRootId (some otherWrapped.nonce)]

theorem pinnedCalls_seals : pinnedCalls.flatMap (·.seals pinnedAead) = pinnedSeals := by
  decide +kernel

theorem pinnedSeals_nonces : (pinnedSeals.map (·.nonce)).Nodup := by
  decide +kernel

/-- The four nonces differ, so a look-up under one of them finds the seal that was made with it. -/
theorem find?_pinnedSeals {p : Sealed KeyBytes Nonce → Bool} {s : Sealed KeyBytes Nonce}
    (hs : s ∈ pinnedSeals) (hp : p s = true) (honly : ∀ s', p s' = true → s'.nonce = s.nonce) :
    pinnedSeals.find? p = some s := by
  cases hfind : pinnedSeals.find? p with
  | none => exact absurd hp (by simpa using List.find?_eq_none.mp hfind s hs)
  | some s' =>
      rw [List.inj_on_of_nodup_map pinnedSeals_nonces (List.mem_of_find?_eq_some hfind) hs
        (honly s' (List.find?_some hfind))]

theorem pinnedAead_ideal : pinnedAead.Ideal (pinnedCalls.flatMap (·.seals pinnedAead)) := by
  intro key nonce aad plaintext ciphertext
  rw [pinnedCalls_seals]
  unfold pinnedAead
  dsimp only
  constructor
  · intro h
    obtain ⟨s, hfind, rfl⟩ := Option.map_eq_some_iff.mp h
    have hmeets := List.find?_some hfind
    rw [decide_eq_true_eq] at hmeets
    obtain ⟨rfl, rfl, rfl, rfl⟩ := hmeets
    exact List.mem_of_find?_eq_some hfind
  · intro h
    have hfind : pinnedSeals.find? (fun s =>
        s.key = key ∧ s.nonce = nonce ∧ s.aad = aad ∧ s.ciphertext = ciphertext) =
          some ⟨key, nonce, aad, plaintext, ciphertext⟩ := by
      apply find?_pinnedSeals h
      · simp
      · intro s' hs'
        rw [decide_eq_true_eq] at hs'
        exact hs'.2.1
    rw [hfind]
    rfl

theorem pinnedAead_tagged : pinnedAead.Tagged := by
  intro key nonce aad plaintext ciphertext h
  obtain ⟨s, hfind, rfl⟩ := Option.map_eq_some_iff.mp h
  have hmeets := List.find?_some hfind
  rw [decide_eq_true_eq] at hmeets
  rw [← hmeets.2.2.2]
  have hall : ∀ s ∈ pinnedSeals, s.ciphertext.length = s.plaintext.length + 16 := by decide +kernel
  exact hall s (List.mem_of_find?_eq_some hfind)

theorem pinnedCalls_fresh : SealCall.Fresh pinnedCalls := ⟨by decide +kernel, by decide +kernel⟩

/-- The seal record that `init` has stored. -/
def pinnedMeta : MetaTable :=
  (exec (MetaTable.storeSeal MetaTable.noFault ⟨StaticSeal.id, pinnedWrapped⟩) []).2

def rotatedMeta : Except CliError Unit × MetaTable :=
  exec (rotateMasterKey pinnedAead "ciphr.db" (.ok ()) (.ok ()) (.ok ()) (.ok pinnedSeal)
    (.ok otherSeal) (some otherWrapped.nonce)
    ⟨MetaTable.noFault, MetaTable.noFault, MetaTable.noFault⟩) pinnedMeta

/-- The pinned value is decrypted, is refused under another version, and is decrypted with the new
master key after the rotation. -/
theorem envelope_binding_of_pinned :
    decrypt pinnedAead pinnedRoot dbPassword .first pinnedValue = .ok pinnedPlaintext ∧
      (∀ version, version ≠ .first →
        decrypt pinnedAead pinnedRoot dbPassword version pinnedValue = .error .aead) ∧
      rotatedMeta.1 = .ok () ∧
      ∃ state, MetaTable.sealState MetaTable.noFault rotatedMeta.2 = .ok (some state) ∧
        (otherSeal.unsealKey pinnedAead state.wrappedRootKey >>= fun root =>
          decrypt pinnedAead root dbPassword .first pinnedValue) = .ok pinnedPlaintext := by
  have hstored : Stored pinnedAead pinnedCalls pinnedRoot dbPassword .first pinnedPlaintext pinnedValue :=
    ⟨pinnedDraws, by simp [pinnedCalls], by decide +kernel⟩
  have hrotated : rotatedMeta.1 = .ok () := by decide +kernel
  obtain ⟨hround, hbound, -, -, -, hrotate⟩ :=
    envelope_binding pinnedAead_ideal pinnedAead_tagged pinnedCalls_fresh
  refine ⟨hround _ _ _ _ _ hstored, ?_, hrotated, ?_⟩
  · intro version hversion
    exact hbound _ _ _ _ _ hstored pinnedRoot dbPassword version pinnedValue.dekId
      (.inr (.inr (.inl hversion)))
  · obtain ⟨state, hstate, -, -, hdecrypts⟩ := hrotate "ciphr.db" (.ok ()) (.ok ()) (.ok ())
      (.ok pinnedSeal) (.ok otherSeal) (some otherWrapped.nonce)
      ⟨MetaTable.noFault, MetaTable.noFault, MetaTable.noFault⟩ pinnedMeta rotatedMeta.2 pinnedSeal
      otherSeal ⟨StaticSeal.id, pinnedWrapped⟩ pinnedRoot (Prod.ext hrotated rfl) rfl rfl
      (by decide +kernel) (by decide +kernel) (by simp [pinnedCalls, pinnedWrapped])
    exact ⟨state, hstate, hdecrypts _ _ _ _ hstored⟩

end Sample

end Ciphr
