import Ciphr.LibFold
import Ciphr.StoreSecrets

/-!
The seal: `ciphr-crypto/src/seal.rs`, the seal record in the `meta` table of
`ciphr-store/src/sqlite.rs`, and `ciphr rotate-master-key`. The table is the list of its rows, and
what the database answers instead of performing a statement is an input.
-/

namespace Ciphr

open Program

structure StaticSeal where
  master : MasterKey
  deriving DecidableEq, Repr

namespace StaticSeal

def id : String := "static"

variable (aead : Aead KeyBytes Nonce) (mechanism : StaticSeal)

/-- `Seal::unseal`. -/
def unsealKey (wrapped : WrappedRootKey) : Except CryptoError RootKey :=
  unwrapRootKey aead mechanism.master wrapped

def rewrap (root : RootKey) (id : RootKeyId) (nonce : Option Nonce) :
    Except CryptoError WrappedRootKey :=
  wrapRootKey aead mechanism.master root id nonce

end StaticSeal

structure SealState where
  sealId : String
  wrappedRootKey : WrappedRootKey
  deriving DecidableEq, Repr

/-- The rows of `meta`: a key and its value. -/
abbrev MetaTable := List (String × String)

inductive MetaStatement where
  | read (key : String)
  | beginTransaction
  | write (key : String)
  | commit
  deriving DecidableEq, Repr

abbrev MetaFault := MetaStatement → Option String

def metaSealId : String := "seal_id"

def metaRootKeyId : String := "root_key_id"

def metaRootKeyNonce : String := "root_key_nonce"

def metaRootKeyWrapped : String := "root_key_wrapped"

namespace MetaTable

variable (fault : MetaFault)

def answer (statement : MetaStatement) : Except StoreError Unit :=
  match fault statement with
  | some error => .error (.sqlite error)
  | none => .ok ()

section Read

variable (table : MetaTable)

def readMeta (key : String) : Except StoreError (Option String) := do
  answer fault (.read key)
  .ok ((table.find? (·.1 == key)).map (·.2))

def decodeNonce (input what : String) : Except StoreError Nonce :=
  match Hex.decode input with
  | .error _ => .error (.corrupt ("the stored " ++ what ++ " is not valid hexadecimal"))
  | .ok bytes => toNonce bytes what

/-- A record is complete or absent. -/
def sealState : Except StoreError (Option SealState) := do
  let sealId ← table.readMeta fault metaSealId
  let rootKeyId ← table.readMeta fault metaRootKeyId
  let nonce ← table.readMeta fault metaRootKeyNonce
  let wrapped ← table.readMeta fault metaRootKeyWrapped
  match sealId, rootKeyId, nonce, wrapped with
  | none, none, none, none => .ok none
  | some sealId, some rootKeyId, some nonce, some wrapped => do
      let id ← (RootKeyId.fromHex rootKeyId).mapError fun _ =>
        .corrupt "the stored root key identifier is not valid hexadecimal"
      let nonce ← decodeNonce nonce "root key nonce"
      let ciphertext ← (Hex.decode wrapped).mapError fun _ =>
        .corrupt "the wrapped root key is not valid hexadecimal"
      .ok (some ⟨sealId, ⟨id, nonce, ciphertext⟩⟩)
  | _, _, _, _ => .error (.corrupt "the seal record is incomplete")

end Read

/-- `INSERT … ON CONFLICT(key) DO UPDATE`. -/
def upsert (table : MetaTable) (key value : String) : MetaTable :=
  if table.any (·.1 == key) then table.map fun row => if row.1 == key then (key, value) else row
  else table ++ [(key, value)]

def writeMeta (key value : String) : Program MetaTable StoreError Unit := do
  Program.ofExcept (answer fault (.write key))
  modify fun table => upsert table key value

def writeSeal (state : SealState) : Program MetaTable StoreError Unit := do
  writeMeta fault metaSealId state.sealId
  writeMeta fault metaRootKeyId state.wrappedRootKey.id.toHex
  writeMeta fault metaRootKeyNonce (Hex.encode state.wrappedRootKey.nonce.toList)
  writeMeta fault metaRootKeyWrapped (Hex.encode state.wrappedRootKey.ciphertext)

/-- The four rows, in one transaction. -/
def storeSeal (state : SealState) : Program MetaTable StoreError Unit :=
  Program.transaction do
    Program.ofExcept (answer fault .beginTransaction)
    writeSeal fault state
    Program.ofExcept (answer fault .commit)

def replaceSeal (state : SealState) : Program MetaTable StoreError Unit := do
  let table ← getThe MetaTable
  let found ← Program.ofExcept (table.sealState fault)
  match found with
  | none => throw .notInitialized
  | some current =>
      -- a re-wrap protects the same key
      if current.wrappedRootKey.id ≠ state.wrappedRootKey.id then
        throw (.corrupt "the replacement seal record is for a different root key")
      else storeSeal fault state

/-! ### What was written is read back -/

theorem find?_map_self {rows : MetaTable} {key : String} (value : String)
    (hany : rows.any (·.1 == key) = true) :
    (rows.map fun row => if row.1 == key then (key, value) else row).find? (·.1 == key) =
      some (key, value) := by
  induction rows with
  | nil => simp at hany
  | cons row rows ih =>
      rw [List.map_cons]
      by_cases h : row.1 = key
      · rw [if_pos (beq_iff_eq.mpr h)]
        exact List.find?_cons_of_pos (beq_self_eq_true key)
      · rw [if_neg (by simpa using h), List.find?_cons_of_neg (by simpa using h)]
        exact ih (by simpa [h] using hany)

theorem find?_map_other (rows : MetaTable) {key other : String} (value : String) (hne : key ≠ other) :
    (rows.map fun row => if row.1 == key then (key, value) else row).find? (·.1 == other) =
      rows.find? (·.1 == other) := by
  induction rows with
  | nil => rfl
  | cons row rows ih =>
      rw [List.map_cons]
      by_cases h : row.1 = key
      · rw [if_pos (beq_iff_eq.mpr h), List.find?_cons_of_neg (by simpa using hne),
          List.find?_cons_of_neg (by rw [h]; simpa using hne), ih]
      · rw [if_neg (by simpa using h), List.find?_cons, List.find?_cons, ih]

/-- The row that was written is the one that is read; the others are as they were. -/
theorem find?_upsert (table : MetaTable) (key value other : String) :
    ((upsert table key value).find? (·.1 == other)).map (·.2) =
      if key = other then some value else (table.find? (·.1 == other)).map (·.2) := by
  unfold upsert
  by_cases hkey : key = other
  · rw [if_pos hkey, ← hkey]
    by_cases hany : table.any (·.1 == key) = true
    · rw [if_pos hany, find?_map_self value hany]
      rfl
    · have hnone : table.find? (·.1 == key) = none := by
        apply List.find?_eq_none.mpr
        intro row hrow hmeets
        exact hany (List.any_eq_true.mpr ⟨row, hrow, hmeets⟩)
      rw [if_neg hany, List.find?_append, hnone]
      simp
  · rw [if_neg hkey]
    split
    · rw [find?_map_other table value hkey]
    · rw [List.find?_append]
      simp [hkey]

theorem exec_writeMeta {fault : MetaFault} {table table' : MetaTable} {key value : String} {x : Unit}
    (h : exec (writeMeta fault key value) table = (.ok x, table')) :
    table' = upsert table key value := by
  unfold writeMeta at h
  obtain ⟨-, -, hrest⟩ := exec_ofExcept_bind_eq_ok h
  rw [exec_modify, Prod.mk.injEq] at hrest
  exact hrest.2.symm

/-- The record that a table holds when every statement is performed. -/
def noFault : MetaFault := fun _ => none

theorem sealState_of_rows {table : MetaTable} {state : SealState}
    (hsealId : (table.find? (·.1 == metaSealId)).map (·.2) = some state.sealId)
    (hid : (table.find? (·.1 == metaRootKeyId)).map (·.2) = some state.wrappedRootKey.id.toHex)
    (hnonce : (table.find? (·.1 == metaRootKeyNonce)).map (·.2) =
      some (Hex.encode state.wrappedRootKey.nonce.toList))
    (hwrapped : (table.find? (·.1 == metaRootKeyWrapped)).map (·.2) =
      some (Hex.encode state.wrappedRootKey.ciphertext)) :
    sealState noFault table = .ok (some state) := by
  simp only [sealState, readMeta, answer, noFault, bind, Except.bind, hsealId, hid, hnonce, hwrapped,
    RootKeyId.fromHex_toHex, Except.mapError, decodeNonce, Hex.decode_encode, toNonce_toList]

theorem sealState_storeSeal {fault : MetaFault} {table table' : MetaTable} {state : SealState}
    {x : Unit} (h : exec (storeSeal fault state) table = (.ok x, table')) :
    sealState noFault table' = .ok (some state) := by
  have hdone : ∃ y, exec (do
      Program.ofExcept (answer fault .beginTransaction)
      writeSeal fault state
      Program.ofExcept (answer fault .commit)) table = (.ok y, table') := by
    rcases exec_transaction (do
      Program.ofExcept (answer fault .beginTransaction)
      writeSeal fault state
      Program.ofExcept (answer fault .commit)) table with ⟨e, t, -, hrolled⟩ | ⟨y, t, hdone, hcommitted⟩
    · unfold storeSeal at h
      rw [hrolled] at h
      simp at h
    · unfold storeSeal at h
      rw [hcommitted, Prod.mk.injEq] at h
      exact ⟨y, h.2 ▸ hdone⟩
  obtain ⟨y, hdone⟩ := hdone
  obtain ⟨-, -, hrest⟩ := exec_ofExcept_bind_eq_ok hdone
  obtain ⟨_, table'', hwrite, hcommit⟩ := exec_bind_eq_ok hrest
  have htable : table'' = table' := by
    rw [exec_ofExcept, Prod.mk.injEq] at hcommit
    exact hcommit.2
  rw [htable] at hwrite
  unfold writeSeal at hwrite
  obtain ⟨_, t₁, hsealId, hwrite⟩ := exec_bind_eq_ok hwrite
  obtain ⟨_, t₂, hid, hwrite⟩ := exec_bind_eq_ok hwrite
  obtain ⟨_, t₃, hnonce, hwrapped⟩ := exec_bind_eq_ok hwrite
  rw [exec_writeMeta hwrapped, exec_writeMeta hnonce, exec_writeMeta hid, exec_writeMeta hsealId]
  -- the four keys differ, so each row is the one that was written last under its key
  apply sealState_of_rows
  · rw [find?_upsert, find?_upsert, find?_upsert, find?_upsert]
    rfl
  · rw [find?_upsert, find?_upsert, find?_upsert]
    rfl
  · rw [find?_upsert, find?_upsert]
    rfl
  · rw [find?_upsert]
    rfl

end MetaTable

end Ciphr
