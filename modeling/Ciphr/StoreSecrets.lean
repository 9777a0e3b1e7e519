import Ciphr.LibProgram
import Ciphr.CryptoEnvelope
import Ciphr.Errors

/-!
`ciphr-store/src/sqlite.rs`: secrets and their versions. A table is the list of its rows in the order
of their insertion, the clock is an input, and so is what the database answers instead of performing
a statement. A single statement is atomic, and the constraints of the schema are checked by it.
-/

namespace Ciphr

/-- A row of `secrets`. -/
structure SecretRow where
  id : Nat
  path : String
  currentVersion : Int
  rotation : String
  createdAt : Int
  updatedAt : Int
  honeypotTier : Option String
  deriving DecidableEq, Repr

/-- A row of `secret_versions`. -/
structure VersionRow where
  secretId : Nat
  version : Int
  dekId : String
  dekNonce : List UInt8
  wrappedDek : List UInt8
  valueNonce : List UInt8
  ciphertext : List UInt8
  createdAt : Int
  createdBy : String
  deletedAt : Option Int
  destroyedAt : Option Int
  deriving DecidableEq, Repr

structure SecretTables where
  secrets : List SecretRow
  versions : List VersionRow
  deriving DecidableEq, Repr

/-- The statements of one operation. -/
inductive SecretStatement where
  | beginTransaction
  | selectSecret
  | insertSecret
  | insertVersion
  | updateSecret
  | selectVersion
  | updateVersion
  | commit
  deriving DecidableEq, Repr

/-- What the database answers instead of performing a statement, if anything. -/
abbrev SecretFault := SecretStatement → Option String

/-- `u32::try_from` on a column. -/
def u32TryFrom (n : Int) : Option UInt32 :=
  if 0 ≤ n ∧ n < 2 ^ 32 then some (.ofNat n.toNat) else none

structure StoredVersion (u : Unicode) where
  path : SecretPath u
  version : SecretVersion
  value : EncryptedValue
  createdAt : Int
  createdBy : String
  deriving DecidableEq

def toNonce (bytes : List UInt8) (what : String) : Except StoreError Nonce :=
  if h : bytes.length = 12 then .ok ⟨bytes.toArray, by simpa using h⟩
  else .error (.corrupt ("the stored " ++ what ++ " is not 12 bytes"))

theorem toNonce_toList (nonce : Nonce) (what : String) : toNonce nonce.toList what = .ok nonce := by
  unfold toNonce
  rw [dif_pos (by simp)]
  congr 1

def outOfRange (path : String) : StoreError :=
  .corrupt ("current_version of '" ++ path ++ "' is out of range")

variable {u : Unicode}

def rejectReserved (path : SecretPath u) : Except StoreError Unit :=
  if path.isReserved then .error (.reserved path.text) else .ok ()

namespace SecretTables

variable (fault : SecretFault)

/-- A statement the database refuses ends the operation with its error. -/
def answer (statement : SecretStatement) : Except StoreError Unit :=
  match fault statement with
  | some error => .error (.sqlite error)
  | none => .ok ()

/-- The row of a version, in a statement's condition. -/
def isVersion (secretId : Nat) (version : SecretVersion) (row : VersionRow) : Bool :=
  row.secretId == secretId && row.version == version.number

section Read

variable (tables : SecretTables)

def secretId (path : SecretPath u) : Except StoreError (Option (Nat × UInt32 × Rotation)) := do
  answer fault .selectSecret
  match tables.secrets.find? (·.path == path.text) with
  | none => .ok none
  | some row =>
      match u32TryFrom row.currentVersion with
      | none => .error (outOfRange path.text)
      | some current => do
          let rotation ← (Rotation.parse row.rotation).mapError .rotation
          .ok (some (row.id, current, rotation))

def requireSecret (path : SecretPath u) : Except StoreError (Nat × UInt32 × Rotation) := do
  match ← tables.secretId fault path with
  | none => .error (.notFound path.text)
  | some found => .ok found

def versionRow (secretId : Nat) (version : SecretVersion) : Option VersionRow :=
  tables.versions.find? (isVersion secretId version)

/-- The version that was asked for, or else the current one. -/
def wantedVersion (path : SecretPath u) (current : UInt32) :
    Option SecretVersion → Except StoreError SecretVersion
  | some version => .ok version
  | none =>
      match SecretVersion.new current with
      | some version => .ok version
      | none => .error (.notFound path.text)

def get (path : SecretPath u) (version : Option SecretVersion) :
    Except StoreError (StoredVersion u) := do
  let (secretId, current, _) ← tables.requireSecret fault path
  let wanted ← wantedVersion path current version
  answer fault .selectVersion
  match tables.versionRow secretId wanted with
  | none => .error (.versionNotFound path.text wanted)
  | some row =>
      if row.destroyedAt.isSome then .error (.versionDestroyed path.text wanted)
      else if row.deletedAt.isSome then .error (.versionDeleted path.text wanted)
      else do
        let dekId ← (DekId.fromHex row.dekId).mapError fun _ =>
          .corrupt "a stored data key identifier is not valid hexadecimal"
        let dekNonce ← toNonce row.dekNonce "data key nonce"
        let valueNonce ← toNonce row.valueNonce "value nonce"
        .ok ⟨path, wanted, ⟨dekId, dekNonce, row.wrappedDek, valueNonce, row.ciphertext⟩,
          row.createdAt, row.createdBy⟩

/-- Whether the version is destroyed, when it exists. -/
def versionExists (path : SecretPath u) (secretId : Nat) (version : SecretVersion) :
    Except StoreError Bool := do
  answer fault .selectVersion
  match tables.versionRow secretId version with
  | none => .error (.versionNotFound path.text version)
  | some row => .ok row.destroyedAt.isSome

end Read

/-! ### Statements that write -/

abbrev Statement (α : Type) := Program SecretTables StoreError α

/-- The number of the next row of `secrets`: one above the largest. -/
def freshId (tables : SecretTables) : Nat := (tables.secrets.map (·.id)).foldl max 0 + 1

/-- The next row of `secrets`; `path` is unique. -/
def insertSecret (path rotation : String) (now : Int) : Statement Nat := do
  Program.ofExcept (answer fault .insertSecret)
  let tables ← getThe SecretTables
  if tables.secrets.any (·.path == path) then
    throw (.sqlite "UNIQUE constraint failed: secrets.path")
  else do
    modify fun tables =>
      { tables with
        secrets := tables.secrets ++ [⟨tables.freshId, path, 0, rotation, now, now, none⟩] }
    return tables.freshId

/-- `secret_id` refers to a row of `secrets`, and with `version` it is the primary key. -/
def insertVersion (row : VersionRow) : Statement Unit := do
  Program.ofExcept (answer fault .insertVersion)
  let tables ← getThe SecretTables
  if tables.versions.any (fun other => other.secretId == row.secretId && other.version == row.version)
  then
    throw (.sqlite
      "UNIQUE constraint failed: secret_versions.secret_id, secret_versions.version")
  else if !tables.secrets.any (·.id == row.secretId) then
    throw (.sqlite "FOREIGN KEY constraint failed")
  else modify fun tables => { tables with versions := tables.versions ++ [row] }

/-- The rows that meet a condition, changed. -/
def setSecrets (cond : SecretRow → Bool) (set : SecretRow → SecretRow) (tables : SecretTables) :
    SecretTables :=
  { tables with secrets := tables.secrets.map fun row => if cond row then set row else row }

def setVersions (cond : VersionRow → Bool) (set : VersionRow → VersionRow) (tables : SecretTables) :
    SecretTables :=
  { tables with versions := tables.versions.map fun row => if cond row then set row else row }

/-- `UPDATE secrets SET … WHERE`, and how many rows it changed. -/
def updateSecrets (cond : SecretRow → Bool) (set : SecretRow → SecretRow) : Statement Nat := do
  Program.ofExcept (answer fault .updateSecret)
  let tables ← getThe SecretTables
  modify (setSecrets cond set)
  return tables.secrets.countP cond

/-- `UPDATE secret_versions SET … WHERE`, and how many rows it changed. -/
def updateVersions (cond : VersionRow → Bool) (set : VersionRow → VersionRow) : Statement Nat := do
  Program.ofExcept (answer fault .updateVersion)
  let tables ← getThe SecretTables
  modify (setVersions cond set)
  return tables.versions.countP cond

/-! ### Operations -/

/-- The callback that encrypts a value for the version it is stored under. -/
abbrev EncryptForVersion := SecretVersion → Except CryptoError EncryptedValue

/-- The number and the current version of a path's row, which is made when there is none. -/
def findOrInsert (path : SecretPath u) (now : Int) : Statement (Nat × Int) := do
  Program.ofExcept (answer fault .selectSecret)
  let tables ← getThe SecretTables
  match tables.secrets.find? (·.path == path.text) with
  | some row => pure (row.id, row.currentVersion)
  | none => do
      let id ← insertSecret fault path.text Rotation.unclassified.asStr now
      pure (id, 0)

def nextVersion (path : SecretPath u) (current : Int) : Except StoreError SecretVersion :=
  match u32TryFrom current with
  | none => .error (outOfRange path.text)
  | some current =>
      match SecretVersion.new current with
      | none => .ok .first
      | some version =>
          match version.next with
          | some next => .ok next
          | none => .error (.versionOverflow path.text)

/-- The row that `put_with_rotation` inserts. -/
def newVersion (secretId : Nat) (next : SecretVersion) (value : EncryptedValue) (createdBy : String)
    (now : Int) : VersionRow :=
  ⟨secretId, next.number, value.dekId.toHex, value.dekNonce.toList, value.wrappedDek,
    value.valueNonce.toList, value.ciphertext, now, createdBy, none, none⟩

/-- The update that publishes a version; a class that is not named stays as it is. -/
def publish (next : SecretVersion) (rotation : Option Rotation) (now : Int) (row : SecretRow) :
    SecretRow :=
  { row with
    currentVersion := next.number, updatedAt := now,
    rotation := (rotation.map Rotation.asStr).getD row.rotation }

/-- What `put_with_rotation` does between the start and the end of its transaction. -/
def putRows (path : SecretPath u) (createdBy : String) (rotation : Option Rotation)
    (encrypt : EncryptForVersion) (now : Int) : Statement SecretVersion := do
  let found ← findOrInsert fault path now
  let next ← Program.ofExcept (nextVersion path found.2)
  let value ← Program.ofExcept ((encrypt next).mapError fun error => .crypto error.text)
  insertVersion fault (newVersion found.1 next value createdBy now)
  let _ ← updateSecrets fault (·.id == found.1) (publish next rotation now)
  return next

def putWithRotation (path : SecretPath u) (createdBy : String) (rotation : Option Rotation)
    (encrypt : EncryptForVersion) (now : Int) : Statement SecretVersion := do
  Program.ofExcept (rejectReserved path)
  Program.transaction do
    Program.ofExcept (answer fault .beginTransaction)
    let next ← putRows fault path createdBy rotation encrypt now
    Program.ofExcept (answer fault .commit)
    return next

/-- What `set_rotation` sets in the row of a path. -/
def reclassified (rotation : Rotation) (now : Int) (row : SecretRow) : SecretRow :=
  { row with rotation := rotation.asStr, updatedAt := now }

def setRotation (path : SecretPath u) (rotation : Rotation) (now : Int) : Statement Unit := do
  let changed ← updateSecrets fault (·.path == path.text) (reclassified rotation now)
  if changed = 0 then throw (.notFound path.text) else return ()

/-- The row that `delete` changes. -/
def undeleted (secretId : Nat) (version : SecretVersion) (row : VersionRow) : Bool :=
  isVersion secretId version row && row.deletedAt.isNone

def deletedRow (now : Int) (row : VersionRow) : VersionRow := { row with deletedAt := some now }

def restoredRow (row : VersionRow) : VersionRow := { row with deletedAt := none }

/-- Without the wrapped data key the ciphertext cannot be decrypted. -/
def destroyedRow (now : Int) (row : VersionRow) : VersionRow :=
  { row with wrappedDek := [], destroyedAt := row.destroyedAt <|> some now }

def delete (path : SecretPath u) (version : SecretVersion) (now : Int) : Statement Unit := do
  Program.ofExcept (rejectReserved path)
  let tables ← getThe SecretTables
  let found ← Program.ofExcept (tables.requireSecret fault path)
  let changed ← updateVersions fault (undeleted found.1 version) (deletedRow now)
  if changed = 0 then do
    -- no such version is an error; one that is deleted already is not
    let tables ← getThe SecretTables
    let _ ← Program.ofExcept (tables.versionExists fault path found.1 version)
    return ()
  else return ()

def undelete (path : SecretPath u) (version : SecretVersion) : Statement Unit := do
  let tables ← getThe SecretTables
  let found ← Program.ofExcept (tables.requireSecret fault path)
  let destroyed ← Program.ofExcept (tables.versionExists fault path found.1 version)
  if destroyed then throw (.versionDestroyed path.text version)
  else do
    let _ ← updateVersions fault (isVersion found.1 version) restoredRow
    return ()

def destroy (path : SecretPath u) (version : SecretVersion) (now : Int) : Statement Unit := do
  let tables ← getThe SecretTables
  let found ← Program.ofExcept (tables.requireSecret fault path)
  let _ ← Program.ofExcept (tables.versionExists fault path found.1 version)
  let _ ← updateVersions fault (isVersion found.1 version) (destroyedRow now)
  return ()

end SecretTables

end Ciphr
