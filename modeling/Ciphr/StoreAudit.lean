import Mathlib.Data.List.Sort
import Ciphr.AuditVerify
import Ciphr.AuditDevice
import Ciphr.Errors

/-!
`ciphr-store/src/audit.rs`: the SQLite audit device, and the chain a restart continues. The tables
are lists of rows; a statement either takes effect as a whole or fails with the database's error.
-/

namespace Ciphr

structure AuditLogRow where
  seq : Int
  ts : Int
  prevHash : String
  hash : String
  payload : String
  deriving DecidableEq, Repr

structure AuditCutRow where
  cutAt : Int
  seq : Int
  hash : String
  removed : Int
  anchor : Option String
  deriving DecidableEq, Repr

/-- The audit tables of the database; `auditCut` is `none` where a schema from before cutting has
no such table. The rows of `audit_cut` stand in the order of their ids. -/
structure Database where
  auditLog : List AuditLogRow
  auditCut : Option (List AuditCutRow)
  deriving DecidableEq, Repr

structure AuditCut where
  cutAt : Int
  seq : Nat
  hash : Hash
  removed : Nat
  anchor : Option String
  deriving DecidableEq

def AuditCut.asStart (cut : AuditCut) : Start := .afterCut cut.seq cut.hash

def decodeHash (stored : String) : Except StoreError Hash :=
  match Hex.decodeInto stored (List.replicate 32 0) with
  | (bytes, .ok ()) =>
      if h : bytes.length = 32 then .ok ⟨bytes.toArray, Hex.size_toArray_of_length h⟩
      else .error (.corrupt "a stored audit hash is not a chain hash")
  | (_, .error _) => .error (.corrupt "a stored audit hash is not a chain hash")

theorem decodeHash_encode (hash : Hash) : decodeHash (Hex.encode hash.toList) = .ok hash := by
  unfold decodeHash
  rw [Hex.decodeInto_encode _ _ (by simp)]
  dsimp only
  rw [dif_pos (by simp)]
  congr 1

def decodeCount (stored : Int) : Except StoreError Nat :=
  if 0 ≤ stored then .ok stored.toNat
  else .error (.corrupt "an audit sequence number or count is negative")

namespace Database

/-- `ORDER BY seq DESC LIMIT 1`. -/
def latestRow : List AuditLogRow → Option AuditLogRow
  | [] => none
  | row :: rows =>
      match latestRow rows with
      | none => some row
      | some other => if row.seq < other.seq then some other else some row

/-- `INSERT`: the sequence number is the primary key. -/
def insertAuditLog (db : Database) (row : AuditLogRow) : Except String Database :=
  if db.auditLog.any (·.seq == row.seq) then .error "UNIQUE constraint failed: audit_log.seq"
  else .ok { db with auditLog := db.auditLog ++ [row] }

def headOf (db : Database) : Except StoreError (Option (Nat × Hash)) :=
  match latestRow db.auditLog with
  | none => .ok none
  | some row => do
      let seq ← decodeCount row.seq
      let hash ← decodeHash row.hash
      .ok (some (seq, hash))

def latestCutOf (db : Database) : Except StoreError (Option AuditCut) :=
  match db.auditCut.bind (·.getLast?) with
  | none => .ok none
  | some row => do
      let seq ← decodeCount row.seq
      let hash ← decodeHash row.hash
      let removed ← decodeCount row.removed
      .ok (some ⟨row.cutAt, seq, hash, removed, row.anchor⟩)

def startOf (db : Database) : Except StoreError Start := do
  match ← db.latestCutOf with
  | none => .ok .genesis
  | some cut => .ok cut.asStart

/-- The chain a restart has to continue. -/
def chainToContinue (db : Database) : Except StoreError Chain := do
  let head ← db.headOf
  let cut ← db.latestCutOf
  match head, cut with
  | some (seq, hash), some cut =>
      if seq ≤ cut.seq then
        .error (.corrupt ("a cut through sequence " ++ toString cut.seq ++
          " is recorded, but the audit log ends at " ++ toString seq ++
          ": records that survived the cut were removed without recording one"))
      else .ok (.resume seq hash)
  | some (seq, hash), none => .ok (.resume seq hash)
  | none, some cut =>
      .error (.corrupt ("the audit log is empty, but a cut through sequence " ++ toString cut.seq ++
        " is recorded, and a cut never empties it"))
  | none, none => .ok .new

/-! ### Reading and cutting -/

/-- One stored audit row, decoded. -/
structure Row where
  seq : Nat
  hash : Hash
  payload : String
  deriving DecidableEq

def Row.asStored (row : Row) : StoredRecord := ⟨row.seq, row.payload, some row.hash⟩

/-- One turn of the loop of `records` and of `audit_query`. -/
def decodeRow (row : AuditLogRow) : Except StoreError Row := do
  let seq ← if 0 ≤ row.seq then .ok row.seq.toNat
    else .error (.corrupt "an audit sequence number is negative")
  let hash ← decodeHash row.hash
  .ok ⟨seq, hash, row.payload⟩

/-- `ORDER BY seq`. -/
def orderedRows (db : Database) : List AuditLogRow :=
  db.auditLog.insertionSort fun row other => row.seq ≤ other.seq

def records (db : Database) : Except StoreError (List Row) := db.orderedRows.mapM decodeRow

/-- `audit_all`, which asks for at most `u32::MAX` rows. -/
def auditAll (db : Database) : Except StoreError (List Row) :=
  (db.orderedRows.take (2 ^ 32 - 1)).mapM decodeRow

def requireCutTable (db : Database) : Except StoreError Unit :=
  if db.auditCut.isSome then .ok ()
  else .error (.cutRefused ("this database has no table to record a cut in: it was migrated by a " ++
    "build from before cutting existed, and removing records without recording where would leave " ++
    "the remainder unverifiable"))

/-- A statement, when the database may answer with an error instead of performing it. -/
def statement (fault : Option String) : Except StoreError Unit :=
  match fault with
  | some error => .error (.sqlite error)
  | none => .ok ()

/-- The refusal of a cut that would move an earlier one backwards. -/
def checkPrevious (previous : Option AuditCut) (throughSeq : Nat) : Except StoreError Unit :=
  match previous with
  | some previous =>
      if throughSeq ≤ previous.seq then
        .error (.cutRefused ("a cut through sequence " ++ toString previous.seq ++
          " is already recorded, so cutting through " ++ toString throughSeq ++
          " would move it backwards"))
      else .ok ()
  | none => .ok ()

/-- The record that the cut ends at is the one that was verified. -/
def checkThrough (db : Database) (throughSeq : Nat) (throughHash : Hash) :
    Except StoreError Unit :=
  match db.auditLog.find? (·.seq == (throughSeq : Int)) with
  | none =>
      .error (.cutRefused ("the audit log has no record at sequence " ++ toString throughSeq))
  | some row => do
      let stored ← decodeHash row.hash
      if stored ≠ throughHash then
        .error (.cutRefused ("the record at sequence " ++ toString throughSeq ++
          " is not the one that was verified"))
      else .ok ()

/-- The cut is never one that leaves the table empty. -/
def checkRemaining (db : Database) (throughSeq : Nat) : Except StoreError Unit :=
  if (db.auditLog.filter fun row => (throughSeq : Int) < row.seq).length = 0 then
    .error (.cutRefused ("cutting through sequence " ++ toString throughSeq ++
      " would leave the queryable log empty"))
  else .ok ()

/-- The tables after a cut. -/
def afterCut (db : Database) (cut : AuditCut) : Database :=
  { auditLog := db.auditLog.filter fun row => (cut.seq : Int) < row.seq
    auditCut := db.auditCut.map (· ++ [⟨cut.cutAt, cut.seq, Hex.encode cut.hash.toList,
      min cut.removed (2 ^ 63 - 1), cut.anchor⟩]) }

/-- The transaction of `cut`; `fault` is what the database answers at each statement. -/
def cutTransaction (db : Database) (throughSeq : Nat) (throughHash : Hash) (nowMillis : Int)
    (anchor : Option String) (fault : Nat → Option String) : Except StoreError AuditCut := do
  if 2 ^ 63 ≤ throughSeq then
    .error (.cutRefused ("sequence " ++ toString throughSeq ++ " is out of range"))
  else do
    statement (fault 0)
    db.requireCutTable
    statement (fault 1)
    statement (fault 2)
    db.checkThrough throughSeq throughHash
    statement (fault 3)
    db.checkRemaining throughSeq
    statement (fault 4)
    let previous ← db.latestCutOf
    checkPrevious previous throughSeq
    -- the delete, the insert and the commit
    statement (fault 5)
    statement (fault 6)
    statement (fault 7)
    .ok ⟨nowMillis, throughSeq, throughHash,
      (db.auditLog.filter fun row => row.seq ≤ (throughSeq : Int)).length, anchor⟩

/-- Remove every record up to and including `throughSeq`, and record the cut. -/
def cut (db : Database) (throughSeq : Nat) (throughHash : Hash) (nowMillis : Int)
    (anchor : Option String) (fault : Nat → Option String) :
    Database × Except StoreError AuditCut :=
  match db.cutTransaction throughSeq throughHash nowMillis anchor fault with
  | .ok cut => (db.afterCut cut, .ok cut)
  | .error error => (db, .error error)

end Database

/-- A device that appends to `audit_log`; its connection leads to the database. -/
structure SqliteAuditDevice where
  name : String
  deriving DecidableEq, Repr

namespace SqliteAuditDevice

def opened (path : String) : SqliteAuditDevice := ⟨"sqlite:" ++ path⟩

/-- `i64::try_from(seq).unwrap_or(i64::MAX)`. -/
def columnSeq (seq : Nat) : Int := if seq < 2 ^ 63 then seq else 2 ^ 63 - 1

/-- The row of a record. -/
def rowOf (record : EncodedRecord) : AuditLogRow :=
  ⟨columnSeq record.seq, record.tsMillis, Hex.encode record.prevHash.toList,
    Hex.encode record.hash.toList, record.payload⟩

/-- `fault` is what the database answers instead of performing the statement. -/
def write (db : Database) (record : EncodedRecord) (fault : Option String) :
    Database × Except String Unit :=
  let result : Except String Database :=
    match fault with
    | some error => .error error
    | none => db.insertAuditLog (rowOf record)
  match result with
  | .ok db' => (db', .ok ())
  | .error error => (db, .error ("could not append to audit_log: " ++ error))

def headSeq (device : SqliteAuditDevice) (db : Database) (fault : Option String) :
    Except String (Option Nat) :=
  match fault with
  | some error => .error ("cannot read the head of " ++ device.name ++ ": " ++ error)
  | none => .ok ((Database.latestRow db.auditLog).map fun row => row.seq.toNat)

end SqliteAuditDevice

end Ciphr
