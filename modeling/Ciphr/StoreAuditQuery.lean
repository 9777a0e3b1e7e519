import Ciphr.StoreAudit

/-!
`ciphr-store/src/audit.rs`: reading a page of the audit log. SQLite's JSON functions are a parameter;
they are asked only where a filter needs them, and only for the rows a page gets to.
-/

namespace Ciphr

/-- Which end of the trail a page comes from, and where it continues from. -/
inductive AuditWindow where
  | oldest (afterSeq : Option UInt64)
  | newest (beforeSeq : Option UInt64)
  deriving DecidableEq, Repr

structure AuditFilter where
  limit : UInt32
  window : AuditWindow
  since : Option Int
  identity : Option String
  path : Option String
  allowed : Option Bool
  deriving DecidableEq, Repr

/-- What the query reads inside a payload. -/
structure PayloadFields where
  principalName : Option String
  path : Option String
  allowed : Option Bool
  deriving DecidableEq, Repr

/-- `json_extract` on a payload; nothing where it is not JSON. -/
abbrev JsonExtract := String → Option PayloadFields

/-- `i64::try_from(seq).unwrap_or(i64::MAX)`. -/
def cursorColumn (seq : UInt64) : Int := min seq.toNat (2 ^ 63 - 1)

namespace AuditFilter

variable (json : JsonExtract) (filter : AuditFilter)

def inWindow (row : AuditLogRow) : Bool :=
  match filter.window with
  | .oldest afterSeq => afterSeq.all fun seq => cursorColumn seq < row.seq
  | .newest beforeSeq => beforeSeq.all fun seq => row.seq < cursorColumn seq

/-- Whether a filter asks for anything inside the payload. -/
def looksInside : Bool := filter.identity.isSome || filter.path.isSome || filter.allowed.isSome

def admits (fields : PayloadFields) : Bool :=
  filter.identity.all (fields.principalName == some ·) && filter.path.all (fields.path == some ·) &&
    filter.allowed.all (fields.allowed == some ·)

/-- The `WHERE` clause. -/
def selects (row : AuditLogRow) : Except StoreError Bool :=
  if filter.inWindow row && filter.since.all (· ≤ row.ts) then
    if filter.looksInside then
      match json row.payload with
      | some fields => .ok (filter.admits fields)
      | none => .error (.sqlite "malformed JSON")
    else .ok true
  else .ok false

/-- The first rows that are selected, at most `limit` of them. -/
def page : (limit : Nat) → List AuditLogRow → Except StoreError (List AuditLogRow)
  | 0, _ => .ok []
  | _ + 1, [] => .ok []
  | limit + 1, row :: rows => do
      if ← filter.selects json row then
        let rest ← page limit rows
        .ok (row :: rest)
      else page (limit + 1) rows

end AuditFilter

namespace Database

/-- The rows of a page, in chain order from whichever end they are taken. -/
def queriedRows (json : JsonExtract) (db : Database) (filter : AuditFilter) :
    Except StoreError (List AuditLogRow) :=
  match filter.window with
  | .oldest _ => filter.page json filter.limit.toNat db.orderedRows
  | .newest _ => (filter.page json filter.limit.toNat db.orderedRows.reverse).map List.reverse

def auditQuery (json : JsonExtract) (db : Database) (filter : AuditFilter) :
    Except StoreError (List Row) := do
  let rows ← db.queriedRows json filter
  rows.mapM decodeRow

end Database

end Ciphr
