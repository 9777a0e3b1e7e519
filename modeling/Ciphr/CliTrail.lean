import Ciphr.LibScript
import Ciphr.Errors
import Ciphr.AuditAnchorFile
import Ciphr.AuditRetention

/-!
`ciphr audit anchor --out FILE` and `ciphr audit cut --anchor FILE`, in `ciphr-cli/src/main.rs`. Both
run beside the service and beside one another: no lock is taken, and each query, each transaction and
each call on the file happens by itself.
-/

namespace Ciphr

/-- The rows of one query: it asks for at most `u32::MAX` of them. -/
structure AuditRows where
  toList : List Database.Row
  length_lt : toList.length < 2 ^ 32

namespace AuditRows

/-- `stored_records`. -/
def storedRecords (rows : AuditRows) : RecordSlice :=
  ⟨rows.toList.map Database.Row.asStored, by
    rw [List.length_map]
    exact Nat.lt_trans rows.length_lt (by decide)⟩

end AuditRows

theorem Database.auditAll_length_lt {db : Database} {rows : List Database.Row}
    (h : db.auditAll = .ok rows) : rows.length < 2 ^ 32 := by
  have hlength := (Loop.mapM_eq_ok_iff.mp h).length_eq
  rw [List.length_take] at hlength
  omega

/-- What a command asks of the store, of the file and of the system, each in one step. -/
inductive TrailCall where
  | openReadOnly
  | requireCutTable
  | auditAll
  | auditStart
  | readToString
  /-- Whether the records to be removed are in the archive. -/
  | requireArchived (removing : List StoredRecord)
  | nowMillis
  /-- `OpenOptions` with `create` and `append`. -/
  | openAppend
  | writeLine (line : String)
  | syncAll
  | openDevice
  | cut (throughSeq : Nat) (throughHash : Hash) (nowMillis : Int) (anchor : Option String)

/-- What the calls return. A file that does not exist is read as `none`. -/
def TrailCall.Reply : TrailCall → Type
  | .openReadOnly => Except StoreError Unit
  | .requireCutTable => Except StoreError Unit
  | .auditAll => Except StoreError AuditRows
  | .auditStart => Except StoreError Start
  | .readToString => Except String (Option String)
  | .requireArchived _ => Except CliError Unit
  | .nowMillis => Int
  | .openAppend => Except String Unit
  | .writeLine _ => Except String Unit
  | .syncAll => Except String Unit
  | .openDevice => Except StoreError Unit
  | .cut _ _ _ _ => Except StoreError AuditCut

abbrev Command (α : Type) := Script TrailCall TrailCall.Reply CliError α

section Commands

open Script

variable (codec : Codec) (json : AnchorJson)

/-- The newest anchor of the file that a command was given, if there is one. -/
def previousAnchor (path : String) : Option String → Except CliError (Option Anchor)
  | none => .ok none
  | some text =>
      (Anchor.latest json text).mapError fun error => .audit (path ++ ": " ++ error.display)

/-- The chain, checked against the newest anchor where there is one. -/
def verifyPrevious (previous : Option Anchor) (start : Start) (records : RecordSlice) :
    Except CliError Verified :=
  match previous with
  | none => (codec.verifyFrom start records.toList).mapError .chainBroken
  | some anchor => (codec.verifyWithAnchor anchor start records).mapError .chainBroken

def appendAnchor (anchor : Anchor) : Command String := do
  let line := anchor.encode json
  ask .openAppend (·.mapError .io)
  ask (.writeLine line) (·.mapError .io)
  ask .syncAll (·.mapError .io)
  return line

/-- `take_anchor` with a file. -/
def takeAnchor (out : String) : Command Unit := do
  ask .openReadOnly (·.mapError .store)
  let rows ← ask .auditAll (·.mapError .store)
  let records := rows.storedRecords
  let start ← ask .auditStart (·.mapError .store)
  let text ← ask .readToString (·.mapError .io)
  let previous ← ofExcept (previousAnchor json out text)
  let verified ← ofExcept (verifyPrevious codec previous start records)
  if verified.headSeq = 0 then
    ofExcept (.error (.audit "the chain is empty, so there is no head to anchor"))
  else do
    let now ← ask .nowMillis .ok
    let _ ← appendAnchor json (.ofVerified verified now)
    return ()

/-- The arguments of `cut`. The command line takes no `--keep 0`. -/
structure CutArgs where
  keep : Nat
  keep_pos : 0 < keep
  anchorFile : String
  dryRun : Bool

def cutTrail (args : CutArgs) : Command Unit := do
  ask .openReadOnly (·.mapError .store)
  ask .requireCutTable (·.mapError .store)
  let rows ← ask .auditAll (·.mapError .store)
  let records := rows.storedRecords
  let start ← ask .auditStart (·.mapError .store)
  let text ← ask .readToString (·.mapError .io)
  let previous ← ofExcept (previousAnchor json args.anchorFile text)
  let _ ← ofExcept (verifyPrevious codec previous start records)
  if rows.toList.length ≤ args.keep then return ()
  else do
    let removing := rows.toList.length - args.keep
    let removed := records.toList.take removing
    let verified ← ofExcept ((codec.verifyFrom start removed).mapError .chainBroken)
    let now ← ask .nowMillis .ok
    let anchor := Anchor.ofVerified verified now
    ask (.requireArchived removed) id
    if args.dryRun then return ()
    else do
      let _ ← appendAnchor json anchor
      ask .openDevice (·.mapError .store)
      let now ← ask .nowMillis .ok
      let cut ← ask (.cut verified.headSeq verified.headHash now (some args.anchorFile))
        (·.mapError .store)
      let remainder ← ofExcept
        ((codec.verifyFrom cut.asStart (records.toList.drop removing)).mapError .chainBroken)
      let now ← ask .nowMillis .ok
      let _ ← appendAnchor json (.ofVerified remainder now)
      return ()

end Commands

/-! ### The store, the file, and the commands that are under way -/

/-- The service with its store, and the anchor file. -/
structure AnchoredTrail where
  trail : Trail
  file : Option String

/-- What decides a call beside the store and the file: the errors that the system answers with, the
clock, and whether the archive holds what is about to be removed. -/
structure TrailOutside where
  fault : Nat → Option String
  now : Int
  archived : Except CliError Unit

namespace AnchoredTrail

def text (s : AnchoredTrail) : String := s.file.getD ""

/-- A call on the system that may fail and changes nothing. -/
def attempt (fault : Option String) : Except String Unit :=
  match fault with
  | some error => .error error
  | none => .ok ()

/-- A query, on a database that may answer with an error instead. -/
def query {α : Type} (fault : Option String) (result : Except StoreError α) : Except StoreError α :=
  match fault with
  | some error => .error (.sqlite error)
  | none => result

def readRows (db : Database) : Except StoreError AuditRows :=
  match h : db.auditAll with
  | .ok rows => .ok ⟨rows, Database.auditAll_length_lt h⟩
  | .error error => .error error

def answer (s : AnchoredTrail) (outside : TrailOutside) :
    (c : TrailCall) → AnchoredTrail × c.Reply
  | .openReadOnly => (s, query (outside.fault 0) (.ok ()))
  | .requireCutTable => (s, query (outside.fault 0) s.trail.db.requireCutTable)
  | .auditAll => (s, query (outside.fault 0) (readRows s.trail.db))
  | .auditStart => (s, query (outside.fault 0) s.trail.db.startOf)
  | .readToString =>
      (s, match outside.fault 0 with
        | some error => .error error
        | none => .ok s.file)
  | .requireArchived _ => (s, outside.archived)
  | .nowMillis => (s, outside.now)
  | .openAppend =>
      match outside.fault 0 with
      | some error => (s, .error error)
      | none => ({ s with file := some s.text }, .ok ())
  | .writeLine line =>
      match outside.fault 0 with
      | some error => (s, .error error)
      | none => ({ s with file := some (s.text ++ line ++ "\n") }, .ok ())
  | .syncAll => (s, attempt (outside.fault 0))
  | .openDevice => (s, query (outside.fault 0) (.ok ()))
  | .cut throughSeq throughHash nowMillis anchor =>
      let result := s.trail.db.cut throughSeq throughHash nowMillis anchor outside.fault
      ({ s with trail := s.trail.withDb result.1 }, result.2)

end AnchoredTrail

/-- A command line. -/
inductive TrailArgs where
  | anchor (out : String)
  | cut (args : CutArgs)

/-- The service, and any number of commands on its store and on one anchor file. -/
def anchoredMachine (codec : Codec) (json : AnchorJson) (config : Config) :
    Script.Machine AnchoredTrail TrailCall TrailCall.Reply CliError AuditEvent TrailOutside
      TrailArgs where
  serve s event :=
    (s.trail.step codec config (.service event)).map fun trail => { s with trail := trail }
  answer := AnchoredTrail.answer
  script
    | .anchor out => takeAnchor codec json out
    | .cut args => cutTrail codec json args

abbrev AnchoredRun := Script.Running AnchoredTrail TrailCall TrailCall.Reply CliError

/-- Nothing has been recorded, the anchor file is empty or does not exist, and no command is running. -/
def AnchoredRun.Fresh (s : AnchoredRun) : Prop :=
  s.shared.trail.Fresh ∧ s.shared.text = "" ∧ s.scripts = []

end Ciphr
