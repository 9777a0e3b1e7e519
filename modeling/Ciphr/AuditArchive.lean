import Mathlib.Data.List.Sort
import Ciphr.AuditFile
import Ciphr.AuditVerify

/-!
`ciphr-audit/src/archive.rs`: the files of a file device, and which records they hold. What the
operating system says of a path and of the directory around it is a value, with the errors it
answers.
-/

namespace Ciphr

/-- The length of the timestamp in the name of an archive. -/
def stampLen : Nat := 24

/-- What may stand where in the timestamp. -/
def stampChar (character : Char) (index : Nat) : Bool :=
  match index with
  | 4 | 7 | 13 | 16 => character == '-'
  | 10 => character == 'T'
  | 19 => character == '.'
  | 23 => character == 'Z'
  | _ => character.isDigit

/-- The closure `digits` of `is_archive_tail`. -/
def isDigits (text : String) : Bool := !text.isEmpty && text.toList.all (·.isDigit)

def isArchiveTail (tail : String) : Bool :=
  if tail.isEmpty then true
  else
    match Rust.stripPrefix "-" tail with
    | none => false
    | some rest =>
        match Rust.splitOnce '.' rest with
        | some (sequence, counter) => isDigits sequence && isDigits counter
        | none => isDigits rest

def isRotationStamp (suffix : String) : Bool :=
  match Rust.splitAtBytes suffix.toList stampLen with
  | none => false
  | some (stamp, tail) =>
      if stamp.getLast? ≠ some 'Z' then false
      else
        let shaped := stamp.zipIdx.all fun (character, index) => stampChar character index
        shaped && isArchiveTail (String.ofList tail)

/-- An entry of a directory. Its name need not be UTF-8. -/
structure DirEntry where
  fileName : List UInt8
  isFile : Bool
  deriving DecidableEq, Repr

/-- What the operating system says of the path of a live file: whether it is a file, which name it
ends in, and whether what it stands in is a directory and of which entries. -/
structure Surroundings where
  isFile : Bool
  fileName : Option (List UInt8)
  isDir : Bool
  readDir : Except String (List (Except String DirEntry))

/-- A file of the set: the live file, or the file of this name beside it. -/
inductive SetFile where
  | live
  | rotated (fileName : List UInt8)
  deriving DecidableEq, Repr

/-- Whether an entry is an archive of the live file. -/
def isArchiveOf (name : List UInt8) (entry : DirEntry) : Bool :=
  match Rust.fromUtf8 entry.fileName, Rust.fromUtf8 (name ++ bytesOf ".") with
  | some candidate, some start =>
      match Rust.stripPrefix start candidate with
      | some stamp => isRotationStamp stamp && entry.isFile
      | none => false
  | _, _ => false

def rotationSet (place : Surroundings) : Except String (List SetFile) :=
  let set := if place.isFile then [.live] else []
  match place.fileName with
  | none => .ok set
  | some name =>
      if place.isDir then do
        let listing ← place.readDir
        let entries ← listing.mapM id
        let rotated := (entries.filter (isArchiveOf name)).map (·.fileName)
        .ok (set ++ (rotated.mergeSort fun left right => decide (left ≤ right)).map .rotated)
      else .ok set

/-- Which of the records asked about an archive holds. -/
structure Coverage where
  missing : List Nat
  found : Nat
  lines : Nat
  files : Nat
  deriving DecidableEq, Repr

namespace Coverage

def isComplete (coverage : Coverage) : Bool := coverage.missing.isEmpty

end Coverage

/-- The pieces of a file up to and including each line feed. -/
def splitBytes : List UInt8 → List (List UInt8)
  | [] => []
  | byte :: rest =>
      if byte = newline then [byte] :: splitBytes rest
      else
        match splitBytes rest with
        | [] => [[byte]]
        | piece :: pieces => (byte :: piece) :: pieces

/-- One round of `BufRead::lines`. -/
def readLine (piece : List UInt8) : Except String String :=
  match Rust.fromUtf8 piece with
  | some text => .ok (String.ofList (Rust.chomp text.toList))
  | none => .error "stream did not contain valid UTF-8"

def archiveLines (bytes : List UInt8) : List (Except String String) := (splitBytes bytes).map readLine

/-- A map from the hashes that have not been found to the sequence numbers of their records. -/
abbrev Outstanding : Type := List (Hash × Nat)

section Coverage

variable (codec : Codec)

def outstandingOf (wanted : List StoredRecord) : Outstanding :=
  wanted.foldl (fun outstanding record =>
    let hash := codec.hashPayload record.payload
    outstanding.filter (·.1 ≠ hash) ++ [(hash, record.seq)]) []

/-- The loop over the lines of one file: what is outstanding, and how many lines were read. -/
def coverLines : List (Except String String) → Outstanding × Nat →
    Except String (Outstanding × Nat)
  | [], state => .ok state
  | .error error :: _, _ => .error error
  | .ok line :: rest, (outstanding, lines) =>
      if (Rust.trim line).isEmpty then coverLines rest (outstanding, lines)
      else
        let outstanding := outstanding.filter (·.1 ≠ codec.hashPayload line)
        if outstanding.isEmpty then .ok (outstanding, lines + 1)
        else coverLines rest (outstanding, lines + 1)

/-- `coverage_of`; `read` opens a file and reads it. -/
def coverageOf (read : SetFile → Except String (List UInt8)) (files : List SetFile)
    (wanted : List StoredRecord) : Except String Coverage := do
  let outstanding := outstandingOf codec wanted
  let asked := outstanding.length
  let (outstanding, lines) ← files.foldlM (fun state file => do
    let bytes ← read file
    coverLines codec (archiveLines bytes) state) (outstanding, 0)
  let missing := (outstanding.map (·.2)).mergeSort fun left right => decide (left ≤ right)
  .ok ⟨missing, asked - missing.length, lines, files.length⟩

end Coverage

end Ciphr
