import Ciphr.RustText

/-!
`ciphr-core/src/path.rs`: secret paths and the one path normalization. The normalization tables and
the Unicode classes that are too large to write out are a parameter.
-/

namespace Ciphr

/-- `unicode_normalization::IsNormalized`. -/
inductive IsNormalized where
  | yes
  | no
  | maybe
  deriving DecidableEq, Repr

/-- `unicode_normalization` and `char::is_alphanumeric`. -/
structure Unicode where
  isAlphanumeric : Char → Bool
  isNfcQuick : String → IsNormalized
  nfc : String → String

def maxPathLen : Nat := 1024

def maxSegmentLen : Nat := 128

def reservedPrefix : String := "sys"

inductive PathError where
  | empty
  | tooLong (limit found : Nat)
  | segmentTooLong (limit found : Nat)
  | emptySegment
  | relativeSegment (segment : String)
  | controlCharacter
  | whitespace
  | disallowedCharacter (character : Char)
  | wildcard
  deriving DecidableEq, Repr

/-- `{:04X}` of a character's number. -/
def upperHex4 (c : Char) : String :=
  let digits := (Nat.toDigits 16 c.toNat).map Char.toUpper
  String.ofList (List.replicate (4 - digits.length) '0' ++ digits)

/-- What `Display` writes. -/
def PathError.text : PathError → String
  | .empty => "path is empty"
  | .tooLong limit found =>
      "path is " ++ toString found ++ " bytes, limit is " ++ toString limit
  | .segmentTooLong limit found =>
      "path segment is " ++ toString found ++ " bytes, limit is " ++ toString limit
  | .emptySegment => "path contains an empty segment: no leading, trailing or doubled '/'"
  | .relativeSegment segment => "path contains the relative segment '" ++ segment ++ "'"
  | .controlCharacter => "path contains a control character"
  | .whitespace => "path contains whitespace"
  | .disallowedCharacter character =>
      "path contains U+" ++ upperHex4 character ++
        "; segments allow letters, digits, '-', '_' and '.'"
  | .wildcard => "path contains '*', which is reserved for policy patterns"

inductive SegmentProblem where
  | empty
  | tooLong (found : Nat)
  | relative
  | control
  | whitespace
  | disallowed (character : Char)
  deriving DecidableEq, Repr

namespace Unicode

variable (u : Unicode)

def normalize (input : String) : String :=
  match u.isNfcQuick input with
  | .yes => input
  | _ => u.nfc input

def isAllowed (ch : Char) : Bool :=
  u.isAlphanumeric ch || ch == '-' || ch == '_' || ch == '.' || ch == '*'

def inspectCharacters : List Char → Except SegmentProblem Unit
  | [] => .ok ()
  | ch :: rest =>
      if Rust.isControl ch then .error .control
      else if Rust.isWhitespace ch then .error .whitespace
      else if !u.isAllowed ch then .error (.disallowed ch)
      else inspectCharacters rest

/-- Everything about a segment except wildcards. -/
def inspectSegment (segment : String) : Except SegmentProblem Unit :=
  if segment.isEmpty then .error .empty
  else if segment.utf8ByteSize > maxSegmentLen then .error (.tooLong segment.utf8ByteSize)
  else if segment == "." || segment == ".." then .error .relative
  else u.inspectCharacters segment.toList

def validateSegment (segment : String) : Except PathError Unit := do
  (u.inspectSegment segment).mapError fun problem =>
    match problem with
    | .empty => .emptySegment
    | .tooLong found => .segmentTooLong maxSegmentLen found
    | .relative => .relativeSegment segment
    | .control => .controlCharacter
    | .whitespace => .whitespace
    | .disallowed character => .disallowedCharacter character
  if segment.toList.contains '*' then .error .wildcard else .ok ()

def validateSegments : List String → Except PathError Unit
  | [] => .ok ()
  | segment :: rest => do
      u.validateSegment segment
      validateSegments rest

/-- The text of the path that `SecretPath::parse` builds. -/
def parsePath (input : String) : Except PathError String := do
  let normalized := u.normalize input
  if normalized.isEmpty then .error .empty
  else if normalized.utf8ByteSize > maxPathLen then
    .error (.tooLong maxPathLen normalized.utf8ByteSize)
  else do
    u.validateSegments (Rust.splitChar '/' normalized)
    .ok normalized

/-- What is normalized is left as it is. -/
def Stable : Prop := ∀ text, u.normalize (u.normalize text) = u.normalize text

end Unicode

/-- A normalized secret path: there is no other way to obtain one than to parse it. -/
@[ext]
structure SecretPath (u : Unicode) where
  text : String
  parsed : ∃ input, u.parsePath input = .ok text

namespace SecretPath

def parse (u : Unicode) (input : String) : Except PathError (SecretPath u) :=
  match h : u.parsePath input with
  | .error error => .error error
  | .ok text => .ok ⟨text, input, h⟩

variable {u : Unicode}

instance : DecidableEq (SecretPath u) := fun a b =>
  decidable_of_iff (a.text = b.text) (by cases a; cases b; simp)

def segments (path : SecretPath u) : List String := Rust.splitChar '/' path.text

def isReserved (path : SecretPath u) : Bool := path.segments.head? == some reservedPrefix

/-- Whether the path lies under `start`, on a segment boundary: the byte behind `start` is a `/`. -/
def startsWith (path start : SecretPath u) : Bool :=
  if path.text == start.text then true
  else
    decide (start.text.utf8ByteSize < path.text.utf8ByteSize) &&
      path.text.toUTF8.data.toList[start.text.utf8ByteSize]? == some 0x2f &&
      start.text.toUTF8.data.toList.isPrefixOf path.text.toUTF8.data.toList

/-- A path is parsed from its own text. -/
theorem parse_text (hstable : u.Stable) (path : SecretPath u) :
    SecretPath.parse u path.text = .ok path := by
  have htext : u.parsePath path.text = .ok path.text := by
    obtain ⟨input, hinput⟩ := path.parsed
    have hnormalized : path.text = u.normalize input := by
      unfold Unicode.parsePath at hinput
      dsimp only at hinput
      split at hinput
      · cases hinput
      · split at hinput
        · cases hinput
        · cases hsegments : u.validateSegments (Rust.splitChar '/' (u.normalize input)) with
          | error error =>
              rw [hsegments] at hinput
              cases hinput
          | ok =>
              rw [hsegments] at hinput
              exact (Except.ok.inj hinput).symm
    have hsame : u.parsePath path.text = u.parsePath input := by
      unfold Unicode.parsePath
      rw [hnormalized, hstable]
    rw [hsame, hinput]
  unfold SecretPath.parse
  split
  · rename_i error herror
    rw [htext] at herror
    cases herror
  · rename_i text hparsed
    rw [htext] at hparsed
    congr 1
    exact SecretPath.ext (Except.ok.inj hparsed).symm

end SecretPath

/-- The Unicode functions on ASCII text. -/
def asciiUnicode : Unicode where
  isAlphanumeric := Char.isAlphanum
  isNfcQuick := fun text => if text.toList.all (·.toNat < 128) then .yes else .maybe
  nfc := id

end Ciphr
