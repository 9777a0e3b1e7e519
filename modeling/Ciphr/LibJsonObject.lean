import Mathlib.Data.Char
import Mathlib.Tactic.IntervalCases

/-!
JSON objects whose values are strings: how one is written over several lines, and how a text is read
as one.
-/

namespace JsonObject

/-! ### Strings -/

def hexDigit (n : Nat) : Char := "0123456789abcdef".toList.getD n '0'

/-- What stands for a character within a string. -/
def escapeChar (c : Char) : List Char :=
  if c = '"' then ['\\', '"']
  else if c = '\\' then ['\\', '\\']
  else if c = '\n' then ['\\', 'n']
  else if c = '\r' then ['\\', 'r']
  else if c = '\t' then ['\\', 't']
  else if c = '\x08' then ['\\', 'b']
  else if c = '\x0c' then ['\\', 'f']
  else if c.toNat < 32 then ['\\', 'u', '0', '0', hexDigit (c.toNat / 16), hexDigit (c.toNat % 16)]
  else [c]

def escape (text : String) : List Char := text.toList.flatMap escapeChar

def hexValue (c : Char) : Option Nat :=
  if '0' ≤ c ∧ c ≤ '9' then some (c.toNat - 48)
  else if 'a' ≤ c ∧ c ≤ 'f' then some (c.toNat - 87)
  else if 'A' ≤ c ∧ c ≤ 'F' then some (c.toNat - 55)
  else none

def readEscape : Char → Option Char
  | '"' => some '"'
  | '\\' => some '\\'
  | '/' => some '/'
  | 'n' => some '\n'
  | 'r' => some '\r'
  | 't' => some '\t'
  | 'b' => some '\x08'
  | 'f' => some '\x0c'
  | _ => none

/-- A string behind its opening quote, and what follows the closing one. -/
def readString : List Char → Option (List Char × List Char)
  | [] => none
  | '"' :: rest => some ([], rest)
  | '\\' :: 'u' :: a :: b :: c :: d :: rest => do
      let code := (← hexValue a) * 4096 + (← hexValue b) * 256 + (← hexValue c) * 16 + (← hexValue d)
      let found ← readString rest
      return (Char.ofNat code :: found.1, found.2)
  | '\\' :: c :: rest => do
      let c ← readEscape c
      let found ← readString rest
      return (c :: found.1, found.2)
  | c :: rest => do
      let found ← readString rest
      return (c :: found.1, found.2)

/-! ### Objects -/

def member (one : String × String) : List Char :=
  ' ' :: ' ' :: '"' :: (escape one.1 ++ '"' :: ':' :: ' ' :: '"' :: (escape one.2 ++ ['"']))

def members : List (String × String) → List Char
  | [] => []
  | [one] => member one
  | one :: rest => member one ++ ',' :: '\n' :: members rest

/-- One member on each line. -/
def pretty (object : List (String × String)) : String :=
  if object.isEmpty then "\x7b\x7d"
  else String.ofList ('\x7b' :: '\n' :: (members object ++ ['\n', '\x7d']))

def isSpace (c : Char) : Bool := c = ' ' || c = '\n' || c = '\r' || c = '\t'

/-- The text behind a character that comes next, after white space. -/
def expect (c : Char) (text : List Char) : Option (List Char) :=
  match text.dropWhile isSpace with
  | d :: rest => if d = c then some rest else none
  | [] => none

def readQuoted (text : List Char) : Option (String × List Char) := do
  let text ← expect '"' text
  let found ← readString text
  return (String.ofList found.1, found.2)

def readMember (text : List Char) : Option ((String × String) × List Char) := do
  let (key, text) ← readQuoted text
  let text ← expect ':' text
  let (value, text) ← readQuoted text
  return ((key, value), text)

/-- The members up to the brace that closes the object. -/
def readMembers : Nat → List Char → Option (List (String × String) × List Char)
  | 0, _ => none
  | fuel + 1, text => do
      let (one, text) ← readMember text
      match expect ',' text with
      | some text => do
          let (rest, text) ← readMembers fuel text
          return (one :: rest, text)
      | none => do
          let text ← expect '\x7d' text
          return ([one], text)

def parse (text : String) : Option (List (String × String)) := do
  let text ← expect '\x7b' text.toList
  let (object, text) ← match expect '\x7d' text with
    | some text => some ([], text)
    | none => readMembers text.length text
  if text.all isSpace then some object else none

example : parse "\x7b \"a\": \"x\\u0041\\\\\",\n\"b\" :\"\" \x7d\n" = some [("a", "xA\\"), ("b", "")] := by
  decide +kernel

/-! ### What is written is read back -/

end JsonObject
