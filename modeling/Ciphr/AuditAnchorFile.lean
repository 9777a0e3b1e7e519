import Ciphr.RustText
import Ciphr.AuditAnchor

/-!
`ciphr-audit/src/anchor.rs`: the lines in which anchors are kept, and the newest anchor of a file to
which such lines are appended.
-/

namespace Ciphr

/-- The wire form of an anchor. -/
structure Wire where
  anchor : Nat
  takenAt : String
  seq : Nat
  hash : String
  deriving DecidableEq

/-- The calls of `serde_json` on the wire form. -/
structure AnchorJson where
  wireToString : Wire → Except String String
  wireFromStr : String → Except String Wire

/-- What `serde_json` is relied on for: an object whose numbers fit is written on one line, in
braces, and read back. -/
def AnchorJson.Lawful (json : AnchorJson) : Prop :=
  ∀ wire, wire.anchor < 2 ^ 32 → wire.seq < 2 ^ 64 →
    ∃ text, json.wireToString wire = .ok text ∧ json.wireFromStr text = .ok wire ∧
      '\n' ∉ text.toList ∧ text.toList.getLast? = some '}'

inductive AnchorError where
  | malformed (detail : String)
  | unknownVersion (found : Nat)
  | notAHash (detail : String)
  | zeroSequence
  deriving DecidableEq

namespace Anchor

def formatVersion : Nat := 1

end Anchor

/-- What `Display` writes. -/
def AnchorError.display : AnchorError → String
  | .malformed detail => "not an anchor record: " ++ detail
  | .unknownVersion found =>
      "anchor format version " ++ toString found ++ " is not one this build can read (expected " ++
        toString Anchor.formatVersion ++ ")"
  | .notAHash detail => "the anchored hash is unusable: " ++ detail
  | .zeroSequence => "the record anchors sequence 0, and no record has that sequence number"

namespace Anchor

def wire (anchor : Anchor) : Wire :=
  ⟨formatVersion, anchor.takenAt, anchor.seq, Hex.encode anchor.hash.toList⟩

variable (json : AnchorJson)

def encode (anchor : Anchor) : String :=
  match json.wireToString anchor.wire with
  | .ok text => text
  | .error _ => ""

def parse (line : String) : Except AnchorError Anchor :=
  match json.wireFromStr line with
  | .error detail => .error (.malformed detail)
  | .ok wire =>
      if wire.anchor ≠ formatVersion then .error (.unknownVersion wire.anchor)
      else if wire.seq = 0 then .error .zeroSequence
      else
        let decoded := Hex.decodeInto wire.hash (List.replicate 32 0)
        match decoded.2 with
        | .error error => .error (.notAHash error.display)
        | .ok () =>
            .ok ⟨wire.takenAt, wire.seq, ⟨decoded.1.toArray, by simp [decoded, Hex.decodeInto_length]⟩⟩

/-- The most recent anchor in the contents of an anchor file. -/
def latest (contents : String) : Except AnchorError (Option Anchor) :=
  match (Rust.lines contents).reverse.find? fun line => !(Rust.trim line).isEmpty with
  | none => .ok none
  | some line => (parse json line).map some

variable {json}

theorem encode_eq (hjson : json.Lawful) {anchor : Anchor} (hfits : anchor.seq < 2 ^ 64) :
    json.wireFromStr (anchor.encode json) = .ok anchor.wire ∧
      '\n' ∉ (anchor.encode json).toList ∧ (anchor.encode json).toList.getLast? = some '}' := by
  have hversion : anchor.wire.anchor < 2 ^ 32 := by
    simp [wire, formatVersion]
  obtain ⟨text, hwritten, hread, hline, hend⟩ := hjson anchor.wire hversion hfits
  unfold encode
  rw [hwritten]
  exact ⟨hread, hline, hend⟩

theorem parse_encode (hjson : json.Lawful) {anchor : Anchor} (hpos : 0 < anchor.seq)
    (hfits : anchor.seq < 2 ^ 64) : parse json (anchor.encode json) = .ok anchor := by
  have hseq : anchor.wire.seq ≠ 0 := Nat.ne_of_gt hpos
  have hhash : Hex.decodeInto anchor.wire.hash (List.replicate 32 0) =
      (anchor.hash.toList, .ok ()) := Hex.decodeInto_encode _ _ (by simp)
  unfold parse
  rw [(encode_eq hjson hfits).1]
  dsimp only
  rw [if_neg (by simp [wire]), if_neg hseq]
  simp only [hhash]
  congr 1

/-- The text is complete lines. -/
def Complete (text : String) : Prop := text.toList = [] ∨ text.toList.getLast? = some '\n'

theorem complete_append (text line : String) : Complete (text ++ line ++ "\n") := by
  right
  simp

/-- The newest anchor of a file is the one whose line was appended last. -/
theorem latest_append (hjson : json.Lawful) {anchor : Anchor} (hpos : 0 < anchor.seq)
    (hfits : anchor.seq < 2 ^ 64) {text : String} (htext : Complete text) :
    latest json (text ++ anchor.encode json ++ "\n") = .ok (some anchor) := by
  obtain ⟨-, hline, hend⟩ := encode_eq hjson hfits
  have hlines : Rust.lines (text ++ anchor.encode json ++ "\n") =
      Rust.lines text ++ [anchor.encode json] := by
    have happend := Rust.lines_append_line htext hline (by rw [hend]; decide)
    rw [String.ofList_toList, String.ofList_toList] at happend
    rw [← happend]
    congr 1
    apply String.toList_inj.mp
    simp
  unfold latest
  rw [hlines, List.reverse_append, List.reverse_singleton, List.singleton_append,
    List.find?_cons_of_pos (by
      rw [Rust.trim_isEmpty_of_mem (List.mem_of_getLast? hend) (by decide)]
      rfl)]
  dsimp only
  rw [parse_encode hjson hpos hfits]
  rfl

end Anchor

namespace Sample

/-- How `serde_json` writes a character of a string. -/
def escapeChar (c : Char) : List Char :=
  if c = '"' then ['\\', '"']
  else if c = '\\' then ['\\', '\\']
  else if c = '\n' then ['\\', 'n']
  else if c = '\r' then ['\\', 'r']
  else if c = '\t' then ['\\', 't']
  else if c = '\x08' then ['\\', 'b']
  else if c = '\x0c' then ['\\', 'f']
  else if c.toNat < 0x20 then '\\' :: 'u' :: '0' :: '0' :: Hex.encodeByte c.toNat.toUInt8
  else [c]

/-- What stands after a backslash, and what follows it. -/
def readEscape : List Char → Option (Char × List Char)
  | '"' :: rest => some ('"', rest)
  | '\\' :: rest => some ('\\', rest)
  | 'n' :: rest => some ('\n', rest)
  | 'r' :: rest => some ('\r', rest)
  | 't' :: rest => some ('\t', rest)
  | 'b' :: rest => some ('\x08', rest)
  | 'f' :: rest => some ('\x0c', rest)
  | 'u' :: '0' :: '0' :: high :: low :: rest =>
      match Hex.decode (String.ofList [high, low]) with
      | .ok [byte] => some (Char.ofNat byte.toNat, rest)
      | _ => none
  | _ => none

/-- One character of a string, and what follows it; nothing at the quote that ends the string. -/
def readChar : List Char → Option (Char × List Char)
  | '"' :: _ => none
  | '\\' :: rest => readEscape rest
  | c :: rest => some (c, rest)
  | [] => none

theorem readEscape_control {c : Char} (h : c.toNat < 0x20) (rest : List Char) :
    readEscape ('u' :: '0' :: '0' :: (Hex.encodeByte c.toNat.toUInt8 ++ rest)) = some (c, rest) := by
  obtain ⟨high, low, hdigits⟩ : ∃ high low, Hex.encodeByte c.toNat.toUInt8 = [high, low] :=
    ⟨_, _, rfl⟩
  have hdecode : Hex.decode (String.ofList [high, low]) = .ok [c.toNat.toUInt8] := by
    rw [← hdigits, ← Hex.decode_encode]
    simp [Hex.encode]
  have hbyte : Char.ofNat c.toNat.toUInt8.toNat = c := by
    rw [show c.toNat.toUInt8.toNat = c.toNat from Nat.mod_eq_of_lt (by omega), Char.ofNat_toNat]
  rw [hdigits, List.cons_append, List.cons_append, List.nil_append]
  change (match Hex.decode (String.ofList [high, low]) with
    | .ok [byte] => some (Char.ofNat byte.toNat, rest)
    | _ => none) = some (c, rest)
  rw [hdecode]
  dsimp only
  rw [hbyte]

theorem readChar_escapeChar (c : Char) (rest : List Char) :
    readChar (escapeChar c ++ rest) = some (c, rest) := by
  unfold escapeChar
  split_ifs with hquote hslash hfeed hreturn htab hback hform hcontrol
  · rw [hquote]
    rfl
  · rw [hslash]
    rfl
  · rw [hfeed]
    rfl
  · rw [hreturn]
    rfl
  · rw [htab]
    rfl
  · rw [hback]
    rfl
  · rw [hform]
    rfl
  · exact readEscape_control hcontrol rest
  · simp only [List.singleton_append, readChar]

theorem digits_getD_ne (n : Nat) : Hex.digits.getD n '0' ≠ '\n' := by
  have habsent : '\n' ∉ Hex.digits := by decide
  exact fun heq => habsent (heq ▸ Hex.getD_mem_digits n)

theorem newline_not_mem_escapeChar (c : Char) : '\n' ∉ escapeChar c := by
  unfold escapeChar
  split_ifs with _ _ hfeed
  · decide
  · decide
  · decide
  · decide
  · decide
  · decide
  · decide
  · have hhigh := digits_getD_ne (c.toNat.toUInt8 >>> 4).toNat
    have hlow := digits_getD_ne (c.toNat.toUInt8 &&& 0x0f).toNat
    simp only [Hex.encodeByte, List.mem_cons, List.not_mem_nil, or_false, not_or]
    exact ⟨by decide, by decide, by decide, by decide, Ne.symm hhigh, Ne.symm hlow⟩
  · rw [List.mem_singleton]
    exact Ne.symm hfeed

/-- The characters of a string up to the quote that ends it; `fuel` is the length of the text. -/
def readString : Nat → List Char → Option (List Char × List Char)
  | 0, _ => none
  | fuel + 1, text =>
      match readChar text, text with
      | some (c, rest), _ => (readString fuel rest).map fun result => (c :: result.1, result.2)
      | none, '"' :: rest => some ([], rest)
      | none, _ => none

theorem readString_escaped (chars rest : List Char) {fuel : Nat} (hfuel : chars.length < fuel) :
    readString fuel (chars.flatMap escapeChar ++ '"' :: rest) = some (chars, rest) := by
  induction chars generalizing fuel with
  | nil =>
      obtain ⟨n, rfl⟩ := Nat.exists_eq_succ_of_ne_zero (Nat.ne_of_gt hfuel)
      rfl
  | cons c chars ih =>
      obtain ⟨n, rfl⟩ := Nat.exists_eq_succ_of_ne_zero (Nat.ne_of_gt (Nat.zero_lt_of_lt hfuel))
      rw [List.length_cons] at hfuel
      unfold readString
      rw [List.flatMap_cons, List.append_assoc, readChar_escapeChar]
      dsimp only
      rw [ih (by omega), Option.map_some]

def readNumber (bits : Nat) (text : List Char) : Option (Nat × List Char) :=
  (Rust.parseUnsigned bits (String.ofList (text.takeWhile Char.isDigit))).map fun n =>
    (n, text.dropWhile Char.isDigit)

theorem readNumber_toString {bits n : Nat} (hn : n < 2 ^ bits) {c : Char} (hc : c.isDigit = false)
    (rest : List Char) : readNumber bits ((toString n).toList ++ c :: rest) = some (n, c :: rest) := by
  have hdigits : ∀ d ∈ (toString n).toList, d.isDigit = true := fun d hd =>
    Rust.isDigit_of_mem_toString hd
  unfold readNumber
  rw [List.takeWhile_append_of_pos hdigits, List.dropWhile_append_of_pos hdigits,
    List.takeWhile_cons_of_neg (by simp [hc]), List.dropWhile_cons_of_neg (by simp [hc]),
    List.append_nil, String.ofList_toList, Rust.parseUnsigned_toString bits n hn, Option.map_some]

def readLiteral (literal : List Char) (text : List Char) : Option (List Char) :=
  if literal.isPrefixOf text then some (text.drop literal.length) else none

theorem readLiteral_append (literal rest : List Char) :
    readLiteral literal (literal ++ rest) = some rest := by
  unfold readLiteral
  rw [if_pos (by simp), List.drop_left]

theorem readLiteral_cons (c : Char) (literal rest : List Char) :
    readLiteral (c :: literal) (c :: (literal ++ rest)) = some rest :=
  readLiteral_append (c :: literal) rest

/-- The text between the fields of a wire form. -/
def openKey : List Char := "\x7b\"anchor\":".toList

def takenKey : List Char := "\"taken_at\":\"".toList

def seqKey : List Char := ",\"seq\":".toList

def hashKey : List Char := "\"hash\":\"".toList

/-- The text of a wire form, as `serde_json` writes it. -/
def wireText (wire : Wire) : List Char :=
  openKey ++ ((toString wire.anchor).toList ++ ',' :: (takenKey ++
    (wire.takenAt.toList.flatMap escapeChar ++ '"' :: (seqKey ++
    ((toString wire.seq).toList ++ ',' :: (hashKey ++
    (wire.hash.toList.flatMap escapeChar ++ '"' :: ['}'])))))))

def readWire (text : List Char) : Option Wire := do
  let rest ← readLiteral openKey text
  let (anchor, rest) ← readNumber 32 rest
  let rest ← readLiteral (',' :: takenKey) rest
  let (takenAt, rest) ← readString text.length rest
  let rest ← readLiteral seqKey rest
  let (seq, rest) ← readNumber 64 rest
  let rest ← readLiteral (',' :: hashKey) rest
  let (hash, rest) ← readString text.length rest
  if rest = ['}'] then some ⟨anchor, String.ofList takenAt, seq, String.ofList hash⟩ else none

/-- `serde_json` on the wire form, as far as it reads what it has written. -/
def anchorJson : AnchorJson where
  wireToString wire := .ok (String.ofList (wireText wire))
  wireFromStr text :=
    match readWire text.toList with
    | some wire => .ok wire
    | none => .error "expected value at line 1 column 1"

theorem length_le_flatMap_escapeChar (chars : List Char) :
    chars.length ≤ (chars.flatMap escapeChar).length := by
  induction chars with
  | nil => exact le_rfl
  | cons c chars ih =>
      have hne : 0 < (escapeChar c).length := by
        unfold escapeChar
        split_ifs
        all_goals simp
      rw [List.flatMap_cons, List.length_append, List.length_cons]
      omega

theorem readWire_wireText {wire : Wire} (hanchor : wire.anchor < 2 ^ 32) (hseq : wire.seq < 2 ^ 64) :
    readWire (wireText wire) = some wire := by
  have htaken : wire.takenAt.toList.length < (wireText wire).length := by
    have hle := length_le_flatMap_escapeChar wire.takenAt.toList
    simp only [wireText, List.length_append, List.length_cons]
    omega
  have hhash : wire.hash.toList.length < (wireText wire).length := by
    have hle := length_le_flatMap_escapeChar wire.hash.toList
    simp only [wireText, List.length_append, List.length_cons]
    omega
  unfold readWire
  generalize (wireText wire).length = fuel at htaken hhash ⊢
  have hcomma : ','.isDigit = false := by decide
  simp only [wireText, readLiteral_append, readLiteral_cons, readNumber_toString hanchor hcomma,
    readNumber_toString hseq hcomma, readString_escaped _ _ htaken, readString_escaped _ _ hhash,
    Option.bind_eq_bind, Option.bind_some, if_true, String.ofList_toList]

theorem anchorJson_lawful : anchorJson.Lawful := by
  intro wire hanchor hseq
  refine ⟨String.ofList (wireText wire), rfl, ?_, ?_, ?_⟩
  · unfold anchorJson
    dsimp only
    rw [String.toList_ofList, readWire_wireText hanchor hseq]
  · have hnumber : ∀ n : Nat, '\n' ∉ (toString n).toList := by
      intro n hmem
      have hdigit := Rust.isDigit_of_mem_toString hmem
      simp at hdigit
    have hescaped : ∀ chars : List Char, '\n' ∉ chars.flatMap escapeChar := by
      intro chars hmem
      obtain ⟨c, -, hc⟩ := List.mem_flatMap.mp hmem
      exact newline_not_mem_escapeChar c hc
    rw [String.toList_ofList]
    simp only [wireText, List.mem_append, List.mem_cons, not_or]
    exact ⟨by decide, hnumber _, by decide, by decide, hescaped _, by decide, by decide, hnumber _,
      by decide, by decide, hescaped _, by decide, by decide⟩
  · rw [String.toList_ofList]
    simp [wireText, List.getLast?_append, List.getLast?_cons]

end Sample

end Ciphr
