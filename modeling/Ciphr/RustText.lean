import Mathlib.Algebra.Group.Int.Defs
import Mathlib.Algebra.Group.Nat.Defs
import Mathlib.Data.List.DropRight

/-!
The functions of the Rust standard library on text and on signed integers that the sources call, as
far as Lean's own differ from them. An `i64` is an integer, and the operations keep it in its range.
`char::is_whitespace` is the Unicode property `White_Space` and `char::is_control` the category `Cc`;
both are short enough to be written out.
-/

namespace Rust

/-- `char::is_whitespace`. -/
def isWhitespace (c : Char) : Bool :=
  let n := c.toNat
  (9 ≤ n && n ≤ 13) || n == 0x20 || n == 0x85 || n == 0xA0 || n == 0x1680 ||
    (0x2000 ≤ n && n ≤ 0x200A) || n == 0x2028 || n == 0x2029 || n == 0x202F || n == 0x205F ||
    n == 0x3000

/-- `char::is_control`. -/
def isControl (c : Char) : Bool :=
  let n := c.toNat
  n ≤ 0x1F || (0x7F ≤ n && n ≤ 0x9F)

/-- `str::trim`. -/
def trim (text : String) : String :=
  String.ofList (((text.toList.dropWhile isWhitespace).reverse.dropWhile isWhitespace).reverse)

/-- `str::trim_end` on the characters. -/
def trimEnd (chars : List Char) : List Char := (chars.reverse.dropWhile isWhitespace).reverse

theorem trimEnd_cons_of_ne_nil (c : Char) {chars : List Char} (h : trimEnd chars ≠ []) :
    trimEnd (c :: chars) = c :: trimEnd chars := by
  have hne : chars.reverse.dropWhile isWhitespace ≠ [] := by
    simpa [trimEnd] using h
  unfold trimEnd
  rw [List.reverse_cons, List.dropWhile_append, if_neg (by simpa using hne), List.reverse_append]
  rfl

theorem trimEnd_cons {c : Char} (hc : isWhitespace c = false) (chars : List Char) :
    trimEnd (c :: chars) = c :: trimEnd chars := by
  by_cases h : trimEnd chars = []
  · have hnil : chars.reverse.dropWhile isWhitespace = [] := by
      simpa [trimEnd] using h
    rw [h]
    unfold trimEnd
    rw [List.reverse_cons, List.dropWhile_append, hnil, List.dropWhile_cons_of_neg (by simp [hc])]
    rfl
  · exact trimEnd_cons_of_ne_nil c h

/-- What precedes a character that is not whitespace stays. -/
theorem trimEnd_append {c : Char} (hc : isWhitespace c = false) (front rest : List Char) :
    trimEnd (front ++ c :: rest) = front ++ c :: trimEnd rest := by
  induction front with
  | nil => exact trimEnd_cons hc rest
  | cons d front ih =>
      rw [List.cons_append, trimEnd_cons_of_ne_nil d (by rw [ih]; simp), ih, List.cons_append]

theorem trimEnd_trimEnd (chars : List Char) : trimEnd (trimEnd chars) = trimEnd chars := by
  exact List.rdropWhile_idempotent _ _

theorem mem_of_mem_trimEnd {c : Char} {chars : List Char} (h : c ∈ trimEnd chars) : c ∈ chars := by
  unfold trimEnd at h
  rw [List.mem_reverse] at h
  exact List.mem_reverse.mp ((List.dropWhile_sublist _).mem h)

/-- A text that begins with a character that is not whitespace is trimmed at its end. -/
theorem trim_cons {c : Char} (hc : isWhitespace c = false) (rest : List Char) :
    trim (String.ofList (c :: rest)) = String.ofList (trimEnd (c :: rest)) := by
  unfold trim trimEnd
  rw [String.toList_ofList, List.dropWhile_cons_of_neg (by simp [hc])]

/-- What is trimmed away is everything where a text is nothing but whitespace. -/
theorem trim_isEmpty_iff {text : String} :
    (trim text).isEmpty = true ↔ ∀ c ∈ text.toList, isWhitespace c = true := by
  have hends : (trim text).isEmpty = true ↔
      (text.toList.dropWhile isWhitespace).reverse.dropWhile isWhitespace = [] := by
    unfold trim
    rw [String.isEmpty_iff, String.ofList_eq_empty_iff, List.reverse_eq_nil_iff]
  rw [hends, List.dropWhile_eq_nil_iff]
  constructor
  · intro hrest c hc
    rw [← List.takeWhile_append_dropWhile (p := isWhitespace) (l := text.toList),
      List.mem_append] at hc
    rcases hc with hfront | hback
    · exact List.mem_takeWhile_imp hfront
    · exact hrest c (List.mem_reverse.mpr hback)
  · intro hall c hc
    exact hall c ((List.dropWhile_sublist _).subset (List.mem_reverse.mp hc))

theorem trim_isEmpty_of_mem {text : String} {c : Char} (hmem : c ∈ text.toList)
    (hc : isWhitespace c = false) : (trim text).isEmpty = false := by
  rw [Bool.eq_false_iff]
  intro hempty
  rw [trim_isEmpty_iff.mp hempty c hmem] at hc
  cases hc

theorem trim_of_forall {chars : List Char} (h : ∀ c ∈ chars, isWhitespace c = false) :
    trim (String.ofList chars) = String.ofList chars := by
  have hkeep : ∀ chars : List Char, (∀ c ∈ chars, isWhitespace c = false) →
      chars.dropWhile isWhitespace = chars := by
    intro chars hall
    cases chars with
    | nil => rfl
    | cons c chars => exact List.dropWhile_cons_of_neg (by simp [hall c List.mem_cons_self])
  unfold trim
  rw [String.toList_ofList, hkeep chars h,
    hkeep chars.reverse fun c hc => h c (List.mem_reverse.mp hc), List.reverse_reverse]

/-- `str::strip_suffix`. -/
def stripSuffix (suffix text : String) : Option String :=
  if suffix.toList.isSuffixOf text.toList then
    some (String.ofList (text.toList.take (text.toList.length - suffix.toList.length)))
  else none

/-- `str::strip_prefix`. -/
def stripPrefix (start text : String) : Option String :=
  if start.toList.isPrefixOf text.toList then
    some (String.ofList (text.toList.drop start.toList.length))
  else none

/-- `str::split_at` on the characters: nothing where the source panics, because the index is past
the end or inside a character. -/
def splitAtBytes : List Char → Nat → Option (List Char × List Char)
  | chars, 0 => some ([], chars)
  | [], _ + 1 => none
  | c :: chars, mid + 1 =>
      if c.utf8Size ≤ mid + 1 then
        (splitAtBytes chars (mid + 1 - c.utf8Size)).map fun parts => (c :: parts.1, parts.2)
      else none

/-- `str::split` on one character. -/
def splitChar (sep : Char) (text : String) : List String :=
  (text.toList.splitOn sep).map String.ofList

/-- `str::split_once` on one character. -/
def splitOnce (sep : Char) (text : String) : Option (String × String) :=
  if text.toList.contains sep then
    some (String.ofList (text.toList.takeWhile (· != sep)),
      String.ofList ((text.toList.dropWhile (· != sep)).drop 1))
  else none

/-- `str::split_inclusive` on one character: the pieces keep the character that ends them. -/
def splitInclusive (sep : Char) : List Char → List (List Char)
  | [] => []
  | c :: rest =>
      if c = sep then [c] :: splitInclusive sep rest
      else
        match splitInclusive sep rest with
        | [] => [[c]]
        | piece :: pieces => (c :: piece) :: pieces

/-- A piece without the line feed that ends it, and without a carriage return before that. -/
def chomp (piece : List Char) : List Char :=
  if piece.getLast? = some '\n' then
    if piece.dropLast.getLast? = some '\r' then piece.dropLast.dropLast else piece.dropLast
  else piece

/-- `str::lines`. -/
def lines (text : String) : List String :=
  (splitInclusive '\n' text.toList).map fun piece => String.ofList (chomp piece)

example : lines "a\r\n\nb\r" = ["a", "", "b\r"] := by decide

/-- `str::split_whitespace`. -/
def splitWhitespace (text : String) : List String :=
  ((text.toList.splitOnP isWhitespace).filter (!·.isEmpty)).map String.ofList

theorem splitInclusive_cons (sep c : Char) (rest : List Char) :
    splitInclusive sep (c :: rest) =
      if c = sep then [c] :: splitInclusive sep rest
      else
        match splitInclusive sep rest with
        | [] => [[c]]
        | piece :: pieces => (c :: piece) :: pieces := rfl

theorem splitInclusive_append_sep (sep : Char) (front rest : List Char) :
    splitInclusive sep (front ++ sep :: rest) =
      splitInclusive sep (front ++ [sep]) ++ splitInclusive sep rest := by
  induction front with
  | nil => simp [splitInclusive]
  | cons c front ih =>
      rw [List.cons_append, List.cons_append, splitInclusive_cons, splitInclusive_cons, ih]
      by_cases hc : c = sep
      · rw [if_pos hc, if_pos hc, List.cons_append]
      · rw [if_neg hc, if_neg hc]
        -- the text up to a separator has a first piece
        cases hpieces : splitInclusive sep (front ++ [sep]) with
        | nil =>
            cases front with
            | nil => simp [splitInclusive] at hpieces
            | cons d front =>
                rw [List.cons_append, splitInclusive_cons] at hpieces
                split at hpieces
                · cases hpieces
                · split at hpieces
                  · cases hpieces
                  · cases hpieces
        | cons piece pieces => rfl

theorem splitInclusive_of_not_mem {sep : Char} {line : List Char} (h : sep ∉ line) :
    splitInclusive sep (line ++ [sep]) = [line ++ [sep]] := by
  induction line with
  | nil => simp [splitInclusive]
  | cons c line ih =>
      rw [List.mem_cons, not_or] at h
      rw [List.cons_append, splitInclusive_cons, if_neg (Ne.symm h.1), ih h.2]

theorem chomp_line {line : List Char} (h : line.getLast? ≠ some '\r') :
    chomp (line ++ ['\n']) = line := by
  unfold chomp
  rw [List.getLast?_concat, if_pos rfl, List.dropLast_concat, if_neg h]

/-- The first line of a text. -/
theorem lines_cons {line : List Char} (hline : '\n' ∉ line) (rest : List Char) :
    lines (String.ofList (line ++ '\n' :: rest)) =
      String.ofList (chomp (line ++ ['\n'])) :: lines (String.ofList rest) := by
  unfold lines
  rw [String.toList_ofList, String.toList_ofList, splitInclusive_append_sep,
    splitInclusive_of_not_mem hline, List.singleton_append, List.map_cons]

/-- A line that is appended to complete lines is their last one. -/
theorem lines_append_line {text line : List Char} (htext : text = [] ∨ text.getLast? = some '\n')
    (hline : '\n' ∉ line) (hend : line.getLast? ≠ some '\r') :
    lines (String.ofList (text ++ (line ++ ['\n']))) =
      lines (String.ofList text) ++ [String.ofList line] := by
  have hsplit : splitInclusive '\n' (text ++ (line ++ ['\n'])) =
      splitInclusive '\n' text ++ [line ++ ['\n']] := by
    rcases htext with rfl | hlast
    · rw [List.nil_append, splitInclusive_of_not_mem hline]
      rfl
    · obtain ⟨front, rfl⟩ := List.getLast?_eq_some_iff.mp hlast
      rw [List.append_assoc, List.singleton_append, splitInclusive_append_sep,
        splitInclusive_of_not_mem hline]
  unfold lines
  rw [String.toList_ofList, String.toList_ofList, hsplit, List.map_append, List.map_singleton,
    chomp_line hend]

theorem splitInclusive_fragment {sep : Char} {text : List Char} (h : sep ∉ text) (hne : text ≠ []) :
    splitInclusive sep text = [text] := by
  induction text with
  | nil => exact absurd rfl hne
  | cons c rest ih =>
      rw [List.mem_cons, not_or] at h
      rw [splitInclusive_cons, if_neg (Ne.symm h.1)]
      cases rest with
      | nil => rfl
      | cons d rest => rw [ih h.2 (List.cons_ne_nil _ _)]

/-- A piece of `split` is one of `split_inclusive`, with or without the separator. -/
theorem mem_splitInclusive {sep : Char} {line : List Char} (hne : line ≠ []) (text : List Char)
    (h : line ∈ text.splitOn sep) :
    line ∈ splitInclusive sep text ∨ line ++ [sep] ∈ splitInclusive sep text := by
  -- on the length of the text: what follows its first separator is shorter
  induction hlength : text.length using Nat.strongRecOn generalizing text with
  | _ n ih =>
      by_cases hsep : sep ∈ text
      · obtain ⟨front, rest, rfl, hfront⟩ := List.eq_append_cons_of_mem hsep
        rw [List.splitOn_append_cons_self_of_not_mem hfront] at h
        rw [splitInclusive_append_sep, splitInclusive_of_not_mem hfront]
        rcases List.mem_cons.mp h with rfl | hrest
        · exact .inr (by simp)
        · have hshorter : rest.length < n := by
            rw [← hlength, List.length_append, List.length_cons]
            omega
          rcases ih rest.length hshorter rest hrest rfl with hin | hin
          · exact .inl (List.mem_append_right _ hin)
          · exact .inr (List.mem_append_right _ hin)
      · rw [List.splitOn_eq_singleton hsep, List.mem_singleton] at h
        rw [← h] at hsep ⊢
        rw [splitInclusive_fragment hsep hne]
        exact .inl (List.mem_singleton.mpr rfl)

/-- A line between line feeds is one of `str::lines` where it has no carriage return at its end. -/
theorem mem_lines {line : List Char} {text : String} (h : line ∈ text.toList.splitOn '\n')
    (hne : line ≠ []) (hfeed : '\n' ∉ line) (hend : line.getLast? ≠ some '\r') :
    String.ofList line ∈ lines text := by
  unfold lines
  rw [List.mem_map]
  rcases mem_splitInclusive hne text.toList h with hin | hin
  · refine ⟨line, hin, ?_⟩
    unfold chomp
    rw [if_neg fun hlast => hfeed (List.mem_of_getLast? hlast)]
  · exact ⟨line ++ ['\n'], hin, by rw [chomp_line hend]⟩

/-- A field of text without whitespace is split off at the blank that ends it. -/
theorem splitWhitespace_append_space {first : String} (rest : String) (hne : first.toList ≠ [])
    (hfirst : ∀ c ∈ first.toList, isWhitespace c = false) :
    splitWhitespace (first ++ " " ++ rest) = first :: splitWhitespace rest := by
  have htext : (first ++ " " ++ rest).toList = first.toList ++ ' ' :: rest.toList := by simp
  unfold splitWhitespace
  rw [htext, List.splitOnP_append_cons_of_forall_mem hfirst ' ' (by decide)]
  simp [hne, -String.toList_eq_nil_iff]

theorem splitWhitespace_of_forall {field : String} (hne : field.toList ≠ [])
    (hfield : ∀ c ∈ field.toList, isWhitespace c = false) : splitWhitespace field = [field] := by
  unfold splitWhitespace
  rw [List.splitOnP_eq_singleton hfield]
  simp [hne, -String.toList_eq_nil_iff]

/-- `str::parse` into an unsigned integer type of `bits` bits: decimal digits after at most one
leading `+`, and refused when the value does not fit. -/
def parseUnsigned (bits : Nat) (text : String) : Option Nat :=
  let digits := match text.toList with
    | '+' :: rest => rest
    | chars => chars
  if digits.isEmpty || !digits.all Char.isDigit then none
  else some (Nat.ofDigitChars 10 digits 0) |>.filter (· < 2 ^ bits)

theorem isDigit_of_mem_toString {n : Nat} {c : Char} (hc : c ∈ (toString n).toList) :
    c.isDigit = true := by
  rw [show toString n = n.repr from rfl, Nat.toList_repr] at hc
  exact Nat.isDigit_of_mem_toDigits (by omega) (by omega) hc

theorem toList_toString_ne_nil (n : Nat) : (toString n).toList ≠ [] := by
  rw [show toString n = n.repr from rfl, Nat.toList_repr]
  exact Nat.toDigits_ne_nil

/-- What `format!` prints of a number is what `parse` reads back. -/
theorem parseUnsigned_toString (bits n : Nat) (hn : n < 2 ^ bits) :
    parseUnsigned bits (toString n) = some n := by
  have hdigits : (match (toString n).toList with
      | '+' :: rest => rest
      | chars => chars) = (toString n).toList := by
    split
    · rename_i rest heq
      have hplus := isDigit_of_mem_toString (n := n) (c := '+') (by rw [heq]; simp)
      exact absurd hplus (by decide)
    · rfl
  have hall : (toString n).toList.all Char.isDigit = true := by
    rw [List.all_eq_true]
    intro c hc
    exact isDigit_of_mem_toString hc
  have hvalue : Nat.ofDigitChars 10 (toString n).toList 0 = n := by
    rw [show toString n = n.repr from rfl, Nat.toList_repr]
    exact Nat.ofDigitChars_ten_toDigits
  unfold parseUnsigned
  rw [hdigits]
  simp only [hall, hvalue]
  simp [hn]

theorem not_isWhitespace_of_isDigit {c : Char} (hc : c.isDigit = true) : isWhitespace c = false := by
  simp only [Char.isDigit, Bool.and_eq_true, decide_eq_true_eq] at hc
  have h1 : 48 ≤ c.toNat := hc.1
  have h2 : c.toNat ≤ 57 := hc.2
  simp only [isWhitespace, Bool.or_eq_false_iff, Bool.and_eq_false_iff, decide_eq_false_iff_not,
    beq_eq_false_iff_ne]
  omega

theorem utf8EncodeChar_ofNat {byte : UInt8} (h : byte < 0x80) :
    String.utf8EncodeChar (Char.ofNat byte.toNat) = [byte] := by
  have hlt : byte.toNat < 0x80 := h
  have hvalid : byte.toNat.isValidChar := .inl (by omega)
  have hval : (Char.ofNat byte.toNat).val.toNat = byte.toNat := by
    rw [Char.ofNat, dif_pos hvalid]
    rfl
  unfold String.utf8EncodeChar
  rw [hval]
  simp
  intro h
  omega

/-- ASCII is UTF-8. -/
theorem isValidUTF8_of_ascii {bytes : List UInt8} (h : bytes.all (· < 0x80) = true) :
    (⟨bytes.toArray⟩ : ByteArray).IsValidUTF8 := by
  have hflat : (bytes.map fun byte => Char.ofNat byte.toNat).flatMap String.utf8EncodeChar = bytes := by
    induction bytes with
    | nil => rfl
    | cons byte bytes ih =>
        rw [List.all_cons, Bool.and_eq_true, decide_eq_true_eq] at h
        rw [List.map_cons, List.flatMap_cons, utf8EncodeChar_ofNat h.1, ih h.2]
        rfl
  refine ⟨bytes.map fun byte => Char.ofNat byte.toNat, ?_⟩
  unfold List.utf8Encode
  rw [hflat]
  exact ByteArray.ext (by simp)

/-- `String::from_utf8`, where plain ASCII is recognised first. -/
def fromUtf8 (bytes : List UInt8) : Option String :=
  if h : bytes.all (· < 0x80) = true then
    some (String.fromUTF8 ⟨bytes.toArray⟩ (isValidUTF8_of_ascii h))
  else String.fromUTF8? ⟨bytes.toArray⟩

theorem fromUtf8_eq (bytes : List UInt8) : fromUtf8 bytes = String.fromUTF8? ⟨bytes.toArray⟩ := by
  unfold fromUtf8
  split
  · rename_i h
    rw [String.fromUTF8?, dif_pos (isValidUTF8_of_ascii h)]
  · rfl

/-- What was a text is read as that text. -/
theorem fromUtf8_toUTF8 (text : String) : fromUtf8 text.toUTF8.data.toList = some text := by
  have hbytes : (⟨text.toUTF8.data.toList.toArray⟩ : ByteArray) = text.toByteArray :=
    ByteArray.ext (by simp)
  rw [fromUtf8_eq, hbytes, String.fromUTF8?, dif_pos text.isValidUTF8]
  rfl

theorem fromUtf8_eq_some {bytes : List UInt8} {text : String} :
    fromUtf8 bytes = some text ↔ bytes = text.toUTF8.data.toList := by
  constructor
  · intro h
    rw [fromUtf8_eq, String.fromUTF8?] at h
    split at h
    · cases h
      simp [String.fromUTF8]
    · cases h
  · rintro rfl
    exact fromUtf8_toUTF8 text

def i64Min : Int := -2 ^ 63

def i64Max : Int := 2 ^ 63 - 1

/-- The nearest value that an `i64` has. -/
def saturate (value : Int) : Int := max i64Min (min value i64Max)

/-- `i64::saturating_add`. -/
def saturatingAdd (a b : Int) : Int := saturate (a + b)

/-- `i64::saturating_sub`. -/
def saturatingSub (a b : Int) : Int := saturate (a - b)

/-- `i64::saturating_mul`. -/
def saturatingMul (a b : Int) : Int := saturate (a * b)

/-- `i64::checked_mul`. -/
def checkedMul (a b : Int) : Option Int :=
  if i64Min ≤ a * b ∧ a * b ≤ i64Max then some (a * b) else none

/-- `str::parse` into an `i64`: decimal digits after at most one sign. -/
def parseI64 (text : String) : Option Int :=
  let (negative, digits) := match text.toList with
    | '+' :: rest => (false, rest)
    | '-' :: rest => (true, rest)
    | chars => (false, chars)
  if digits.isEmpty || !digits.all Char.isDigit then none
  else
    let value : Int := Nat.ofDigitChars 10 digits 0
    some (if negative then -value else value) |>.filter fun n => i64Min ≤ n && n ≤ i64Max

example : (parseI64 "+15", parseI64 "-9223372036854775808", parseI64 "9223372036854775808",
    parseI64 "-") = (some 15, some i64Min, none, none) := by decide +kernel

theorem saturate_le {value bound : Int} (hmin : i64Min ≤ bound) (h : value ≤ bound) :
    saturate value ≤ bound := by
  unfold saturate
  omega

theorem utf8ByteSize_ofList_cons (c : Char) (chars : List Char) :
    (String.ofList (c :: chars)).utf8ByteSize =
      c.utf8Size + (String.ofList chars).utf8ByteSize := by
  rw [← List.singleton_append, String.ofList_append, String.utf8ByteSize_append]
  simp

/-- A text is cut where a part that it begins with ends. -/
theorem splitAtBytes_append (front rest : List Char) :
    splitAtBytes (front ++ rest) (String.ofList front).utf8ByteSize = some (front, rest) := by
  induction front with
  | nil =>
      cases rest with
      | nil => rfl
      | cons c rest => rfl
  | cons c front ih =>
      have hpos : 0 < c.utf8Size := Char.utf8Size_pos c
      have hsize := utf8ByteSize_ofList_cons c front
      obtain ⟨mid, hmid⟩ : ∃ mid, (String.ofList (c :: front)).utf8ByteSize = mid + 1 :=
        ⟨(String.ofList (c :: front)).utf8ByteSize - 1, by omega⟩
      have hrest : mid + 1 - c.utf8Size = (String.ofList front).utf8ByteSize := by omega
      rw [List.cons_append, hmid, splitAtBytes, if_pos (by omega), hrest, ih]
      rfl

/-- Where a text can be split: behind characters that take up as many bytes. -/
theorem splitAtBytes_eq_some {chars front rest : List Char} {mid : Nat} :
    splitAtBytes chars mid = some (front, rest) ↔
      chars = front ++ rest ∧ (String.ofList front).utf8ByteSize = mid := by
  constructor
  · intro h
    induction chars generalizing mid front with
    | nil =>
        cases mid with
        | zero =>
            cases h
            exact ⟨rfl, rfl⟩
        | succ mid => cases h
    | cons c chars ih =>
        cases mid with
        | zero =>
            cases h
            exact ⟨rfl, rfl⟩
        | succ mid =>
            rw [splitAtBytes] at h
            split at h
            · rename_i hfits
              obtain ⟨⟨front', rest'⟩, hparts, heq⟩ := Option.map_eq_some_iff.mp h
              cases heq
              obtain ⟨rfl, hsize⟩ := ih hparts
              refine ⟨rfl, ?_⟩
              rw [utf8ByteSize_ofList_cons, hsize]
              omega
            · cases h
  · rintro ⟨rfl, rfl⟩
    exact splitAtBytes_append front rest

theorem splitChar_append {sep : Char} {front : String} (h : sep ∉ front.toList) (rest : String) :
    splitChar sep (front ++ String.singleton sep ++ rest) = front :: splitChar sep rest := by
  have hnot : ∀ c ∈ front.toList, (c == sep) = false := by
    intro c hc
    exact beq_eq_false_iff_ne.mpr fun heq => h (heq ▸ hc)
  unfold splitChar
  rw [String.toList_append, String.toList_append, String.toList_singleton, List.append_assoc,
    List.singleton_append, List.splitOn_eq_splitOnP, List.splitOn_eq_splitOnP,
    List.splitOnP_append_cons_of_forall_mem hnot sep (beq_self_eq_true sep), List.map_cons,
    String.ofList_toList]

theorem splitChar_of_not_mem {sep : Char} {text : String} (h : sep ∉ text.toList) :
    splitChar sep text = [text] := by
  have hnot : ∀ c ∈ text.toList, (c == sep) = false := by
    intro c hc
    exact beq_eq_false_iff_ne.mpr fun heq => h (heq ▸ hc)
  unfold splitChar
  rw [List.splitOn_eq_splitOnP, List.splitOnP_eq_singleton hnot, List.map_cons, String.ofList_toList]
  rfl
/-- The bytes of a text have those of each of its characters. -/
theorem mem_utf8_of_mem {text : String} {c : Char} (h : c ∈ text.toList) {byte : UInt8}
    (hbyte : byte ∈ String.utf8EncodeChar c) : byte ∈ text.toUTF8.data.toList := by
  have hbytes : text.toUTF8.data.toList = text.toList.flatMap String.utf8EncodeChar := by
    rw [← @String.ofList_toList text, String.toList_ofList]
    unfold String.toUTF8 String.ofList
    simp [List.utf8Encode]
  rw [hbytes]
  exact List.mem_flatMap.mpr ⟨c, h, hbyte⟩

/-- A text that begins with another one. -/
theorem stripPrefix_eq_some {start text body : String} :
    stripPrefix start text = some body ↔ text = start ++ body := by
  unfold stripPrefix
  constructor
  · intro h
    split at h
    · rename_i hprefix
      cases h
      obtain ⟨rest, hrest⟩ := List.isPrefixOf_iff_prefix.mp hprefix
      rw [← hrest, List.drop_left]
      apply String.toList_inj.mp
      rw [String.toList_append, String.toList_ofList, hrest]
    · cases h
  · rintro rfl
    rw [String.toList_append, if_pos (List.isPrefixOf_iff_prefix.mpr (List.prefix_append _ _)),
      List.drop_left, String.ofList_toList]

/-- A text in three parts. -/
theorem splitChar_three {sep : Char} {text first second third : String}
    (h : splitChar sep text = [first, second, third]) :
    text.toList = first.toList ++ sep :: (second.toList ++ sep :: third.toList) := by
  have hparts : text.toList.splitOn sep = [first.toList, second.toList, third.toList] := by
    unfold splitChar at h
    have hlists := congrArg (List.map String.toList) h
    rw [List.map_map] at hlists
    have hid : String.toList ∘ String.ofList = id := by
      funext chars
      exact String.toList_ofList
    rw [hid, List.map_id] at hlists
    exact hlists
  have hjoined := @List.intercalate_splitOn _ text.toList _ _ sep
  rw [hparts] at hjoined
  rw [← hjoined]
  simp [List.intercalate]

end Rust
