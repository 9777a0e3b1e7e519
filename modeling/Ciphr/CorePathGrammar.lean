import Ciphr.CorePattern

/-!
The texts that are paths and those that are patterns, as grammars over the segments of a text in normal
form, and what a pattern stands for.
-/

namespace Ciphr

namespace Unicode

/-- What is known of the Unicode tables: the normal form is idempotent, the quick check says yes only to
what is in it, and letters and digits are no control characters, no white space and no `*`. -/
structure Lawful (u : Unicode) : Prop where
  idempotent : ∀ text, u.nfc (u.nfc text) = u.nfc text
  quick : ∀ text, u.isNfcQuick text = .yes → u.nfc text = text
  letters : ∀ c, u.isAlphanumeric c = true →
    Rust.isControl c = false ∧ Rust.isWhitespace c = false ∧ c ≠ '*'

/-- A letter, a digit, `-`, `_` or `.`. -/
def IsNameCharacter (u : Unicode) (c : Char) : Prop :=
  u.isAlphanumeric c = true ∨ c = '-' ∨ c = '_' ∨ c = '.'

/-- A segment of a path. -/
structure IsSegment (u : Unicode) (segment : String) : Prop where
  nonempty : segment ≠ ""
  short : segment.utf8ByteSize ≤ maxSegmentLen
  absolute : segment ≠ "." ∧ segment ≠ ".."
  characters : ∀ c ∈ segment.toList, u.IsNameCharacter c

/-- A text of bounded length whose segments are what they may be at their place. -/
structure Spells (segmentAt : Nat → String → Prop) (text : String) : Prop where
  nonempty : text ≠ ""
  short : text.utf8ByteSize ≤ maxPathLen
  segments : ∀ i segment, (Rust.splitChar '/' text)[i]? = some segment → segmentAt i segment

def IsPath (u : Unicode) (text : String) : Prop := Spells (fun _ segment => u.IsSegment segment) text

/-- The texts of paths, with `*` for any segment and `**` for the last. -/
def IsPattern (u : Unicode) (text : String) : Prop :=
  Spells (fun i segment => u.IsSegment segment ∨ segment = "*" ∨
    segment = "**" ∧ i + 1 = (Rust.splitChar '/' text).length) text

variable {u : Unicode}

theorem Lawful.normalize_eq (h : u.Lawful) (input : String) : u.normalize input = u.nfc input := by
  unfold normalize
  split
  · rename_i hyes
    exact (h.quick input hyes).symm
  · rfl

theorem Lawful.stable (h : u.Lawful) : u.Stable := by
  intro text
  rw [h.normalize_eq, h.normalize_eq, h.idempotent]

/-! ### Segments -/

theorem inspectCharacters_iff {chars : List Char} : u.inspectCharacters chars = .ok () ↔
    ∀ c ∈ chars, Rust.isControl c = false ∧ Rust.isWhitespace c = false ∧ u.isAllowed c = true := by
  induction chars with
  | nil => simp [inspectCharacters]
  | cons c chars ih =>
      unfold inspectCharacters
      rw [List.forall_mem_cons, ← ih]
      by_cases hcontrol : Rust.isControl c = true
      · simp [hcontrol]
      by_cases hspace : Rust.isWhitespace c = true
      · simp [hcontrol, hspace]
      by_cases hallowed : u.isAllowed c = true
      · simp [hcontrol, hspace, hallowed]
      · simp [hcontrol, hspace, hallowed]

/-- The characters of a literal segment are the allowed ones without the `*`. -/
theorem Lawful.nameCharacter_iff (h : u.Lawful) (c : Char) :
    ((Rust.isControl c = false ∧ Rust.isWhitespace c = false ∧ u.isAllowed c = true) ∧ c ≠ '*') ↔
      u.IsNameCharacter c := by
  have hsigns : ∀ sign ∈ ['-', '_', '.'],
      Rust.isControl sign = false ∧ Rust.isWhitespace sign = false ∧ sign ≠ '*' := by
    simp [Rust.isControl, Rust.isWhitespace]
  unfold IsNameCharacter isAllowed
  simp only [Bool.or_eq_true, beq_iff_eq]
  constructor
  · rintro ⟨⟨-, -, (((hletter | hdash) | hlow) | hdot) | hstar⟩, hne⟩
    · exact .inl hletter
    · exact .inr (.inl hdash)
    · exact .inr (.inr (.inl hlow))
    · exact .inr (.inr (.inr hdot))
    · exact absurd hstar hne
  · rintro (hletter | rfl | rfl | rfl)
    · obtain ⟨hcontrol, hspace, hstar⟩ := h.letters c hletter
      exact ⟨⟨hcontrol, hspace, .inl (.inl (.inl (.inl hletter)))⟩, hstar⟩
    · obtain ⟨hcontrol, hspace, hstar⟩ := hsigns '-' (by simp)
      exact ⟨⟨hcontrol, hspace, .inl (.inl (.inl (.inr rfl)))⟩, hstar⟩
    · obtain ⟨hcontrol, hspace, hstar⟩ := hsigns '_' (by simp)
      exact ⟨⟨hcontrol, hspace, .inl (.inl (.inr rfl))⟩, hstar⟩
    · obtain ⟨hcontrol, hspace, hstar⟩ := hsigns '.' (by simp)
      exact ⟨⟨hcontrol, hspace, .inl (.inr rfl)⟩, hstar⟩

/-- What both parsers take for a literal segment. -/
def IsLiteral (u : Unicode) (segment : String) : Prop :=
  u.inspectSegment segment = .ok () ∧ '*' ∉ segment.toList

theorem Lawful.isLiteral_iff (h : u.Lawful) (segment : String) :
    u.IsLiteral segment ↔ u.IsSegment segment := by
  have hchars : ((∀ c ∈ segment.toList, Rust.isControl c = false ∧ Rust.isWhitespace c = false ∧
      u.isAllowed c = true) ∧ '*' ∉ segment.toList) ↔
      ∀ c ∈ segment.toList, u.IsNameCharacter c := by
    constructor
    · rintro ⟨hall, hstar⟩ c hc
      exact (h.nameCharacter_iff c).mp ⟨hall c hc, fun heq => hstar (heq ▸ hc)⟩
    · intro hall
      refine ⟨fun c hc => ((h.nameCharacter_iff c).mpr (hall c hc)).1, fun hstar => ?_⟩
      exact ((h.nameCharacter_iff '*').mpr (hall _ hstar)).2 rfl
  unfold IsLiteral inspectSegment
  by_cases hempty : segment.isEmpty = true
  · rw [if_pos hempty]
    refine iff_of_false (fun hok => ?_) fun hsegment => hsegment.nonempty (by simpa using hempty)
    cases hok.1
  rw [if_neg hempty]
  by_cases hlong : segment.utf8ByteSize > maxSegmentLen
  · rw [if_pos hlong]
    refine iff_of_false (fun hok => ?_) fun hsegment => absurd hsegment.short (by omega)
    cases hok.1
  rw [if_neg hlong]
  by_cases hrelative : (segment == "." || segment == "..") = true
  · rw [if_pos hrelative]
    refine iff_of_false (fun hok => ?_) fun hsegment => ?_
    · cases hok.1
    · rw [Bool.or_eq_true, beq_iff_eq, beq_iff_eq] at hrelative
      exact hrelative.elim hsegment.absolute.1 hsegment.absolute.2
  rw [if_neg hrelative, inspectCharacters_iff, hchars]
  rw [Bool.or_eq_true, beq_iff_eq, beq_iff_eq, not_or] at hrelative
  exact ⟨fun hall => ⟨by simpa using hempty, by omega, hrelative, hall⟩, fun hsegment =>
    hsegment.characters⟩

theorem validateSegment_iff {segment : String} :
    u.validateSegment segment = .ok () ↔ u.IsLiteral segment := by
  unfold validateSegment IsLiteral
  cases u.inspectSegment segment with
  | error problem => exact iff_of_false (fun h => by cases h) fun h => by cases h.1
  | ok done =>
      show (if segment.toList.contains '*' then _ else _) = Except.ok () ↔ _
      by_cases hstar : '*' ∈ segment.toList
      · simp [hstar]
      · simp [hstar]

theorem validateSegments_iff {segments : List String} :
    u.validateSegments segments = .ok () ↔ ∀ segment ∈ segments, u.IsLiteral segment := by
  induction segments with
  | nil => simp [validateSegments]
  | cons segment segments ih =>
      rw [List.forall_mem_cons, ← ih, ← validateSegment_iff, validateSegments]
      cases u.validateSegment segment with
      | error error => exact iff_of_false (fun h => by cases h) fun h => by cases h.1
      | ok done => simp [bind, Except.bind]

/-! ### Paths -/

/-- A path is parsed exactly from a text in normal form that is one. -/
theorem parsePath_iff {input text : String} : u.parsePath input = .ok text ↔
    u.normalize input = text ∧ Spells (fun _ segment => u.IsLiteral segment) text := by
  have hspells : ∀ text, Spells (fun _ segment => u.IsLiteral segment) text ↔
      text ≠ "" ∧ text.utf8ByteSize ≤ maxPathLen ∧ u.validateSegments (Rust.splitChar '/' text) = .ok () := by
    intro text
    rw [validateSegments_iff]
    constructor
    · rintro ⟨hnonempty, hshort, hsegments⟩
      refine ⟨hnonempty, hshort, fun segment hmem => ?_⟩
      obtain ⟨i, hi⟩ := List.mem_iff_getElem?.mp hmem
      exact hsegments i segment hi
    · rintro ⟨hnonempty, hshort, hsegments⟩
      exact ⟨hnonempty, hshort, fun i segment hi => hsegments segment (List.mem_of_getElem? hi)⟩
  rw [hspells]
  unfold parsePath
  dsimp only
  generalize u.normalize input = normalized
  by_cases hempty : normalized = ""
  · rw [if_pos (by simpa using hempty)]
    refine iff_of_false (fun h => by cases h) ?_
    rintro ⟨rfl, hne, -⟩
    exact hne hempty
  rw [if_neg (by simpa using hempty)]
  by_cases hlong : normalized.utf8ByteSize > maxPathLen
  · rw [if_pos hlong]
    refine iff_of_false (fun h => by cases h) ?_
    rintro ⟨rfl, -, hshort, -⟩
    omega
  rw [if_neg hlong]
  cases hsegments : u.validateSegments (Rust.splitChar '/' normalized) with
  | error error =>
      refine iff_of_false (fun h => by cases h) ?_
      rintro ⟨rfl, -, -, hok⟩
      rw [hsegments] at hok
      cases hok
  | ok done =>
      constructor
      · intro h
        cases h
        exact ⟨rfl, hempty, by omega, hsegments⟩
      · rintro ⟨rfl, -⟩
        rfl

end Unicode

/-- A text is put together again from its segments. -/
theorem splitChar_injective {sep : Char} {text text' : String}
    (h : Rust.splitChar sep text = Rust.splitChar sep text') : text = text' := by
  unfold Rust.splitChar at h
  have hlists := List.map_injective_iff.mpr (fun _ _ => String.ofList_injective) h
  apply String.toList_inj.mp
  calc text.toList
      = [sep].intercalate (text.toList.splitOn sep) := (List.intercalate_splitOn sep).symm
    _ = [sep].intercalate (text'.toList.splitOn sep) := by rw [hlists]
    _ = text'.toList := List.intercalate_splitOn sep

namespace SecretPath

variable {u : Unicode}

theorem spells (path : SecretPath u) : Unicode.Spells (fun _ segment => u.IsLiteral segment) path.text := by
  obtain ⟨input, hinput⟩ := path.parsed
  exact (Unicode.parsePath_iff.mp hinput).2

theorem parse_eq_ok {input : String} {path : SecretPath u} :
    SecretPath.parse u input = .ok path ↔ u.parsePath input = .ok path.text := by
  unfold SecretPath.parse
  split
  · rename_i error herror
    rw [herror]
    exact iff_of_false (fun h => by cases h) fun h => by cases h
  · rename_i text htext
    rw [Except.ok.injEq]
    constructor
    · rintro rfl
      exact htext
    · intro h
      exact SecretPath.ext (Except.ok.inj (htext.symm.trans h))

/-- Only the normal form of an input matters. -/
theorem parse_congr {input other : String} (hnormal : u.normalize input = u.normalize other) :
    SecretPath.parse u input = SecretPath.parse u other := by
  have hpath : u.parsePath input = u.parsePath other := by
    unfold Unicode.parsePath
    rw [hnormal]
  cases hother : SecretPath.parse u other with
  | ok path => exact parse_eq_ok.mpr (hpath.trans (parse_eq_ok.mp hother))
  | error error =>
      unfold SecretPath.parse at hother ⊢
      split at hother
      · rename_i error' herror'
        split
        · rename_i found hfound
          rw [hpath, herror', Except.error.injEq] at hfound
          rw [← hfound, ← hother]
        · rename_i text htext
          rw [hpath, herror'] at htext
          cases htext
      · cases hother

end SecretPath

/-! ### Patterns -/

namespace PathPattern

variable {u : Unicode}

/-- What a segment of a pattern may be at its place. -/
def MayStand (u : Unicode) (isLast : Bool) (segment : String) : Prop :=
  u.IsLiteral segment ∨ segment = "*" ∨ segment = "**" ∧ isLast = true

theorem parseSegment_iff {isLast : Bool} {text : String} :
    (∃ segment, parseSegment u isLast text = .ok segment) ↔ MayStand u isLast text := by
  unfold parseSegment MayStand
  by_cases hone : text = "*"
  · simp [hone]
  rw [if_neg hone]
  by_cases hrest : text = "**"
  · have hliteral : ¬ u.IsLiteral text := fun h => h.2 (by rw [hrest]; decide)
    rw [if_pos hrest]
    cases isLast with
    | false => exact iff_of_false (fun ⟨_, h⟩ => by cases h) (by simp [hone, hliteral])
    | true => exact iff_of_true ⟨_, rfl⟩ (.inr (.inr ⟨hrest, rfl⟩))
  rw [if_neg hrest]
  unfold Unicode.IsLiteral
  cases u.inspectSegment text with
  | error problem =>
      refine iff_of_false (fun ⟨segment, h⟩ => by cases h) ?_
      rintro (⟨h, -⟩ | h | ⟨h, -⟩)
      · cases h
      · exact hone h
      · exact hrest h
  | ok done =>
      by_cases hstar : '*' ∈ text.toList
      · simp [hone, hrest, hstar, bind, Except.bind, Except.mapError]
      · simp [hone, hrest, hstar, bind, Except.bind, Except.mapError]

theorem parseSegments_iff {last : Nat} {raw : List String} : ∀ {index : Nat},
    (∃ segments, parseSegments u last index raw = .ok segments) ↔
      ∀ i text, raw[i]? = some text → MayStand u (index + i == last) text := by
  induction raw with
  | nil => exact fun {index} => iff_of_true ⟨[], rfl⟩ fun i text h => by cases h
  | cons first raw ih =>
      intro index
      have hsplit : (∃ segments, parseSegments u last index (first :: raw) = .ok segments) ↔
          (∃ segment, parseSegment u (index == last) first = .ok segment) ∧
            ∃ segments, parseSegments u last (index + 1) raw = .ok segments := by
        rw [parseSegments]
        cases parseSegment u (index == last) first with
        | error problem => exact iff_of_false (fun ⟨_, h⟩ => by cases h) fun ⟨⟨_, h⟩, _⟩ => by cases h
        | ok segment =>
            cases parseSegments u last (index + 1) raw with
            | error problem => exact iff_of_false (fun ⟨_, h⟩ => by cases h) fun ⟨_, _, h⟩ => by cases h
            | ok segments => exact iff_of_true ⟨_, rfl⟩ ⟨⟨_, rfl⟩, _, rfl⟩
      rw [hsplit, parseSegment_iff, ih]
      constructor
      · rintro ⟨hfirst, hraw⟩ i text hi
        cases i with
        | zero => exact Option.some.inj hi ▸ hfirst
        | succ i =>
            have hnext := hraw i text hi
            rwa [show index + 1 + i = index + (i + 1) by omega] at hnext
      · intro hall
        refine ⟨hall 0 first rfl, fun i text hi => ?_⟩
        have hnext := hall (i + 1) text hi
        rwa [show index + (i + 1) = index + 1 + i by omega] at hnext

theorem text_of_parse {input : String} {pattern : PathPattern} (h : parse u input = .ok pattern) :
    pattern.text = u.normalize input := by
  unfold parse at h
  dsimp only at h
  split at h
  · cases h
  · split at h
    · cases h
    · split at h
      · cases h
      · cases h
        rfl

/-- A pattern is parsed exactly from a text whose normal form is one. -/
theorem parse_iff {input : String} : (∃ pattern, parse u input = .ok pattern) ↔
    Unicode.Spells (fun i segment => MayStand u
      (i == (Rust.splitChar '/' (u.normalize input)).length - 1) segment) (u.normalize input) := by
  have hsegments := @parseSegments_iff u ((Rust.splitChar '/' (u.normalize input)).length - 1)
    (Rust.splitChar '/' (u.normalize input)) 0
  simp only [Nat.zero_add] at hsegments
  have hspells : ∀ at' : Nat → String → Prop, Unicode.Spells at' (u.normalize input) ↔
      u.normalize input ≠ "" ∧ (u.normalize input).utf8ByteSize ≤ maxPathLen ∧
        ∀ i text, (Rust.splitChar '/' (u.normalize input))[i]? = some text → at' i text :=
    fun at' => ⟨fun h => ⟨h.nonempty, h.short, h.segments⟩, fun h => ⟨h.1, h.2.1, h.2.2⟩⟩
  rw [hspells, ← hsegments]
  unfold parse
  dsimp only
  by_cases hempty : u.normalize input = ""
  · rw [if_pos (by simpa using hempty)]
    exact iff_of_false (fun ⟨_, h⟩ => by cases h) fun h => h.1 hempty
  rw [if_neg (by simpa using hempty)]
  by_cases hlong : (u.normalize input).utf8ByteSize > maxPathLen
  · rw [if_pos hlong]
    exact iff_of_false (fun ⟨_, h⟩ => by cases h) fun h => absurd h.2.1 (by omega)
  rw [if_neg hlong]
  split
  · rename_i error herror
    rw [herror]
    exact iff_of_false (fun ⟨_, h⟩ => by cases h) fun ⟨_, _, _, h⟩ => by cases h
  · rename_i segments hok
    exact iff_of_true ⟨_, rfl⟩ ⟨hempty, by omega, segments, hok⟩

theorem parse_congr {input other : String} (hnormal : u.normalize input = u.normalize other) :
    parse u input = parse u other := by
  unfold parse
  dsimp only
  by_cases hempty : (u.normalize other).isEmpty = true
  · rw [if_pos (hnormal ▸ hempty), if_pos hempty]
  rw [if_neg (hnormal ▸ hempty), if_neg hempty]
  by_cases hlong : (u.normalize other).utf8ByteSize > maxPathLen
  · rw [if_pos (hnormal ▸ hlong), if_pos hlong, hnormal]
  rw [if_neg (hnormal ▸ hlong), if_neg hlong]
  split
  · rename_i error herror
    rw [hnormal] at herror
    split
    · rename_i error' herror'
      rw [herror', Except.error.injEq] at herror
      rw [herror]
    · rename_i segments hok
      rw [hok] at herror
      cases herror
  · rename_i segments hok
    rw [hnormal] at hok
    split
    · rename_i error herror
      rw [herror] at hok
      cases hok
    · rename_i segments' hok'
      exact congrArg Except.ok (eq_of_text_eq hnormal)

theorem ofText_of_literal {segment : String} (h : u.IsLiteral segment) :
    Segment.ofText segment = .literal segment := by
  have hone : segment ≠ "*" := fun heq => h.2 (by rw [heq]; decide)
  have hrest : segment ≠ "**" := fun heq => h.2 (by rw [heq]; decide)
  rw [Segment.ofText, if_neg hone, if_neg hrest]

theorem isLiteral_of_mem {path : SecretPath u} {segment : String} (h : segment ∈ path.segments) :
    u.IsLiteral segment := by
  obtain ⟨i, hi⟩ := List.mem_iff_getElem?.mp h
  exact path.spells.segments i segment hi

/-- `exact`: the pattern of one path. -/
def exactPath (path : SecretPath u) : PathPattern where
  segments := path.segments.map .literal
  text := path.text
  segments_eq := List.map_congr_left fun _ h => (ofText_of_literal (isLiteral_of_mem h)).symm

/-- The text of a path is a pattern, and it is the exact one. -/
theorem parse_exactPath (hstable : u.Stable) (path : SecretPath u) :
    parse u path.text = .ok (exactPath path) := by
  have hnormal : u.normalize path.text = path.text := by
    obtain ⟨input, hinput⟩ := path.parsed
    rw [← (Unicode.parsePath_iff.mp hinput).1, hstable]
  obtain ⟨pattern, hpattern⟩ : ∃ pattern, parse u path.text = .ok pattern := by
    rw [parse_iff, hnormal]
    obtain ⟨hnonempty, hshort, hsegments⟩ := path.spells
    exact ⟨hnonempty, hshort, fun i segment hi => .inl (hsegments i segment hi)⟩
  have htext : pattern.text = (exactPath path).text := by
    rw [text_of_parse hpattern, hnormal]
    rfl
  rw [hpattern, eq_of_text_eq htext]

/-! ### Matching -/

/-- What one segment of a pattern stands for, if it stands for a single segment. -/
def Stands : Segment → String → Prop
  | .literal text, segment => segment = text
  | .one, _ => True
  | .rest, _ => False

/-- The segments of a pattern and those of a path correspond one to one, but that a final `**` stands
for all that are left, of which there is at least one. -/
def Corresponds (pattern : List Segment) (actual : List String) : Prop :=
  List.Forall₂ Stands pattern actual ∨
    ∃ front taken more, pattern = front ++ [.rest] ∧ actual = taken ++ more ∧ more ≠ [] ∧
      List.Forall₂ Stands front taken

theorem not_corresponds_nil_right {segment : Segment} {pattern : List Segment} :
    ¬ Corresponds (segment :: pattern) [] := by
  rintro (h | ⟨front, taken, more, -, hactual, hmore, -⟩)
  · cases h
  · exact hmore (List.append_eq_nil_iff.mp hactual.symm).2

theorem not_corresponds_nil_left {found : String} {actual : List String} :
    ¬ Corresponds [] (found :: actual) := by
  rintro (h | ⟨front, taken, more, hpattern, -⟩)
  · cases h
  · exact absurd hpattern.symm (by simp)

/-- A segment that is not `**` takes one segment. -/
theorem corresponds_cons {segment : Segment} {pattern : List Segment} {found : String}
    {actual : List String} (hsingle : segment ≠ .rest) :
    Corresponds (segment :: pattern) (found :: actual) ↔
      Stands segment found ∧ Corresponds pattern actual := by
  constructor
  · rintro (h | ⟨front, taken, more, hpattern, hactual, hmore, h⟩)
    · obtain ⟨hstands, hrest⟩ := List.forall₂_cons.mp h
      exact ⟨hstands, .inl hrest⟩
    · cases front with
      | nil => exact absurd (List.cons.inj hpattern).1 hsingle
      | cons first front =>
          obtain ⟨rfl, rfl⟩ := List.cons.inj hpattern
          cases h with
          | cons hstands hrest =>
              obtain ⟨rfl, rfl⟩ := List.cons.inj hactual
              exact ⟨hstands, .inr ⟨front, _, more, rfl, rfl, hmore, hrest⟩⟩
  · rintro ⟨hstands, h | ⟨front, taken, more, rfl, rfl, hmore, h⟩⟩
    · exact .inl (.cons hstands h)
    · exact .inr ⟨segment :: front, found :: taken, more, rfl, rfl, hmore, .cons hstands h⟩

/-- The scan finds the correspondence, if `**` stands at the end only. -/
theorem scan_iff {pattern : List Segment} {actual : List String}
    (hlast : ∀ front back, pattern = front ++ .rest :: back → back = []) :
    scan pattern actual = true ↔ Corresponds pattern actual := by
  induction pattern generalizing actual with
  | nil =>
      cases actual with
      | nil => exact iff_of_true rfl (.inl .nil)
      | cons found actual => exact iff_of_false (by simp [scan]) not_corresponds_nil_left
  | cons segment pattern ih =>
      have hlater : ∀ front back, pattern = front ++ .rest :: back → back = [] :=
        fun front back heq => hlast (segment :: front) back (by rw [heq]; rfl)
      cases actual with
      | nil => cases segment <;> exact iff_of_false (by simp [scan]) not_corresponds_nil_right
      | cons found actual =>
          cases segment with
          | rest =>
              have hend : pattern = [] := hlast [] pattern rfl
              refine iff_of_true rfl (.inr ⟨[], [], found :: actual, ?_, rfl, by simp, .nil⟩)
              rw [hend]
              rfl
          | one =>
              rw [corresponds_cons (by simp), ← ih hlater]
              exact ⟨fun h => ⟨trivial, h⟩, fun h => h.2⟩
          | literal text =>
              rw [corresponds_cons (by simp), ← ih hlater, scan]
              by_cases hsame : text = found
              · rw [if_neg (not_not.mpr hsame)]
                exact ⟨fun h => ⟨hsame.symm, h⟩, fun h => h.2⟩
              · rw [if_pos hsame]
                exact iff_of_false (by simp) fun h => hsame h.1.symm

/-- In a pattern that was parsed, `**` stands at the end only. -/
theorem rest_last_of_parse {input : String} {pattern : PathPattern} (h : parse u input = .ok pattern) :
    ∀ front back, pattern.segments = front ++ .rest :: back → back = [] := by
  intro front back heq
  obtain ⟨-, -, hsegments⟩ := parse_iff.mp ⟨pattern, h⟩
  rw [← text_of_parse h] at hsegments
  rw [pattern.segments_eq] at heq
  have hlength := congrArg List.length heq
  rw [List.length_map, List.length_append, List.length_cons] at hlength
  have hat := congrArg (·[front.length]?) heq
  simp only [List.getElem?_map] at hat
  rw [List.getElem?_append_right (Nat.le_refl _), Nat.sub_self] at hat
  obtain ⟨text, htext, hrest⟩ := Option.map_eq_some_iff.mp hat
  rcases hsegments front.length text htext with hliteral | hone | ⟨-, hend⟩
  · rw [ofText_of_literal hliteral] at hrest
    cases hrest
  · rw [hone] at hrest
    cases hrest
  · rw [beq_iff_eq] at hend
    exact List.length_eq_zero_iff.mp (by omega)

/-- The pattern of a path matches that path only. -/
theorem exactPath_matches_iff (path other : SecretPath u) :
    (exactPath path).matchesPath other = true ↔ other = path := by
  have hscan : ∀ expected actual : List String,
      scan (expected.map .literal) actual = true ↔ expected = actual := by
    intro expected
    induction expected with
    | nil =>
        intro actual
        cases actual with
        | nil => simp [scan]
        | cons found actual => simp [scan]
    | cons text expected ih =>
        intro actual
        cases actual with
        | nil => simp [scan]
        | cons found actual =>
            rw [List.map_cons, scan, List.cons.injEq, ← ih]
            by_cases hsame : text = found
            · simp [hsame]
            · simp [hsame]
  show scan (path.segments.map .literal) other.segments = true ↔ _
  rw [hscan]
  constructor
  · intro h
    exact SecretPath.ext (splitChar_injective h).symm
  · rintro rfl
    rfl

end PathPattern

/-! ### Both parsers -/

/-- Paths and patterns are the texts of their grammars, in one normal form; a pattern matches what its
segments stand for. -/
theorem parsers_are_grammars (u : Unicode) (h : u.Lawful) (input : String) :
    ((∃ path, SecretPath.parse u input = .ok path) ↔ u.IsPath (u.nfc input)) ∧
      ((∃ pattern, PathPattern.parse u input = .ok pattern) ↔ u.IsPattern (u.nfc input)) ∧
      (∀ path, SecretPath.parse u input = .ok path →
        path.text = u.nfc input ∧ SecretPath.parse u path.text = .ok path) ∧
      (∀ pattern, PathPattern.parse u input = .ok pattern →
        pattern.text = u.nfc input ∧ PathPattern.parse u pattern.text = .ok pattern) ∧
      (∀ other, u.nfc input = u.nfc other → SecretPath.parse u input = SecretPath.parse u other ∧
        PathPattern.parse u input = PathPattern.parse u other) ∧
      (∀ path : SecretPath u, PathPattern.parse u path.text = .ok (.exactPath path) ∧
        ∀ other, (PathPattern.exactPath path).matchesPath other = true ↔ other = path) ∧
      (∀ pattern (path : SecretPath u), PathPattern.parse u input = .ok pattern →
        (pattern.matchesPath path = true ↔
          PathPattern.Corresponds pattern.segments path.segments)) := by
  have halike : ∀ input other, u.nfc input = u.nfc other →
      SecretPath.parse u input = SecretPath.parse u other ∧
        PathPattern.parse u input = PathPattern.parse u other := by
    intro input other hsame
    have hnormal : u.normalize input = u.normalize other := by
      rw [h.normalize_eq, h.normalize_eq, hsame]
    exact ⟨SecretPath.parse_congr hnormal, PathPattern.parse_congr hnormal⟩
  have hpatternText : ∀ pattern, PathPattern.parse u input = .ok pattern → pattern.text = u.nfc input :=
    fun pattern hpattern => by rw [PathPattern.text_of_parse hpattern, h.normalize_eq]
  have hpathText : ∀ path, SecretPath.parse u input = .ok path → path.text = u.nfc input :=
    fun path hpath => by
      rw [← (Unicode.parsePath_iff.mp (SecretPath.parse_eq_ok.mp hpath)).1, h.normalize_eq]
  refine ⟨?_, ?_, ?_, ?_, halike input, ?_, ?_⟩
  · constructor
    · rintro ⟨path, hpath⟩
      obtain ⟨hnonempty, hshort, hsegments⟩ := path.spells
      rw [← hpathText path hpath]
      exact ⟨hnonempty, hshort, fun i segment hi => (h.isLiteral_iff segment).mp (hsegments i segment hi)⟩
    · rintro ⟨hnonempty, hshort, hsegments⟩
      have htext : u.parsePath input = .ok (u.nfc input) :=
        Unicode.parsePath_iff.mpr ⟨h.normalize_eq input, hnonempty, hshort, fun i segment hi =>
          (h.isLiteral_iff segment).mpr (hsegments i segment hi)⟩
      exact ⟨⟨u.nfc input, input, htext⟩, SecretPath.parse_eq_ok.mpr htext⟩
  · rw [PathPattern.parse_iff, h.normalize_eq]
    have hplace : ∀ i segment, (Rust.splitChar '/' (u.nfc input))[i]? = some segment →
        (PathPattern.MayStand u (i == (Rust.splitChar '/' (u.nfc input)).length - 1) segment ↔
          u.IsSegment segment ∨ segment = "*" ∨
            segment = "**" ∧ i + 1 = (Rust.splitChar '/' (u.nfc input)).length) := by
      intro i segment hi
      have hlt := (List.getElem?_eq_some_iff.mp hi).1
      unfold PathPattern.MayStand
      rw [h.isLiteral_iff, beq_iff_eq,
        show i = (Rust.splitChar '/' (u.nfc input)).length - 1 ↔
          i + 1 = (Rust.splitChar '/' (u.nfc input)).length by omega]
    exact ⟨fun ⟨hnonempty, hshort, hsegments⟩ => ⟨hnonempty, hshort, fun i segment hi =>
        (hplace i segment hi).mp (hsegments i segment hi)⟩,
      fun ⟨hnonempty, hshort, hsegments⟩ => ⟨hnonempty, hshort, fun i segment hi =>
        (hplace i segment hi).mpr (hsegments i segment hi)⟩⟩
  · intro path hpath
    exact ⟨hpathText path hpath, SecretPath.parse_text h.stable path⟩
  · intro pattern hpattern
    refine ⟨hpatternText pattern hpattern, ?_⟩
    rw [(halike pattern.text input (by rw [hpatternText pattern hpattern, h.idempotent])).2, hpattern]
  · exact fun path => ⟨PathPattern.parse_exactPath h.stable path, PathPattern.exactPath_matches_iff path⟩
  · exact fun pattern path hpattern => PathPattern.scan_iff (PathPattern.rest_last_of_parse hpattern)

namespace Sample

theorem asciiUnicode_lawful : asciiUnicode.Lawful where
  idempotent := fun _ => rfl
  quick := fun _ _ => rfl
  letters := by
    intro c hc
    have hranges : (decide (c.val ≥ 65 ∧ c.val ≤ 90) ||
        decide (c.val ≥ 97) && decide (c.val ≤ 122) ||
        decide (c.val ≥ 48) && decide (c.val ≤ 57)) = true := hc
    simp only [Bool.or_eq_true, Bool.and_eq_true, decide_eq_true_eq, ge_iff_le,
      UInt32.le_iff_toNat_le] at hranges
    change ((65 ≤ c.toNat ∧ c.toNat ≤ 90) ∨ (97 ≤ c.toNat ∧ c.toNat ≤ 122)) ∨
      (48 ≤ c.toNat ∧ c.toNat ≤ 57) at hranges
    refine ⟨?_, ?_, ?_⟩
    · simp only [Rust.isControl, Bool.or_eq_false_iff, Bool.and_eq_false_iff, decide_eq_false_iff_not]
      omega
    · simp only [Rust.isWhitespace, Bool.or_eq_false_iff, Bool.and_eq_false_iff,
        decide_eq_false_iff_not, beq_eq_false_iff_ne]
      omega
    · rintro rfl
      have hstar : '*'.toNat = 42 := rfl
      omega

/-- `infra/**` is a pattern and no path, and covers what is below `infra` but not `infra`. -/
theorem infraAll_is_pattern :
    asciiUnicode.IsPattern "infra/**" ∧ ¬ asciiUnicode.IsPath "infra/**" ∧
      ∀ pattern (path : SecretPath asciiUnicode), PathPattern.parse asciiUnicode "infra/**" = .ok pattern →
        (pattern.matchesPath path = true ↔
          PathPattern.Corresponds pattern.segments path.segments) := by
  obtain ⟨hpath, hpattern, -, -, -, -, hmatches⟩ :=
    parsers_are_grammars asciiUnicode asciiUnicode_lawful "infra/**"
  have hread : ((PathPattern.parse asciiUnicode "infra/**").toOption.isSome,
      (SecretPath.parse asciiUnicode "infra/**").toOption.isSome) = (true, false) := by
    decide +kernel
  rw [Prod.mk.injEq] at hread
  refine ⟨hpattern.mp ?_, fun h => ?_, hmatches⟩
  · cases hparse : PathPattern.parse asciiUnicode "infra/**" with
    | error error =>
        rw [hparse] at hread
        cases hread.1
    | ok pattern => exact ⟨pattern, rfl⟩
  · obtain ⟨path, hparsed⟩ := hpath.mpr h
    rw [hparsed] at hread
    cases hread.2

end Sample

end Ciphr
