import Ciphr.ExportRender

/-!
`ciphr-cli/src/formats.rs`: a `.env` file that is imported, and which files that an export has written
come back as they were.
-/

namespace Ciphr

/-- What `{:?}` writes of a text and of a character. -/
structure DebugFormat where
  text : String → String
  char : Char → String

/-- One line of a `.env` file. -/
structure DotEnvEntry where
  key : String
  value : String
  deriving DecidableEq

def NameFault.display (debug : DebugFormat) : NameFault → String
  | .empty => "it is empty"
  | .leadingDigit => "a name may not start with a digit"
  | .character c => debug.char c ++ " is not allowed; use letters, digits and underscore"

def EnvNameError.display (debug : DebugFormat) : EnvNameError → String
  | .notAName found reason =>
      debug.text found ++ " cannot be an environment variable name: " ++ reason.display debug
  | .collision name first second =>
      first ++ " and " ++ second ++ " would both be " ++ name ++
        "; one of them has to be renamed or exported separately"

/-- Shorten a fragment for an error message. -/
def truncate (text : String) : String :=
  if text.toList.length ≤ 24 then text else String.ofList (text.toList.take 24) ++ "…"

/-- Remove one layer of matching quotes. The source compares bytes: a byte that is a quote is one
whole character. -/
def unquote (value : String) : String :=
  match value.toList with
  | first :: rest =>
      if rest ≠ [] ∧ (first = '"' ∧ rest.getLast? = some '"' ∨
          first = '\'' ∧ rest.getLast? = some '\'') then
        String.ofList rest.dropLast
      else value
  | [] => value

/-- One turn of the loop of `parse_dotenv`: nothing for a blank line and for a comment. -/
def parseDotenvLine (debug : DebugFormat) (number : Nat) (raw : String) :
    Except (Nat × String) (Option DotEnvEntry) :=
  let line := Rust.trim raw
  if line.isEmpty || line.toList.head? == some '#' then .ok none
  else
    let line := Rust.trim ((Rust.stripPrefix "export " line).getD line)
    match Rust.splitOnce '=' line with
    | none => .error (number, "no '=' on this line")
    | some (key, value) =>
        let key := Rust.trim key
        match EnvVarName.parse key with
        | .error error =>
            let reason := match error with
              | .notAName _ reason => reason.display debug
              | collision => collision.display debug
            .error (number, debug.text (truncate key) ++ " is not a usable variable name: " ++ reason)
        | .ok name => .ok (some ⟨name.text, unquote (Rust.trim value)⟩)

/-- The lines that are left, of which the first has the number `number`. -/
def parseDotenvLines (debug : DebugFormat) :
    Nat → List String → Except (Nat × String) (List DotEnvEntry)
  | _, [] => .ok []
  | number, raw :: rest => do
      let entry ← parseDotenvLine debug number raw
      let entries ← parseDotenvLines debug (number + 1) rest
      .ok (entry.toList ++ entries)

def parseDotenv (debug : DebugFormat) (text : String) : Except (Nat × String) (List DotEnvEntry) :=
  parseDotenvLines debug 1 (Rust.lines text)

/-! ### One line -/

/-- No name is the word `export`, followed by a blank. -/
theorem stripPrefix_export (name : EnvVarName) (rest : List Char) :
    Rust.stripPrefix "export " (String.ofList (name.text.toList ++ '=' :: rest)) = none := by
  obtain ⟨-, -, -, -, hall⟩ := name.chars
  unfold Rust.stripPrefix
  rw [if_neg]
  intro hword
  obtain ⟨tail, htail⟩ := List.isPrefixOf_iff_prefix.mp hword
  -- after the characters of names, one text goes on with a blank and the other with an equals sign
  have hdrop := congrArg (List.dropWhile isNameChar) htail
  rw [String.toList_ofList, String.toList_ofList, List.dropWhile_append_of_pos hall,
    List.dropWhile_cons_of_neg (by decide)] at hdrop
  cases hdrop

theorem splitOnce_assignment (name : EnvVarName) (rest : List Char) :
    Rust.splitOnce '=' (String.ofList (name.text.toList ++ '=' :: rest)) =
      some (name.text, String.ofList rest) := by
  have hname : ∀ c ∈ name.text.toList, (c != '=') = true := by
    intro c hc
    rw [bne_iff_ne]
    rintro rfl
    exact name.not_mem (by decide) hc
  unfold Rust.splitOnce
  rw [String.toList_ofList, if_pos (by simp), List.takeWhile_append_of_pos hname,
    List.dropWhile_append_of_pos hname]
  simp

/-- What a line is read as that assigns something in quotes to a name. -/
theorem parseDotenvLine_assignment (debug : DebugFormat) (number : Nat) (name : EnvVarName)
    (rest : List Char) :
    parseDotenvLine debug number (String.ofList (name.text.toList ++ '=' :: '\'' :: rest)) =
      .ok (some ⟨name.text, unquote (String.ofList ('\'' :: Rust.trimEnd rest))⟩) := by
  obtain ⟨first, more, hchars, -, hall⟩ := name.chars
  have hspace : ∀ c ∈ name.text.toList, Rust.isWhitespace c = false := fun c hc =>
    not_isWhitespace_of_isNameChar (hall c hc)
  have hfirst : Rust.isWhitespace first = false := hspace first (by rw [hchars]; simp)
  -- trimmed once and trimmed twice, the line is the same
  have htrim : ∀ rest, Rust.trim (String.ofList (name.text.toList ++ '=' :: '\'' :: rest)) =
      String.ofList (name.text.toList ++ '=' :: '\'' :: Rust.trimEnd rest) := by
    intro rest
    rw [hchars, List.cons_append, Rust.trim_cons hfirst, ← List.cons_append, ← hchars,
      Rust.trimEnd_append (by decide), Rust.trimEnd_cons (by decide)]
  have hnotHash : first ≠ '#' := by
    rintro rfl
    exact absurd (hall '#' (by rw [hchars]; simp)) (by decide)
  unfold parseDotenvLine
  rw [htrim]
  dsimp only
  rw [if_neg (by simp [hchars, hnotHash]), stripPrefix_export, Option.getD_none, htrim,
    Rust.trimEnd_trimEnd, splitOnce_assignment]
  dsimp only
  rw [show Rust.trim name.text = name.text by
      have hkeep := Rust.trim_of_forall hspace
      rwa [String.ofList_toList] at hkeep,
    EnvVarName.parse_text]
  dsimp only
  rw [Rust.trim_cons (by decide), Rust.trimEnd_cons (by decide), Rust.trimEnd_trimEnd]

theorem unquote_quoted (inner : List Char) :
    unquote (String.ofList ('\'' :: (inner ++ ['\'']))) = String.ofList inner := by
  unfold unquote
  rw [String.toList_ofList]
  dsimp only
  rw [if_pos ⟨by simp, .inr ⟨rfl, List.getLast?_concat⟩⟩, List.dropLast_concat]

theorem mem_of_mem_unquote {value : String} {c : Char} (h : c ∈ (unquote value).toList) :
    c ∈ value.toList := by
  unfold unquote at h
  split at h
  · rename_i first rest hchars
    split at h
    · rw [String.toList_ofList] at h
      rw [hchars]
      exact List.mem_cons_of_mem _ (List.mem_of_mem_dropLast h)
    · exact h
  · exact h

/-! ### Whole files -/

variable {u : Unicode}

/-- The characters of one line of an export, without the line feed. -/
def dotenvLine (item : Exported u × EnvVarName) : List Char :=
  item.2.text.toList ++ '=' :: '\'' :: (item.1.value.toList.flatMap quoteChar ++ ['\''])

def dotenvText (items : List (Exported u × EnvVarName)) : List Char :=
  items.flatMap fun item => dotenvLine item ++ ['\n']

/-- What an import should find. -/
def dotenvEntry (item : Exported u × EnvVarName) : DotEnvEntry := ⟨item.2.text, item.1.value⟩

theorem renderDotenv_eq {secrets : List (Exported u)} {text : String}
    (h : renderDotenv secrets = .ok text) :
    ∃ names, assignNames secrets = .ok names ∧ names.length = secrets.length ∧
      text = String.ofList (dotenvText (secrets.zip names)) := by
  obtain ⟨names, hnames, h⟩ := Loop.bind_eq_ok h
  have hnames := Loop.mapError_eq_ok hnames
  have hlength := EnvVarName.assign_length hnames
  rw [List.length_map] at hlength
  have hfold : ∀ (items : List (Exported u × EnvVarName)) (out : String),
      items.foldl (fun out item => out ++ item.2.text ++ "=" ++ shellSingleQuote item.1.value ++ "\n")
        out = out ++ String.ofList (dotenvText items) := by
    intro items
    induction items with
    | nil => simp [dotenvText]
    | cons item items ih =>
        intro out
        rw [List.foldl_cons, ih]
        apply String.toList_inj.mp
        simp [dotenvText, dotenvLine, shellSingleQuote]
  refine ⟨names, hnames, hlength, ?_⟩
  rw [hfold, String.empty_append, Except.ok.injEq] at h
  exact h.symm

theorem newline_mem_flatMap_quoteChar {chars : List Char} :
    '\n' ∈ chars.flatMap quoteChar ↔ '\n' ∈ chars := by
  have hchar : ∀ c, '\n' ∈ quoteChar c ↔ c = '\n' := by
    intro c
    unfold quoteChar
    split
    · rename_i hquote
      rw [hquote]
      decide
    · rw [List.mem_singleton, eq_comm]
  rw [List.mem_flatMap]
  constructor
  · rintro ⟨c, hc, hmem⟩
    rwa [← (hchar c).mp hmem]
  · intro hmem
    exact ⟨'\n', hmem, (hchar '\n').mpr rfl⟩

/-- Quoting changes every text that has a quote in it. -/
theorem flatMap_quoteChar_eq_iff (chars : List Char) :
    chars.flatMap quoteChar = chars ↔ '\'' ∉ chars := by
  have hlength : ∀ chars : List Char,
      (chars.flatMap quoteChar).length = chars.length + 3 * chars.count '\'' := by
    intro chars
    induction chars with
    | nil => rfl
    | cons c chars ih =>
        rw [List.flatMap_cons, List.length_append, ih, List.length_cons, List.count_cons, quoteChar]
        by_cases hc : c = '\''
        · simp only [hc, if_true, List.length_cons, List.length_nil, beq_self_eq_true]
          omega
        · simp only [hc, if_false, List.length_singleton, beq_iff_eq]
          omega
  constructor
  · intro heq hmem
    have hpos := List.count_pos_iff.mpr hmem
    have hlen := hlength chars
    rw [heq] at hlen
    omega
  · intro hnone
    induction chars with
    | nil => rfl
    | cons c chars ih =>
        rw [List.mem_cons, not_or] at hnone
        rw [List.flatMap_cons, ih hnone.2, quoteChar, if_neg (Ne.symm hnone.1), List.singleton_append]

/-- A value on one line comes back as it was quoted, without the outer quotes. -/
theorem parseDotenvLines_of_line (debug : DebugFormat) (number : Nat)
    {item : Exported u × EnvVarName} (hvalue : '\n' ∉ item.1.value.toList) (rest : List Char) :
    parseDotenvLines debug number (Rust.lines (String.ofList (dotenvLine item ++ '\n' :: rest))) =
      (parseDotenvLines debug (number + 1) (Rust.lines (String.ofList rest))).map
        (⟨item.2.text, String.ofList (item.1.value.toList.flatMap quoteChar)⟩ :: ·) := by
  have hline : '\n' ∉ dotenvLine item := by
    unfold dotenvLine
    rw [List.mem_append, List.mem_cons, List.mem_cons, List.mem_append, List.mem_singleton,
      newline_mem_flatMap_quoteChar, not_or, not_or, not_or, not_or]
    exact ⟨item.2.not_mem (by decide), by decide, by decide, hvalue, by decide⟩
  have hlast : (dotenvLine item).getLast? = some '\'' := by
    simp [dotenvLine, List.getLast?_append, List.getLast?_cons]
  rw [Rust.lines_cons hline, Rust.chomp_line (by rw [hlast]; decide), parseDotenvLines, dotenvLine,
    parseDotenvLine_assignment, Rust.trimEnd_append (by decide)]
  change (Except.ok _ >>= _) = _
  rw [show Rust.trimEnd [] = [] by rfl, unquote_quoted]
  cases parseDotenvLines debug (number + 1) (Rust.lines (String.ofList rest)) with
  | error error => rfl
  | ok entries => rfl

/-- Of a value on several lines, the import reads the first by itself. -/
theorem parseDotenvLines_of_newline {debug : DebugFormat} {number : Nat}
    {item : Exported u × EnvVarName} (hvalue : '\n' ∈ item.1.value.toList) {rest : List Char}
    {entries : List DotEnvEntry}
    (h : parseDotenvLines debug number (Rust.lines (String.ofList (dotenvLine item ++ '\n' :: rest))) =
      .ok entries) : ∃ first more, entries = first :: more ∧ '\n' ∉ first.value.toList := by
  obtain ⟨front, after, hquoted, hfront⟩ :=
    List.eq_append_cons_of_mem (newline_mem_flatMap_quoteChar.mpr hvalue)
  have hline : '\n' ∉ item.2.text.toList ++ '=' :: '\'' :: front := by
    rw [List.mem_append, List.mem_cons, List.mem_cons, not_or, not_or, not_or]
    exact ⟨item.2.not_mem (by decide), by decide, by decide, hfront⟩
  have htext : dotenvLine item ++ '\n' :: rest =
      (item.2.text.toList ++ '=' :: '\'' :: front) ++ '\n' :: (after ++ '\'' :: '\n' :: rest) := by
    rw [dotenvLine, hquoted]
    simp
  -- a carriage return before the line feed goes with it
  obtain ⟨kept, hkept, hchomp⟩ : ∃ kept, (∀ c ∈ kept, c ∈ front) ∧
      Rust.chomp ((item.2.text.toList ++ '=' :: '\'' :: front) ++ ['\n']) =
        item.2.text.toList ++ '=' :: '\'' :: kept := by
    unfold Rust.chomp
    rw [List.getLast?_concat, if_pos rfl, List.dropLast_concat]
    split
    · rename_i hreturn
      have hne : front ≠ [] := by
        rintro rfl
        simp at hreturn
      refine ⟨front.dropLast, fun c hc => List.mem_of_mem_dropLast hc, ?_⟩
      rw [List.dropLast_append_of_ne_nil (by simp), List.dropLast_cons_of_ne_nil (by simp),
        List.dropLast_cons_of_ne_nil hne]
    · exact ⟨front, fun c hc => hc, rfl⟩
  rw [htext, Rust.lines_cons hline, hchomp, parseDotenvLines, parseDotenvLine_assignment] at h
  obtain ⟨entry, hentry, h⟩ := Loop.bind_eq_ok h
  cases hentry
  obtain ⟨more, -, h⟩ := Loop.bind_eq_ok h
  cases h
  refine ⟨_, more, rfl, fun hmem => ?_⟩
  have hin := mem_of_mem_unquote hmem
  rw [String.toList_ofList, List.mem_cons] at hin
  rcases hin with hin | hin
  · exact absurd hin (by decide)
  · exact hfront (hkept _ (Rust.mem_of_mem_trimEnd hin))

/-- The rendered lines are read back one after the other, up to the first value that is not. -/
theorem parseDotenv_dotenvText (debug : DebugFormat) (items : List (Exported u × EnvVarName))
    (number : Nat) :
    parseDotenvLines debug number (Rust.lines (String.ofList (dotenvText items))) =
        .ok (items.map dotenvEntry) ↔
      ∀ item ∈ items, '\n' ∉ item.1.value.toList ∧ '\'' ∉ item.1.value.toList := by
  induction items generalizing number with
  | nil => simp [dotenvText, Rust.lines, Rust.splitInclusive, parseDotenvLines]
  | cons item items ih =>
      have htext : dotenvText (item :: items) = dotenvLine item ++ '\n' :: dotenvText items := by
        simp [dotenvText]
      rw [htext, List.forall_mem_cons]
      by_cases hvalue : '\n' ∈ item.1.value.toList
      · constructor
        · intro h
          obtain ⟨first, more, hfirst, hnone⟩ := parseDotenvLines_of_newline hvalue h
          rw [List.map_cons, List.cons.injEq] at hfirst
          rw [← hfirst.1] at hnone
          exact absurd hvalue hnone
        · intro h
          exact absurd hvalue h.1.1
      · rw [parseDotenvLines_of_line debug number hvalue, ← ih (number + 1), ←
          flatMap_quoteChar_eq_iff]
        cases parseDotenvLines debug (number + 1)
            (Rust.lines (String.ofList (dotenvText items))) with
        | error error => simp [Except.map]
        | ok entries =>
            simp only [Except.map, List.map_cons, Except.ok.injEq, List.cons.injEq, dotenvEntry,
              DotEnvEntry.mk.injEq, true_and, hvalue, not_false_eq_true]
            rw [← String.toList_inj, String.toList_ofList]

/-- An export in the dotenv format is imported as it was exactly where no value has a line feed or a
single quote in it. -/
theorem dotenv_round_trip_iff (debug : DebugFormat) (secrets : List (Exported u)) (text : String)
    (h : renderDotenv secrets = .ok text) :
    ∃ names, assignNames secrets = .ok names ∧ names.length = secrets.length ∧
      (parseDotenv debug text =
          .ok ((secrets.zip names).map fun item => ⟨item.2.text, item.1.value⟩) ↔
        ∀ secret ∈ secrets, '\n' ∉ secret.value.toList ∧ '\'' ∉ secret.value.toList) := by
  obtain ⟨names, hnames, hlength, rfl⟩ := renderDotenv_eq h
  refine ⟨names, hnames, hlength, ?_⟩
  have hread := parseDotenv_dotenvText debug (secrets.zip names) 1
  unfold parseDotenv
  rw [show (fun item : Exported u × EnvVarName => (⟨item.2.text, item.1.value⟩ : DotEnvEntry)) =
    dotenvEntry from rfl, hread]
  have hsecrets : (secrets.zip names).map (·.1) = secrets := List.map_fst_zip hlength.ge
  constructor
  · intro hall secret hmem
    rw [← hsecrets] at hmem
    obtain ⟨item, hitem, rfl⟩ := List.mem_map.mp hmem
    exact hall item hitem
  · intro hall item hitem
    exact hall item.1 (List.of_mem_zip hitem).1

namespace Sample

def databasePassword : SecretPath asciiUnicode :=
  ⟨"infra/web/DB_PASSWORD", "infra/web/DB_PASSWORD", by decide +kernel⟩

/-- The format of plain text, which has nothing to escape. -/
def plainDebug : DebugFormat :=
  ⟨fun text => "\"" ++ text ++ "\"", fun c => "'" ++ String.ofList [c] ++ "'"⟩

def plainSecret : List (Exported asciiUnicode) := [⟨databasePassword, "p4$$ = #\"\\ "⟩]

theorem dotenv_round_trip_plain :
    renderDotenv plainSecret = .ok "DB_PASSWORD='p4$$ = #\"\\ '\n" ∧
      parseDotenv plainDebug "DB_PASSWORD='p4$$ = #\"\\ '\n" =
        .ok [⟨"DB_PASSWORD", "p4$$ = #\"\\ "⟩] := by
  have hrender : renderDotenv plainSecret = .ok "DB_PASSWORD='p4$$ = #\"\\ '\n" := by
    decide +kernel
  have hassigned : (assignNames plainSecret).map (·.map (·.text)) = .ok ["DB_PASSWORD"] := by
    decide +kernel
  obtain ⟨names, hnames, -, hiff⟩ := dotenv_round_trip_iff plainDebug plainSecret _ hrender
  rw [hnames, Except.map, Except.ok.injEq] at hassigned
  obtain ⟨name, rfl, hname⟩ := List.map_eq_singleton_iff.mp hassigned
  refine ⟨hrender, ?_⟩
  rw [hiff.mpr (by decide +kernel), plainSecret, List.zip_cons_cons, List.zip_nil_right,
    List.map_singleton, hname]

/-- A value with a single quote is rendered, and read back with the escape left in it. -/
theorem dotenv_quote_not_read_back :
    ∃ secrets : List (Exported asciiUnicode), renderDotenv secrets = .ok "DB_PASSWORD='it'\\''s'\n" ∧
      secrets.map (·.value) = ["it's"] ∧
      parseDotenv plainDebug "DB_PASSWORD='it'\\''s'\n" = .ok [⟨"DB_PASSWORD", "it'\\''s"⟩] ∧
      parseDotenv plainDebug "DB_PASSWORD='it'\\''s'\n" ≠ .ok [⟨"DB_PASSWORD", "it's"⟩] := by
  refine ⟨[⟨databasePassword, "it's"⟩], ?_⟩
  decide +kernel

end Sample

end Ciphr
