import Ciphr.ExportRender

/-!
The assignments of an export, as the reader of an environment file takes them. A line is
`NAME=value`, or it opens a value that goes on to the first line equal to its delimiter; a value that
could end its own assignment would be read as further ones.
-/

namespace Ciphr

/-- What a line says after the name: the value, or the delimiter of the lines that follow. -/
inductive LineKind where
  | assigns (value : List Char)
  | heredoc (delimiter : List Char)
  deriving DecidableEq

/-- A line up to the first `=` or `<<`, and what it says. -/
def readAssignment : List Char → Option (List Char × LineKind)
  | '=' :: rest => some ([], .assigns rest)
  | '<' :: '<' :: rest => some ([], .heredoc rest)
  | c :: rest => (readAssignment rest).map fun found => (c :: found.1, found.2)
  | [] => none

/-- A value that is being read: its name, its delimiter and its lines so far. -/
structure OpenValue where
  name : List Char
  delimiter : List Char
  lines : List (List Char)

/-- The assignments of the lines of an environment file. -/
def readLines : Option OpenValue → List (List Char) → Option (List (String × String))
  | none, [] => some []
  | some _, [] => none
  | none, line :: rest =>
      match readAssignment line with
      | none => none
      | some (name, .assigns value) =>
          (readLines none rest).map ((String.ofList name, String.ofList value) :: ·)
      | some (name, .heredoc delimiter) => readLines (some ⟨name, delimiter, []⟩) rest
  | some value, line :: rest =>
      if line = value.delimiter then
        (readLines none rest).map
          ((String.ofList value.name, String.ofList (['\n'].intercalate value.lines)) :: ·)
      else readLines (some { value with lines := value.lines ++ [line] }) rest

/-- The lines of a text, without the empty one after the line feed that ends it. -/
def lfLines (text : List Char) : List (List Char) :=
  let lines := text.splitOn '\n'
  if lines.getLast? = some [] then lines.dropLast else lines

def readEnvironmentFile (text : String) : Option (List (String × String)) :=
  readLines none (lfLines text.toList)

example : readEnvironmentFile "A=b<<c\nD<<end\nE=1\n\nend\n" = some [("A", "b<<c"), ("D", "E=1\n")] := by
  decide +kernel

/-! ### Reading one assignment after the other -/

theorem lfLines_append (chunk rest : List Char) :
    lfLines (chunk ++ '\n' :: rest) = chunk.splitOn '\n' ++ lfLines rest := by
  unfold lfLines
  dsimp only
  rw [List.splitOn_append_cons_self, List.getLast?_append_of_ne_nil _ (List.splitOn_ne_nil _ _)]
  split
  · rw [List.dropLast_append_of_ne_nil (List.splitOn_ne_nil _ _)]
  · rfl

/-- The lines of a value are collected up to its delimiter. -/
theorem readLines_collect (value : OpenValue) (lines rest : List (List Char))
    (h : value.delimiter ∉ lines) :
    readLines (some value) (lines ++ value.delimiter :: rest) =
      (readLines none rest).map ((String.ofList value.name,
        String.ofList (['\n'].intercalate (value.lines ++ lines))) :: ·) := by
  induction lines generalizing value with
  | nil =>
      rw [List.nil_append, readLines, if_pos rfl, List.append_nil]
  | cons line lines ih =>
      rw [List.mem_cons, not_or] at h
      rw [List.cons_append, readLines, if_neg (Ne.symm h.1)]
      have hmore := ih { value with lines := value.lines ++ [line] } h.2
      rw [hmore, List.append_assoc, List.singleton_append]

/-- A character that neither ends a name nor begins something that does. -/
theorem readAssignment_cons {c : Char} (h : isNameChar c = true) (rest : List Char) :
    readAssignment (c :: rest) = (readAssignment rest).map fun found => (c :: found.1, found.2) := by
  have heq : c ≠ '=' := by
    rintro rfl
    cases h
  have hlt : c ≠ '<' := by
    rintro rfl
    cases h
  rw [readAssignment]
  · exact heq
  · intro more hmore
    exact absurd hmore hlt

theorem readAssignment_append {name : List Char} (h : ∀ c ∈ name, isNameChar c = true)
    (rest : List Char) :
    readAssignment (name ++ rest) =
      (readAssignment rest).map fun found => (name ++ found.1, found.2) := by
  induction name with
  | nil =>
      rw [List.nil_append]
      cases readAssignment rest with
      | none => rfl
      | some found => rfl
  | cons c name ih =>
      rw [List.cons_append, readAssignment_cons (h c List.mem_cons_self),
        ih fun d hd => h d (List.mem_cons_of_mem _ hd), Option.map_map]
      rfl

/-- A text that is read as one assignment, whatever follows it. -/
def Assigns (chunk : String) (name value : String) : Prop :=
  ∀ rest, readLines none (lfLines (chunk.toList ++ rest)) =
    (readLines none (lfLines rest)).map ((name, value) :: ·)

theorem assigns_line (name : EnvVarName) {value : String} (hvalue : '\n' ∉ value.toList) :
    Assigns (name.text ++ "=" ++ value ++ "\n") name.text value := by
  intro rest
  obtain ⟨-, -, -, -, hall⟩ := name.chars
  have hline : '\n' ∉ name.text.toList ++ '=' :: value.toList := by
    rw [List.mem_append, List.mem_cons, not_or, not_or]
    exact ⟨name.not_mem (by decide), by decide, hvalue⟩
  have hchunk : (name.text ++ "=" ++ value ++ "\n").toList ++ rest =
      (name.text.toList ++ '=' :: value.toList) ++ '\n' :: rest := by
    simp
  rw [hchunk, lfLines_append, List.splitOn_eq_singleton hline, List.singleton_append, readLines,
    readAssignment_append hall]
  simp [readAssignment]

theorem assigns_heredoc (name : EnvVarName) {value delimiter : String}
    (hdelimiter : '\n' ∉ delimiter.toList) (hvalue : delimiter.toList ∉ value.toList.splitOn '\n') :
    Assigns (name.text ++ "<<" ++ delimiter ++ "\n" ++ value ++ "\n" ++ delimiter ++ "\n") name.text
      value := by
  intro rest
  obtain ⟨-, -, -, -, hall⟩ := name.chars
  have hline : '\n' ∉ name.text.toList ++ '<' :: '<' :: delimiter.toList := by
    rw [List.mem_append, List.mem_cons, List.mem_cons, not_or, not_or, not_or]
    exact ⟨name.not_mem (by decide), by decide, by decide, hdelimiter⟩
  have hchunk : (name.text ++ "<<" ++ delimiter ++ "\n" ++ value ++ "\n" ++ delimiter ++ "\n").toList ++
      rest = (name.text.toList ++ '<' :: '<' :: delimiter.toList) ++ '\n' ::
        (value.toList ++ '\n' :: (delimiter.toList ++ '\n' :: rest)) := by
    simp
  rw [hchunk, lfLines_append, lfLines_append, lfLines_append, List.splitOn_eq_singleton hline,
    List.splitOn_eq_singleton hdelimiter, List.singleton_append, List.singleton_append, readLines,
    readAssignment_append hall]
  simp only [readAssignment, Option.map_some]
  rw [readLines_collect _ _ _ hvalue]
  simp

/-- A candidate that is taken as the delimiter stands on no line of the value. -/
theorem drawDelimiter_eq_ok {random : Entropy} {name value delimiter : String}
    {attempts drawn drawn' : Nat}
    (h : drawDelimiter random name value attempts drawn = .ok (delimiter, drawn')) :
    ∃ bytes : Vector UInt8 16, delimiter = "ciphr_" ++ name ++ "_" ++ Hex.encode bytes.toList ∧
      delimiter ∉ Rust.lines value := by
  induction attempts generalizing drawn with
  | zero => cases h
  | succ attempts ih =>
      unfold drawDelimiter at h
      split at h
      · cases h
      · rename_i bytes _
        dsimp only at h
        split at h
        · exact ih h
        · rename_i hfresh
          cases h
          refine ⟨bytes, rfl, fun hmem => hfresh ?_⟩
          rw [List.any_eq_true]
          exact ⟨_, hmem, beq_self_eq_true _⟩

/-- A delimiter is made of the characters of names. -/
theorem isNameChar_of_mem_delimiter (name : EnvVarName) (bytes : Vector UInt8 16) {c : Char}
    (h : c ∈ ("ciphr_" ++ name.text ++ "_" ++ Hex.encode bytes.toList).toList) :
    isNameChar c = true := by
  obtain ⟨-, -, -, -, hall⟩ := name.chars
  have hword : ∀ d ∈ "ciphr_".toList, isNameChar d = true := List.all_eq_true.mp (by decide)
  have hdigits : ∀ d ∈ Hex.digits, isNameChar d = true := List.all_eq_true.mp (by decide)
  rw [String.toList_append, String.toList_append, String.toList_append, List.mem_append,
    List.mem_append, List.mem_append] at h
  rcases h with ((h | h) | h) | h
  · exact hword c h
  · exact hall c h
  · rw [show "_".toList = ['_'] by rfl, List.mem_singleton] at h
    rw [h]
    rfl
  · exact hdigits c (Hex.mem_digits_of_mem_encode h)

theorem assigns_of_heredocDelimiter {random : Entropy} {name : EnvVarName} {value delimiter : String}
    {drawn drawn' : Nat}
    (h : heredocDelimiter random name.text value drawn = .ok (delimiter, drawn')) :
    Assigns (name.text ++ "<<" ++ delimiter ++ "\n" ++ value ++ "\n" ++ delimiter ++ "\n") name.text
      value := by
  obtain ⟨bytes, hdelimiter, hfresh⟩ := drawDelimiter_eq_ok h
  have hchars : ∀ c ∈ delimiter.toList, isNameChar c = true := by
    rw [hdelimiter]
    exact fun c hc => isNameChar_of_mem_delimiter name bytes hc
  have hfeed : '\n' ∉ delimiter.toList := fun hmem => absurd (hchars _ hmem) (by decide)
  refine assigns_heredoc name hfeed fun hline => hfresh ?_
  have hin := Rust.mem_lines hline ?_ hfeed ?_
  · rwa [String.ofList_toList] at hin
  · rw [hdelimiter]
    simp
  · intro hlast
    exact absurd (hchars _ (List.mem_of_getLast? hlast)) (by decide)

variable {u : Unicode}

/-- One turn of the loop adds one assignment. -/
theorem renderNext_assigns {random : Entropy} {state state' : Rendering}
    {item : Exported u × EnvVarName} (h : renderNext random state item = .ok state') :
    ∃ chunk, state'.assignments = state.assignments ++ chunk ∧
      Assigns chunk item.2.text item.1.value := by
  unfold renderNext at h
  dsimp only at h
  split at h
  · obtain ⟨⟨delimiter, drawn⟩, hdelimiter, h⟩ := Loop.bind_eq_ok h
    cases h
    exact ⟨_, rfl, assigns_of_heredocDelimiter hdelimiter⟩
  · rename_i hline
    cases h
    exact ⟨_, rfl, assigns_line item.2 (by simpa using hline)⟩

/-- The assignments of a whole loop are read back one after the other. -/
theorem renderAll_assigns {random : Entropy} (items : List (Exported u × EnvVarName))
    {state state' : Rendering} (h : items.foldlM (renderNext random) state = .ok state') :
    ∃ text, state'.assignments = state.assignments ++ text ∧
      ∀ rest, readLines none (lfLines (text.toList ++ rest)) =
        (readLines none (lfLines rest)).map
          ((items.map fun item => (item.2.text, item.1.value)) ++ ·) := by
  induction items generalizing state with
  | nil =>
      cases h
      refine ⟨"", by simp, fun rest => ?_⟩
      rw [String.toList_empty, List.nil_append]
      cases readLines none (lfLines rest) with
      | none => rfl
      | some found => rfl
  | cons item items ih =>
      obtain ⟨next, hnext, h⟩ := Loop.foldlM_cons_eq_ok h
      obtain ⟨chunk, hchunk, hassigns⟩ := renderNext_assigns hnext
      obtain ⟨text, htext, hread⟩ := ih h
      refine ⟨chunk ++ text, by rw [htext, hchunk, String.append_assoc], fun rest => ?_⟩
      rw [String.toList_append, List.append_assoc, hassigns, hread, Option.map_map]
      rfl

/-- Assignments that were rendered are read as the names with their values. -/
theorem read_assignments {random : Entropy} {secrets : List (Exported u)} {masks assignments : String}
    (h : renderActionsEnv random secrets = .ok (masks, assignments)) :
    ∃ names, assignNames secrets = .ok names ∧ names.length = secrets.length ∧
      readEnvironmentFile assignments =
        some ((secrets.zip names).map fun item => (item.2.text, item.1.value)) := by
  obtain ⟨names, hnames, h⟩ := Loop.bind_eq_ok h
  obtain ⟨state, hstate, h⟩ := Loop.bind_eq_ok h
  rw [Except.ok.injEq, Prod.mk.injEq] at h
  have hnames := Loop.mapError_eq_ok hnames
  have hlength := EnvVarName.assign_length hnames
  rw [List.length_map] at hlength
  obtain ⟨text, htext, hread⟩ := renderAll_assigns _ hstate
  refine ⟨names, hnames, hlength, ?_⟩
  have hread := hread []
  rw [List.append_nil] at hread
  unfold readEnvironmentFile
  rw [← h.2, htext, String.empty_append, hread]
  simp [lfLines, readLines]

/-- Whatever the values contain and whatever is drawn, the assignments are read as the names with
their values, in order, and nothing else; and where a call fails nothing is written. -/
theorem actions_env_lossless (random : Entropy) (secrets : List (Exported u)) :
    (∀ masks assignments, renderActionsEnv random secrets = .ok (masks, assignments) →
      ∃ names, assignNames secrets = .ok names ∧ names.length = secrets.length ∧
        readEnvironmentFile assignments =
          some ((secrets.zip names).map fun item => (item.2.text, item.1.value))) ∧
      ∀ error, renderActionsEnv random secrets = .error error →
        ∀ githubEnv faults sinks,
          deliver random secrets githubEnv faults sinks = (sinks, .error (.render error)) := by
  refine ⟨fun masks assignments h => read_assignments h, ?_⟩
  intro error h githubEnv faults sinks
  unfold deliver
  rw [h]

namespace Sample

def certificate : SecretPath asciiUnicode :=
  ⟨"infra/web/CERT", "infra/web/CERT", by decide +kernel⟩

/-- A random source that begins with a delimiter which the value contains. -/
def guessed : Entropy := fun n => some (Vector.replicate 16 (UInt8.ofNat n))

def webToken : SecretPath asciiUnicode := ⟨"infra/web/TOKEN", "infra/web/TOKEN", by decide +kernel⟩

/-- A value that closes the assignment with the first delimiter drawn and goes on with another, and a
plain one behind it. -/
def hostile : List (Exported asciiUnicode) :=
  [⟨certificate, "x\nciphr_CERT_00000000000000000000000000000000\nPATH=/tmp"⟩, ⟨webToken, "s3cret"⟩]

def hostileAssignments : String :=
  "CERT<<ciphr_CERT_01010101010101010101010101010101\nx\n" ++
    "ciphr_CERT_00000000000000000000000000000000\nPATH=/tmp\n" ++
    "ciphr_CERT_01010101010101010101010101010101\nTOKEN=s3cret\n"

def hostileMasks : String :=
  "::add-mask::x\n::add-mask::ciphr_CERT_00000000000000000000000000000000\n::add-mask::PATH=/tmp\n" ++
    "::add-mask::s3cret\n"

theorem actions_env_lossless_hostile :
    renderActionsEnv guessed hostile = .ok (hostileMasks, hostileAssignments) ∧
      readEnvironmentFile hostileAssignments =
        some [("CERT", "x\nciphr_CERT_00000000000000000000000000000000\nPATH=/tmp"), ("TOKEN", "s3cret")] := by
  have hrender : renderActionsEnv guessed hostile = .ok (hostileMasks, hostileAssignments) := by
    decide +kernel
  have hnames : (assignNames hostile).map (·.map (·.text)) = .ok ["CERT", "TOKEN"] := by
    decide +kernel
  refine ⟨hrender, ?_⟩
  obtain ⟨names, hassigned, -, hread⟩ :=
    (actions_env_lossless guessed hostile).1 hostileMasks hostileAssignments hrender
  rw [hassigned, Except.map, Except.ok.injEq] at hnames
  obtain ⟨name, others, rfl, hname, hothers⟩ := List.map_eq_cons_iff.mp hnames
  obtain ⟨other, rfl, hother⟩ := List.map_eq_singleton_iff.mp hothers
  rw [hread, hostile, List.zip_cons_cons, List.zip_cons_cons, List.zip_nil_right, List.map_cons,
    List.map_singleton, hname, hother]

end Sample

end Ciphr
