import Mathlib.Data.List.Basic

/-!
How a POSIX shell reads a script, as far as the script has only words, assignments and simple commands:
quoting with single quotes and backslashes, comments, and line continuations. What is not read here
(double quotes, expansions, operators and NUL) is refused.
-/

namespace Shell

/-- A character of a word, and whether it has lost what it would mean to the shell. -/
inductive Part where
  | bare (c : Char)
  | quoted (c : Char)
  deriving DecidableEq

namespace Part

def char : Part → Char
  | .bare c => c
  | .quoted c => c

end Part

abbrev Word := List Part

/-- The word after quote removal. -/
def text (word : Word) : List Char := word.map Part.char

abbrev Command := List Word

theorem text_quoted (value : List Char) : text (value.map .quoted) = value := by
  unfold text
  rw [List.map_map]
  exact List.map_id value

theorem text_bare (value : List Char) : text (value.map .bare) = value := by
  unfold text
  rw [List.map_map]
  exact List.map_id value

/-! ### Words -/

/-- How the next character is read. -/
inductive Mode where
  | bare
  /-- Between single quotes. -/
  | single
  /-- After a backslash. -/
  | escaped
  | comment
  deriving DecidableEq

/-- The word and the command that are under way, and the commands before them. A word can be empty: two
quotes with nothing between them are one. -/
structure Reader where
  mode : Mode
  word : Option Word
  words : Command
  commands : List Command
  deriving DecidableEq

namespace Reader

def start : Reader := ⟨.bare, none, [], []⟩

def startWord (s : Reader) : Reader := { s with word := some (s.word.getD []) }

def push (s : Reader) (part : Part) : Reader := { s with word := some (s.word.getD [] ++ [part]) }

def endWord (s : Reader) : Reader := { s with word := none, words := s.words ++ s.word.toList }

def endCommand (s : Reader) : Reader :=
  let s := s.endWord
  if s.words = [] then s else { s with words := [], commands := s.commands ++ [s.words] }

/-- Operators, and what begins a double quote or an expansion. -/
def refused : List Char := [';', '&', '|', '<', '>', '(', ')', '"', '$', '\x60', '\x00']

def step (s : Reader) (c : Char) : Option Reader :=
  match s.mode with
  | .bare =>
      if refused.contains c then none
      else if c = '\'' then some { s.startWord with mode := .single }
      else if c = '\\' then some { s with mode := .escaped }
      else if c = '\n' then some s.endCommand
      else if c = ' ' ∨ c = '\t' then some s.endWord
      else if c = '#' ∧ s.word = none then some { s with mode := .comment }
      else some (s.push (.bare c))
  | .single =>
      if c = '\x00' then none
      else if c = '\'' then some { s with mode := .bare }
      else some (s.push (.quoted c))
  | .escaped =>
      if c = '\x00' then none
      else if c = '\n' then some { s with mode := .bare }
      else some { s.push (.quoted c) with mode := .bare }
  | .comment =>
      if c = '\x00' then none
      else if c = '\n' then some { s.endCommand with mode := .bare }
      else some s

def run (s : Reader) (chars : List Char) : Option Reader := chars.foldlM step s

/-- At the end of the script no quote is open, and no backslash is without its character. -/
def finish (s : Reader) : Option (List Command) :=
  match s.mode with
  | .bare => some s.endCommand.commands
  | .comment => some s.endCommand.commands
  | .single => none
  | .escaped => none

/-- Nothing is under way at the end. -/
theorem finish_idle (before : List Command) : finish ⟨.bare, none, [], before⟩ = some before := rfl

variable {s s' : Reader}

theorem run_cons {c : Char} (h : s.step c = some s') (rest : List Char) :
    s.run (c :: rest) = s'.run rest := by
  unfold run
  rw [List.foldlM_cons, h]
  rfl

theorem run_append {chars : List Char} (h : s.run chars = some s') (rest : List Char) :
    s.run (chars ++ rest) = s'.run rest := by
  unfold run at h ⊢
  rw [List.foldlM_append, h]
  rfl

/-- An unquoted character that means nothing to the shell. -/
theorem step_plain {c : Char} (hmode : s.mode = .bare) (hrefused : refused.contains c = false)
    (hplain : c ∉ ['\'', '\\', '\n', ' ', '\t', '#']) : s.step c = some (s.push (.bare c)) := by
  simp only [List.mem_cons, List.not_mem_nil, or_false, not_or] at hplain
  obtain ⟨hquote, hslash, hfeed, hspace, htab, hhash⟩ := hplain
  unfold step
  rw [hmode]
  dsimp only
  rw [hrefused, if_neg Bool.false_ne_true, if_neg hquote, if_neg hslash, if_neg hfeed,
    if_neg (not_or.mpr ⟨hspace, htab⟩), if_neg fun h => hhash h.1]

theorem step_newline (hmode : s.mode = .bare) : s.step '\n' = some s.endCommand := by
  unfold step
  rw [hmode]
  rfl

/-- Between single quotes every character stands for itself. -/
theorem step_single {c : Char} (hmode : s.mode = .single) (hnul : c ≠ '\x00') (hquote : c ≠ '\'') :
    s.step c = some (s.push (.quoted c)) := by
  unfold step
  rw [hmode]
  dsimp only
  rw [if_neg hnul, if_neg hquote]

end Reader

/-! ### Quotes -/

/-- Between single quotes; a quote is written as one after a backslash, outside of them. -/
def quote (value : List Char) : List Char :=
  '\'' :: ((value.flatMap fun c => if c = '\'' then ['\'', '\\', '\'', '\''] else [c]) ++ ['\''])

namespace Reader

/-- What a quoted value adds to the word that is under way. -/
def quoted (s : Reader) (value : List Char) : Reader :=
  { s with word := some (s.word.getD [] ++ value.map .quoted) }

variable {s s' : Reader}

/-- The characters of a quoted value, read between the quotes. -/
theorem run_quoted_chars {value : List Char} (hnul : '\x00' ∉ value) {word : Word}
    {words : Command} {commands : List Command} :
    Reader.run ⟨.single, some word, words, commands⟩
        (value.flatMap fun c => if c = '\'' then ['\'', '\\', '\'', '\''] else [c]) =
      some ⟨.single, some (word ++ value.map .quoted), words, commands⟩ := by
  induction value generalizing word with
  | nil =>
      rw [List.map_nil, List.append_nil]
      rfl
  | cons c value ih =>
      rw [List.mem_cons, not_or] at hnul
      have hrest : (word ++ [Part.quoted c]) ++ value.map .quoted =
          word ++ (c :: value).map .quoted := by
        rw [List.map_cons, List.append_assoc, List.singleton_append]
      rw [List.flatMap_cons, ← hrest]
      by_cases hquote : c = '\''
      · -- the quote is closed, escaped and opened again
        rw [if_pos hquote, hquote]
        have hfour : Reader.run ⟨.single, some word, words, commands⟩ ['\'', '\\', '\'', '\''] =
            some ⟨.single, some (word ++ [Part.quoted '\'']), words, commands⟩ := rfl
        rw [run_append hfour]
        exact ih hnul.2
      · rw [if_neg hquote, List.singleton_append,
          run_cons (step_single rfl (Ne.symm hnul.1) hquote)]
        exact ih hnul.2

/-- A quoted value is read as itself, wherever it stands in a word, and nothing after it is. -/
theorem run_quote {value : List Char} (hmode : s.mode = .bare) (hnul : '\x00' ∉ value)
    (rest : List Char) : s.run (quote value ++ rest) = (s.quoted value).run rest := by
  obtain ⟨mode, word, words, commands⟩ := s
  cases hmode
  have hopen : Reader.step ⟨.bare, word, words, commands⟩ '\'' =
      some ⟨.single, some (word.getD []), words, commands⟩ := rfl
  have hclose : Reader.step ⟨.single, some (word.getD [] ++ value.map .quoted), words, commands⟩ '\'' =
      some ⟨.bare, some (word.getD [] ++ value.map .quoted), words, commands⟩ := rfl
  unfold quote
  rw [List.cons_append, run_cons hopen, List.append_assoc, run_append (run_quoted_chars hnul),
    List.singleton_append, run_cons hclose]
  rfl

/-- Characters that mean nothing to the shell, unquoted. -/
theorem run_plain {chars : List Char} (hmode : s.mode = .bare)
    (hrefused : ∀ c ∈ chars, refused.contains c = false)
    (hplain : ∀ c ∈ chars, c ∉ ['\'', '\\', '\n', ' ', '\t', '#']) (hne : chars ≠ []) :
    s.run chars = some { s with word := some (s.word.getD [] ++ chars.map .bare) } := by
  induction chars generalizing s with
  | nil => exact absurd rfl hne
  | cons c chars ih =>
      rw [List.forall_mem_cons] at hrefused hplain
      rw [run_cons (step_plain hmode hrefused.1 hplain.1)]
      by_cases hmore : chars = []
      · rw [hmore]
        rfl
      · rw [ih (s := s.push (.bare c)) hmode hrefused.2 hplain.2 hmore]
        unfold push
        dsimp only
        rw [Option.getD_some, List.map_cons, List.append_assoc, List.singleton_append]

end Reader

/-- The commands of a script. -/
def commands (script : List Char) : Option (List Command) :=
  (Reader.start.run script).bind Reader.finish

/-! ### What a script does -/

/-- Letters, digits and underscores, of which a digit does not come first. -/
def isName : List Char → Bool
  | [] => false
  | c :: rest => !c.isDigit && (c :: rest).all fun d => d.isAlphanum || d == '_'

/-- The name and the value of a word that is an assignment: its name and the sign of equality are not
quoted. -/
def assignment? (word : Word) : Option (List Char × Word) :=
  let name := word.takeWhile fun part => part ≠ .bare '='
  let rest := word.dropWhile fun part => part ≠ .bare '='
  match rest with
  | [] => none
  | _ :: value =>
      if (name = (text name).map .bare) ∧ isName (text name) = true then some (text name, value)
      else none

inductive Action where
  | assign (name value : List Char)
  /-- An assignment of what a value with a tilde is expanded to. -/
  | expand (name : List Char) (value : Word)
  | run (command : Command)
  deriving DecidableEq

def assignAction : List Char × Word → Action
  | (name, value) =>
      if value.contains (.bare '~') then .expand name value else .assign name (text value)

/-- A command that is nothing but assignments changes the variables of the shell. -/
def actions (command : Command) : List Action :=
  match command.mapM assignment? with
  | some assignments => assignments.map assignAction
  | none => [.run command]

/-- What sourcing a script does, in order. -/
def source (script : List Char) : Option (List Action) :=
  (commands script).map fun commands => commands.flatMap actions

/-! ### Lines of assignments -/

theorem isAlphanum_or_of_isName {name : List Char} (h : isName name = true) {c : Char} (hc : c ∈ name) :
    (c.isAlphanum || c == '_') = true := by
  unfold isName at h
  split at h
  · cases hc
  · rw [Bool.and_eq_true, List.all_eq_true] at h
    exact h.2 c hc

/-- No character of a name means anything to the shell. -/
theorem plain_of_isName {name : List Char} (h : isName name = true) {c : Char} (hc : c ∈ name) :
    Reader.refused.contains c = false ∧ c ∉ ['\'', '\\', '\n', ' ', '\t', '#'] ∧ c ≠ '=' := by
  have hname := isAlphanum_or_of_isName h hc
  have hall : (Reader.refused ++ ['\'', '\\', '\n', ' ', '\t', '#', '=']).all
      (fun d => !(d.isAlphanum || d == '_')) = true := by
    decide
  have hnot : c ∉ Reader.refused ++ ['\'', '\\', '\n', ' ', '\t', '#', '='] := by
    intro hmem
    have hother := List.all_eq_true.mp hall c hmem
    rw [hname] at hother
    cases hother
  rw [List.mem_append, not_or] at hnot
  simp only [List.mem_cons, List.not_mem_nil, or_false, not_or] at hnot ⊢
  obtain ⟨hrefused, hquote, hslash, hfeed, hspace, htab, hhash, hequals⟩ := hnot
  refine ⟨?_, ⟨hquote, hslash, hfeed, hspace, htab, hhash⟩, hequals⟩
  rw [Bool.eq_false_iff, ne_eq, List.contains_iff_mem]
  exact hrefused

/-- An assignment of a quoted value, on a line of its own. -/
def assignment (name value : List Char) : List Char := name ++ '=' :: (quote value ++ ['\n'])

/-- The word of such an assignment. -/
def assignmentWord (name value : List Char) : Word :=
  name.map .bare ++ .bare '=' :: value.map .quoted

theorem run_assignment {name value : List Char} (hname : isName name = true) (hnul : '\x00' ∉ value)
    (before : List Command) :
    Reader.run ⟨.bare, none, [], before⟩ (assignment name value) =
      some ⟨.bare, none, [], before ++ [[assignmentWord name value]]⟩ := by
  have hplain : ∀ c ∈ name ++ ['='], Reader.refused.contains c = false ∧
      c ∉ ['\'', '\\', '\n', ' ', '\t', '#'] := by
    intro c hc
    rcases List.mem_append.mp hc with hmem | hmem
    · have h := plain_of_isName hname hmem
      exact ⟨h.1, h.2.1⟩
    · rw [List.mem_singleton.mp hmem]
      decide
  have hfront := Reader.run_plain (s := ⟨.bare, none, [], before⟩) rfl (fun c hc => (hplain c hc).1)
    (fun c hc => (hplain c hc).2) (by simp)
  have hsplit : assignment name value = (name ++ ['=']) ++ (quote value ++ ['\n']) := by
    unfold assignment
    rw [List.append_assoc, List.singleton_append]
  have hword : (name ++ ['=']).map Part.bare ++ value.map Part.quoted = assignmentWord name value := by
    unfold assignmentWord
    rw [List.map_append, List.append_assoc]
    rfl
  rw [hsplit, Reader.run_append hfront, Reader.run_quote rfl hnul]
  unfold Reader.quoted
  dsimp only
  rw [Option.getD_none, Option.getD_some, List.nil_append, hword, Reader.run_cons
    (Reader.step_newline rfl)]
  rfl

theorem assignment?_assignmentWord {name value : List Char} (hname : isName name = true) :
    assignment? (assignmentWord name value) = some (name, value.map .quoted) := by
  have hbare : ∀ part ∈ name.map Part.bare, decide (part ≠ Part.bare '=') = true := by
    intro part hpart
    obtain ⟨c, hc, rfl⟩ := List.mem_map.mp hpart
    rw [decide_eq_true_eq]
    intro heq
    cases heq
    exact (plain_of_isName hname hc).2.2 rfl
  unfold assignment? assignmentWord
  dsimp only
  rw [List.takeWhile_append_of_pos hbare, List.dropWhile_append_of_pos hbare,
    List.takeWhile_cons_of_neg (by simp), List.dropWhile_cons_of_neg (by simp), List.append_nil]
  dsimp only
  rw [text_bare, if_pos ⟨rfl, hname⟩]

/-- What such an assignment does. -/
theorem actions_assignmentWord {name value : List Char} (hname : isName name = true) :
    actions [assignmentWord name value] = [.assign name value] := by
  have hassigns : [assignmentWord name value].mapM assignment? = some [(name, value.map .quoted)] := by
    rw [List.mapM_cons, assignment?_assignmentWord hname]
    rfl
  have hliteral : (value.map Part.quoted).contains (.bare '~') = false := by
    rw [Bool.eq_false_iff, ne_eq, List.contains_iff_mem, List.mem_map]
    rintro ⟨c, -, heq⟩
    cases heq
  unfold actions
  rw [hassigns]
  dsimp only
  rw [List.map_singleton]
  unfold assignAction
  dsimp only
  rw [hliteral, if_neg Bool.false_ne_true, text_quoted]

theorem run_assignments {items : List (List Char × List Char)}
    (h : ∀ item ∈ items, isName item.1 = true ∧ '\x00' ∉ item.2) (before : List Command) :
    Reader.run ⟨.bare, none, [], before⟩ (items.flatMap fun item => assignment item.1 item.2) =
      some ⟨.bare, none, [], before ++ items.map fun item => [assignmentWord item.1 item.2]⟩ := by
  induction items generalizing before with
  | nil =>
      rw [List.map_nil, List.append_nil]
      rfl
  | cons item items ih =>
      rw [List.forall_mem_cons] at h
      rw [List.flatMap_cons, Reader.run_append (run_assignment h.1.1 h.1.2 before), ih h.2,
        List.map_cons, List.append_assoc, List.singleton_append]

/-- Sourcing lines of assignments of quoted values assigns the values, in order, and does nothing
else. -/
theorem source_assignments {items : List (List Char × List Char)}
    (h : ∀ item ∈ items, isName item.1 = true ∧ '\x00' ∉ item.2) :
    source (items.flatMap fun item => assignment item.1 item.2) =
      some (items.map fun item => .assign item.1 item.2) := by
  unfold source commands Reader.start
  rw [run_assignments h, Option.bind_some, Reader.finish_idle, Option.map_some, List.nil_append,
    List.flatMap_map]
  congr 1
  induction items with
  | nil => rfl
  | cons item items ih =>
      rw [List.forall_mem_cons] at h
      rw [List.flatMap_cons, actions_assignmentWord h.1.1, List.map_cons, ih h.2]
      rfl

/-- A quoted value alone is one word. -/
theorem commands_quote {value : List Char} (hnul : '\x00' ∉ value) :
    commands (quote value) = some [[value.map .quoted]] := by
  unfold commands
  have hread := Reader.run_quote (s := Reader.start) rfl hnul []
  rw [List.append_nil] at hread
  rw [hread]
  rfl

end Shell
