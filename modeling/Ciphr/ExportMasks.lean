import Ciphr.ExportActionsEnv

/-!
The masks of an export, as the runner executes them. A line is a command where it begins with `::`, and
the data of a command is written with three sequences for the characters that a line cannot hold, which
the runner puts back.
-/

namespace Ciphr

/-! ### The commands of a runner -/

/-- What the runner makes of the data of a command. -/
def unescapeData : List Char → List Char
  | '%' :: '0' :: 'D' :: rest => '\r' :: unescapeData rest
  | '%' :: '0' :: 'A' :: rest => '\n' :: unescapeData rest
  | '%' :: '2' :: '5' :: rest => '%' :: unescapeData rest
  | c :: rest => c :: unescapeData rest
  | [] => []

/-- A line as a command and its data: what stands between the first two `::`, and after them. -/
def splitCommand : List Char → Option (List Char × List Char)
  | ':' :: ':' :: rest => some ([], rest)
  | c :: rest => (splitCommand rest).map fun found => (c :: found.1, found.2)
  | [] => none

inductive RunnerAct where
  /-- What a mask registers. -/
  | masks (text : String)
  | other (command : String) (data : String)
  deriving DecidableEq, Repr

/-- What a line makes the runner do, if it is a command. -/
def executeLine : List Char → Option RunnerAct
  | ':' :: ':' :: rest =>
      (splitCommand rest).map fun found =>
        if String.ofList found.1 = "add-mask" then .masks (String.ofList (unescapeData found.2))
        else .other (String.ofList found.1) (String.ofList (unescapeData found.2))
  | _ => none

/-- What a text on the output of a step makes the runner do, line by line. -/
def executeCommands (text : String) : List RunnerAct :=
  (text.toList.splitOn '\n').dropLast.filterMap executeLine

example : executeCommands "::add-mask::a%25b\nno command\n::error::x\n::add-mask::unterminated" =
    [.masks "a%b", .other "error" "x"] := by
  decide +kernel

/-! ### Data that means itself -/

/-- Somewhere in the data is a sequence that the runner replaces. -/
def Escapes (data : List Char) : Prop :=
  ['%', '0', 'D'] <:+: data ∨ ['%', '0', 'A'] <:+: data ∨ ['%', '2', '5'] <:+: data

theorem Escapes.cons {data : List Char} (h : Escapes data) (c : Char) : Escapes (c :: data) :=
  h.imp (fun h => List.infix_cons h) (Or.imp (fun h => List.infix_cons h) fun h => List.infix_cons h)

theorem length_unescapeData_le (data : List Char) : (unescapeData data).length ≤ data.length := by
  fun_induction unescapeData data with
  | case1 rest ih => simp only [List.length_cons]; omega
  | case2 rest ih => simp only [List.length_cons]; omega
  | case3 rest ih => simp only [List.length_cons]; omega
  | case4 c rest _ _ _ ih => simp only [List.length_cons]; omega
  | case5 => rfl

/-- A sequence at the beginning is replaced by one character. -/
theorem unescapeData_ne_of_length {data : List Char} (c d e f : Char) :
    f :: unescapeData data ≠ c :: d :: e :: data := by
  intro h
  have hlength := congrArg List.length h
  have hle := length_unescapeData_le data
  simp only [List.length_cons] at hlength
  omega

/-- Data means itself exactly where nothing in it is replaced. -/
theorem unescapeData_eq_self_iff (data : List Char) : unescapeData data = data ↔ ¬ Escapes data := by
  fun_induction unescapeData data with
  | case1 rest ih =>
      refine iff_of_false (unescapeData_ne_of_length _ _ _ _) (not_not_intro (.inl ?_))
      exact (List.prefix_append ['%', '0', 'D'] rest).isInfix
  | case2 rest ih =>
      refine iff_of_false (unescapeData_ne_of_length _ _ _ _) (not_not_intro (.inr (.inl ?_)))
      exact (List.prefix_append ['%', '0', 'A'] rest).isInfix
  | case3 rest ih =>
      refine iff_of_false (unescapeData_ne_of_length _ _ _ _) (not_not_intro (.inr (.inr ?_)))
      exact (List.prefix_append ['%', '2', '5'] rest).isInfix
  | case4 c rest hreturn hfeed hpercent ih =>
      rw [List.cons_inj_right, ih, not_iff_not]
      refine ⟨fun h => h.cons c, ?_⟩
      -- none of the sequences stands at the beginning
      rintro (h | h | h)
      · rcases List.infix_cons_iff.mp h with hfront | hrest
        · obtain ⟨more, hmore⟩ := hfront
          cases hmore
          exact absurd rfl (hreturn more rfl)
        · exact .inl hrest
      · rcases List.infix_cons_iff.mp h with hfront | hrest
        · obtain ⟨more, hmore⟩ := hfront
          cases hmore
          exact absurd rfl (hfeed more rfl)
        · exact .inr (.inl hrest)
      · rcases List.infix_cons_iff.mp h with hfront | hrest
        · obtain ⟨more, hmore⟩ := hfront
          cases hmore
          exact absurd rfl (hpercent more rfl)
        · exact .inr (.inr hrest)
  | case5 =>
      refine iff_of_true rfl ?_
      rintro (h | h | h) <;> simp at h

/-! ### The lines of a value -/

/-- A piece that is split off is a line, with or without the line feed that ends it. -/
theorem Rust.exists_line_of_mem_splitInclusive {sep : Char} {text piece : List Char}
    (h : piece ∈ Rust.splitInclusive sep text) :
    ∃ line, sep ∉ line ∧ (piece = line ++ [sep] ∨ piece = line) := by
  induction text generalizing piece with
  | nil => cases h
  | cons c rest ih =>
      rw [Rust.splitInclusive_cons] at h
      by_cases hsep : c = sep
      · rw [if_pos hsep] at h
        rcases List.mem_cons.mp h with rfl | h
        · exact ⟨[], List.not_mem_nil, .inl (by rw [hsep]; rfl)⟩
        · exact ih h
      · rw [if_neg hsep] at h
        have hne : sep ∉ [c] := fun hmem => hsep (List.mem_singleton.mp hmem).symm
        cases hpieces : Rust.splitInclusive sep rest with
        | nil =>
            rw [hpieces] at h
            cases List.mem_singleton.mp h
            exact ⟨[c], hne, .inr rfl⟩
        | cons first pieces =>
            rw [hpieces] at h
            rcases List.mem_cons.mp h with rfl | h
            · obtain ⟨line, hline, hfirst⟩ := ih (hpieces ▸ List.mem_cons_self ..)
              refine ⟨c :: line, List.not_mem_cons_of_ne_of_not_mem (fun hc => hsep hc.symm) hline, ?_⟩
              exact hfirst.imp (congrArg (c :: ·)) (congrArg (c :: ·))
            · exact ih (hpieces ▸ List.mem_cons_of_mem _ h)

/-- A line holds no line feed. -/
theorem Rust.not_mem_of_mem_lines {value line : String} (h : line ∈ Rust.lines value) :
    '\n' ∉ line.toList := by
  obtain ⟨piece, hpiece, rfl⟩ := List.mem_map.mp h
  obtain ⟨own, hown, hcases⟩ := Rust.exists_line_of_mem_splitInclusive hpiece
  rw [String.toList_ofList]
  unfold Rust.chomp
  rcases hcases with rfl | rfl
  · rw [List.getLast?_concat, if_pos rfl, List.dropLast_concat]
    split
    · exact fun hmem => hown (List.mem_of_mem_dropLast hmem)
    · exact hown
  · rw [if_neg fun hlast => hown (List.mem_of_getLast? hlast)]
    exact hown

/-- What has to be masked of a value. -/
def maskedLines (value : String) : List String := (Rust.lines value).filter (!·.isEmpty)

/-- The commands that mask some lines. -/
def maskCommands (lines : List String) : String :=
  lines.foldl (fun masks line => masks ++ ("::add-mask::" ++ line ++ "\n")) ""

theorem foldl_append_text {α : Type} (f : α → String) (as : List α) (text : String) :
    as.foldl (fun out a => out ++ f a) text = text ++ as.foldl (fun out a => out ++ f a) "" := by
  induction as generalizing text with
  | nil => rw [List.foldl_nil, List.foldl_nil, String.append_empty]
  | cons a as ih =>
      rw [List.foldl_cons, List.foldl_cons, ih, ih ("" ++ f a), String.empty_append, String.append_assoc]

theorem maskCommands_cons (line : String) (lines : List String) :
    maskCommands (line :: lines) = "::add-mask::" ++ line ++ "\n" ++ maskCommands lines := by
  unfold maskCommands
  rw [List.foldl_cons, foldl_append_text, String.empty_append]

theorem maskCommands_append (lines more : List String) :
    maskCommands (lines ++ more) = maskCommands lines ++ maskCommands more := by
  unfold maskCommands
  rw [List.foldl_append, foldl_append_text]

theorem maskLines_eq (value : String) : maskLines value = maskCommands (maskedLines value) := by
  unfold maskLines maskedLines
  generalize Rust.lines value = lines
  have hall : ∀ masks : String, lines.foldl (fun masks line => if line.isEmpty then masks
      else masks ++ "::add-mask::" ++ line ++ "\n") masks =
        masks ++ maskCommands (lines.filter (!·.isEmpty)) := by
    induction lines with
    | nil => exact fun masks => String.append_empty.symm
    | cons line lines ih =>
        intro masks
        rw [List.foldl_cons, ih]
        cases hempty : line.isEmpty with
        | true =>
            rw [if_pos rfl, List.filter_cons_of_neg (by rw [hempty]; decide)]
        | false =>
            rw [if_neg Bool.false_ne_true, List.filter_cons_of_pos (by rw [hempty]; rfl), maskCommands_cons]
            simp only [String.append_assoc]
  rw [hall, String.empty_append]

/-- A mask command registers its line, with the sequences of the line replaced. -/
theorem executeLine_mask (line : List Char) :
    executeLine ("::add-mask::".toList ++ line) = some (.masks (String.ofList (unescapeData line))) := by
  have hword : "::add-mask::".toList = ':' :: ':' :: "add-mask::".toList := by decide
  have hsplit : splitCommand ("add-mask::".toList ++ line) = some ("add-mask".toList, line) := by
    simp [splitCommand]
  have hname : String.ofList "add-mask".toList = "add-mask" := String.ofList_toList
  rw [hword, List.cons_append, List.cons_append, executeLine, hsplit]
  simp only [Option.map_some, hname, if_true]

/-- The commands of some lines are executed one after the other, and nothing else. -/
theorem executeCommands_maskCommands {lines : List String} (h : ∀ line ∈ lines, '\n' ∉ line.toList) :
    executeCommands (maskCommands lines) =
      lines.map fun line => .masks (String.ofList (unescapeData line.toList)) := by
  induction lines with
  | nil => rfl
  | cons line lines ih =>
      obtain ⟨hline, hlines⟩ := List.forall_mem_cons.mp h
      have hfeed : '\n' ∉ "::add-mask::".toList ++ line.toList := by
        rw [List.mem_append, not_or]
        exact ⟨by decide, hline⟩
      have htext : (maskCommands (line :: lines)).toList =
          ("::add-mask::".toList ++ line.toList) ++ '\n' :: (maskCommands lines).toList := by
        rw [maskCommands_cons]
        simp
      unfold executeCommands at ih ⊢
      rw [htext, List.splitOn_append_cons_self_of_not_mem hfeed,
        List.dropLast_cons_of_ne_nil (List.splitOn_ne_nil _ _),
        List.filterMap_cons_some (executeLine_mask line.toList), ih hlines, List.map_cons]

/-! ### The masks of an export -/

variable {u : Unicode}

/-- All that has to be masked, in order. -/
def exportedLines (secrets : List (Exported u)) : List String := secrets.flatMap (maskedLines ·.value)

theorem renderNext_masks {random : Entropy} {state state' : Rendering} {item : Exported u × EnvVarName}
    (h : renderNext random state item = .ok state') :
    state'.masks = state.masks ++ maskLines item.1.value := by
  unfold renderNext at h
  dsimp only at h
  split at h
  · obtain ⟨⟨delimiter, drawn⟩, -, h⟩ := Loop.bind_eq_ok h
    cases h
    rfl
  · cases h
    rfl

theorem renderAll_masks {random : Entropy} (items : List (Exported u × EnvVarName))
    {state state' : Rendering} (h : items.foldlM (renderNext random) state = .ok state') :
    state'.masks = state.masks ++ maskCommands (exportedLines (items.map (·.1))) := by
  induction items generalizing state with
  | nil =>
      cases h
      exact String.append_empty.symm
  | cons item items ih =>
      obtain ⟨next, hnext, h⟩ := Loop.foldlM_cons_eq_ok h
      rw [ih h, renderNext_masks hnext, maskLines_eq, String.append_assoc, ← maskCommands_append]
      rfl

theorem masks_eq {random : Entropy} {secrets : List (Exported u)} {masks assignments : String}
    (h : renderActionsEnv random secrets = .ok (masks, assignments)) :
    masks = maskCommands (exportedLines secrets) := by
  obtain ⟨names, hnames, h⟩ := Loop.bind_eq_ok h
  obtain ⟨state, hstate, h⟩ := Loop.bind_eq_ok h
  rw [Except.ok.injEq, Prod.mk.injEq] at h
  have hlength := EnvVarName.assign_length (Loop.mapError_eq_ok hnames)
  rw [List.length_map] at hlength
  rw [← h.1, renderAll_masks _ hstate, String.empty_append, List.map_fst_zip (by omega)]

/-- The command that masks a line of a secret stands among the masks. -/
theorem maskCommand_infix_masks {random : Entropy} {secrets : List (Exported u)} {masks assignments : String}
    (h : renderActionsEnv random secrets = .ok (masks, assignments)) {secret : Exported u}
    (hsecret : secret ∈ secrets) {line : String} (hline : line ∈ maskedLines secret.value) :
    ("::add-mask::" ++ line ++ "\n").toList <:+: masks.toList := by
  have hmem : line ∈ exportedLines secrets := List.mem_flatMap.mpr ⟨secret, hsecret, hline⟩
  obtain ⟨front, rest, hlines⟩ := List.append_of_mem hmem
  rw [masks_eq h, hlines, maskCommands_append, maskCommands_cons]
  refine ⟨(maskCommands front).toList, (maskCommands rest).toList, ?_⟩
  simp only [String.toList_append, List.append_assoc]

/-- The runner is told to mask as many lines as there are, and nothing else. -/
theorem executeCommands_masks {random : Entropy} {secrets : List (Exported u)} {masks assignments : String}
    (h : renderActionsEnv random secrets = .ok (masks, assignments)) :
    executeCommands masks = (exportedLines secrets).map
      fun line => .masks (String.ofList (unescapeData line.toList)) := by
  rw [masks_eq h]
  apply executeCommands_maskCommands
  intro line hline
  obtain ⟨secret, -, hline⟩ := List.mem_flatMap.mp hline
  exact Rust.not_mem_of_mem_lines (List.mem_of_mem_filter hline)

/-- A line that the runner masks is the one that was meant exactly where nothing in it is replaced. -/
theorem masks_unescaped_iff {line : String} :
    RunnerAct.masks (String.ofList (unescapeData line.toList)) = .masks line ↔ ¬ Escapes line.toList := by
  rw [RunnerAct.masks.injEq, ← unescapeData_eq_self_iff]
  constructor
  · intro h
    have hlist := congrArg String.toList h
    rwa [String.toList_ofList] at hlist
  · intro h
    rw [h, String.ofList_toList]

/-- The masks register what is delivered and do nothing else. -/
def MasksExactly (random : Entropy) (secrets : List (Exported u)) : Prop :=
  ∀ masks assignments, renderActionsEnv random secrets = .ok (masks, assignments) →
    executeCommands masks = (exportedLines secrets).map .masks

/-- Whatever is delivered, the runner is told to mask as many lines as there are, and nothing else; it
masks exactly the lines that are delivered where no line holds a sequence that the runner replaces, and
otherwise not. -/
theorem masks_exactly_iff (random : Entropy) (secrets : List (Exported u)) :
    (∀ masks assignments, renderActionsEnv random secrets = .ok (masks, assignments) →
      executeCommands masks = (exportedLines secrets).map
        fun line => .masks (String.ofList (unescapeData line.toList))) ∧
    ((∃ rendered, renderActionsEnv random secrets = .ok rendered) →
      (MasksExactly random secrets ↔
        ∀ secret ∈ secrets, ∀ line ∈ maskedLines secret.value, ¬ Escapes line.toList)) := by
  refine ⟨fun masks assignments h => executeCommands_masks h, ?_⟩
  rintro ⟨⟨masks, assignments⟩, hrendered⟩
  have hsame : MasksExactly random secrets ↔ ∀ line ∈ exportedLines secrets, ¬ Escapes line.toList := by
    constructor
    · intro h line hline
      have hmasks := h masks assignments hrendered
      rw [executeCommands_masks hrendered] at hmasks
      exact masks_unescaped_iff.mp (List.map_inj_left.mp hmasks line hline)
    · intro h masks' assignments' hrendered'
      rw [executeCommands_masks hrendered']
      exact List.map_inj_left.mpr fun line hline => masks_unescaped_iff.mpr (h line hline)
  rw [hsame]
  constructor
  · intro h secret hsecret line hline
    exact h line (List.mem_flatMap.mpr ⟨secret, hsecret, hline⟩)
  · intro h line hline
    obtain ⟨secret, hsecret, hline⟩ := List.mem_flatMap.mp hline
    exact h secret hsecret line hline

namespace Sample

/-- A password with a percent sign that happens to be followed by `25`. -/
def percentSecret : List (Exported asciiUnicode) := [⟨certificate, "100%25x"⟩]

def unmaskedSecret : List (Exported asciiUnicode) := [⟨certificate, "hunter2\r\n\n::error::x"⟩]

/-- Two lines, one of which looks like a command of the runner. -/
theorem unmaskedSecret_masked : (∃ rendered, renderActionsEnv guessed unmaskedSecret = .ok rendered) ∧
    exportedLines unmaskedSecret = ["hunter2", "::error::x"] ∧ MasksExactly guessed unmaskedSecret := by
  have hrendered : ∃ rendered, renderActionsEnv guessed unmaskedSecret = .ok rendered := by
    have hok : (renderActionsEnv guessed unmaskedSecret).toBool = true := by decide +kernel
    cases hrender : renderActionsEnv guessed unmaskedSecret with
    | error e =>
        rw [hrender] at hok
        cases hok
    | ok rendered => exact ⟨rendered, rfl⟩
  have hlines : exportedLines unmaskedSecret = ["hunter2", "::error::x"] := by decide +kernel
  refine ⟨hrendered, hlines, ((masks_exactly_iff guessed unmaskedSecret).2 hrendered).mpr ?_⟩
  have hmasked : maskedLines "hunter2\r\n\n::error::x" = ["hunter2", "::error::x"] := by decide +kernel
  intro secret hsecret line hline
  cases List.mem_singleton.mp hsecret
  rw [hmasked] at hline
  rw [← unescapeData_eq_self_iff]
  simp only [List.mem_cons, List.not_mem_nil, or_false] at hline
  rcases hline with rfl | rfl
  · decide +kernel
  · decide +kernel

/-- The runner masks another text than the one that the environment file holds. -/
theorem percentSecret_unmasked :
    renderActionsEnv guessed percentSecret = .ok ("::add-mask::100%25x\n", "CERT=100%25x\n") ∧
      executeCommands "::add-mask::100%25x\n" = [.masks "100%x"] ∧
      ¬ ∀ (random : Entropy) (secrets : List (Exported asciiUnicode)), MasksExactly random secrets := by
  have hrendered : renderActionsEnv guessed percentSecret =
      .ok ("::add-mask::100%25x\n", "CERT=100%25x\n") := by
    decide +kernel
  have hexecuted : executeCommands "::add-mask::100%25x\n" = [.masks "100%x"] := by decide +kernel
  have hlines : exportedLines percentSecret = ["100%25x"] := by decide +kernel
  refine ⟨hrendered, hexecuted, fun hall => ?_⟩
  have hexact := hall guessed percentSecret _ _ hrendered
  rw [hexecuted, hlines] at hexact
  exact absurd hexact (by decide +kernel)

end Sample

end Ciphr
