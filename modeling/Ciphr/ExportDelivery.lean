import Ciphr.ExportActionsEnv

/-!
The environment file of a step before and after a delivery. The file is shared and appended to: what
is written stands behind whatever the file ends with, and a write that fails leaves what it has written.
-/

namespace Ciphr

/-! ### Reading a file that was appended to -/

/-- An assignment that a line opens is what the lines up to its end say, and whatever else. -/
theorem readLines_append {lines more : List (List Char)} {opened : Option OpenValue}
    {assigned : List (String × String)} (h : readLines opened lines = some assigned) :
    readLines opened (lines ++ more) = (readLines none more).map (assigned ++ ·) := by
  induction lines generalizing opened assigned with
  | nil =>
      cases opened with
      | none =>
          cases h
          cases hmore : readLines none more <;> simp [hmore]
      | some value => simp [readLines] at h
  | cons line lines ih =>
      cases opened with
      | none =>
          rw [List.cons_append, readLines]
          rw [readLines] at h
          cases hline : readAssignment line with
          | none => simp [hline] at h
          | some found =>
              obtain ⟨name, kind⟩ := found
              cases kind with
              | assigns value =>
                  simp only [hline, Option.map_eq_some_iff] at h ⊢
                  obtain ⟨rest, hrest, rfl⟩ := h
                  simp [ih hrest, Function.comp_def]
              | heredoc delimiter =>
                  simp only [hline] at h ⊢
                  exact ih h
      | some value =>
          rw [List.cons_append, readLines]
          rw [readLines] at h
          by_cases hend : line = value.delimiter
          · rw [if_pos hend] at h ⊢
            obtain ⟨rest, hrest, rfl⟩ := Option.map_eq_some_iff.mp h
            simp [ih hrest, Function.comp_def]
          · rw [if_neg hend] at h ⊢
            exact ih h

/-- A value that is open is read as something, with the lines that it has so far. -/
theorem readLines_open {lines : List (List Char)} {value : OpenValue} {assigned : List (String × String)}
    (h : readLines (some value) lines = some assigned) :
    ∃ more rest, assigned =
      (String.ofList value.name, String.ofList (['\n'].intercalate (value.lines ++ more))) :: rest := by
  induction lines generalizing value with
  | nil => simp [readLines] at h
  | cons line lines ih =>
      rw [readLines] at h
      by_cases hend : line = value.delimiter
      · rw [if_pos hend] at h
        obtain ⟨rest, -, rfl⟩ := Option.map_eq_some_iff.mp h
        exact ⟨[], rest, by simp⟩
      · rw [if_neg hend] at h
        obtain ⟨more, rest, hassigned⟩ := ih h
        refine ⟨line :: more, rest, ?_⟩
        rw [hassigned, List.append_assoc]
        simp

/-- A line is read as something, or the lines are not. -/
theorem readLines_cons_ne_nil (line : List Char) (lines : List (List Char)) :
    readLines none (line :: lines) ≠ some [] := by
  intro h
  rw [readLines] at h
  cases hline : readAssignment line with
  | none => simp [hline] at h
  | some found =>
      obtain ⟨name, kind⟩ := found
      cases kind with
      | assigns value => simp [hline] at h
      | heredoc delimiter =>
          simp only [hline] at h
          obtain ⟨more, rest, hassigned⟩ := readLines_open h
          simp at hassigned

/-! ### A line that is gone on with -/

/-- What a line says that is gone on with. -/
def LineKind.goOn (more : List Char) : LineKind → LineKind
  | .assigns value => .assigns (value ++ more)
  | .heredoc delimiter => .heredoc (delimiter ++ more)

/-- A line that is gone on with has the same name and goes on with what it says. -/
theorem readAssignment_append_right {line : List Char} {name : List Char} {kind : LineKind}
    (h : readAssignment line = some (name, kind)) (more : List Char) :
    readAssignment (line ++ more) = some (name, kind.goOn more) := by
  fun_induction readAssignment line generalizing name kind with
  | case1 rest =>
      cases h
      simp [readAssignment, LineKind.goOn]
  | case2 rest =>
      cases h
      simp [readAssignment, LineKind.goOn]
  | case3 c rest heq hlt ih =>
      obtain ⟨⟨name, kind⟩, hfound, hsame⟩ := Option.map_eq_some_iff.mp h
      cases hsame
      have hmore : readAssignment (c :: (rest ++ more)) =
          (readAssignment (rest ++ more)).map fun found => (c :: found.1, found.2) := by
        rw [readAssignment]
        · exact heq
        · intro later hc hlater
          -- a line that is only `<` is none
          cases rest with
          | nil => simp [readAssignment] at hfound
          | cons d rest =>
              obtain ⟨rfl, -⟩ := List.cons_eq_cons.mp hlater
              exact hlt rest hc rfl
      rw [List.cons_append, hmore, ih hfound]
      simp
  | case4 => cases h

/-- Lines are more characters where one that is not empty is among them. -/
theorem length_intercalate_lt (lines : List (List Char)) {line : List Char} (h : line ≠ [])
    (more : List (List Char)) :
    (['\n'].intercalate lines).length < (['\n'].intercalate (lines ++ line :: more)).length := by
  have hpos : 0 < line.length := List.length_pos_iff.mpr h
  have hle : ∀ more : List (List Char), line.length ≤ (['\n'].intercalate (line :: more)).length := by
    intro more
    cases more with
    | nil => simp
    | cons next more => simp [List.intercalate]
  induction lines with
  | nil =>
      have hline := hle more
      simp only [List.nil_append, List.intercalate_nil, List.length_nil]
      omega
  | cons first lines ih =>
      cases lines with
      | nil => simp [List.intercalate]
      | cons second lines =>
          simp only [List.cons_append, List.intercalate_cons_cons, List.length_append] at ih ⊢
          omega

/-- Lines whose last one was gone on with are not read as they were, whatever comes after them. -/
theorem readLines_glued (lines : List (List Char)) {more : List (List Char)} {opened : Option OpenValue}
    {last glue : List Char}
    (hglue : glue ≠ []) {assigned : List (String × String)}
    (h : readLines opened (lines ++ [last]) = some assigned) (delivered : List (String × String)) :
    readLines opened (lines ++ (last ++ glue) :: more) ≠ some (assigned ++ delivered) := by
  induction lines generalizing opened assigned with
  | nil =>
      intro hread
      rw [List.nil_append] at h hread
      cases opened with
      | none =>
          rw [readLines] at h hread
          cases hline : readAssignment last with
          | none => simp [hline] at h
          | some found =>
              obtain ⟨name, kind⟩ := found
              rw [readAssignment_append_right hline glue] at hread
              cases kind with
              | assigns value =>
                  simp only [hline, LineKind.goOn, Option.map_eq_some_iff] at h hread
                  obtain ⟨_, -, rfl⟩ := h
                  obtain ⟨_, -, hsame⟩ := hread
                  simp [hglue] at hsame
              | heredoc delimiter => simp [hline, readLines] at h
      | some value =>
          rw [readLines] at h hread
          have hend : last = value.delimiter := by
            by_contra hne
            simp [hne, readLines] at h
          have hgoes : last ++ glue ≠ value.delimiter := by
            rw [← hend]
            simp [hglue]
          rw [if_pos hend] at h
          rw [if_neg hgoes] at hread
          obtain ⟨_, -, rfl⟩ := Option.map_eq_some_iff.mp h
          obtain ⟨extra, _, hsame⟩ := readLines_open hread
          rw [List.cons_append, List.cons_eq_cons, Prod.mk.injEq] at hsame
          have hvalue := String.ofList_injective hsame.1.2
          have hlonger :=
            length_intercalate_lt value.lines (List.append_ne_nil_of_right_ne_nil last hglue) extra
          rw [hvalue] at hlonger
          simp at hlonger
  | cons line lines ih =>
      intro hread
      rw [List.cons_append] at h hread
      cases opened with
      | none =>
          rw [readLines] at h hread
          cases hline : readAssignment line with
          | none => simp [hline] at h
          | some found =>
              obtain ⟨name, kind⟩ := found
              cases kind with
              | assigns value =>
                  simp only [hline, Option.map_eq_some_iff] at h hread
                  obtain ⟨rest, hrest, rfl⟩ := h
                  obtain ⟨rest', hrest', hsame⟩ := hread
                  rw [List.cons_append, List.cons_eq_cons] at hsame
                  exact ih hrest (hsame.2 ▸ hrest')
              | heredoc delimiter =>
                  simp only [hline] at h hread
                  exact ih h hread
      | some value =>
          rw [readLines] at h hread
          by_cases hend : line = value.delimiter
          · rw [if_pos hend] at h hread
            obtain ⟨rest, hrest, rfl⟩ := Option.map_eq_some_iff.mp h
            obtain ⟨rest', hrest', hsame⟩ := Option.map_eq_some_iff.mp hread
            rw [List.cons_append, List.cons_eq_cons] at hsame
            exact ih hrest (hsame.2 ▸ hrest')
          · rw [if_neg hend] at h hread
            exact ih h hread

/-! ### Texts that are appended -/

/-- A text whose last line is ended. -/
def Ended (text : List Char) : Prop := text = [] ∨ text.getLast? = some '\n'

theorem lfLines_nil : lfLines [] = [] := by decide

theorem lfLines_of_not_mem {line : List Char} (h : '\n' ∉ line) (hne : line ≠ []) : lfLines line = [line] := by
  unfold lfLines
  rw [List.splitOn_eq_singleton h]
  simp [hne]

theorem lfLines_append_of_ended {text : List Char} (h : Ended text) (more : List Char) :
    lfLines (text ++ more) = lfLines text ++ lfLines more := by
  rcases h with rfl | hlast
  · rw [List.nil_append, lfLines_nil, List.nil_append]
  · obtain ⟨front, rfl⟩ := List.getLast?_eq_some_iff.mp hlast
    have hfront : lfLines (front ++ ['\n']) = front.splitOn '\n' := by
      rw [lfLines_append, lfLines_nil, List.append_nil]
    rw [List.append_assoc, List.singleton_append, lfLines_append, hfront]

/-- The last line of a text where it is not ended. -/
theorem exists_last_line {text : List Char} (h : ¬ Ended text) :
    ∃ last, '\n' ∉ last ∧ last ≠ [] ∧ (text = last ∨ ∃ front, text = front ++ '\n' :: last) := by
  induction text with
  | nil => exact absurd (.inl rfl) h
  | cons c text ih =>
      by_cases hnil : text = []
      · subst hnil
        refine ⟨[c], fun hmem => h (.inr ?_), by simp, .inl rfl⟩
        simpa [eq_comm] using hmem
      · have hrest : ¬ Ended text := by
          rintro (hempty | hlast)
          · exact hnil hempty
          · refine h (.inr ?_)
            rwa [List.getLast?_cons_of_ne_nil hnil]
        obtain ⟨last, hfeed, hne, rfl | ⟨front, rfl⟩⟩ := ih hrest
        · by_cases hc : c = '\n'
          · exact ⟨text, hfeed, hne, .inr ⟨[], by simp [hc]⟩⟩
          · refine ⟨c :: text, ?_, by simp, .inl rfl⟩
            simp [hfeed, Ne.symm hc]
        · exact ⟨last, hfeed, hne, .inr ⟨c :: front, by simp⟩⟩

/-- The first line of a text that does not begin with the end of one. -/
theorem lfLines_glued {last : List Char} {c : Char} (hlast : '\n' ∉ last) (hc : c ≠ '\n')
    (more : List Char) :
    ∃ glue rest, glue ≠ [] ∧ lfLines (last ++ c :: more) = (last ++ glue) :: rest := by
  by_cases hfeed : '\n' ∈ c :: more
  · obtain ⟨front, rest, hmore, hfront⟩ := List.eq_append_cons_of_mem hfeed
    have hne : front ≠ [] := by
      rintro rfl
      simp [hc] at hmore
    refine ⟨front, lfLines rest, hne, ?_⟩
    rw [hmore, ← List.append_assoc, lfLines_append, List.splitOn_eq_singleton (by simp [hlast, hfront]),
      List.singleton_append]
  · refine ⟨c :: more, [], by simp, ?_⟩
    rw [lfLines_of_not_mem (by simp only [List.mem_append, not_or]; exact ⟨hlast, hfeed⟩) (by simp)]

section Appended

variable {prior text : String} {assigned : List (String × String)}

/-- Behind a text that is ended, what is appended is read as it stands. -/
theorem read_append_of_ended (hprior : readEnvironmentFile prior = some assigned)
    (h : Ended prior.toList) :
    readEnvironmentFile (prior ++ text) = (readEnvironmentFile text).map (assigned ++ ·) := by
  unfold readEnvironmentFile at hprior ⊢
  rw [String.toList_append, lfLines_append_of_ended h]
  exact readLines_append hprior

/-- Behind a text that is not, it changes what was there. -/
theorem read_append_of_not_ended (hprior : readEnvironmentFile prior = some assigned)
    (h : ¬ Ended prior.toList) {c : Char} {more : List Char} (htext : text.toList = c :: more)
    (hc : c ≠ '\n') (delivered : List (String × String)) :
    readEnvironmentFile (prior ++ text) ≠ some (assigned ++ delivered) := by
  unfold readEnvironmentFile at hprior ⊢
  rw [String.toList_append, htext]
  obtain ⟨last, hfeed, hne, hlast⟩ := exists_last_line h
  obtain ⟨glue, rest, hglue, hlines⟩ := lfLines_glued hfeed hc more
  rcases hlast with hall | ⟨front, hall⟩
  · rw [hall, lfLines_of_not_mem hfeed hne] at hprior
    rw [hall, hlines]
    exact readLines_glued [] hglue hprior delivered
  · rw [hall, lfLines_append, lfLines_of_not_mem hfeed hne] at hprior
    rw [hall, List.append_assoc, List.cons_append, lfLines_append, hlines]
    exact readLines_glued _ hglue hprior delivered

/-- A text that is there is not read as nothing. -/
theorem read_ne_nil {c : Char} {more : List Char} (htext : text.toList = c :: more) (hc : c ≠ '\n') :
    readEnvironmentFile text ≠ some [] := by
  unfold readEnvironmentFile
  obtain ⟨glue, rest, -, hlines⟩ := lfLines_glued List.not_mem_nil hc more
  rw [List.nil_append] at hlines
  rw [htext, hlines]
  exact readLines_cons_ne_nil _ _

end Appended

/-! ### What a delivery does -/

/-- A call on a sink that had an effect: what a write wrote, and a flush. -/
inductive SinkEffect where
  | out (text : String)
  | flush
  | environment (text : String)
  deriving DecidableEq

def SinkEffect.apply (sinks : Sinks) : SinkEffect → Sinks
  | .out text => { sinks with out := sinks.out ++ text }
  | .flush => sinks
  | .environment text => { sinks with environment := sinks.environment ++ text }

/-- What `write_all` writes of a text. -/
def writtenOf (text : String) : Option (Nat × String) → String
  | some (count, _) => String.ofList (text.toList.take count)
  | none => text

/-- The effects of a delivery into an environment file, one after the other. -/
def deliverEffects {u : Unicode} (random : Entropy) (secrets : List (Exported u)) (faults : SinkFaults) :
    List SinkEffect :=
  match renderActionsEnv random secrets with
  | .error _ => []
  | .ok (masks, assignments) =>
      match faults.masks, faults.flush, faults.opening with
      | some fault, _, _ => [.out (writtenOf masks (some fault))]
      | none, some _, _ => [.out masks]
      | none, none, some _ => [.out masks, .flush]
      | none, none, none => [.out masks, .flush, .environment (writtenOf assignments faults.assignments)]

section Delivery

variable {u : Unicode} {random : Entropy} {secrets : List (Exported u)} {faults : SinkFaults}

/-- The sinks are what the effects have left. -/
theorem deliver_effects (random : Entropy) (secrets : List (Exported u)) (path : String)
    (faults : SinkFaults) (sinks : Sinks) :
    (deliver random secrets (some path) faults sinks).1 =
      (deliverEffects random secrets faults).foldl SinkEffect.apply sinks := by
  obtain ⟨masksFault, flush, opening, assignmentsFault⟩ := faults
  unfold deliver deliverEffects
  cases renderActionsEnv random secrets with
  | error error => rfl
  | ok rendered =>
      obtain ⟨masks, assignments⟩ := rendered
      cases masksFault with
      | some fault => rfl
      | none =>
          cases flush with
          | some reason => rfl
          | none =>
              cases opening with
              | some reason => rfl
              | none =>
                  cases assignmentsFault with
                  | some fault => rfl
                  | none => rfl

/-- The masks were written and flushed before the file was written to. -/
theorem masks_first {front later : List SinkEffect} {text : String}
    (h : deliverEffects random secrets faults = front ++ .environment text :: later) :
    ∃ masks assignments, renderActionsEnv random secrets = .ok (masks, assignments) ∧
      front = [.out masks, .flush] := by
  unfold deliverEffects at h
  cases hrender : renderActionsEnv random secrets with
  | error error => simp [hrender] at h
  | ok rendered =>
      obtain ⟨masks, assignments⟩ := rendered
      refine ⟨masks, assignments, rfl, ?_⟩
      rw [hrender] at h
      dsimp only at h
      rcases front with - | ⟨first, - | ⟨second, - | ⟨third, front⟩⟩⟩
      all_goals split at h
      all_goals simp_all

/-- What is assigned begins with a name, if anything is. -/
theorem assignments_head {masks assignments : String}
    (h : renderActionsEnv random secrets = .ok (masks, assignments)) :
    secrets = [] ∧ assignments = "" ∨ ∃ c rest, assignments.toList = c :: rest ∧ c ≠ '\n' := by
  obtain ⟨names, hnames, hloop⟩ := Loop.bind_eq_ok h
  obtain ⟨state, hstate, hpair⟩ := Loop.bind_eq_ok hloop
  obtain ⟨-, hassignments⟩ := Prod.mk.inj (Except.ok.inj hpair)
  clear h hloop hpair
  have hlength := EnvVarName.assign_length (Loop.mapError_eq_ok hnames)
  rw [List.length_map] at hlength
  cases secrets with
  | nil =>
      left
      rw [List.zip_nil_left] at hstate
      cases hstate
      exact ⟨rfl, hassignments.symm⟩
  | cons secret secrets =>
      right
      cases names with
      | nil => simp at hlength
      | cons name names =>
          rw [List.zip_cons_cons] at hstate
          obtain ⟨next, hnext, hstate⟩ := Loop.foldlM_cons_eq_ok hstate
          obtain ⟨text, htext, -⟩ := renderAll_assigns _ hstate
          obtain ⟨first, more, hname, -, hall⟩ := name.chars
          have hfirst : first ≠ '\n' := by
            rintro rfl
            exact absurd (hall _ (hname ▸ List.mem_cons_self ..)) (by decide)
          have hbegins : ∃ tail, next.assignments.toList = first :: tail := by
            unfold renderNext at hnext
            dsimp only at hnext
            split at hnext
            · obtain ⟨⟨delimiter, drawn⟩, -, hnext⟩ := Loop.bind_eq_ok hnext
              cases hnext
              simp [hname]
            · cases hnext
              simp [hname]
          obtain ⟨tail, htail⟩ := hbegins
          refine ⟨first, tail ++ text.toList, ?_, hfirst⟩
          rw [← hassignments, htext, String.toList_append, htail, List.cons_append]

/-- What the delivery into a file that was read as `assigned` comes to. -/
structure Atomic (random : Entropy) (secrets : List (Exported u)) (path : String) (faults : SinkFaults)
    (out prior : String) : Prop where
  failed : ∀ sinks error, deliver random secrets (some path) faults ⟨out, prior⟩ = (sinks, .error error) →
    readEnvironmentFile sinks.environment = readEnvironmentFile prior
  delivered : ∀ sinks, deliver random secrets (some path) faults ⟨out, prior⟩ = (sinks, .ok ()) →
    ∃ names, assignNames secrets = .ok names ∧ names.length = secrets.length ∧
      readEnvironmentFile sinks.environment = (readEnvironmentFile prior).map
        (· ++ (secrets.zip names).map fun item => (item.2.text, item.1.value))

/-- Something fails before the file is written to, or there is nothing to write. -/
def Untouching (random : Entropy) (secrets : List (Exported u)) (faults : SinkFaults) : Prop :=
  secrets = [] ∨ (∃ error, renderActionsEnv random secrets = .error error) ∨ faults.masks.isSome = true ∨
    faults.flush.isSome = true ∨ faults.opening.isSome = true

/-- A write to the file fails with nothing written, or does not fail and stands behind a line that is
ended. -/
def CleanWrite (faults : SinkFaults) (prior : String) : Prop :=
  match faults.assignments with
  | some (count, _) => count = 0
  | none => Ended prior.toList

/-- A delivery that comes to writing its assignments. -/
theorem deliver_writes {masks assignments : String} (path : String) (out prior : String)
    (hrender : renderActionsEnv random secrets = .ok (masks, assignments)) (hmasks : faults.masks = none)
    (hflush : faults.flush = none) (hopening : faults.opening = none) :
    deliver random secrets (some path) faults ⟨out, prior⟩ =
      (⟨out ++ masks, prior ++ writtenOf assignments faults.assignments⟩,
        match faults.assignments with
        | some (_, reason) => .error (.environmentFile path reason)
        | none => .ok ()) := by
  unfold deliver
  rw [hrender, hmasks, hflush, hopening]
  cases faults.assignments with
  | some fault => rfl
  | none => rfl

theorem deliver_untouched {path out prior : String}
    (h : (∃ error, renderActionsEnv random secrets = .error error) ∨ faults.masks.isSome = true ∨
      faults.flush.isSome = true ∨ faults.opening.isSome = true) :
    ∃ sinks error, deliver random secrets (some path) faults ⟨out, prior⟩ = (sinks, .error error) ∧
      sinks.environment = prior := by
  unfold deliver
  cases hrender : renderActionsEnv random secrets with
  | error error => exact ⟨_, _, rfl, rfl⟩
  | ok rendered =>
      obtain ⟨masks, assignments⟩ := rendered
      dsimp only
      cases hmasks : faults.masks with
      | some fault => exact ⟨_, _, rfl, rfl⟩
      | none =>
          cases hflush : faults.flush with
          | some reason => exact ⟨_, _, rfl, rfl⟩
          | none =>
              cases hopening : faults.opening with
              | some reason => exact ⟨_, _, rfl, rfl⟩
              | none => simp [hrender, hmasks, hflush, hopening] at h

/-- What there is to show of a delivery that fails. -/
theorem atomic_iff_of_failed {path out prior : String} {sinks : Sinks} {error : CiError}
    (h : deliver random secrets (some path) faults ⟨out, prior⟩ = (sinks, .error error)) :
    Atomic random secrets path faults out prior ↔
      readEnvironmentFile sinks.environment = readEnvironmentFile prior := by
  constructor
  · intro hatomic
    exact hatomic.failed sinks error h
  · intro hread
    constructor
    · intro sinks' error' h'
      obtain ⟨hsinks, -⟩ := Prod.mk.inj (h.symm.trans h')
      rw [← hsinks, hread]
    · intro sinks' h'
      obtain ⟨-, hresult⟩ := Prod.mk.inj (h.symm.trans h')
      cases hresult

/-- What there is to show of a delivery that does not. -/
theorem atomic_iff_of_delivered {path out prior : String} {sinks : Sinks} {names : List EnvVarName}
    (h : deliver random secrets (some path) faults ⟨out, prior⟩ = (sinks, .ok ()))
    (hnames : assignNames secrets = .ok names) (hlength : names.length = secrets.length) :
    Atomic random secrets path faults out prior ↔
      readEnvironmentFile sinks.environment = (readEnvironmentFile prior).map
        (· ++ (secrets.zip names).map fun item => (item.2.text, item.1.value)) := by
  constructor
  · intro hatomic
    obtain ⟨names', hnames', -, hread⟩ := hatomic.delivered sinks h
    obtain rfl : names = names' := Except.ok.inj (hnames.symm.trans hnames')
    exact hread
  · intro hread
    constructor
    · intro sinks' error' h'
      obtain ⟨-, hresult⟩ := Prod.mk.inj (h.symm.trans h')
      cases hresult
    · intro sinks' h'
      obtain ⟨hsinks, -⟩ := Prod.mk.inj (h.symm.trans h')
      exact ⟨names, hnames, hlength, hsinks ▸ hread⟩

/-- A delivery of nothing leaves the file as it was. -/
theorem atomic_nil {path out prior : String} (hmasks : faults.masks = none) (hflush : faults.flush = none)
    (hopening : faults.opening = none) : Atomic random ([] : List (Exported u)) path faults out prior := by
  have hrender : renderActionsEnv random ([] : List (Exported u)) = .ok ("", "") := rfl
  have hdeliver := deliver_writes path out prior hrender hmasks hflush hopening
  have hwritten : writtenOf "" faults.assignments = "" := by
    cases faults.assignments <;> simp [writtenOf]
  rw [hwritten, String.append_empty, String.append_empty] at hdeliver
  cases hfault : faults.assignments with
  | some fault =>
      rw [hfault] at hdeliver
      exact (atomic_iff_of_failed hdeliver).mpr rfl
  | none =>
      rw [hfault] at hdeliver
      have hnames : assignNames ([] : List (Exported u)) = .ok [] := rfl
      refine (atomic_iff_of_delivered hdeliver hnames rfl).mpr ?_
      cases readEnvironmentFile prior <;> simp

theorem Untouching.atomic {path out prior : String} (h : Untouching random secrets faults) :
    Atomic random secrets path faults out prior := by
  by_cases hearly : (∃ error, renderActionsEnv random secrets = .error error) ∨ faults.masks.isSome = true ∨
      faults.flush.isSome = true ∨ faults.opening.isSome = true
  · obtain ⟨sinks, error, hdeliver, hsame⟩ :
        ∃ sinks error, deliver random secrets (some path) faults ⟨out, prior⟩ = (sinks, .error error) ∧
          sinks.environment = prior := deliver_untouched hearly
    rw [atomic_iff_of_failed hdeliver, hsame]
  · obtain rfl : secrets = [] := h.resolve_right hearly
    simp only [not_or, Bool.not_eq_true, Option.isSome_eq_false_iff, Option.isNone_iff_eq_none] at hearly
    exact atomic_nil hearly.2.1 hearly.2.2.1 hearly.2.2.2

/-- A write that was not whole is read as what was there exactly where it wrote nothing. -/
theorem read_torn_iff {prior text : String} {assigned : List (String × String)} {c : Char} {more : List Char}
    (hprior : readEnvironmentFile prior = some assigned) (htext : text.toList = c :: more) (hc : c ≠ '\n')
    (count : Nat) :
    readEnvironmentFile (prior ++ String.ofList (text.toList.take count)) = readEnvironmentFile prior ↔
      count = 0 := by
  cases count with
  | zero => simp
  | succ count =>
      refine iff_of_false (fun hsame => ?_) (Nat.succ_ne_zero count)
      have htorn : (String.ofList (text.toList.take (count + 1))).toList = c :: more.take count := by
        rw [String.toList_ofList, htext, List.take_succ_cons]
      rw [hprior] at hsame
      by_cases hended : Ended prior.toList
      · rw [read_append_of_ended hprior hended] at hsame
        obtain ⟨found, hfound, hall⟩ := Option.map_eq_some_iff.mp hsame
        have hnil : found = [] := List.append_right_eq_self.mp hall
        exact read_ne_nil htorn hc (hnil ▸ hfound)
      · exact read_append_of_not_ended hprior hended htorn hc [] (by rw [hsame, List.append_nil])

/-- What is written is read behind what was there exactly where the last line was ended. -/
theorem read_whole_iff {prior text : String} {assigned delivered : List (String × String)} {c : Char}
    {more : List Char} (hprior : readEnvironmentFile prior = some assigned)
    (hread : readEnvironmentFile text = some delivered) (htext : text.toList = c :: more) (hc : c ≠ '\n') :
    readEnvironmentFile (prior ++ text) = (readEnvironmentFile prior).map (· ++ delivered) ↔
      Ended prior.toList := by
  by_cases hended : Ended prior.toList
  · refine iff_of_true ?_ hended
    rw [read_append_of_ended hprior hended, hread, hprior]
    rfl
  · refine iff_of_false ?_ hended
    rw [hprior]
    exact read_append_of_not_ended hprior hended htext hc delivered

/-- A delivery leaves the file as it was or puts its assignments behind what was there exactly where it
does not come to writing, or writes cleanly; and the file is written to with every mask flushed. -/
theorem delivery_atomic_iff {prior : String} {assigned : List (String × String)} (random : Entropy)
    (secrets : List (Exported u)) (path : String) (faults : SinkFaults) (out : String)
    (hprior : readEnvironmentFile prior = some assigned) :
    (Atomic random secrets path faults out prior ↔
      Untouching random secrets faults ∨ CleanWrite faults prior) ∧
    (deliver random secrets (some path) faults ⟨out, prior⟩).1 =
      (deliverEffects random secrets faults).foldl SinkEffect.apply ⟨out, prior⟩ ∧
    ∀ front text later, deliverEffects random secrets faults = front ++ .environment text :: later →
      ∃ masks assignments, renderActionsEnv random secrets = .ok (masks, assignments) ∧
        front = [.out masks, .flush] := by
  refine ⟨?_, deliver_effects random secrets path faults _, fun front text later h => masks_first h⟩
  by_cases huntouching : Untouching random secrets faults
  · exact iff_of_true huntouching.atomic (.inl huntouching)
  · rw [or_iff_right huntouching]
    unfold Untouching at huntouching
    simp only [not_or, Bool.not_eq_true, Option.isSome_eq_false_iff, Option.isNone_iff_eq_none] at huntouching
    obtain ⟨hne, hrenders, hmasks, hflush, hopening⟩ := huntouching
    cases hrender : renderActionsEnv random secrets with
    | error error => exact absurd ⟨error, hrender⟩ hrenders
    | ok rendered =>
        obtain ⟨masks, assignments⟩ := rendered
        have hdeliver := deliver_writes path out prior hrender hmasks hflush hopening
        obtain ⟨c, more, htext, hc⟩ := (assignments_head hrender).resolve_left fun h => hne h.1
        obtain ⟨names, hnames, hlength, hread⟩ := read_assignments hrender
        unfold CleanWrite
        cases hfault : faults.assignments with
        | some fault =>
            obtain ⟨count, reason⟩ := fault
            rw [hfault] at hdeliver
            rw [atomic_iff_of_failed hdeliver]
            exact read_torn_iff hprior htext hc count
        | none =>
            rw [hfault] at hdeliver
            rw [atomic_iff_of_delivered hdeliver hnames hlength]
            exact read_whole_iff hprior hread htext hc

end Delivery

namespace Sample

/-- An environment file whose last line is not ended, and one whose line is. -/
def unendedFile : String := "PRE_EXISTING=1"

def endedFile : String := "PRE_EXISTING=1\n"

def noSinkFaults : SinkFaults := ⟨none, none, none, none⟩

/-- The disk is full after the name and the equals sign. -/
def fullDisk : SinkFaults := ⟨none, none, none, some (5, "no storage space")⟩

def oneToken : List (Exported asciiUnicode) := [⟨certificate, "s3cret"⟩]

theorem oneToken_delivered :
    (deliver guessed oneToken (some "env") noSinkFaults ⟨"", endedFile⟩).1 =
        ⟨"::add-mask::s3cret\n", "PRE_EXISTING=1\nCERT=s3cret\n"⟩ ∧
      Atomic guessed oneToken "env" noSinkFaults "" endedFile := by
  have hprior : readEnvironmentFile endedFile = some [("PRE_EXISTING", "1")] := by decide +kernel
  refine ⟨by decide +kernel, ?_⟩
  exact (delivery_atomic_iff guessed oneToken "env" noSinkFaults "" hprior).1.mpr (.inr (.inr (by decide)))

/-- The first variable is glued to the line that stands at the end of the file, and a write that fails
leaves a variable that nobody delivered. -/
theorem oneToken_not_atomic :
    (deliver guessed oneToken (some "env") noSinkFaults ⟨"", unendedFile⟩).1.environment =
        "PRE_EXISTING=1CERT=s3cret\n" ∧
      (deliver guessed oneToken (some "env") fullDisk ⟨"", endedFile⟩).1.environment =
        "PRE_EXISTING=1\nCERT=" ∧
      readEnvironmentFile "PRE_EXISTING=1CERT=s3cret\n" = some [("PRE_EXISTING", "1CERT=s3cret")] ∧
      readEnvironmentFile "PRE_EXISTING=1\nCERT=" = some [("PRE_EXISTING", "1"), ("CERT", "")] ∧
      ¬ Atomic guessed oneToken "env" noSinkFaults "" unendedFile ∧
      ¬ Atomic guessed oneToken "env" fullDisk "" endedFile := by
  have hunended : readEnvironmentFile unendedFile = some [("PRE_EXISTING", "1")] := by decide +kernel
  have hended : readEnvironmentFile endedFile = some [("PRE_EXISTING", "1")] := by decide +kernel
  have hglued : readEnvironmentFile "PRE_EXISTING=1CERT=s3cret\n" = some [("PRE_EXISTING", "1CERT=s3cret")] := by
    decide +kernel
  have htorn : readEnvironmentFile "PRE_EXISTING=1\nCERT=" = some [("PRE_EXISTING", "1"), ("CERT", "")] := by
    decide +kernel
  have hwhole : deliver guessed oneToken (some "env") noSinkFaults ⟨"", unendedFile⟩ =
      (⟨"::add-mask::s3cret\n", "PRE_EXISTING=1CERT=s3cret\n"⟩, .ok ()) := by decide +kernel
  have hfailed : deliver guessed oneToken (some "env") fullDisk ⟨"", endedFile⟩ =
      (⟨"::add-mask::s3cret\n", "PRE_EXISTING=1\nCERT="⟩,
        .error (.environmentFile "env" "no storage space")) := by decide +kernel
  refine ⟨by rw [hwhole], by rw [hfailed], hglued, htorn, fun h => ?_, fun h => ?_⟩
  · obtain ⟨names, -, -, hread⟩ := h.delivered _ hwhole
    rw [hglued, hunended, Option.map_some] at hread
    -- one assignment is left where two are promised
    have hfirst := (List.cons_eq_cons.mp (Option.some.inj hread)).1
    exact absurd (Prod.mk.inj hfirst).2 (by decide)
  · have hread := h.failed _ _ hfailed
    rw [htorn, hended] at hread
    exact absurd (congrArg List.length (Option.some.inj hread)) (by decide)

end Sample

end Ciphr
