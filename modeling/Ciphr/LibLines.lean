import Mathlib.Data.List.Basic
import Mathlib.Data.List.TakeWhile

/-!
Files of lines. A line ends with a separator; what follows the last separator is a fragment. The
complete lines of a file survive whatever is appended to it.
-/

namespace Lines

variable {α : Type} (nl : α)

/-- Lines one after the other, each with its separator. -/
def join (lines : List (List α)) : List α := lines.flatMap fun line => line ++ [nl]

/-- There is no fragment at the end. -/
def Clean (content : List α) : Prop := content = [] ∨ content.getLast? = some nl

variable {nl}

theorem Clean.tail {a : α} {content : List α} (h : Clean nl (a :: content)) :
    Clean nl content := by
  cases content with
  | nil => exact .inl rfl
  | cons b content =>
      refine .inr ?_
      rcases h with h | h
      · cases h
      · rwa [List.getLast?_cons_cons] at h

theorem clean_append_line (content line : List α) : Clean nl (content ++ (line ++ [nl])) := by
  refine .inr ?_
  rw [← List.append_assoc, List.getLast?_concat]

theorem join_append (lines more : List (List α)) :
    join nl (lines ++ more) = join nl lines ++ join nl more := by
  unfold join
  rw [List.flatMap_append]

theorem clean_join (lines : List (List α)) : Clean nl (join nl lines) := by
  rcases List.eq_nil_or_concat' lines with rfl | ⟨before, line, rfl⟩
  · exact .inl rfl
  · rw [join_append]
    unfold join
    rw [List.flatMap_singleton]
    exact clean_append_line _ line

variable [DecidableEq α] (nl)

/-- The lines that end with a separator. -/
def complete : List α → List (List α)
  | [] => []
  | a :: rest =>
      if a = nl then [] :: complete rest
      else
        match complete rest with
        | [] => []
        | line :: lines => (a :: line) :: lines

/-- The last line that is not empty, with or without its separator. -/
def last (content : List α) : List α :=
  ((content.reverse.dropWhile (· == nl)).takeWhile (· != nl)).reverse

instance (content : List α) : Decidable (Clean nl content) := by
  unfold Clean
  infer_instance

variable {nl}

theorem complete_prefix_append (content rest : List α) :
    complete nl content <+: complete nl (content ++ rest) := by
  induction content with
  | nil => exact List.nil_prefix
  | cons a content ih =>
      rw [List.cons_append]
      unfold complete
      split
      · exact List.prefix_cons_inj _ |>.mpr ih
      · cases hlines : complete nl content with
        | nil => exact List.nil_prefix
        | cons line lines =>
            rw [hlines] at ih
            obtain ⟨more, hmore⟩ := ih
            rw [← hmore]
            exact ⟨more, rfl⟩

theorem complete_ne_nil {content : List α} (hclean : Clean nl content) (hne : content ≠ []) :
    complete nl content ≠ [] := by
  induction content with
  | nil => exact absurd rfl hne
  | cons a content ih =>
      unfold complete
      split
      · exact List.cons_ne_nil _ _
      · rename_i ha
        have hcontent : content ≠ [] := by
          rintro rfl
          rcases hclean with h | h
          · cases h
          · exact ha (by simpa using h)
        cases hlines : complete nl content with
        | nil => exact absurd hlines (ih hclean.tail hcontent)
        | cons line lines => exact List.cons_ne_nil _ _

theorem complete_append_of_clean {content : List α} (hclean : Clean nl content) (rest : List α) :
    complete nl (content ++ rest) = complete nl content ++ complete nl rest := by
  induction content with
  | nil => rfl
  | cons a content ih =>
      have htail := ih hclean.tail
      rw [List.cons_append, complete, complete, htail]
      split
      · rfl
      · rename_i ha
        have hcontent : content ≠ [] := by
          rintro rfl
          rcases hclean with h | h
          · cases h
          · exact ha (by simpa using h)
        cases hlines : complete nl content with
        | nil => exact absurd hlines (complete_ne_nil hclean.tail hcontent)
        | cons line lines => rfl

theorem complete_line {line : List α} (hline : nl ∉ line) : complete nl (line ++ [nl]) = [line] := by
  induction line with
  | nil => simp [complete]
  | cons a line ih =>
      rw [List.mem_cons, not_or] at hline
      rw [List.cons_append, complete, if_neg (Ne.symm hline.1), ih hline.2]

/-- A line written behind complete lines stands on a line of its own. -/
theorem complete_append_line {content line : List α} (hclean : Clean nl content)
    (hline : nl ∉ line) :
    complete nl (content ++ (line ++ [nl])) = complete nl content ++ [line] := by
  rw [complete_append_of_clean hclean, complete_line hline]

theorem complete_join {lines : List (List α)} (hlines : ∀ line ∈ lines, nl ∉ line) :
    complete nl (join nl lines) = lines := by
  induction lines with
  | nil => rfl
  | cons line lines ih =>
      have hclean : Clean nl (line ++ [nl]) := clean_append_line [] line
      have hrest := ih fun other hother => hlines other (List.mem_cons_of_mem _ hother)
      unfold join at hrest ⊢
      rw [List.flatMap_cons, complete_append_of_clean hclean, hrest,
        complete_line (hlines line List.mem_cons_self)]
      rfl

/-- The line is the last one of the content that is not empty. -/
def IsLast (nl : α) (content line : List α) : Prop :=
  line ≠ [] ∧ nl ∉ line ∧ ∃ before after, content = before ++ (line ++ after) ∧ Clean nl before ∧
    ∀ a ∈ after, a = nl

theorem IsLast.eq {content line : List α} (h : IsLast nl content line) : last nl content = line := by
  obtain ⟨hne, hline, before, after, rfl, hclean, hafter⟩ := h
  have hmem : ∀ a ∈ line.reverse, (a != nl) = true := by
    intro a ha
    rw [List.mem_reverse] at ha
    rw [bne_iff_ne]
    rintro rfl
    exact hline ha
  have hskip : ∀ a ∈ after.reverse, (a == nl) = true := by
    intro a ha
    rw [beq_iff_eq]
    exact hafter a (List.mem_reverse.mp ha)
  have hdrop : (line.reverse ++ before.reverse).dropWhile (· == nl) =
      line.reverse ++ before.reverse := by
    cases hrev : line.reverse with
    | nil => exact absurd (List.reverse_eq_nil_iff.mp hrev) hne
    | cons a rest =>
        have ha := hmem a (by rw [hrev]; exact List.mem_cons_self)
        rw [List.cons_append, List.dropWhile_cons_of_neg (by simpa using ha)]
  have hstop : before.reverse.takeWhile (· != nl) = [] := by
    rcases hclean with rfl | hlast
    · rfl
    · obtain ⟨front, rfl⟩ := List.getLast?_eq_some_iff.mp hlast
      rw [List.reverse_append, List.reverse_singleton, List.singleton_append,
        List.takeWhile_cons_of_neg (by simp)]
  unfold last
  rw [List.reverse_append, List.reverse_append, List.append_assoc,
    List.dropWhile_append_of_pos hskip, hdrop, List.takeWhile_append_of_pos hmem, hstop,
    List.append_nil, List.reverse_reverse]

/-- A content that is not nothing but separators has such a line. -/
theorem isLast_last {content : List α} (h : ∃ a ∈ content, a ≠ nl) :
    IsLast nl content (last nl content) := by
  have hsplit : content.reverse =
      content.reverse.takeWhile (· == nl) ++ ((last nl content).reverse ++
        (content.reverse.dropWhile (· == nl)).dropWhile (· != nl)) := by
    unfold last
    rw [List.reverse_reverse, List.takeWhile_append_dropWhile, List.takeWhile_append_dropWhile]
  refine ⟨?_, ?_, ((content.reverse.dropWhile (· == nl)).dropWhile (· != nl)).reverse,
    (content.reverse.takeWhile (· == nl)).reverse, ?_, ?_, ?_⟩
  · obtain ⟨a, hmem, hne⟩ := h
    unfold last
    rw [ne_eq, List.reverse_eq_nil_iff]
    cases hrest : content.reverse.dropWhile (· == nl) with
    | nil =>
        rw [List.dropWhile_eq_nil_iff] at hrest
        exact absurd (beq_iff_eq.mp (hrest a (List.mem_reverse.mpr hmem))) hne
    | cons b rest =>
        have hb : (b == nl) = false := by
          have hhead := List.head?_dropWhile_not (· == nl) content.reverse
          rw [hrest] at hhead
          simpa using hhead
        rw [List.takeWhile_cons_of_pos (by simpa using hb)]
        exact List.cons_ne_nil _ _
  · intro hmem
    unfold last at hmem
    have hne := List.mem_takeWhile_imp (List.mem_reverse.mp hmem)
    rw [bne_iff_ne] at hne
    exact hne rfl
  · have hreverse := congrArg List.reverse hsplit
    rw [List.reverse_reverse, List.reverse_append, List.reverse_append, List.reverse_reverse,
      List.append_assoc] at hreverse
    exact hreverse
  · cases hrest : (content.reverse.dropWhile (· == nl)).dropWhile (· != nl) with
    | nil => exact .inl rfl
    | cons b rest =>
        right
        have hhead := List.head?_dropWhile_not (· != nl) (content.reverse.dropWhile (· == nl))
        rw [hrest] at hhead
        have hb : b = nl := by simpa using hhead
        rw [List.reverse_cons, List.getLast?_concat, hb]
  · intro a ha
    have hskip := List.mem_takeWhile_imp (List.mem_reverse.mp ha)
    exact beq_iff_eq.mp hskip

theorem last_eq_nil_iff {content : List α} : last nl content = [] ↔ ∀ a ∈ content, a = nl := by
  constructor
  · intro hnil
    by_contra hsome
    simp only [not_forall] at hsome
    obtain ⟨a, hmem, hne⟩ := hsome
    exact (isLast_last ⟨a, hmem, hne⟩).1 hnil
  · intro hall
    have hdrop : content.reverse.dropWhile (· == nl) = [] := by
      rw [List.dropWhile_eq_nil_iff]
      intro a ha
      rw [beq_iff_eq]
      exact hall a (List.mem_reverse.mp ha)
    unfold last
    rw [hdrop]
    rfl

theorem last_join {lines : List (List α)} {line : List α} (hne : line ≠ []) (hline : nl ∉ line) :
    last nl (join nl (lines ++ [line])) = line := by
  apply IsLast.eq
  refine ⟨hne, hline, join nl lines, [nl], ?_, clean_join lines, ?_⟩
  · rw [join_append]
    unfold join
    rw [List.flatMap_singleton]
  · intro a ha
    exact List.mem_singleton.mp ha

end Lines
