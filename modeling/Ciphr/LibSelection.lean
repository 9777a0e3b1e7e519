import Mathlib.Data.List.Sort
import Mathlib.Data.Set.Basic
import Mathlib.Order.Basic

/-!
Selecting from a collection of candidates those of the greatest rank, and among them the one with
the least key. The candidates of a list are selected by a filter and a sort; the selection depends
on the set of them only.
-/

namespace Selection

variable {α κ : Type*}

/-- The candidates than which none has a greater rank. -/
def top (rank : α → Nat) (M : Set α) : Set α := {x | x ∈ M ∧ ∀ y ∈ M, rank y ≤ rank x}

/-- A candidate whose key no candidate's key is below. -/
def IsLeast [LE κ] (key : α → κ) (S : Set α) (x : α) : Prop := x ∈ S ∧ ∀ y ∈ S, key x ≤ key y

theorem IsLeast.key_eq [PartialOrder κ] {key : α → κ} {S : Set α} {x y : α}
    (hx : IsLeast key S x) (hy : IsLeast key S y) : key x = key y :=
  le_antisymm (hx.2 y hy.1) (hy.2 x hx.1)

theorem top_union_of_lower {rank : α → Nat} {M A : Set α}
    (hlower : ∀ y ∈ A, ∃ x ∈ M, rank y < rank x) : top rank (M ∪ A) = top rank M := by
  ext z
  constructor
  · rintro ⟨hz | hz, hmax⟩
    · exact ⟨hz, fun y hy => hmax y (.inl hy)⟩
    · obtain ⟨x, hx, hlt⟩ := hlower z hz
      have hle := hmax x (.inl hx)
      omega
  · rintro ⟨hz, hmax⟩
    refine ⟨.inl hz, ?_⟩
    rintro y (hy | hy)
    · exact hmax y hy
    · obtain ⟨x, hx, hlt⟩ := hlower y hy
      have hle := hmax x hx
      omega

theorem top_subset_top_union {rank : α → Nat} {M A : Set α}
    (hbounded : ∀ y ∈ A, ∃ x ∈ M, rank y ≤ rank x) : top rank M ⊆ top rank (M ∪ A) := by
  rintro z ⟨hz, hmax⟩
  refine ⟨.inl hz, ?_⟩
  rintro y (hy | hy)
  · exact hmax y hy
  · obtain ⟨x, hx, hle⟩ := hbounded y hy
    exact hle.trans (hmax x hx)

/-- Filtering a list by the greatest rank in it selects the top of its members. -/
theorem mem_filter_max (rank : α → Nat) (l : List α) (x : α) :
    x ∈ l.filter (fun y => rank y == ((l.map rank).max?.getD 0)) ↔
      x ∈ top rank {y | y ∈ l} := by
  cases hmax : (l.map rank).max? with
  | none =>
      rw [List.max?_eq_none_iff, List.map_eq_nil_iff] at hmax
      subst hmax
      simp [top]
  | some m =>
      rw [List.max?_eq_some_iff] at hmax
      obtain ⟨hmem, hle⟩ := hmax
      obtain ⟨z, hz, rfl⟩ := List.mem_map.mp hmem
      simp only [Option.getD_some, List.mem_filter, beq_iff_eq]
      constructor
      · rintro ⟨hx, hrank⟩
        refine ⟨hx, ?_⟩
        intro y hy
        rw [hrank]
        exact hle _ (List.mem_map_of_mem hy)
      · rintro ⟨hx, htop⟩
        exact ⟨hx, le_antisymm (hle _ (List.mem_map_of_mem hx)) (htop z hz)⟩

/-- Searching a sorted list finds the least of the members that are searched for. -/
theorem isLeast_of_find? [Preorder κ] {key : α → κ} {l : List α}
    (hsorted : l.Pairwise fun a b => key a ≤ key b) {p : α → Bool} {x : α}
    (hfind : l.find? p = some x) : IsLeast key {y | y ∈ l ∧ p y = true} x := by
  obtain ⟨hpx, before, after, rfl, hbefore⟩ := List.find?_eq_some_iff_append.mp hfind
  refine ⟨⟨by simp, hpx⟩, ?_⟩
  rintro y ⟨hy, hpy⟩
  rcases List.mem_append.mp hy with hy | hy
  · have hnot := hbefore y hy
    rw [hpy] at hnot
    cases hnot
  · rcases List.mem_cons.mp hy with rfl | hy
    · exact le_refl _
    · exact List.rel_of_pairwise_cons (List.pairwise_append.mp hsorted).2.1 hy

theorem isLeast_head [Preorder κ] {key : α → κ} {l : List α}
    (hsorted : l.Pairwise fun a b => key a ≤ key b) (hne : l ≠ []) :
    IsLeast key {y | y ∈ l} (l.head hne) := by
  refine ⟨List.head_mem hne, ?_⟩
  intro y hy
  cases l with
  | nil => exact absurd rfl hne
  | cons x l =>
      rcases List.mem_cons.mp hy with rfl | hy
      · exact le_refl _
      · exact List.rel_of_pairwise_cons hsorted hy

end Selection
