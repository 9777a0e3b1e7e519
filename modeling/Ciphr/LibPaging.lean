import Mathlib.Data.List.Basic

/-!
Reading a list page by page. Each page is asked for by a mark of the last element that was received, and
a reader goes on until a page is empty; nothing is assumed of the marks but that they tell what comes
after them.
-/

namespace Paging

variable {α β κ ε : Type}

/-- The pages that a reader receives who goes on from a cursor until a page is empty. -/
inductive Pages (fetch : Option κ → Except ε (List α)) (cursor : List α → Option κ) :
    Option κ → List (List α) → Prop where
  | done {from' : Option κ} (h : fetch from' = .ok []) : Pages fetch cursor from' []
  | next {from' : Option κ} {page : List α} {pages : List (List α)} (h : fetch from' = .ok page)
      (hne : page ≠ []) (hnext : Pages fetch cursor (cursor page) pages) :
      Pages fetch cursor from' (page :: pages)

/-- The marks of a list tell of each element what comes after it. -/
structure Marked (after : κ → α → Bool) (mark : α → κ) (l : List α) : Prop where
  ordered : l.Pairwise fun a b => after (mark a) b = true ∧ after (mark b) a = false
  self : ∀ a ∈ l, after (mark a) a = false

/-- At most `limit` of what comes after a cursor. -/
def fetched (after : κ → α → Bool) (limit : Nat) (l : List α) (from' : Option κ) : List α :=
  (l.filter fun a => from'.all (after · a)).take limit

variable {after : κ → α → Bool} {mark : α → κ} {l front later : List α} {a : α} {limit : Nat}
  {fetch : Option κ → Except ε (List α)} {from' : Option κ} {pages : List (List α)}

/-- What comes after an element is what follows it. -/
theorem Marked.filter_after (h : Marked after mark (front ++ a :: later)) :
    (front ++ a :: later).filter (after (mark a)) = later := by
  have hordered := List.pairwise_append.mp h.ordered
  have hfront : front.filter (after (mark a)) = [] := by
    rw [List.filter_eq_nil_iff]
    intro b hb
    rw [(hordered.2.2 b hb a (List.mem_cons_self ..)).2]
    exact Bool.false_ne_true
  have hself : after (mark a) a = false :=
    h.self a (List.mem_append_right _ (List.mem_cons_self ..))
  have hlater : later.filter (after (mark a)) = later := by
    rw [List.filter_eq_self]
    exact fun b hb => ((List.pairwise_cons.mp hordered.2.1).1 b hb).1
  rw [List.filter_append, hfront, List.nil_append,
    List.filter_cons_of_neg (by rw [hself]; exact Bool.false_ne_true), hlater]

/-- A cursor stands before an end of the list: nothing was received yet, or the last element received
is the one before. -/
def StandsBefore (mark : α → κ) (l : List α) (from' : Option κ) (rest : List α) : Prop :=
  from' = none ∧ rest = l ∨ ∃ front a, l = front ++ a :: rest ∧ from' = some (mark a)

theorem Marked.filter_of_stands (h : Marked after mark l) {rest : List α}
    (hstands : StandsBefore mark l from' rest) : (l.filter fun a => from'.all (after · a)) = rest := by
  rcases hstands with ⟨rfl, rfl⟩ | ⟨front, a, rfl, rfl⟩
  · exact List.filter_eq_self.mpr fun _ _ => rfl
  · exact h.filter_after

/-- Where the elements of a page were received, the cursor stands before what is left. -/
theorem StandsBefore.next {rest page : List α} (hstands : StandsBefore mark l from' (page ++ rest))
    (hne : page ≠ []) : StandsBefore mark l (page.getLast?.map mark) rest := by
  obtain ⟨init, a, rfl⟩ := (List.eq_nil_or_concat' page).resolve_left hne
  have hlast : ((init ++ [a]).getLast?.map mark) = some (mark a) := by
    rw [List.getLast?_append, List.getLast?_singleton]
    rfl
  rw [hlast]
  rcases hstands with ⟨-, hall⟩ | ⟨front, b, hall, -⟩
  · exact .inr ⟨init, a, by rw [← hall, List.append_assoc]; rfl, rfl⟩
  · refine .inr ⟨front ++ b :: init, a, ?_, rfl⟩
    rw [hall, List.append_assoc, List.append_assoc]
    rfl

/-- What is fetched is what the marks say, wherever a reader of the list can stand. -/
def Serves (fetch : Option κ → Except ε (List α)) (after : κ → α → Bool) (mark : α → κ) (limit : Nat)
    (l : List α) : Prop :=
  ∀ from', (from' = none ∨ ∃ a ∈ l, from' = some (mark a)) →
    fetch from' = .ok (fetched after limit l from')

theorem Serves.fetch_eq (h : Serves fetch after mark limit l) (hmarked : Marked after mark l)
    {rest : List α} (hstands : StandsBefore mark l from' rest) : fetch from' = .ok (rest.take limit) := by
  rw [h from', fetched, hmarked.filter_of_stands hstands]
  rcases hstands with ⟨hnone, -⟩ | ⟨front, a, hall, hsome⟩
  · exact .inl hnone
  · exact .inr ⟨a, hall ▸ List.mem_append_right _ (List.mem_cons_self ..), hsome⟩

/-- A reader reaches an empty page. -/
theorem Serves.exists_pages (h : Serves fetch after mark limit l) (hmarked : Marked after mark l)
    (hlimit : 0 < limit) {rest : List α} (hstands : StandsBefore mark l from' rest) :
    ∃ pages, Pages fetch (fun page => page.getLast?.map mark) from' pages := by
  have hall : ∀ bound (from' : Option κ) (rest : List α), rest.length ≤ bound →
      StandsBefore mark l from' rest →
        ∃ pages, Pages fetch (fun page => page.getLast?.map mark) from' pages := by
    intro bound
    induction bound with
    | zero =>
        intro from' rest hlength hstands
        refine ⟨[], .done ?_⟩
        rw [h.fetch_eq hmarked hstands, List.eq_nil_of_length_eq_zero (Nat.le_zero.mp hlength), List.take_nil]
    | succ bound ih =>
        intro from' rest hlength hstands
        have hstands' : StandsBefore mark l from' (rest.take limit ++ rest.drop limit) := by
          rwa [List.take_append_drop]
        by_cases hnil : rest.take limit = []
        · refine ⟨[], .done ?_⟩
          rw [h.fetch_eq hmarked hstands, hnil]
        · have hshorter : (rest.drop limit).length ≤ bound := by
            rw [List.length_drop]
            omega
          obtain ⟨pages, hpages⟩ := ih _ _ hshorter (hstands'.next hnil)
          exact ⟨rest.take limit :: pages, .next (h.fetch_eq hmarked hstands) hnil hpages⟩
  exact hall rest.length from' rest (Nat.le_refl _) hstands

/-- The pages are the list, cut into parts of at most `limit` elements. -/
theorem Serves.flatten_eq (h : Serves fetch after mark limit l) (hmarked : Marked after mark l)
    (hlimit : 0 < limit) (hpages : Pages fetch (fun page => page.getLast?.map mark) from' pages)
    {rest : List α} (hstands : StandsBefore mark l from' rest) :
    pages.flatten = rest ∧ ∀ page ∈ pages, page.length ≤ limit := by
  induction hpages generalizing rest with
  | done hfetch =>
      rw [h.fetch_eq hmarked hstands, Except.ok.injEq, List.take_eq_nil_iff] at hfetch
      have hnil : rest = [] := hfetch.resolve_left (by omega)
      exact ⟨hnil.symm, List.forall_mem_nil _⟩
  | @next from' page pages hfetch hne hnext ih =>
      rw [h.fetch_eq hmarked hstands, Except.ok.injEq] at hfetch
      have hstands' : StandsBefore mark l from' (page ++ rest.drop limit) := by
        rwa [← hfetch, List.take_append_drop]
      obtain ⟨hflatten, hshort⟩ := ih (hstands'.next hne)
      refine ⟨?_, List.forall_mem_cons.mpr ⟨?_, hshort⟩⟩
      · rw [List.flatten_cons, hflatten, ← hfetch, List.take_append_drop]
      · rw [← hfetch]
        exact List.length_take_le _ _

/-- The same reader where every page is turned around: its cursor is the first element of a page. -/
theorem Pages.reverse {cursor : List α → Option κ} (h : Pages fetch cursor from' pages) :
    Pages (fun from' => (fetch from').map List.reverse) (fun page => cursor page.reverse) from'
      (pages.map List.reverse) := by
  induction h with
  | done h => exact .done (by rw [h]; rfl)
  | next h hne hnext ih =>
      refine .next (by rw [h]; rfl) (fun hnil => hne (List.reverse_eq_nil_iff.mp hnil)) ?_
      rwa [List.reverse_reverse]

/-- The pages that were turned around make up the list that was. -/
theorem flatten_of_reversed (h : (pages.map List.reverse).flatten = l.reverse) :
    pages.reverse.flatten = l := by
  rw [← List.reverse_inj, List.reverse_flatten, List.map_reverse, List.reverse_reverse, h]

end Paging
