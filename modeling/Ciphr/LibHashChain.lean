import Mathlib.Data.List.Basic

/-!
Lists of records each of which carries the hash of the one before it. Where the hash is injective
on the records at hand, the hash of the last record commits to all of them.
-/

namespace HashChain

variable {ρ η : Type} (hash : ρ → η) (prev : ρ → Option η)

/-- Every record carries the hash of its predecessor, and the first one carries `start`. -/
def Linked : η → List ρ → Prop
  | _, [] => True
  | start, r :: rs => prev r = some start ∧ Linked (hash r) rs

/-- The hash that a record appended to the list has to carry. -/
def headHash : η → List ρ → η
  | start, [] => start
  | _, r :: rs => headHash (hash r) rs

variable {hash prev}

theorem headHash_append (start : η) (rs ss : List ρ) :
    headHash hash start (rs ++ ss) = headHash hash (headHash hash start rs) ss := by
  induction rs generalizing start with
  | nil => rfl
  | cons r rs ih => exact ih (hash r)

theorem linked_append (start : η) (rs ss : List ρ) :
    Linked hash prev start (rs ++ ss) ↔
      Linked hash prev start rs ∧ Linked hash prev (headHash hash start rs) ss := by
  induction rs generalizing start with
  | nil => simp [Linked, headHash]
  | cons r rs ih =>
      simp only [List.cons_append, Linked, headHash]
      rw [ih, and_assoc]

theorem Linked.take {start : η} {rs : List ρ} (h : Linked hash prev start rs) (n : Nat) :
    Linked hash prev start (rs.take n) := by
  rw [← List.take_append_drop n rs, linked_append] at h
  exact h.1

/-- Equally long linked lists with the same head hash are the same list. -/
theorem eq_of_headHash_eq {start start' : η} (n : Nat) {rs ss : List ρ}
    (hrs : Linked hash prev start rs) (hss : Linked hash prev start' ss) (hr : rs.length = n)
    (hs : ss.length = n) (hinj : ∀ r ∈ rs, ∀ s ∈ ss, hash r = hash s → r = s)
    (hhead : headHash hash start rs = headHash hash start' ss) : rs = ss := by
  -- backwards from the last record, whose hash is the head hash
  induction n generalizing rs ss with
  | zero => rw [List.length_eq_zero_iff.mp hr, List.length_eq_zero_iff.mp hs]
  | succ n ih =>
      obtain ⟨rs, r, rfl⟩ := (List.eq_nil_or_concat' rs).resolve_left (by rintro rfl; cases hr)
      obtain ⟨ss, s, rfl⟩ := (List.eq_nil_or_concat' ss).resolve_left (by rintro rfl; cases hs)
      rw [headHash_append, headHash_append] at hhead
      have hlast : r = s := hinj r (by simp) s (by simp) hhead
      subst hlast
      rw [linked_append] at hrs hss
      have hprev := hrs.2.1.symm.trans hss.2.1
      rw [Option.some.injEq] at hprev
      have hrest := ih hrs.1 hss.1 (by simpa using hr) (by simpa using hs)
        (fun a ha b hb => hinj a (List.mem_append_left _ ha) b (List.mem_append_left _ hb)) hprev
      rw [hrest]

end HashChain
