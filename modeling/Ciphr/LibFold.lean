import Mathlib.Data.List.Forall2
import Mathlib.Data.List.Nodup

/-!
Loops that run over a list and may return early with an error.
-/

namespace Loop

variable {ε : Type} {α β γ : Type}

theorem bind_eq_ok {x : Except ε α} {f : α → Except ε β} {b : β} (h : (x >>= f) = .ok b) :
    ∃ a, x = .ok a ∧ f a = .ok b := by
  cases x with
  | error e => cases h
  | ok a => exact ⟨a, rfl, h⟩

theorem isOk_iff {x : Except ε α} : x.isOk = true ↔ ∃ a, x = .ok a := by
  cases x with
  | error e => simp [Except.isOk, Except.toBool]
  | ok a => simp [Except.isOk, Except.toBool]

theorem mapError_eq_ok {ε' : Type} {x : Except ε α} {f : ε → ε'} {a : α}
    (h : x.mapError f = .ok a) : x = .ok a := by
  cases x with
  | error e => cases h
  | ok b =>
      cases h
      rfl

theorem map_eq_ok {x : Except ε α} {f : α → β} {b : β} :
    x.map f = .ok b ↔ ∃ a, x = .ok a ∧ f a = b := by
  cases x with
  | error error => simp [Except.map]
  | ok a => simp [Except.map]

theorem foldlM_cons_eq_ok {f : α → β → Except ε α} {acc acc' : α} {b : β} {bs : List β}
    (h : (b :: bs).foldlM f acc = .ok acc') :
    ∃ mid, f acc b = .ok mid ∧ bs.foldlM f mid = .ok acc' := by
  rw [List.foldlM_cons] at h
  exact bind_eq_ok h

/-- A loop whose every round adds to a collection what belongs to the round's element has, when it
ends without an error, added what belongs to the elements of the list and nothing else. -/
theorem foldlM_collects {f : α → β → Except ε α} {bs : List β} {acc acc' : α}
    (h : bs.foldlM f acc = .ok acc') (Has : α → γ → Prop) (P : β → γ → Prop)
    (hround : ∀ acc b acc', f acc b = .ok acc' → ∀ x, Has acc' x ↔ Has acc x ∨ P b x) (x : γ) :
    Has acc' x ↔ Has acc x ∨ ∃ b ∈ bs, P b x := by
  induction bs generalizing acc with
  | nil =>
      cases h
      simp
  | cons b bs ih =>
      obtain ⟨mid, hmid, hrest⟩ := foldlM_cons_eq_ok h
      rw [ih hrest, hround acc b mid hmid, List.exists_mem_cons_iff, or_assoc]

/-- What no round changes is the same after the loop. -/
theorem foldlM_keeps {f : α → β → Except ε α} {bs : List β} {acc acc' : α}
    (h : bs.foldlM f acc = .ok acc') (g : α → γ)
    (hround : ∀ acc b acc', f acc b = .ok acc' → g acc' = g acc) : g acc' = g acc := by
  induction bs generalizing acc with
  | nil =>
      cases h
      rfl
  | cons b bs ih =>
      obtain ⟨mid, hmid, hrest⟩ := foldlM_cons_eq_ok h
      exact (ih hrest).trans (hround acc b mid hmid)

/-- A loop that ends with an error has run without one up to an element that it fails at. -/
theorem foldlM_eq_error {f : α → β → Except ε α} {bs : List β} {acc : α} {error : ε}
    (h : bs.foldlM f acc = .error error) :
    ∃ front b rest mid, bs = front ++ b :: rest ∧ front.foldlM f acc = .ok mid ∧
      f mid b = .error error := by
  induction bs generalizing acc with
  | nil => cases h
  | cons b bs ih =>
      rw [List.foldlM_cons] at h
      cases hnext : f acc b with
      | error other =>
          rw [hnext] at h
          cases h
          exact ⟨[], b, bs, acc, rfl, rfl, hnext⟩
      | ok next =>
          rw [hnext] at h
          obtain ⟨front, failing, rest, mid, hsplit, hfront, hfails⟩ := ih h
          refine ⟨b :: front, failing, rest, mid, by rw [hsplit]; rfl, ?_, hfails⟩
          rw [List.foldlM_cons, hnext]
          exact hfront

/-- A loop that collects one result for each element has run to its end exactly when every element
gives its result. -/
theorem mapM_eq_ok_iff {f : α → Except ε β} {as : List α} {bs : List β} :
    as.mapM f = .ok bs ↔ List.Forall₂ (fun a b => f a = .ok b) as bs := by
  induction as generalizing bs with
  | nil =>
      rw [List.mapM_nil, List.forall₂_nil_left_iff]
      constructor
      · intro h
        cases h
        rfl
      · intro h
        rw [h]
        rfl
  | cons a as ih =>
      rw [List.mapM_cons]
      constructor
      · intro h
        obtain ⟨b, hb, hrest⟩ := bind_eq_ok h
        obtain ⟨rest, hmap, hout⟩ := bind_eq_ok hrest
        cases hout
        exact .cons hb (ih.mp hmap)
      · intro h
        cases h with
        | cons hb hrest =>
            rw [hb, ih.mpr hrest]
            rfl

theorem forall₂_mem_right {R : α → β → Prop} {as : List α} {bs : List β}
    (h : List.Forall₂ R as bs) {b : β} (hmem : b ∈ bs) : ∃ a ∈ as, R a b := by
  induction h with
  | nil => cases hmem
  | @cons a b' as bs hab _ ih =>
      rcases List.mem_cons.mp hmem with rfl | hmem
      · exact ⟨a, List.mem_cons_self .., hab⟩
      · obtain ⟨a', ha', hR⟩ := ih hmem
        exact ⟨a', List.mem_cons_of_mem _ ha', hR⟩

/-- What such a loop has collected comes from an element. -/
theorem exists_of_mem_mapM {f : α → Except ε β} {as : List α} {bs : List β} {b : β}
    (h : as.mapM f = .ok bs) (hb : b ∈ bs) : ∃ a ∈ as, f a = .ok b := by
  exact forall₂_mem_right (mapM_eq_ok_iff.mp h) hb

/-- Every element has given what it was to give. -/
theorem exists_of_mem_of_mapM {f : α → Except ε β} {as : List α} {bs : List β} {a : α}
    (h : as.mapM f = .ok bs) (ha : a ∈ as) : ∃ b ∈ bs, f a = .ok b := by
  rw [mapM_eq_ok_iff] at h
  induction h with
  | nil => cases ha
  | cons hfirst _ ih =>
      rcases List.mem_cons.mp ha with rfl | hrest
      · exact ⟨_, List.mem_cons_self, hfirst⟩
      · obtain ⟨b, hb, hfb⟩ := ih hrest
        exact ⟨b, List.mem_cons_of_mem _ hb, hfb⟩

/-- A loop that turns every valid element into one item and refuses an element whose key is already
there. `Holds acc items` says that the accumulator stands for the items collected so far. -/
structure Collector {ι κ : Type} (f : α → β → Except ε α) (Holds : α → List ι → Prop)
    (Valid : β → Prop) (Gives : β → ι → Prop) (key : β → κ) (keyOf : ι → κ) : Prop where
  sound : ∀ {acc items b acc'}, Holds acc items → f acc b = .ok acc' →
    Valid b ∧ key b ∉ items.map keyOf ∧ ∃ item, Gives b item ∧ Holds acc' (items ++ [item])
  complete : ∀ {acc items b}, Holds acc items → Valid b → key b ∉ items.map keyOf →
    ∃ acc', f acc b = .ok acc'
  same : ∀ {b item}, Gives b item → keyOf item = key b

namespace Collector

variable {ι κ : Type} {f : α → β → Except ε α} {Holds : α → List ι → Prop} {Valid : β → Prop}
  {Gives : β → ι → Prop} {key : β → κ} {keyOf : ι → κ}

/-- A run that ends without an error has found every element valid and every key new, and holds
one item for each element, in order. -/
theorem run_sound (h : Collector f Holds Valid Gives key keyOf) {bs : List β} {acc acc' : α}
    {items : List ι} (hholds : Holds acc items) (hnodup : (items.map keyOf).Nodup)
    (hrun : bs.foldlM f acc = .ok acc') :
    (∀ b ∈ bs, Valid b) ∧ (items.map keyOf ++ bs.map key).Nodup ∧
      ∃ built, List.Forall₂ Gives bs built ∧ Holds acc' (items ++ built) := by
  induction bs generalizing acc items with
  | nil =>
      cases hrun
      rw [List.map_nil, List.append_nil]
      refine ⟨by simp, hnodup, [], .nil, ?_⟩
      rw [List.append_nil]
      exact hholds
  | cons b bs ih =>
      obtain ⟨mid, hmid, hrest⟩ := foldlM_cons_eq_ok hrun
      obtain ⟨hvalid, hnew, item, hgives, hholds'⟩ := h.sound hholds hmid
      have hkeys : (items ++ [item]).map keyOf = items.map keyOf ++ [key b] := by
        rw [List.map_append, List.map_singleton, h.same hgives]
      have hnodup' : ((items ++ [item]).map keyOf).Nodup := by
        rw [hkeys]
        apply List.Nodup.append hnodup (List.nodup_singleton _)
        rw [List.disjoint_singleton]
        exact hnew
      obtain ⟨hvalids, hall, built, hbuilt, hend⟩ := ih hholds' hnodup' hrest
      rw [hkeys, List.append_assoc, List.singleton_append] at hall
      rw [List.append_assoc, List.singleton_append] at hend
      exact ⟨List.forall_mem_cons.mpr ⟨hvalid, hvalids⟩, hall, item :: built,
        .cons hgives hbuilt, hend⟩

theorem run_complete (h : Collector f Holds Valid Gives key keyOf) {bs : List β} {acc : α}
    {items : List ι} (hholds : Holds acc items) (hvalid : ∀ b ∈ bs, Valid b)
    (hnodup : (items.map keyOf ++ bs.map key).Nodup) : ∃ acc', bs.foldlM f acc = .ok acc' := by
  induction bs generalizing acc items with
  | nil => exact ⟨acc, rfl⟩
  | cons b bs ih =>
      obtain ⟨hb, hrest⟩ := List.forall_mem_cons.mp hvalid
      have hnew : key b ∉ items.map keyOf := by
        intro hmem
        exact List.disjoint_of_nodup_append hnodup hmem List.mem_cons_self
      obtain ⟨mid, hmid⟩ := h.complete hholds hb hnew
      obtain ⟨-, -, item, hgives, hholds'⟩ := h.sound hholds hmid
      have hkeys : (items ++ [item]).map keyOf ++ bs.map key =
          items.map keyOf ++ (b :: bs).map key := by
        rw [List.map_append, List.map_singleton, h.same hgives, List.append_assoc,
          List.singleton_append, List.map_cons]
      rw [← hkeys] at hnodup
      obtain ⟨acc', hrun⟩ := ih hholds' hrest hnodup
      refine ⟨acc', ?_⟩
      rw [List.foldlM_cons, hmid]
      exact hrun

/-- From an accumulator that holds nothing, the loop ends without an error exactly when every
element is valid and no key repeats. -/
theorem run_iff (h : Collector f Holds Valid Gives key keyOf) {bs : List β} {acc : α}
    (hholds : Holds acc []) :
    (∃ acc', bs.foldlM f acc = .ok acc') ↔ (∀ b ∈ bs, Valid b) ∧ (bs.map key).Nodup := by
  constructor
  · rintro ⟨acc', hrun⟩
    obtain ⟨hvalid, hnodup, -⟩ := h.run_sound hholds List.nodup_nil hrun
    exact ⟨hvalid, hnodup⟩
  · rintro ⟨hvalid, hnodup⟩
    exact h.run_complete hholds hvalid hnodup

/-- And what it then holds is one item for each element, in order. -/
theorem run_gives (h : Collector f Holds Valid Gives key keyOf) {bs : List β} {acc acc' : α}
    (hholds : Holds acc []) (hrun : bs.foldlM f acc = .ok acc') :
    ∃ built, List.Forall₂ Gives bs built ∧ Holds acc' built := by
  obtain ⟨-, -, hbuilt⟩ := h.run_sound hholds List.nodup_nil hrun
  exact hbuilt

end Collector

end Loop
