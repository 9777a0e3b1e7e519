import Ciphr.LibTrace

/-!
Two scripts beside each other, each told what it asks by a function of its own. They are twins when they
ask the same calls and their ends are related, whatever the replies they do not share.
-/

namespace Script

variable {Call : Type} {Reply : Call → Type} {ε α β γ δ : Type}

/-- What is asked and how it ends, where every call has the reply that a function gives. -/
def told (f : (c : Call) → Reply c) : Script Call Reply ε α → List Call × Except ε α
  | .done result => ([], result)
  | .call c next =>
      let rest := (next (f c)).told f
      (c :: rest.1, rest.2)

variable {f f' : (c : Call) → Reply c} {script : Script Call Reply ε α} {script' : Script Call Reply ε β}

/-- A run whose replies are those of the function is the one. -/
theorem Runs.told {acts : List (Act Call Reply)} {result : Except ε α} (h : Runs script acts result)
    (hf : ∀ act ∈ acts, act.2 = f act.1) : script.told f = (acts.map (·.1), result) := by
  induction h with
  | done => rfl
  | @call c next acts result reply _ ih =>
      obtain ⟨hfirst, hrest⟩ := List.forall_mem_cons.mp hf
      have hreply : reply = f c := hfirst
      rw [Script.told, ← hreply, ih hrest]
      rfl

/-- What is told is a run. -/
theorem runs_told (f : (c : Call) → Reply c) (script : Script Call Reply ε α) :
    Runs script ((script.told f).1.map fun c => ⟨c, f c⟩) (script.told f).2 := by
  induction script with
  | done result => exact .done result
  | call c next ih => exact .call (f c) (ih (f c))

theorem told_bind (k : α → Script Call Reply ε γ) :
    (script >>= k).told f = match script.told f with
      | (calls, .error e) => (calls, .error e)
      | (calls, .ok a) => (calls ++ ((k a).told f).1, ((k a).told f).2) := by
  change (script.bind k).told f = _
  induction script with
  | done ended =>
      cases ended with
      | error e => rfl
      | ok a => rfl
  | call c next ih =>
      change (_ :: ((next (f c)).bind k |>.told f).1, ((next (f c)).bind k |>.told f).2) = _
      rw [ih, Script.told]
      cases hrest : (next (f c)).told f with
      | mk calls ended =>
          cases ended with
          | error e => rfl
          | ok a => rfl

/-- Both ended with the same error, or both well and with related results. -/
def Related (R : α → β → Prop) : Except ε α → Except ε β → Prop
  | .ok a, .ok b => R a b
  | .error e, .error e' => e = e'
  | _, _ => False

/-- The two ask the same calls, and their ends are related. -/
def Twins (f f' : (c : Call) → Reply c) (R : α → β → Prop) (script : Script Call Reply ε α)
    (script' : Script Call Reply ε β) : Prop :=
  (script.told f).1 = (script'.told f').1 ∧ Related R (script.told f).2 (script'.told f').2

theorem twins_pure {R : α → β → Prop} {a : α} {b : β} (h : R a b) :
    Twins f f' R (pure a : Script Call Reply ε α) (pure b) :=
  ⟨rfl, h⟩

theorem twins_ofExcept {R : α → β → Prop} {ended : Except ε α} {ended' : Except ε β}
    (h : Related R ended ended') :
    Twins f f' R (ofExcept ended : Script Call Reply ε α) (ofExcept ended') :=
  ⟨rfl, h⟩

/-- The same call, whose two replies are read as related. -/
theorem twins_ask {R : α → β → Prop} {c : Call} {g : Reply c → Except ε α} {g' : Reply c → Except ε β}
    (h : Related R (g (f c)) (g' (f' c))) : Twins f f' R (ask c g) (ask c g') :=
  ⟨rfl, h⟩

/-- Two scripts and what follows them, where what follows may rest on how the first one has ended. -/
theorem Twins.bind_of {R : α → β → Prop} {S : γ → δ → Prop} {k : α → Script Call Reply ε γ}
    {k' : β → Script Call Reply ε δ} (h : Twins f f' R script script')
    (hk : ∀ a b, (script.told f).2 = .ok a → R a b → Twins f f' S (k a) (k' b)) :
    Twins f f' S (script >>= k) (script' >>= k') := by
  obtain ⟨hcalls, hends⟩ := h
  unfold Twins
  rw [told_bind, told_bind]
  revert hcalls hends hk
  cases script.told f with
  | mk calls ended =>
      cases script'.told f' with
      | mk calls' ended' =>
          cases ended with
          | error e =>
              cases ended' with
              | error e' => exact fun _ hcalls hends => ⟨hcalls, hends⟩
              | ok b => exact fun _ _ hends => hends.elim
          | ok a =>
              cases ended' with
              | error e' => exact fun _ _ hends => hends.elim
              | ok b =>
                  intro hk hcalls hends
                  obtain ⟨hcalls', hends'⟩ := hk a b rfl hends
                  exact ⟨congrArg₂ (· ++ ·) hcalls hcalls', hends'⟩

theorem Twins.bind {R : α → β → Prop} {S : γ → δ → Prop} {k : α → Script Call Reply ε γ}
    {k' : β → Script Call Reply ε δ} (h : Twins f f' R script script')
    (hk : ∀ a b, R a b → Twins f f' S (k a) (k' b)) : Twins f f' S (script >>= k) (script' >>= k') :=
  h.bind_of fun a b _ => hk a b

theorem related_refl (ended : Except ε α) : Related Eq ended ended := by
  cases ended with
  | error e => rfl
  | ok a => rfl

/-- A script is its own twin where the two functions reply alike to what it may ask. -/
theorem twins_refl (h : script.Asks (fun _ _ => True) fun c => f c = f' c) :
    Twins f f' Eq script script := by
  induction script with
  | done ended => exact ⟨rfl, related_refl ended⟩
  | call c next ih =>
      obtain ⟨hcalls, hends⟩ := ih (f c) (h.2 (f c) trivial)
      unfold Twins
      rw [Script.told, Script.told, ← h.1]
      exact ⟨congrArg (c :: ·) hcalls, hends⟩

theorem Related.eq {ended ended' : Except ε α} (h : Related Eq ended ended') : ended = ended' := by
  cases ended with
  | error e =>
      cases ended' with
      | error e' => exact congrArg _ h
      | ok b => exact h.elim
  | ok a =>
      cases ended' with
      | error e' => exact h.elim
      | ok b => exact congrArg _ h

theorem Twins.eq {other : Script Call Reply ε α} (h : Twins f f' Eq script other) :
    script.told f = other.told f' :=
  Prod.ext h.1 h.2.eq

end Script
