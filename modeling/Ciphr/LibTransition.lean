import Mathlib.Data.List.Basic

/-!
Transition systems whose step may refuse an action, and the invariant rule for the runs whose
steps all meet a condition.
-/

namespace Transition

variable {σ α : Type*}

/-- The states that a run from an initial state reaches when every step meets `ok`. -/
inductive Reachable (init : σ → Prop) (step : σ → α → Option σ) (ok : σ → α → Prop) : σ → Prop
  | start {s : σ} (hs : init s) : Reachable init step ok s
  | next {s s' : σ} {a : α} (hs : Reachable init step ok s) (hok : ok s a)
      (hstep : step s a = some s') : Reachable init step ok s'

/-- What holds initially and is kept by every step that meets the condition holds of every state
that such a run reaches. -/
theorem Reachable.invariant {init : σ → Prop} {step : σ → α → Option σ} {ok : σ → α → Prop}
    {Inv : σ → Prop} (hinit : ∀ s, init s → Inv s)
    (hstep : ∀ s a s', Inv s → ok s a → step s a = some s' → Inv s') {s : σ}
    (hs : Reachable init step ok s) : Inv s := by
  induction hs with
  | start hs => exact hinit _ hs
  | next _ hok hs' ih => exact hstep _ _ _ ih hok hs'

/-- A run whose steps meet a condition is one whose steps meet what the condition implies. -/
theorem Reachable.imp {init : σ → Prop} {step : σ → α → Option σ} {ok ok' : σ → α → Prop}
    (himp : ∀ s a, ok s a → ok' s a) {s : σ} (hs : Reachable init step ok s) :
    Reachable init step ok' s := by
  induction hs with
  | start hs => exact .start hs
  | next _ hok hstep ih => exact .next ih (himp _ _ hok) hstep

/-- The state a list of actions leads to, when none of them is refused. -/
def run (step : σ → α → Option σ) : σ → List α → Option σ
  | s, [] => some s
  | s, a :: as => (step s a).bind fun s' => run step s' as

/-- A run is one of those that meet a condition when each of its actions meets it where the actions
before it have led. -/
theorem reachable_of_steps {init : σ → Prop} {step : σ → α → Option σ} {ok : σ → α → Prop}
    (as : List α) {s t : σ} (hs : Reachable init step ok s)
    (hok : ∀ k a u, as[k]? = some a → run step s (as.take k) = some u → ok u a)
    (hrun : run step s as = some t) : Reachable init step ok t := by
  induction as generalizing s with
  | nil =>
      cases hrun
      exact hs
  | cons a as ih =>
      obtain ⟨s', hstep, hrun⟩ := Option.bind_eq_some_iff.mp hrun
      refine ih (.next hs (hok 0 a s rfl rfl) hstep) ?_ hrun
      intro k b u hk hu
      refine hok (k + 1) b u hk ?_
      rw [List.take_succ_cons, run, hstep]
      exact hu

theorem reachable_of_any_run {init : σ → Prop} {step : σ → α → Option σ} (as : List α) {s t : σ}
    (hs : Reachable init step (fun _ _ => True) s) (hrun : run step s as = some t) :
    Reachable init step (fun _ _ => True) t :=
  reachable_of_steps as hs (fun _ _ _ _ _ => trivial) hrun

/-- Whether every step of a list of actions meets a decidable condition. -/
def allSteps (step : σ → α → Option σ) (ok : σ → α → Prop) [∀ s a, Decidable (ok s a)] :
    σ → List α → Bool
  | _, [] => true
  | s, a :: as => decide (ok s a) && ((step s a).all fun s' => allSteps step ok s' as)

theorem reachable_of_run {init : σ → Prop} {step : σ → α → Option σ} {ok : σ → α → Prop}
    [∀ s a, Decidable (ok s a)] (as : List α) {s t : σ} (hs : Reachable init step ok s)
    (hok : allSteps step ok s as = true) (hrun : run step s as = some t) :
    Reachable init step ok t := by
  induction as generalizing s with
  | nil =>
      cases hrun
      exact hs
  | cons a as ih =>
      cases hstep : step s a with
      | none => simp [run, hstep] at hrun
      | some s' =>
          simp only [allSteps, hstep, Option.all_some, Bool.and_eq_true, decide_eq_true_eq] at hok
          simp only [run, hstep, Option.bind_some] at hrun
          exact ih (.next hs hok.1 hstep) hok.2 hrun

end Transition
