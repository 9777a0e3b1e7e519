import Mathlib.Data.List.Forall2
import Ciphr.LibProgram
import Ciphr.LibTransition
import Ciphr.LibTwins

/-!
Scripts that are served beside each other by two hosts of one kind. Some calls are silent: one script
makes them and the other does not. Silent calls apart, alike scripts make calls that correspond and end
alike, as long as their hosts tell them what corresponds.
-/

namespace Script

variable {Call : Type} {Reply : Call → Type} {ε ε' α β γ δ : Type}

/-- Which calls are silent, and which calls and replies correspond. -/
structure Likeness (Call : Type) (Reply : Call → Type) where
  silent : Call → Prop
  calls : Call → Call → Prop
  replies : (c c' : Call) → Reply c → Reply c' → Prop
  loud : ∀ {c c'}, calls c c' → ¬ silent c ∧ ¬ silent c'

inductive Alike (likeness : Likeness Call Reply) (R : α → β → Prop) :
    Script Call Reply ε α → Script Call Reply ε β → Prop where
  | done {result : Except ε α} {result' : Except ε β} (h : Related R result result') :
      Alike likeness R (.done result) (.done result')
  | call {c c' : Call} {next : Reply c → Script Call Reply ε α}
      {next' : Reply c' → Script Call Reply ε β} (hcalls : likeness.calls c c')
      (h : ∀ reply reply', likeness.replies c c' reply reply' →
        Alike likeness R (next reply) (next' reply')) :
      Alike likeness R (.call c next) (.call c' next')
  | first {c : Call} {next : Reply c → Script Call Reply ε α} {script' : Script Call Reply ε β}
      (hsilent : likeness.silent c) (h : ∀ reply, Alike likeness R (next reply) script') :
      Alike likeness R (.call c next) script'
  | second {c : Call} {script : Script Call Reply ε α} {next : Reply c → Script Call Reply ε β}
      (hsilent : likeness.silent c) (h : ∀ reply, Alike likeness R script (next reply)) :
      Alike likeness R script (.call c next)

section Rules

variable {likeness : Likeness Call Reply} {R : α → β → Prop} {script : Script Call Reply ε α}
  {script' : Script Call Reply ε β}

theorem alike_pure {a : α} {b : β} (h : R a b) :
    Alike likeness R (pure a : Script Call Reply ε α) (pure b) := .done h

theorem alike_ofExcept {ended : Except ε α} {ended' : Except ε β} (h : Related R ended ended') :
    Alike likeness R (ofExcept ended : Script Call Reply ε α) (ofExcept ended') := .done h

theorem alike_ask {c c' : Call} {g : Reply c → Except ε α} {g' : Reply c' → Except ε β}
    (hcalls : likeness.calls c c')
    (h : ∀ reply reply', likeness.replies c c' reply reply' → Related R (g reply) (g' reply')) :
    Alike likeness R (ask c g) (ask c' g') :=
  .call hcalls fun reply reply' hreplies => .done (h reply reply' hreplies)

/-- Two scripts and what follows each of them. -/
theorem Alike.bind {S : γ → δ → Prop} {k : α → Script Call Reply ε γ} {k' : β → Script Call Reply ε δ}
    (h : Alike likeness R script script') (hk : ∀ a b, R a b → Alike likeness S (k a) (k' b)) :
    Alike likeness S (script >>= k) (script' >>= k') := by
  change Alike likeness S (script.bind k) (script'.bind k')
  induction h with
  | @done result result' h =>
      cases result with
      | error e =>
          cases result' with
          | error e' => exact .done h
          | ok b => exact h.elim
      | ok a =>
          cases result' with
          | error e' => exact h.elim
          | ok b => exact hk a b h
  | call hcalls _ ih => exact .call hcalls ih
  | first hsilent _ ih => exact .first hsilent ih
  | second hsilent _ ih => exact .second hsilent ih

/-- A script is like itself where it is told the same of every call it may make. -/
theorem alike_refl {P : Call → Prop}
    (hP : ∀ c, P c → likeness.calls c c ∧ ∀ reply reply', likeness.replies c c reply reply' → reply = reply')
    (h : script.Asks (fun _ _ => True) P) : Alike likeness Eq script script := by
  induction script with
  | done result => exact .done (related_refl result)
  | call c next ih =>
      obtain ⟨hcalls, hreplies⟩ := hP c h.1
      refine .call hcalls fun reply reply' htold => ?_
      rw [← hreplies reply reply' htold]
      exact ih reply (h.2 reply trivial)

/-- The same where the replies it is told say more: what it ends with is what it may come to then. -/
theorem Asks.alike {T : (c : Call) → Reply c → Prop} {P : Call → Prop} {Q : α → Prop}
    (hP : ∀ c, P c → likeness.calls c c ∧
      ∀ reply reply', likeness.replies c c reply reply' → reply = reply' ∧ T c reply)
    (h : script.Asks T P)
    (hQ : ∀ acts a, Runs script acts (.ok a) → (∀ act ∈ acts, T act.1 act.2) → Q a) :
    Alike likeness (fun a a' => a = a' ∧ Q a) script script := by
  induction script with
  | done result =>
      cases result with
      | error e => exact .done rfl
      | ok a => exact .done ⟨rfl, hQ [] a (.done _) (List.forall_mem_nil _)⟩
  | call c next ih =>
      obtain ⟨hcalls, hreplies⟩ := hP c h.1
      refine .call hcalls fun reply reply' htold => ?_
      obtain ⟨rfl, hhears⟩ := hreplies reply reply' htold
      refine ih reply (h.2 reply hhears) fun acts a hruns hacts => ?_
      exact hQ _ a (.call reply hruns) (List.forall_mem_cons.mpr ⟨hhears, hacts⟩)

theorem Alike.mono {S : α → β → Prop} (h : Alike likeness R script script') (hRS : ∀ a b, R a b → S a b) :
    Alike likeness S script script' := by
  induction h with
  | @done result result' h =>
      cases result with
      | error e =>
          cases result' with
          | error e' => exact .done h
          | ok b => exact h.elim
      | ok a =>
          cases result' with
          | error e' => exact h.elim
          | ok b => exact .done (hRS a b h)
  | call hcalls _ ih => exact .call hcalls ih
  | first hsilent _ ih => exact .first hsilent ih
  | second hsilent _ ih => exact .second hsilent ih

theorem Alike.outcome (h : Alike likeness R script script') :
    Alike likeness (Related R) (script.outcome : Script Call Reply ε' _) script'.outcome := by
  induction h with
  | done h => exact .done h
  | call hcalls _ ih => exact .call hcalls ih
  | first hsilent _ ih => exact .first hsilent ih
  | second hsilent _ ih => exact .second hsilent ih

theorem Related.mapError {ended : Except ε α} {ended' : Except ε β} (h : Related R ended ended')
    (f : ε → ε') : Related R (ended.mapError f) (ended'.mapError f) := by
  cases ended with
  | error e =>
      cases ended' with
      | error e' => exact congrArg f h
      | ok b => exact h.elim
  | ok a =>
      cases ended' with
      | error e' => exact h.elim
      | ok b => exact h

theorem Related.bind {ended : Except ε α} {ended' : Except ε β} {S : γ → δ → Prop} {f : α → Except ε γ}
    {f' : β → Except ε δ} (h : Related R ended ended') (hf : ∀ a b, R a b → Related S (f a) (f' b)) :
    Related S (ended >>= f) (ended' >>= f') := by
  cases ended with
  | error e =>
      cases ended' with
      | error e' => exact h
      | ok b => exact h.elim
  | ok a =>
      cases ended' with
      | error e' => exact h.elim
      | ok b => exact hf a b h

theorem Alike.mapError (h : Alike likeness R script script') (f : ε → ε') :
    Alike likeness R (script.mapError f) (script'.mapError f) := by
  induction h with
  | done h => exact .done (h.mapError f)
  | call hcalls _ ih => exact .call hcalls ih
  | first hsilent _ ih => exact .first hsilent ih
  | second hsilent _ ih => exact .second hsilent ih

/-- The script has ended with the result, or will after calls that are silent. -/
def Ends (silent : Call → Prop) (result : Except ε α) : Script Call Reply ε α → Prop
  | .done ended => ended = result
  | .call c next => silent c ∧ ∀ reply, (next reply).Ends silent result

/-- Where one of two alike scripts has ended, the other one ends with the same. -/
theorem Alike.ends {other : Script Call Reply ε α} {result : Except ε α}
    (h : Alike likeness Eq (.done result) other) : other.Ends likeness.silent result := by
  generalize hscript : (.done result : Script Call Reply ε α) = script at h
  induction h with
  | done h =>
      cases hscript
      exact h.eq.symm
  | call => cases hscript
  | first => cases hscript
  | second hsilent _ ih => exact ⟨hsilent, fun reply => ih reply hscript⟩

theorem Alike.ends' {result : Except ε α} (h : Alike likeness Eq script (.done result)) :
    script.Ends likeness.silent result := by
  generalize hother : (.done result : Script Call Reply ε α) = other at h
  induction h with
  | done h =>
      cases hother
      exact h.eq
  | call => cases hother
  | first hsilent _ ih => exact ⟨hsilent, fun reply => ih reply hother⟩
  | second => cases hother

/-- A silent call makes no difference, whatever the reply. -/
theorem Alike.after_first {c : Call} {next : Reply c → Script Call Reply ε α}
    (h : Alike likeness R (.call c next) script') (hsilent : likeness.silent c) (reply : Reply c) :
    Alike likeness R (next reply) script' := by
  generalize hscript : Script.call c next = script at h
  induction h with
  | done => cases hscript
  | call hcalls =>
      cases hscript
      exact absurd hsilent (likeness.loud hcalls).1
  | first _ h =>
      cases hscript
      exact h reply
  | second hsilent' _ ih => exact .second hsilent' fun reply' => ih reply' hscript

theorem Alike.after_second {c : Call} {next : Reply c → Script Call Reply ε β}
    (h : Alike likeness R script (.call c next)) (hsilent : likeness.silent c) (reply : Reply c) :
    Alike likeness R script (next reply) := by
  generalize hscript : Script.call c next = script' at h
  induction h with
  | done => cases hscript
  | call hcalls =>
      cases hscript
      exact absurd hsilent (likeness.loud hcalls).2
  | first hsilent' _ ih => exact .first hsilent' fun reply' => ih reply' hscript
  | second _ h =>
      cases hscript
      exact h reply

end Rules

/-! ### Two hosts -/

variable {σ Outside Args Work : Type}

/-- What two hosts share with those they serve, and the scripts that each of them serves. -/
structure Beside (σ Call : Type) (Reply : Call → Type) (ε α : Type) where
  shared : σ
  scripts : List (Script Call Reply ε α)
  shared' : σ
  scripts' : List (Script Call Reply ε α)

def nextCall (scripts : List (Script Call Reply ε α)) (i : Nat) : Option Call :=
  match scripts[i]? with
  | some (.call c _) => some c
  | _ => none

/-- The next call of a script is answered. -/
def advance (answer : σ → Outside → (c : Call) → σ × Reply c) (shared : σ)
    (scripts : List (Script Call Reply ε α)) (i : Nat) (outside : Outside) :
    Option (σ × List (Script Call Reply ε α)) :=
  match scripts[i]? with
  | some (.call c next) =>
      let (shared, reply) := answer shared outside c
      some (shared, scripts.set i (next reply))
  | _ => none

theorem advance_eq_some {answer : σ → Outside → (c : Call) → σ × Reply c} {shared : σ}
    {scripts : List (Script Call Reply ε α)} {i : Nat} {outside : Outside}
    {after : σ × List (Script Call Reply ε α)}
    (h : advance answer shared scripts i outside = some after) :
    ∃ c next, scripts[i]? = some (.call c next) ∧ nextCall scripts i = some c ∧
      after = ((answer shared outside c).1, scripts.set i (next (answer shared outside c).2)) := by
  unfold advance at h
  split at h
  · rename_i c next hscript
    cases h
    refine ⟨c, next, hscript, ?_, rfl⟩
    unfold nextCall
    rw [hscript]
  · cases h

inductive Together (Outside Args Work : Type) where
  /-- Both hosts are given a script. -/
  | start (args args' : Args)
  /-- The two scripts of one number make their next calls. -/
  | both (i : Nat) (outside outside' : Outside)
  /-- One of them does alone. -/
  | first (i : Nat) (outside : Outside)
  | second (i : Nat) (outside : Outside)
  /-- One of the hosts does something of its own. -/
  | work (w : Work)
  | work' (w : Work)

namespace Beside

section Step

variable (answer : σ → Outside → (c : Call) → σ × Reply c) (script : Args → Script Call Reply ε α)
  (work : σ → Work → Option σ)

def step (s : Beside σ Call Reply ε α) : Together Outside Args Work → Option (Beside σ Call Reply ε α)
  | .start args args' =>
      some { s with scripts := s.scripts ++ [script args], scripts' := s.scripts' ++ [script args'] }
  | .both i outside outside' =>
      (advance answer s.shared s.scripts i outside).bind fun one =>
        (advance answer s.shared' s.scripts' i outside').map fun other =>
          ⟨one.1, one.2, other.1, other.2⟩
  | .first i outside =>
      (advance answer s.shared s.scripts i outside).map fun one =>
        { s with shared := one.1, scripts := one.2 }
  | .second i outside =>
      (advance answer s.shared' s.scripts' i outside).map fun other =>
        { s with shared' := other.1, scripts' := other.2 }
  | .work w => (work s.shared w).map fun one => { s with shared := one }
  | .work' w => (work s.shared' w).map fun other => { s with shared' := other }

/-- Nothing is done apart but silent calls, what is done together is agreed upon. -/
def Apart (likeness : Likeness Call Reply) (args : Args → Args → Prop)
    (agreed : σ → Outside → Call → σ → Outside → Call → Prop) (s : Beside σ Call Reply ε α) :
    Together Outside Args Work → Prop
  | .start one other => args one other
  | .both i outside outside' => ∀ c c', nextCall s.scripts i = some c → nextCall s.scripts' i = some c' →
      ¬ likeness.silent c ∧ ¬ likeness.silent c' ∧ agreed s.shared outside c s.shared' outside' c'
  | .first i _ => ∀ c, nextCall s.scripts i = some c → likeness.silent c
  | .second i _ => ∀ c, nextCall s.scripts' i = some c → likeness.silent c
  | .work _ | .work' _ => True

end Step

/-- The shared states are related, and the scripts are alike. -/
structure Matched (likeness : Likeness Call Reply) (S : σ → σ → Prop) (s : Beside σ Call Reply ε α) :
    Prop where
  shared : S s.shared s.shared'
  scripts : List.Forall₂ (Alike likeness Eq) s.scripts s.scripts'

variable {answer : σ → Outside → (c : Call) → σ × Reply c} {script : Args → Script Call Reply ε α}
  {work : σ → Work → Option σ} {likeness : Likeness Call Reply} {args : Args → Args → Prop}
  {agreed : σ → Outside → Call → σ → Outside → Call → Prop} {S : σ → σ → Prop}

theorem forall₂_set {R : α → β → Prop} {as : List α} {bs : List β} (h : List.Forall₂ R as bs) {a : α}
    {b : β} (hab : R a b) (i : Nat) : List.Forall₂ R (as.set i a) (bs.set i b) := by
  induction h generalizing i with
  | nil => exact .nil
  | cons hfirst hrest ih =>
      cases i with
      | zero => exact .cons hab hrest
      | succ i => exact .cons hfirst (ih i)

theorem forall₂_getElem? {R : α → β → Prop} {as : List α} {bs : List β} (h : List.Forall₂ R as bs) {i : Nat}
    {a : α} (ha : as[i]? = some a) : ∃ b, bs[i]? = some b ∧ R a b := by
  induction h generalizing i with
  | nil => simp at ha
  | cons hfirst _ ih =>
      cases i with
      | zero =>
          cases ha
          exact ⟨_, rfl, hfirst⟩
      | succ i => exact ih ha

/-- Two hosts that tell alike calls what corresponds, and to which neither silent calls nor their own work
make a difference, have alike scripts in whatever order all of it happens. -/
theorem matched {init : Beside σ Call Reply ε α → Prop}
    (hinit : ∀ s, init s → S s.shared s.shared' ∧ s.scripts = [] ∧ s.scripts' = [])
    (hscript : ∀ one other, args one other → Alike likeness Eq (script one) (script other))
    (hboth : ∀ s s' outside outside' c c', S s s' → likeness.calls c c' →
      agreed s outside c s' outside' c' →
      likeness.replies c c' (answer s outside c).2 (answer s' outside' c').2 ∧
        S (answer s outside c).1 (answer s' outside' c').1)
    (hfirst : ∀ s s' outside c, S s s' → likeness.silent c → S (answer s outside c).1 s')
    (hsecond : ∀ s s' outside c, S s s' → likeness.silent c → S s (answer s' outside c).1)
    (hwork : ∀ s s' w t, S s s' → work s w = some t → S t s')
    (hwork' : ∀ s s' w t, S s s' → work s' w = some t → S s t) {s : Beside σ Call Reply ε α}
    (h : Transition.Reachable init (step answer script work) (Apart likeness args agreed) s) :
    s.Matched likeness S := by
  refine h.invariant ?_ ?_
  · intro s hs
    obtain ⟨hshared, hnil, hnil'⟩ := hinit s hs
    refine ⟨hshared, ?_⟩
    rw [hnil, hnil']
    exact .nil
  · rintro s event s' ⟨hshared, hscripts⟩ hok hstep
    cases event with
    | start one other =>
        cases hstep
        exact ⟨hshared, List.rel_append hscripts (.cons (hscript one other hok) .nil)⟩
    | both i outside outside' =>
        obtain ⟨one, hone, hstep⟩ := Option.bind_eq_some_iff.mp hstep
        obtain ⟨other, hother, rfl⟩ := Option.map_eq_some_iff.mp hstep
        obtain ⟨c, next, hat, hnext, rfl⟩ := advance_eq_some hone
        obtain ⟨c', next', hat', hnext', rfl⟩ := advance_eq_some hother
        obtain ⟨hloud, hloud', hagreed⟩ := hok c c' hnext hnext'
        obtain ⟨found, hfound, halike⟩ := forall₂_getElem? hscripts hat
        rw [hat', Option.some.injEq] at hfound
        subst hfound
        cases halike with
        | call hcalls halike =>
            obtain ⟨hreplies, hafter⟩ := hboth _ _ outside outside' c c' hshared hcalls hagreed
            exact ⟨hafter, forall₂_set hscripts (halike _ _ hreplies) i⟩
        | first hsilent => exact absurd hsilent hloud
        | second hsilent => exact absurd hsilent hloud'
    | first i outside =>
        obtain ⟨one, hone, rfl⟩ := Option.map_eq_some_iff.mp hstep
        obtain ⟨c, next, hat, hnext, rfl⟩ := advance_eq_some hone
        have hsilent := hok c hnext
        refine ⟨hfirst _ _ outside c hshared hsilent, ?_⟩
        obtain ⟨other, hother, halike⟩ := forall₂_getElem? hscripts hat
        obtain ⟨hlt, rfl⟩ := List.getElem?_eq_some_iff.mp hother
        have hset := forall₂_set hscripts (halike.after_first hsilent (answer s.shared outside c).2) i
        rwa [List.set_getElem_self] at hset
    | second i outside =>
        obtain ⟨one, hone, rfl⟩ := Option.map_eq_some_iff.mp hstep
        obtain ⟨c, next, hat, hnext, rfl⟩ := advance_eq_some hone
        have hsilent := hok c hnext
        refine ⟨hsecond _ _ outside c hshared hsilent, ?_⟩
        obtain ⟨other, hother, halike⟩ := forall₂_getElem? hscripts.flip hat
        obtain ⟨hlt, rfl⟩ := List.getElem?_eq_some_iff.mp hother
        have hset := forall₂_set hscripts (halike.after_second hsilent (answer s.shared' outside c).2) i
        rwa [List.set_getElem_self] at hset
    | work w =>
        obtain ⟨one, hone, rfl⟩ := Option.map_eq_some_iff.mp hstep
        exact ⟨hwork _ _ w one hshared hone, hscripts⟩
    | work' w =>
        obtain ⟨other, hother, rfl⟩ := Option.map_eq_some_iff.mp hstep
        exact ⟨hwork' _ _ w other hshared hother, hscripts⟩

end Beside

end Script

/-! ### Two programs on two states -/

namespace Program

open Script

variable {σ ε α β γ δ : Type}

/-- Started in related states, the two end alike and leave related states. -/
def Alike (S : σ → σ → Prop) (R : α → β → Prop) (p : Program σ ε α) (p' : Program σ ε β) : Prop :=
  ∀ s s', S s s' → Related R (exec p s).1 (exec p' s').1 ∧ S (exec p s).2 (exec p' s').2

variable {S : σ → σ → Prop} {R : α → β → Prop} {p : Program σ ε α} {p' : Program σ ε β}

theorem alike_pure {a : α} {b : β} (h : R a b) : Alike S R (pure a : Program σ ε α) (pure b) :=
  fun _ _ hs => ⟨h, hs⟩

theorem alike_throw (e : ε) : Alike S R (throw e : Program σ ε α) (throw e) :=
  fun _ _ hs => ⟨rfl, hs⟩

theorem alike_ofExcept {result : Except ε α} {result' : Except ε β} (h : Related R result result') :
    Alike S R (ofExcept result : Program σ ε α) (ofExcept result') :=
  fun _ _ hs => ⟨h, hs⟩

theorem alike_getThe : Alike S S (getThe σ : Program σ ε σ) (getThe σ) :=
  fun _ _ hs => ⟨hs, hs⟩

theorem alike_modify {f : σ → σ} (h : ∀ s s', S s s' → S (f s) (f s')) :
    Alike S Eq (modify f : Program σ ε PUnit) (modify f) :=
  fun s s' hs => ⟨rfl, h s s' hs⟩

theorem Alike.bind {T : γ → δ → Prop} {k : α → Program σ ε γ} {k' : β → Program σ ε δ}
    (h : Alike S R p p') (hk : ∀ a b, R a b → Alike S T (k a) (k' b)) :
    Alike S T (p >>= k) (p' >>= k') := by
  intro s s' hs
  obtain ⟨hresult, hafter⟩ := h s s' hs
  rw [exec_bind, exec_bind]
  revert hresult hafter
  cases exec p s with
  | mk result mid =>
      cases exec p' s' with
      | mk result' mid' =>
          intro hresult hafter
          cases result with
          | error e =>
              cases result' with
              | error e' => exact ⟨hresult, hafter⟩
              | ok b => exact hresult.elim
          | ok a =>
              cases result' with
              | error e' => exact hresult.elim
              | ok b => exact hk a b hresult mid mid' hafter

theorem Alike.transaction (h : Alike S R p p') : Alike S R (Program.transaction p) (Program.transaction p') := by
  intro s s' hs
  obtain ⟨hresult, hafter⟩ := h s s' hs
  rcases exec_transaction p s with ⟨e, mid, hp, htx⟩ | ⟨a, mid, hp, htx⟩
  · rcases exec_transaction p' s' with ⟨e', mid', hp', htx'⟩ | ⟨b, mid', hp', htx'⟩
    · rw [hp, hp'] at hresult
      rw [htx, htx']
      exact ⟨hresult, hs⟩
    · rw [hp, hp'] at hresult
      exact hresult.elim
  · rcases exec_transaction p' s' with ⟨e', mid', hp', htx'⟩ | ⟨b, mid', hp', htx'⟩
    · rw [hp, hp'] at hresult
      exact hresult.elim
    · rw [hp, hp'] at hresult hafter
      rw [htx, htx']
      exact ⟨hresult, hafter⟩

end Program
