import Mathlib.Order.Basic
import Ciphr.LibTransition

/-!
Scripts that make atomic calls on a state they share, in any interleaving. What is known of the shared
state is a world, and worlds only grow: a script that keeps to a contract whatever the others do in
between may run beside any number of scripts that keep to it.
-/

/-- A program that makes calls one at a time and ends with a result. -/
inductive Script (Call : Type) (Reply : Call → Type) (ε α : Type) where
  | done (result : Except ε α)
  | call (c : Call) (next : Reply c → Script Call Reply ε α)

namespace Script

variable {Call : Type} {Reply : Call → Type} {ε α β : Type}

def bind : Script Call Reply ε α → (α → Script Call Reply ε β) → Script Call Reply ε β
  | .done (.ok a), f => f a
  | .done (.error e), _ => .done (.error e)
  | .call c next, f => .call c fun reply => (next reply).bind f

instance : Monad (Script Call Reply ε) where
  pure a := .done (.ok a)
  bind := bind

/-- A result that takes no call. -/
def ofExcept (result : Except ε α) : Script Call Reply ε α := .done result

/-- A call, whose reply is turned into a result. -/
def ask (c : Call) (f : Reply c → Except ε α) : Script Call Reply ε α :=
  .call c fun reply => .done (f reply)

/-- Two results in a row that take no call are one. -/
theorem ofExcept_bind {γ : Type} {result : Except ε α} {f : α → Except ε β}
    {rest : β → Script Call Reply ε γ} :
    (ofExcept (result >>= f) >>= rest) = ofExcept result >>= fun a => ofExcept (f a) >>= rest := by
  cases result with
  | error error => rfl
  | ok a => rfl

/-! ### Contracts -/

variable {W : Type} [Preorder W]

/-- What a script owes at each call, and what a reply tells of the world in which it is given. -/
structure Contract (W Call : Type) (Reply : Call → Type) where
  requires : Call → W → Prop
  answers : (c : Call) → Reply c → W → Prop

/-- The script keeps to the contract, and a result it ends well with meets `post`. The world may have
grown before each call and again before the reply. -/
def Keeps (contract : Contract W Call Reply) :
    Script Call Reply ε α → (α → W → Prop) → W → Prop
  | .done (.ok a), post, w => post a w
  | .done (.error _), _, _ => True
  | .call c next, post, w =>
      ∀ w', w ≤ w' → contract.requires c w' ∧
        ∀ reply w'', w' ≤ w'' → contract.answers c reply w'' → (next reply).Keeps contract post w''

variable {contract : Contract W Call Reply} {post : α → W → Prop} {w w' : W}

theorem Keeps.mono {script : Script Call Reply ε α} (h : script.Keeps contract post w)
    (hpost : ∀ a w w', w ≤ w' → post a w → post a w') (hw : w ≤ w') :
    script.Keeps contract post w' := by
  cases script with
  | done result =>
      cases result with
      | ok a => exact hpost a w w' hw h
      | error e => exact trivial
  | call c next => exact fun later hlater => h later (hw.trans hlater)

theorem keeps_pure {a : α} (h : post a w) :
    (pure a : Script Call Reply ε α).Keeps contract post w := h

theorem keeps_ask {c : Call} {f : Reply c → Except ε α}
    (hrequires : ∀ w', w ≤ w' → contract.requires c w')
    (hpost : ∀ reply w' a, w ≤ w' → contract.answers c reply w' → f reply = .ok a → post a w') :
    (ask c f).Keeps contract post w := by
  intro w' hw'
  refine ⟨hrequires w' hw', fun reply w'' hw'' hanswers => ?_⟩
  have hresult := hpost reply w''
  change (Script.done (f reply)).Keeps contract post w''
  cases hf : f reply with
  | error e => exact trivial
  | ok a => exact hresult a (hw'.trans hw'') hanswers hf

/-- A script followed by another that takes over its result, in whichever world it ends. -/
theorem Keeps.bind {script : Script Call Reply ε α} {f : α → Script Call Reply ε β}
    {post' : β → W → Prop} (h : script.Keeps contract post w)
    (hf : ∀ a w', w ≤ w' → post a w' → (f a).Keeps contract post' w') :
    (script >>= f).Keeps contract post' w := by
  change (Script.bind script f).Keeps contract post' w
  induction script generalizing w with
  | done result =>
      cases result with
      | ok a => exact hf a w le_rfl h
      | error e => exact trivial
  | call c next ih =>
      intro w' hw'
      refine ⟨(h w' hw').1, fun reply w'' hw'' hanswers => ?_⟩
      refine ih reply ((h w' hw').2 reply w'' hw'' hanswers) ?_
      intro a later hlater ha
      exact hf a later (hw'.trans (hw''.trans hlater)) ha

/-- A call that owes nothing, and whose reply is taken as it comes. -/
theorem keeps_ask_bind {c : Call} {g : Reply c → Except ε α} {f : α → Script Call Reply ε β}
    {post' : β → W → Prop} (hfree : ∀ w', contract.requires c w')
    (hf : ∀ a w', w ≤ w' → (f a).Keeps contract post' w') :
    (ask c g >>= f).Keeps contract post' w := by
  have hask : (ask c g).Keeps contract (fun _ _ => True) w :=
    keeps_ask (fun w' _ => hfree w') fun _ _ _ _ _ _ => trivial
  exact hask.bind fun a w' hw _ => hf a w' hw

theorem keeps_ofExcept_bind {result : Except ε α} {f : α → Script Call Reply ε β}
    {post' : β → W → Prop} (hf : ∀ a, result = .ok a → (f a).Keeps contract post' w) :
    (ofExcept result >>= f).Keeps contract post' w := by
  cases result with
  | error error => exact trivial
  | ok a => exact hf a rfl

/-! ### Any number of scripts beside one another -/

/-- What answers the calls, what else changes the shared state, and the scripts that may be started.
An `outside` is what decides an answer beside the shared state. -/
structure Machine (σ Call : Type) (Reply : Call → Type) (ε Event Outside Args : Type) where
  serve : σ → Event → Option σ
  answer : σ → Outside → (c : Call) → σ × Reply c
  script : Args → Script Call Reply ε Unit

/-- The shared state, and the scripts that are under way. -/
structure Running (σ Call : Type) (Reply : Call → Type) (ε : Type) where
  shared : σ
  scripts : List (Script Call Reply ε Unit)

inductive Happens (Event Outside Args : Type) where
  | serve (event : Event)
  | start (args : Args)
  /-- The script makes its next call. -/
  | advance (i : Nat) (outside : Outside)
  /-- The script is stopped where it stands. -/
  | stop (i : Nat)

variable {σ Event Outside Args : Type}

def Machine.step (machine : Machine σ Call Reply ε Event Outside Args)
    (s : Running σ Call Reply ε) : Happens Event Outside Args → Option (Running σ Call Reply ε)
  | .serve event => (machine.serve s.shared event).map fun shared => { s with shared := shared }
  | .start args => some { s with scripts := s.scripts ++ [machine.script args] }
  | .advance i outside =>
      match s.scripts[i]? with
      | some (.call c next) =>
          let (shared, reply) := machine.answer s.shared outside c
          some ⟨shared, s.scripts.set i (next reply)⟩
      | _ => none
  | .stop i => some { s with scripts := s.scripts.eraseIdx i }

/-- The call that a script is about to make. -/
def Running.nextCall (s : Running σ Call Reply ε) (i : Nat) : Option Call :=
  match s.scripts[i]? with
  | some (.call c _) => some c
  | _ => none

/-- A call is answered in the shared state, and its script goes on. -/
theorem Machine.step_advance {machine : Machine σ Call Reply ε Event Outside Args}
    {s s' : Running σ Call Reply ε} {i : Nat} {outside : Outside}
    (h : machine.step s (.advance i outside) = some s') :
    ∃ c next, s.scripts[i]? = some (.call c next) ∧ s.nextCall i = some c ∧
      s' = ⟨(machine.answer s.shared outside c).1,
        s.scripts.set i (next (machine.answer s.shared outside c).2)⟩ := by
  unfold Machine.step at h
  dsimp only at h
  split at h
  · rename_i c next hscript
    cases h
    refine ⟨c, next, hscript, ?_, rfl⟩
    unfold Running.nextCall
    rw [hscript]
  · cases h

/-- A world describes the shared state, and every script that is under way keeps to the contract. -/
def Running.Described (contract : Contract W Call Reply) (describes : σ → W → Prop)
    (s : Running σ Call Reply ε) : Prop :=
  ∃ w, describes s.shared w ∧ ∀ script ∈ s.scripts, script.Keeps contract (fun _ _ => True) w

/-- Where every step of the shared state is described by a world that has grown, and every script that
may be started keeps to the contract, each state that a run reaches is described. -/
theorem Machine.described {machine : Machine σ Call Reply ε Event Outside Args}
    {init : Running σ Call Reply ε → Prop}
    {ok : Running σ Call Reply ε → Happens Event Outside Args → Prop} {describes : σ → W → Prop}
    (hinit : ∀ s, init s → s.scripts = [] ∧ ∃ w, describes s.shared w)
    (hserve : ∀ shared w event shared', describes shared w →
      machine.serve shared event = some shared' → ∃ w', w ≤ w' ∧ describes shared' w')
    (hscript : ∀ args w, (machine.script args).Keeps contract (fun _ _ => True) w)
    (hanswer : ∀ (s : Running σ Call Reply ε) w i outside c, describes s.shared w →
      s.nextCall i = some c → ok s (.advance i outside) → contract.requires c w →
      ∃ w', w ≤ w' ∧ describes (machine.answer s.shared outside c).1 w' ∧
        contract.answers c (machine.answer s.shared outside c).2 w')
    {s : Running σ Call Reply ε} (hs : Transition.Reachable init machine.step ok s) :
    s.Described contract describes := by
  have hmono : ∀ (a : Unit) (w w' : W), w ≤ w' → True → True := fun _ _ _ _ h => h
  refine hs.invariant ?_ ?_
  · intro s hs
    obtain ⟨hnil, w, hw⟩ := hinit s hs
    refine ⟨w, hw, ?_⟩
    rw [hnil]
    intro script hmem
    cases hmem
  · rintro s event s' ⟨w, hw, hkeeps⟩ hok hstep
    cases event with
    | serve event =>
        obtain ⟨shared, hshared, rfl⟩ := Option.map_eq_some_iff.mp hstep
        obtain ⟨w', hle, hw'⟩ := hserve s.shared w event shared hw hshared
        exact ⟨w', hw', fun script hmem => (hkeeps script hmem).mono hmono hle⟩
    | start args =>
        cases hstep
        refine ⟨w, hw, fun script hmem => ?_⟩
        rcases List.mem_append.mp hmem with hold | hnew
        · exact hkeeps script hold
        · rw [List.mem_singleton.mp hnew]
          exact hscript args w
    | advance i outside =>
        obtain ⟨c, next, hat, hnext, rfl⟩ := Machine.step_advance hstep
        obtain ⟨hrequires, hgoes⟩ := hkeeps _ (List.mem_of_getElem? hat) w le_rfl
        obtain ⟨w', hle, hw', hanswers⟩ := hanswer s w i outside c hw hnext hok hrequires
        refine ⟨w', hw', fun script hmem => ?_⟩
        rcases List.mem_or_eq_of_mem_set hmem with hold | rfl
        · exact (hkeeps script hold).mono hmono hle
        · exact hgoes _ w' hle hanswers
    | stop i =>
        cases hstep
        exact ⟨w, hw, fun script hmem => hkeeps script (List.mem_of_mem_eraseIdx hmem)⟩

/-! ### One script among the others -/

/-- Where a script stands after a step, until it is stopped. -/
def follow (i : Nat) : Happens Event Outside Args → Option Nat
  | .stop j => if j < i then some (i - 1) else if j = i then none else some i
  | _ => some i

/-- The machine, and where one of its scripts stands. -/
def Machine.watch (machine : Machine σ Call Reply ε Event Outside Args)
    (s : Running σ Call Reply ε × Nat) (event : Happens Event Outside Args) :
    Option (Running σ Call Reply ε × Nat) :=
  (machine.step s.1 event).bind fun next => (follow s.2 event).map fun i => (next, i)

theorem getElem?_follow {machine : Machine σ Call Reply ε Event Outside Args}
    {s s' : Running σ Call Reply ε} {event : Happens Event Outside Args} {i i' : Nat}
    {script : Script Call Reply ε Unit} (hstep : machine.step s event = some s')
    (hfollow : follow i event = some i') (hscript : s.scripts[i]? = some script)
    (hother : ∀ outside, event ≠ .advance i outside) : s'.scripts[i']? = some script := by
  cases event with
  | serve event =>
      cases hfollow
      obtain ⟨shared, -, rfl⟩ := Option.map_eq_some_iff.mp hstep
      exact hscript
  | start args =>
      cases hfollow
      cases hstep
      have hlt := (List.getElem?_eq_some_iff.mp hscript).1
      dsimp only
      rw [List.getElem?_append_left hlt]
      exact hscript
  | advance j outside =>
      cases hfollow
      obtain ⟨c, next, -, -, rfl⟩ := Machine.step_advance hstep
      have hne : j ≠ i := by
        intro heq
        exact hother outside (by rw [heq])
      dsimp only
      rw [List.getElem?_set_ne hne]
      exact hscript
  | stop j =>
      cases hstep
      unfold follow at hfollow
      dsimp only at hfollow ⊢
      rw [List.getElem?_eraseIdx]
      by_cases hbefore : j < i
      · rw [if_pos hbefore] at hfollow
        cases hfollow
        have hsucc : i - 1 + 1 = i := by omega
        rw [if_neg (by omega), hsucc]
        exact hscript
      · rw [if_neg hbefore] at hfollow
        split at hfollow
        · cases hfollow
        · cases hfollow
          rw [if_pos (by omega)]
          exact hscript

/-- A world describes the shared state, and the script that is watched keeps to the contract. -/
def Running.Watched (contract : Contract W Call Reply) (describes : σ → W → Prop)
    (s : Running σ Call Reply ε × Nat) : Prop :=
  ∃ w script, describes s.1.shared w ∧ s.1.scripts[s.2]? = some script ∧
    script.Keeps contract (fun _ _ => True) w

/-- A script that keeps to a contract keeps to it beside any others: only the replies to its own calls
have to be what the contract says. -/
theorem Machine.watched {machine : Machine σ Call Reply ε Event Outside Args}
    {init : Running σ Call Reply ε × Nat → Prop}
    {ok : Running σ Call Reply ε × Nat → Happens Event Outside Args → Prop} {describes : σ → W → Prop}
    (hinit : ∀ s, init s → Running.Watched contract describes s)
    (hserve : ∀ shared w event shared', describes shared w →
      machine.serve shared event = some shared' → ∃ w', w ≤ w' ∧ describes shared' w')
    (hanswer : ∀ shared w outside c, describes shared w →
      ∃ w', w ≤ w' ∧ describes (machine.answer shared outside c).1 w')
    (hreply : ∀ (s : Running σ Call Reply ε × Nat) w outside c, describes s.1.shared w →
      s.1.nextCall s.2 = some c → ok s (.advance s.2 outside) →
      ∃ w', w ≤ w' ∧ describes (machine.answer s.1.shared outside c).1 w' ∧
        contract.answers c (machine.answer s.1.shared outside c).2 w')
    {s : Running σ Call Reply ε × Nat} (hs : Transition.Reachable init machine.watch ok s) :
    Running.Watched contract describes s := by
  have hmono : ∀ (a : Unit) (w w' : W), w ≤ w' → True → True := fun _ _ _ _ h => h
  refine hs.invariant hinit ?_
  rintro ⟨s, i⟩ event ⟨s', i'⟩ ⟨w, script, hw, hscript, hkeeps⟩ hok hwatch
  obtain ⟨next, hstep, hnext⟩ := Option.bind_eq_some_iff.mp hwatch
  obtain ⟨after, hfollow, heq⟩ := Option.map_eq_some_iff.mp hnext
  cases heq
  dsimp only at hw hscript hstep hfollow
  by_cases hown : ∃ outside, event = .advance i outside
  · -- the script's own call
    obtain ⟨outside, rfl⟩ := hown
    cases hfollow
    obtain ⟨c, goes, hat, hcall, rfl⟩ := Machine.step_advance hstep
    rw [hat, Option.some.injEq] at hscript
    rw [← hscript] at hkeeps
    obtain ⟨-, hgoes⟩ := hkeeps w le_rfl
    obtain ⟨w', hle, hw', hanswers⟩ := hreply (s, i) w outside c hw hcall hok
    refine ⟨w', _, hw', ?_, hgoes _ w' hle hanswers⟩
    have hlt := (List.getElem?_eq_some_iff.mp hat).1
    dsimp only
    rw [List.getElem?_set_self hlt]
  · rw [not_exists] at hown
    have hstays := getElem?_follow hstep hfollow hscript hown
    have hgrown : ∃ w', w ≤ w' ∧ describes s'.shared w' := by
      cases event with
      | serve event =>
          obtain ⟨shared, hshared, rfl⟩ := Option.map_eq_some_iff.mp hstep
          exact hserve s.shared w event shared hw hshared
      | start args =>
          cases hstep
          exact ⟨w, le_rfl, hw⟩
      | advance j outside =>
          obtain ⟨c, goes, -, -, rfl⟩ := Machine.step_advance hstep
          exact hanswer s.shared w outside c hw
      | stop j =>
          cases hstep
          exact ⟨w, le_rfl, hw⟩
    obtain ⟨w', hle, hw'⟩ := hgrown
    exact ⟨w', script, hw', hstays, hkeeps.mono hmono hle⟩

/-- What no step of the shared state spoils holds of it in every state that a run reaches. -/
theorem Machine.shared_invariant {machine : Machine σ Call Reply ε Event Outside Args}
    {init : Running σ Call Reply ε → Prop}
    {ok : Running σ Call Reply ε → Happens Event Outside Args → Prop} (holds : σ → Prop)
    (hinit : ∀ s, init s → holds s.shared)
    (hserve : ∀ shared event shared', holds shared → machine.serve shared event = some shared' →
      holds shared')
    (hanswer : ∀ shared outside c, holds shared → holds (machine.answer shared outside c).1)
    {s : Running σ Call Reply ε} (hs : Transition.Reachable init machine.step ok s) :
    holds s.shared := by
  refine Transition.Reachable.invariant hinit ?_ hs
  intro s event s' h _ hstep
  cases event with
  | serve event =>
      obtain ⟨shared, hshared, rfl⟩ := Option.map_eq_some_iff.mp hstep
      exact hserve s.shared event shared h hshared
  | start args =>
      cases hstep
      exact h
  | advance i outside =>
      obtain ⟨c, next, -, -, rfl⟩ := Machine.step_advance hstep
      exact hanswer s.shared outside c h
  | stop i =>
      cases hstep
      exact h

end Script
