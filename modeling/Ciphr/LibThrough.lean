import Mathlib.Data.List.Forall2
import Ciphr.LibAlike

/-!
Programs of parts that are scripts: how such a program may fail, a part that asks for less than the
program does, each of whose calls is made as a call of the program, and the runs of two alike programs.
-/

namespace Script

variable {Call Call' : Type} {Reply : Call → Type} {Reply' : Call' → Type} {ε ε' α β γ : Type}

/-- Parts in a row, however they are put together. -/
theorem bind_assoc (script : Script Call Reply ε α) (f : α → Script Call Reply ε β)
    (g : β → Script Call Reply ε γ) : script >>= f >>= g = script >>= fun a => f a >>= g := by
  change (script.bind f).bind g = script.bind fun a => (f a).bind g
  induction script with
  | done ended =>
      cases ended with
      | error e => rfl
      | ok a => rfl
  | call c next ih =>
      change Script.call c (fun reply => ((next reply).bind f).bind g) =
        .call c fun reply => (next reply).bind fun a => (f a).bind g
      congr 1
      funext reply
      exact ih reply

/-! ### Runs that end well -/

section Ok

variable {part : Script Call Reply ε α} {f : α → Script Call Reply ε β} {acts : List (Act Call Reply)}
  {b : β}

theorem runs_bind_ok (h : Runs (part >>= f) acts (.ok b)) :
    ∃ a front rest, acts = front ++ rest ∧ Runs part front (.ok a) ∧ Runs (f a) rest (.ok b) := by
  rcases runs_bind_iff.mp h with ⟨e, -, hfailed⟩ | h
  · cases hfailed
  · exact h

theorem runs_ofExcept_bind_ok {ended : Except ε α} (h : Runs (ofExcept ended >>= f) acts (.ok b)) :
    ∃ a, ended = .ok a ∧ Runs (f a) acts (.ok b) := by
  obtain ⟨a, front, rest, rfl, hended, hrest⟩ := runs_bind_ok h
  obtain ⟨rfl, hsame⟩ := runs_ofExcept_iff.mp hended
  exact ⟨a, hsame.symm, hrest⟩

/-- A call that may end the script. -/
theorem runs_ask_bind_iff {c : Call} {g : Reply c → Except ε α} {result : Except ε β} :
    Runs (ask c g >>= f) acts result ↔
      (∃ reply e, g reply = .error e ∧ acts = [⟨c, reply⟩] ∧ result = .error e) ∨
        ∃ reply a rest, g reply = .ok a ∧ acts = ⟨c, reply⟩ :: rest ∧ Runs (f a) rest result := by
  rw [runs_bind_iff]
  constructor
  · rintro (⟨e, hasked, rfl⟩ | ⟨a, front, rest, rfl, hasked, hrest⟩)
    · obtain ⟨reply, rfl, hreply⟩ := runs_ask_iff.mp hasked
      exact .inl ⟨reply, e, hreply.symm, rfl, rfl⟩
    · obtain ⟨reply, rfl, hreply⟩ := runs_ask_iff.mp hasked
      exact .inr ⟨reply, a, rest, hreply.symm, rfl, hrest⟩
  · rintro (⟨reply, e, hreply, rfl, rfl⟩ | ⟨reply, a, rest, hreply, rfl, hrest⟩)
    · exact .inl ⟨e, runs_ask_iff.mpr ⟨reply, rfl, hreply.symm⟩, rfl⟩
    · exact .inr ⟨a, [_], rest, rfl, runs_ask_iff.mpr ⟨reply, rfl, hreply.symm⟩, hrest⟩

theorem runs_ask_bind_ok {c : Call} {g : Reply c → Except ε α}
    (h : Runs (ask c g >>= f) acts (.ok b)) :
    ∃ reply a rest, acts = ⟨c, reply⟩ :: rest ∧ g reply = .ok a ∧ Runs (f a) rest (.ok b) := by
  obtain ⟨a, front, rest, rfl, hasked, hrest⟩ := runs_bind_ok h
  obtain ⟨reply, rfl, hreply⟩ := runs_ask_iff.mp hasked
  exact ⟨reply, a, rest, rfl, hreply.symm, hrest⟩

end Ok

/-! ### Failures -/

/-- Every error that the script may end with, whatever it is told. -/
def Fails (P : ε → Prop) (script : Script Call Reply ε α) : Prop :=
  ∀ acts e, Runs script acts (.error e) → P e

section Failures

variable {P : ε → Prop} {part : Script Call Reply ε α}

theorem fails_pure {a : α} : (pure a : Script Call Reply ε α).Fails P := by
  intro acts e h
  cases (runs_pure_iff.mp h).2

theorem fails_ofExcept {ended : Except ε α} (h : ∀ e, ended = .error e → P e) :
    (ofExcept ended : Script Call Reply ε α).Fails P := by
  intro acts e hruns
  exact h e (runs_ofExcept_iff.mp hruns).2.symm

theorem fails_ask {c : Call} {f : Reply c → Except ε α} (h : ∀ reply e, f reply = .error e → P e) :
    (ask c f).Fails P := by
  intro acts e hruns
  obtain ⟨reply, -, hreply⟩ := runs_ask_iff.mp hruns
  exact h reply e hreply.symm

theorem Fails.bind {f : α → Script Call Reply ε β} (h : part.Fails P) (hf : ∀ a, (f a).Fails P) :
    (part >>= f).Fails P := by
  intro acts e hruns
  rcases runs_bind_iff.mp hruns with ⟨e', hfirst, hsame⟩ | ⟨a, front, rest, -, -, hrest⟩
  · cases hsame
    exact h acts e hfirst
  · exact hf a rest e hrest

theorem fails_mapError {P : ε' → Prop} {f : ε → ε'} (h : ∀ e, P (f e)) : (part.mapError f).Fails P := by
  intro acts e hruns
  obtain ⟨e', -, hsame⟩ := runs_mapError_error hruns
  rw [hsame]
  exact h e'

end Failures

/-! ### Parts that ask for less -/

def through (call : Call → Call') (read : (c : Call) → Reply' (call c) → Reply c) :
    Script Call Reply ε α → Script Call' Reply' ε α
  | .done result => .done result
  | .call c next => .call (call c) fun reply => (next (read c reply)).through call read

/-- A call as it was made, and as the script has it. -/
def Carries (call : Call → Call') (read : (c : Call) → Reply' (call c) → Reply c)
    (outer : Act Call' Reply') (inner : Act Call Reply) : Prop :=
  ∃ reply, outer = ⟨call inner.1, reply⟩ ∧ inner.2 = read inner.1 reply

variable {call : Call → Call'} {read : (c : Call) → Reply' (call c) → Reply c}
  {script : Script Call Reply ε α}

/-- The runs of a script inside a program are its own runs, as they are carried. -/
theorem runs_through_iff {acts : List (Act Call' Reply')} {result : Except ε α} :
    Runs (script.through call read) acts result ↔
      ∃ inner, List.Forall₂ (Carries call read) acts inner ∧ Runs script inner result := by
  induction script generalizing acts with
  | done ended =>
      change Runs (.done ended) acts result ↔ _
      rw [runs_done_iff]
      constructor
      · intro h
        obtain ⟨hacts, hresult⟩ := h
        rw [hacts, hresult]
        exact ⟨[], .nil, .done ended⟩
      · intro h
        obtain ⟨inner, hcarried, hruns⟩ := h
        obtain ⟨hinner, hresult⟩ := runs_done_iff.mp hruns
        rw [hinner] at hcarried
        exact ⟨List.forall₂_nil_right_iff.mp hcarried, hresult⟩
  | call c next ih =>
      change Runs (.call (call c) fun reply => (next (read c reply)).through call read) acts result ↔ _
      rw [runs_call_iff]
      constructor
      · intro h
        obtain ⟨reply, rest, hacts, hrest⟩ := h
        obtain ⟨inner, hcarried, hruns⟩ := (ih (read c reply)).mp hrest
        rw [hacts]
        exact ⟨⟨c, read c reply⟩ :: inner, .cons ⟨reply, rfl, rfl⟩ hcarried, .call _ hruns⟩
      · intro h
        obtain ⟨inner, hcarried, hruns⟩ := h
        obtain ⟨told, more, hinner, hmore⟩ := runs_call_iff.mp hruns
        rw [hinner] at hcarried
        obtain ⟨outer, rest, ⟨reply, houter, htold⟩, hrest, hacts⟩ :=
          List.forall₂_cons_right_iff.mp hcarried
        refine ⟨reply, rest, ?_, (ih _).mpr ⟨more, hrest, ?_⟩⟩
        · rw [hacts, houter]
        · rwa [← htold]

/-- What a script may ask inside a program is what it may ask, as it is carried. -/
theorem Asks.through {T : (c : Call) → Reply c → Prop} {P : Call → Prop}
    {T' : (c : Call') → Reply' c → Prop} {P' : Call' → Prop} (h : script.Asks T P)
    (hcall : ∀ c, P c → P' (call c))
    (hread : ∀ c reply, T' (call c) reply → T c (read c reply)) :
    (script.through call read).Asks T' P' := by
  induction script with
  | done ended => exact trivial
  | call c next ih =>
      exact ⟨hcall c h.1, fun reply htold => ih _ (h.2 _ (hread c reply htold))⟩

/-! ### Alike programs -/

/-- What two programs are told corresponds, as long as what they ask does. -/
def ToldAlike (likeness : Likeness Call Reply) : List (Act Call Reply) → List (Act Call Reply) → Prop
  | ⟨c, reply⟩ :: acts, ⟨c', reply'⟩ :: acts' =>
      likeness.calls c c' → likeness.replies c c' reply reply' ∧ ToldAlike likeness acts acts'
  | _, _ => True

/-- What two programs have asked, and been told, corresponds. -/
def Corresponds (likeness : Likeness Call Reply) (act act' : Act Call Reply) : Prop :=
  likeness.calls act.1 act'.1 ∧ likeness.replies act.1 act'.1 act.2 act'.2

section Alike

variable {likeness : Likeness Call Reply} {likeness' : Likeness Call' Reply'} {R : α → β → Prop}
  {one : Script Call Reply ε α} {other : Script Call Reply ε β}

/-- Alike programs that are told what corresponds ask what corresponds, and end alike. -/
theorem Alike.runs {acts acts' : List (Act Call Reply)} {result : Except ε α} {result' : Except ε β}
    (hsilent : ∀ c, ¬ likeness.silent c) (h : Alike likeness R one other) (hone : Runs one acts result)
    (hother : Runs other acts' result') (htold : ToldAlike likeness acts acts') :
    List.Forall₂ (Corresponds likeness) acts acts' ∧ Related R result result' := by
  induction h generalizing acts acts' with
  | done hended =>
      obtain ⟨rfl, rfl⟩ := runs_done_iff.mp hone
      obtain ⟨rfl, rfl⟩ := runs_done_iff.mp hother
      exact ⟨.nil, hended⟩
  | call hcalls _ ih =>
      obtain ⟨reply, rest, rfl, hrest⟩ := runs_call_iff.mp hone
      obtain ⟨reply', rest', rfl, hrest'⟩ := runs_call_iff.mp hother
      obtain ⟨hreplies, hmore⟩ := htold hcalls
      obtain ⟨hacts, hended⟩ := ih reply reply' hreplies hrest hrest' hmore
      exact ⟨.cons ⟨hcalls, hreplies⟩ hacts, hended⟩
  | first hquiet => exact (hsilent _ hquiet).elim
  | second hquiet => exact (hsilent _ hquiet).elim

/-- Alike parts are alike inside programs that make their calls in corresponding ways. -/
theorem Alike.through {call call' : Call → Call'} {read : (c : Call) → Reply' (call c) → Reply c}
    {read' : (c : Call) → Reply' (call' c) → Reply c} (h : Alike likeness R one other)
    (hsilent : ∀ c, ¬ likeness.silent c)
    (hcalls : ∀ c c', likeness.calls c c' → likeness'.calls (call c) (call' c'))
    (hreplies : ∀ c c' reply reply', likeness'.replies (call c) (call' c') reply reply' →
      likeness.replies c c' (read c reply) (read' c' reply')) :
    Alike likeness' R (one.through call read) (other.through call' read') := by
  induction h with
  | done hended => exact .done hended
  | call hcorrespond _ ih =>
      exact .call (hcalls _ _ hcorrespond) fun reply reply' htold => ih _ _ (hreplies _ _ _ _ htold)
  | first hquiet => exact (hsilent _ hquiet).elim
  | second hquiet => exact (hsilent _ hquiet).elim

end Alike

/-- Results that are related item by item. -/
theorem related_mapM {A B : Type} {T : A → B → Prop} {R : α → β → Prop} {f : A → Except ε α}
    {g : B → Except ε β} {as : List A} {bs : List B} (h : List.Forall₂ T as bs)
    (hf : ∀ a b, T a b → Related R (f a) (g b)) : Related (List.Forall₂ R) (as.mapM f) (bs.mapM g) := by
  induction h with
  | nil => exact .nil
  | @cons a b as bs hab _ ih =>
      rw [List.mapM_cons, List.mapM_cons]
      exact (hf a b hab).bind fun x y hxy => ih.bind fun xs ys hrest => .cons hxy hrest

end Script
