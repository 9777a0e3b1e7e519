import Mathlib.Logic.Basic

/-!
Programs that change a state and may stop with an error. What a program has done before it stops
stays done, unless it runs in a transaction.
-/

abbrev Program (σ ε : Type) := ExceptT ε (StateM σ)

namespace Program

variable {σ ε α β : Type}

/-- The result a program ends with when it is started in a state, and the state it leaves. -/
def exec (p : Program σ ε α) (s : σ) : Except ε α × σ := StateT.run (ExceptT.run p) s

/-- A result that is known without looking at the state. -/
def ofExcept (result : Except ε α) : Program σ ε α := fun s => (result, s)

/-- A program whose changes are undone when it stops with an error. -/
def transaction (p : Program σ ε α) : Program σ ε α := fun s =>
  match exec p s with
  | (.ok a, s') => (.ok a, s')
  | (.error e, _) => (.error e, s)

/-- A program whose error is turned into another. -/
def mapError {ε' : Type} (f : ε → ε') (p : Program σ ε α) : Program σ ε' α := fun s =>
  match exec p s with
  | (.ok a, s') => (.ok a, s')
  | (.error e, s') => (.error (f e), s')

@[simp] theorem exec_pure (a : α) (s : σ) : exec (pure a : Program σ ε α) s = (.ok a, s) := rfl

@[simp] theorem exec_throw (e : ε) (s : σ) : exec (throw e : Program σ ε α) s = (.error e, s) := rfl

@[simp] theorem exec_get (s : σ) : exec (get : Program σ ε σ) s = (.ok s, s) := rfl

@[simp] theorem exec_getThe (s : σ) : exec (getThe σ : Program σ ε σ) s = (.ok s, s) := rfl

@[simp] theorem exec_modify (f : σ → σ) (s : σ) :
    exec (modify f : Program σ ε PUnit) s = (.ok ⟨⟩, f s) := rfl

@[simp] theorem exec_ofExcept (result : Except ε α) (s : σ) :
    exec (ofExcept result) s = (result, s) := rfl

theorem exec_bind (p : Program σ ε α) (f : α → Program σ ε β) (s : σ) :
    exec (p >>= f) s =
      match exec p s with
      | (.ok a, s') => exec (f a) s'
      | (.error e, s') => (.error e, s') := by
  show StateT.run (ExceptT.run (p >>= f)) s = _
  rw [ExceptT.run_bind, StateT.run_bind]
  unfold exec
  obtain ⟨result, s'⟩ := StateT.run (ExceptT.run p) s
  cases result with
  | ok a => rfl
  | error e => rfl

/-- A program that goes on after its first part did so with what that part returned. -/
theorem exec_bind_ok {p : Program σ ε α} {f : α → Program σ ε β} {s s' : σ} {a : α}
    (h : exec p s = (.ok a, s')) : exec (p >>= f) s = exec (f a) s' := by
  rw [exec_bind, h]

theorem exec_bind_error {p : Program σ ε α} {f : α → Program σ ε β} {s s' : σ} {e : ε}
    (h : exec p s = (.error e, s')) : exec (p >>= f) s = (.error e, s') := by
  rw [exec_bind, h]

/-- The two parts of a program that has ended well. -/
theorem exec_bind_eq_ok {p : Program σ ε α} {f : α → Program σ ε β} {s s' : σ} {b : β}
    (h : exec (p >>= f) s = (.ok b, s')) :
    ∃ a mid, exec p s = (.ok a, mid) ∧ exec (f a) mid = (.ok b, s') := by
  rw [exec_bind] at h
  cases hp : exec p s with
  | mk result mid =>
      rw [hp] at h
      cases result with
      | ok a => exact ⟨a, mid, rfl, h⟩
      | error e => simp at h

theorem exec_ofExcept_bind_eq_ok {result : Except ε α} {f : α → Program σ ε β} {s s' : σ} {b : β}
    (h : exec (ofExcept result >>= f) s = (.ok b, s')) :
    ∃ a, result = .ok a ∧ exec (f a) s = (.ok b, s') := by
  cases result with
  | error e =>
      rw [exec_bind_error (exec_ofExcept _ _)] at h
      simp at h
  | ok a => exact ⟨a, rfl, h⟩

/-- A transaction has failed and changed nothing, or has done what its program does. -/
theorem exec_transaction (p : Program σ ε α) (s : σ) :
    (∃ e s', exec p s = (.error e, s') ∧ exec (transaction p) s = (.error e, s)) ∨
      ∃ a s', exec p s = (.ok a, s') ∧ exec (transaction p) s = (.ok a, s') := by
  have hunfold : exec (transaction p) s =
      match exec p s with
      | (.ok a, s') => (.ok a, s')
      | (.error e, _) => (.error e, s) := rfl
  rw [hunfold]
  cases exec p s with
  | mk result s' =>
      cases result with
      | ok a => exact .inr ⟨a, s', rfl, rfl⟩
      | error e => exact .inl ⟨e, s', rfl, rfl⟩

theorem exec_mapError_eq_ok {ε' : Type} {f : ε → ε'} {p : Program σ ε α} {s s' : σ} {a : α}
    (h : exec (mapError f p) s = (.ok a, s')) : exec p s = (.ok a, s') := by
  have hunfold : exec (mapError f p) s =
      match exec p s with
      | (.ok a, s') => (.ok a, s')
      | (.error e, s') => (.error (f e), s') := rfl
  rw [hunfold] at h
  cases hp : exec p s with
  | mk result t =>
      rw [hp] at h
      cases result with
      | ok b => simpa using h
      | error e => simp at h

end Program
