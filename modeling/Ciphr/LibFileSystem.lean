import Mathlib.Logic.Function.Basic

/-!
A directory of named files with the operations a program performs on it one at a time. A name
leads to a file by number, and an open handle is that number: a file that has been renamed or
removed is still the file its handles write to.
-/

/-- Names, the files they lead to and the contents of every file ever created. A file number in
use is below `fresh`, so that a created file is none of the earlier ones. -/
structure FileSystem (ν κ : Type) where
  entry : ν → Option Nat
  data : Nat → κ
  fresh : Nat
  entry_lt : ∀ p i, entry p = some i → i < fresh

namespace FileSystem

variable {ν κ : Type}

def exists? (fs : FileSystem ν κ) (p : ν) : Bool := (fs.entry p).isSome

def read (fs : FileSystem ν κ) (p : ν) : Option κ := (fs.entry p).map fs.data

/-- Change the contents of one file through a handle. -/
def modify (fs : FileSystem ν κ) (i : Nat) (f : κ → κ) : FileSystem ν κ where
  entry := fs.entry
  data := Function.update fs.data i (f (fs.data i))
  fresh := fs.fresh
  entry_lt := fs.entry_lt

@[simp] theorem modify_entry (fs : FileSystem ν κ) (i : Nat) (f : κ → κ) :
    (fs.modify i f).entry = fs.entry := rfl

@[simp] theorem modify_fresh (fs : FileSystem ν κ) (i : Nat) (f : κ → κ) :
    (fs.modify i f).fresh = fs.fresh := rfl

@[simp] theorem modify_data_self (fs : FileSystem ν κ) (i : Nat) (f : κ → κ) :
    (fs.modify i f).data i = f (fs.data i) := by
  simp [modify]

theorem modify_data_of_ne (fs : FileSystem ν κ) {i j : Nat} (f : κ → κ) (h : j ≠ i) :
    (fs.modify i f).data j = fs.data j := by
  simp [modify, Function.update_of_ne h]

theorem modify_modify (fs : FileSystem ν κ) (i : Nat) (f g : κ → κ) :
    (fs.modify i f).modify i g = fs.modify i (g ∘ f) := by
  simp [modify]

/-- The contents of every file, in the order in which the files were created. -/
def contents (fs : FileSystem ν κ) : List κ := (List.range fs.fresh).map fs.data

theorem contents_eq_append (fs : FileSystem ν κ) {i : Nat} (hi : i + 1 = fs.fresh) :
    fs.contents = (List.range i).map fs.data ++ [fs.data i] := by
  unfold contents
  rw [← hi, List.range_succ, List.map_append, List.map_singleton]

theorem contents_getElem? (fs : FileSystem ν κ) {i : Nat} (hi : i < fs.fresh) :
    fs.contents[i]? = some (fs.data i) := by
  unfold contents
  rw [List.getElem?_map, List.getElem?_range hi, Option.map_some]

/-- Changing the newest file changes the last of the contents. -/
theorem contents_modify (fs : FileSystem ν κ) {i : Nat} (hi : i + 1 = fs.fresh) (f : κ → κ) :
    (fs.modify i f).contents = (List.range i).map fs.data ++ [f (fs.data i)] := by
  rw [contents_eq_append (fs.modify i f) hi, modify_data_self]
  congr 1
  refine List.map_congr_left ?_
  intro j hj
  exact modify_data_of_ne fs f (Nat.ne_of_lt (List.mem_range.mp hj))

variable [DecidableEq ν]

def remove (fs : FileSystem ν κ) (p : ν) : FileSystem ν κ where
  entry := Function.update fs.entry p none
  data := fs.data
  fresh := fs.fresh
  entry_lt := by
    intro q i h
    by_cases hq : q = p
    · subst hq
      simp at h
    · rw [Function.update_of_ne hq] at h
      exact fs.entry_lt q i h

@[simp] theorem remove_data (fs : FileSystem ν κ) (p : ν) : (fs.remove p).data = fs.data := rfl

@[simp] theorem remove_fresh (fs : FileSystem ν κ) (p : ν) : (fs.remove p).fresh = fs.fresh := rfl

@[simp] theorem remove_entry_self (fs : FileSystem ν κ) (p : ν) : (fs.remove p).entry p = none := by
  simp [remove]

/-- A file given another name, which replaces what that name led to. -/
def link (fs : FileSystem ν κ) (p q : ν) (i : Nat) (hi : fs.entry p = some i) :
    FileSystem ν κ where
  entry := Function.update (Function.update fs.entry p none) q (some i)
  data := fs.data
  fresh := fs.fresh
  entry_lt := by
    intro r j h
    by_cases hr : r = q
    · subst hr
      simp only [Function.update_self, Option.some.injEq] at h
      exact h ▸ fs.entry_lt p i hi
    · rw [Function.update_of_ne hr] at h
      by_cases hp : r = p
      · subst hp
        simp at h
      · rw [Function.update_of_ne hp] at h
        exact fs.entry_lt r j h

/-- `rename`: fails when there is nothing to rename. -/
def rename (fs : FileSystem ν κ) (p q : ν) : Option (FileSystem ν κ) :=
  match h : fs.entry p with
  | none => none
  | some i => some (fs.link p q i h)

theorem rename_eq_some {fs fs' : FileSystem ν κ} {p q : ν} (h : fs.rename p q = some fs') :
    (∃ i, fs.entry p = some i) ∧ fs'.data = fs.data ∧ fs'.fresh = fs.fresh ∧
      (p ≠ q → fs'.entry p = none) := by
  unfold rename at h
  split at h
  · cases h
  · rename_i i hi
    cases h
    refine ⟨⟨i, hi⟩, rfl, rfl, ?_⟩
    intro hne
    simp only [link, Function.update_of_ne hne, Function.update_self]

/-- A rename leaves every other name alone, and the new name leads to the file. -/
theorem rename_entry {fs fs' : FileSystem ν κ} {p q : ν} {i : Nat} (hi : fs.entry p = some i)
    (h : fs.rename p q = some fs') :
    fs'.entry q = some i ∧ ∀ r, r ≠ p → r ≠ q → fs'.entry r = fs.entry r := by
  unfold rename at h
  split at h
  · cases h
  · rename_i j hj
    obtain rfl := Option.some.inj (hi.symm.trans hj)
    cases h
    refine ⟨?_, ?_⟩
    · simp only [link, Function.update_self]
    · intro r hp hq
      simp only [link, Function.update_of_ne hq, Function.update_of_ne hp]

variable [Inhabited κ]

/-- The directory without files. -/
def empty : FileSystem ν κ where
  entry := fun _ => none
  data := fun _ => default
  fresh := 0
  entry_lt := by simp

/-- A new empty file under a name, whatever the name led to before. -/
def create (fs : FileSystem ν κ) (p : ν) : FileSystem ν κ where
  entry := Function.update fs.entry p (some fs.fresh)
  data := Function.update fs.data fs.fresh default
  fresh := fs.fresh + 1
  entry_lt := by
    intro q i h
    by_cases hq : q = p
    · subst hq
      simp only [Function.update_self, Option.some.injEq] at h
      omega
    · rw [Function.update_of_ne hq] at h
      have := fs.entry_lt q i h
      omega

/-- `create_new`: fails when the name is taken. -/
def createNew (fs : FileSystem ν κ) (p : ν) : Option (Nat × FileSystem ν κ) :=
  if fs.exists? p then none else some (fs.fresh, fs.create p)

/-- `create` with `append`: the file under the name, made empty when there is none. -/
def openAppend (fs : FileSystem ν κ) (p : ν) : Nat × FileSystem ν κ :=
  match fs.entry p with
  | some i => (i, fs)
  | none => (fs.fresh, fs.create p)

@[simp] theorem create_fresh (fs : FileSystem ν κ) (p : ν) :
    (fs.create p).fresh = fs.fresh + 1 := rfl

@[simp] theorem create_entry_self (fs : FileSystem ν κ) (p : ν) :
    (fs.create p).entry p = some fs.fresh := by
  simp [create]

theorem create_entry_of_ne (fs : FileSystem ν κ) {p q : ν} (h : q ≠ p) :
    (fs.create p).entry q = fs.entry q := by
  simp [create, Function.update_of_ne h]

@[simp] theorem create_data_fresh (fs : FileSystem ν κ) (p : ν) :
    (fs.create p).data fs.fresh = default := by
  simp [create]

theorem create_data_of_lt (fs : FileSystem ν κ) (p : ν) {i : Nat} (hi : i < fs.fresh) :
    (fs.create p).data i = fs.data i := by
  simp [create, Function.update_of_ne (Nat.ne_of_lt hi)]

theorem contents_create (fs : FileSystem ν κ) (p : ν) :
    (fs.create p).contents = fs.contents ++ [default] := by
  rw [contents_eq_append (fs.create p) rfl, create_data_fresh]
  congr 1
  refine List.map_congr_left ?_
  intro j hj
  exact create_data_of_lt fs p (List.mem_range.mp hj)

theorem openAppend_of_none {fs : FileSystem ν κ} {p : ν} (h : fs.entry p = none) :
    fs.openAppend p = (fs.fresh, fs.create p) := by
  unfold openAppend
  rw [h]

theorem openAppend_of_some {fs : FileSystem ν κ} {p : ν} {i : Nat} (h : fs.entry p = some i) :
    fs.openAppend p = (i, fs) := by
  unfold openAppend
  rw [h]

/-- The handle leads to the file of the name, which holds what it held before. -/
theorem openAppend_entry (fs : FileSystem ν κ) (p : ν) :
    (fs.openAppend p).2.entry p = some (fs.openAppend p).1 ∧
      (fs.openAppend p).2.data (fs.openAppend p).1 = (fs.read p).getD default := by
  cases h : fs.entry p with
  | none =>
      rw [openAppend_of_none h, read, h]
      exact ⟨create_entry_self fs p, create_data_fresh fs p⟩
  | some i =>
      rw [openAppend_of_some h, read, h]
      exact ⟨rfl, rfl⟩

theorem createNew_eq_some {fs fs' : FileSystem ν κ} {p : ν} {i : Nat}
    (h : fs.createNew p = some (i, fs')) :
    fs.entry p = none ∧ i = fs.fresh ∧ fs' = fs.create p := by
  unfold createNew exists? at h
  split at h
  · cases h
  · rename_i hn
    simp only [Option.some.injEq, Prod.mk.injEq] at h
    exact ⟨by simpa using hn, h.1.symm, h.2.symm⟩

end FileSystem
