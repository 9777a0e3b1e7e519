import Ciphr.StoreLock

/-!
Mutual exclusion of `StoreLock`. A takeover reads the lock file, finds its holder gone, reads the
file once more and then removes whatever has the name. As long as no takeover removes a file other
than the one it read, a process that has created its lock file keeps it until it gives it up, and
two guards never exist at once. Where the file is exchanged between the last read and the removal,
they do.
-/

namespace Ciphr.StoreLock

namespace State

structure Inv (path : String) (s : State) : Prop where
  kept : ∀ p ∈ s.live, ∀ file text, (s.phase p).kept p = some (file, text) →
    s.fs.entry path = some file ∧ s.fs.data file = text
  unique : ∀ p ∈ s.live, ∀ q ∈ s.live, ((s.phase p).kept p).isSome → ((s.phase q).kept q).isSome →
    p = q
  seen : ∀ p ∈ s.live, ∀ file text, (s.phase p).seen = some (file, text) →
    file < s.fs.fresh ∧ s.fs.data file = text ∧ text ≠ ""
  stale : ∀ p ∈ s.live, ∀ file, (s.phase p).stale = some file →
    ∀ q ∈ s.live, ∀ text, (s.phase q).kept q ≠ some (file, text)

theorem inv_initial (path : String) (s : State) (hs : Initial s) : Inv path s := by
  have hnone : ∀ p, p ∉ s.live := by
    intro p hp
    rw [hs] at hp
    cases hp
  constructor
  · intro p hp
    exact absurd hp (hnone p)
  · intro p hp
    exact absurd hp (hnone p)
  · intro p hp
    exact absurd hp (hnone p)
  · intro p hp
    exact absurd hp (hnone p)

/-- A step that leaves the files alone keeps the invariant when each process keeps at most what it
kept, has seen at most what it saw or what is there, and calls stale only what nobody keeps. -/
theorem Inv.of_files_alone {path : String} {s s' : State} (h : Inv path s) (hfs : s'.fs = s.fs)
    (hkept : ∀ p ∈ s'.live, ∀ x, (s'.phase p).kept p = some x →
      p ∈ s.live ∧ (s.phase p).kept p = some x)
    (hseen : ∀ p ∈ s'.live, ∀ file text, (s'.phase p).seen = some (file, text) →
      (p ∈ s.live ∧ (s.phase p).seen = some (file, text)) ∨
        (s.fs.entry path = some file ∧ s.fs.data file = text ∧ text ≠ ""))
    (hstale : ∀ p ∈ s'.live, ∀ file, (s'.phase p).stale = some file →
      (p ∈ s.live ∧ (s.phase p).stale = some file) ∨
        ∀ q ∈ s.live, ∀ text, (s.phase q).kept q ≠ some (file, text)) :
    Inv path s' := by
  constructor
  · intro p hp file text hk
    obtain ⟨hp', hk'⟩ := hkept p hp _ hk
    rw [hfs]
    exact h.kept p hp' file text hk'
  · intro p hp q hq hkp hkq
    obtain ⟨x, hx⟩ := Option.isSome_iff_exists.mp hkp
    obtain ⟨y, hy⟩ := Option.isSome_iff_exists.mp hkq
    obtain ⟨hp', hx'⟩ := hkept p hp x hx
    obtain ⟨hq', hy'⟩ := hkept q hq y hy
    exact h.unique p hp' q hq' (by rw [hx']; rfl) (by rw [hy']; rfl)
  · intro p hp file text hs
    rw [hfs]
    rcases hseen p hp file text hs with ⟨hp', hs'⟩ | ⟨hentry, hdata, hne⟩
    · exact h.seen p hp' file text hs'
    · exact ⟨s.fs.entry_lt path file hentry, hdata, hne⟩
  · intro p hp file hs q hq text hk
    obtain ⟨hq', hk'⟩ := hkept q hq _ hk
    rcases hstale p hp file hs with ⟨hp', hs'⟩ | hnone
    · exact h.stale p hp' file hs' q hq' text hk'
    · exact hnone q hq' text hk'

end State

/-- Everything one operation of a process can do to the files and to what the process keeps, has
seen and calls stale. -/
inductive Effect (path : String) (live : List Process) (p : Process) (fault : Option String)
    (fs : FileSystem String String) (phase : Phase) : FileSystem String String × Phase → Prop
  | alone {phase' : Phase} (hkept : ∀ x, phase'.kept p = some x → phase.kept p = some x)
      (hseen : ∀ file text, phase'.seen = some (file, text) → phase.seen = some (file, text) ∨
        (fs.entry path = some file ∧ fs.data file = text ∧ text ≠ ""))
      (hstale : ∀ file, phase'.stale = some file → phase.stale = some file ∨
        ∃ text pid started, phase.seen = some (file, text) ∧
          parseHolder text = some (pid, started) ∧ isAlive live pid started = false) :
      Effect path live p fault fs phase (fs, phase')
  | created (hentry : fs.entry path = none) :
      Effect path live p fault fs phase (fs.create path, .writing fs.fresh)
  | wrote {file : Nat} (hphase : phase = .writing file) :
      Effect path live p fault fs phase (fs.modify file fun _ => p.identity, .readingBack file)
  | removed {phase' : Phase} (hkept : phase'.kept p = none) (hseen : phase'.seen = none)
      (hstale : phase'.stale = none)
      (hphase : (phase.kept p).isSome ∨ fault = none ∧ ∃ file text, phase = .removing file text) :
      Effect path live p fault fs phase (fs.remove path, phase')

theorem Effect.leaves {path : String} {live : List Process} {p : Process} {fault : Option String}
    {fs : FileSystem String String} {phase phase' : Phase}
    (hkept : ∀ x, phase'.kept p = some x → phase.kept p = some x)
    (hseen : ∀ x, phase'.seen = some x → phase.seen = some x)
    (hstale : ∀ file, phase'.stale = some file → phase.stale = some file) :
    Effect path live p fault fs phase (fs, phase') :=
  .alone hkept (fun _ _ h => .inl (hseen _ h)) (fun _ h => .inl (hstale _ h))

theorem operate_creating_effect {path : String} {live : List Process} {p : Process}
    {fs : FileSystem String String} {fault : Option String}
    {next : FileSystem String String × Phase}
    (h : operate path live p fs fault .creating = some next) :
    Effect path live p fault fs .creating next := by
  cases fault with
  | some error =>
      cases h
      exact .leaves (by simp [Phase.kept]) (by simp [Phase.seen]) (by simp [Phase.stale])
  | none =>
      simp only [operate] at h
      split at h
      · rename_i file fs' hcreate
        obtain ⟨hentry, rfl, rfl⟩ := FileSystem.createNew_eq_some hcreate
        cases h
        exact .created hentry
      · cases h
        exact .leaves (by simp [Phase.kept]) (by simp [Phase.seen]) (by simp [Phase.stale])

theorem operate_reading_effect {path : String} {live : List Process} {p : Process}
    {fs : FileSystem String String} {fault : Option String}
    {next : FileSystem String String × Phase}
    (h : operate path live p fs fault .reading = some next) :
    Effect path live p fault fs .reading next := by
  simp only [operate] at h
  split at h
  · rename_i file existing hentry hread
    split at h
    · cases h
      obtain ⟨file', hentry', hdata, hne⟩ := readRaw_eq_some hread
      rw [hentry, Option.some.injEq] at hentry'
      subst hentry'
      refine .alone (by simp [Phase.kept]) ?_ (by simp [Phase.stale])
      intro file' text hs
      simp only [Phase.seen, Option.some.injEq, Prod.mk.injEq] at hs
      obtain ⟨rfl, rfl⟩ := hs
      exact .inr ⟨hentry, hdata, hne⟩
    · cases h
      exact .leaves (by simp [Phase.kept]) (by simp [Phase.seen]) (by simp [Phase.stale])
  · cases h
    exact .leaves (by simp [Phase.kept]) (by simp [Phase.seen]) (by simp [Phase.stale])

theorem operate_judging_effect {path : String} {live : List Process} {p : Process}
    {fs : FileSystem String String} {fault : Option String} {file : Nat} {existing : String}
    {next : FileSystem String String × Phase}
    (h : operate path live p fs fault (.judging file existing) = some next) :
    Effect path live p fault fs (.judging file existing) next := by
  simp only [operate] at h
  split at h
  · rename_i pid started hparse
    split at h
    · cases h
      exact .leaves (by simp [Phase.kept]) (by simp [Phase.seen]) (by simp [Phase.stale])
    · rename_i halive
      cases h
      refine .alone (by simp [Phase.kept]) (by simp [Phase.seen]) ?_
      intro file' hs
      simp only [Phase.stale, Option.some.injEq] at hs
      subst hs
      exact .inr ⟨existing, pid, started, rfl, hparse, by simpa using halive⟩
  · cases h
    exact .leaves (by simp [Phase.kept]) (by simp [Phase.seen]) (by simp [Phase.stale])

theorem operate_effect {path : String} {live : List Process} {p : Process}
    {fs : FileSystem String String} {fault : Option String} {phase : Phase}
    {next : FileSystem String String × Phase}
    (h : operate path live p fs fault phase = some next) :
    Effect path live p fault fs phase next := by
  cases phase with
  | idle => cases h
  | failed error => cases h
  | holding file => cases h
  | creating => exact operate_creating_effect h
  | reading => exact operate_reading_effect h
  | judging file existing => exact operate_judging_effect h
  | writing file =>
      cases fault with
      | some error =>
          cases h
          exact .leaves (by simp [Phase.kept]) (by simp [Phase.seen]) (by simp [Phase.stale])
      | none =>
          cases h
          exact .wrote rfl
  | readingBack file | rechecking file existing | dropping file =>
      simp only [operate] at h
      split at h
      all_goals
        cases h
        exact .leaves (by simp [Phase.kept]) (by simp [Phase.seen]) (by simp [Phase.stale])
  | unwriting file error | releasing file =>
      cases fault with
      | some error =>
          cases h
          exact .leaves (by simp [Phase.kept]) (by simp [Phase.seen]) (by simp [Phase.stale])
      | none =>
          cases h
          exact .removed rfl rfl rfl (.inl rfl)
  | removing file existing =>
      cases fault with
      | some error =>
          cases h
          exact .leaves (by simp [Phase.kept]) (by simp [Phase.seen]) (by simp [Phase.stale])
      | none =>
          cases h
          exact .removed rfl rfl rfl (.inr ⟨rfl, file, existing, rfl⟩)

namespace State

variable {path : String} {s : State} {p : Process}

@[simp] theorem setPhase_fs (phase : Phase) : (s.setPhase p phase).fs = s.fs := rfl

@[simp] theorem setPhase_live (phase : Phase) : (s.setPhase p phase).live = s.live := rfl

@[simp] theorem setPhase_phase_self (phase : Phase) : (s.setPhase p phase).phase p = phase := by
  simp [setPhase]

theorem setPhase_phase_of_ne {q : Process} (phase : Phase) (h : q ≠ p) :
    (s.setPhase p phase).phase q = s.phase q := by
  simp [setPhase, Function.update_of_ne h]

/-- A process that has seen the file of a live holder does not find that holder gone. -/
theorem Inv.not_kept_of_not_isAlive (h : Inv path s) (hp : p ∈ s.live) {file : Nat}
    {text : String} (hseen : (s.phase p).seen = some (file, text)) {pid : Nat}
    {started : Option Nat} (hparse : parseHolder text = some (pid, started))
    (halive : isAlive s.live pid started = false) {q : Process} (hq : q ∈ s.live)
    (text' : String) : (s.phase q).kept q ≠ some (file, text') := by
  intro hk
  obtain ⟨-, hdata, hne⟩ := h.seen p hp file text hseen
  obtain ⟨-, hdata'⟩ := h.kept q hq file text' hk
  have htext : text' = text := hdata'.symm.trans hdata
  have hid : text = q.identity := by
    subst htext
    cases hphase : s.phase q <;> simp_all [Phase.kept]
  subst hid
  rw [isAlive_of_mem hq hparse] at halive
  cases halive

/-- A process that gives up no file of a live holder may change its phase. -/
theorem Inv.setPhase_of_leaves (h : Inv path s) (hp : p ∈ s.live) {phase : Phase}
    (hkept : ∀ x, phase.kept p = some x → (s.phase p).kept p = some x)
    (hseen : ∀ file text, phase.seen = some (file, text) →
      (s.phase p).seen = some (file, text) ∨
        (s.fs.entry path = some file ∧ s.fs.data file = text ∧ text ≠ ""))
    (hstale : ∀ file, phase.stale = some file → (s.phase p).stale = some file ∨
      ∀ q ∈ s.live, ∀ text, (s.phase q).kept q ≠ some (file, text)) :
    Inv path (s.setPhase p phase) := by
  refine h.of_files_alone rfl ?_ ?_ ?_
  · intro q hq x hk
    by_cases hqp : q = p
    · subst hqp
      rw [setPhase_phase_self] at hk
      exact ⟨hp, hkept x hk⟩
    · rw [setPhase_phase_of_ne phase hqp] at hk
      exact ⟨hq, hk⟩
  · intro q hq file text hs
    by_cases hqp : q = p
    · subst hqp
      rw [setPhase_phase_self] at hs
      exact (hseen file text hs).imp_left fun hs' => ⟨hp, hs'⟩
    · rw [setPhase_phase_of_ne phase hqp] at hs
      exact .inl ⟨hq, hs⟩
  · intro q hq file hs
    by_cases hqp : q = p
    · subst hqp
      rw [setPhase_phase_self] at hs
      exact (hstale file hs).imp_left fun hs' => ⟨hp, hs'⟩
    · rw [setPhase_phase_of_ne phase hqp] at hs
      exact .inl ⟨hq, hs⟩

/-- An operation on the lock file keeps the invariant when nobody but the process that does it
keeps a file afterwards, and what the others have seen is still as they saw it. -/
theorem Inv.of_sole_keeper (h : Inv path s) {fs : FileSystem String String} {phase : Phase}
    (hothers : ∀ q ∈ s.live, q ≠ p → (s.phase q).kept q = none)
    (hkept : ∀ file text, phase.kept p = some (file, text) →
      fs.entry path = some file ∧ fs.data file = text ∧ ∀ q ∈ s.live, (s.phase q).stale ≠ some file)
    (hfresh : s.fs.fresh ≤ fs.fresh)
    (hdata : ∀ q ∈ s.live, ∀ file text, (s.phase q).seen = some (file, text) →
      fs.data file = s.fs.data file)
    (hseen : phase.seen = none) (hstale : phase.stale = none) :
    Inv path { s.setPhase p phase with fs := fs } := by
  have hsole : ∀ q ∈ s.live, ∀ x, ((s.setPhase p phase).phase q).kept q = some x →
      q = p ∧ phase.kept p = some x := by
    intro q hq x hk
    by_cases hqp : q = p
    · subst hqp
      rw [setPhase_phase_self] at hk
      exact ⟨rfl, hk⟩
    · rw [setPhase_phase_of_ne phase hqp, hothers q hq hqp] at hk
      cases hk
  constructor
  · intro q hq file text hk
    obtain ⟨rfl, hk'⟩ := hsole q hq _ hk
    obtain ⟨hentry, htext, -⟩ := hkept file text hk'
    exact ⟨hentry, htext⟩
  · intro q hq r hr hkq hkr
    obtain ⟨x, hx⟩ := Option.isSome_iff_exists.mp hkq
    obtain ⟨y, hy⟩ := Option.isSome_iff_exists.mp hkr
    rw [(hsole q hq x hx).1, (hsole r hr y hy).1]
  · intro q hq file text hs
    have hqp : q ≠ p := by
      rintro rfl
      rw [setPhase_phase_self, hseen] at hs
      cases hs
    rw [setPhase_phase_of_ne phase hqp] at hs
    obtain ⟨hlt, htext, hne⟩ := h.seen q hq file text hs
    exact ⟨Nat.lt_of_lt_of_le hlt hfresh, (hdata q hq file text hs).trans htext, hne⟩
  · intro q hq file hs r hr text hk
    have hqp : q ≠ p := by
      rintro rfl
      rw [setPhase_phase_self, hstale] at hs
      cases hs
    rw [setPhase_phase_of_ne phase hqp] at hs
    obtain ⟨-, hk'⟩ := hsole r hr _ hk
    exact (hkept file text hk').2.2 q hq hs

theorem seen_of_stale {phase : Phase} {file : Nat} (h : phase.stale = some file) :
    ∃ text, phase.seen = some (file, text) := by
  cases phase <;> simp_all [Phase.stale, Phase.seen]

theorem Inv.create (h : Inv path s) (hentry : s.fs.entry path = none) :
    Inv path { s.setPhase p (.writing s.fs.fresh) with fs := s.fs.create path } := by
  refine h.of_sole_keeper ?_ ?_ ?_ ?_ rfl rfl
  · intro q hq _
    cases hk : (s.phase q).kept q with
    | none => rfl
    | some x =>
        have := (h.kept q hq x.1 x.2 hk).1
        rw [hentry] at this
        cases this
  · intro file text hk
    simp only [Phase.kept, Option.some.injEq, Prod.mk.injEq] at hk
    obtain ⟨rfl, rfl⟩ := hk
    refine ⟨s.fs.create_entry_self path, s.fs.create_data_fresh path, ?_⟩
    intro q hq hs
    obtain ⟨text, hseen⟩ := seen_of_stale hs
    exact Nat.lt_irrefl _ (h.seen q hq _ text hseen).1
  · exact Nat.le_succ _
  · intro q hq file text hs
    exact s.fs.create_data_of_lt path (h.seen q hq file text hs).1

theorem Inv.write (h : Inv path s) (hp : p ∈ s.live) {file : Nat}
    (hphase : s.phase p = .writing file) :
    Inv path { s.setPhase p (.readingBack file) with
      fs := s.fs.modify file fun _ => p.identity } := by
  have hk : (s.phase p).kept p = some (file, "") := by rw [hphase]; rfl
  obtain ⟨hentry, hblank⟩ := h.kept p hp file "" hk
  refine h.of_sole_keeper ?_ ?_ ?_ ?_ rfl rfl
  · intro q hq hqp
    by_contra hkq
    exact hqp (h.unique q hq p hp (Option.isSome_iff_ne_none.mpr hkq) (by rw [hk]; rfl))
  · intro file' text hk'
    simp only [Phase.kept, Option.some.injEq, Prod.mk.injEq] at hk'
    obtain ⟨rfl, rfl⟩ := hk'
    refine ⟨hentry, s.fs.modify_data_self file _, ?_⟩
    intro q hq hs
    exact h.stale q hq file hs p hp "" hk
  · exact Nat.le_refl _
  · intro q hq file' text hs
    obtain ⟨-, htext, hne⟩ := h.seen q hq file' text hs
    -- the file is still empty, so it is none that anybody has read a holder from
    have hfile : file' ≠ file := by
      rintro rfl
      exact hne (htext.symm.trans hblank)
    exact s.fs.modify_data_of_ne _ hfile

theorem Inv.remove (h : Inv path s) {phase : Phase}
    (hkept : phase.kept p = none) (hseen : phase.seen = none) (hstale : phase.stale = none)
    (hothers : ∀ q ∈ s.live, q ≠ p → (s.phase q).kept q = none) :
    Inv path { s.setPhase p phase with fs := s.fs.remove path } := by
  refine h.of_sole_keeper hothers ?_ ?_ ?_ hseen hstale
  · intro file text hk
    rw [hkept] at hk
    cases hk
  · exact Nat.le_refl _
  · intro q hq file text _
    rfl

theorem Inv.operate (h : Inv path s) (hp : p ∈ s.live) {fault : Option String}
    (hok : RemovesWhatItRead path s (.operate p fault))
    {next : FileSystem String String × Phase}
    (heffect : Effect path s.live p fault s.fs (s.phase p) next) :
    Inv path { s.setPhase p next.2 with fs := next.1 } := by
  cases heffect with
  | alone hkept hseen hstale =>
      refine h.setPhase_of_leaves hp hkept hseen ?_
      intro file hs
      rcases hstale file hs with hs' | ⟨text, pid, started, hsaw, hparse, halive⟩
      · exact .inl hs'
      · exact .inr fun q hq text' => h.not_kept_of_not_isAlive hp hsaw hparse halive hq text'
  | created hentry => exact h.create hentry
  | wrote hphase => exact h.write hp hphase
  | removed hkept hseen hstale hphase =>
      refine h.remove hkept hseen hstale ?_
      intro q hq hqp
      by_contra hkq
      rcases hphase with hown | ⟨rfl, file, text, hphase⟩
      · exact hqp (h.unique q hq p hp (Option.isSome_iff_ne_none.mpr hkq) hown)
      · -- the file removed is the one found stale, and that is nobody's
        simp only [RemovesWhatItRead, hphase] at hok
        obtain ⟨⟨file', text'⟩, hk⟩ := Option.ne_none_iff_exists'.mp hkq
        rw [(h.kept q hq file' text' hk).1] at hok
        simp only [Option.all_some, beq_iff_eq] at hok
        subst hok
        exact h.stale p hp file' (by rw [hphase]; rfl) q hq text' hk

theorem Inv.step {a : Action} {s' : State} (h : Inv path s) (hok : RemovesWhatItRead path s a)
    (hstep : s.step path a = some s') : Inv path s' := by
  cases a with
  | start p =>
      simp only [State.step] at hstep
      split at hstep
      · cases hstep
      · cases hstep
        refine h.of_files_alone rfl ?_ ?_ ?_
        · intro q hq x hk
          by_cases hqp : q = p
          · subst hqp
            simp [Phase.kept] at hk
          · rw [setPhase_phase_of_ne _ hqp] at hk
            exact ⟨(List.mem_cons.mp hq).resolve_left hqp, hk⟩
        · intro q hq file text hs
          by_cases hqp : q = p
          · subst hqp
            simp [Phase.seen] at hs
          · rw [setPhase_phase_of_ne _ hqp] at hs
            exact .inl ⟨(List.mem_cons.mp hq).resolve_left hqp, hs⟩
        · intro q hq file hs
          by_cases hqp : q = p
          · subst hqp
            simp [Phase.stale] at hs
          · rw [setPhase_phase_of_ne _ hqp] at hs
            exact .inl ⟨(List.mem_cons.mp hq).resolve_left hqp, hs⟩
  | acquire p =>
      simp only [State.step] at hstep
      split at hstep
      · rename_i hp
        have hcreating : Inv path (s.setPhase p .creating) :=
          h.setPhase_of_leaves hp (by simp [Phase.kept]) (by simp [Phase.seen]) (by simp [Phase.stale])
        split at hstep
        · cases hstep
          exact hcreating
        · cases hstep
          exact hcreating
        · cases hstep
      · cases hstep
  | operate p fault =>
      simp only [State.step] at hstep
      split at hstep
      · rename_i hp
        rw [Option.map_eq_some_iff] at hstep
        obtain ⟨next, hnext, rfl⟩ := hstep
        exact h.operate hp hok (operate_effect hnext)
      · cases hstep
  | drop p =>
      simp only [State.step] at hstep
      split at hstep
      · rename_i hp
        split at hstep
        · rename_i file hphase
          cases hstep
          refine h.setPhase_of_leaves hp ?_ (by simp [Phase.seen]) (by simp [Phase.stale])
          intro x hk
          rw [hphase]
          exact hk
        · cases hstep
      · cases hstep
  | crash p =>
      simp only [State.step] at hstep
      split at hstep
      · cases hstep
        have hlive : ∀ q ∈ s.live.filter (· ≠ p), q ∈ s.live := fun q hq => (List.mem_filter.mp hq).1
        exact h.of_files_alone rfl (fun q hq x hk => ⟨hlive q hq, hk⟩)
          (fun q hq file text hs => .inl ⟨hlive q hq, hs⟩) (fun q hq file hs => .inl ⟨hlive q hq, hs⟩)
      · cases hstep

/-- In every run in which no takeover removes a file other than the one it read, no two live
processes hold a guard at once. -/
theorem holds_unique_of_removes_what_it_read (path : String) (s : State)
    (hs : Transition.Reachable Initial (step path) (RemovesWhatItRead path) s) (p q : Process)
    (hp : Holds s p) (hq : Holds s q) : p = q := by
  have hinv : Inv path s := hs.invariant (inv_initial path) fun s a s' h hok hstep => h.step hok hstep
  obtain ⟨hplive, file, hpfile⟩ := hp
  obtain ⟨hqlive, file', hqfile⟩ := hq
  exact hinv.unique p hplive q hqlive (by rw [hpfile]; rfl) (by rw [hqfile]; rfl)

/-- A lock file left behind by a process that no longer runs. -/
def leftBehind : State where
  fs := (FileSystem.empty.create "/var/ciphr.db.lock").modify 0 fun _ => "4242 100"
  live := []
  phase := fun _ => .idle

def first : Process := ⟨5151, some 200⟩

def second : Process := ⟨6161, some 300⟩

/-- One process takes the lock over while the other is refused. -/
def orderlyTakeover : List Action :=
  [.start first, .start second, .acquire first, .acquire second] ++
    List.replicate 7 (.operate first none) ++ List.replicate 2 (.operate second none) ++
    [.operate first none, .operate second none]

theorem holds_unique_of_removes_what_it_read_takeover :
    ∃ s, Transition.Reachable Initial (step "/var/ciphr.db.lock")
      (RemovesWhatItRead "/var/ciphr.db.lock") s ∧ Holds s first ∧
      s.phase second = .failed (.locked (some 5151)) ∧ ∀ q, Holds s q → q = first := by
  have hrun : ((Transition.run (step "/var/ciphr.db.lock") leftBehind orderlyTakeover).map
      fun t => (t.live, t.phase first, t.phase second)) =
        some ([second, first], .holding 1, .failed (.locked (some 5151))) := by decide +kernel
  obtain ⟨t, ht, hphases⟩ := Option.map_eq_some_iff.mp hrun
  simp only [Prod.mk.injEq] at hphases
  have hstart : Transition.Reachable Initial (step "/var/ciphr.db.lock")
      (RemovesWhatItRead "/var/ciphr.db.lock") leftBehind := .start rfl
  have hreach := Transition.reachable_of_run orderlyTakeover hstart (by decide +kernel) ht
  have hfirst : Holds t first := ⟨by rw [hphases.1]; decide, 1, hphases.2.1⟩
  exact ⟨t, hreach, hfirst, hphases.2.2, fun q hq =>
    holds_unique_of_removes_what_it_read _ t hreach q first hq hfirst⟩

/-- The second process takes the lock over completely between the last read of the first one and
its removal, so the first removes a lock that is held. -/
def exchangedTakeover : List Action :=
  [.start first, .start second, .acquire first] ++ List.replicate 4 (.operate first none) ++
    .acquire second :: List.replicate 8 (.operate second none) ++
    List.replicate 4 (.operate first none)

theorem two_guards_after_exchange :
    ¬ ∀ path s, Transition.Reachable Initial (step path) (fun _ _ => True) s →
      ∀ p q, Holds s p → Holds s q → p = q := by
  intro hexclusive
  have hrun : ((Transition.run (step "/var/ciphr.db.lock") leftBehind exchangedTakeover).map
      fun t => (t.live, t.phase first, t.phase second)) =
        some ([second, first], .holding 2, .holding 1) := by decide +kernel
  obtain ⟨t, ht, hphases⟩ := Option.map_eq_some_iff.mp hrun
  simp only [Prod.mk.injEq] at hphases
  have hstart : Transition.Reachable Initial (step "/var/ciphr.db.lock") (fun _ _ => True)
      leftBehind := .start rfl
  have hreach := Transition.reachable_of_run exchangedTakeover hstart (by decide +kernel) ht
  have hfirst : Holds t first := ⟨by rw [hphases.1]; decide, 2, hphases.2.1⟩
  have hsecond : Holds t second := ⟨by rw [hphases.1]; decide, 1, hphases.2.2⟩
  exact absurd (hexclusive _ t hreach first second hfirst hsecond) (by decide)

end State

end Ciphr.StoreLock
