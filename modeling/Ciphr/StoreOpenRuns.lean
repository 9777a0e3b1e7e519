import Ciphr.LibTransition
import Ciphr.StoreMigrations

/-!
`SqliteStore::open` called by any number of processes on one database file. Each call reads the version
once and then commits the migrations that it has found to be pending, each in a transaction of its own;
the steps of different calls interleave in any order.
-/

namespace Ciphr

open Program
open Tables (Row)

/-- Where a call of `SqliteStore::open` is. -/
inductive Opener where
  | reading
  | migrating (pending : List Migration)
  | ended (result : Except StoreError Unit)
  /-- The process was stopped, or a statement of SQLite failed. -/
  | stopped

/-- The database file, the calls made so far in the order in which they began, and the versions of the
migrations that have taken effect. -/
structure SharedFile where
  file : StoreFile
  openers : List Opener
  applied : List Nat

namespace SharedFile

inductive Event where
  | call
  | advance (i : Nat)
  | stop (i : Nat)
  /-- Another writer changes the contents. -/
  | write (db : Tables.Database Cell)

/-- A database file that no call has been made on. -/
def start (file : StoreFile) : SharedFile :=
  ⟨file, [], (migrations.take file.userVersion).map (·.version)⟩

/-- The next step of a call: the read of the version, or the next transaction. -/
def advance (s : SharedFile) (i : Nat) : Opener → Option SharedFile
  | .reading =>
      match pendingMigrations s.file.userVersion with
      | .error error => some { s with openers := s.openers.set i (.ended (.error error)) }
      | .ok pending => some { s with openers := s.openers.set i (.migrating pending) }
  | .migrating [] => some { s with openers := s.openers.set i (.ended (.ok ())) }
  | .migrating (migration :: rest) =>
      match migration.migrate s.file with
      | .error error => some { s with openers := s.openers.set i (.ended (.error error)) }
      | .ok next => some ⟨next, s.openers.set i (.migrating rest), s.applied ++ [migration.version]⟩
  | .ended _ => none
  | .stopped => none

def step (s : SharedFile) : Event → Option SharedFile
  | .call => some { s with openers := s.openers ++ [.reading] }
  | .advance i => (s.openers[i]?).bind (s.advance i)
  | .stop i => if i < s.openers.length then some { s with openers := s.openers.set i .stopped } else none
  | .write db => if db.schema = s.file.db.schema then some { s with file := { s.file with db } } else none

/-- Migration 5 is not applied to a database that has it. -/
def swapsOnce (s : SharedFile) : Event → Bool
  | .advance i =>
      match s.openers[i]? with
      | some (.migrating (migration :: _)) => migration.version ≠ 5 || s.file.userVersion < 5
      | _ => true
  | _ => true

theorem version_lt_of_swapsOnce {s : SharedFile} {i : Nat} (hok : s.swapsOnce (.advance i) = true)
    {migration : Migration} {rest : List Migration}
    (hopener : s.openers[i]? = some (.migrating (migration :: rest))) (hfive : migration.version = 5) :
    s.file.userVersion < 5 := by
  unfold swapsOnce at hok
  dsimp only at hok
  rw [hopener] at hok
  simpa [hfive] using hok

/-- Every call has come to its end by itself. -/
def AllEnded (s : SharedFile) : Prop := ∀ opener ∈ s.openers, ∃ result, opener = .ended result

/-! ### One call by itself -/

/-- A call that nothing comes between does what `migrations::apply` does. -/
theorem run_migrating {s : SharedFile} {i : Nat} {pending : List Migration}
    (h : s.openers[i]? = some (.migrating pending)) :
    ∃ n s' result, Transition.run step s (List.replicate n (.advance i)) = some s' ∧
      s'.openers[i]? = some (.ended result) ∧ exec (applyPending pending) s.file = (result, s'.file) := by
  have hlt : i < s.openers.length := (List.getElem?_eq_some_iff.mp h).1
  induction pending generalizing s with
  | nil =>
      refine ⟨1, { s with openers := s.openers.set i (.ended (.ok ())) }, .ok (), ?_, ?_, rfl⟩
      · simp only [List.replicate, Transition.run, step, h, Option.bind_some, advance]
      · exact List.getElem?_set_self hlt
  | cons migration rest ih =>
      cases hmigrate : migration.migrate s.file with
      | error error =>
          refine ⟨1, { s with openers := s.openers.set i (.ended (.error error)) }, .error error, ?_, ?_, ?_⟩
          · simp only [List.replicate, Transition.run, step, h, Option.bind_some, advance, hmigrate]
          · exact List.getElem?_set_self hlt
          · rw [applyPending, exec_bind_ok (exec_get _), hmigrate]
            exact exec_bind_error (exec_ofExcept _ _)
      | ok next =>
          let between : SharedFile := ⟨next, s.openers.set i (.migrating rest), s.applied ++ [migration.version]⟩
          have hbetween : between.openers[i]? = some (.migrating rest) := List.getElem?_set_self hlt
          obtain ⟨n, s', result, hrun, hended, hexec⟩ := ih hbetween (by
            show i < (s.openers.set i (.migrating rest)).length
            rw [List.length_set]
            exact hlt)
          refine ⟨n + 1, s', result, ?_, hended, ?_⟩
          · rw [List.replicate_succ, Transition.run]
            have hstep : s.step (.advance i) = some between := by
              simp only [step, h, Option.bind_some, advance, hmigrate]
              rfl
            rw [hstep]
            exact hrun
          · rw [applyPending, exec_bind_ok (exec_get _), hmigrate, exec_bind_ok (exec_ofExcept _ _)]
            exact hexec

/-! ### A migration that has been applied -/

/-- The other migrations are refused by a schema that has them. -/
theorem migrate_again {file : StoreFile} (hfile : file.WellFormed) {read : Nat} {migration : Migration}
    (h : migrations[read]? = some migration) (hread : read < file.userVersion) (hnot : read ≠ 4) :
    ∃ error, migration.migrate file = .error error := by
  have hall : ∀ version ∈ List.range (schemaVersion + 1), ∀ read ∈ List.range version, read ≠ 4 →
      (schemaAt version >>= fun schema => Tables.alterAll schema ((migrations.getD read .init).sql)).isOk =
        false := by
    decide +kernel
  have hrefused := hall file.userVersion (List.mem_range.mpr (Nat.lt_succ_of_le hfile.version)) read
    (List.mem_range.mpr hread) hnot
  rw [hfile.schema, List.getD_eq_getElem?_getD, h] at hrefused
  cases halter : Tables.alterAll file.db.schema migration.sql with
  | ok schema =>
      have hok : (Tables.alterAll file.db.schema migration.sql).isOk = false := hrefused
      rw [halter] at hok
      cases hok
  | error error =>
      refine ⟨.migration migration.version migration.name error, ?_⟩
      unfold Migration.migrate
      rw [Tables.Database.execBatch_error halter]

/-! ### What a step does -/

/-- What one step of a call does: the version is read, a migration is committed, or the call ends. -/
inductive Advances (s : SharedFile) (i : Nat) (s' : SharedFile) : Prop where
  | read (old : Opener) (pending : List Migration) (hopener : s.openers[i]? = some old)
      (hpending : pendingMigrations s.file.userVersion = .ok pending)
      (hnext : s' = { s with openers := s.openers.set i (.migrating pending) })
  | tooNew (error : StoreError) (hpending : pendingMigrations s.file.userVersion = .error error)
  | finished (hopener : s.openers[i]? = some (.migrating []))
      (hnext : s' = { s with openers := s.openers.set i (.ended (.ok ())) })
  | refused (migration : Migration) (rest : List Migration) (error : StoreError)
      (hopener : s.openers[i]? = some (.migrating (migration :: rest)))
      (hmigrate : migration.migrate s.file = .error error)
      (hnext : s' = { s with openers := s.openers.set i (.ended (.error error)) })
  | committed (migration : Migration) (rest : List Migration) (next : StoreFile)
      (hopener : s.openers[i]? = some (.migrating (migration :: rest)))
      (hmigrate : migration.migrate s.file = .ok next)
      (hnext : s' = ⟨next, s.openers.set i (.migrating rest), s.applied ++ [migration.version]⟩)

theorem advances_of_step {s s' : SharedFile} {i : Nat} (h : s.step (.advance i) = some s') :
    Advances s i s' := by
  obtain ⟨opener, hopener, h⟩ := Option.bind_eq_some_iff.mp h
  cases opener with
  | reading =>
      cases hpending : pendingMigrations s.file.userVersion with
      | error error => exact .tooNew error hpending
      | ok pending =>
          simp only [advance, hpending, Option.some.injEq] at h
          exact .read .reading pending hopener hpending h.symm
  | migrating pending =>
      cases pending with
      | nil =>
          simp only [advance, Option.some.injEq] at h
          exact .finished hopener h.symm
      | cons migration rest =>
          cases hmigrate : migration.migrate s.file with
          | error error =>
              simp only [advance, hmigrate, Option.some.injEq] at h
              exact .refused migration rest error hopener hmigrate h.symm
          | ok next =>
              simp only [advance, hmigrate, Option.some.injEq] at h
              exact .committed migration rest next hopener hmigrate h.symm
  | ended result => cases h
  | stopped => cases h

/-! ### The invariant -/

structure Inv (s : SharedFile) : Prop where
  file : s.file.WellFormed
  applied : s.applied = (migrations.take s.file.userVersion).map (·.version)
  /-- A call has found a version that the database has had. -/
  pending : ∀ pending, Opener.migrating pending ∈ s.openers →
    ∃ read ≤ s.file.userVersion, pending = migrations.drop read
  /-- A call goes on where the database is. -/
  leads : s.openers ≠ [] → Opener.stopped ∉ s.openers → s.file.userVersion < schemaVersion →
    .reading ∈ s.openers ∨ .migrating (migrations.drop s.file.userVersion) ∈ s.openers

theorem mem_set_of_ne {α : Type} {xs : List α} {i : Nat} {x old new : α} (hx : x ∈ xs)
    (hold : xs[i]? = some old) (hne : x ≠ old) : x ∈ xs.set i new := by
  obtain ⟨j, hj⟩ := List.mem_iff_getElem?.mp hx
  have hij : i ≠ j := by
    rintro rfl
    rw [hold, Option.some.injEq] at hj
    exact hne hj.symm
  rw [List.mem_iff_getElem?]
  exact ⟨j, by rw [List.getElem?_set_ne hij, hj]⟩

theorem head_of_drop {read : Nat} {migration : Migration} {rest : List Migration}
    (h : migration :: rest = migrations.drop read) :
    migrations[read]? = some migration ∧ rest = migrations.drop (read + 1) := by
  refine ⟨?_, ?_⟩
  · rw [← List.head?_drop, ← h, List.head?_cons]
  · rw [← List.drop_drop, ← h]
    rfl

/-- A migration that a call performs is the next one of the database. -/
theorem Inv.next {s : SharedFile} (hinv : s.Inv) {i : Nat} (hok : s.swapsOnce (.advance i) = true)
    {migration : Migration} {rest : List Migration} {next : StoreFile}
    (hopener : s.openers[i]? = some (.migrating (migration :: rest)))
    (hmigrate : migration.migrate s.file = .ok next) :
    migrations[s.file.userVersion]? = some migration ∧
      rest = migrations.drop (s.file.userVersion + 1) := by
  obtain ⟨read, hread, hdrop⟩ := hinv.pending _ (List.mem_of_getElem? hopener)
  obtain ⟨hat, hrest⟩ := head_of_drop hdrop
  rcases Nat.lt_or_eq_of_le hread with hlt | rfl
  · by_cases hfive : read = 4
    · obtain ⟨-, hversion⟩ := version_of_getElem hat
      have hbefore := version_lt_of_swapsOnce hok hopener (by rw [hversion, hfive])
      omega
    · obtain ⟨error, herror⟩ := migrate_again hinv.file hat hlt hfive
      rw [herror] at hmigrate
      cases hmigrate
  · exact ⟨hat, hrest⟩

theorem Inv.start {file : StoreFile} (hfile : file.WellFormed) : (start file).Inv where
  file := hfile
  applied := rfl
  pending := fun _ h => absurd h List.not_mem_nil
  leads := fun h => absurd rfl h

/-- A step of one call that leaves the file alone: the call goes on where the database is, is stopped, or
was not the one that does. -/
theorem Inv.changed {s : SharedFile} (hinv : s.Inv) {i : Nat} {old new : Opener}
    (hopener : s.openers[i]? = some old)
    (hpending : ∀ pending, new = .migrating pending →
      ∃ read ≤ s.file.userVersion, pending = migrations.drop read)
    (hleads : s.file.userVersion < schemaVersion →
      new = .migrating (migrations.drop s.file.userVersion) ∨ new = .stopped ∨
        old ≠ .stopped ∧ old ≠ .reading ∧ old ≠ .migrating (migrations.drop s.file.userVersion)) :
    Inv { s with openers := s.openers.set i new } where
  file := hinv.file
  applied := hinv.applied
  pending := by
    intro pending h
    rcases List.mem_or_eq_of_mem_set h with hmem | heq
    · exact hinv.pending pending hmem
    · exact hpending pending heq.symm
  leads := by
    intro _ hstopped hlt
    have hnew : new ∈ s.openers.set i new :=
      List.mem_set (List.getElem?_eq_some_iff.mp hopener).1 new
    rcases hleads hlt with rfl | rfl | ⟨hstop, hreading, hmigrating⟩
    · exact .inr hnew
    · exact absurd hnew hstopped
    · have hbefore : Opener.stopped ∉ s.openers := fun h =>
        hstopped (mem_set_of_ne h hopener hstop.symm)
      rcases hinv.leads (List.ne_nil_of_mem (List.mem_of_getElem? hopener)) hbefore hlt with h | h
      · exact .inl (mem_set_of_ne h hopener hreading.symm)
      · exact .inr (mem_set_of_ne h hopener hmigrating.symm)

theorem Inv.advance {s s' : SharedFile} {i : Nat} (hinv : s.Inv) (hok : s.swapsOnce (.advance i) = true)
    (h : Advances s i s') : s'.Inv := by
  cases h with
  | read old pending hopener hpending hnext =>
      rw [pendingMigrations_eq hinv.file.version, Except.ok.injEq] at hpending
      subst hnext hpending
      refine hinv.changed hopener ?_ fun _ => .inl rfl
      intro pending heq
      cases heq
      exact ⟨_, Nat.le_refl _, rfl⟩
  | tooNew error hpending =>
      rw [pendingMigrations_eq hinv.file.version] at hpending
      cases hpending
  | finished hopener hnext =>
      subst hnext
      refine hinv.changed hopener (fun _ heq => by cases heq) fun hlt => .inr (.inr ⟨?_, ?_, ?_⟩)
      · exact fun heq => by cases heq
      · exact fun heq => by cases heq
      · intro heq
        have hall := List.drop_eq_nil_iff.mp (Opener.migrating.inj heq).symm
        exact absurd hlt (Nat.not_lt.mpr hall)
  | refused migration rest error hopener hmigrate hnext =>
      subst hnext
      refine hinv.changed hopener (fun _ heq => by cases heq) fun hlt => .inr (.inr ⟨?_, ?_, ?_⟩)
      · exact fun heq => by cases heq
      · exact fun heq => by cases heq
      · intro heq
        obtain ⟨hat, -⟩ := head_of_drop (Opener.migrating.inj heq)
        obtain ⟨next, hnext, -⟩ := Migration.migrate_ok hinv.file hat
        rw [hmigrate] at hnext
        cases hnext
  | committed migration rest next hopener hmigrate hnext =>
      obtain ⟨hat, hrest⟩ := hinv.next hok hopener hmigrate
      obtain ⟨next', hnext', hfile, hversion, -⟩ := Migration.migrate_ok hinv.file hat
      rw [hmigrate, Except.ok.injEq] at hnext'
      subst hnext hnext'
      exact {
        file := hfile
        applied := by
          show s.applied ++ [migration.version] = _
          rw [hinv.applied, hversion, List.take_add_one, hat, List.map_append]
          rfl
        pending := by
          intro pending h
          dsimp only
          rw [hversion]
          rcases List.mem_or_eq_of_mem_set h with hmem | heq
          · obtain ⟨read, hread, hdrop⟩ := hinv.pending pending hmem
            exact ⟨read, Nat.le_succ_of_le hread, hdrop⟩
          · cases heq
            exact ⟨_, Nat.le_refl _, hrest⟩
        leads := by
          intro _ _ _
          dsimp only
          rw [hversion, ← hrest]
          exact .inr (List.mem_set (List.getElem?_eq_some_iff.mp hopener).1 _) }

theorem Inv.step {s s' : SharedFile} {event : Event} (hinv : s.Inv) (hok : s.swapsOnce event = true)
    (hstep : s.step event = some s') : s'.Inv := by
  cases event with
  | call =>
      cases hstep
      exact {
        file := hinv.file
        applied := hinv.applied
        pending := by
          intro pending h
          rcases List.mem_append.mp h with hmem | hnew
          · exact hinv.pending pending hmem
          · cases List.mem_singleton.mp hnew
        leads := fun _ _ _ => .inl (List.mem_append_right _ List.mem_cons_self) }
  | advance i => exact hinv.advance hok (advances_of_step hstep)
  | stop i =>
      unfold SharedFile.step at hstep
      dsimp only at hstep
      split at hstep
      · rename_i hlt
        cases hstep
        exact hinv.changed (List.getElem?_eq_getElem hlt) (fun _ heq => by cases heq) fun _ => .inr (.inl rfl)
      · cases hstep
  | write db =>
      unfold SharedFile.step at hstep
      dsimp only at hstep
      split at hstep
      · rename_i hschema
        cases hstep
        exact {
          file := ⟨hinv.file.version, by rw [hschema]; exact hinv.file.schema⟩
          applied := hinv.applied
          pending := hinv.pending
          leads := hinv.leads }
      · cases hstep

theorem applied_nodup (version : Nat) : ((migrations.take version).map (·.version)).Nodup := by
  have hall : (migrations.map (·.version)).Nodup := by decide
  rw [List.map_take]
  exact hall.sublist (List.take_sublist _ _)

/-- What a step of a call, or the beginning of one, does to the file. -/
theorem Inv.migrated {s s' : SharedFile} {event : Event} (hinv : s.Inv) (hok : s.swapsOnce event = true)
    (hstep : s.step event = some s') (hopens : ∀ db, event ≠ .write db) : s.file.Migrated s'.file := by
  cases event with
  | call =>
      cases hstep
      exact .refl _
  | advance i =>
      cases advances_of_step hstep with
      | read old pending hopener hpending hnext =>
          subst hnext
          exact .refl _
      | tooNew error hpending =>
          rw [pendingMigrations_eq hinv.file.version] at hpending
          cases hpending
      | finished hopener hnext =>
          subst hnext
          exact .refl _
      | refused migration rest error hopener hmigrate hnext =>
          subst hnext
          exact .refl _
      | committed migration rest next hopener hmigrate hnext =>
          obtain ⟨hat, -⟩ := hinv.next hok hopener hmigrate
          obtain ⟨next', hnext', -, -, hmigrated⟩ := Migration.migrated hinv.file hat
          rw [hmigrate, Except.ok.injEq] at hnext'
          subst hnext hnext'
          exact hmigrated
  | stop i =>
      unfold SharedFile.step at hstep
      dsimp only at hstep
      split at hstep
      · cases hstep
        exact .refl _
      · cases hstep
  | write db => exact absurd rfl (hopens db)

/-- Once migration 5 has taken effect, the migrations of a file leave the rotation classes alone. -/
theorem rotation_of_migrated {before after : StoreFile} (h : before.Migrated after)
    (hversion : 5 ≤ before.userVersion) :
    List.Forall₂ (fun row next => Row.get next "rotation" = Row.get row "rotation")
      (before.db.rows "secrets") (after.db.rows "secrets") := by
  refine h.secrets.imp fun row next hkept => ?_
  have hcrossed : (decide (before.userVersion < 5) && decide (5 ≤ after.userVersion)) = false := by
    rw [Bool.and_eq_false_imp, decide_eq_true_eq]
    intro hlt
    omega
  rw [hkept.rotation, hcrossed]
  exact Option.map_id_apply

theorem Inv.version_of_allEnded {s : SharedFile} (hinv : s.Inv) (hsome : s.openers ≠ [])
    (hended : s.AllEnded) : s.file.userVersion = schemaVersion := by
  have hnot : ∀ opener ∈ s.openers, opener ≠ .stopped ∧ opener ≠ .reading ∧
      ∀ pending, opener ≠ .migrating pending := by
    intro opener hopener
    obtain ⟨result, rfl⟩ := hended opener hopener
    exact ⟨by simp, by simp, by simp⟩
  by_contra hne
  have hlt : s.file.userVersion < schemaVersion := Nat.lt_of_le_of_ne hinv.file.version hne
  rcases hinv.leads hsome (fun h => (hnot _ h).1 rfl) hlt with h | h
  · exact (hnot _ h).2.1 rfl
  · exact (hnot _ h).2.2 _ rfl

/-- Of any number of calls, as long as none of them applies migration 5 to a database that has it: every
migration takes effect once, the version never decreases, no class set after the upgrade is reset, the
calls end at the schema of this build, and a further call succeeds. -/
theorem openers_migrate_once {file : StoreFile} (hfile : file.WellFormed) {s : SharedFile}
    (hs : Transition.Reachable (· = start file) step (fun s event => s.swapsOnce event = true) s) :
    s.applied.Nodup ∧
      (∀ event s', s.swapsOnce event = true → s.step event = some s' →
        s.file.userVersion ≤ s'.file.userVersion ∧
          ((∀ db, event ≠ .write db) → 5 ≤ s.file.userVersion →
            List.Forall₂ (fun row next => Row.get next "rotation" = Row.get row "rotation")
              (s.file.db.rows "secrets") (s'.file.db.rows "secrets"))) ∧
      (s.openers ≠ [] → s.AllEnded →
        s.file.userVersion = schemaVersion ∧ exec applyMigrations s.file = (.ok (), s.file)) ∧
      ∃ file', exec applyMigrations s.file = (.ok (), file') ∧ file'.userVersion = schemaVersion := by
  have hinv : s.Inv := by
    induction hs with
    | start hs =>
        subst hs
        exact .start hfile
    | next _ hok hstep ih => exact ih.step hok hstep
  refine ⟨?_, ?_, ?_, ?_⟩
  · rw [hinv.applied]
    exact applied_nodup _
  · intro event s' hok hstep
    by_cases hwrite : ∃ db, event = .write db
    · obtain ⟨db, rfl⟩ := hwrite
      refine ⟨?_, fun hopens => absurd rfl (hopens db)⟩
      unfold step at hstep
      dsimp only at hstep
      split at hstep
      · cases hstep
        exact Nat.le_refl _
      · cases hstep
    · have hopens : ∀ db, event ≠ .write db := fun db heq => hwrite ⟨db, heq⟩
      have hmigrated := hinv.migrated hok hstep hopens
      exact ⟨hmigrated.version, fun _ => rotation_of_migrated hmigrated⟩
  · intro hsome hended
    have hversion := hinv.version_of_allEnded hsome hended
    refine ⟨hversion, ?_⟩
    rw [exec_applyMigrations hinv.file.version, hversion]
    rfl
  · obtain ⟨file', hexec, -, hversion, -⟩ := applyPending_keeps hinv.file rfl
    refine ⟨file', ?_, hversion⟩
    rw [exec_applyMigrations hinv.file.version]
    exact hexec

end SharedFile

namespace Sample

open SharedFile (Event)

/-- Two calls: the second looks at the version after the first one has applied migration 5, and the first
one applies migration 6 last. -/
def openersInTurn : List Event :=
  [.call, .advance 0, .advance 0, .call, .advance 1, .advance 0]

theorem openers_migrate_once_after_five :
    ∃ s : SharedFile, s.file.userVersion = schemaVersion ∧ s.openers.length = 2 ∧ s.applied.Nodup ∧
      ∃ file', exec applyMigrations s.file = (.ok (), file') ∧ file'.userVersion = schemaVersion := by
  have hrun : (Transition.run SharedFile.step (.start versionFour) openersInTurn).map
      (fun s => (s.file.userVersion, s.openers.length)) = some (schemaVersion, 2) := by
    decide +kernel
  obtain ⟨s, hs, hfacts⟩ := Option.map_eq_some_iff.mp hrun
  obtain ⟨hversion, hopeners⟩ := Prod.mk.inj hfacts
  have hreachable : Transition.Reachable (· = SharedFile.start versionFour) SharedFile.step
      (fun s event => s.swapsOnce event = true) s :=
    Transition.reachable_of_run openersInTurn (.start rfl) (by decide +kernel) hs
  have h := SharedFile.openers_migrate_once versionFour_wellFormed hreachable
  exact ⟨s, hversion, hopeners, h.1, h.2.2.2⟩

/-- The contents of the upgraded database after the class of its secret has been set. -/
def reclassified : Tables.Database Cell where
  schema := ((schemaAt 6).toOption).getD emptySchema
  rows := fun table =>
    if table = "secrets" then
      [[("id", .integer 7), ("path", .text "prod/db"), ("current_version", .integer 2),
        ("created_at", .integer 100), ("updated_at", .integer 300), ("rotation", .text "rotatable"),
        ("honeypot_tier", .null)]]
    else []
  fits := by
    intro table row hrow
    by_cases htable : table = "secrets"
    · rw [if_pos htable, List.mem_singleton] at hrow
      subst hrow htable
      exact ⟨⟨["id", "path", "current_version", "created_at", "updated_at", "rotation",
        "honeypot_tier"], ["id", "path"]⟩, by decide +kernel, by decide⟩
    · rw [if_neg htable] at hrow
      cases hrow

/-- Two calls read version 4; the first upgrades the database, and the class of a secret is set. -/
def twoOpeners : List Event :=
  [.call, .call, .advance 0, .advance 1, .advance 0, .advance 0, .advance 0, .write reclassified]

def classes (s : SharedFile) : List (Option Cell) := (s.file.db.rows "secrets").map (Row.get · "rotation")

/-- The migration that a call has failed in. -/
def failedIn : Except StoreError Unit → Option (Nat × String)
  | .error (.migration version _ source) => some (version, source)
  | _ => none

/-- The second call then applies migration 5 once more, and every further call fails. -/
theorem migration_five_applied_again :
    ((Transition.run SharedFile.step (.start versionFour) twoOpeners).map fun s =>
        (s.file.userVersion, classes s)) = some (6, [some (.text "rotatable")]) ∧
      ((Transition.run SharedFile.step (.start versionFour) (twoOpeners ++ [.advance 1])).map fun s =>
        (s.file.userVersion, s.applied, classes s)) =
          some (5, [1, 2, 3, 4, 5, 6, 5], [some (.text "unclassified")]) ∧
      ((Transition.run SharedFile.step (.start versionFour)
          (twoOpeners ++ [.advance 1, .advance 1])).map fun s =>
        (s.file.userVersion, failedIn (exec applyMigrations s.file).1)) =
          some (5, some (6, "duplicate column name: honeypot_tier")) := by
  refine ⟨?_, ?_, ?_⟩
  · decide +kernel
  · decide +kernel
  · decide +kernel

end Sample

end Ciphr
