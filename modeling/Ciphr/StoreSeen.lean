import Ciphr.LibAlike
import Ciphr.StoreSubtree

/-!
What the tables hold of one path, without the numbers of the rows, which depend on every other path.
Each operation of the store on a path is decided by what is seen there, and changes nothing that is
seen anywhere else.
-/

namespace Ciphr

open Program
open Script (Related related_refl)

/-! ### What is seen of a path -/

def SecretRow.unnumbered (row : SecretRow) : SecretRow := { row with id := 0 }

def VersionRow.unnumbered (row : VersionRow) : VersionRow := { row with secretId := 0 }

/-- The row of a path and those of its versions, without their numbers. -/
structure SeenSecret where
  row : SecretRow
  versions : List VersionRow
  deriving DecidableEq

def StoreOp.path {u : Unicode} : StoreOp u → SecretPath u
  | .secret op => op.path
  | .setHoneypot path _ => path

/-- The tables that an operation leaves. -/
def StoreOp.perform {u : Unicode} (fault : SecretFault) (t : SecretTables) : StoreOp u → SecretTables
  | .secret op => (op.perform fault t).2
  | .setHoneypot path tier => (exec (SecretTables.setHoneypot fault path tier) t).2

namespace SecretTables

def seen (t : SecretTables) (path : String) : Option SeenSecret :=
  (t.secrets.find? (·.path == path)).map fun row =>
    ⟨row.unnumbered, (t.versionsOf row.id).map VersionRow.unnumbered⟩

variable {u : Unicode} {t t' : SecretTables} {fault : SecretFault} {path : SecretPath u}
  {produced : List (Produced u)}

/-- Two rows of a path of which the same is seen. -/
structure SameRow (t t' : SecretTables) (row row' : SecretRow) : Prop where
  rows : row.unnumbered = row'.unnumbered
  versions : (t.versionsOf row.id).map VersionRow.unnumbered =
    (t'.versionsOf row'.id).map VersionRow.unnumbered

theorem seen_cases {text : String} (h : t.seen text = t'.seen text) :
    (t.secrets.find? (·.path == text) = none ∧ t'.secrets.find? (·.path == text) = none) ∨
      ∃ row row', t.secrets.find? (·.path == text) = some row ∧
        t'.secrets.find? (·.path == text) = some row' ∧ SameRow t t' row row' := by
  unfold seen at h
  cases hone : t.secrets.find? (·.path == text) with
  | none =>
      rw [hone, Option.map_none, eq_comm, Option.map_eq_none_iff] at h
      exact .inl ⟨rfl, h⟩
  | some row =>
      rw [hone, Option.map_some, eq_comm, Option.map_eq_some_iff] at h
      obtain ⟨row', hother, hsame⟩ := h
      rw [SeenSecret.mk.injEq] at hsame
      exact .inr ⟨row, row', rfl, hother, ⟨hsame.1.symm, hsame.2.symm⟩⟩

theorem Sound.seen_eq (h : Sound t produced) {row : SecretRow} (hrow : row ∈ t.secrets)
    (hpath : row.path = path.text) :
    t.seen path.text = some ⟨row.unnumbered, (t.versionsOf row.id).map VersionRow.unnumbered⟩ := by
  unfold seen
  rw [h.find?_eq hrow hpath]
  rfl

/-! ### Reads -/

/-- What is known of a secret that was found in either table. -/
def SameFound (t t' : SecretTables) (found found' : Nat × UInt32 × Rotation) : Prop :=
  found.2 = found'.2 ∧ (t.versionsOf found.1).map VersionRow.unnumbered =
    (t'.versionsOf found'.1).map VersionRow.unnumbered

theorem related_requireSecret (h : t.seen path.text = t'.seen path.text) :
    Related (SameFound t t') (t.requireSecret fault path) (t'.requireSecret fault path) := by
  unfold requireSecret secretId
  cases answer fault .selectSecret with
  | error error => rfl
  | ok =>
      rcases seen_cases h with ⟨hnone, hnone'⟩ | ⟨row, row', hrow, hrow', hsame⟩
      · simp only [bind, Except.bind, hnone, hnone']
        rfl
      · simp only [bind, Except.bind, hrow, hrow']
        injection hsame.rows with _ _ hcurrent hrotation
        rw [hcurrent, hrotation]
        cases u32TryFrom row'.currentVersion with
        | none => rfl
        | some current =>
            cases (Rotation.parse row'.rotation).mapError StoreError.rotation with
            | error error => rfl
            | ok rotation => exact ⟨rfl, hsame.versions⟩

theorem versionRow_unnumbered (t : SecretTables) (secretId : Nat) (version : SecretVersion) :
    (t.versionRow secretId version).map VersionRow.unnumbered =
      ((t.versionsOf secretId).map VersionRow.unnumbered).find? (·.version == (version.number : Int)) := by
  unfold versionRow versionsOf
  rw [List.find?_map, List.find?_filter]
  congr 2
  funext row
  rw [Bool.eq_iff_iff, decide_eq_true_eq]
  exact Bool.and_eq_true_iff

/-- A version that was looked up in either table. -/
theorem versionRow_cases {secretId secretId' : Nat}
    (h : (t.versionsOf secretId).map VersionRow.unnumbered =
      (t'.versionsOf secretId').map VersionRow.unnumbered) (version : SecretVersion) :
    (t.versionRow secretId version = none ∧ t'.versionRow secretId' version = none) ∨
      ∃ v v', t.versionRow secretId version = some v ∧ t'.versionRow secretId' version = some v' ∧
        v.unnumbered = v'.unnumbered := by
  have hsame : (t.versionRow secretId version).map VersionRow.unnumbered =
      (t'.versionRow secretId' version).map VersionRow.unnumbered := by
    rw [versionRow_unnumbered, h, versionRow_unnumbered]
  cases hone : t.versionRow secretId version with
  | none =>
      rw [hone, Option.map_none, eq_comm, Option.map_eq_none_iff] at hsame
      exact .inl ⟨rfl, hsame⟩
  | some v =>
      rw [hone, Option.map_some, eq_comm, Option.map_eq_some_iff] at hsame
      obtain ⟨v', hother, hv⟩ := hsame
      exact .inr ⟨v, v', rfl, hother, hv.symm⟩

theorem get_seen (h : t.seen path.text = t'.seen path.text) (version : Option SecretVersion) :
    t.get fault path version = t'.get fault path version := by
  refine Related.eq ?_
  unfold get
  refine (related_requireSecret h).bind fun found found' hfound => ?_
  obtain ⟨secretId, current, rotation⟩ := found
  obtain ⟨secretId', current', rotation'⟩ := found'
  obtain ⟨hsame, hversions⟩ := hfound
  cases hsame
  refine (related_refl _).bind fun wanted _ hwanted => ?_
  subst hwanted
  refine (related_refl _).bind fun _ _ _ => ?_
  rcases versionRow_cases hversions wanted with ⟨hnone, hnone'⟩ | ⟨v, v', hv, hv', hrow⟩
  · rw [hnone, hnone']
    rfl
  · rw [hv, hv']
    injection hrow with _ _ hdek hdekNonce hwrapped hnonce hciphertext hcreated hby hdeleted hdestroyed
    dsimp only
    rw [hdek, hdekNonce, hwrapped, hnonce, hciphertext, hcreated, hby, hdeleted, hdestroyed]
    exact related_refl _

theorem versionExists_seen {secretId secretId' : Nat}
    (h : (t.versionsOf secretId).map VersionRow.unnumbered =
      (t'.versionsOf secretId').map VersionRow.unnumbered) (version : SecretVersion) :
    t.versionExists fault path secretId version = t'.versionExists fault path secretId' version := by
  unfold versionExists
  rcases versionRow_cases h version with ⟨hnone, hnone'⟩ | ⟨v, v', hv, hv', hrow⟩
  · rw [hnone, hnone']
  · rw [hv, hv']
    have hdestroyed := congrArg VersionRow.destroyedAt hrow
    change v.destroyedAt = v'.destroyedAt at hdestroyed
    dsimp only
    rw [hdestroyed]

theorem metadata_seen (h : t.seen path.text = t'.seen path.text) :
    t.metadata fault path = t'.metadata fault path := by
  refine Related.eq ?_
  unfold metadata
  refine (related_requireSecret h).bind fun found found' hfound => ?_
  obtain ⟨secretId, current, rotation⟩ := found
  obtain ⟨secretId', current', rotation'⟩ := found'
  obtain ⟨hsame, -⟩ := hfound
  cases hsame
  refine (related_refl _).bind fun _ _ _ => ?_
  rcases seen_cases h with ⟨hnone, hnone'⟩ | ⟨row, row', hrow, hrow', hrows⟩
  · rw [hnone, hnone']
    rfl
  · rw [hrow, hrow']
    injection hrows.rows with _ _ _ _ hcreated hupdated
    dsimp only
    rw [hcreated, hupdated]
    exact related_refl _

theorem versionSummaries_seen (h : t.seen path.text = t'.seen path.text) :
    t.versionSummaries fault path = t'.versionSummaries fault path := by
  have hsorted : ∀ (t : SecretTables) (secretId : Nat),
      (((t.versions.filter (·.secretId == secretId)).insertionSort
        fun row other => row.version ≤ other.version).mapM (summarize path)) =
      (((t.versionsOf secretId).map VersionRow.unnumbered).insertionSort
        fun row other => row.version ≤ other.version).mapM (summarize path) := by
    intro t secretId
    rw [← List.map_insertionSort (fun row other : VersionRow => row.version ≤ other.version),
      List.mapM_map]
    · rfl
    · intro row _ other _
      exact Iff.rfl
  refine Related.eq ?_
  unfold versionSummaries
  refine (related_requireSecret h).bind fun found found' hfound => ?_
  obtain ⟨-, hversions⟩ := hfound
  refine (related_refl _).bind fun _ _ _ => ?_
  rw [hsorted, hsorted, hversions]
  exact related_refl _

theorem honeypotTier_seen (h : t.seen path.text = t'.seen path.text) :
    t.honeypotTier fault path = t'.honeypotTier fault path := by
  unfold honeypotTier
  rcases seen_cases h with ⟨hnone, hnone'⟩ | ⟨row, row', hrow, hrow', hrows⟩
  · rw [hnone, hnone']
  · rw [hrow, hrow']
    injection hrows.rows with _ _ _ _ _ _ htier
    dsimp only [Option.bind]
    rw [htier]

/-! ### What decides a write -/

theorem fst_ofExcept_bind {σ ε α β : Type} (result : Except ε α) (f : α → Program σ ε β) (s : σ) :
    (exec (Program.ofExcept result >>= f) s).1 = result >>= fun a => (exec (f a) s).1 := by
  cases result with
  | error e => rw [exec_bind_error (exec_ofExcept _ _)]; rfl
  | ok a => rw [exec_bind_ok (exec_ofExcept _ _)]; rfl

/-- What follows a program, where it comes to the same in every state. -/
theorem fst_bind {σ ε α β : Type} {p : Program σ ε α} {f : α → Program σ ε β} {g : α → Except ε β}
    (h : ∀ a s, (exec (f a) s).1 = g a) (s : σ) : (exec (p >>= f) s).1 = (exec p s).1 >>= g := by
  rw [exec_bind]
  cases exec p s with
  | mk result s' =>
      cases result with
      | error e => rfl
      | ok a => exact h a s'

theorem fst_transaction {σ ε α : Type} (p : Program σ ε α) (s : σ) :
    (exec (Program.transaction p) s).1 = (exec p s).1 := by
  rcases exec_transaction p s with ⟨e, s', hp, htx⟩ | ⟨a, s', hp, htx⟩
  · rw [hp, htx]
  · rw [hp, htx]

/-- What a `put` comes to that has found the row, or made it. -/
def versionDecision (fault : SecretFault) (path : SecretPath u) (encrypt : EncryptForVersion)
    (current : Int) : Except StoreError SecretVersion := do
  let next ← nextVersion path current
  let _ ← (encrypt next).mapError fun error => StoreError.crypto error.text
  answer fault .insertVersion
  answer fault .updateSecret
  return next

/-- What a `put` comes to that has to find the row, or to make it. -/
def insertDecision (fault : SecretFault) : Option Int → Except StoreError Unit
  | some _ => .ok ()
  | none => answer fault .insertSecret

/-- What a `put` comes to: the version that is current is all that it goes by. -/
def putDecision (fault : SecretFault) (path : SecretPath u) (encrypt : EncryptForVersion)
    (current : Option Int) : Except StoreError SecretVersion := do
  rejectReserved path
  answer fault .beginTransaction
  answer fault .selectSecret
  insertDecision fault current
  let next ← versionDecision fault path encrypt (current.getD 0)
  answer fault .commit
  return next

theorem exec_insertVersion (fault : SecretFault) {row : VersionRow}
    (hnew : ∀ v ∈ t.versionsOf row.secretId, v.version ≠ row.version)
    (hrow : ∃ secret ∈ t.secrets, secret.id = row.secretId) :
    exec (insertVersion fault row) t = match answer fault .insertVersion with
      | .error e => (.error e, t)
      | .ok () => (.ok (), { t with versions := t.versions ++ [row] }) := by
  unfold insertVersion
  cases hanswer : answer fault .insertVersion with
  | error e => exact exec_bind_error (exec_ofExcept _ _)
  | ok =>
      have hunique : t.versions.any (fun other => other.secretId == row.secretId &&
          other.version == row.version) = false := by
        rw [List.any_eq_false]
        intro v hv hmeets
        rw [Bool.and_eq_true, beq_iff_eq, beq_iff_eq] at hmeets
        exact hnew v (List.mem_filter.mpr ⟨hv, beq_iff_eq.mpr hmeets.1⟩) hmeets.2
      have hforeign : t.secrets.any (·.id == row.secretId) = true := by
        obtain ⟨secret, hsecret, hid⟩ := hrow
        exact List.any_eq_true.mpr ⟨secret, hsecret, beq_iff_eq.mpr hid⟩
      rw [exec_bind_ok (exec_ofExcept _ _), exec_bind_ok (exec_getThe _), hunique, hforeign]
      rfl

theorem fst_updateSecrets_bind {α : Type} {cond : SecretRow → Bool} {set : SecretRow → SecretRow} (a : α)
    (t : SecretTables) :
    (exec (updateSecrets fault cond set >>= fun _ => pure a : Statement α) t).1 =
      (answer fault .updateSecret >>= fun _ => .ok a) := by
  unfold updateSecrets
  cases answer fault .updateSecret with
  | error e => rfl
  | ok => rfl

/-- A `put` after its row was found or made. -/
theorem fst_putVersion {createdBy : String} {rotation : Option Rotation} {encrypt : EncryptForVersion}
    {now : Int} {secretId : Nat} {current : Int}
    (hnew : ∀ next : SecretVersion, nextVersion path current = .ok next →
      ∀ v ∈ t.versionsOf secretId, v.version ≠ next.number)
    (hrow : ∃ row ∈ t.secrets, row.id = secretId) :
    (exec (do
      let next ← Program.ofExcept (nextVersion path current)
      let value ← Program.ofExcept ((encrypt next).mapError fun error => StoreError.crypto error.text)
      insertVersion fault (newVersion secretId next value createdBy now)
      let _ ← updateSecrets fault (·.id == secretId) (publish next rotation now)
      return next : Statement SecretVersion) t).1 = versionDecision fault path encrypt current := by
  unfold versionDecision
  rw [fst_ofExcept_bind]
  cases hnext : nextVersion path current with
  | error e => rfl
  | ok next =>
      change (exec (Program.ofExcept _ >>= _) t).1 =
        ((encrypt next).mapError fun error => StoreError.crypto error.text) >>= fun _ =>
          answer fault .insertVersion >>= fun _ => answer fault .updateSecret >>= fun _ => .ok next
      rw [fst_ofExcept_bind]
      cases (encrypt next).mapError fun error => StoreError.crypto error.text with
      | error e => rfl
      | ok value =>
          have hmade : ∀ v ∈ t.versionsOf (newVersion secretId next value createdBy now).secretId,
              v.version ≠ (newVersion secretId next value createdBy now).version := hnew next hnext
          have hinsert := exec_insertVersion fault hmade hrow
          change (exec (insertVersion fault _ >>= _) t).1 =
            answer fault .insertVersion >>= fun _ => answer fault .updateSecret >>= fun _ => .ok next
          cases hanswer : answer fault .insertVersion with
          | error e =>
              rw [hanswer] at hinsert
              rw [exec_bind_error hinsert]
              rfl
          | ok =>
              rw [hanswer] at hinsert
              rw [exec_bind_ok hinsert]
              exact fst_updateSecrets_bind next _

theorem versionsOf_freshId (h : Sound t produced) : t.versionsOf t.freshId = [] := by
  unfold versionsOf
  rw [List.filter_eq_nil_iff]
  intro v hv hid
  obtain ⟨p, -, -, row, hrow, -, hrowId⟩ := h.origin v hv
  exact ne_freshId hrow (hrowId.symm.trans (beq_iff_eq.mp hid))

/-- The versions of a secret are those up to the current one. -/
theorem Sound.next_ne (h : Sound t produced) {row : SecretRow} (hrow : row ∈ t.secrets)
    {next : SecretVersion} (hnext : nextVersion path row.currentVersion = .ok next) :
    ∀ v ∈ t.versionsOf row.id, v.version ≠ next.number := by
  intro v hv hsame
  obtain ⟨n, hpos, -, hn, hnumbered⟩ := h.numbered row hrow
  obtain ⟨hv, hid⟩ := List.mem_filter.mp hv
  have hle := (version_mem hv (beq_iff_eq.mp hid) hnumbered).2
  have hnumber := nextVersion_ok (by omega) hnext
  omega

/-- What is known of a `put` before it is done. -/
theorem Sound.fst_putRows (h : Sound t produced) {createdBy : String} {rotation : Option Rotation}
    {encrypt : EncryptForVersion} {now : Int} :
    (exec (putRows fault path createdBy rotation encrypt now) t).1 = (do
      answer fault .selectSecret
      insertDecision fault ((t.seen path.text).map (·.row.currentVersion))
      versionDecision fault path encrypt (((t.seen path.text).map (·.row.currentVersion)).getD 0)) := by
  unfold putRows
  cases hselect : answer fault .selectSecret with
  | error e =>
      have hfound : exec (findOrInsert fault path now) t = (.error e, t) := by
        unfold findOrInsert
        rw [hselect]
        exact exec_bind_error (exec_ofExcept _ _)
      rw [exec_bind_error hfound]
      rfl
  | ok =>
      cases hfind : t.secrets.find? (·.path == path.text) with
      | some row =>
          have hrow := List.mem_of_find?_eq_some hfind
          have hseen : (t.seen path.text).map (·.row.currentVersion) = some row.currentVersion := by
            unfold seen
            rw [hfind]
            rfl
          have hfound : exec (findOrInsert fault path now) t = (.ok (row.id, row.currentVersion), t) := by
            unfold findOrInsert
            rw [hselect, exec_bind_ok (exec_ofExcept _ _), exec_bind_ok (exec_getThe _), hfind]
            rfl
          rw [exec_bind_ok hfound, hseen]
          exact fst_putVersion (fun next hnext => h.next_ne hrow hnext) ⟨row, hrow, rfl⟩
      | none =>
          have hseen : t.seen path.text = none := by
            unfold seen
            rw [hfind]
            rfl
          have hany : t.secrets.any (·.path == path.text) = false := by
            rw [List.any_eq_false]
            exact List.find?_eq_none.mp hfind
          have hinserts : ∀ result, answer fault .insertSecret = result →
              exec (findOrInsert fault path now) t = match result with
                | .error e => (.error e, t)
                | .ok () => (.ok (t.freshId, 0), { t with secrets := t.secrets ++
                    [⟨t.freshId, path.text, 0, Rotation.unclassified.asStr, now, now, none⟩] }) := by
            intro result hresult
            unfold findOrInsert
            rw [hselect, exec_bind_ok (exec_ofExcept _ _), exec_bind_ok (exec_getThe _), hfind]
            unfold insertSecret
            rw [hresult]
            cases result with
            | error e => rfl
            | ok =>
                dsimp only
                rw [exec_bind, exec_bind_ok (exec_ofExcept _ _), exec_bind_ok (exec_getThe _), hany]
                rfl
          rw [hseen]
          change _ = answer fault .insertSecret >>= fun _ => versionDecision fault path encrypt 0
          cases hinsert : answer fault .insertSecret with
          | error e =>
              rw [exec_bind_error (hinserts _ hinsert)]
              rfl
          | ok =>
              rw [exec_bind_ok (hinserts _ hinsert)]
              have hnew : ∀ v ∈ t.versionsOf t.freshId, ∀ next : SecretVersion, v.version ≠ next.number := by
                rw [versionsOf_freshId h]
                exact List.forall_mem_nil _
              exact fst_putVersion (t := { t with secrets := t.secrets ++
                  [⟨t.freshId, path.text, 0, Rotation.unclassified.asStr, now, now, none⟩] })
                (fun next _ v hv => hnew v hv next)
                ⟨_, List.mem_append_right _ (List.mem_singleton_self _), rfl⟩

/-- A `put` is decided by what is seen of the path. -/
theorem Sound.fst_put (h : Sound t produced) {createdBy : String} {rotation : Option Rotation}
    {encrypt : EncryptForVersion} {now : Int} :
    (exec (putWithRotation fault path createdBy rotation encrypt now) t).1 =
      putDecision fault path encrypt ((t.seen path.text).map (·.row.currentVersion)) := by
  unfold putWithRotation putDecision
  rw [fst_ofExcept_bind]
  refine congrArg (Bind.bind (rejectReserved path)) (funext fun _ => ?_)
  rw [fst_transaction, fst_ofExcept_bind]
  refine congrArg (Bind.bind (answer fault .beginTransaction)) (funext fun _ => ?_)
  rw [fst_bind (g := fun next => answer fault .commit >>= fun _ => .ok next), h.fst_putRows]
  · cases answer fault .selectSecret with
    | error e => rfl
    | ok =>
        cases insertDecision fault ((t.seen path.text).map (·.row.currentVersion)) with
        | error e => rfl
        | ok => rfl
  · intro next s
    rw [fst_ofExcept_bind]
    rfl

/-- How many rows a `delete` of a version changes. -/
theorem countP_undeleted (t : SecretTables) (secretId : Nat) (version : SecretVersion) :
    t.versions.countP (undeleted secretId version) =
      ((t.versionsOf secretId).map VersionRow.unnumbered).countP
        fun row => row.version == (version.number : Int) && row.deletedAt.isNone := by
  unfold versionsOf
  rw [List.countP_map, List.countP_filter]
  refine List.countP_congr fun row _ => ?_
  unfold undeleted isVersion
  simp only [Function.comp_apply, VersionRow.unnumbered, Bool.and_eq_true]
  tauto

/-- What a `delete` comes to that has found the row. -/
theorem fst_deleteFound {secretId : Nat} {version : SecretVersion} {now : Int} :
    (exec (do
      let changed ← updateVersions fault (undeleted secretId version) (deletedRow now)
      if changed = 0 then do
        let tables ← getThe SecretTables
        let _ ← Program.ofExcept (tables.versionExists fault path secretId version)
        return ()
      else return () : Statement Unit) t).1 = (do
      answer fault .updateVersion
      if t.versions.countP (undeleted secretId version) = 0 then
        (t.versionExists fault path secretId version).map fun _ => ()
      else .ok ()) := by
  unfold updateVersions
  cases hanswer : answer fault .updateVersion with
  | error e => rfl
  | ok =>
      by_cases hcount : t.versions.countP (undeleted secretId version) = 0
      · change (exec (if t.versions.countP (undeleted secretId version) = 0 then _ else _)
          (t.setVersions (undeleted secretId version) (deletedRow now))).1 = if _ then _ else _
        rw [if_pos hcount, if_pos hcount, setVersions_of_none hcount, exec_bind_ok (exec_getThe _),
          fst_ofExcept_bind]
        cases t.versionExists fault path secretId version with
        | error e => rfl
        | ok destroyed => rfl
      · change (exec (if t.versions.countP (undeleted secretId version) = 0 then _ else _)
          (t.setVersions (undeleted secretId version) (deletedRow now))).1 = if _ then _ else _
        rw [if_neg hcount, if_neg hcount]
        rfl

/-- What a `delete` comes to is decided by what is seen of the path. -/
theorem fst_delete (fault : SecretFault) (h : t.seen path.text = t'.seen path.text)
    (version : SecretVersion) (now : Int) :
    (exec (delete fault path version now) t).1 = (exec (delete fault path version now) t').1 := by
  unfold delete
  rw [fst_ofExcept_bind, fst_ofExcept_bind]
  refine congrArg (Bind.bind (rejectReserved path)) (funext fun _ => ?_)
  rw [exec_bind_ok (exec_getThe _), exec_bind_ok (exec_getThe _), fst_ofExcept_bind, fst_ofExcept_bind]
  refine Related.eq ((related_requireSecret h).bind fun found found' hfound => ?_)
  obtain ⟨-, hversions⟩ := hfound
  rw [fst_deleteFound, fst_deleteFound, countP_undeleted, countP_undeleted, hversions,
    versionExists_seen hversions]
  exact related_refl _

/-! ### What is seen afterwards -/

/-- What is seen of a path when a version was put. -/
def writtenSecret (path : SecretPath u) (rotation : Option Rotation) (now : Int) (next : SecretVersion)
    (version : VersionRow) : Option SeenSecret → SeenSecret
  | none => ⟨publish next rotation now
      ⟨0, path.text, 0, Rotation.unclassified.asStr, now, now, none⟩, [version]⟩
  | some found => ⟨publish next rotation now found.row, found.versions ++ [version]⟩

/-- What is seen of a path when rows of its versions were marked. -/
def SeenSecret.marking (cond : VersionRow → Bool) (set : VersionRow → VersionRow) (found : SeenSecret) :
    SeenSecret :=
  { found with versions := found.versions.map fun row => if cond row then set row else row }

theorem Written.seen (h : Sound t produced) {rotation : Option Rotation} {now : Int}
    {next : SecretVersion} {v : VersionRow} (hwritten : Written path rotation now next t v t')
    {produced' : List (Produced u)} (h' : Sound t' produced') :
    t'.seen path.text = some (writtenSecret path rotation now next v.unnumbered (t.seen path.text)) := by
  cases hwritten with
  | first hnew hid hnext =>
      have hnone : t.seen path.text = none := by
        unfold SecretTables.seen
        rw [List.find?_eq_none.mpr fun row hrow hpath => hnew row hrow (beq_iff_eq.mp hpath)]
        rfl
      rw [hnone, h'.seen_eq (List.mem_append_right _ (List.mem_singleton_self _)) rfl,
        Sound.versionsOf_append]
      change some (SeenSecret.mk _ ((t.versionsOf t.freshId ++ if v.secretId = t.freshId then [v] else []).map
        VersionRow.unnumbered)) = _
      rw [versionsOf_freshId h, if_pos hid]
      rfl
  | later row hrow hpath hid hnext =>
      have hpublished : publish next rotation now row ∈
          (t.setSecrets (·.id == row.id) (publish next rotation now)).secrets := by
        refine List.mem_map.mpr ⟨row, hrow, ?_⟩
        rw [if_pos (beq_self_eq_true _)]
      rw [h.seen_eq hrow hpath, h'.seen_eq hpublished hpath, Sound.versionsOf_append]
      change some (SeenSecret.mk _ ((t.versionsOf row.id ++ if v.secretId = row.id then [v] else []).map
        VersionRow.unnumbered)) = _
      rw [if_pos hid, List.map_append]
      rfl

theorem seen_setVersions (h : Sound t produced) {row : SecretRow} (hrow : row ∈ t.secrets)
    (hpath : row.path = path.text) {cond cond' : VersionRow → Bool} {set : VersionRow → VersionRow}
    (hcond : ∀ v ∈ t.versions, cond v = (v.secretId == row.id && cond' v.unnumbered))
    (hset : ∀ v, (set v).secretId = v.secretId ∧ (set v).unnumbered = set v.unnumbered) :
    (t.setVersions cond set).seen path.text = (t.seen path.text).map (SeenSecret.marking cond' set) := by
  have hversions : ∀ versions : List VersionRow,
      (∀ v ∈ versions, cond v = (v.secretId == row.id && cond' v.unnumbered)) →
      (((versions.map fun v => if cond v then set v else v).filter (·.secretId == row.id)).map
        VersionRow.unnumbered) =
      (((versions.filter (·.secretId == row.id)).map VersionRow.unnumbered).map
        fun v => if cond' v then set v else v) := by
    intro versions hall
    induction versions with
    | nil => rfl
    | cons v versions ih =>
        have hrest := ih fun w hw => hall w (List.mem_cons_of_mem _ hw)
        have hv := hall v List.mem_cons_self
        rw [List.map_cons, List.filter_cons, List.filter_cons]
        by_cases hid : v.secretId = row.id
        · have hkeeps : (if cond v then set v else v).secretId = row.id := by
            split
            · rw [(hset v).1, hid]
            · exact hid
          rw [if_pos (beq_iff_eq.mpr hkeeps), if_pos (beq_iff_eq.mpr hid), List.map_cons, List.map_cons,
            List.map_cons, hrest, hv, beq_iff_eq.mpr hid, Bool.true_and]
          congr 1
          split
          · exact (hset v).2
          · rfl
        · have hnot : cond v = false := by
            rw [hv, beq_eq_false_iff_ne.mpr hid, Bool.false_and]
          rw [hnot, if_neg Bool.false_ne_true, if_neg (by simpa using hid), if_neg (by simpa using hid), hrest]
  unfold SecretTables.seen SecretTables.setVersions
  rw [h.find?_eq hrow hpath]
  exact congrArg some (congrArg (SeenSecret.mk _) (hversions t.versions hcond))

/-- What is seen of a path that an operation does not name. -/
theorem seen_frame {op : SecretOp u} (hframe : SecretOp.Frame t t' op) (h : Sound t produced)
    {produced' : List (Produced u)} (h' : Sound t' produced') (hne : path ≠ op.path) :
    t'.seen path.text = t.seen path.text := by
  have haway : path.text ≠ op.path.text := fun hsame => hne (SecretPath.ext hsame)
  cases hfind : t.secrets.find? (·.path == path.text) with
  | some row =>
      have hrow := List.mem_of_find?_eq_some hfind
      have hpath : row.path = path.text := by simpa using List.find?_some hfind
      obtain ⟨hkept, hversions⟩ := hframe.kept row hrow (hpath ▸ haway)
      rw [h.seen_eq hrow hpath, h'.seen_eq hkept hpath, hversions]
  | none =>
      have hnone : t'.secrets.find? (·.path == path.text) = none := by
        rw [List.find?_eq_none] at hfind ⊢
        intro row hrow hpath
        exact hfind row (hframe.noNew row hrow (beq_iff_eq.mp hpath ▸ haway)) hpath
      unfold seen
      rw [hfind, hnone]
      rfl

/-- What is seen of a secret that was deleted in either table. -/
theorem seen_deleted (h : Sound t produced) {row : SecretRow} (hrow : row ∈ t.secrets)
    (hpath : row.path = path.text) {version : SecretVersion} {now : Int} :
    (t.setVersions (undeleted row.id version) (deletedRow now)).seen path.text =
      (t.seen path.text).map (SeenSecret.marking
        (fun v => v.version == (version.number : Int) && v.deletedAt.isNone) (deletedRow now)) := by
  refine seen_setVersions h hrow hpath (fun v _ => ?_) fun v => ⟨rfl, rfl⟩
  exact Bool.and_assoc ..

/-- A mark of bait is seen at its path, and nowhere else. -/
theorem seen_setHoneypot (fault : SecretFault) (bait : SecretPath u) (tier : Option HoneypotTier)
    (hne : path ≠ bait) : (exec (setHoneypot fault bait tier) t).2.seen path.text = t.seen path.text := by
  have hset : (t.setSecrets (·.path == bait.text) (marked tier)).seen path.text = t.seen path.text := by
    unfold seen setSecrets
    rw [List.find?_map]
    have hsame : ((fun row : SecretRow => row.path == path.text) ∘
        fun row => if row.path == bait.text then marked tier row else row) =
          fun row => row.path == path.text := by
      funext row
      rw [Function.comp_apply]
      split
      · rfl
      · rfl
    rw [hsame]
    cases hfind : t.secrets.find? (·.path == path.text) with
    | none => rfl
    | some row =>
        have hpath : row.path = path.text := by simpa using List.find?_some hfind
        have hother : ¬ (row.path == bait.text) = true := by
          rw [beq_iff_eq, hpath]
          exact fun hsame => hne (SecretPath.ext hsame)
        rw [Option.map_some, if_neg hother]
        rfl
  unfold setHoneypot
  rcases updateSecrets_cases fault t (·.path == bait.text) (marked tier) with ⟨e, herror⟩ | hok
  · rw [exec_bind_error herror]
  · rw [exec_bind_ok hok]
    split
    · exact hset
    · exact hset

/-! ### Tables of which the same is seen -/

/-- Two sound tables of which the same is seen at some paths. -/
structure SeenAlike (V : SecretPath u → Prop) (t t' : SecretTables) : Prop where
  sound : ∃ produced : List (Produced u), Sound t produced
  sound' : ∃ produced : List (Produced u), Sound t' produced
  seen : ∀ path, V path → t.seen path.text = t'.seen path.text

variable {V : SecretPath u → Prop}

theorem SeenAlike.symm (h : SeenAlike V t t') : SeenAlike V t' t :=
  ⟨h.sound', h.sound, fun path hpath => (h.seen path hpath).symm⟩

/-- Something is done to one of the two, apart from what is looked at. -/
theorem SeenAlike.apart (h : SeenAlike V t t') {op : StoreOp u} (haway : ¬ V op.path) :
    SeenAlike V (op.perform fault t) t' := by
  obtain ⟨produced, hsound⟩ := h.sound
  have hne : ∀ path, V path → path ≠ op.path := fun path hpath hsame => haway (hsame ▸ hpath)
  cases op with
  | secret op =>
      have heffect := op.perform_effect fault t
      have hafter := heffect.sound hsound
      refine ⟨⟨_, hafter⟩, h.sound', fun path hpath => ?_⟩
      rw [← h.seen path hpath]
      exact seen_frame (heffect.frame hsound) hsound hafter (hne path hpath)
  | setHoneypot bait tier =>
      have hafter := setHoneypot_sound hsound fault bait tier
      refine ⟨⟨_, hafter⟩, h.sound', fun path hpath => ?_⟩
      rw [← h.seen path hpath]
      exact seen_setHoneypot fault bait tier (hne path hpath)

/-- One operation on both, of which the same is seen where it was done. -/
theorem SeenAlike.both (h : SeenAlike V t t') (op : SecretOp u)
    (hseen : (op.perform fault t).2.seen op.path.text = (op.perform fault t').2.seen op.path.text) :
    SeenAlike V (op.perform fault t).2 (op.perform fault t').2 := by
  obtain ⟨produced, hsound⟩ := h.sound
  obtain ⟨produced', hsound'⟩ := h.sound'
  have heffect := op.perform_effect fault t
  have heffect' := op.perform_effect fault t'
  have hafter := heffect.sound hsound
  have hafter' := heffect'.sound hsound'
  refine ⟨⟨_, hafter⟩, ⟨_, hafter'⟩, fun path hpath => ?_⟩
  by_cases hown : path = op.path
  · rw [hown, hseen]
  · rw [seen_frame (heffect.frame hsound) hsound hafter hown,
      seen_frame (heffect'.frame hsound') hsound' hafter' hown, h.seen path hpath]

/-- A `put` on a path that is looked at has one result, and leaves what is seen alike. -/
theorem SeenAlike.put (h : SeenAlike V t t') (hpath : V path) {createdBy : String}
    {rotation : Option Rotation} {encrypt : EncryptForVersion} {now : Int} :
    (exec (putWithRotation fault path createdBy rotation encrypt now) t).1 =
        (exec (putWithRotation fault path createdBy rotation encrypt now) t').1 ∧
      SeenAlike V (exec (putWithRotation fault path createdBy rotation encrypt now) t).2
        (exec (putWithRotation fault path createdBy rotation encrypt now) t').2 := by
  obtain ⟨produced, hsound⟩ := h.sound
  obtain ⟨produced', hsound'⟩ := h.sound'
  have hresult : (exec (putWithRotation fault path createdBy rotation encrypt now) t).1 =
      (exec (putWithRotation fault path createdBy rotation encrypt now) t').1 := by
    rw [hsound.fst_put, hsound'.fst_put, h.seen path hpath]
  refine ⟨hresult, h.both (.put path createdBy rotation encrypt now) ?_⟩
  change (exec (putWithRotation fault path createdBy rotation encrypt now) t).2.seen path.text =
    (exec (putWithRotation fault path createdBy rotation encrypt now) t').2.seen path.text
  rcases putWithRotation_cases fault t path createdBy rotation encrypt now with
    ⟨e, herror⟩ | ⟨next, after, secretId, value, hfree, hvalue, hdone, hwritten⟩
  · rcases putWithRotation_cases fault t' path createdBy rotation encrypt now with
      ⟨e', herror'⟩ | ⟨next', after', secretId', value', -, -, hdone', -⟩
    · rw [herror, herror']
      exact h.seen path hpath
    · rw [herror, hdone'] at hresult
      cases hresult
  · rcases putWithRotation_cases fault t' path createdBy rotation encrypt now with
      ⟨e', herror'⟩ | ⟨next', after', secretId', value', hfree', hvalue', hdone', hwritten'⟩
    · rw [hdone, herror'] at hresult
      cases hresult
    · rw [hdone, hdone'] at hresult
      cases hresult
      cases hvalue.symm.trans hvalue'
      have heffect : SecretOp.Effect t (.put path createdBy rotation encrypt now) (.ok (.written next)) after :=
        .written path createdBy rotation encrypt now next secretId value after hfree hvalue hwritten
      have heffect' : SecretOp.Effect t' (.put path createdBy rotation encrypt now) (.ok (.written next)) after' :=
        .written path createdBy rotation encrypt now next secretId' value after' hfree hvalue hwritten'
      rw [hdone, hdone']
      change after.seen path.text = after'.seen path.text
      rw [hwritten.seen hsound (heffect.sound hsound), hwritten'.seen hsound' (heffect'.sound hsound'),
        h.seen path hpath]
      rfl

/-- The same of a `delete`. -/
theorem SeenAlike.delete (h : SeenAlike V t t') (hpath : V path) {version : SecretVersion} {now : Int} :
    (exec (delete fault path version now) t).1 = (exec (delete fault path version now) t').1 ∧
      SeenAlike V (exec (delete fault path version now) t).2 (exec (delete fault path version now) t').2 := by
  obtain ⟨produced, hsound⟩ := h.sound
  obtain ⟨produced', hsound'⟩ := h.sound'
  have hresult := fst_delete fault (h.seen path hpath) version now
  refine ⟨hresult, h.both (.delete path version now) ?_⟩
  change (exec (SecretTables.delete fault path version now) t).2.seen path.text =
    (exec (SecretTables.delete fault path version now) t').2.seen path.text
  rcases delete_cases fault t path version now with ⟨e, herror⟩ | ⟨row, hrow, hrowPath, -, hdone⟩
  · rcases delete_cases fault t' path version now with ⟨e', herror'⟩ | ⟨row', hrow', hrowPath', -, hdone'⟩
    · rw [herror, herror']
      exact h.seen path hpath
    · rw [herror, hdone'] at hresult
      cases hresult
  · rcases delete_cases fault t' path version now with ⟨e', herror'⟩ | ⟨row', hrow', hrowPath', -, hdone'⟩
    · rw [hdone, herror'] at hresult
      cases hresult
    · rw [hdone, hdone']
      change (t.setVersions _ _).seen path.text = (t'.setVersions _ _).seen path.text
      rw [seen_deleted hsound hrow hrowPath, seen_deleted hsound' hrow' hrowPath', h.seen path hpath]

/-! ### Listings -/

/-- Two listings that show the same of the paths that are looked at. -/
def SameListed (V : SecretPath u → Prop) (listed listed' : List (ListedSecret u)) : Prop :=
  ∀ keep : ListedSecret u → Bool, (∀ secret, keep secret = true → V secret.path) →
    listed.filter keep = listed'.filter keep

theorem Sound.stores_iff (h : Sound t produced) (secret : ListedSecret u) :
    t.Stores secret ↔ (t.seen secret.path.text).map (·.row.rotation) = some secret.rotation.asStr := by
  constructor
  · rintro ⟨row, hrow, hpath, hrotation⟩
    rw [h.seen_eq hrow hpath]
    exact congrArg some hrotation
  · intro hseen
    obtain ⟨found, hfound, hrotation⟩ := Option.map_eq_some_iff.mp hseen
    obtain ⟨row, hrow, rfl⟩ := Option.map_eq_some_iff.mp hfound
    exact ⟨row, List.mem_of_find?_eq_some hrow, by simpa using List.find?_some hrow, hrotation⟩

theorem SeenAlike.listWithRotation (h : SeenAlike V t t') (hstable : u.Stable) (start : SecretPath u) :
    Related (SameListed V) (t.listWithRotation fault (some start)) (t'.listWithRotation fault (some start)) := by
  obtain ⟨produced, hsound⟩ := h.sound
  obtain ⟨produced', hsound'⟩ := h.sound'
  obtain ⟨listed, hlisted, hordered, hmem⟩ := hsound.listWithRotation_ok hstable start
  obtain ⟨listed', hlisted', hordered', hmem'⟩ := hsound'.listWithRotation_ok hstable start
  have hfault : ∀ t : SecretTables, t.listWithRotation fault (some start) =
      (answer fault .selectSecret >>= fun _ => t.listWithRotation (u := u) noFault (some start)) := by
    intro t
    unfold SecretTables.listWithRotation
    cases answer fault .selectSecret with
    | error e => rfl
    | ok => rfl
  rw [hfault, hfault, hlisted, hlisted']
  refine (related_refl _).bind fun _ _ _ keep hkeep => ?_
  refine List.Perm.eq_of_pairwise' (r := ListedBefore) (hordered.filter _) (hordered'.filter _) ?_
  rw [List.perm_ext_iff_of_nodup ((hordered.filter _).imp fun hbefore hsame => ?_)
    ((hordered'.filter _).imp fun hbefore hsame => ?_)]
  · intro secret
    rw [List.mem_filter, List.mem_filter, hmem, hmem', hsound.stores_iff, hsound'.stores_iff]
    constructor
    · rintro ⟨⟨hseen, hcovers⟩, hkept⟩
      rw [h.seen _ (hkeep secret hkept)] at hseen
      exact ⟨⟨hseen, hcovers⟩, hkept⟩
    · rintro ⟨⟨hseen, hcovers⟩, hkept⟩
      rw [← h.seen _ (hkeep secret hkept)] at hseen
      exact ⟨⟨hseen, hcovers⟩, hkept⟩
  · subst hsame
    exact lt_irrefl _ hbefore
  · subst hsame
    exact lt_irrefl _ hbefore

end SecretTables

end Ciphr
