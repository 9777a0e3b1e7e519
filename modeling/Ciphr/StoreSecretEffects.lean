import Mathlib.Data.List.Basic
import Ciphr.LibFold
import Ciphr.StoreSecrets

/-!
Everything that the operations on secrets and their versions can do to the tables.
-/

namespace Ciphr

open Program

/-- An update whose condition no row meets. -/
theorem map_of_none {α : Type} {rows : List α} {cond : α → Bool} {set : α → α}
    (h : rows.countP cond = 0) : (rows.map fun row => if cond row then set row else row) = rows := by
  have hnone := List.countP_eq_zero.mp h
  calc (rows.map fun row => if cond row then set row else row) = rows.map id :=
        List.map_congr_left fun row hrow => if_neg (hnone row hrow)
    _ = rows := List.map_id rows

namespace SecretTables

variable {u : Unicode} {fault : SecretFault} {t t' : SecretTables}

/-! ### Statements -/

theorem insertSecret_ok {path rotation : String} {now : Int} {id : Nat}
    (h : exec (insertSecret fault path rotation now) t = (.ok id, t')) :
    (∀ row ∈ t.secrets, row.path ≠ path) ∧ id = t.freshId ∧
      t' = { t with secrets := t.secrets ++ [⟨id, path, 0, rotation, now, now, none⟩] } := by
  unfold insertSecret at h
  obtain ⟨-, -, hrest⟩ := exec_ofExcept_bind_eq_ok h
  rw [exec_bind_ok (exec_getThe _)] at hrest
  split at hrest
  · simp at hrest
  · rename_i hany
    rw [exec_bind_ok (exec_modify _ _), exec_pure, Prod.mk.injEq,
      Except.ok.injEq] at hrest
    obtain ⟨rfl, rfl⟩ := hrest
    refine ⟨?_, rfl, rfl⟩
    intro row hrow heq
    exact hany (List.any_eq_true.mpr ⟨row, hrow, beq_iff_eq.mpr heq⟩)

theorem insertVersion_ok {row : VersionRow} {x : Unit}
    (h : exec (insertVersion fault row) t = (.ok x, t')) :
    t' = { t with versions := t.versions ++ [row] } := by
  unfold insertVersion at h
  obtain ⟨-, -, hrest⟩ := exec_ofExcept_bind_eq_ok h
  rw [exec_bind_ok (exec_getThe _)] at hrest
  split at hrest
  · simp at hrest
  · split at hrest
    · simp at hrest
    · rw [exec_modify, Prod.mk.injEq] at hrest
      exact hrest.2.symm

theorem updateSecrets_cases (fault : SecretFault) (t : SecretTables) (cond : SecretRow → Bool) (set : SecretRow → SecretRow) :
    (∃ e, exec (updateSecrets fault cond set) t = (.error e, t)) ∨
      exec (updateSecrets fault cond set) t = 
        (.ok (t.secrets.countP cond), t.setSecrets cond set) := by
  unfold updateSecrets
  cases hanswer : answer fault .updateSecret with
  | error e => exact .inl ⟨e, exec_bind_error (by rw [exec_ofExcept])⟩
  | ok x =>
      refine .inr ?_
      rw [exec_bind_ok (exec_ofExcept _ _), exec_bind_ok (exec_getThe _),
        exec_bind_ok (exec_modify _ _)]
      rfl

theorem updateVersions_cases (fault : SecretFault) (t : SecretTables) (cond : VersionRow → Bool) (set : VersionRow → VersionRow) :
    (∃ e, exec (updateVersions fault cond set) t = (.error e, t)) ∨
      exec (updateVersions fault cond set) t = 
        (.ok (t.versions.countP cond), t.setVersions cond set) := by
  unfold updateVersions
  cases hanswer : answer fault .updateVersion with
  | error e => exact .inl ⟨e, exec_bind_error (by rw [exec_ofExcept])⟩
  | ok x =>
      refine .inr ?_
      rw [exec_bind_ok (exec_ofExcept _ _), exec_bind_ok (exec_getThe _),
        exec_bind_ok (exec_modify _ _)]
      rfl

/-! ### What an operation can do -/

theorem requireSecret_ok {path : SecretPath u} {found : Nat × UInt32 × Rotation}
    (h : t.requireSecret fault path = .ok found) :
    ∃ row ∈ t.secrets, row.path = path.text ∧ found.1 = row.id ∧
      u32TryFrom row.currentVersion = some found.2.1 := by
  unfold requireSecret secretId at h
  obtain ⟨result, hresult, h⟩ := Loop.bind_eq_ok h
  obtain ⟨-, -, hresult⟩ := Loop.bind_eq_ok hresult
  cases hfind : t.secrets.find? (·.path == path.text) with
  | none =>
      rw [hfind] at hresult
      cases hresult
      cases h
  | some row =>
      rw [hfind] at hresult
      refine ⟨row, List.mem_of_find?_eq_some hfind, by simpa using List.find?_some hfind, ?_⟩
      dsimp only at hresult
      split at hresult
      · cases hresult
      · rename_i current hcurrent
        obtain ⟨rotation, -, hresult⟩ := Loop.bind_eq_ok hresult
        cases hresult
        cases h
        exact ⟨rfl, hcurrent⟩

theorem versionExists_ok {path : SecretPath u} {secretId : Nat} {version : SecretVersion}
    {destroyed : Bool} (h : t.versionExists fault path secretId version = .ok destroyed) :
    ∃ row, t.versionRow secretId version = some row ∧ row.destroyedAt.isSome = destroyed := by
  unfold versionExists at h
  obtain ⟨-, -, h⟩ := Loop.bind_eq_ok h
  cases hrow : t.versionRow secretId version with
  | none =>
      rw [hrow] at h
      cases h
  | some row =>
      rw [hrow] at h
      cases h
      exact ⟨row, rfl, rfl⟩

theorem setSecrets_of_none {cond : SecretRow → Bool} {set : SecretRow → SecretRow}
    (h : t.secrets.countP cond = 0) : t.setSecrets cond set = t := by
  unfold setSecrets
  rw [map_of_none h]

theorem setVersions_of_none {cond : VersionRow → Bool} {set : VersionRow → VersionRow}
    (h : t.versions.countP cond = 0) : t.setVersions cond set = t := by
  unfold setVersions
  rw [map_of_none h]

theorem setRotation_cases (fault : SecretFault) (t : SecretTables) (path : SecretPath u)
    (rotation : Rotation) (now : Int) :
    (∃ e, exec (setRotation fault path rotation now) t = (.error e, t)) ∨
      ((∃ row ∈ t.secrets, row.path = path.text) ∧
        exec (setRotation fault path rotation now) t =
          (.ok (), t.setSecrets (·.path == path.text) (reclassified rotation now))) := by
  unfold setRotation
  rcases updateSecrets_cases fault t (·.path == path.text) (reclassified rotation now) with
    ⟨e, herror⟩ | hok
  · exact .inl ⟨e, exec_bind_error herror⟩
  · rw [exec_bind_ok hok]
    by_cases hcount : t.secrets.countP (·.path == path.text) = 0
    · refine .inl ⟨.notFound path.text, ?_⟩
      rw [if_pos hcount, exec_throw, setSecrets_of_none hcount]
    · refine .inr ⟨?_, by rw [if_neg hcount]; rfl⟩
      obtain ⟨row, hrow, hpath⟩ := List.countP_pos_iff.mp (Nat.pos_of_ne_zero hcount)
      exact ⟨row, hrow, beq_iff_eq.mp hpath⟩

theorem delete_cases (fault : SecretFault) (t : SecretTables) (path : SecretPath u)
    (version : SecretVersion) (now : Int) :
    (∃ e, exec (delete fault path version now) t = (.error e, t)) ∨
      ∃ row ∈ t.secrets, row.path = path.text ∧ (∃ v ∈ t.versions, isVersion row.id version v = true) ∧
        exec (delete fault path version now) t =
          (.ok (), t.setVersions (undeleted row.id version) (deletedRow now)) := by
  unfold delete
  cases hreserved : rejectReserved path with
  | error e => exact .inl ⟨e, exec_bind_error (exec_ofExcept _ _)⟩
  | ok x =>
      rw [exec_bind_ok (exec_ofExcept _ _), exec_bind_ok (exec_getThe _)]
      cases hfound : t.requireSecret fault path with
      | error e => exact .inl ⟨e, exec_bind_error (exec_ofExcept _ _)⟩
      | ok found =>
          obtain ⟨row, hrow, hpath, hid, -⟩ := requireSecret_ok hfound
          rw [exec_bind_ok (exec_ofExcept _ _), hid]
          rcases updateVersions_cases fault t (undeleted row.id version) (deletedRow now) with
            ⟨e, herror⟩ | hok
          · exact .inl ⟨e, exec_bind_error herror⟩
          · refine Or.imp id (fun h => ⟨row, hrow, hpath, h⟩) ?_
            rw [exec_bind_ok hok]
            by_cases hcount : t.versions.countP (undeleted row.id version) = 0
            · -- nothing was marked: the version is looked up to tell why
              rw [if_pos hcount, setVersions_of_none hcount, exec_bind_ok (exec_getThe _)]
              cases hexists : t.versionExists fault path row.id version with
              | error e => exact .inl ⟨e, exec_bind_error (exec_ofExcept _ _)⟩
              | ok destroyed =>
                  obtain ⟨v, hv, -⟩ := versionExists_ok hexists
                  exact .inr ⟨⟨v, List.mem_of_find?_eq_some hv, List.find?_some hv⟩,
                    exec_bind_ok (exec_ofExcept _ _)⟩
            · obtain ⟨v, hv, hcond⟩ := List.countP_pos_iff.mp (Nat.pos_of_ne_zero hcount)
              refine .inr ⟨⟨v, hv, (Bool.and_eq_true_iff.mp hcond).1⟩, ?_⟩
              rw [if_neg hcount]
              rfl

/-- `undelete` and `destroy` after they have found the version. -/
theorem updateFound_cases (fault : SecretFault) (t : SecretTables) (secretId : Nat)
    (version : SecretVersion) (set : VersionRow → VersionRow) :
    (∃ e, exec (do let _ ← updateVersions fault (isVersion secretId version) set; return ()) t =
        (.error e, t)) ∨
      exec (do let _ ← updateVersions fault (isVersion secretId version) set; return ()) t =
        (.ok (), t.setVersions (isVersion secretId version) set) := by
  rcases updateVersions_cases fault t (isVersion secretId version) set with ⟨e, herror⟩ | hok
  · exact .inl ⟨e, exec_bind_error herror⟩
  · exact .inr (exec_bind_ok hok)

theorem undelete_cases (fault : SecretFault) (t : SecretTables) (path : SecretPath u)
    (version : SecretVersion) :
    (∃ e, exec (undelete fault path version) t = (.error e, t)) ∨
      ∃ row ∈ t.secrets, row.path = path.text ∧
        (∃ v, t.versionRow row.id version = some v ∧ v.destroyedAt = none) ∧
        exec (undelete fault path version) t =
          (.ok (), t.setVersions (isVersion row.id version) restoredRow) := by
  unfold undelete
  rw [exec_bind_ok (exec_getThe _)]
  cases hfound : t.requireSecret fault path with
  | error e => exact .inl ⟨e, exec_bind_error (exec_ofExcept _ _)⟩
  | ok found =>
      obtain ⟨row, hrow, hpath, hid, -⟩ := requireSecret_ok hfound
      rw [exec_bind_ok (exec_ofExcept _ _), hid]
      cases hexists : t.versionExists fault path row.id version with
      | error e => exact .inl ⟨e, exec_bind_error (exec_ofExcept _ _)⟩
      | ok destroyed =>
          obtain ⟨v, hv, hdestroyed⟩ := versionExists_ok hexists
          rw [exec_bind_ok (exec_ofExcept _ _)]
          cases destroyed with
          | true => exact .inl ⟨_, exec_throw _ _⟩
          | false =>
              refine Or.imp id (fun h => ⟨row, hrow, hpath, ⟨v, hv, ?_⟩, h⟩)
                (updateFound_cases fault t row.id version restoredRow)
              rwa [Option.isSome_eq_false_iff, Option.isNone_iff_eq_none] at hdestroyed

theorem destroy_cases (fault : SecretFault) (t : SecretTables) (path : SecretPath u)
    (version : SecretVersion) (now : Int) :
    (∃ e, exec (destroy fault path version now) t = (.error e, t)) ∨
      ∃ row ∈ t.secrets, row.path = path.text ∧ (∃ v, t.versionRow row.id version = some v) ∧
        exec (destroy fault path version now) t =
          (.ok (), t.setVersions (isVersion row.id version) (destroyedRow now)) := by
  unfold destroy
  rw [exec_bind_ok (exec_getThe _)]
  cases hfound : t.requireSecret fault path with
  | error e => exact .inl ⟨e, exec_bind_error (exec_ofExcept _ _)⟩
  | ok found =>
      obtain ⟨row, hrow, hpath, hid, -⟩ := requireSecret_ok hfound
      rw [exec_bind_ok (exec_ofExcept _ _), hid]
      cases hexists : t.versionExists fault path row.id version with
      | error e => exact .inl ⟨e, exec_bind_error (exec_ofExcept _ _)⟩
      | ok destroyed =>
          obtain ⟨v, hv, -⟩ := versionExists_ok hexists
          rw [exec_bind_ok (exec_ofExcept _ _)]
          exact Or.imp id (fun h => ⟨row, hrow, hpath, ⟨v, hv⟩, h⟩)
            (updateFound_cases fault t row.id version (destroyedRow now))

/-- The tables after a `put` has added a version to a path. -/
inductive Written (path : SecretPath u) (rotation : Option Rotation) (now : Int)
    (next : SecretVersion) (t : SecretTables) (v : VersionRow) : SecretTables → Prop
  | first (hnew : ∀ row ∈ t.secrets, row.path ≠ path.text) (hid : v.secretId = t.freshId)
      (hnext : next = .first) : Written path rotation now next t v
        ⟨t.secrets ++ [publish next rotation now
          ⟨t.freshId, path.text, 0, Rotation.unclassified.asStr, now, now, none⟩], t.versions ++ [v]⟩
  | later (row : SecretRow) (hrow : row ∈ t.secrets) (hpath : row.path = path.text)
      (hid : v.secretId = row.id) (hnext : nextVersion path row.currentVersion = .ok next) :
      Written path rotation now next t v
        ⟨(t.setSecrets (·.id == row.id) (publish next rotation now)).secrets, t.versions ++ [v]⟩

theorem findOrInsert_ok {path : SecretPath u} {now : Int} {found : Nat × Int}
    (h : exec (findOrInsert fault path now) t = (.ok found, t')) :
    (∃ row ∈ t.secrets, row.path = path.text ∧ found = (row.id, row.currentVersion) ∧ t' = t) ∨
      ((∀ row ∈ t.secrets, row.path ≠ path.text) ∧ found = (t.freshId, 0) ∧
        t' = { t with
          secrets := t.secrets ++
            [⟨t.freshId, path.text, 0, Rotation.unclassified.asStr, now, now, none⟩] }) := by
  unfold findOrInsert at h
  obtain ⟨-, -, hrest⟩ := exec_ofExcept_bind_eq_ok h
  rw [exec_bind_ok (exec_getThe _)] at hrest
  cases hfind : t.secrets.find? (·.path == path.text) with
  | some row =>
      rw [hfind, exec_pure, Prod.mk.injEq, Except.ok.injEq] at hrest
      exact .inl ⟨row, List.mem_of_find?_eq_some hfind, by simpa using List.find?_some hfind,
        hrest.1.symm, hrest.2.symm⟩
  | none =>
      rw [hfind] at hrest
      obtain ⟨id, s', hinsert, hrest'⟩ := exec_bind_eq_ok hrest
      obtain ⟨hnew, rfl, rfl⟩ := insertSecret_ok hinsert
      rw [exec_pure, Prod.mk.injEq, Except.ok.injEq] at hrest'
      exact .inr ⟨hnew, hrest'.1.symm, hrest'.2.symm⟩

theorem le_foldl_max {x : Nat} (xs : List Nat) (a : Nat) (h : x ≤ a ∨ x ∈ xs) :
    x ≤ xs.foldl max a := by
  induction xs generalizing a with
  | nil => simpa using h
  | cons y ys ih =>
      rw [List.foldl_cons]
      apply ih
      rcases h with hle | hmem
      · exact .inl (le_max_of_le_left hle)
      · rcases List.mem_cons.mp hmem with rfl | hmem
        · exact .inl (le_max_right _ _)
        · exact .inr hmem

theorem ne_freshId {row : SecretRow} (h : row ∈ t.secrets) : row.id ≠ t.freshId := by
  have hle : row.id ≤ (t.secrets.map (·.id)).foldl max 0 :=
    le_foldl_max _ _ (.inr (List.mem_map_of_mem h))
  unfold freshId
  omega

/-- The update that publishes the first version reaches the row that was made for it, and no other. -/
theorem setSecrets_append_fresh (row : SecretRow) (set : SecretRow → SecretRow)
    (hid : row.id = t.freshId) :
    ((t.secrets ++ [row]).map fun r => if r.id == t.freshId then set r else r) =
      t.secrets ++ [set row] := by
  rw [List.map_append, List.map_singleton, if_pos (beq_iff_eq.mpr hid)]
  congr 1
  apply map_of_none
  rw [List.countP_eq_zero]
  intro other hother
  simpa using ne_freshId hother

theorem nextVersion_zero (path : SecretPath u) : nextVersion path 0 = .ok .first := by
  simp [nextVersion, u32TryFrom, SecretVersion.new]

theorem putRows_ok {path : SecretPath u} {createdBy : String} {rotation : Option Rotation}
    {encrypt : EncryptForVersion} {now : Int} {next : SecretVersion}
    (h : exec (putRows fault path createdBy rotation encrypt now) t = (.ok next, t')) :
    ∃ secretId value, encrypt next = .ok value ∧
      Written path rotation now next t (newVersion secretId next value createdBy now) t' := by
  unfold putRows at h
  obtain ⟨found, s, hfound, hrest⟩ := exec_bind_eq_ok h
  obtain ⟨next', hnext, hrest⟩ := exec_ofExcept_bind_eq_ok hrest
  obtain ⟨value, hvalue, hrest⟩ := exec_ofExcept_bind_eq_ok hrest
  obtain ⟨_, s', hinsert, hrest⟩ := exec_bind_eq_ok hrest
  rcases updateSecrets_cases fault s' (·.id == found.1) (publish next' rotation now) with
    ⟨e, herror⟩ | hok
  · rw [exec_bind_error herror] at hrest
    simp at hrest
  · rw [exec_bind_ok hok, exec_pure, Prod.mk.injEq, Except.ok.injEq] at hrest
    obtain ⟨rfl, rfl⟩ := hrest
    rw [insertVersion_ok hinsert]
    refine ⟨found.1, value, Loop.mapError_eq_ok hvalue, ?_⟩
    rcases findOrInsert_ok hfound with ⟨row, hrow, hpath, rfl, rfl⟩ | ⟨hnew, rfl, rfl⟩
    · exact .later row hrow hpath rfl hnext
    · rw [nextVersion_zero, Except.ok.injEq] at hnext
      have hmade : Written path rotation now next' t
          (newVersion t.freshId next' value createdBy now) _ := .first hnew rfl hnext.symm
      rw [← setSecrets_append_fresh _ _ rfl] at hmade
      exact hmade

theorem putWithRotation_cases (fault : SecretFault) (t : SecretTables) (path : SecretPath u)
    (createdBy : String) (rotation : Option Rotation) (encrypt : EncryptForVersion) (now : Int) :
    (∃ e, exec (putWithRotation fault path createdBy rotation encrypt now) t = (.error e, t)) ∨
      ∃ next t' secretId value, path.isReserved = false ∧ encrypt next = .ok value ∧
        exec (putWithRotation fault path createdBy rotation encrypt now) t = (.ok next, t') ∧
        Written path rotation now next t (newVersion secretId next value createdBy now) t' := by
  unfold putWithRotation
  cases hreserved : rejectReserved path with
  | error e => exact .inl ⟨e, exec_bind_error (exec_ofExcept _ _)⟩
  | ok x =>
      rw [exec_bind_ok (exec_ofExcept _ _)]
      rcases exec_transaction (do
          Program.ofExcept (answer fault .beginTransaction)
          let next ← putRows fault path createdBy rotation encrypt now
          Program.ofExcept (answer fault .commit)
          return next) t with ⟨e, t', -, hrolled⟩ | ⟨next, t', hdone, hcommitted⟩
      · exact .inl ⟨e, hrolled⟩
      · obtain ⟨-, -, hrest⟩ := exec_ofExcept_bind_eq_ok hdone
        obtain ⟨next', s, hput, hrest⟩ := exec_bind_eq_ok hrest
        obtain ⟨-, -, hrest⟩ := exec_ofExcept_bind_eq_ok hrest
        rw [exec_pure, Prod.mk.injEq, Except.ok.injEq] at hrest
        rw [hrest.1, hrest.2] at hput
        obtain ⟨secretId, value, hvalue, hwritten⟩ := putRows_ok hput
        refine .inr ⟨next, t', secretId, value, ?_, hvalue, hcommitted, hwritten⟩
        unfold rejectReserved at hreserved
        split at hreserved
        · cases hreserved
        · rename_i hfree
          simpa using hfree

end SecretTables

/-! ### Operations -/

inductive SecretOp (u : Unicode) where
  | put (path : SecretPath u) (createdBy : String) (rotation : Option Rotation)
      (encrypt : SecretTables.EncryptForVersion) (now : Int)
  | get (path : SecretPath u) (version : Option SecretVersion)
  | setRotation (path : SecretPath u) (rotation : Rotation) (now : Int)
  | delete (path : SecretPath u) (version : SecretVersion) (now : Int)
  | undelete (path : SecretPath u) (version : SecretVersion)
  | destroy (path : SecretPath u) (version : SecretVersion) (now : Int)

inductive SecretAnswer (u : Unicode) where
  | written (version : SecretVersion)
  | found (stored : StoredVersion u)
  | done

namespace SecretOp

variable {u : Unicode}

def path : SecretOp u → SecretPath u
  | .put path .. | .get path _ | .setRotation path .. | .delete path .. | .undelete path _
  | .destroy path .. => path

/-- What an operation returns, and the tables it leaves. -/
def perform (fault : SecretFault) (t : SecretTables) :
    SecretOp u → Except StoreError (SecretAnswer u) × SecretTables
  | .put path createdBy rotation encrypt now =>
      let (result, t') := exec (SecretTables.putWithRotation fault path createdBy rotation encrypt now) t
      (result.map .written, t')
  | .get path version => ((t.get fault path version).map .found, t)
  | .setRotation path rotation now =>
      let (result, t') := exec (SecretTables.setRotation fault path rotation now) t
      (result.map fun _ => .done, t')
  | .delete path version now =>
      let (result, t') := exec (SecretTables.delete fault path version now) t
      (result.map fun _ => .done, t')
  | .undelete path version =>
      let (result, t') := exec (SecretTables.undelete fault path version) t
      (result.map fun _ => .done, t')
  | .destroy path version now =>
      let (result, t') := exec (SecretTables.destroy fault path version now) t
      (result.map fun _ => .done, t')

/-- Everything an operation can have done. -/
inductive Effect (t : SecretTables) :
    SecretOp u → Except StoreError (SecretAnswer u) → SecretTables → Prop
  | failed (op : SecretOp u) (e : StoreError) : Effect t op (.error e) t
  | found (path : SecretPath u) (version : Option SecretVersion) (stored : StoredVersion u) :
      Effect t (.get path version) (.ok (.found stored)) t
  | written (path : SecretPath u) (createdBy : String) (rotation : Option Rotation)
      (encrypt : SecretTables.EncryptForVersion) (now : Int) (next : SecretVersion) (secretId : Nat)
      (value : EncryptedValue) (t' : SecretTables) (hfree : path.isReserved = false)
      (hvalue : encrypt next = .ok value)
      (hwritten : SecretTables.Written path rotation now next t
        (SecretTables.newVersion secretId next value createdBy now) t') :
      Effect t (.put path createdBy rotation encrypt now) (.ok (.written next)) t'
  | reclassified (path : SecretPath u) (rotation : Rotation) (now : Int)
      (hrow : ∃ row ∈ t.secrets, row.path = path.text) :
      Effect t (.setRotation path rotation now) (.ok .done)
        (t.setSecrets (·.path == path.text) (SecretTables.reclassified rotation now))
  | deleted (path : SecretPath u) (version : SecretVersion) (now : Int) (row : SecretRow)
      (hrow : row ∈ t.secrets) (hpath : row.path = path.text)
      (hversion : ∃ v ∈ t.versions, SecretTables.isVersion row.id version v = true) :
      Effect t (.delete path version now) (.ok .done)
        (t.setVersions (SecretTables.undeleted row.id version) (SecretTables.deletedRow now))
  | undeleted (path : SecretPath u) (version : SecretVersion) (row : SecretRow)
      (hrow : row ∈ t.secrets) (hpath : row.path = path.text)
      (hversion : ∃ v, t.versionRow row.id version = some v ∧ v.destroyedAt = none) :
      Effect t (.undelete path version) (.ok .done)
        (t.setVersions (SecretTables.isVersion row.id version) SecretTables.restoredRow)
  | destroyed (path : SecretPath u) (version : SecretVersion) (now : Int) (row : SecretRow)
      (hrow : row ∈ t.secrets) (hpath : row.path = path.text)
      (hversion : ∃ v, t.versionRow row.id version = some v) :
      Effect t (.destroy path version now) (.ok .done)
        (t.setVersions (SecretTables.isVersion row.id version) (SecretTables.destroyedRow now))

theorem perform_effect (fault : SecretFault) (t : SecretTables) (op : SecretOp u) :
    Effect t op (op.perform fault t).1 (op.perform fault t).2 := by
  cases op with
  | put path createdBy rotation encrypt now =>
      rcases SecretTables.putWithRotation_cases fault t path createdBy rotation encrypt now with
        ⟨e, herror⟩ | ⟨next, t', secretId, value, hfree, hvalue, hdone, hwritten⟩
      · simp only [perform, herror]
        exact .failed _ e
      · simp only [perform, hdone]
        exact .written path createdBy rotation encrypt now next secretId value t' hfree hvalue hwritten
  | get path version =>
      simp only [perform]
      cases t.get fault path version with
      | error e => exact .failed _ e
      | ok stored => exact .found path version stored
  | setRotation path rotation now =>
      rcases SecretTables.setRotation_cases fault t path rotation now with ⟨e, herror⟩ | ⟨hrow, hdone⟩
      · simp only [perform, herror]
        exact .failed _ e
      · simp only [perform, hdone]
        exact .reclassified path rotation now hrow
  | delete path version now =>
      rcases SecretTables.delete_cases fault t path version now with
        ⟨e, herror⟩ | ⟨row, hrow, hpath, hversion, hdone⟩
      · simp only [perform, herror]
        exact .failed _ e
      · simp only [perform, hdone]
        exact .deleted path version now row hrow hpath hversion
  | undelete path version =>
      rcases SecretTables.undelete_cases fault t path version with
        ⟨e, herror⟩ | ⟨row, hrow, hpath, hversion, hdone⟩
      · simp only [perform, herror]
        exact .failed _ e
      · simp only [perform, hdone]
        exact .undeleted path version row hrow hpath hversion
  | destroy path version now =>
      rcases SecretTables.destroy_cases fault t path version now with
        ⟨e, herror⟩ | ⟨row, hrow, hpath, hversion, hdone⟩
      · simp only [perform, herror]
        exact .failed _ e
      · simp only [perform, hdone]
        exact .destroyed path version now row hrow hpath hversion

end SecretOp

end Ciphr
