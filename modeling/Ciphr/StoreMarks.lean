import Ciphr.LibAlike
import Ciphr.StoreInventory
import Ciphr.StoreSecretEffects

/-!
What the marks of bait change of the store: the tier of a path, and nothing of what is read, listed,
written or deleted.
-/

namespace Ciphr

open Program Script

variable {u : Unicode}

def SecretRow.unmarked (row : SecretRow) : SecretRow := { row with honeypotTier := none }

namespace SecretTables

/-- The tables without the marks of bait. -/
def unmarked (t : SecretTables) : SecretTables :=
  { t with secrets := t.secrets.map SecretRow.unmarked }

/-- The marks that the schema admits. -/
def Marked (t : SecretTables) : Prop :=
  ∀ row ∈ t.secrets, ∃ tier : Option HoneypotTier, row.honeypotTier = tier.map HoneypotTier.asStr

/-- The two differ in the marks of bait at most. -/
structure AlikeButMarks (t t' : SecretTables) : Prop where
  unmarked : t.unmarked = t'.unmarked
  marked : t.Marked
  marked' : t'.Marked

section Reads

variable {fault : SecretFault} {t t' : SecretTables}

theorem find?_unmarked (t : SecretTables) (path : String) :
    t.unmarked.secrets.find? (·.path == path) =
      (t.secrets.find? (·.path == path)).map SecretRow.unmarked := by
  unfold unmarked
  rw [List.find?_map]
  rfl

theorem secretId_unmarked (t : SecretTables) (path : SecretPath u) :
    t.unmarked.secretId fault path = t.secretId fault path := by
  unfold secretId
  rw [find?_unmarked]
  cases t.secrets.find? (·.path == path.text) with
  | none => rfl
  | some row => rfl

theorem requireSecret_unmarked (t : SecretTables) (path : SecretPath u) :
    t.unmarked.requireSecret fault path = t.requireSecret fault path := by
  unfold requireSecret
  rw [secretId_unmarked]

theorem get_unmarked (t : SecretTables) (path : SecretPath u) (version : Option SecretVersion) :
    t.unmarked.get fault path version = t.get fault path version := by
  unfold get
  rw [requireSecret_unmarked]
  rfl

theorem versionExists_unmarked (t : SecretTables) (path : SecretPath u) (secretId : Nat)
    (version : SecretVersion) :
    t.unmarked.versionExists fault path secretId version = t.versionExists fault path secretId version :=
  rfl

theorem metadata_unmarked (t : SecretTables) (path : SecretPath u) :
    t.unmarked.metadata fault path = t.metadata fault path := by
  unfold metadata
  rw [requireSecret_unmarked, find?_unmarked]
  cases t.secrets.find? (·.path == path.text) with
  | none => rfl
  | some row => rfl

theorem versionSummaries_unmarked (t : SecretTables) (path : SecretPath u) :
    t.unmarked.versionSummaries fault path = t.versionSummaries fault path := by
  unfold versionSummaries
  rw [requireSecret_unmarked]
  rfl

theorem listedRows_unmarked (t : SecretTables) (start : Option (SecretPath u)) :
    t.unmarked.listedRows start = (t.listedRows start).map SecretRow.unmarked := by
  unfold listedRows unmarked
  have hfilter : (t.secrets.map SecretRow.unmarked).filter (inSubtree start) =
      (t.secrets.filter (inSubtree start)).map SecretRow.unmarked := by
    rw [List.filter_map]
    apply congrArg
    apply List.filter_congr
    intro row _
    unfold Function.comp inSubtree
    cases start <;> rfl
  dsimp only
  rw [hfilter]
  symm
  apply List.map_insertionSort
  intro row _ other _
  exact Iff.rfl

theorem listWithRotation_unmarked (t : SecretTables) (start : Option (SecretPath u)) :
    t.unmarked.listWithRotation fault start = t.listWithRotation fault start := by
  unfold listWithRotation
  rw [listedRows_unmarked, List.mapM_map]
  rfl

/-- What does not look at the marks is the same of two tables that differ in them at most. -/
theorem AlikeButMarks.eq {α : Type} (h : t.AlikeButMarks t') (read : SecretTables → α)
    (hread : ∀ t : SecretTables, read t.unmarked = read t) : read t = read t' := by
  rw [← hread t, h.unmarked, hread]

/-- A mark that the schema admits is read, where the database answers. -/
theorem Marked.honeypotTier (h : t.Marked) (fault : SecretFault) (path : SecretPath u) :
    match fault .selectSecret with
    | some error => t.honeypotTier fault path = .error (.sqlite error)
    | none => ∃ tier, t.honeypotTier fault path = .ok tier := by
  unfold SecretTables.honeypotTier answer
  cases fault .selectSecret with
  | some error => rfl
  | none =>
      cases hfind : t.secrets.find? (·.path == path.text) with
      | none => exact ⟨none, rfl⟩
      | some row =>
          obtain ⟨tier, htier⟩ := h row (List.mem_of_find?_eq_some hfind)
          cases tier with
          | none =>
              refine ⟨none, ?_⟩
              dsimp only [Option.bind]
              rw [htier]
              rfl
          | some tier =>
              refine ⟨some tier, ?_⟩
              dsimp only [Option.bind]
              rw [htier]
              cases tier
              rfl

/-- The tier of a path is read of both or of neither, whatever it is. -/
theorem AlikeButMarks.honeypotTier (h : t.AlikeButMarks t') (path : SecretPath u) :
    Related (fun _ _ => True) (t.honeypotTier fault path) (t'.honeypotTier fault path) := by
  have hone := h.marked.honeypotTier fault path
  have hother := h.marked'.honeypotTier fault path
  cases hfault : fault .selectSecret with
  | some error =>
      rw [hfault] at hone hother
      rw [hone, hother]
      rfl
  | none =>
      rw [hfault] at hone hother
      obtain ⟨tier, htier⟩ := hone
      obtain ⟨tier', htier'⟩ := hother
      rw [htier, htier']
      trivial

end Reads

/-! ### Statements -/

section Writes

variable {t t' : SecretTables} {fault : SecretFault}

theorem AlikeButMarks.versions (h : t.AlikeButMarks t') : t.versions = t'.versions :=
  h.eq SecretTables.versions fun _ => rfl

/-- A row that is changed in the same way, and not in its mark. -/
theorem AlikeButMarks.setSecrets (h : t.AlikeButMarks t') {cond : SecretRow → Bool}
    {set : SecretRow → SecretRow} (hcond : ∀ row : SecretRow, cond row.unmarked = cond row)
    (hset : ∀ row : SecretRow, (set row).unmarked = set row.unmarked)
    (hmark : ∀ row : SecretRow, (set row).honeypotTier = row.honeypotTier) :
    (t.setSecrets cond set).AlikeButMarks (t'.setSecrets cond set) := by
  have hunmarked : ∀ t : SecretTables,
      (t.setSecrets cond set).unmarked = t.unmarked.setSecrets cond set := by
    intro t
    unfold SecretTables.unmarked SecretTables.setSecrets
    dsimp only
    rw [List.map_map, List.map_map]
    congr 1
    apply List.map_congr_left
    intro row _
    dsimp only [Function.comp]
    rw [hcond]
    by_cases hrow : cond row = true
    · rw [if_pos hrow, if_pos hrow, hset]
    · rw [if_neg hrow, if_neg hrow]
  have hmarked : ∀ t : SecretTables, t.Marked → (t.setSecrets cond set).Marked := by
    intro t ht row hrow
    obtain ⟨before, hbefore, rfl⟩ := List.mem_map.mp hrow
    obtain ⟨tier, htier⟩ := ht before hbefore
    refine ⟨tier, ?_⟩
    split
    · rw [hmark, htier]
    · exact htier
  exact ⟨by rw [hunmarked, hunmarked, h.unmarked], hmarked t h.marked, hmarked t' h.marked'⟩

theorem alike_updateSecrets {cond : SecretRow → Bool} {set : SecretRow → SecretRow}
    (hcond : ∀ row : SecretRow, cond row.unmarked = cond row)
    (hset : ∀ row : SecretRow, (set row).unmarked = set row.unmarked)
    (hmark : ∀ row : SecretRow, (set row).honeypotTier = row.honeypotTier) :
    Program.Alike AlikeButMarks Eq (updateSecrets fault cond set) (updateSecrets fault cond set) := by
  unfold updateSecrets
  refine (Program.alike_ofExcept (related_refl _)).bind fun _ _ _ => ?_
  refine Program.alike_getThe.bind fun one other hsame => ?_
  refine (Program.alike_modify fun _ _ h => h.setSecrets hcond hset hmark).bind fun _ _ _ => ?_
  apply Program.alike_pure
  refine hsame.eq (fun t => t.secrets.countP cond) fun t => ?_
  unfold SecretTables.unmarked
  rw [List.countP_map]
  exact List.countP_congr fun row _ => by rw [Function.comp, hcond]

theorem alike_updateVersions {cond : VersionRow → Bool} {set : VersionRow → VersionRow} :
    Program.Alike AlikeButMarks Eq (updateVersions fault cond set) (updateVersions fault cond set) := by
  unfold updateVersions
  refine (Program.alike_ofExcept (related_refl _)).bind fun _ _ _ => ?_
  refine Program.alike_getThe.bind fun one other hsame => ?_
  refine (Program.alike_modify fun t t' h => ?_).bind fun _ _ _ => ?_
  · refine ⟨?_, h.marked, h.marked'⟩
    unfold SecretTables.unmarked SecretTables.setVersions
    have hsecrets := congrArg SecretTables.secrets h.unmarked
    unfold SecretTables.unmarked at hsecrets
    dsimp only at hsecrets ⊢
    rw [hsecrets, h.versions]
  · exact Program.alike_pure (by rw [hsame.versions])

/-- A row that is added without a mark. -/
theorem AlikeButMarks.insert (h : t.AlikeButMarks t') {row : SecretRow} (hrow : row.honeypotTier = none) :
    SecretTables.AlikeButMarks { t with secrets := t.secrets ++ [row] }
      { t' with secrets := t'.secrets ++ [row] } := by
  have hmarked : ∀ t : SecretTables, t.Marked → Marked { t with secrets := t.secrets ++ [row] } := by
    intro t ht one hone
    rcases List.mem_append.mp hone with hone | hone
    · exact ht one hone
    · rw [List.mem_singleton.mp hone]
      exact ⟨none, hrow⟩
  have hsecrets := congrArg SecretTables.secrets h.unmarked
  refine ⟨?_, hmarked t h.marked, hmarked t' h.marked'⟩
  unfold SecretTables.unmarked at hsecrets ⊢
  dsimp only at hsecrets ⊢
  rw [List.map_append, List.map_append, hsecrets, h.versions]

theorem alike_insertSecret (path rotation : String) (now : Int) :
    Program.Alike AlikeButMarks Eq (insertSecret fault path rotation now)
      (insertSecret fault path rotation now) := by
  have hfresh : ∀ t : SecretTables, t.unmarked.freshId = t.freshId := by
    intro t
    unfold freshId unmarked
    rw [List.map_map]
    rfl
  unfold insertSecret
  refine (Program.alike_ofExcept (related_refl _)).bind fun _ _ _ => ?_
  refine Program.alike_getThe.bind fun one other hsame => ?_
  have hany : one.secrets.any (·.path == path) = other.secrets.any (·.path == path) := by
    refine hsame.eq (fun t => t.secrets.any (·.path == path)) fun t => ?_
    unfold unmarked
    rw [List.any_map]
    rfl
  rw [hany]
  split
  · exact Program.alike_throw _
  · refine (Program.alike_modify fun t t' h => ?_).bind fun _ _ _ => ?_
    · rw [h.eq freshId hfresh]
      exact h.insert rfl
    · exact Program.alike_pure (hsame.eq freshId hfresh)

theorem alike_insertVersion (row : VersionRow) :
    Program.Alike AlikeButMarks Eq (insertVersion fault row) (insertVersion fault row) := by
  unfold insertVersion
  refine (Program.alike_ofExcept (related_refl _)).bind fun _ _ _ => ?_
  refine Program.alike_getThe.bind fun one other hsame => ?_
  have hany : one.secrets.any (·.id == row.secretId) = other.secrets.any (·.id == row.secretId) := by
    refine hsame.eq (fun t => t.secrets.any (·.id == row.secretId)) fun t => ?_
    unfold unmarked
    rw [List.any_map]
    rfl
  rw [hany, hsame.versions]
  split
  · exact Program.alike_throw _
  · split
    · exact Program.alike_throw _
    · refine Program.alike_modify fun t t' h => ⟨?_, h.marked, h.marked'⟩
      have hsecrets := congrArg SecretTables.secrets h.unmarked
      unfold SecretTables.unmarked at hsecrets ⊢
      dsimp only at hsecrets ⊢
      rw [hsecrets, h.versions]

/-! ### Operations -/

theorem alike_findOrInsert (path : SecretPath u) (now : Int) :
    Program.Alike AlikeButMarks Eq (findOrInsert fault path now) (findOrInsert fault path now) := by
  unfold findOrInsert
  refine (Program.alike_ofExcept (related_refl _)).bind fun _ _ _ => ?_
  refine Program.alike_getThe.bind fun one other hsame => ?_
  have hfind : (one.secrets.find? (·.path == path.text)).map SecretRow.unmarked =
      (other.secrets.find? (·.path == path.text)).map SecretRow.unmarked := by
    rw [← find?_unmarked, hsame.unmarked, find?_unmarked]
  cases hone : one.secrets.find? (·.path == path.text) with
  | none =>
      rw [hone, Option.map_none, eq_comm, Option.map_eq_none_iff] at hfind
      rw [hfind]
      refine (alike_insertSecret _ _ _).bind fun id id' hid => Program.alike_pure ?_
      rw [hid]
  | some row =>
      rw [hone, Option.map_some, eq_comm, Option.map_eq_some_iff] at hfind
      obtain ⟨row', hrow', hunmarked⟩ := hfind
      rw [hrow']
      apply Program.alike_pure
      injection hunmarked with hid _ hcurrent
      rw [hid, hcurrent]

theorem alike_putWithRotation (path : SecretPath u) (createdBy : String) (rotation : Option Rotation)
    (encrypt : EncryptForVersion) (now : Int) :
    Program.Alike AlikeButMarks Eq (putWithRotation fault path createdBy rotation encrypt now)
      (putWithRotation fault path createdBy rotation encrypt now) := by
  unfold putWithRotation
  refine (Program.alike_ofExcept (related_refl _)).bind fun _ _ _ => ?_
  apply Program.Alike.transaction
  refine (Program.alike_ofExcept (related_refl _)).bind fun _ _ _ => ?_
  refine Program.Alike.bind (R := Eq) ?_ fun next _ hnext => ?_
  · unfold putRows
    refine (alike_findOrInsert path now).bind fun found _ hfound => ?_
    subst hfound
    refine (Program.alike_ofExcept (related_refl _)).bind fun next _ hnext => ?_
    subst hnext
    refine (Program.alike_ofExcept (related_refl _)).bind fun value _ hvalue => ?_
    subst hvalue
    refine (alike_insertVersion _).bind fun _ _ _ => ?_
    refine Program.Alike.bind (R := Eq) ?_ fun _ _ _ => Program.alike_pure rfl
    exact alike_updateSecrets (fun _ => rfl) (fun _ => rfl) fun _ => rfl
  · subst hnext
    exact (Program.alike_ofExcept (related_refl _)).bind fun _ _ _ => Program.alike_pure rfl

theorem alike_delete (path : SecretPath u) (version : SecretVersion) (now : Int) :
    Program.Alike AlikeButMarks Eq (delete fault path version now) (delete fault path version now) := by
  unfold delete
  refine (Program.alike_ofExcept (related_refl _)).bind fun _ _ _ => ?_
  refine Program.alike_getThe.bind fun one other hsame => ?_
  rw [hsame.eq (fun t => t.requireSecret fault path) fun t => requireSecret_unmarked t path]
  refine (Program.alike_ofExcept (related_refl _)).bind fun found _ hfound => ?_
  subst hfound
  refine alike_updateVersions.bind fun changed _ hchanged => ?_
  subst hchanged
  split
  · refine Program.alike_getThe.bind fun one other hsame => ?_
    rw [hsame.eq (fun t => t.versionExists fault path found.1 version) fun t =>
      versionExists_unmarked t path found.1 version]
    exact (Program.alike_ofExcept (related_refl _)).bind fun _ _ _ => Program.alike_pure rfl
  · exact Program.alike_pure rfl

end Writes

end SecretTables

end Ciphr
