import Ciphr.LibFold
import Ciphr.StoreInventory
import Ciphr.StoreVersioning

/-!
The listing of the paths and the reading of what they hold: one looks at the rows of the secrets, the
other at the rows of their versions and at the marks there.
-/

namespace Ciphr

namespace SecretTables

/-- The row of the current version of a secret is marked as deleted or as destroyed. -/
def Withdrawn (t : SecretTables) (row : SecretRow) : Prop :=
  ∃ v ∈ t.versions, v.secretId = row.id ∧ v.version = row.currentVersion ∧
    (v.deletedAt ≠ none ∨ v.destroyedAt ≠ none)

variable {u : Unicode} {t : SecretTables} {produced : List (Produced u)}

namespace Sound

/-- A secret has the version that its row calls the current one, and a read that names no version is a
read of that one. -/
theorem current (h : Sound t produced) {row : SecretRow} {path : SecretPath u}
    (hrow : row ∈ t.secrets) (hpath : row.path = path.text) :
    ∃ (current : SecretVersion) (v : VersionRow), t.standing path current = some v ∧
      v ∈ t.versions ∧ v.secretId = row.id ∧ v.version = row.currentVersion ∧
      t.get noFault path none = t.get noFault path (some current) := by
  obtain ⟨n, hpos, hlt, hn, hnumbered⟩ := h.numbered row hrow
  obtain ⟨number, rotation, hrequire, hnumber⟩ := h.requireSecret_eq hrow hpath
  have htoNat : number.toNat = n := by omega
  have hnew : SecretVersion.new number = some ⟨n, hpos, hlt⟩ := by
    unfold SecretVersion.new
    rw [dif_neg (by omega)]
    congr 1
    exact SecretVersion.ext htoNat
  have hlast : (n : Int) ∈ (t.versionsOf row.id).map (·.version) := by
    rw [hnumbered, mem_numbers]
    omega
  obtain ⟨v, hv, hversion⟩ := List.mem_map.mp hlast
  obtain ⟨hmem, hid⟩ := List.mem_filter.mp hv
  have hid' : v.secretId = row.id := eq_of_beq hid
  refine ⟨⟨n, hpos, hlt⟩, v, ?_, hmem, hid', hversion.trans hn.symm, ?_⟩
  · exact h.standing_iff.mpr ⟨row, hrow, hpath, hmem, hid', hversion⟩
  · unfold get
    rw [hrequire]
    simp only [wantedVersion, bind, Except.bind, hnew]

/-- What `get` answers for the current version of a path that is there. -/
theorem get_current (h : Sound t produced) {row : SecretRow} {path : SecretPath u}
    (hrow : row ∈ t.secrets) (hpath : row.path = path.text) :
    (¬ t.Withdrawn row ∧ ∃ stored, t.get noFault path none = .ok stored) ∨
      t.Withdrawn row ∧ ∃ version, t.get noFault path none = .error (.versionDeleted path.text version) ∨
        t.get noFault path none = .error (.versionDestroyed path.text version) := by
  obtain ⟨current, v, hstanding, hv, hid, hversion, hget⟩ := h.current hrow hpath
  obtain ⟨p, -, -, -, hanswer⟩ := h.get_standing hstanding
  rw [hget, hanswer]
  by_cases hdestroyed : v.destroyedAt = none
  · by_cases hdeleted : v.deletedAt = none
    · refine .inl ⟨?_, ⟨path, current, p.value, p.createdAt, p.createdBy⟩, ?_⟩
      · rintro ⟨v', hv', hid', hversion', hmarked⟩
        have hsame : v' = v := h.eq_of_version hv' hv (hid'.trans hid.symm) (hversion'.trans hversion.symm)
        rw [hsame] at hmarked
        exact hmarked.elim (· hdeleted) (· hdestroyed)
      · rw [hdestroyed, hdeleted]
        rfl
    · refine .inr ⟨⟨v, hv, hid, hversion, .inl hdeleted⟩, current, .inl ?_⟩
      rw [hdestroyed, if_neg (by simp), if_pos (Option.isSome_iff_ne_none.mpr hdeleted)]
  · refine .inr ⟨⟨v, hv, hid, hversion, .inr hdestroyed⟩, current, .inr ?_⟩
    rw [if_pos (Option.isSome_iff_ne_none.mpr hdestroyed)]

/-- A path that is there can be read exactly if its current version is not withdrawn. -/
theorem get_current_ok_iff (h : Sound t produced) {row : SecretRow} {path : SecretPath u}
    (hrow : row ∈ t.secrets) (hpath : row.path = path.text) :
    (∃ stored, t.get noFault path none = .ok stored) ↔ ¬ t.Withdrawn row := by
  rcases h.get_current hrow hpath with ⟨hnot, hok⟩ | ⟨hwithdrawn, version, hget | hget⟩
  · exact iff_of_true hok hnot
  · refine iff_of_false ?_ (not_not_intro hwithdrawn)
    rintro ⟨stored, hok⟩
    rw [hget] at hok
    cases hok
  · refine iff_of_false ?_ (not_not_intro hwithdrawn)
    rintro ⟨stored, hok⟩
    rw [hget] at hok
    cases hok

/-- A listing of the store names the paths of the rows at or below the prefix. -/
theorem list_ok (h : Sound t produced) (hstable : u.Stable) (start : Option (SecretPath u)) :
    ∃ paths, t.list noFault start = .ok paths ∧
      ∀ path : SecretPath u, path ∈ paths ↔
        ∃ row ∈ t.secrets, inSubtree start row = true ∧ row.path = path.text := by
  have hparsed : ∀ row ∈ t.secrets, ∃ path : SecretPath u, row.path = path.text ∧
      parseStored u row.path = .ok path := by
    intro row hrow
    obtain ⟨path, hpath, -⟩ := h.named row hrow
    refine ⟨path, hpath, ?_⟩
    unfold parseStored
    rw [hpath, SecretPath.parse_text hstable]
    rfl
  have hmem : ∀ row, row ∈ t.listedRows start ↔ row ∈ t.secrets ∧ inSubtree start row = true := by
    intro row
    unfold listedRows
    rw [(List.perm_insertionSort _ _).mem_iff, List.mem_filter]
  have hall : ∀ rows : List SecretRow, (∀ row ∈ rows, row ∈ t.secrets) → ∃ paths : List (SecretPath u),
      rows.mapM (fun row => parseStored u row.path) = .ok paths := by
    intro rows hrows
    induction rows with
    | nil => exact ⟨[], rfl⟩
    | cons row rows ih =>
        obtain ⟨path, -, hpath⟩ := hparsed row (hrows row (List.mem_cons_self ..))
        obtain ⟨paths, hpaths⟩ := ih fun other hother => hrows other (List.mem_cons_of_mem _ hother)
        refine ⟨path :: paths, ?_⟩
        rw [List.mapM_cons, hpath, hpaths]
        rfl
  obtain ⟨paths, hpaths⟩ := hall (t.listedRows start) fun row hrow => ((hmem row).mp hrow).1
  refine ⟨paths, hpaths, fun path => ?_⟩
  constructor
  · intro hpath
    obtain ⟨row, hrow, hsame⟩ := Loop.exists_of_mem_mapM hpaths hpath
    obtain ⟨hrow, hbelow⟩ := (hmem row).mp hrow
    obtain ⟨own, hown, hparse⟩ := hparsed row hrow
    rw [hparse] at hsame
    cases hsame
    exact ⟨row, hrow, hbelow, hown⟩
  · rintro ⟨row, hrow, hbelow, hpath⟩
    obtain ⟨found, hfound, hsame⟩ := Loop.exists_of_mem_of_mapM hpaths ((hmem row).mpr ⟨hrow, hbelow⟩)
    obtain ⟨own, hown, hparse⟩ := hparsed row hrow
    rw [hparse] at hsame
    cases hsame
    have hsame : found = path := SecretPath.ext (hown.symm.trans hpath)
    rwa [← hsame]

end Sound

end SecretTables

end Ciphr
