import Mathlib.Data.List.Nodup
import Ciphr.LibTransition
import Ciphr.StoreSecretEffects

/-!
Secrets and their versions over whole runs of the operations that write them.
-/

namespace Ciphr

open Program

/-! ### What the tables hold -/

/-- A version that a `put` has stored, with what the callback returned for it. -/
structure Produced (u : Unicode) where
  path : SecretPath u
  version : SecretVersion
  value : EncryptedValue
  createdAt : Int
  createdBy : String
  deriving DecidableEq

/-- A row that holds a version, with its wrapped key unless it is destroyed. -/
structure VersionRow.Holds {u : Unicode} (row : VersionRow) (p : Produced u) : Prop where
  version : row.version = p.version.number
  dekId : row.dekId = p.value.dekId.toHex
  dekNonce : row.dekNonce = p.value.dekNonce.toList
  valueNonce : row.valueNonce = p.value.valueNonce.toList
  ciphertext : row.ciphertext = p.value.ciphertext
  createdAt : row.createdAt = p.createdAt
  createdBy : row.createdBy = p.createdBy
  wrappedDek : row.destroyedAt = none → row.wrappedDek = p.value.wrappedDek
  shredded : row.destroyedAt ≠ none → row.wrappedDek = []

/-- A row of a version and the same version's row later on: it can be marked as deleted, restored, or
destroyed, and it stays destroyed. -/
structure VersionRow.Later (row row' : VersionRow) : Prop where
  secretId : row'.secretId = row.secretId
  version : row'.version = row.version
  dekId : row'.dekId = row.dekId
  dekNonce : row'.dekNonce = row.dekNonce
  valueNonce : row'.valueNonce = row.valueNonce
  ciphertext : row'.ciphertext = row.ciphertext
  createdAt : row'.createdAt = row.createdAt
  createdBy : row'.createdBy = row.createdBy
  destroyed : ∀ d, row.destroyedAt = some d → row'.destroyedAt = some d
  wrapped : row'.wrappedDek = row.wrappedDek ∧ row'.destroyedAt = row.destroyedAt ∨
    row'.wrappedDek = [] ∧ row'.destroyedAt ≠ none

namespace VersionRow

theorem Later.refl (row : VersionRow) : row.Later row :=
  ⟨rfl, rfl, rfl, rfl, rfl, rfl, rfl, rfl, fun _ h => h, .inl ⟨rfl, rfl⟩⟩

theorem Later.trans {row row' row'' : VersionRow} (h : row.Later row') (h' : row'.Later row'') :
    row.Later row'' where
  secretId := h'.secretId.trans h.secretId
  version := h'.version.trans h.version
  dekId := h'.dekId.trans h.dekId
  dekNonce := h'.dekNonce.trans h.dekNonce
  valueNonce := h'.valueNonce.trans h.valueNonce
  ciphertext := h'.ciphertext.trans h.ciphertext
  createdAt := h'.createdAt.trans h.createdAt
  createdBy := h'.createdBy.trans h.createdBy
  destroyed := fun d hd => h'.destroyed d (h.destroyed d hd)
  wrapped := by
    rcases h'.wrapped with ⟨hwrapped, hdestroyed⟩ | hshredded
    · rw [hwrapped, hdestroyed]
      exact h.wrapped
    · exact .inr hshredded

theorem Holds.later {u : Unicode} {row row' : VersionRow} {p : Produced u} (h : row.Holds p)
    (hlater : row.Later row') : row'.Holds p where
  version := hlater.version.trans h.version
  dekId := hlater.dekId.trans h.dekId
  dekNonce := hlater.dekNonce.trans h.dekNonce
  valueNonce := hlater.valueNonce.trans h.valueNonce
  ciphertext := hlater.ciphertext.trans h.ciphertext
  createdAt := hlater.createdAt.trans h.createdAt
  createdBy := hlater.createdBy.trans h.createdBy
  wrappedDek := by
    intro hstanding
    rcases hlater.wrapped with ⟨hwrapped, hdestroyed⟩ | hshredded
    · rw [hwrapped]
      exact h.wrappedDek (hdestroyed.symm.trans hstanding)
    · exact absurd hstanding hshredded.2
  shredded := by
    intro hdestroyed'
    rcases hlater.wrapped with ⟨hwrapped, hdestroyed⟩ | hshredded
    · rw [hwrapped]
      exact h.shredded (hdestroyed ▸ hdestroyed')
    · exact hshredded.1

end VersionRow

namespace SecretTables

variable {u : Unicode} {t t' : SecretTables}

theorem later_deletedRow (row : VersionRow) (now : Int) : row.Later (deletedRow now row) :=
  ⟨rfl, rfl, rfl, rfl, rfl, rfl, rfl, rfl, fun _ h => h, .inl ⟨rfl, rfl⟩⟩

theorem later_restoredRow (row : VersionRow) : row.Later (restoredRow row) :=
  ⟨rfl, rfl, rfl, rfl, rfl, rfl, rfl, rfl, fun _ h => h, .inl ⟨rfl, rfl⟩⟩

theorem later_destroyedRow (row : VersionRow) (now : Int) : row.Later (destroyedRow now row) := by
  refine ⟨rfl, rfl, rfl, rfl, rfl, rfl, rfl, rfl, ?_, .inr ⟨rfl, ?_⟩⟩
  · intro d hd
    simp [destroyedRow, hd]
  · cases h : row.destroyedAt with
    | none => simp [destroyedRow, h]
    | some d => simp [destroyedRow, h]

theorem holds_newVersion (path : SecretPath u) (secretId : Nat) (next : SecretVersion)
    (value : EncryptedValue) (createdBy : String) (now : Int) :
    (newVersion secretId next value createdBy now).Holds ⟨path, next, value, now, createdBy⟩ :=
  ⟨rfl, rfl, rfl, rfl, rfl, rfl, rfl, fun _ => rfl, fun h => absurd rfl h⟩

/-- The rows of the versions of one secret. -/
def versionsOf (t : SecretTables) (secretId : Nat) : List VersionRow :=
  t.versions.filter (·.secretId == secretId)

/-- The version numbers from one to `n`, as the column holds them. -/
def numbers (n : Nat) : List Int := (List.range' 1 n).map fun (k : Nat) => (k : Int)

theorem numbers_succ (n : Nat) : numbers (n + 1) = numbers n ++ [((n + 1 : Nat) : Int)] := by
  unfold numbers
  rw [List.range'_concat, List.map_append, List.map_singleton, Nat.one_mul, Nat.add_comm 1 n]

theorem mem_numbers {n : Nat} {k : Int} : k ∈ numbers n ↔ 1 ≤ k ∧ k ≤ n := by
  unfold numbers
  rw [List.mem_map]
  constructor
  · rintro ⟨m, hm, rfl⟩
    rw [List.mem_range'_1] at hm
    omega
  · intro h
    refine ⟨k.toNat, ?_, by omega⟩
    rw [List.mem_range'_1]
    omega

theorem nodup_numbers (n : Nat) : (numbers n).Nodup := by
  unfold numbers
  apply List.Nodup.map
  · intro a b h
    exact Int.ofNat.inj h
  · exact List.nodup_range'

/-- What every run keeps: one row for each path and for each version, the versions of a secret are
those from one to the current one, and they are the ones that were stored. -/
structure Sound (t : SecretTables) (produced : List (Produced u)) : Prop where
  ids : (t.secrets.map (·.id)).Nodup
  paths : (t.secrets.map (·.path)).Nodup
  named : ∀ row ∈ t.secrets, ∃ path : SecretPath u, row.path = path.text ∧ path.isReserved = false
  classified : ∀ row ∈ t.secrets, ∃ rotation : Rotation, row.rotation = rotation.asStr
  numbered : ∀ row ∈ t.secrets, ∃ n : Nat, 0 < n ∧ n < 2 ^ 32 ∧ row.currentVersion = n ∧
    (t.versionsOf row.id).map (·.version) = numbers n
  held : ∀ p ∈ produced, ∃ row ∈ t.secrets, row.path = p.path.text ∧
    ∃ v ∈ t.versions, v.secretId = row.id ∧ v.Holds p
  origin : ∀ v ∈ t.versions, ∃ p ∈ produced, v.Holds p ∧
    ∃ row ∈ t.secrets, row.path = p.path.text ∧ v.secretId = row.id
  once : (produced.map fun p => (p.path.text, p.version.number)).Nodup

namespace Sound

variable {produced : List (Produced u)}

theorem version_mem {row : SecretRow} {v : VersionRow} {n : Nat}
    (hv : v ∈ t.versions) (hid : v.secretId = row.id)
    (hnumbered : (t.versionsOf row.id).map (·.version) = numbers n) : 1 ≤ v.version ∧ v.version ≤ n := by
  rw [← mem_numbers, ← hnumbered]
  exact List.mem_map_of_mem (List.mem_filter.mpr ⟨hv, beq_iff_eq.mpr hid⟩)

theorem eq_of_path (h : Sound t produced) {row row' : SecretRow} (hrow : row ∈ t.secrets)
    (hrow' : row' ∈ t.secrets) (hpath : row.path = row'.path) : row = row' :=
  List.inj_on_of_nodup_map h.paths hrow hrow' hpath

theorem eq_of_id (h : Sound t produced) {row row' : SecretRow} (hrow : row ∈ t.secrets)
    (hrow' : row' ∈ t.secrets) (hid : row.id = row'.id) : row = row' :=
  List.inj_on_of_nodup_map h.ids hrow hrow' hid

/-- A version has one row. -/
theorem eq_of_version (h : Sound t produced) {v v' : VersionRow} (hv : v ∈ t.versions)
    (hv' : v' ∈ t.versions) (hid : v.secretId = v'.secretId) (hversion : v.version = v'.version) :
    v = v' := by
  obtain ⟨p, -, -, row, hrow, -, hrowid⟩ := h.origin v hv
  obtain ⟨n, -, -, -, hnumbered⟩ := h.numbered row hrow
  have hnodup : ((t.versionsOf row.id).map (·.version)).Nodup := by
    rw [hnumbered]
    exact nodup_numbers n
  exact List.inj_on_of_nodup_map hnodup (List.mem_filter.mpr ⟨hv, beq_iff_eq.mpr hrowid⟩)
    (List.mem_filter.mpr ⟨hv', beq_iff_eq.mpr (hid.symm.trans hrowid)⟩) hversion

/-- Rows that are changed in place, where they stay the same path's and the same version's. -/
theorem map (h : Sound t produced) {f : SecretRow → SecretRow} {g : VersionRow → VersionRow}
    (hid : ∀ row, (f row).id = row.id) (hpath : ∀ row, (f row).path = row.path)
    (hcurrent : ∀ row, (f row).currentVersion = row.currentVersion)
    (hclass : ∀ row ∈ t.secrets, ∃ rotation : Rotation, (f row).rotation = rotation.asStr)
    (hg : ∀ v : VersionRow, v.Later (g v)) : Sound ⟨t.secrets.map f, t.versions.map g⟩ produced where
  ids := by
    rw [List.map_map, List.map_congr_left fun row _ => show ((·.id) ∘ f) row = row.id from hid row]
    exact h.ids
  paths := by
    rw [List.map_map,
      List.map_congr_left fun row _ => show ((·.path) ∘ f) row = row.path from hpath row]
    exact h.paths
  named := by
    intro row' hrow'
    obtain ⟨row, hrow, rfl⟩ := List.mem_map.mp hrow'
    rw [hpath]
    exact h.named row hrow
  classified := by
    intro row' hrow'
    obtain ⟨row, hrow, rfl⟩ := List.mem_map.mp hrow'
    exact hclass row hrow
  numbered := by
    intro row' hrow'
    obtain ⟨row, hrow, rfl⟩ := List.mem_map.mp hrow'
    obtain ⟨n, hpos, hlt, hn, hnumbered⟩ := h.numbered row hrow
    refine ⟨n, hpos, hlt, (hcurrent row).trans hn, ?_⟩
    rw [← hnumbered, hid]
    unfold versionsOf
    rw [List.filter_map, List.map_map]
    have hsame : ((·.secretId == row.id) ∘ g) = fun v : VersionRow => v.secretId == row.id := by
      funext v
      simp only [Function.comp_apply, (hg v).secretId]
    rw [hsame]
    exact List.map_congr_left fun v _ => (hg v).version
  held := by
    intro p hp
    obtain ⟨row, hrow, hrowpath, v, hv, hvid, hholds⟩ := h.held p hp
    exact ⟨f row, List.mem_map_of_mem hrow, (hpath row).trans hrowpath, g v, List.mem_map_of_mem hv,
      (hg v).secretId.trans (hvid.trans (hid row).symm), hholds.later (hg v)⟩
  origin := by
    intro v' hv'
    obtain ⟨v, hv, rfl⟩ := List.mem_map.mp hv'
    obtain ⟨p, hp, hholds, row, hrow, hrowpath, hvid⟩ := h.origin v hv
    exact ⟨p, hp, hholds.later (hg v), f row, List.mem_map_of_mem hrow, (hpath row).trans hrowpath,
      (hg v).secretId.trans (hvid.trans (hid row).symm)⟩
  once := h.once

theorem setVersions (h : Sound t produced) {cond : VersionRow → Bool} {set : VersionRow → VersionRow}
    (hset : ∀ v : VersionRow, v.Later (set v)) : Sound (t.setVersions cond set) produced := by
  have hmapped := h.map (f := id) (g := fun v => if cond v then set v else v) (fun _ => rfl)
    (fun _ => rfl) (fun _ => rfl) h.classified ?_
  · rwa [List.map_id] at hmapped
  · intro v
    split
    · exact hset v
    · exact .refl v

theorem reclassify (h : Sound t produced) (cond : SecretRow → Bool) (rotation : Rotation) (now : Int) :
    Sound (t.setSecrets cond (reclassified rotation now)) produced := by
  have hmapped := h.map (f := fun row => if cond row then reclassified rotation now row else row)
    (g := id) ?_ ?_ ?_ ?_ (fun v => .refl v)
  · rwa [List.map_id] at hmapped
  · intro row
    split <;> rfl
  · intro row
    split <;> rfl
  · intro row
    split <;> rfl
  · intro row hrow
    split
    · exact ⟨rotation, rfl⟩
    · exact h.classified row hrow

theorem u32TryFrom_toNat {n : Int} {current : UInt32} (h : u32TryFrom n = some current) :
    (current.toNat : Int) = n := by
  unfold u32TryFrom at h
  split at h
  · rename_i hrange
    have hlt : n.toNat < UInt32.size := by
      have hsize : UInt32.size = 4294967296 := rfl
      omega
    rw [← Option.some.inj h, UInt32.toNat_ofNat_of_lt' hlt]
    omega
  · cases h

/-- The version after a current one. -/
theorem nextVersion_ok {path : SecretPath u} {n : Int} {next : SecretVersion} (hpos : 0 < n)
    (h : nextVersion path n = .ok next) : (next.number : Int) = n + 1 := by
  unfold nextVersion at h
  cases hcurrent : u32TryFrom n with
  | none =>
      rw [hcurrent] at h
      cases h
  | some current =>
      have hnumber := u32TryFrom_toNat hcurrent
      rw [hcurrent] at h
      dsimp only at h
      cases hversion : SecretVersion.new current with
      | none =>
          have hzero := SecretVersion.new_eq_none hversion
          omega
      | some version =>
          rw [hversion] at h
          dsimp only at h
          cases hnext : version.next with
          | none =>
              rw [hnext] at h
              cases h
          | some v =>
              rw [hnext] at h
              cases h
              rw [SecretVersion.next_number hnext, SecretVersion.new_number hversion]
              omega

/-- A version that is not yet there is none of those that were stored. -/
theorem fresh_key (h : Sound t produced) {path : SecretPath u} {next : SecretVersion}
    (hnew : ∀ row ∈ t.secrets, row.path = path.text → row.currentVersion < next.number) :
    (path.text, next.number) ∉ produced.map fun p => (p.path.text, p.version.number) := by
  intro hmem
  obtain ⟨p, hp, hkey⟩ := List.mem_map.mp hmem
  rw [Prod.mk.injEq] at hkey
  obtain ⟨row, hrow, hpath, v, hv, hvid, hholds⟩ := h.held p hp
  obtain ⟨n, -, -, hn, hnumbered⟩ := h.numbered row hrow
  have hle := (version_mem hv hvid hnumbered).2
  have hlt := hnew row hrow (hpath.trans hkey.1)
  rw [hholds.version, hkey.2] at hle
  omega

theorem versionsOf_append (v : VersionRow) (secretId : Nat) (secrets : List SecretRow) :
    versionsOf ⟨secrets, t.versions ++ [v]⟩ secretId =
      t.versionsOf secretId ++ if v.secretId = secretId then [v] else [] := by
  unfold versionsOf
  rw [List.filter_append]
  congr 1
  split
  · rename_i h
    simp [h]
  · rename_i h
    simp [h]

theorem publish_rotation (next : SecretVersion) (rotation : Option Rotation) (now : Int)
    {row : SecretRow} (h : ∃ rotation : Rotation, row.rotation = rotation.asStr) :
    ∃ rotation' : Rotation, (publish next rotation now row).rotation = rotation'.asStr := by
  cases rotation with
  | none => exact h
  | some rotation => exact ⟨rotation, rfl⟩

/-- A first version of a path. -/
theorem written_first (h : Sound t produced) {path : SecretPath u} {rotation : Option Rotation}
    {now : Int} {p : Produced u} {v : VersionRow} (hfree : path.isReserved = false)
    (hpath : p.path = path) (hfirst : p.version = .first) (hid : v.secretId = t.freshId)
    (hholds : v.Holds p) (hnew : ∀ row ∈ t.secrets, row.path ≠ path.text) :
    Sound ⟨t.secrets ++ [publish .first rotation now
      ⟨t.freshId, path.text, 0, Rotation.unclassified.asStr, now, now, none⟩], t.versions ++ [v]⟩
      (produced ++ [p]) := by
  have hnone : t.versionsOf t.freshId = [] := by
    apply List.filter_eq_nil_iff.mpr
    intro v' hv' hfresh
    obtain ⟨-, -, -, row, hrow, -, hvid⟩ := h.origin v' hv'
    exact ne_freshId hrow (hvid.symm.trans (beq_iff_eq.mp hfresh))
  refine ⟨?_, ?_, ?_, ?_, ?_, ?_, ?_, ?_⟩
  · rw [List.map_append, List.nodup_append]
    refine ⟨h.ids, List.nodup_singleton _, ?_⟩
    intro id hmem id' hmem'
    obtain ⟨row, hrow, rfl⟩ := List.mem_map.mp hmem
    rw [List.mem_singleton.mp hmem']
    exact ne_freshId hrow
  · rw [List.map_append, List.nodup_append]
    refine ⟨h.paths, List.nodup_singleton _, ?_⟩
    intro text hmem text' hmem'
    obtain ⟨row, hrow, rfl⟩ := List.mem_map.mp hmem
    rw [List.mem_singleton.mp hmem']
    exact hnew row hrow
  · intro row hrow
    rcases List.mem_append.mp hrow with hold | hmade
    · exact h.named row hold
    · rw [List.mem_singleton.mp hmade]
      exact ⟨path, rfl, hfree⟩
  · intro row hrow
    rcases List.mem_append.mp hrow with hold | hmade
    · exact h.classified row hold
    · rw [List.mem_singleton.mp hmade]
      exact publish_rotation _ _ _ ⟨.unclassified, rfl⟩
  · intro row hrow
    rw [versionsOf_append]
    rcases List.mem_append.mp hrow with hold | hmade
    · obtain ⟨n, hpos, hlt, hn, hnumbered⟩ := h.numbered row hold
      refine ⟨n, hpos, hlt, hn, ?_⟩
      rw [if_neg (by rw [hid]; exact (ne_freshId hold).symm), List.append_nil]
      exact hnumbered
    · rw [List.mem_singleton.mp hmade]
      refine ⟨1, by decide, by decide, rfl, ?_⟩
      show ((t.versionsOf t.freshId ++ if v.secretId = t.freshId then [v] else []).map _) = _
      rw [hnone, if_pos hid, List.nil_append, List.map_singleton, hholds.version, hfirst]
      rfl
  · intro p' hp'
    rcases List.mem_append.mp hp' with hold | hmade
    · obtain ⟨row, hrow, hrowpath, v', hv', hrest⟩ := h.held p' hold
      exact ⟨row, List.mem_append_left _ hrow, hrowpath, v', List.mem_append_left _ hv', hrest⟩
    · rw [List.mem_singleton.mp hmade, hpath]
      exact ⟨_, List.mem_append_right _ (List.mem_singleton_self _), rfl, v,
        List.mem_append_right _ (List.mem_singleton_self _), hid, hholds⟩
  · intro v' hv'
    rcases List.mem_append.mp hv' with hold | hmade
    · obtain ⟨p', hp', hholds', row, hrow, hrest⟩ := h.origin v' hold
      exact ⟨p', List.mem_append_left _ hp', hholds', row, List.mem_append_left _ hrow, hrest⟩
    · rw [List.mem_singleton.mp hmade]
      exact ⟨p, List.mem_append_right _ (List.mem_singleton_self _), hholds, _,
        List.mem_append_right _ (List.mem_singleton_self _), by rw [hpath]; rfl, hid⟩
  · rw [List.map_append, List.map_singleton, List.nodup_append]
    refine ⟨h.once, List.nodup_singleton _, ?_⟩
    intro key hmem key' hmem' heq
    rw [heq, List.mem_singleton.mp hmem', hpath] at hmem
    exact h.fresh_key (fun row hrow hrowpath => absurd hrowpath (hnew row hrow)) hmem

/-- A further version of a path. -/
theorem written_later (h : Sound t produced) {path : SecretPath u} {rotation : Option Rotation}
    {now : Int} {p : Produced u} {v : VersionRow} {row : SecretRow} (hrow : row ∈ t.secrets)
    (hpath : row.path = path.text) (hppath : p.path = path) (hid : v.secretId = row.id)
    (hholds : v.Holds p) (hnext : nextVersion path row.currentVersion = .ok p.version) :
    Sound ⟨(t.setSecrets (·.id == row.id) (publish p.version rotation now)).secrets,
      t.versions ++ [v]⟩ (produced ++ [p]) := by
  obtain ⟨n, hpos, hlt, hn, hnumbered⟩ := h.numbered row hrow
  have hnumber : (p.version.number : Int) = n + 1 := by
    rw [nextVersion_ok (by omega) hnext, hn]
  -- the published row keeps its number and its path
  have hkeeps : ∀ r : SecretRow,
      (if r.id == row.id then publish p.version rotation now r else r).id = r.id ∧
        (if r.id == row.id then publish p.version rotation now r else r).path = r.path := by
    intro r
    split
    · exact ⟨rfl, rfl⟩
    · exact ⟨rfl, rfl⟩
  refine ⟨?_, ?_, ?_, ?_, ?_, ?_, ?_, ?_⟩
  · have hsame : (t.setSecrets (·.id == row.id) (publish p.version rotation now)).secrets.map (·.id) =
        t.secrets.map (·.id) := by
      unfold SecretTables.setSecrets
      rw [List.map_map]
      exact List.map_congr_left fun r _ => (hkeeps r).1
    rw [hsame]
    exact h.ids
  · have hsame : (t.setSecrets (·.id == row.id) (publish p.version rotation now)).secrets.map (·.path) =
        t.secrets.map (·.path) := by
      unfold SecretTables.setSecrets
      rw [List.map_map]
      exact List.map_congr_left fun r _ => (hkeeps r).2
    rw [hsame]
    exact h.paths
  · intro r' hr'
    obtain ⟨r, hr, rfl⟩ := List.mem_map.mp hr'
    rw [(hkeeps r).2]
    exact h.named r hr
  · intro r' hr'
    obtain ⟨r, hr, rfl⟩ := List.mem_map.mp hr'
    split
    · exact publish_rotation _ _ _ (h.classified r hr)
    · exact h.classified r hr
  · intro r' hr'
    obtain ⟨r, hr, rfl⟩ := List.mem_map.mp hr'
    rw [versionsOf_append, (hkeeps r).1]
    by_cases hsame : r.id = row.id
    · rw [if_pos (beq_iff_eq.mpr hsame), if_pos (hid.trans hsame.symm), hsame, List.map_append,
        hnumbered, List.map_singleton, hholds.version]
      have hlt' := p.version.lt
      refine ⟨n + 1, by omega, by omega, ?_, ?_⟩
      · show (p.version.number : Int) = _
        rw [hnumber]
        rfl
      · rw [numbers_succ, hnumber]
        rfl
    · rw [if_neg (by simpa using hsame), if_neg (by rw [hid]; exact fun heq => hsame heq.symm),
        List.append_nil]
      exact h.numbered r hr
  · intro p' hp'
    rcases List.mem_append.mp hp' with hold | hmade
    · obtain ⟨r, hr, hrpath, v', hv', hvid, hholds'⟩ := h.held p' hold
      exact ⟨_, List.mem_map_of_mem hr, (hkeeps r).2.trans hrpath, v', List.mem_append_left _ hv',
        hvid.trans (hkeeps r).1.symm, hholds'⟩
    · rw [List.mem_singleton.mp hmade]
      exact ⟨_, List.mem_map_of_mem hrow, (hkeeps row).2.trans (hppath ▸ hpath), v,
        List.mem_append_right _ (List.mem_singleton_self _), hid.trans (hkeeps row).1.symm, hholds⟩
  · intro v' hv'
    rcases List.mem_append.mp hv' with hold | hmade
    · obtain ⟨p', hp', hholds', r, hr, hrpath, hvid⟩ := h.origin v' hold
      exact ⟨p', List.mem_append_left _ hp', hholds', _, List.mem_map_of_mem hr,
        (hkeeps r).2.trans hrpath, hvid.trans (hkeeps r).1.symm⟩
    · rw [List.mem_singleton.mp hmade]
      exact ⟨p, List.mem_append_right _ (List.mem_singleton_self _), hholds, _,
        List.mem_map_of_mem hrow, (hkeeps row).2.trans (hppath ▸ hpath),
        hid.trans (hkeeps row).1.symm⟩
  · rw [List.map_append, List.map_singleton, List.nodup_append]
    refine ⟨h.once, List.nodup_singleton _, ?_⟩
    intro key hmem key' hmem' heq
    rw [heq, List.mem_singleton.mp hmem', hppath] at hmem
    refine h.fresh_key ?_ hmem
    intro r hr hrpath
    rw [h.eq_of_path hr hrow (hrpath.trans hpath.symm), hn, hnumber]
    exact Int.lt_succ _

end Sound

/-! ### Reading -/

/-- A database that performs every statement. -/
def noFault : SecretFault := fun _ => none

theorem get_fault (fault : SecretFault) (t : SecretTables) (path : SecretPath u)
    (version : Option SecretVersion) :
    t.get fault path version = t.get noFault path version ∨
      ∃ error, t.get fault path version = .error (.sqlite error) := by
  cases hsecret : fault .selectSecret with
  | some error =>
      refine .inr ⟨error, ?_⟩
      unfold get requireSecret secretId answer
      rw [hsecret]
      rfl
  | none =>
      have hrequire : t.requireSecret fault path = t.requireSecret noFault path := by
        unfold requireSecret secretId answer
        rw [hsecret]
        rfl
      unfold get
      rw [hrequire]
      cases t.requireSecret noFault path with
      | error e => exact .inl rfl
      | ok found =>
          cases hwanted : wantedVersion path found.2.1 version with
          | error e =>
              refine .inl ?_
              simp only [bind, Except.bind, hwanted]
          | ok wanted =>
              simp only [bind, Except.bind, hwanted, answer]
              cases fault .selectVersion with
              | none => exact .inl rfl
              | some error => exact .inr ⟨error, rfl⟩

/-- The row of a version of a path. -/
def standing (t : SecretTables) (path : SecretPath u) (version : SecretVersion) : Option VersionRow :=
  (t.secrets.find? (·.path == path.text)).bind fun row => t.versionRow row.id version

namespace Sound

variable {produced : List (Produced u)}

theorem find?_eq (h : Sound t produced) {row : SecretRow} {path : SecretPath u}
    (hrow : row ∈ t.secrets) (hpath : row.path = path.text) :
    t.secrets.find? (·.path == path.text) = some row := by
  cases hfind : t.secrets.find? (·.path == path.text) with
  | none => simpa [hpath] using List.find?_eq_none.mp hfind row hrow
  | some other =>
      have hother : other.path = path.text := by
        simpa using List.find?_some (p := fun r : SecretRow => r.path == path.text) hfind
      rw [h.eq_of_path (List.mem_of_find?_eq_some hfind) hrow (hother.trans hpath.symm)]

theorem requireSecret_eq (h : Sound t produced) {row : SecretRow} {path : SecretPath u}
    (hrow : row ∈ t.secrets) (hpath : row.path = path.text) :
    ∃ current rotation, t.requireSecret noFault path = .ok (row.id, current, rotation) ∧
      (current.toNat : Int) = row.currentVersion := by
  obtain ⟨n, hpos, hlt, hn, -⟩ := h.numbered row hrow
  obtain ⟨rotation, hrotation⟩ := h.classified row hrow
  have hcurrent : u32TryFrom row.currentVersion = some (.ofNat row.currentVersion.toNat) := by
    unfold u32TryFrom
    rw [if_pos ⟨by omega, by omega⟩]
  refine ⟨_, rotation, ?_, u32TryFrom_toNat hcurrent⟩
  simp only [requireSecret, secretId, answer, noFault, h.find?_eq hrow hpath, hcurrent, hrotation,
    Rotation.parse_asStr]
  rfl

theorem versionRow_eq (h : Sound t produced) {v : VersionRow} {secretId : Nat}
    {version : SecretVersion} (hv : v ∈ t.versions) (hid : v.secretId = secretId)
    (hversion : v.version = version.number) : t.versionRow secretId version = some v := by
  unfold versionRow
  have hmeets : isVersion secretId version v = true := by simp [isVersion, hid, hversion]
  cases hfind : t.versions.find? (isVersion secretId version) with
  | none => exact absurd hmeets (by simpa using List.find?_eq_none.mp hfind v hv)
  | some other =>
      have hother := List.find?_some hfind
      simp only [isVersion, Bool.and_eq_true, beq_iff_eq] at hother
      rw [h.eq_of_version (List.mem_of_find?_eq_some hfind) hv (hother.1.trans hid.symm)
        (hother.2.trans hversion.symm)]

/-- What `get` answers for a version that was stored. -/
theorem get_held (h : Sound t produced) {p : Produced u} (hp : p ∈ produced) :
    ∃ v, t.standing p.path p.version = some v ∧ v ∈ t.versions ∧ v.Holds p ∧
      t.get noFault p.path (some p.version) =
        if v.destroyedAt.isSome then .error (.versionDestroyed p.path.text p.version)
        else if v.deletedAt.isSome then .error (.versionDeleted p.path.text p.version)
        else .ok ⟨p.path, p.version, p.value, p.createdAt, p.createdBy⟩ := by
  obtain ⟨row, hrow, hpath, v, hv, hvid, hholds⟩ := h.held p hp
  obtain ⟨current, rotation, hrequire, -⟩ := h.requireSecret_eq hrow hpath
  have hfound := h.versionRow_eq hv hvid hholds.version
  refine ⟨v, ?_, hv, hholds, ?_⟩
  · unfold standing
    rw [h.find?_eq hrow hpath]
    exact hfound
  · unfold get
    rw [hrequire]
    simp only [wantedVersion, answer, noFault, bind, Except.bind, hfound]
    split
    · rfl
    · rename_i hstanding
      split
      · rfl
      · rw [hholds.dekId, DekId.fromHex_toHex, hholds.dekNonce, hholds.valueNonce, toNonce_toList,
          toNonce_toList, hholds.ciphertext, hholds.createdAt, hholds.createdBy,
          hholds.wrappedDek (by simpa using hstanding)]
        rfl

/-- The row that `get` has read. -/
theorem get_row {path : SecretPath u} {version : Option SecretVersion} {stored : StoredVersion u}
    (hget : t.get noFault path version = .ok stored) :
    ∃ row ∈ t.secrets, row.path = path.text ∧ ∃ v, t.versionRow row.id stored.version = some v ∧
      t.get noFault path (some stored.version) = .ok stored ∧
      (∀ wanted, version = some wanted → stored.version = wanted) ∧
      (version = none → (stored.version.number : Int) = row.currentVersion) := by
  unfold get at hget
  obtain ⟨found, hfound, hget⟩ := Loop.bind_eq_ok hget
  obtain ⟨row, hrow, hpath, hid, hcurrent⟩ := requireSecret_ok hfound
  obtain ⟨wanted, hwanted, hget⟩ := Loop.bind_eq_ok hget
  obtain ⟨_, hanswer, hget⟩ := Loop.bind_eq_ok hget
  rw [hid] at hget
  cases hv : t.versionRow row.id wanted with
  | none =>
      rw [hv] at hget
      cases hget
  | some v =>
      rw [hv] at hget
      have hversion : stored.version = wanted := by
        dsimp only at hget
        split at hget
        · cases hget
        · split at hget
          · cases hget
          · obtain ⟨_, -, hget⟩ := Loop.bind_eq_ok hget
            obtain ⟨_, -, hget⟩ := Loop.bind_eq_ok hget
            obtain ⟨_, -, hget⟩ := Loop.bind_eq_ok hget
            cases hget
            rfl
      refine ⟨row, hrow, hpath, v, by rw [hversion, hv], ?_, ?_, ?_⟩
      · unfold get
        rw [hfound, hversion]
        simp only [wantedVersion, bind, Except.bind, hanswer, hid, hv]
        exact hget
      · intro asked hasked
        rw [hasked] at hwanted
        cases hwanted
        exact hversion
      · intro hnone
        rw [hnone] at hwanted
        simp only [wantedVersion] at hwanted
        split at hwanted
        · rename_i current hnew
          cases hwanted
          rw [hversion, SecretVersion.new_number hnew]
          exact u32TryFrom_toNat hcurrent
        · cases hwanted

theorem standing_iff (h : Sound t produced) {path : SecretPath u} {version : SecretVersion}
    {v : VersionRow} : t.standing path version = some v ↔
      ∃ row ∈ t.secrets, row.path = path.text ∧ v ∈ t.versions ∧ v.secretId = row.id ∧
        v.version = version.number := by
  unfold standing
  constructor
  · intro hv
    obtain ⟨row, hfind, hv⟩ := Option.bind_eq_some_iff.mp hv
    have hmeets := List.find?_some hv
    simp only [isVersion, Bool.and_eq_true, beq_iff_eq] at hmeets
    exact ⟨row, List.mem_of_find?_eq_some hfind,
      by simpa using List.find?_some (p := fun r : SecretRow => r.path == path.text) hfind,
      List.mem_of_find?_eq_some hv, hmeets⟩
  · rintro ⟨row, hrow, hpath, hv, hid, hversion⟩
    rw [h.find?_eq hrow hpath]
    exact h.versionRow_eq hv hid hversion

theorem standing_of_isVersion (h : Sound t produced) {row : SecretRow} {path : SecretPath u}
    {version : SecretVersion} {v : VersionRow} (hrow : row ∈ t.secrets) (hpath : row.path = path.text)
    (hv : v ∈ t.versions) (hmeets : isVersion row.id version v = true) :
    t.standing path version = some v := by
  simp only [isVersion, Bool.and_eq_true, beq_iff_eq] at hmeets
  exact h.standing_iff.mpr ⟨row, hrow, hpath, hv, hmeets⟩

/-- A version that is there was stored. -/
theorem stored_of_standing (h : Sound t produced) {path : SecretPath u} {version : SecretVersion}
    {v : VersionRow} (hv : t.standing path version = some v) :
    ∃ p ∈ produced, p.path = path ∧ p.version = version ∧ v.Holds p := by
  obtain ⟨row, hrow, hpath, hmem, hid, hversion⟩ := h.standing_iff.mp hv
  obtain ⟨p, hp, hholds, row', hrow', hpath', hid'⟩ := h.origin v hmem
  have hrows : row' = row := h.eq_of_id hrow' hrow (hid'.symm.trans hid)
  refine ⟨p, hp, ?_, ?_, hholds⟩
  · apply SecretPath.ext
    rw [← hpath', hrows, hpath]
  · apply SecretVersion.ext
    have := hholds.version.symm.trans hversion
    omega

/-- What `get` answers for a version that is there. -/
theorem get_standing (h : Sound t produced) {path : SecretPath u} {version : SecretVersion}
    {v : VersionRow} (hv : t.standing path version = some v) :
    ∃ p ∈ produced, p.path = path ∧ p.version = version ∧
      t.get noFault path (some version) =
        if v.destroyedAt.isSome then .error (.versionDestroyed path.text version)
        else if v.deletedAt.isSome then .error (.versionDeleted path.text version)
        else .ok ⟨path, version, p.value, p.createdAt, p.createdBy⟩ := by
  obtain ⟨p, hp, rfl, rfl, -⟩ := h.stored_of_standing hv
  obtain ⟨v', hv', -, -, hget⟩ := h.get_held hp
  rw [hv, Option.some.injEq] at hv'
  exact ⟨p, hp, rfl, rfl, hv' ▸ hget⟩

/-- What `get` returns is what was stored for the path and the version. -/
theorem get_ok (h : Sound t produced) {fault : SecretFault} {path : SecretPath u}
    {version : Option SecretVersion} {stored : StoredVersion u}
    (hget : t.get fault path version = .ok stored) :
    stored.path = path ∧
      ⟨path, stored.version, stored.value, stored.createdAt, stored.createdBy⟩ ∈ produced ∧
      (∀ wanted, version = some wanted → stored.version = wanted) ∧
      (∀ row ∈ t.secrets, row.path = path.text → version = none →
        (stored.version.number : Int) = row.currentVersion) ∧
      ∃ v, t.standing path stored.version = some v ∧ v.deletedAt = none ∧ v.destroyedAt = none := by
  rcases get_fault fault t path version with hsame | ⟨error, herror⟩
  · rw [hsame] at hget
    obtain ⟨row, hrow, hpath, v, hv, hagain, hasked, hcurrent⟩ := get_row hget
    have hstanding : t.standing path stored.version = some v := by
      unfold standing
      rw [h.find?_eq hrow hpath]
      exact hv
    obtain ⟨p, hp, hppath, hpversion, hanswer⟩ := h.get_standing hstanding
    rw [hagain] at hanswer
    split at hanswer
    · cases hanswer
    · rename_i hdestroyed
      split at hanswer
      · cases hanswer
      · rename_i hdeleted
        have hstored := Except.ok.inj hanswer
        refine ⟨by rw [hstored], ?_, hasked, ?_, v, hstanding, by simpa using hdeleted,
          by simpa using hdestroyed⟩
        · have hsame : p = ⟨path, stored.version, p.value, p.createdAt, p.createdBy⟩ := by
            rw [← hppath, ← hpversion]
          rw [hstored]
          rwa [← hsame]
        · intro other hother hotherpath hnone
          rw [h.eq_of_path hother hrow (hotherpath.trans hpath.symm)]
          exact hcurrent hnone
  · rw [herror] at hget
    cases hget

/-- The row of a version after an update. -/
theorem standing_setVersions (h : Sound t produced) {path : SecretPath u} {version : SecretVersion}
    {v : VersionRow} {cond : VersionRow → Bool} {set : VersionRow → VersionRow}
    (hset : ∀ v : VersionRow, v.Later (set v)) (hv : t.standing path version = some v) :
    (t.setVersions cond set).standing path version = some (if cond v then set v else v) := by
  obtain ⟨row, hrow, hpath, hmem, hid, hversion⟩ := h.standing_iff.mp hv
  apply (h.setVersions hset).standing_iff.mpr
  refine ⟨row, hrow, hpath, List.mem_map_of_mem hmem, ?_, ?_⟩
  · split
    · exact (hset v).secretId.trans hid
    · exact hid
  · split
    · exact (hset v).version.trans hversion
    · exact hversion

end Sound

end SecretTables

/-! ### Operations -/

namespace SecretOp

variable {u : Unicode}

/-- What the callback has returned for a version that a `put` has stored. -/
def stored : SecretOp u → Except StoreError (SecretAnswer u) → List (Produced u)
  | .put path createdBy _ encrypt now, .ok (.written next) =>
      match encrypt next with
      | .ok value => [⟨path, next, value, now, createdBy⟩]
      | .error _ => []
  | _, _ => []

variable {t t' : SecretTables} {produced : List (Produced u)} {op : SecretOp u}
  {answer : Except StoreError (SecretAnswer u)}

theorem Effect.sound (he : Effect t op answer t') (h : t.Sound produced) :
    t'.Sound (produced ++ op.stored answer) := by
  cases he with
  | failed op e =>
      cases op <;> simpa [stored] using h
  | found path version stored =>
      simpa [SecretOp.stored] using h
  | written path createdBy rotation encrypt now next secretId value t' hfree hvalue hwritten =>
      simp only [stored, hvalue]
      cases hwritten with
      | first hnew hid hnext =>
          rw [hnext]
          exact h.written_first hfree rfl rfl (by rw [← hnext]; exact hid)
            (SecretTables.holds_newVersion path _ _ _ _ _) hnew
      | later row hrow hpath hid hnext =>
          exact h.written_later (p := ⟨path, next, value, now, createdBy⟩) hrow hpath rfl hid
            (SecretTables.holds_newVersion path _ _ _ _ _) hnext
  | reclassified path rotation now hrow =>
      simpa [stored] using h.reclassify _ rotation now
  | deleted path version now row hrow hpath hversion =>
      simpa [stored] using h.setVersions fun v => SecretTables.later_deletedRow v now
  | undeleted path version row hrow hpath hversion =>
      simpa [stored] using h.setVersions SecretTables.later_restoredRow
  | destroyed path version now row hrow hpath hversion =>
      simpa [stored] using h.setVersions fun v => SecretTables.later_destroyedRow v now

end SecretOp

namespace SecretTables

/-- Every row is there later on: a secret under its number and its path, and a version with what it
holds. -/
structure Later (t t' : SecretTables) : Prop where
  secrets : ∀ row ∈ t.secrets, ∃ row' ∈ t'.secrets, row'.id = row.id ∧ row'.path = row.path
  versions : ∀ v ∈ t.versions, ∃ v' ∈ t'.versions, v.Later v'

theorem Later.refl (t : SecretTables) : t.Later t :=
  ⟨fun row h => ⟨row, h, rfl, rfl⟩, fun v h => ⟨v, h, .refl v⟩⟩

theorem Later.trans {t t' t'' : SecretTables} (h : t.Later t') (h' : t'.Later t'') : t.Later t'' := by
  constructor
  · intro row hrow
    obtain ⟨row', hrow', hid, hpath⟩ := h.secrets row hrow
    obtain ⟨row'', hrow'', hid', hpath'⟩ := h'.secrets row' hrow'
    exact ⟨row'', hrow'', hid'.trans hid, hpath'.trans hpath⟩
  · intro v hv
    obtain ⟨v', hv', hlater⟩ := h.versions v hv
    obtain ⟨v'', hv'', hlater'⟩ := h'.versions v' hv'
    exact ⟨v'', hv'', hlater.trans hlater'⟩

theorem later_setVersions (t : SecretTables) (cond : VersionRow → Bool) {set : VersionRow → VersionRow}
    (hset : ∀ v : VersionRow, v.Later (set v)) : t.Later (t.setVersions cond set) := by
  refine ⟨fun row h => ⟨row, h, rfl, rfl⟩, ?_⟩
  intro v hv
  refine ⟨_, List.mem_map_of_mem hv, ?_⟩
  split
  · exact hset v
  · exact .refl v

theorem mem_setSecrets (t : SecretTables) (cond : SecretRow → Bool) (set : SecretRow → SecretRow)
    (hset : ∀ row, (set row).id = row.id ∧ (set row).path = row.path) {row : SecretRow}
    (hrow : row ∈ t.secrets) :
    ∃ row' ∈ (t.setSecrets cond set).secrets, row'.id = row.id ∧ row'.path = row.path := by
  refine ⟨_, List.mem_map_of_mem hrow, ?_⟩
  split
  · exact hset row
  · exact ⟨rfl, rfl⟩

end SecretTables

namespace SecretOp

variable {u : Unicode} {t t' : SecretTables} {op : SecretOp u}
  {answer : Except StoreError (SecretAnswer u)}

theorem Effect.later (he : Effect t op answer t') : t.Later t' := by
  cases he with
  | failed op e => exact .refl t
  | found path version stored => exact .refl t
  | written path createdBy rotation encrypt now next secretId value t' hfree hvalue hwritten =>
      cases hwritten with
      | first hnew hid hnext =>
          exact ⟨fun row h => ⟨row, List.mem_append_left _ h, rfl, rfl⟩,
            fun v h => ⟨v, List.mem_append_left _ h, .refl v⟩⟩
      | later row hrow hpath hid hnext =>
          refine ⟨?_, fun v h => ⟨v, List.mem_append_left _ h, .refl v⟩⟩
          intro other hother
          exact t.mem_setSecrets _ (SecretTables.publish next rotation now) (fun _ => ⟨rfl, rfl⟩) hother
  | reclassified path rotation now hrow =>
      refine ⟨?_, fun v h => ⟨v, h, .refl v⟩⟩
      intro other hother
      exact t.mem_setSecrets _ (SecretTables.reclassified rotation now) (fun _ => ⟨rfl, rfl⟩) hother
  | deleted path version now row hrow hpath hversion =>
      exact t.later_setVersions _ fun v => SecretTables.later_deletedRow v now
  | undeleted path version row hrow hpath hversion =>
      exact t.later_setVersions _ SecretTables.later_restoredRow
  | destroyed path version now row hrow hpath hversion =>
      exact t.later_setVersions _ fun v => SecretTables.later_destroyedRow v now

/-- The version that an operation names, when it is one that marks versions. -/
def marks : SecretOp u → Option SecretVersion
  | .delete _ version _ | .undelete _ version | .destroy _ version _ => some version
  | _ => none

/-- Rows that an operation does not name are as they were. -/
structure Frame (t t' : SecretTables) (op : SecretOp u) : Prop where
  kept : ∀ row ∈ t.secrets, row.path ≠ op.path.text →
    row ∈ t'.secrets ∧ t'.versionsOf row.id = t.versionsOf row.id
  noNew : ∀ row ∈ t'.secrets, row.path ≠ op.path.text → row ∈ t.secrets
  versions : op.marks = none → t.versions <+: t'.versions
  others : ∀ version, op.marks = some version → t'.secrets = t.secrets ∧
    t'.versions.filter (fun v => v.version != (version.number : Int)) =
      t.versions.filter fun v => v.version != (version.number : Int)

theorem Frame.refl (t : SecretTables) (op : SecretOp u) : Frame t t op :=
  ⟨fun _ h _ => ⟨h, rfl⟩, fun _ h _ => h, fun _ => List.prefix_refl _, fun _ _ => ⟨rfl, rfl⟩⟩

/-- An update leaves a selection alone that it neither takes from nor adds to. -/
theorem filter_map_of_not {α : Type} (rows : List α) {cond select : α → Bool} {set : α → α}
    (hcond : ∀ row, cond row = true → select row = false ∧ select (set row) = false) :
    (rows.map fun row => if cond row then set row else row).filter select = rows.filter select := by
  induction rows with
  | nil => rfl
  | cons row rows ih =>
      rw [List.map_cons, List.filter_cons, List.filter_cons, ih]
      by_cases h : cond row = true
      · rw [if_pos h, (hcond row h).1, (hcond row h).2]
        rfl
      · rw [if_neg h]

theorem frame_setVersions {produced : List (Produced u)} (h : t.Sound produced) (op : SecretOp u)
    {row : SecretRow} (hrow : row ∈ t.secrets) (hpath : row.path = op.path.text) {version : SecretVersion}
    (hmarks : op.marks = some version) {cond : VersionRow → Bool} {set : VersionRow → VersionRow}
    (hcond : ∀ v, cond v = true → SecretTables.isVersion row.id version v = true)
    (hset : ∀ v, (set v).secretId = v.secretId ∧ (set v).version = v.version) :
    Frame t (t.setVersions cond set) op := by
  refine ⟨?_, fun _ h _ => h, by simp [hmarks], ?_⟩
  · intro other hother hne
    refine ⟨hother, filter_map_of_not _ ?_⟩
    intro v hv
    have hv' := hcond v hv
    simp only [SecretTables.isVersion, Bool.and_eq_true, beq_iff_eq] at hv'
    have hdifferent : row.id ≠ other.id := by
      intro heq
      exact hne (h.eq_of_id hrow hother heq ▸ hpath)
    rw [(hset v).1, hv'.1]
    simpa using hdifferent
  · intro version' hversion'
    rw [hmarks, Option.some.injEq] at hversion'
    refine ⟨rfl, filter_map_of_not _ ?_⟩
    intro v hv
    have hv' := hcond v hv
    simp only [SecretTables.isVersion, Bool.and_eq_true, beq_iff_eq] at hv'
    rw [(hset v).2, hv'.2, hversion']
    simp

/-- An update of the row of the path that is named. -/
theorem frame_setSecrets (t : SecretTables) (op : SecretOp u) (cond : SecretRow → Bool)
    (set : SecretRow → SecretRow) (hcond : ∀ row ∈ t.secrets, cond row = true → row.path = op.path.text)
    (hset : ∀ row, (set row).path = row.path) :
    (∀ row ∈ t.secrets, row.path ≠ op.path.text → row ∈ (t.setSecrets cond set).secrets) ∧
      ∀ row ∈ (t.setSecrets cond set).secrets, row.path ≠ op.path.text → row ∈ t.secrets := by
  constructor
  · intro row hrow hne
    refine List.mem_map.mpr ⟨row, hrow, ?_⟩
    rw [if_neg fun h => hne (hcond row hrow h)]
  · intro row' hrow' hne
    obtain ⟨row, hrow, rfl⟩ := List.mem_map.mp hrow'
    by_cases h : cond row = true
    · rw [if_pos h, hset] at hne
      exact absurd (hcond row hrow h) hne
    · rwa [if_neg h]

theorem Effect.frame {produced : List (Produced u)} (he : Effect t op answer t')
    (h : t.Sound produced) : Frame t t' op := by
  cases he with
  | failed op e => exact .refl t op
  | found path version stored => exact .refl t _
  | written path createdBy rotation encrypt now next secretId value t' hfree hvalue hwritten =>
      cases hwritten with
      | first hnew hid hnext =>
          refine ⟨?_, ?_, fun _ => List.prefix_append _ _, by simp [marks]⟩
          · intro row hrow hne
            refine ⟨List.mem_append_left _ hrow, ?_⟩
            rw [SecretTables.Sound.versionsOf_append, if_neg, List.append_nil]
            rw [hid]
            exact (SecretTables.ne_freshId hrow).symm
          · intro row hrow hne
            rcases List.mem_append.mp hrow with hold | hmade
            · exact hold
            · rw [List.mem_singleton.mp hmade] at hne
              exact absurd rfl hne
      | later row hrow hpath hid hnext =>
          obtain ⟨hkept, hnone⟩ := frame_setSecrets t (.put path createdBy rotation encrypt now)
            (·.id == row.id) (SecretTables.publish next rotation now)
            (fun r hr hcond => by rw [h.eq_of_id hr hrow (beq_iff_eq.mp hcond), hpath]; rfl)
            (fun _ => rfl)
          refine ⟨?_, hnone, fun _ => List.prefix_append _ _, by simp [marks]⟩
          intro other hother hne
          refine ⟨hkept other hother hne, ?_⟩
          rw [SecretTables.Sound.versionsOf_append, if_neg, List.append_nil]
          rw [hid]
          intro heq
          exact hne (h.eq_of_id hrow hother heq ▸ hpath)
  | reclassified path rotation now hrow =>
      obtain ⟨hkept, hnone⟩ := frame_setSecrets t (.setRotation path rotation now)
        (·.path == path.text) (SecretTables.reclassified rotation now)
        (fun r _ hcond => beq_iff_eq.mp hcond) (fun _ => rfl)
      exact ⟨fun r hr hne => ⟨hkept r hr hne, rfl⟩, hnone, fun _ => List.prefix_refl _,
        by simp [marks]⟩
  | deleted path version now row hrow hpath hversion =>
      exact frame_setVersions h (.delete path version now) hrow hpath rfl
        (fun v hv => (Bool.and_eq_true_iff.mp hv).1) fun _ => ⟨rfl, rfl⟩
  | undeleted path version row hrow hpath hversion =>
      exact frame_setVersions h (.undelete path version) hrow hpath rfl (fun v hv => hv) fun _ => ⟨rfl, rfl⟩
  | destroyed path version now row hrow hpath hversion =>
      exact frame_setVersions h (.destroy path version now) hrow hpath rfl (fun v hv => hv)
        fun _ => ⟨rfl, rfl⟩

end SecretOp

namespace SecretTables

variable {u : Unicode} {t : SecretTables} {produced : List (Produced u)}

/-- A path with a row is not a reserved one. -/
theorem Sound.not_reserved (h : t.Sound produced) {row : SecretRow} {path : SecretPath u}
    (hrow : row ∈ t.secrets) (hpath : row.path = path.text) : path.isReserved = false := by
  obtain ⟨path', hpath', hfree⟩ := h.named row hrow
  rwa [SecretPath.ext (hpath.symm.trans hpath')]

theorem Sound.exec_delete (h : t.Sound produced) {path : SecretPath u} {version : SecretVersion}
    {v : VersionRow} (hv : t.standing path version = some v) (hdeleted : v.deletedAt = none)
    (now : Int) : ∃ row ∈ t.secrets, row.path = path.text ∧
      exec (delete noFault path version now) t =
        (.ok (), t.setVersions (undeleted row.id version) (deletedRow now)) := by
  obtain ⟨row, hrow, hpath, hmem, hid, hversion⟩ := h.standing_iff.mp hv
  obtain ⟨current, rotation, hrequire, -⟩ := h.requireSecret_eq hrow hpath
  have hfree : rejectReserved path = .ok () := by simp [rejectReserved, h.not_reserved hrow hpath]
  have hcount : t.versions.countP (undeleted row.id version) ≠ 0 := by
    apply Nat.pos_iff_ne_zero.mp
    exact List.countP_pos_iff.mpr ⟨v, hmem, by simp [undeleted, isVersion, hid, hversion, hdeleted]⟩
  have hupdate : exec (updateVersions noFault (undeleted row.id version) (deletedRow now)) t =
      (.ok (t.versions.countP (undeleted row.id version)),
        t.setVersions (undeleted row.id version) (deletedRow now)) := rfl
  refine ⟨row, hrow, hpath, ?_⟩
  unfold delete
  rw [hfree, exec_bind_ok (exec_ofExcept _ _), exec_bind_ok (exec_getThe _), hrequire,
    exec_bind_ok (exec_ofExcept _ _), exec_bind_ok hupdate, if_neg hcount]
  rfl

theorem Sound.exec_undelete (h : t.Sound produced) {path : SecretPath u} {version : SecretVersion}
    {v : VersionRow} (hv : t.standing path version = some v) (hdestroyed : v.destroyedAt = none) :
    ∃ row ∈ t.secrets, row.path = path.text ∧ exec (undelete noFault path version) t =
      (.ok (), t.setVersions (isVersion row.id version) restoredRow) := by
  obtain ⟨row, hrow, hpath, hmem, hid, hversion⟩ := h.standing_iff.mp hv
  obtain ⟨current, rotation, hrequire, -⟩ := h.requireSecret_eq hrow hpath
  have hexists : t.versionExists noFault path row.id version = .ok false := by
    simp only [versionExists, answer, noFault, h.versionRow_eq hmem hid hversion, hdestroyed]
    rfl
  refine ⟨row, hrow, hpath, ?_⟩
  unfold undelete
  rw [exec_bind_ok (exec_getThe _), hrequire, exec_bind_ok (exec_ofExcept _ _), hexists,
    exec_bind_ok (exec_ofExcept _ _)]
  rfl

/-- A version that `delete` has marked is as it was after `undelete`. -/
theorem Sound.undelete_delete (h : t.Sound produced) {path : SecretPath u} {version : SecretVersion}
    {v : VersionRow} (hv : t.standing path version = some v) (hdeleted : v.deletedAt = none)
    (hdestroyed : v.destroyedAt = none) (now : Int) :
    ∃ t', exec (delete noFault path version now) t = (.ok (), t') ∧
      t'.get noFault path (some version) = .error (.versionDeleted path.text version) ∧
      exec (undelete noFault path version) t' = (.ok (), t) := by
  obtain ⟨row, hrow, hpath, hdelete⟩ := h.exec_delete hv hdeleted now
  obtain ⟨row', hrow', hpath', hmem, hid, hversion⟩ := h.standing_iff.mp hv
  obtain rfl : row' = row := h.eq_of_path hrow' hrow (hpath'.trans hpath.symm)
  have hsound : (t.setVersions (undeleted row'.id version) (deletedRow now)).Sound produced :=
    h.setVersions fun v => later_deletedRow v now
  have hstanding : (t.setVersions (undeleted row'.id version) (deletedRow now)).standing path version =
      some (deletedRow now v) := by
    rw [h.standing_setVersions (fun v => later_deletedRow v now) hv,
      if_pos (by simp [undeleted, isVersion, hid, hversion, hdeleted])]
  refine ⟨_, hdelete, ?_, ?_⟩
  · obtain ⟨p, -, -, -, hget⟩ := hsound.get_standing hstanding
    rw [hget]
    simp [deletedRow, hdestroyed]
  · obtain ⟨row'', hrow'', hpath'', hundelete⟩ := hsound.exec_undelete hstanding hdestroyed
    obtain rfl : row'' = row' := h.eq_of_path hrow'' hrow' (hpath''.trans hpath'.symm)
    rw [hundelete]
    congr 1
    unfold SecretTables.setVersions
    -- the only row of this version is the one that was not deleted before
    have hsame : ∀ r ∈ t.versions,
        (if isVersion row''.id version (if undeleted row''.id version r then deletedRow now r else r)
          then restoredRow (if undeleted row''.id version r then deletedRow now r else r)
          else (if undeleted row''.id version r then deletedRow now r else r)) = r := by
      intro r hr
      by_cases hmeets : isVersion row''.id version r = true
      · have hkey := hmeets
        simp only [isVersion, Bool.and_eq_true, beq_iff_eq] at hkey
        have hrv : r = v := h.eq_of_version hr hmem (hkey.1.trans hid.symm)
          (hkey.2.trans hversion.symm)
        have hmarked : undeleted row''.id version r = true := by
          rw [hrv] at hmeets ⊢
          simp [undeleted, hmeets, hdeleted]
        rw [if_pos hmarked, if_pos (by simpa [deletedRow, isVersion] using hkey)]
        show ({ r with deletedAt := none } : VersionRow) = r
        rw [hrv, ← hdeleted]
      · have hleft : undeleted row''.id version r = false := by
          simp [undeleted, hmeets]
        simp only [hleft, Bool.false_eq_true, if_false]
        rw [if_neg hmeets]
    rw [List.map_map]
    have hmap : t.versions.map _ = t.versions.map id := List.map_congr_left hsame
    rw [List.map_id] at hmap
    exact congrArg (SecretTables.mk t.secrets) hmap

end SecretTables

/-- The tables, and everything the callbacks of successful `put`s returned. -/
structure Versioning (u : Unicode) where
  tables : SecretTables
  produced : List (Produced u)
  deriving DecidableEq

namespace Versioning

variable {u : Unicode} {s s' : Versioning u}

/-- One operation, with what the database answers to its statements. -/
def step (s : Versioning u) (event : SecretOp u × SecretFault) : Option (Versioning u) :=
  let (answer, tables) := event.1.perform event.2 s.tables
  some ⟨tables, s.produced ++ event.1.stored answer⟩

theorem step_sound {event : SecretOp u × SecretFault} (h : s.tables.Sound s.produced)
    (hstep : s.step event = some s') :
    s'.tables.Sound s'.produced ∧ s.tables.Later s'.tables ∧ s.produced <+: s'.produced := by
  cases hstep
  have heffect := SecretOp.perform_effect event.2 s.tables event.1
  exact ⟨heffect.sound h, heffect.later, List.prefix_append _ _⟩

theorem run_sound (events : List (SecretOp u × SecretFault)) {s s' : Versioning u}
    (h : s.tables.Sound s.produced) (hrun : Transition.run step s events = some s') :
    s'.tables.Sound s'.produced ∧ s.tables.Later s'.tables ∧ s.produced <+: s'.produced := by
  induction events generalizing s with
  | nil =>
      cases hrun
      exact ⟨h, .refl _, List.prefix_refl _⟩
  | cons event events ih =>
      obtain ⟨next, hstep, hrun⟩ := Option.bind_eq_some_iff.mp hrun
      obtain ⟨hsound, hlater, hprefix⟩ := step_sound h hstep
      obtain ⟨hsound', hlater', hprefix'⟩ := ih hsound hrun
      exact ⟨hsound', hlater.trans hlater', hprefix.trans hprefix'⟩

/-- The invariant of every run. -/
def IsSound (s : Versioning u) : Prop := s.tables.Sound s.produced

theorem reachable_sound
    (h : Transition.Reachable (· = (⟨⟨[], []⟩, []⟩ : Versioning u)) step (fun _ _ => True) s) :
    IsSound s := by
  refine h.invariant ?_ ?_
  · rintro s rfl
    exact ⟨List.nodup_nil, List.nodup_nil, by simp, by simp, by simp, by simp, by simp, List.nodup_nil⟩
  · intro s event s' hs _ hstep
    exact (step_sound hs hstep).1

/-- The class and the version that a path's row has, if there is one. -/
def classOf (t : SecretTables) (path : SecretPath u) : String :=
  ((t.secrets.find? (·.path == path.text)).map (·.rotation)).getD Rotation.unclassified.asStr

def currentOf (t : SecretTables) (path : SecretPath u) : Int :=
  ((t.secrets.find? (·.path == path.text)).map (·.currentVersion)).getD 0

/-- What holds of the store in every state that is reached, and of any operation there. -/
structure Guarantees (s : Versioning u) : Prop where
  /-- The versions of a path are those from one to the current one. -/
  numbered : ∀ row ∈ s.tables.secrets, ∃ n : Nat, 0 < n ∧ n < 2 ^ 32 ∧ row.currentVersion = n ∧
    (s.tables.versionsOf row.id).map (·.version) = SecretTables.numbers n
  owned : ∀ v ∈ s.tables.versions, ∃ row ∈ s.tables.secrets, v.secretId = row.id
  onePath : (s.tables.secrets.map (·.path)).Nodup
  /-- No version is written twice, and none is lost or renumbered later. -/
  once : (s.produced.map fun p => (p.path.text, p.version.number)).Nodup
  kept : ∀ events s', Transition.run step s events = some s' →
    s.tables.Later s'.tables ∧ s.produced <+: s'.produced
  /-- `get` returns what the callback returned for that path and version, and does return it unless
  the version is deleted or destroyed. -/
  returned : ∀ fault path version stored, s.tables.get fault path version = .ok stored →
    stored.path = path ∧
      ⟨path, stored.version, stored.value, stored.createdAt, stored.createdBy⟩ ∈ s.produced ∧
      (∀ wanted, version = some wanted → stored.version = wanted) ∧
      (version = none → (stored.version.number : Int) = currentOf s.tables path)
  answered : ∀ p ∈ s.produced, ∃ v, s.tables.standing p.path p.version = some v ∧
    s.tables.get SecretTables.noFault p.path (some p.version) =
      if v.destroyedAt.isSome then .error (.versionDestroyed p.path.text p.version)
      else if v.deletedAt.isSome then .error (.versionDeleted p.path.text p.version)
      else .ok ⟨p.path, p.version, p.value, p.createdAt, p.createdBy⟩
  /-- `delete`, `undelete` and `destroy` mark the version they name. -/
  deleted : ∀ fault (path : SecretPath u) version now t',
    exec (SecretTables.delete fault path version now) s.tables = (.ok (), t') →
      ∃ v, t'.standing path version = some v ∧ v.deletedAt ≠ none
  undeleted : ∀ fault (path : SecretPath u) version t',
    exec (SecretTables.undelete fault path version) s.tables = (.ok (), t') →
      ∃ v, t'.standing path version = some v ∧ v.deletedAt = none ∧ v.destroyedAt = none
  destroyed : ∀ fault (path : SecretPath u) version now t',
    exec (SecretTables.destroy fault path version now) s.tables = (.ok (), t') →
      ∃ v, t'.standing path version = some v ∧ v.destroyedAt ≠ none ∧ v.wrappedDek = []
  undone : ∀ (path : SecretPath u) version v now, s.tables.standing path version = some v → v.deletedAt = none →
    v.destroyedAt = none → ∃ t',
      exec (SecretTables.delete SecretTables.noFault path version now) s.tables = (.ok (), t') ∧
      t'.get SecretTables.noFault path (some version) = .error (.versionDeleted path.text version) ∧
      exec (SecretTables.undelete SecretTables.noFault path version) t' = (.ok (), s.tables)
  /-- A destroyed version stays so, without its wrapped key, and is refused. -/
  shredded : ∀ v ∈ s.tables.versions, ∀ d, v.destroyedAt = some d → v.wrappedDek = [] ∧
    ∀ events s', Transition.run step s events = some s' → ∃ v' ∈ s'.tables.versions,
      v'.secretId = v.secretId ∧ v'.version = v.version ∧ v'.destroyedAt = some d ∧ v'.wrappedDek = []
  refused : ∀ (path : SecretPath u) version v, s.tables.standing path version = some v → v.destroyedAt ≠ none →
    (∀ fault stored, s.tables.get fault path (some version) ≠ .ok stored) ∧
      ∀ fault, (exec (SecretTables.undelete fault path version) s.tables).1 ≠ .ok ()
  /-- An operation changes only the path, and the version, that it names. -/
  framed : ∀ fault (op : SecretOp u), SecretOp.Frame s.tables (op.perform fault s.tables).2 op
  unreserved : ∀ path : SecretPath u, path.isReserved = true →
    ∀ row ∈ s.tables.secrets, row.path ≠ path.text
  /-- A `put` applies the new version and the class together. -/
  applied : ∀ fault (path : SecretPath u) createdBy rotation encrypt now next t',
    exec (SecretTables.putWithRotation fault path createdBy rotation encrypt now) s.tables =
        (.ok next, t') →
      (next.number : Int) = currentOf s.tables path + 1 ∧ currentOf t' path = next.number ∧
      classOf t' path = (rotation.map Rotation.asStr).getD (classOf s.tables path) ∧
      ∃ value, encrypt next = .ok value ∧
        t'.get SecretTables.noFault path (some next) = .ok ⟨path, next, value, now, createdBy⟩
  /-- An operation that fails leaves everything as it was. -/
  unchanged : ∀ fault (op : SecretOp u) e, (op.perform fault s.tables).1 = .error e →
    (op.perform fault s.tables).2 = s.tables

theorem currentOf_eq {t : SecretTables} {produced : List (Produced u)} (h : t.Sound produced)
    {row : SecretRow} {path : SecretPath u} (hrow : row ∈ t.secrets) (hpath : row.path = path.text) :
    currentOf t path = row.currentVersion ∧ classOf t path = row.rotation := by
  unfold currentOf classOf
  rw [h.find?_eq hrow hpath]
  exact ⟨rfl, rfl⟩

theorem currentOf_none {t : SecretTables} {path : SecretPath u}
    (hnone : ∀ row ∈ t.secrets, row.path ≠ path.text) :
    currentOf t path = 0 ∧ classOf t path = Rotation.unclassified.asStr := by
  have hfind : t.secrets.find? (·.path == path.text) = none := by
    apply List.find?_eq_none.mpr
    intro row hrow
    simpa using hnone row hrow
  unfold currentOf classOf
  rw [hfind]
  exact ⟨rfl, rfl⟩

/-- What a `put` has written is there, and `get` returns it. -/
theorem put_applies {t t' : SecretTables} {produced : List (Produced u)} (h : t.Sound produced)
    {fault : SecretFault} {path : SecretPath u} {createdBy : String} {rotation : Option Rotation}
    {encrypt : SecretTables.EncryptForVersion} {now : Int} {next : SecretVersion}
    (hput : exec (SecretTables.putWithRotation fault path createdBy rotation encrypt now) t =
      (.ok next, t')) :
    (next.number : Int) = currentOf t path + 1 ∧ currentOf t' path = next.number ∧
      classOf t' path = (rotation.map Rotation.asStr).getD (classOf t path) ∧
      ∃ value, encrypt next = .ok value ∧
        t'.get SecretTables.noFault path (some next) = .ok ⟨path, next, value, now, createdBy⟩ := by
  have heffect := SecretOp.perform_effect fault t (.put path createdBy rotation encrypt now)
  simp only [SecretOp.perform, hput, Except.map] at heffect
  have hsound := heffect.sound h
  cases heffect with
  | written _ _ _ _ _ _ secretId value _ hfree hvalue hwritten =>
      simp only [SecretOp.stored, hvalue] at hsound
      -- the row that was made or updated, and the version's row
      have hrow : ∃ row ∈ t'.secrets, row.path = path.text ∧ row.id = secretId ∧
          row.currentVersion = next.number ∧ (next.number : Int) = currentOf t path + 1 ∧
          row.rotation = (rotation.map Rotation.asStr).getD (classOf t path) := by
        cases hwritten with
        | first hnew hid hnext =>
            refine ⟨_, List.mem_append_right _ (List.mem_singleton_self _), rfl, hid.symm, rfl, ?_, ?_⟩
            · rw [(currentOf_none hnew).1, hnext]
              rfl
            · rw [(currentOf_none hnew).2]
              rfl
        | later row hrow hpath hid hnext =>
            obtain ⟨n, hpos, -, hn, -⟩ := h.numbered row hrow
            refine ⟨SecretTables.publish next rotation now row,
              List.mem_map.mpr ⟨row, hrow, if_pos (beq_iff_eq.mpr rfl)⟩, hpath, hid.symm, rfl, ?_, ?_⟩
            · rw [(currentOf_eq h hrow hpath).1]
              exact SecretTables.Sound.nextVersion_ok (by omega) hnext
            · rw [(currentOf_eq h hrow hpath).2]
              rfl
      obtain ⟨row, hmem, hpath, hid, hcurrent, hnumber, hclass⟩ := hrow
      have hnewrow : SecretTables.newVersion secretId next value createdBy now ∈ t'.versions := by
        cases hwritten with
        | first hnew hid hnext => exact List.mem_append_right _ (List.mem_singleton_self _)
        | later row hrow hpath hid hnext => exact List.mem_append_right _ (List.mem_singleton_self _)
      refine ⟨hnumber, (currentOf_eq hsound hmem hpath).1.trans hcurrent,
        (currentOf_eq hsound hmem hpath).2.trans hclass, value, hvalue, ?_⟩
      have hstanding := hsound.standing_iff.mpr ⟨row, hmem, hpath, hnewrow, hid.symm, rfl⟩
      obtain ⟨v, hv, -, -, hget⟩ := hsound.get_held
        (List.mem_append_right _ (List.mem_singleton_self _))
      rw [hstanding, Option.some.injEq] at hv
      rw [hget, ← hv]
      rfl

theorem store_versioning
    (h : Transition.Reachable (· = (⟨⟨[], []⟩, []⟩ : Versioning u)) step (fun _ _ => True) s) :
    Guarantees s := by
  have hsound : s.tables.Sound s.produced := reachable_sound h
  refine
    { numbered := hsound.numbered
      owned := ?_
      onePath := hsound.paths
      once := hsound.once
      kept := fun events s' hrun => (run_sound events hsound hrun).2
      returned := ?_
      answered := ?_
      deleted := ?_
      undeleted := ?_
      destroyed := ?_
      undone := fun path version v now hv hdeleted hdestroyed =>
        hsound.undelete_delete hv hdeleted hdestroyed now
      shredded := ?_
      refused := ?_
      framed := fun fault op => (SecretOp.perform_effect fault s.tables op).frame hsound
      unreserved := ?_
      applied := fun fault path createdBy rotation encrypt now next t' hput => put_applies hsound hput
      unchanged := ?_ }
  · intro v hv
    obtain ⟨-, -, -, row, hrow, -, hid⟩ := hsound.origin v hv
    exact ⟨row, hrow, hid⟩
  · intro fault path version stored hget
    obtain ⟨hpath, hmem, hwanted, hcurrent, v, hv, -⟩ := hsound.get_ok hget
    refine ⟨hpath, hmem, hwanted, ?_⟩
    intro hnone
    obtain ⟨row, hrow, hrowpath, -⟩ := hsound.standing_iff.mp hv
    rw [(currentOf_eq hsound hrow hrowpath).1]
    exact hcurrent row hrow hrowpath hnone
  · intro p hp
    obtain ⟨v, hv, -, -, hget⟩ := hsound.get_held hp
    exact ⟨v, hv, hget⟩
  · intro fault path version now t' hdone
    rcases SecretTables.delete_cases fault s.tables path version now with
      ⟨e, herror⟩ | ⟨row, hrow, hpath, ⟨v, hv, hmeets⟩, hok⟩
    · rw [herror] at hdone
      cases hdone
    · rw [hok, Prod.mk.injEq] at hdone
      rw [← hdone.2]
      refine ⟨_, hsound.standing_setVersions (fun v => SecretTables.later_deletedRow v now)
        (hsound.standing_of_isVersion hrow hpath hv hmeets), ?_⟩
      split
      · simp [SecretTables.deletedRow]
      · rename_i hnot
        simpa [SecretTables.undeleted, hmeets] using hnot
  · intro fault path version t' hdone
    rcases SecretTables.undelete_cases fault s.tables path version with
      ⟨e, herror⟩ | ⟨row, hrow, hpath, ⟨v, hv, hdestroyed⟩, hok⟩
    · rw [herror] at hdone
      cases hdone
    · rw [hok, Prod.mk.injEq] at hdone
      rw [← hdone.2]
      have hmeets := List.find?_some hv
      refine ⟨_, hsound.standing_setVersions SecretTables.later_restoredRow
        (hsound.standing_of_isVersion hrow hpath (List.mem_of_find?_eq_some hv) hmeets), ?_⟩
      rw [if_pos hmeets]
      exact ⟨rfl, hdestroyed⟩
  · intro fault path version now t' hdone
    rcases SecretTables.destroy_cases fault s.tables path version now with
      ⟨e, herror⟩ | ⟨row, hrow, hpath, ⟨v, hv⟩, hok⟩
    · rw [herror] at hdone
      cases hdone
    · rw [hok, Prod.mk.injEq] at hdone
      rw [← hdone.2]
      have hmeets := List.find?_some hv
      refine ⟨_, hsound.standing_setVersions (fun v => SecretTables.later_destroyedRow v now)
        (hsound.standing_of_isVersion hrow hpath (List.mem_of_find?_eq_some hv) hmeets), ?_⟩
      rw [if_pos hmeets]
      refine ⟨?_, rfl⟩
      cases h : v.destroyedAt with
      | none => simp [SecretTables.destroyedRow, h]
      | some d => simp [SecretTables.destroyedRow, h]
  · intro v hv d hd
    obtain ⟨p, -, hholds, -⟩ := hsound.origin v hv
    refine ⟨hholds.shredded (by simp [hd]), ?_⟩
    intro events s' hrun
    obtain ⟨hsound', hlater, -⟩ := run_sound events hsound hrun
    obtain ⟨v', hv', hvlater⟩ := hlater.versions v hv
    obtain ⟨p', -, hholds', -⟩ := hsound'.origin v' hv'
    have hd' := hvlater.destroyed d hd
    exact ⟨v', hv', hvlater.secretId, hvlater.version, hd', hholds'.shredded (by simp [hd'])⟩
  · intro path version v hv hdestroyed
    constructor
    · intro fault stored hget
      obtain ⟨-, -, hwanted, -, v', hv', -, hstanding⟩ := hsound.get_ok hget
      rw [hwanted version rfl, hv, Option.some.injEq] at hv'
      exact hdestroyed (hv' ▸ hstanding)
    · intro fault hdone
      rcases SecretTables.undelete_cases fault s.tables path version with
        ⟨e, herror⟩ | ⟨row, hrow, hpath, ⟨v', hv', hstanding⟩, -⟩
      · rw [herror] at hdone
        cases hdone
      · rw [hsound.standing_of_isVersion hrow hpath (List.mem_of_find?_eq_some hv')
          (List.find?_some hv'), Option.some.injEq] at hv
        exact hdestroyed (hv ▸ hstanding)
  · intro path hreserved row hrow hpath
    rw [hsound.not_reserved hrow hpath] at hreserved
    cases hreserved
  · intro fault op e herror
    have heffect := SecretOp.perform_effect fault s.tables op
    rw [herror] at heffect
    generalize (op.perform fault s.tables).2 = t' at heffect
    cases heffect
    rfl

end Versioning

namespace Sample

theorem asciiUnicode_stable : asciiUnicode.Stable := by
  intro text
  have hsame : ∀ text, asciiUnicode.normalize text = text := by
    intro text
    unfold Unicode.normalize
    split
    · rfl
    · rfl
  exact hsame _

def reservedPath : SecretPath asciiUnicode := ⟨"sys/audit", "sys/audit", by decide +kernel⟩

/-- A callback that has randomness for the first version only. -/
def encryptOnce : SecretTables.EncryptForVersion := fun version =>
  if version = .first then .ok pinnedValue else .error .entropy

/-- A secret is written, deleted, restored and destroyed; a second version and a reserved path are
refused. -/
def secretEvents : List (SecretOp asciiUnicode × SecretFault) :=
  [(.put dbPassword "ci" (some .breaksData) encryptOnce 10, SecretTables.noFault),
    (.delete dbPassword .first 11, SecretTables.noFault),
    (.undelete dbPassword .first, SecretTables.noFault),
    (.destroy dbPassword .first 12, SecretTables.noFault),
    (.put dbPassword "ci" none encryptOnce 13, SecretTables.noFault),
    (.put reservedPath "ci" none encryptOnce 14, SecretTables.noFault)]

def secretRun : Versioning asciiUnicode :=
  (Transition.run Versioning.step ⟨⟨[], []⟩, []⟩ secretEvents).getD ⟨⟨[], []⟩, []⟩

theorem secretRun_run :
    Transition.run Versioning.step ⟨⟨[], []⟩, []⟩ secretEvents = some secretRun := by
  decide +kernel

theorem secretRun_reachable : Transition.Reachable (· = ⟨⟨[], []⟩, []⟩) Versioning.step
    (fun _ _ => True) secretRun :=
  Transition.reachable_of_steps secretEvents (.start rfl) (fun _ _ _ _ _ => trivial) secretRun_run

/-- The version that was destroyed stays so, whatever follows. -/
theorem store_versioning_after_destroy :
    secretRun.tables.secrets =
        [⟨1, "infra/service-a/DB_PASSWORD", 1, "breaks-data", 10, 10, none⟩] ∧
      secretRun.tables.versions.map (·.destroyedAt) = [some 12] ∧
      ∀ v ∈ secretRun.tables.versions, v.wrappedDek = [] ∧
        ∀ events s', Transition.run Versioning.step secretRun events = some s' →
          ∃ v' ∈ s'.tables.versions, v'.secretId = v.secretId ∧ v'.version = v.version ∧
            v'.destroyedAt = some 12 ∧ v'.wrappedDek = [] := by
  have hdestroyed : secretRun.tables.versions.map (·.destroyedAt) = [some 12] := by decide +kernel
  refine ⟨by decide +kernel, hdestroyed, ?_⟩
  intro v hv
  have hv' := List.mem_map_of_mem (f := (·.destroyedAt)) hv
  rw [hdestroyed, List.mem_singleton] at hv'
  exact (Versioning.store_versioning secretRun_reachable).shredded v hv 12 hv'

end Sample

end Ciphr
