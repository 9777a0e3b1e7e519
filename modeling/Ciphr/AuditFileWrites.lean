import Ciphr.ServerDevices

/-!
What opening, writing, rotating and crashing make of the files of a file device. The files of a
directory are looked at in the order in which they were created: the archives in the order of their
rotation, then the live file.
-/

namespace Ciphr

/-- Files of which only the newest one has grown, or to which a new one has been added. -/
def Grown (more : List UInt8) (old new : List (List UInt8)) : Prop :=
  ∃ before live, (old = before ++ [live] ∨ (old = before ∧ live = [])) ∧ new = before ++ [live ++ more]

namespace Grown

theorem flatten {more : List UInt8} {old new : List (List UInt8)} (h : Grown more old new) :
    new.flatten = old.flatten ++ more := by
  obtain ⟨before, live, rfl | ⟨rfl, rfl⟩, rfl⟩ := h
  · simp
  · simp

/-- No file disappears, and none loses anything. -/
theorem getElem?_prefix {more : List UInt8} {old new : List (List UInt8)} (h : Grown more old new)
    {i : Nat} {content : List UInt8} (hi : old[i]? = some content) :
    ∃ content', new[i]? = some content' ∧ content <+: content' := by
  obtain ⟨before, live, hold, rfl⟩ := h
  rcases hold with rfl | ⟨rfl, rfl⟩
  · by_cases hlt : i < before.length
    · rw [List.getElem?_append_left hlt] at hi ⊢
      exact ⟨content, hi, List.prefix_rfl⟩
    · rw [List.getElem?_append_right (by omega)] at hi ⊢
      cases hsub : i - before.length with
      | zero =>
          rw [hsub] at hi
          cases hi
          exact ⟨_, rfl, List.prefix_append _ _⟩
      | succ n =>
          rw [hsub] at hi
          cases hi
  · rw [List.getElem?_append_left (List.getElem?_eq_some_iff.mp hi).1]
    exact ⟨content, hi, List.prefix_rfl⟩

theorem of_eq {old new : List (List UInt8)} (h : old ≠ []) (hnew : new = old) : Grown [] old new := by
  rcases List.eq_nil_or_concat' old with rfl | ⟨before, live, rfl⟩
  · exact absurd rfl h
  · exact ⟨before, live, .inl rfl, by simp [hnew]⟩

theorem new_file (more : List UInt8) (old : List (List UInt8)) : Grown more old (old ++ [more]) :=
  ⟨old, [], .inr ⟨rfl, rfl⟩, by simp⟩

end Grown

theorem setLen_append (data more : List UInt8) : setLen data.length (data ++ more) = data := by
  unfold setLen
  simp

namespace FileDevice

/-- The handle leads to the newest file, the counter is its length, and the path leads to it or to
nothing. -/
structure Fits (volume : Volume) (device : FileDevice) : Prop where
  newest : device.file + 1 = volume.fresh
  written : device.written = (volume.data device.file).length
  live : volume.entry device.path = some device.file ∨ volume.entry device.path = none

/-- What has the path is the newest file. -/
def PathNewest (volume : Volume) (path : String) : Prop :=
  ∀ i, volume.entry path = some i → i + 1 = volume.fresh

variable {volume : Volume} {device : FileDevice}

theorem Fits.pathNewest (h : Fits volume device) : PathNewest volume device.path := by
  intro i hi
  rcases h.live with hlive | hlive
  · rw [hi, Option.some.injEq] at hlive
    rw [hlive]
    exact h.newest
  · rw [hi] at hlive
    cases hlive

theorem Fits.contents_eq (h : Fits volume device) :
    volume.contents = (List.range device.file).map volume.data ++ [volume.data device.file] :=
  volume.contents_eq_append h.newest

theorem Fits.contents_ne_nil (h : Fits volume device) : volume.contents ≠ [] := by
  rw [h.contents_eq]
  exact List.append_ne_nil_of_right_ne_nil _ (List.cons_ne_nil _ _)

/-- A rotation that fails changes no content and not the device; one that succeeds adds an empty
file, to which the handle then leads. -/
theorem rotate_spec (h : Fits volume device) (nowMillis : Int) (nextSeq : Nat) (fault : FileFault) :
    (∃ volume' error, rotate volume device nowMillis nextSeq fault = (volume', device, .error error) ∧
      Fits volume' device ∧ volume'.contents = volume.contents ∧ volume'.data = volume.data) ∨
    ∃ volume' device', rotate volume device nowMillis nextSeq fault = (volume', device', .ok ()) ∧
      Fits volume' device' ∧ volume'.contents = volume.contents ++ [[]] ∧
      volume'.data device'.file = [] := by
  unfold rotate
  dsimp only
  split
  · exact .inl ⟨_, _, rfl, h, rfl, rfl⟩
  · rename_i hfree
    split
    · exact .inl ⟨_, _, rfl, h, rfl, rfl⟩
    · split
      · exact .inl ⟨_, _, rfl, h, rfl, rfl⟩
      · rename_i volume' hrename
        obtain ⟨⟨i, hi⟩, hdata, hfresh, hentry⟩ := FileSystem.rename_eq_some hrename
        have hgone : volume'.entry device.path = none := by
          apply hentry
          intro heq
          rw [← heq] at hfree
          simp [FileSystem.exists?, hi] at hfree
        have hcontents : volume'.contents = volume.contents := by
          unfold FileSystem.contents
          rw [hfresh, hdata]
        split
        · refine .inl ⟨_, _, rfl, ⟨?_, ?_, .inr hgone⟩, hcontents, hdata⟩
          · rw [hfresh]
            exact h.newest
          · rw [hdata]
            exact h.written
        · rw [FileSystem.openAppend_of_none hgone]
          refine .inr ⟨_, _, rfl, ⟨rfl, ?_, .inl ?_⟩, ?_, ?_⟩
          · exact (congrArg List.length (FileSystem.create_data_fresh volume' device.path)).symm
          · exact FileSystem.create_entry_self volume' device.path
          · rw [FileSystem.contents_create, hcontents]
            rfl
          · exact FileSystem.create_data_fresh volume' device.path

/-- What follows the rotation either adds the line to the newest file or, when the file can be cut
off again, leaves it as it was. -/
theorem append_spec (h : Fits volume device) (line : List UInt8) (fault : FileFault)
    (hcut : fault.truncateFails = false) :
    (∃ volume' error, append volume device line fault = (volume', device, .error error) ∧
      Fits volume' device ∧ volume'.contents = volume.contents) ∨
    ∃ volume' device', append volume device line fault = (volume', device', .ok ()) ∧
      Fits volume' device' ∧ device'.file = device.file ∧
      volume'.contents =
        (List.range device.file).map volume.data ++ [volume.data device.file ++ line] := by
  unfold append
  split
  · refine .inr ⟨_, _, rfl, ⟨h.newest, ?_, h.live⟩, rfl, volume.contents_modify h.newest _⟩
    simp [h.written]
  · rename_i count error _
    dsimp only
    rw [hcut, if_neg (by simp), FileSystem.modify_modify]
    have hdata : (setLen device.written ∘ (· ++ line.take count)) (volume.data device.file) =
        volume.data device.file := by
      rw [Function.comp_apply, h.written, setLen_append]
    refine .inl ⟨_, _, rfl, ⟨h.newest, ?_, h.live⟩, ?_⟩
    · rw [FileSystem.modify_data_self, hdata]
      exact h.written
    · rw [FileSystem.contents_modify _ h.newest, hdata, ← h.contents_eq]

/-- A write that is refused leaves every byte as it was, up to a rotation; one that is accepted adds
its line to the newest file. -/
theorem write_spec (h : Fits volume device) (record : EncodedRecord) (fault : FileFault)
    (hcut : fault.truncateFails = false) :
    (∃ volume' device' error, write volume device record fault = (volume', device', .error error) ∧
      Fits volume' device' ∧ Grown [] volume.contents volume'.contents) ∨
    ∃ volume' device', write volume device record fault = (volume', device', .ok ()) ∧
      Fits volume' device' ∧ Grown (lineOf record) volume.contents volume'.contents := by
  unfold write
  dsimp only
  split
  · rcases rotate_spec h record.tsMillis record.seq fault with
      ⟨volume', error, hrotate, hfits, hcontents, -⟩ | ⟨volume', device', hrotate, hfits, hcontents, hempty⟩
    · rw [hrotate]
      exact .inl ⟨_, _, _, rfl, hfits, Grown.of_eq h.contents_ne_nil hcontents⟩
    · rw [hrotate]
      rcases append_spec hfits (lineOf record) fault hcut with
        ⟨volume'', error, happend, hfits', hcontents'⟩ |
        ⟨volume'', device'', happend, hfits', -, hcontents'⟩
      · refine .inl ⟨_, _, _, happend, hfits', ?_⟩
        rw [hcontents', hcontents]
        exact .new_file [] _
      · refine .inr ⟨_, _, happend, hfits', ?_⟩
        have hbefore := hfits.contents_eq
        rw [hcontents, hempty] at hbefore
        rw [hcontents', hempty, ← List.append_inj_left' hbefore rfl]
        exact .new_file _ _
  · rcases append_spec h (lineOf record) fault hcut with
      ⟨volume', error, happend, hfits, hcontents⟩ | ⟨volume', device', happend, hfits, -, hcontents⟩
    · exact .inl ⟨_, _, _, happend, hfits, Grown.of_eq h.contents_ne_nil hcontents⟩
    · exact .inr ⟨_, _, happend, hfits, _, _, .inl h.contents_eq, hcontents⟩

/-- A crash leaves some part of the line behind. -/
theorem crashedWrite_spec (h : Fits volume device) (record : EncodedRecord) (fault : FileFault)
    (count : Nat) :
    PathNewest (crashedWrite volume device record fault count) device.path ∧
      ∃ part, part <+: lineOf record ∧
        Grown part volume.contents (crashedWrite volume device record fault count).contents := by
  unfold crashedWrite
  dsimp only
  split
  · rcases rotate_spec h record.tsMillis record.seq fault with
      ⟨volume', error, hrotate, hfits, hcontents, -⟩ | ⟨volume', device', hrotate, hfits, hcontents, hempty⟩
    · rw [hrotate]
      exact ⟨hfits.pathNewest, [], List.nil_prefix, Grown.of_eq h.contents_ne_nil hcontents⟩
    · have hpath := (rotate_path volume device fault record.tsMillis record.seq).1
      rw [hrotate] at hpath ⊢
      refine ⟨?_, _, List.take_prefix count (lineOf record), ?_⟩
      · rw [← hpath]
        exact hfits.pathNewest
      · have hbefore := hfits.contents_eq
        rw [hcontents, hempty] at hbefore
        rw [FileSystem.contents_modify _ hfits.newest, hempty, ← List.append_inj_left' hbefore rfl]
        exact .new_file _ _
  · refine ⟨h.pathNewest, _, List.take_prefix count (lineOf record), _, _, .inl h.contents_eq, ?_⟩
    exact FileSystem.contents_modify _ h.newest _

theorem opened_path {path : String} {rotateAt : Option Nat} {fault : FileFault} {volume' : Volume}
    {device : FileDevice} (h : opened path rotateAt volume fault = (volume', .ok device)) :
    device.path = path := by
  unfold opened at h
  split at h
  · cases h
  · cases h
    rfl

/-- Opening the file finds the newest one, or starts a new one. -/
theorem opened_spec {path : String} (h : PathNewest volume path) (rotateAt : Option Nat)
    (fault : FileFault) :
    (∃ error, opened path rotateAt volume fault = (volume, .error error)) ∨
    ∃ volume' device', opened path rotateAt volume fault = (volume', .ok device') ∧
      Fits volume' device' ∧ device'.path = path ∧ volume'.entry path = some device'.file ∧
      Grown [] volume.contents volume'.contents ∧
      (volume'.read path = volume.read path ∨
        (volume.read path = none ∧ volume'.read path = some [])) := by
  unfold opened
  split
  · exact .inl ⟨_, rfl⟩
  · refine .inr ?_
    cases hentry : volume.entry path with
    | none =>
        rw [FileSystem.openAppend_of_none hentry]
        refine ⟨_, _, rfl, ⟨rfl, rfl, .inl (FileSystem.create_entry_self volume path)⟩, rfl,
          FileSystem.create_entry_self volume path, ?_, .inr ⟨?_, ?_⟩⟩
        · rw [FileSystem.contents_create]
          exact .new_file [] _
        · simp [FileSystem.read, hentry]
        · unfold FileSystem.read
          rw [FileSystem.create_entry_self, Option.map_some, FileSystem.create_data_fresh]
          rfl
    | some i =>
        rw [FileSystem.openAppend_of_some hentry]
        refine ⟨_, _, rfl, ⟨h i hentry, rfl, .inl hentry⟩, rfl, hentry, ?_, .inl rfl⟩
        refine .of_eq ?_ rfl
        rw [FileSystem.contents_eq_append _ (h i hentry)]
        exact List.append_ne_nil_of_right_ne_nil _ (List.cons_ne_nil _ _)

end FileDevice

end Ciphr
