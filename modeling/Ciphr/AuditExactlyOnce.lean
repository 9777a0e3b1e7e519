import Ciphr.AuditFileWrites
import Ciphr.LibTransition

/-!
Exactly once in the audit file. A file device is written to, rotated and reopened in any order, and
any of these may fail. Read one after the other, the archives in the order of their creation and
then the live file are what the live file held at first and a line for every record whose write was
accepted.
-/

namespace Ciphr

namespace FileDevice

/-- The name a rotation moves the live file to. -/
def archiveName (volume : Volume) (device : FileDevice) (nowMillis : Int) (nextSeq : Nat) : String :=
  let suffix := archiveSuffix nowMillis nextSeq
  archivePath volume (device.path ++ suffix) attemptsPerStamp 1 (device.path ++ suffix)

/-- `reopen` where the query for the size of the file fails: the handle has moved by then, and the
counter has not. -/
def reopenUnmeasured (volume : Volume) (device : FileDevice) (error : String) :
    Volume × FileDevice × Except String Unit :=
  let (file, volume') := volume.openAppend device.path
  (volume', { device with file := file },
    .error ("could not stat " ++ device.path ++ ": " ++ error))

variable {volume volume' : Volume} {device device' : FileDevice} {outcome : Except String Unit}

/-- What a rotation can do: nothing, move the file aside and fail to start a new one, or both. -/
inductive RotateCase (volume : Volume) (device : FileDevice) (name : String) :
    Volume → FileDevice → Except String Unit → Prop
  | refused (error : String) : RotateCase volume device name volume device (.error error)
  | unopened {moved : Volume} (hfree : volume.entry name = none)
      (hrename : volume.rename device.path name = some moved) (error : String) :
      RotateCase volume device name moved device (.error error)
  | rotated {moved : Volume} (hfree : volume.entry name = none)
      (hrename : volume.rename device.path name = some moved) :
      RotateCase volume device name (moved.create device.path)
        { device with file := moved.fresh, written := 0 } (.ok ())

theorem rotate_cases {nowMillis : Int} {nextSeq : Nat} {fault : FileFault}
    (h : rotate volume device nowMillis nextSeq fault = (volume', device', outcome)) :
    RotateCase volume device (archiveName volume device nowMillis nextSeq) volume' device' outcome := by
  unfold rotate at h
  dsimp only at h
  split at h
  · cases h
    exact .refused _
  · rename_i hexists
    have hfree : volume.entry (archiveName volume device nowMillis nextSeq) = none := by
      rw [FileSystem.exists?, Option.isSome_iff_ne_none, not_not] at hexists
      exact hexists
    split at h
    · cases h
      exact .refused _
    · split at h
      · cases h
        exact .refused _
      · rename_i moved hrename
        split at h
        · cases h
          exact .unopened hfree hrename _
        · obtain ⟨⟨i, hi⟩, -, -, hgone⟩ := FileSystem.rename_eq_some hrename
          have hne : device.path ≠ archiveName volume device nowMillis nextSeq := by
            intro heq
            rw [← heq, hi] at hfree
            cases hfree
          rw [FileSystem.openAppend_of_none (hgone hne)] at h
          cases h
          exact .rotated hfree hrename

/-- What is written after the rotation: the whole line, or nothing that is left. -/
inductive AppendCase (volume : Volume) (device : FileDevice) (line : List UInt8) :
    Volume → FileDevice → Except String Unit → Prop
  | written : AppendCase volume device line (volume.modify device.file (· ++ line))
      { device with written := device.written + line.length } (.ok ())
  | cut (count : Nat) (error : String) :
      AppendCase volume device line
        (volume.modify device.file (setLen device.written ∘ (· ++ line.take count))) device
        (.error error)

theorem append_cases {line : List UInt8} {fault : FileFault} (hcut : fault.truncateFails = false)
    (h : append volume device line fault = (volume', device', outcome)) :
    AppendCase volume device line volume' device' outcome := by
  unfold append at h
  split at h
  · cases h
    exact .written
  · rename_i count error _
    dsimp only at h
    rw [hcut, if_neg Bool.false_ne_true, FileSystem.modify_modify] at h
    cases h
    exact .cut count _

/-! ### The files in their order -/

/-- The archives in this order and then the live file, one after the other. -/
def concatenation (volume : Volume) (archives : List String) (path : String) : List UInt8 :=
  (archives ++ [path]).flatMap fun name => (volume.read name).getD []

/-- The archives lead to files of which no two are the same, the handle to the last of the archives
when nothing has the path and otherwise to what has the path, and the counter is its length. -/
structure Ordered (volume : Volume) (device : FileDevice) (archives : List String)
    (before : List Nat) : Prop where
  leads : (volume.entry device.path = some device.file ∧
      archives.map volume.entry = before.map some) ∨
    (volume.entry device.path = none ∧
      archives.map volume.entry = (before ++ [device.file]).map some)
  nodup : (before ++ [device.file]).Nodup
  written : device.written = (volume.data device.file).length

namespace Ordered

variable {archives : List String} {before : List Nat}

theorem entries (h : Ordered volume device archives before) {name : String} (hname : name ∈ archives) :
    ∃ i ∈ before ++ [device.file], volume.entry name = some i ∧ name ≠ device.path := by
  have hmem : volume.entry name ∈ archives.map volume.entry := List.mem_map_of_mem hname
  rcases h.leads with ⟨hlive, hentries⟩ | ⟨hgone, hentries⟩
  · rw [hentries] at hmem
    obtain ⟨i, hi, heq⟩ := List.mem_map.mp hmem
    refine ⟨i, List.mem_append_left _ hi, heq.symm, ?_⟩
    rintro rfl
    rw [hlive, Option.some.injEq] at heq
    have hdisjoint := List.disjoint_of_nodup_append h.nodup hi
    exact hdisjoint (List.mem_singleton.mpr heq)
  · rw [hentries] at hmem
    obtain ⟨i, hi, heq⟩ := List.mem_map.mp hmem
    refine ⟨i, hi, heq.symm, ?_⟩
    rintro rfl
    rw [hgone] at heq
    cases heq

theorem lt_fresh (h : Ordered volume device archives before) {i : Nat}
    (hi : i ∈ before ++ [device.file]) : i < volume.fresh := by
  have hmapped : some i ∈ (before ++ [device.file]).map some := List.mem_map_of_mem hi
  rcases h.leads with ⟨hlive, hentries⟩ | ⟨-, hentries⟩
  · rw [List.map_append, List.map_singleton, ← hentries, List.mem_append, List.mem_singleton]
      at hmapped
    rcases hmapped with harchive | hfile
    · obtain ⟨name, -, hname⟩ := List.mem_map.mp harchive
      exact volume.entry_lt name i hname
    · rw [Option.some.injEq] at hfile
      rw [hfile]
      exact volume.entry_lt device.path device.file hlive
  · rw [← hentries] at hmapped
    obtain ⟨name, -, hname⟩ := List.mem_map.mp hmapped
    exact volume.entry_lt name i hname

/-- What the files hold in this order does not depend on whether the live file has its path. -/
theorem concatenation_eq (h : Ordered volume device archives before) :
    concatenation volume archives device.path =
      (before ++ [device.file]).flatMap volume.data := by
  have hread : ∀ {names : List String} {files : List Nat},
      names.map volume.entry = files.map some →
      names.flatMap (fun name => (volume.read name).getD []) = files.flatMap volume.data := by
    intro names files hentries
    have hcontents : names.map (fun name => (volume.read name).getD []) =
        files.map volume.data := by
      calc names.map (fun name => (volume.read name).getD [])
          = (names.map volume.entry).map (fun entry => (entry.map volume.data).getD []) := by
            rw [List.map_map]
            rfl
        _ = (files.map some).map (fun entry => (entry.map volume.data).getD []) := by rw [hentries]
        _ = files.map volume.data := by
            rw [List.map_map]
            rfl
    rw [List.flatMap_def, List.flatMap_def, hcontents]
  unfold concatenation
  rw [List.flatMap_append, List.flatMap_singleton]
  rcases h.leads with ⟨hlive, hentries⟩ | ⟨hgone, hentries⟩
  · rw [hread hentries, FileSystem.read, hlive, List.flatMap_append, List.flatMap_singleton]
    rfl
  · rw [hread hentries, FileSystem.read, hgone]
    exact List.append_nil _

/-- A new file at the path becomes the live one. -/
theorem create {before : List Nat} (hgone : volume.entry device.path = none)
    (hentries : archives.map volume.entry = before.map some) (hnodup : before.Nodup) :
    Ordered (volume.create device.path) { device with file := volume.fresh, written := 0 }
      archives before where
  leads := by
    refine .inl ⟨FileSystem.create_entry_self volume device.path, ?_⟩
    rw [← hentries]
    apply List.map_congr_left
    intro name hname
    apply FileSystem.create_entry_of_ne
    rintro rfl
    have hmem : volume.entry device.path ∈ archives.map volume.entry := List.mem_map_of_mem hname
    rw [hentries, hgone] at hmem
    obtain ⟨i, -, heq⟩ := List.mem_map.mp hmem
    cases heq
  nodup := by
    apply List.Nodup.append hnodup (List.nodup_singleton _)
    rw [List.disjoint_singleton]
    intro hmem
    have hmapped : some volume.fresh ∈ before.map some := List.mem_map_of_mem hmem
    rw [← hentries] at hmapped
    obtain ⟨name, -, hname⟩ := List.mem_map.mp hmapped
    exact lt_irrefl _ (volume.entry_lt name volume.fresh hname)
  written := (congrArg List.length (FileSystem.create_data_fresh volume device.path)).symm

end Ordered

/-- Every file but the live one keeps its name and everything it holds. -/
def Kept (path : String) (volume volume' : Volume) : Prop :=
  ∀ name content, name ≠ path → volume.read name = some content →
    ∃ more, volume'.read name = some (content ++ more)

theorem Kept.refl (path : String) (volume : Volume) : Kept path volume volume := by
  intro name content _ hread
  refine ⟨[], ?_⟩
  rw [List.append_nil]
  exact hread

theorem Kept.trans {path : String} {volume'' : Volume} (h : Kept path volume volume')
    (h' : Kept path volume' volume'') : Kept path volume volume'' := by
  intro name content hne hread
  obtain ⟨more, hmore⟩ := h name content hne hread
  obtain ⟨more', hmore'⟩ := h' name (content ++ more) hne hmore
  refine ⟨more ++ more', ?_⟩
  rw [hmore', List.append_assoc]

theorem Kept.create (path : String) (volume : Volume) : Kept path volume (volume.create path) := by
  intro name content hne hread
  obtain ⟨i, hi, rfl⟩ := Option.map_eq_some_iff.mp hread
  refine ⟨[], ?_⟩
  rw [List.append_nil, FileSystem.read, FileSystem.create_entry_of_ne _ hne, hi, Option.map_some,
    FileSystem.create_data_of_lt _ _ (volume.entry_lt name i hi)]

theorem Kept.modify (path : String) (volume : Volume) (i : Nat) {f : List UInt8 → List UInt8}
    {more : List UInt8} (hf : f (volume.data i) = volume.data i ++ more) :
    Kept path volume (volume.modify i f) := by
  intro name content _ hread
  obtain ⟨j, hj, rfl⟩ := Option.map_eq_some_iff.mp hread
  rw [FileSystem.read, FileSystem.modify_entry, hj, Option.map_some]
  by_cases heq : j = i
  · refine ⟨more, ?_⟩
    rw [heq, FileSystem.modify_data_self, hf]
  · refine ⟨[], ?_⟩
    rw [FileSystem.modify_data_of_ne _ _ heq, List.append_nil]

/-! ### One call -/

/-- The archive that a call has added to the directory, if it has added one under this name. -/
def addedArchive (volume volume' : Volume) (name : String) : List String :=
  if volume'.exists? name && !volume.exists? name then [name] else []

theorem addedArchive_of_same (name : String) (h : volume'.entry = volume.entry) :
    addedArchive volume volume' name = [] := by
  unfold addedArchive FileSystem.exists?
  rw [h, Bool.and_not_self, if_neg Bool.false_ne_true]

theorem addedArchive_of_new {name : String} {i : Nat} (hfree : volume.entry name = none)
    (hi : volume'.entry name = some i) : addedArchive volume volume' name = [name] := by
  unfold addedArchive FileSystem.exists?
  rw [hfree, hi]
  rfl

variable {archives : List String} {before : List Nat} {name : String}

/-- The live file under the name of an archive: its place in the order is the same. -/
theorem Ordered.moved {moved : Volume} (h : Ordered volume device archives before)
    (hfree : volume.entry name = none) (hrename : volume.rename device.path name = some moved) :
    Ordered moved device (archives ++ [name]) before ∧ moved.entry name = some device.file ∧
      moved.entry device.path = none ∧ moved.data = volume.data ∧ Kept device.path volume moved := by
  obtain ⟨⟨i, hi⟩, hdata, -, hgone⟩ := FileSystem.rename_eq_some hrename
  obtain ⟨hlive, hentries⟩ : volume.entry device.path = some device.file ∧
      archives.map volume.entry = before.map some := by
    rcases h.leads with hleads | ⟨hnone, -⟩
    · exact hleads
    · rw [hi] at hnone
      cases hnone
  obtain ⟨hname, hothers⟩ := FileSystem.rename_entry hlive hrename
  have hne : device.path ≠ name := by
    rintro rfl
    rw [hi] at hfree
    cases hfree
  refine ⟨⟨.inr ⟨hgone hne, ?_⟩, h.nodup, ?_⟩, hname, hgone hne, hdata, ?_⟩
  · rw [List.map_append, List.map_singleton, hname, List.map_append, List.map_singleton, ← hentries]
    congr 1
    apply List.map_congr_left
    intro other hother
    obtain ⟨j, -, hj, hpath⟩ := h.entries hother
    apply hothers other hpath
    rintro rfl
    rw [hj] at hfree
    cases hfree
  · rw [hdata]
    exact h.written
  · intro other content hpath hread
    refine ⟨[], ?_⟩
    have hother : other ≠ name := by
      rintro rfl
      rw [FileSystem.read, hfree] at hread
      cases hread
    rw [List.append_nil, FileSystem.read, hothers other hpath hother, hdata]
    exact hread

/-- A rotation adds at most its archive, and the files in their order hold what they held. -/
theorem Ordered.rotate (h : Ordered volume device archives before)
    (hcase : RotateCase volume device name volume' device' outcome) :
    device'.path = device.path ∧ Kept device.path volume volume' ∧
      ∃ before', Ordered volume' device' (archives ++ addedArchive volume volume' name) before' ∧
        concatenation volume' (archives ++ addedArchive volume volume' name) device.path =
          concatenation volume archives device.path := by
  cases hcase with
  | refused error =>
      rw [addedArchive_of_same name rfl, List.append_nil]
      exact ⟨rfl, .refl _ _, before, h, rfl⟩
  | unopened hfree hrename error =>
      obtain ⟨hmoved, hname, -, hdata, hkept⟩ := h.moved hfree hrename
      rw [addedArchive_of_new hfree hname]
      refine ⟨rfl, hkept, before, hmoved, ?_⟩
      rw [hmoved.concatenation_eq, h.concatenation_eq, hdata]
  | @rotated moved hfree hrename =>
      obtain ⟨hmoved, hname, hgone, hdata, hkept⟩ := h.moved hfree hrename
      have hentries : (archives ++ [name]).map moved.entry = (before ++ [device.file]).map some := by
        rcases hmoved.leads with ⟨hlive, -⟩ | ⟨-, hentries⟩
        · rw [hgone] at hlive
          cases hlive
        · exact hentries
      have hne : name ≠ device.path := by
        rintro rfl
        rw [hgone] at hname
        cases hname
      have hcreated := Ordered.create hgone hentries hmoved.nodup
      have hadded : addedArchive volume (moved.create device.path) name = [name] := by
        apply addedArchive_of_new hfree
        rw [FileSystem.create_entry_of_ne _ hne]
        exact hname
      rw [hadded]
      refine ⟨rfl, hkept.trans (.create _ _), _, hcreated, ?_⟩
      calc concatenation (moved.create device.path) (archives ++ [name]) device.path
          = ((before ++ [device.file]) ++ [moved.fresh]).flatMap (moved.create device.path).data :=
            hcreated.concatenation_eq
        _ = (before ++ [device.file]).flatMap (moved.create device.path).data := by
            rw [List.flatMap_append, List.flatMap_singleton, FileSystem.create_data_fresh]
            exact List.append_nil _
        _ = (before ++ [device.file]).flatMap moved.data := by
            rw [List.flatMap_def, List.flatMap_def]
            congr 1
            apply List.map_congr_left
            intro i hi
            exact FileSystem.create_data_of_lt _ _ (hmoved.lt_fresh hi)
        _ = concatenation volume archives device.path := by
            rw [h.concatenation_eq, hdata]

/-- The records an outcome leaves in the files. -/
def recorded (record : EncodedRecord) : Except String Unit → List EncodedRecord
  | .ok _ => [record]
  | .error _ => []

theorem Ordered.modify (h : Ordered volume device archives before) {f : List UInt8 → List UInt8}
    {more : List UInt8} (hf : f (volume.data device.file) = volume.data device.file ++ more) :
    Ordered (volume.modify device.file f)
        { device with written := device.written + more.length } archives before ∧
      concatenation (volume.modify device.file f) archives device.path =
        concatenation volume archives device.path ++ more := by
  have hordered : Ordered (volume.modify device.file f)
      { device with written := device.written + more.length } archives before := by
    refine ⟨h.leads, h.nodup, ?_⟩
    rw [FileSystem.modify_data_self, hf, List.length_append, ← h.written]
  refine ⟨hordered, ?_⟩
  have hbefore : before.flatMap (volume.modify device.file f).data = before.flatMap volume.data := by
    rw [List.flatMap_def, List.flatMap_def]
    congr 1
    apply List.map_congr_left
    intro i hi
    apply FileSystem.modify_data_of_ne
    rintro rfl
    exact List.disjoint_of_nodup_append h.nodup hi List.mem_cons_self
  calc concatenation (volume.modify device.file f) archives device.path
      = (before ++ [device.file]).flatMap (volume.modify device.file f).data :=
        hordered.concatenation_eq
    _ = before.flatMap volume.data ++ (volume.data device.file ++ more) := by
        rw [List.flatMap_append, List.flatMap_singleton, hbefore, FileSystem.modify_data_self, hf]
    _ = concatenation volume archives device.path ++ more := by
        rw [h.concatenation_eq, List.flatMap_append, List.flatMap_singleton, List.append_assoc]

/-- A line that is accepted is added to the end; one that is not leaves nothing behind. -/
theorem Ordered.append {record : EncodedRecord} (h : Ordered volume device archives before)
    (hcase : AppendCase volume device (lineOf record) volume' device' outcome) :
    device'.path = device.path ∧ Kept device.path volume volume' ∧ volume'.entry = volume.entry ∧
      Ordered volume' device' archives before ∧
        concatenation volume' archives device.path =
          concatenation volume archives device.path ++ (recorded record outcome).flatMap lineOf := by
  cases hcase with
  | written =>
      obtain ⟨hordered, hconcatenation⟩ := h.modify (f := (· ++ lineOf record)) rfl
      refine ⟨rfl, .modify _ _ _ rfl, rfl, hordered, ?_⟩
      rw [hconcatenation, recorded, List.flatMap_singleton]
  | cut count error =>
      have hf : (setLen device.written ∘ (· ++ (lineOf record).take count))
          (volume.data device.file) = volume.data device.file ++ [] := by
        rw [Function.comp_apply, h.written, setLen_append, List.append_nil]
      obtain ⟨hordered, hconcatenation⟩ := h.modify hf
      exact ⟨rfl, .modify _ _ _ hf, rfl, hordered, hconcatenation⟩

theorem addedArchive_of_append {volume'' : Volume} (h : volume''.entry = volume'.entry) :
    addedArchive volume volume'' name = addedArchive volume volume' name := by
  unfold addedArchive FileSystem.exists?
  rw [h]

theorem Ordered.write {record : EncodedRecord} {fault : FileFault}
    (h : Ordered volume device archives before) (hcut : fault.truncateFails = false)
    (hwrite : write volume device record fault = (volume', device', outcome)) :
    device'.path = device.path ∧ Kept device.path volume volume' ∧
      ∃ before', Ordered volume' device' (archives ++ addedArchive volume volume'
          (archiveName volume device record.tsMillis record.seq)) before' ∧
        concatenation volume' (archives ++ addedArchive volume volume'
            (archiveName volume device record.tsMillis record.seq)) device.path =
          concatenation volume archives device.path ++ (recorded record outcome).flatMap lineOf := by
  unfold FileDevice.write at hwrite
  dsimp only at hwrite
  split at hwrite
  · cases hrotate : FileDevice.rotate volume device record.tsMillis record.seq fault with
    | mk mid rest =>
        obtain ⟨device₁, rotation⟩ := rest
        obtain ⟨hpath, hkept, before₁, hordered, hconcatenation⟩ := h.rotate (rotate_cases hrotate)
        rw [hrotate] at hwrite
        cases rotation with
        | error error =>
            cases hwrite
            refine ⟨hpath, hkept, before₁, hordered, ?_⟩
            rw [hconcatenation, recorded, List.flatMap_nil, List.append_nil]
        | ok _ =>
            obtain ⟨hpath', hkept', hentry, hordered', hconcatenation'⟩ :=
              hordered.append (append_cases hcut hwrite)
            rw [hpath] at hpath' hkept' hconcatenation'
            rw [addedArchive_of_append hentry]
            refine ⟨hpath', hkept.trans hkept', before₁, hordered', ?_⟩
            rw [hconcatenation', hconcatenation]
  · obtain ⟨hpath, hkept, hentry, hordered, hconcatenation⟩ := h.append (append_cases hcut hwrite)
    rw [addedArchive_of_same _ hentry, List.append_nil]
    exact ⟨hpath, hkept, before, hordered, hconcatenation⟩

/-- The handle moved to the file at the path, with the length of that file for a counter. -/
theorem Ordered.openAppend (h : Ordered volume device archives before) {written : Nat}
    (hwritten : written = ((volume.read device.path).getD []).length) :
    Kept device.path volume (volume.openAppend device.path).2 ∧
      ∃ before', Ordered (volume.openAppend device.path).2
          { device with file := (volume.openAppend device.path).1, written := written }
          archives before' ∧
        concatenation (volume.openAppend device.path).2 archives device.path =
          concatenation volume archives device.path := by
  rcases h.leads with ⟨hlive, hentries⟩ | ⟨hgone, hentries⟩
  · rw [FileSystem.openAppend_of_some hlive]
    refine ⟨.refl _ _, before, ⟨.inl ⟨hlive, hentries⟩, h.nodup, ?_⟩, rfl⟩
    rw [hwritten, FileSystem.read, hlive]
    rfl
  · rw [FileSystem.openAppend_of_none hgone]
    have hzero : written = 0 := by
      rw [hwritten, FileSystem.read, hgone]
      rfl
    subst hzero
    have hcreated := Ordered.create hgone hentries h.nodup
    refine ⟨.create _ _, _, hcreated, ?_⟩
    calc concatenation (volume.create device.path) archives device.path
        = ((before ++ [device.file]) ++ [volume.fresh]).flatMap (volume.create device.path).data :=
          hcreated.concatenation_eq
      _ = (before ++ [device.file]).flatMap (volume.create device.path).data := by
          rw [List.flatMap_append, List.flatMap_singleton, FileSystem.create_data_fresh]
          exact List.append_nil _
      _ = concatenation volume archives device.path := by
          rw [h.concatenation_eq, List.flatMap_def, List.flatMap_def]
          congr 1
          apply List.map_congr_left
          intro i hi
          exact FileSystem.create_data_of_lt _ _ (h.lt_fresh hi)

end FileDevice

/-! ### Runs -/

/-- A call of the device, with what happens to its operations. -/
inductive FileCall where
  | write (record : EncodedRecord) (fault : FileFault)
  | rotate (nowMillis : Int) (nextSeq : Nat) (fault : FileFault)
  | reopen (fault : FileFault)
  | reopenUnmeasured (error : String)

/-- A device in its directory, with the archives it has made, in the order in which it has made
them, and the records it has accepted. -/
structure FileLife where
  volume : Volume
  device : FileDevice
  archives : List String
  accepted : List EncodedRecord

namespace FileLife

open FileDevice

/-- What the files hold, in order. -/
def concatenation (s : FileLife) : List UInt8 :=
  FileDevice.concatenation s.volume s.archives s.device.path

def answer (s : FileLife) : FileCall → Volume × FileDevice × Except String Unit
  | .write record fault => write s.volume s.device record fault
  | .rotate nowMillis nextSeq fault => rotate s.volume s.device nowMillis nextSeq fault
  | .reopen fault => reopen s.volume s.device fault
  | .reopenUnmeasured error => reopenUnmeasured s.volume s.device error

/-- The archive a call has made, when it has made one. -/
def archived (s : FileLife) (volume' : Volume) : FileCall → List String
  | .write record _ =>
      addedArchive s.volume volume' (archiveName s.volume s.device record.tsMillis record.seq)
  | .rotate nowMillis nextSeq _ =>
      addedArchive s.volume volume' (archiveName s.volume s.device nowMillis nextSeq)
  | _ => []

/-- The record a call has accepted, when it has accepted one. -/
def acceptedBy (outcome : Except String Unit) : FileCall → List EncodedRecord
  | .write record _ => recorded record outcome
  | _ => []

def after (s : FileLife) (call : FileCall) : FileLife :=
  let (volume', device', outcome) := s.answer call
  ⟨volume', device', s.archives ++ s.archived volume' call,
    s.accepted ++ acceptedBy outcome call⟩

def step (s : FileLife) (call : FileCall) : Option FileLife := some (s.after call)

/-- A device that has just been opened. -/
def start (volume : Volume) (device : FileDevice) : FileLife := ⟨volume, device, [], []⟩

/-- What is written in part can be cut off again. -/
def CutsOff : FileCall → Prop
  | .write _ fault => fault.truncateFails = false
  | _ => True

/-- The size of the file at the path is what the counter says, where `reopen` cannot ask for it. -/
def CounterFits (s : FileLife) : FileCall → Prop
  | .reopenUnmeasured _ => s.device.written = ((s.volume.read s.device.path).getD []).length
  | _ => True

instance : (call : FileCall) → Decidable (CutsOff call)
  | .write _ fault => inferInstanceAs (Decidable (fault.truncateFails = false))
  | .rotate .. | .reopen _ | .reopenUnmeasured _ => inferInstanceAs (Decidable True)

instance (s : FileLife) : (call : FileCall) → Decidable (s.CounterFits call)
  | .reopenUnmeasured _ => inferInstanceAs (Decidable (_ = _))
  | .write .. | .rotate .. | .reopen _ => inferInstanceAs (Decidable True)

/-- What every call keeps: the files have their order, and they hold what the live file held at
first and the lines of the accepted records. -/
structure Inv (path : String) (initial : List UInt8) (s : FileLife) : Prop where
  path_eq : s.device.path = path
  ordered : ∃ before, Ordered s.volume s.device s.archives before
  holds : s.concatenation = initial ++ s.accepted.flatMap lineOf

variable {path : String} {initial : List UInt8} {s : FileLife}

theorem Inv.start {rotateAt : Option Nat} {volume volume' : Volume} {fault : FileFault}
    {device : FileDevice} (h : opened path rotateAt volume fault = (volume', .ok device)) :
    Inv path ((volume.read path).getD []) (start volume' device) := by
  have hpath := opened_path h
  unfold opened at h
  split at h
  · cases h
  · cases h
    obtain ⟨hentry, hdata⟩ := volume.openAppend_entry path
    refine ⟨rfl, ⟨[], .inl ⟨hentry, rfl⟩, List.nodup_singleton _, rfl⟩, ?_⟩
    show FileDevice.concatenation (volume.openAppend path).2 [] path = _ ++ [].flatMap lineOf
    unfold FileDevice.concatenation
    rw [List.nil_append, List.flatMap_singleton, FileSystem.read, hentry, List.flatMap_nil,
      List.append_nil]
    exact hdata

/-- One call keeps the invariant and every file but the live one, and adds the line of the record it
accepts. -/
theorem Inv.after (h : Inv path initial s) {call : FileCall} (hcut : CutsOff call)
    (hfits : s.CounterFits call) :
    Inv path initial (s.after call) ∧ Kept path s.volume (s.after call).volume := by
  obtain ⟨rfl, ⟨before, hordered⟩, hholds⟩ := h
  unfold FileLife.concatenation at hholds
  unfold FileLife.after
  cases hanswer : s.answer call with
  | mk volume' rest =>
      obtain ⟨device', outcome⟩ := rest
      dsimp only
      cases call with
      | write record fault =>
          obtain ⟨hpath, hkept, before', hordered', hconcatenation⟩ := hordered.write hcut hanswer
          refine ⟨⟨hpath, ⟨before', hordered'⟩, ?_⟩, hkept⟩
          unfold FileLife.concatenation
          dsimp only
          rw [hpath, archived, hconcatenation, hholds, List.flatMap_append, List.append_assoc]
          rfl
      | rotate nowMillis nextSeq fault =>
          obtain ⟨hpath, hkept, before', hordered', hconcatenation⟩ :=
            hordered.rotate (rotate_cases hanswer)
          refine ⟨⟨hpath, ⟨before', hordered'⟩, ?_⟩, hkept⟩
          unfold FileLife.concatenation
          dsimp only
          rw [hpath, archived, hconcatenation, hholds]
          unfold acceptedBy
          rw [List.append_nil]
      | reopen fault =>
          unfold archived acceptedBy
          rw [List.append_nil, List.append_nil]
          unfold answer FileDevice.reopen at hanswer
          dsimp only at hanswer
          split at hanswer
          · cases hanswer
            exact ⟨⟨rfl, ⟨before, hordered⟩, hholds⟩, .refl _ _⟩
          · cases hanswer
            obtain ⟨hkept, before', hordered', hconcatenation⟩ :=
              hordered.openAppend (congrArg List.length
                (s.volume.openAppend_entry s.device.path).2)
            exact ⟨⟨rfl, ⟨before', hordered'⟩, hconcatenation.trans hholds⟩, hkept⟩
      | reopenUnmeasured error =>
          unfold archived acceptedBy
          rw [List.append_nil, List.append_nil]
          unfold answer FileDevice.reopenUnmeasured at hanswer
          cases hanswer
          obtain ⟨hkept, before', hordered', hconcatenation⟩ := hordered.openAppend hfits
          exact ⟨⟨rfl, ⟨before', hordered'⟩, hconcatenation.trans hholds⟩, hkept⟩

/-- Whatever is called after the file has been opened, and whatever fails, the counter is the length
of the file that is appended to, the archives in the order of their creation and then the live file
hold what the live file held at first and the line of every accepted record once and in order, a
write that fails changes nothing of this, and no archive is overwritten, as long as no `reopen` that
cannot ask for the size finds a file of another size. -/
theorem exactly_once (path : String) (rotateAt : Option Nat) (volume volume' : Volume)
    (fault : FileFault) (device : FileDevice)
    (hopened : opened path rotateAt volume fault = (volume', .ok device)) (s : FileLife)
    (hs : Transition.Reachable (· = start volume' device) step
      (fun s call => CutsOff call ∧ s.CounterFits call) s) :
    s.device.written = (s.volume.data s.device.file).length ∧
    s.concatenation = (volume.read path).getD [] ++ s.accepted.flatMap lineOf ∧
    ∀ call, CutsOff call → s.CounterFits call →
      ((∃ error, (s.answer call).2.2 = .error error) →
        (s.after call).accepted = s.accepted ∧ (s.after call).concatenation = s.concatenation) ∧
      s.archives <+: (s.after call).archives ∧
      ∀ name content, name ≠ path → s.volume.read name = some content →
        ∃ more, (s.after call).volume.read name = some (content ++ more) := by
  have hinv : Inv path ((volume.read path).getD []) s := by
    apply hs.invariant
    · rintro s rfl
      exact .start hopened
    · rintro s call s' hinv ⟨hcut, hfits⟩ hstep
      cases hstep
      exact (hinv.after hcut hfits).1
  obtain ⟨before, hordered⟩ := hinv.ordered
  refine ⟨hordered.written, hinv.holds, ?_⟩
  intro call hcut hfits
  obtain ⟨hafter, hkept⟩ := hinv.after hcut hfits
  refine ⟨?_, List.prefix_append _ _, hkept⟩
  rintro ⟨error, herror⟩
  have hsame : (s.after call).accepted = s.accepted := by
    show s.accepted ++ acceptedBy (s.answer call).2.2 call = s.accepted
    rw [herror]
    cases call <;> exact List.append_nil _
  refine ⟨hsame, ?_⟩
  rw [hafter.holds, hsame, hinv.holds]

/-- The counter is right after a `reopen` that cannot ask for the size exactly when it was right for
the file at the path before. -/
theorem reopenUnmeasured_iff (s : FileLife) (error : String) :
    (s.after (.reopenUnmeasured error)).device.written =
        ((s.after (.reopenUnmeasured error)).volume.data
          (s.after (.reopenUnmeasured error)).device.file).length ↔
      s.CounterFits (.reopenUnmeasured error) := by
  show s.device.written = ((s.volume.openAppend s.device.path).2.data
    (s.volume.openAppend s.device.path).1).length ↔ _
  rw [(s.volume.openAppend_entry s.device.path).2]
  rfl

end FileLife

def shortRecord (seq : Nat) (payload : String) : EncodedRecord :=
  ⟨seq, 0, Vector.replicate 32 0, Vector.replicate 32 0, payload⟩

/-- A new file that is rotated at this size. -/
def shortLog (limit : Nat) : Volume × Except String FileDevice :=
  FileDevice.opened "audit.jsonl" (some limit) FileSystem.empty {}

def shortLogDevice (limit : Nat) : FileDevice :=
  ⟨"file:audit.jsonl", "audit.jsonl", 0, 0, some limit⟩

/-- Rotations within one millisecond, a write that is cut off, and a rotation that cannot start a
new file. -/
def burst : List FileCall :=
  [.write (shortRecord 1 "a") {}, .write (shortRecord 1 "b") {}, .write (shortRecord 1 "c") {},
    .write (shortRecord 2 "d") { write := some (1, "ENOSPC") },
    .write (shortRecord 2 "e") {}, .write (shortRecord 1 "f") { openFile := some "EMFILE" },
    .reopen {}, .write (shortRecord 1 "g") {}]

/-- A write whose rotation cannot start a new file, and then a `reopen` that cannot ask for the
size. -/
def unmeasured : List FileCall :=
  [.write (shortRecord 1 "a") {}, .write (shortRecord 2 "bb") { openFile := some "EMFILE" },
    .reopenUnmeasured "EIO"]

def fullDisk : FileCall := .write (shortRecord 2 "b") { write := some (0, "ENOSPC") }

namespace FileLife

theorem exactly_once_in_burst :
    ∃ s, Transition.run step (start (shortLog 2).1 (shortLogDevice 2)) burst = some s ∧
      s.accepted.map (·.payload) = ["a", "b", "c", "e", "g"] ∧ s.archives.length = 4 ∧
      s.device.written = (s.volume.data s.device.file).length ∧
      s.concatenation = s.accepted.flatMap FileDevice.lineOf := by
  obtain ⟨s, hrun, haccepted, harchives⟩ :
      ∃ s, Transition.run step (start (shortLog 2).1 (shortLogDevice 2)) burst = some s ∧
        s.accepted.map (·.payload) = ["a", "b", "c", "e", "g"] ∧ s.archives.length = 4 := by
    refine ⟨_, rfl, ?_, ?_⟩
    · decide +kernel
    · decide +kernel
  have hreach : Transition.Reachable (· = start (shortLog 2).1 (shortLogDevice 2)) step
      (fun s call => CutsOff call ∧ s.CounterFits call) s :=
    Transition.reachable_of_run burst (.start rfl) (by decide +kernel) hrun
  obtain ⟨hwritten, hholds, -⟩ := exactly_once "audit.jsonl" (some 2) FileSystem.empty
    (shortLog 2).1 {} (shortLogDevice 2) rfl s hreach
  exact ⟨s, hrun, haccepted, harchives, hwritten, hholds⟩

/-- Without the condition: the counter is that of the file before, and the next write that fails
fills the new file up with zeros. -/
theorem not_exactly_once_unmeasured :
    ∃ s, FileDevice.opened "audit.jsonl" (some 4) FileSystem.empty {} =
        ((shortLog 4).1, .ok (shortLogDevice 4)) ∧
      Transition.Reachable (· = start (shortLog 4).1 (shortLogDevice 4)) step
        (fun _ call => CutsOff call) s ∧
      s.device.written = 2 ∧ s.volume.data s.device.file = [] ∧
      (s.answer fullDisk).2.2 = .error "could not write to audit.jsonl: ENOSPC" ∧
      (s.after fullDisk).concatenation ≠ s.concatenation := by
  obtain ⟨s, hrun, hwritten, hlive, hfull, hchanged⟩ :
      ∃ s, Transition.run step (start (shortLog 4).1 (shortLogDevice 4)) unmeasured = some s ∧
        s.device.written = 2 ∧ s.volume.data s.device.file = [] ∧
        (s.answer fullDisk).2.2 = .error "could not write to audit.jsonl: ENOSPC" ∧
        (s.after fullDisk).concatenation ≠ s.concatenation := by
    refine ⟨_, rfl, ?_, ?_, ?_, ?_⟩
    · decide +kernel
    · decide +kernel
    · decide +kernel
    · decide +kernel
  have hreach : Transition.Reachable (· = start (shortLog 4).1 (shortLogDevice 4)) step
      (fun _ call => CutsOff call) s :=
    Transition.reachable_of_run unmeasured (.start rfl) (by decide +kernel) hrun
  exact ⟨s, rfl, hreach, hwritten, hlive, hfull, hchanged⟩

end FileLife

end Ciphr
