import Ciphr.AuditContinuation
import Ciphr.AuditFileWrites

/-!
The life of a trail: processes that write to the devices of one configuration, one after the other.
A process ends between two calls or inside a call; the next one opens the devices again and resumes
the chain. What is left of it is the database and the files.
-/

namespace Ciphr

/-- The path of a file stanza. -/
def AuditConfig.path? : AuditConfig → Option String
  | .sqlite => none
  | .file path _ => some path

/-- The paths of the file devices of a configuration. -/
def Config.filePaths (config : Config) : List String := config.audit.filterMap (·.path?)

def Slot.path? (slot : Slot Device) : Option String := slot.device.path?

/-- The files in which a record stands after a list of attempts, as their devices have accepted it:
the path, the number of the file and the record. -/
def acceptedFiles (record : EncodedRecord) (attempts : List (Attempt Device)) :
    List (String × Nat × EncodedRecord) :=
  attempts.filterMap fun attempt =>
    match attempt.outcome, attempt.slot.device with
    | some (.ok ()), .file device => some (device.path, device.file, record)
    | _, _ => none

/-- The world, the process that is running, and what has happened: the records that were reported as
committed, those that have become part of the stored chain, and those that a file device accepted. -/
structure AuditLife where
  world : AuditWorld
  sink : Option (AuditSink Device)
  committed : List EncodedRecord
  issued : List EncodedRecord
  accepted : List (String × Nat × EncodedRecord)

inductive AuditEvent where
  /-- A call of `AuditSink::record` that returns. -/
  | record (entry : Entry) (nowMillis : Int) (io : Nat → DeviceFault)
  /-- A call of `AuditSink::record` that ends with the process: the slots before `slot` have been
  written to, and of the line of slot number `slot` at most `count` bytes have reached the file. -/
  | crash (entry : Entry) (nowMillis : Int) (io : Nat → DeviceFault) (slot count : Nat)
  /-- The process ends, and another one starts. -/
  | restart (opening reading : Nat → DeviceFault)

namespace AuditLife

/-- Nothing has been recorded, and no process is running. -/
def Fresh (s : AuditLife) : Prop :=
  s.world.db.auditLog = [] ∧ (s.world.db.auditCut = none ∨ s.world.db.auditCut = some []) ∧
    (∀ path, s.world.files path = .empty) ∧ s.sink = none ∧ s.committed = [] ∧ s.issued = [] ∧
    s.accepted = []

def recorded (codec : Codec) (s : AuditLife) (sink : AuditSink Device) (entry : Entry)
    (nowMillis : Int) (io : Nat → DeviceFault) : AuditLife :=
  let result := sink.record codec s.world io entry nowMillis
  match result.2, sink.chain.encode codec entry nowMillis with
  | .ok _, .ok record =>
      ⟨result.1.1, some result.1.2, s.committed ++ [record], s.issued ++ [record],
        s.accepted ++ acceptedFiles record (attemptAll record io 0 s.world sink.slots).2⟩
  | _, _ => { s with world := result.1.1, sink := some result.1.2 }

/-- What the device of the slot that is being written to leaves behind. A statement of the database
has taken effect or has not. -/
def interrupted (world : AuditWorld) (slot : Option (Slot Device)) (record : EncodedRecord)
    (fault : DeviceFault) (count : Nat) : AuditWorld :=
  match slot with
  | some ⟨.file device, none⟩ =>
      world.setFiles device.path
        (FileDevice.crashedWrite (world.files device.path) device record fault.file count)
  | _ => world

def crashed (s : AuditLife) (sink : AuditSink Device) (record : EncodedRecord)
    (io : Nat → DeviceFault) (slot count : Nat) : AuditLife :=
  let attempts := attemptAll record io 0 s.world (sink.slots.take slot)
  { world := interrupted attempts.1 sink.slots[slot]? record (io slot) count
    sink := none
    committed := s.committed
    issued := if attempts.1.db = s.world.db then s.issued else s.issued ++ [record]
    accepted := s.accepted ++ acceptedFiles record attempts.2 }

/-- `resume` says which chain the new process continues. -/
def restarted (codec : Codec) (config : Config) (resume : AuditLife → Except StoreError Chain)
    (s : AuditLife) (opening reading : Nat → DeviceFault) : AuditLife :=
  let opened := openDevices config s.world opening
  let sink := match opened.2, resume s with
    | .ok devices, .ok chain => (AuditSink.new codec opened.1 devices chain reading).toOption
    | _, _ => none
  { s with world := opened.1, sink := sink }

def step (codec : Codec) (config : Config) (resume : AuditLife → Except StoreError Chain)
    (s : AuditLife) : AuditEvent → Option AuditLife
  | .record entry nowMillis io => s.sink.map fun sink => recorded codec s sink entry nowMillis io
  | .crash entry nowMillis io slot count =>
      s.sink.bind fun sink =>
        (sink.chain.encode codec entry nowMillis).toOption.map fun record =>
          crashed s sink record io slot count
  | .restart opening reading => some (restarted codec config resume s opening reading)

/-- The chain a restart of the server continues. -/
def storeChain (s : AuditLife) : Except StoreError Chain := s.world.db.chainToContinue

end AuditLife

/-! ### What one call does to the world -/

section World

variable (record : EncodedRecord) (io : Nat → DeviceFault)

/-- A write touches the files of its own device only. -/
theorem Device.write_files_of_ne (world : AuditWorld) (device : Device) (fault : DeviceFault)
    {path : String} (h : device.path? ≠ some path) :
    (Device.write world device record fault).1.files path = world.files path := by
  cases device with
  | sqlite table => rfl
  | file log =>
      refine AuditWorld.setFiles_files_of_ne world _ ?_
      rintro rfl
      exact h rfl

theorem Device.write_path? (world : AuditWorld) (device : Device) (fault : DeviceFault) :
    (Device.write world device record fault).2.1.path? = device.path? := by
  cases device with
  | sqlite table => rfl
  | file log => exact congrArg some (FileDevice.write_path _ log record fault.file).1

theorem attemptAll_files_of_not_mem (slots : List (Slot Device)) (n : Nat) (world : AuditWorld)
    {path : String} (h : path ∉ slots.filterMap Slot.path?) :
    (attemptAll record io n world slots).1.files path = world.files path := by
  induction slots generalizing n world with
  | nil => rfl
  | cons slot slots ih =>
      have hslot : slot.path? ≠ some path := by
        intro heq
        apply h
        rw [List.filterMap_cons, heq]
        exact List.mem_cons_self
      have hrest : path ∉ slots.filterMap Slot.path? := by
        intro hmem
        apply h
        rw [List.mem_filterMap] at hmem ⊢
        obtain ⟨other, hother, hpath⟩ := hmem
        exact ⟨other, List.mem_cons_of_mem _ hother, hpath⟩
      unfold attemptAll
      split
      · exact ih (n + 1) world hrest
      · exact (ih (n + 1) _ hrest).trans (Device.write_files_of_ne record world slot.device (io n) hslot)

theorem attemptAll_paths (slots : List (Slot Device)) (n : Nat) (world : AuditWorld) :
    (attemptAll record io n world slots).2.map (·.slot.path?) =
      slots.map Slot.path? := by
  induction slots generalizing n world with
  | nil => rfl
  | cons slot slots ih =>
      unfold attemptAll
      split
      · rw [List.map_cons, List.map_cons, ih]
      · rw [List.map_cons, List.map_cons, ih]
        exact congrArg (· :: _) (Device.write_path? record world slot.device (io n))

/-- Where no two file devices have one path, the first device does not have that of a later one. -/
theorem path_ne_of_nodup {first : Slot Device} {slots : List (Slot Device)}
    (hnodup : ((first :: slots).filterMap Slot.path?).Nodup) {i : Nat} {slot : Slot Device}
    (hslot : slots[i]? = some slot) {path : String} (hpath : slot.path? = some path) :
    (slots.filterMap Slot.path?).Nodup ∧ first.path? ≠ some path := by
  have hmem : path ∈ slots.filterMap Slot.path? :=
    List.mem_filterMap.mpr ⟨_, List.mem_of_getElem? hslot, hpath⟩
  cases hfirst : first.path? with
  | none =>
      rw [List.filterMap_cons_none hfirst] at hnodup
      exact ⟨hnodup, by simp⟩
  | some other =>
      rw [List.filterMap_cons_some hfirst, List.nodup_cons] at hnodup
      refine ⟨hnodup.2, ?_⟩
      intro heq
      cases heq
      exact hnodup.1 hmem

/-- Where no two file devices have one path, a device that is written to finds its files as they
were before the call, and leaves them as its own write does. -/
theorem attemptAll_file (slots : List (Slot Device)) (n : Nat) (world : AuditWorld)
    (hnodup : (slots.filterMap Slot.path?).Nodup) {i : Nat} {log : FileDevice}
    (hslot : slots[i]? = some ⟨.file log, none⟩) :
    (attemptAll record io n world slots).1.files log.path =
        (FileDevice.write (world.files log.path) log record (io (n + i)).file).1 ∧
      (attemptAll record io n world slots).2[i]? =
        some ⟨⟨.file (FileDevice.write (world.files log.path) log record (io (n + i)).file).2.1, none⟩,
          some (FileDevice.write (world.files log.path) log record (io (n + i)).file).2.2⟩ := by
  induction slots generalizing n world i with
  | nil => cases hslot
  | cons first slots ih =>
      cases i with
      | zero =>
          rw [List.getElem?_cons_zero, Option.some.injEq] at hslot
          subst hslot
          have hpath : Slot.path? ⟨.file log, none⟩ = some log.path := rfl
          rw [List.filterMap_cons_some hpath, List.nodup_cons] at hnodup
          unfold attemptAll
          rw [if_neg (by simp)]
          refine ⟨?_, rfl⟩
          refine (attemptAll_files_of_not_mem record io slots (n + 1) _ hnodup.1).trans ?_
          exact AuditWorld.setFiles_files_self world _ _
      | succ i =>
          rw [List.getElem?_cons_succ] at hslot
          have hrest := path_ne_of_nodup hnodup hslot rfl
          have harith : n + (i + 1) = n + 1 + i := by omega
          unfold attemptAll
          rw [harith]
          split
          · exact ih (n + 1) world hrest.1 hslot
          · have := ih (n + 1) (Device.write world first.device record (io n)).1 hrest.1 hslot
            rw [Device.write_files_of_ne record world first.device (io n) hrest.2] at this
            exact this

/-- A device that is not written to keeps its files. -/
theorem attemptAll_quarantined (slots : List (Slot Device)) (n : Nat) (world : AuditWorld)
    (hnodup : (slots.filterMap Slot.path?).Nodup) {i : Nat} {log : FileDevice} {stop : Quarantined}
    (hslot : slots[i]? = some ⟨.file log, some stop⟩) :
    (attemptAll record io n world slots).1.files log.path = world.files log.path ∧
      (attemptAll record io n world slots).2[i]? = some ⟨⟨.file log, some stop⟩, none⟩ := by
  induction slots generalizing n world i with
  | nil => cases hslot
  | cons first slots ih =>
      cases i with
      | zero =>
          rw [List.getElem?_cons_zero, Option.some.injEq] at hslot
          subst hslot
          have hpath : Slot.path? ⟨.file log, some stop⟩ = some log.path := rfl
          rw [List.filterMap_cons_some hpath, List.nodup_cons] at hnodup
          unfold attemptAll
          rw [if_pos (by simp)]
          exact ⟨attemptAll_files_of_not_mem record io slots (n + 1) world hnodup.1, rfl⟩
      | succ i =>
          rw [List.getElem?_cons_succ] at hslot
          have hrest := path_ne_of_nodup hnodup hslot rfl
          unfold attemptAll
          split
          · exact ih (n + 1) world hrest.1 hslot
          · have := ih (n + 1) (Device.write world first.device record (io n)).1 hrest.1 hslot
            rw [Device.write_files_of_ne record world first.device (io n) hrest.2] at this
            exact this

/-- A file device that is still written to after the loop was written to in it. -/
theorem attemptAll_file_inv (slots : List (Slot Device)) (n : Nat) (world : AuditWorld)
    (hnodup : (slots.filterMap Slot.path?).Nodup) {attempt : Attempt Device} {log' : FileDevice}
    (hmem : attempt ∈ (attemptAll record io n world slots).2)
    (hslot : attempt.slot = ⟨.file log', none⟩) :
    ∃ i log result, slots[i]? = some ⟨.file log, none⟩ ∧ log'.path = log.path ∧
      FileDevice.write (world.files log.path) log record (io (n + i)).file =
        ((attemptAll record io n world slots).1.files log.path, log', result) ∧
      attempt.outcome = some result := by
  obtain ⟨i, hi⟩ := List.mem_iff_getElem?.mp hmem
  obtain ⟨slot, hslot', hof⟩ := attemptAll_slot record io slots n world hi
  have hpath : slot.path? = some log'.path := by
    have hpaths := congrArg (·[i]?) (attemptAll_paths record io slots n world)
    simp only [List.getElem?_map, hi, hslot', Option.map_some, Option.some.injEq, hslot] at hpaths
    exact hpaths.symm
  have hwriting : slot.quarantined = none := by
    rw [← hof.quarantined, hslot]
  obtain ⟨device, quarantined⟩ := slot
  cases hwriting
  cases device with
  | sqlite table => cases hpath
  | file log =>
      obtain ⟨hfiles, hattempt⟩ := attemptAll_file record io slots n world hnodup hslot'
      rw [hi, Option.some.injEq] at hattempt
      rw [hattempt] at hslot
      cases hslot
      refine ⟨i, log, _, hslot', (FileDevice.write_path _ log record _).1, ?_, congrArg Attempt.outcome hattempt⟩
      rw [hfiles]

end World

/-! ### Opening the devices -/

section Opening

variable (storagePath : String) (rotateAt : Option Nat) (io : Nat → DeviceFault)

theorem openAll_db (stanzas : List AuditConfig) (n : Nat) (world : AuditWorld) :
    (openAll storagePath rotateAt io n world stanzas).1.db = world.db := by
  induction stanzas generalizing n world with
  | nil => rfl
  | cons stanza stanzas ih =>
      cases stanza with
      | sqlite =>
          unfold openAll
          split
          · rfl
          · exact ih (n + 1) world
      | file path rotateSize =>
          unfold openAll
          split
          · rfl
          · exact (ih (n + 1) _).trans rfl

theorem openAll_files_of_not_mem (stanzas : List AuditConfig) (n : Nat) (world : AuditWorld)
    {path : String} (h : path ∉ stanzas.filterMap (·.path?)) :
    (openAll storagePath rotateAt io n world stanzas).1.files path = world.files path := by
  induction stanzas generalizing n world with
  | nil => rfl
  | cons stanza stanzas ih =>
      cases stanza with
      | sqlite =>
          unfold openAll
          split
          · rfl
          · exact ih (n + 1) world h
      | file other rotateSize =>
          have hother : AuditConfig.path? (.file other rotateSize) = some other := rfl
          rw [List.filterMap_cons_some hother, List.mem_cons, not_or] at h
          unfold openAll
          split
          · exact AuditWorld.setFiles_files_of_ne world _ h.1
          · exact (ih (n + 1) _ h.2).trans (AuditWorld.setFiles_files_of_ne world _ h.1)

/-- The files of a stanza's path are as they were, or as opening them leaves them. -/
theorem openAll_files (stanzas : List AuditConfig) (n : Nat) (world : AuditWorld)
    (hnodup : (stanzas.filterMap (·.path?)).Nodup) {path : String}
    (hmem : path ∈ stanzas.filterMap (·.path?)) :
    (openAll storagePath rotateAt io n world stanzas).1.files path = world.files path ∨
      ∃ fault, (openAll storagePath rotateAt io n world stanzas).1.files path =
        (FileDevice.opened path rotateAt (world.files path) fault).1 := by
  induction stanzas generalizing n world with
  | nil => cases hmem
  | cons stanza stanzas ih =>
      cases stanza with
      | sqlite =>
          unfold openAll
          split
          · exact .inl rfl
          · exact ih (n + 1) world hnodup hmem
      | file other rotateSize =>
          have hother : AuditConfig.path? (.file other rotateSize) = some other := rfl
          rw [List.filterMap_cons_some hother, List.nodup_cons] at hnodup
          rw [List.filterMap_cons_some hother, List.mem_cons] at hmem
          unfold openAll
          rcases hmem with rfl | hmem
          · refine .inr ⟨(io n).file, ?_⟩
            split
            · rename_i volume error hopened
              rw [hopened]
              exact AuditWorld.setFiles_files_self world _ _
            · rename_i volume device hopened
              rw [hopened]
              refine (openAll_files_of_not_mem storagePath rotateAt io stanzas (n + 1) _ hnodup.1).trans ?_
              exact AuditWorld.setFiles_files_self world _ _
          · have hne : path ≠ other := by
              rintro rfl
              exact hnodup.1 hmem
            split
            · exact .inl (AuditWorld.setFiles_files_of_ne world _ hne)
            · rename_i volume device hopened
              have := ih (n + 1) (world.setFiles other volume) hnodup.2 hmem
              rwa [AuditWorld.setFiles_files_of_ne world _ hne] at this

/-- When every stanza could be opened there is a device for each, and the files of a path are as
opening that device leaves them. -/
theorem openAll_eq_ok (stanzas : List AuditConfig) (n : Nat) (world : AuditWorld)
    (hnodup : (stanzas.filterMap (·.path?)).Nodup) {devices : List Device}
    (h : (openAll storagePath rotateAt io n world stanzas).2 = .ok devices) :
    devices.map Device.path? = stanzas.map (·.path?) ∧
      ∀ log, Device.file log ∈ devices →
        ∃ fault, FileDevice.opened log.path rotateAt (world.files log.path) fault =
          ((openAll storagePath rotateAt io n world stanzas).1.files log.path, .ok log) := by
  induction stanzas generalizing n world devices with
  | nil =>
      cases h
      exact ⟨rfl, by simp⟩
  | cons stanza stanzas ih =>
      cases stanza with
      | sqlite =>
          unfold openAll at h ⊢
          split at h
          · cases h
          · obtain ⟨rest, hrest, h⟩ := Loop.bind_eq_ok h
            cases h
            obtain ⟨hpaths, hopened⟩ := ih (n + 1) world hnodup hrest
            refine ⟨by simp [hpaths, Device.path?, AuditConfig.path?], ?_⟩
            intro log hmem
            rcases List.mem_cons.mp hmem with hlog | hmem
            · cases hlog
            · exact hopened log hmem
      | file path rotateSize =>
          have hpath : AuditConfig.path? (.file path rotateSize) = some path := rfl
          rw [List.filterMap_cons_some hpath, List.nodup_cons] at hnodup
          unfold openAll at h ⊢
          split at h
          · cases h
          · rename_i volume device hopen
            obtain ⟨rest, hrest, h⟩ := Loop.bind_eq_ok h
            cases h
            have hdevice := FileDevice.opened_path hopen
            obtain ⟨hpaths, hopened⟩ := ih (n + 1) (world.setFiles path volume) hnodup.2 hrest
            refine ⟨by simp [hpaths, Device.path?, AuditConfig.path?, hdevice], ?_⟩
            intro log hmem
            rcases List.mem_cons.mp hmem with hlog | hmem
            · cases hlog
              refine ⟨(io n).file, ?_⟩
              rw [hdevice, openAll_files_of_not_mem storagePath rotateAt io stanzas (n + 1) _ hnodup.1,
                AuditWorld.setFiles_files_self]
              exact hopen
            · have hne : log.path ≠ path := by
                rintro rfl
                apply hnodup.1
                have hmap : some log.path ∈ rest.map Device.path? :=
                  List.mem_map.mpr ⟨_, hmem, rfl⟩
                rw [hpaths, List.mem_map] at hmap
                obtain ⟨stanza, hstanza, hpath⟩ := hmap
                exact List.mem_filterMap.mpr ⟨stanza, hstanza, hpath⟩
              have := hopened log hmem
              rwa [AuditWorld.setFiles_files_of_ne world _ hne] at this

end Opening

/-! ### The files of a configuration -/

theorem filterMap_path? {slots : List (Slot Device)} {config : Config}
    (h : slots.map Slot.path? = config.audit.map (·.path?)) :
    slots.filterMap Slot.path? = config.filePaths := by
  have hid := congrArg (List.filterMap id) h
  rwa [List.filterMap_map, List.filterMap_map, Function.id_comp, Function.id_comp] at hid

theorem slot_of_filePath {slots : List (Slot Device)} {config : Config}
    (h : slots.map Slot.path? = config.audit.map (·.path?)) {path : String}
    (hpath : path ∈ config.filePaths) :
    ∃ (i : Nat) (log : FileDevice) (quarantined : Option Quarantined),
      slots[i]? = some ⟨.file log, quarantined⟩ ∧ log.path = path := by
  rw [← filterMap_path? h, List.mem_filterMap] at hpath
  obtain ⟨⟨device, quarantined⟩, hmem, hslot⟩ := hpath
  obtain ⟨i, hi⟩ := List.mem_iff_getElem?.mp hmem
  cases device with
  | sqlite table => cases hslot
  | file log => exact ⟨i, log, quarantined, hi, Option.some.inj hslot⟩

/-- What the loop of `record` does to the files of one path: nothing, when their device is not
written to, and otherwise what the device's write does. -/
inductive FileAttempt (record : EncodedRecord) (path : String) (slots : List (Slot Device))
    (world : AuditWorld) (attempts : AuditWorld × List (Attempt Device)) : Prop
  | quarantined (log : FileDevice) (stop : Quarantined) (hslot : ⟨.file log, some stop⟩ ∈ slots)
      (hpath : log.path = path) (hfiles : attempts.1.files path = world.files path)
  | refused (log log' : FileDevice) (error : String) (hslot : ⟨.file log, none⟩ ∈ slots)
      (hpath : log.path = path)
      (hattempt : ⟨⟨.file log', none⟩, some (.error error)⟩ ∈ attempts.2)
      (hpath' : log'.path = path) (hfits : FileDevice.Fits (attempts.1.files path) log')
      (hgrown : Grown [] (world.files path).contents (attempts.1.files path).contents)
  | accepted (log log' : FileDevice) (hslot : ⟨.file log, none⟩ ∈ slots) (hpath : log.path = path)
      (hattempt : ⟨⟨.file log', none⟩, some (.ok ())⟩ ∈ attempts.2) (hpath' : log'.path = path)
      (hfits : FileDevice.Fits (attempts.1.files path) log')
      (hgrown : Grown (FileDevice.lineOf record) (world.files path).contents
        (attempts.1.files path).contents)

namespace FileAttempt

variable {record : EncodedRecord} {path : String} {slots : List (Slot Device)} {world : AuditWorld}
  {attempts : AuditWorld × List (Attempt Device)}

theorem pathNewest (h : FileAttempt record path slots world attempts)
    (hnewest : FileDevice.PathNewest (world.files path) path) :
    FileDevice.PathNewest (attempts.1.files path) path := by
  cases h with
  | quarantined log stop hslot hpath hfiles =>
      rw [hfiles]
      exact hnewest
  | refused log log' error hslot hpath hattempt hpath' hfits hgrown => exact hpath' ▸ hfits.pathNewest
  | accepted log log' hslot hpath hattempt hpath' hfits hgrown => exact hpath' ▸ hfits.pathNewest

theorem grown (h : FileAttempt record path slots world attempts) :
    attempts.1.files path = world.files path ∨
      ∃ more, Grown more (world.files path).contents (attempts.1.files path).contents := by
  cases h with
  | quarantined log stop hslot hpath hfiles => exact .inl hfiles
  | refused log log' error hslot hpath hattempt hpath' hfits hgrown => exact .inr ⟨_, hgrown⟩
  | accepted log log' hslot hpath hattempt hpath' hfits hgrown => exact .inr ⟨_, hgrown⟩

end FileAttempt

theorem fileAttempt (record : EncodedRecord) (io : Nat → DeviceFault) {slots : List (Slot Device)}
    {world : AuditWorld} (hnodup : (slots.filterMap Slot.path?).Nodup)
    (hfits : ∀ log, ⟨.file log, none⟩ ∈ slots → FileDevice.Fits (world.files log.path) log)
    (hcut : ∀ i, (io i).file.truncateFails = false) {i : Nat} {log : FileDevice}
    {quarantined : Option Quarantined} (hslot : slots[i]? = some ⟨.file log, quarantined⟩) :
    FileAttempt record log.path slots world (attemptAll record io 0 world slots) := by
  have hmem := List.mem_of_getElem? hslot
  cases quarantined with
  | some stop =>
      exact .quarantined log stop hmem rfl (attemptAll_quarantined record io slots 0 world hnodup hslot).1
  | none =>
      obtain ⟨hfiles, hattempt⟩ := attemptAll_file record io slots 0 world hnodup hslot
      have hpath := (FileDevice.write_path (world.files log.path) log record (io (0 + i)).file).1
      rcases FileDevice.write_spec (hfits log hmem) record (io (0 + i)).file (hcut _) with
        ⟨volume, log', error, hwrite, hfits', hgrown⟩ | ⟨volume, log', hwrite, hfits', hgrown⟩
      · rw [hwrite] at hfiles hattempt hpath
        refine .refused log log' error hmem rfl (List.mem_of_getElem? hattempt) hpath ?_ ?_
        · rw [hfiles]
          exact hfits'
        · rw [hfiles]
          exact hgrown
      · rw [hwrite] at hfiles hattempt hpath
        refine .accepted log log' hmem rfl (List.mem_of_getElem? hattempt) hpath ?_ ?_
        · rw [hfiles]
          exact hfits'
        · rw [hfiles]
          exact hgrown

/-- A file device that is still written to after the loop fits its files. -/
theorem fileAttempt_of_writing (record : EncodedRecord) (io : Nat → DeviceFault)
    {slots : List (Slot Device)} {world : AuditWorld} (hnodup : (slots.filterMap Slot.path?).Nodup)
    (hfits : ∀ log, ⟨.file log, none⟩ ∈ slots → FileDevice.Fits (world.files log.path) log)
    (hcut : ∀ i, (io i).file.truncateFails = false) {attempt : Attempt Device} {log' : FileDevice}
    (hmem : attempt ∈ (attemptAll record io 0 world slots).2)
    (hslot : attempt.slot = ⟨.file log', none⟩) :
    ∃ log, ⟨.file log, none⟩ ∈ slots ∧ log'.path = log.path ∧
      FileDevice.Fits ((attemptAll record io 0 world slots).1.files log.path) log' ∧
      (((∃ error, attempt.outcome = some (.error error)) ∧
          Grown [] (world.files log.path).contents
            ((attemptAll record io 0 world slots).1.files log.path).contents) ∨
        (attempt.outcome = some (.ok ()) ∧
          Grown (FileDevice.lineOf record) (world.files log.path).contents
            ((attemptAll record io 0 world slots).1.files log.path).contents)) := by
  obtain ⟨i, log, result, hold, hpath, hwrite, houtcome⟩ :=
    attemptAll_file_inv record io slots 0 world hnodup hmem hslot
  have hmem' := List.mem_of_getElem? hold
  refine ⟨log, hmem', hpath, ?_⟩
  rcases FileDevice.write_spec (hfits log hmem') record (io (0 + i)).file (hcut _) with
    ⟨volume, device, error, heq, hfits', hgrown⟩ | ⟨volume, device, heq, hfits', hgrown⟩
  · rw [hwrite] at heq
    cases heq
    exact ⟨hfits', .inl ⟨⟨error, houtcome⟩, hgrown⟩⟩
  · rw [hwrite] at heq
    cases heq
    exact ⟨hfits', .inr ⟨houtcome, hgrown⟩⟩

/-- A slot that is still written to after a commit has not failed. -/
theorem afterCommit_eq_writing {seq : Nat} {attempts : List (Attempt Device)}
    {attempt : Attempt Device} (hmem : attempt ∈ attempts) {device : Device}
    (h : attempt.slot.afterCommit seq (attempts.filterMap (·.failure)) = ⟨device, none⟩) :
    attempt.slot = ⟨device, none⟩ ∧ ∀ error, attempt.outcome ≠ some (.error error) := by
  unfold Slot.afterCommit at h
  split at h
  · cases h
  · rename_i hnot
    refine ⟨h, ?_⟩
    intro error houtcome
    apply hnot
    rw [h, Option.isNone_none, Bool.true_and, ← h, any_failure_iff]
    exact ⟨attempt, hmem, rfl, error, houtcome⟩

theorem afterCommit_path? (seq : Nat) (failures : List DeviceFailure) (slot : Slot Device) :
    (slot.afterCommit seq failures).path? = slot.path? := by
  unfold Slot.afterCommit
  split
  · rfl
  · rfl

/-- Where no two file devices have one path, a path has one slot. -/
theorem index_eq_of_path {slots : List (Slot Device)} (hnodup : (slots.filterMap Slot.path?).Nodup)
    {i j : Nat} {slot slot' : Slot Device} (hi : slots[i]? = some slot) (hj : slots[j]? = some slot')
    {path : String} (hpath : slot.path? = some path) (hpath' : slot'.path? = some path) : i = j := by
  have hpairs := List.pairwise_filterMap.mp hnodup
  have hlt : ∀ {i j : Nat} {slot slot' : Slot Device}, slots[i]? = some slot → slots[j]? = some slot' →
      slot.path? = some path → slot'.path? = some path → ¬ i < j := by
    intro i j slot slot' hi hj hpath hpath' hij
    obtain ⟨hilt, hi⟩ := List.getElem?_eq_some_iff.mp hi
    obtain ⟨hjlt, hj⟩ := List.getElem?_eq_some_iff.mp hj
    have hne := List.pairwise_iff_getElem.mp hpairs i j hilt hjlt hij path (hi ▸ hpath) path (hj ▸ hpath')
    exact hne rfl
  have h1 := hlt hi hj hpath hpath'
  have h2 := hlt hj hi hpath' hpath
  omega

theorem mem_acceptedFiles {record : EncodedRecord} {attempts : List (Attempt Device)} {path : String}
    {file : Nat} {other : EncodedRecord} (h : (path, file, other) ∈ acceptedFiles record attempts) :
    other = record ∧ ∃ attempt ∈ attempts, ∃ log, attempt.outcome = some (.ok ()) ∧
      attempt.slot.device = .file log ∧ log.path = path ∧ log.file = file := by
  obtain ⟨attempt, hmem, hattempt⟩ := List.mem_filterMap.mp h
  split at hattempt
  · rename_i log houtcome hdevice
    cases hattempt
    exact ⟨rfl, attempt, hmem, log, houtcome, hdevice, rfl, rfl⟩
  · cases hattempt

theorem openDevices_files (config : Config) (world : AuditWorld) (io : Nat → DeviceFault)
    (hnodup : config.filePaths.Nodup) {path : String} (hpath : path ∈ config.filePaths)
    (hnewest : FileDevice.PathNewest (world.files path) path) :
    FileDevice.PathNewest ((openDevices config world io).1.files path) path ∧
      ((openDevices config world io).1.files path = world.files path ∨
        Grown [] (world.files path).contents ((openDevices config world io).1.files path).contents) := by
  unfold openDevices
  split
  · exact ⟨hnewest, .inl rfl⟩
  · rename_i rotateAt _
    dsimp only
    rcases openAll_files config.storagePath rotateAt io config.audit 0 world hnodup hpath with
      hsame | ⟨fault, hopened⟩
    · rw [hsame]
      exact ⟨hnewest, .inl rfl⟩
    · rw [hopened]
      rcases FileDevice.opened_spec hnewest rotateAt fault with
        ⟨error, heq⟩ | ⟨volume', device, heq, hfits, hdevice, -, hgrown, -⟩
      · rw [heq]
        exact ⟨hnewest, .inl rfl⟩
      · rw [heq]
        exact ⟨hdevice ▸ hfits.pathNewest, .inr hgrown⟩

/-- The devices stand in the order of their stanzas, and each finds its files as it opened them. -/
theorem openDevices_eq_ok {config : Config} {world : AuditWorld} {io : Nat → DeviceFault}
    (hnodup : config.filePaths.Nodup) {devices : List Device}
    (h : (openDevices config world io).2 = .ok devices) :
    devices.map Device.path? = config.audit.map (·.path?) ∧
      ∀ log, Device.file log ∈ devices → ∃ rotateAt fault,
        FileDevice.opened log.path rotateAt (world.files log.path) fault =
          ((openDevices config world io).1.files log.path, .ok log) := by
  unfold openDevices at h ⊢
  split at h
  · cases h
  · rename_i rotateAt _
    obtain ⟨opened, hopened, h⟩ := Loop.bind_eq_ok h
    have hdevices : opened = devices := by
      split at h
      · cases h
      · exact Except.ok.inj h
    subst hdevices
    obtain ⟨hpaths, hlogs⟩ := openAll_eq_ok config.storagePath rotateAt io config.audit 0 world hnodup hopened
    refine ⟨hpaths, ?_⟩
    intro log hmem
    exact ⟨rotateAt, hlogs log hmem⟩

namespace AuditLife

/-- What a call that returns can do: nothing, or fail at every device it asks, or commit. -/
theorem recorded_cases (codec : Codec) (s : AuditLife) (sink : AuditSink Device) (entry : Entry)
    (nowMillis : Int) (io : Nat → DeviceFault) :
    recorded codec s sink entry nowMillis io = { s with sink := some sink } ∨
    (∃ record attempts, sink.chain.encode codec entry nowMillis = .ok record ∧
      attempts = attemptAll record io 0 s.world sink.slots ∧
      (∀ attempt ∈ attempts.2, attempt.outcome ≠ some (.ok ())) ∧
      recorded codec s sink entry nowMillis io =
        { s with world := attempts.1, sink := some ⟨attempts.2.map (·.slot), sink.chain⟩ }) ∨
    ∃ record attempts, AuditSink.Commits codec sink s.world io entry nowMillis record attempts ∧
      recorded codec s sink entry nowMillis io =
        ⟨attempts.1, some ⟨attempts.2.map (fun attempt =>
            attempt.slot.afterCommit record.seq (attempts.2.filterMap (·.failure))),
          ⟨sink.chain.nextSeq + 1, record.hash⟩⟩, s.committed ++ [record], s.issued ++ [record],
          s.accepted ++ acceptedFiles record attempts.2⟩ := by
  unfold recorded
  dsimp only
  cases hresult : (sink.record codec s.world io entry nowMillis).2 with
  | error error =>
      dsimp only
      rcases AuditSink.record_eq_error hresult with hsame | ⟨record, attempts, hencode, hattempts, hnone, hafter⟩
      · rw [hsame]
        exact .inl rfl
      · rw [hafter]
        exact .inr (.inl ⟨record, attempts, hencode, hattempts, hnone, rfl⟩)
  | ok written =>
      obtain ⟨record, attempts, hcommits, hworld, hslots, hchain, -⟩ := AuditSink.record_eq_ok hresult
      rw [hcommits.encoded]
      dsimp only
      refine .inr (.inr ⟨record, attempts, hcommits, ?_⟩)
      rw [hworld, ← hcommits.attempted, ← hslots, ← hchain]

variable {codec : Codec} {config : Config} {resume : AuditLife → Except StoreError Chain}
  {s s' : AuditLife}

theorem step_crash {entry : Entry} {nowMillis : Int} {io : Nat → DeviceFault} {slot count : Nat}
    (h : step codec config resume s (.crash entry nowMillis io slot count) = some s') :
    ∃ sink record, s.sink = some sink ∧ sink.chain.encode codec entry nowMillis = .ok record ∧
      crashed s sink record io slot count = s' := by
  obtain ⟨sink, hsink, h⟩ := Option.bind_eq_some_iff.mp h
  obtain ⟨record, hrecord, h⟩ := Option.map_eq_some_iff.mp h
  refine ⟨sink, record, hsink, ?_, h⟩
  cases hencode : sink.chain.encode codec entry nowMillis with
  | error error =>
      rw [hencode] at hrecord
      cases hrecord
  | ok other =>
      rw [hencode] at hrecord
      cases hrecord
      rfl

/-- A process that has started has opened every device and continues the chain it was given. -/
theorem restarted_sink {opening reading : Nat → DeviceFault} {sink : AuditSink Device}
    (h : (restarted codec config resume s opening reading).sink = some sink) :
    ∃ devices chain, (openDevices config s.world opening).2 = .ok devices ∧ resume s = .ok chain ∧
      AuditSink.new codec (openDevices config s.world opening).1 devices chain reading = .ok sink := by
  unfold restarted at h
  dsimp only at h
  split at h
  · rename_i devices chain hdevices hchain
    refine ⟨devices, chain, hdevices, hchain, ?_⟩
    cases hnew : AuditSink.new codec (openDevices config s.world opening).1 devices chain reading with
    | error error =>
        rw [hnew] at h
        cases h
    | ok other =>
        rw [hnew] at h
        cases h
        rfl
  · cases h

/-- A file device that a process writes to after its start is that of its stanza, has been opened
and did not stand apart from the head. -/
theorem restarted_file {opening reading : Nat → DeviceFault} {sink : AuditSink Device}
    (hnodup : config.filePaths.Nodup)
    (h : (restarted codec config resume s opening reading).sink = some sink) :
    sink.slots.map Slot.path? = config.audit.map (·.path?) ∧
      ∀ log, ⟨.file log, none⟩ ∈ sink.slots → ∃ i size rotateAt fault,
        config.audit[i]? = some (.file log.path size) ∧
        FileDevice.opened log.path rotateAt (s.world.files log.path) fault =
          ((restarted codec config resume s opening reading).world.files log.path, .ok log) ∧
        (startSlot codec (restarted codec config resume s opening reading).world
          (sink.chain.nextSeq - 1) (Device.file log) (reading i)).quarantined = none := by
  obtain ⟨devices, chain, hdevices, -, hnew⟩ := restarted_sink h
  obtain ⟨hchain, hslots⟩ := AuditSink.new_eq_ok hnew
  obtain ⟨hpaths, hopened⟩ := openDevices_eq_ok hnodup hdevices
  have hslot : ∀ i, sink.slots[i]? = devices[i]?.map fun device =>
      startSlot codec (openDevices config s.world opening).1 (chain.nextSeq - 1) device (reading i) := by
    intro i
    rw [hslots, List.getElem?_mapIdx]
  have hsame : sink.slots.map Slot.path? = devices.map Device.path? := by
    refine List.ext_getElem? ?_
    intro i
    rw [List.getElem?_map, hslot, List.getElem?_map, Option.map_map]
    congr 1
    funext device
    exact congrArg Device.path? (startSlot_device _ _ _ _ _)
  refine ⟨hsame.trans hpaths, ?_⟩
  intro log hmem
  obtain ⟨i, hi⟩ := List.mem_iff_getElem?.mp hmem
  rw [hslot] at hi
  obtain ⟨device, hdevice, hstart⟩ := Option.map_eq_some_iff.mp hi
  obtain rfl : device = .file log := by
    rw [← startSlot_device codec (openDevices config s.world opening).1 (chain.nextSeq - 1) device
      (reading i), hstart]
  obtain ⟨rotateAt, fault, hopen⟩ := hopened log (List.mem_of_getElem? hdevice)
  have hstanza : (config.audit.map (·.path?))[i]? = some (some log.path) := by
    rw [← hpaths, List.getElem?_map, hdevice]
    rfl
  rw [List.getElem?_map] at hstanza
  obtain ⟨stanza, hstanza, hpath⟩ := Option.map_eq_some_iff.mp hstanza
  cases stanza with
  | sqlite => cases hpath
  | file path size =>
      cases hpath
      refine ⟨i, size, rotateAt, fault, hstanza, hopen, ?_⟩
      rw [hchain]
      exact congrArg Slot.quarantined hstart

end AuditLife

end Ciphr
