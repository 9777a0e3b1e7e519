import Mathlib.Data.List.Forall2
import Ciphr.ServerDevices

/-!
The devices of a configuration stand in the order of its stanzas, one for each. The size at which a
file device rotates is looked up once, in the first file stanza.
-/

namespace Ciphr

/-- The rotation size that a stanza itself states, in bytes. -/
def AuditConfig.rotateBytes : AuditConfig → Except ConfigError (Option Nat)
  | .file _ (some size) => (parseSize size).map some
  | _ => .ok none

/-- The device of a stanza, up to the size at which it rotates. -/
inductive AuditConfig.Opens (storagePath : String) : AuditConfig → Device → Prop where
  | sqlite : Opens storagePath .sqlite (.sqlite (.opened storagePath))
  | file {path : String} {size : Option String} {device : FileDevice} (hpath : device.path = path) :
      Opens storagePath (.file path size) (.file device)

/-- A file device rotates at the size that the stanza states, and never where it states none. -/
def Device.RotatesAt : Device → Except ConfigError (Option Nat) → Prop
  | .sqlite _, _ => True
  | .file device, size => size = .ok device.rotateAt

namespace Config

variable {config : Config} {world : AuditWorld} {io : Nat → DeviceFault} {devices : List Device}

/-- What `open_devices` builds keeps to the stanzas: whatever the world is like and whatever fails, the
devices that are opened are those of the stanzas, each with its own size. -/
def KeepsSizes (config : Config) : Prop :=
  ∀ world io devices, (openDevices config world io).2 = .ok devices →
    List.Forall₂ (fun stanza device => stanza.Opens config.storagePath device ∧
      device.RotatesAt stanza.rotateBytes) config.audit devices

/-- No two file stanzas state different sizes. -/
def OneSize (config : Config) : Prop :=
  ∀ path size path' size', AuditConfig.file path size ∈ config.audit →
    AuditConfig.file path' size' ∈ config.audit →
      (AuditConfig.file path size).rotateBytes = (AuditConfig.file path' size').rotateBytes

/-- A device that was opened has the path and the size it was given. -/
theorem opened_eq_ok {path : String} {rotateAt : Option Nat} {volume : Volume} {fault : FileFault}
    {device : FileDevice} (h : (FileDevice.opened path rotateAt volume fault).2 = .ok device) :
    device.path = path ∧ device.rotateAt = rotateAt := by
  unfold FileDevice.opened at h
  split at h
  · cases h
  · cases h
    exact ⟨rfl, rfl⟩

/-- The loop opens a device for each stanza, and gives all of them one size. -/
theorem openAll_ok {storagePath : String} {rotateAt : Option Nat} (stanzas : List AuditConfig) :
    ∀ (i : Nat) (world : AuditWorld) (devices : List Device),
      (openAll storagePath rotateAt io i world stanzas).2 = .ok devices →
        List.Forall₂ (fun stanza device => stanza.Opens storagePath device ∧
          device.RotatesAt (.ok rotateAt)) stanzas devices := by
  induction stanzas with
  | nil =>
      intro i world devices h
      cases h
      exact .nil
  | cons stanza stanzas ih =>
      intro i world devices h
      cases stanza with
      | sqlite =>
          unfold openAll at h
          split at h
          · cases h
          · obtain ⟨rest, hrest, rfl⟩ := Loop.map_eq_ok.mp h
            exact .cons ⟨.sqlite, trivial⟩ (ih _ _ _ hrest)
      | file path size =>
          unfold openAll at h
          split at h
          · cases h
          · rename_i volume device hopened
            obtain ⟨rest, hrest, rfl⟩ := Loop.map_eq_ok.mp h
            obtain ⟨hpath, hsize⟩ := opened_eq_ok (congrArg Prod.snd hopened)
            refine .cons ⟨.file hpath, ?_⟩ (ih _ _ _ hrest)
            show Except.ok rotateAt = Except.ok device.rotateAt
            rw [hsize]

/-- Where nothing fails, every stanza gets its device. -/
theorem openAll_quiet {storagePath : String} {rotateAt : Option Nat} (hio : ∀ i, io i = {})
    (stanzas : List AuditConfig) : ∀ (i : Nat) (world : AuditWorld),
      ∃ devices, (openAll storagePath rotateAt io i world stanzas).2 = .ok devices := by
  induction stanzas with
  | nil => exact fun i world => ⟨[], rfl⟩
  | cons stanza stanzas ih =>
      intro i world
      cases stanza with
      | sqlite =>
          obtain ⟨rest, hrest⟩ := ih (i + 1) world
          unfold openAll
          rw [hio i]
          exact ⟨_, Loop.map_eq_ok.mpr ⟨rest, hrest, rfl⟩⟩
      | file path size =>
          unfold openAll
          rw [hio i]
          obtain ⟨rest, hrest⟩ := ih (i + 1)
            (world.setFiles path (FileDevice.opened path rotateAt (world.files path) {}).1)
          exact ⟨_, Loop.map_eq_ok.mpr ⟨rest, hrest, rfl⟩⟩

/-! ### The size that is looked up -/

/-- What was looked up is what every file stanza states, if they all state the same. -/
theorem go_eq_of_file_mem {stanzas : List AuditConfig}
    (hone : ∀ path size path' size', AuditConfig.file path size ∈ stanzas →
      AuditConfig.file path' size' ∈ stanzas →
        (AuditConfig.file path size).rotateBytes = (AuditConfig.file path' size').rotateBytes)
    {path : String} {size : Option String} (hmem : .file path size ∈ stanzas) :
    fileRotateBytes.go stanzas = (AuditConfig.file path size).rotateBytes := by
  induction stanzas with
  | nil => cases hmem
  | cons stanza stanzas ih =>
      cases stanza with
      | sqlite =>
          have hrest : .file path size ∈ stanzas := by simpa using hmem
          exact ih (fun _ _ _ _ h h' => hone _ _ _ _ (.tail _ h) (.tail _ h')) hrest
      | file path' size' =>
          have hfirst : fileRotateBytes.go (.file path' size' :: stanzas) =
              (AuditConfig.file path' size').rotateBytes := by
            cases size' with
            | none => rfl
            | some text => rfl
          rw [hfirst]
          exact hone path' size' path size (.head _) hmem

/-- An accepted configuration has a size to look up. -/
theorem go_ok {stanzas : List AuditConfig} (hsizes : stanzas.forM checkSize = .ok ()) :
    ∃ rotateAt, fileRotateBytes.go stanzas = .ok rotateAt := by
  induction stanzas with
  | nil => exact ⟨none, rfl⟩
  | cons stanza stanzas ih =>
      obtain ⟨⟨⟩, hfirst, hrest⟩ := Loop.bind_eq_ok hsizes
      cases stanza with
      | sqlite => exact ih hrest
      | file path size =>
          cases size with
          | none => exact ⟨none, rfl⟩
          | some text =>
              obtain ⟨bytes, hbytes, -⟩ := Loop.bind_eq_ok hfirst
              exact ⟨some bytes, Loop.map_eq_ok.mpr ⟨bytes, hbytes, rfl⟩⟩

theorem sizes_of_validate (h : config.validate = .ok ()) : config.audit.forM checkSize = .ok () := by
  unfold validate at h
  split at h
  · cases h
  · split at h
    · cases h
    · obtain ⟨⟨⟩, hsizes, -⟩ := Loop.bind_eq_ok h
      exact hsizes

/-! ### One size for all -/

/-- What was opened belongs to the stanzas, and has the one size that was looked up. -/
theorem openDevices_ok (h : (openDevices config world io).2 = .ok devices) :
    ∃ rotateAt, config.fileRotateBytes = .ok rotateAt ∧
      List.Forall₂ (fun stanza device => stanza.Opens config.storagePath device ∧
        device.RotatesAt (.ok rotateAt)) config.audit devices := by
  unfold openDevices at h
  split at h
  · cases h
  · rename_i rotateAt hrotate
    obtain ⟨opened, hopened, hsome⟩ := Loop.bind_eq_ok h
    split at hsome
    · cases hsome
    · cases hsome
      exact ⟨rotateAt, hrotate, openAll_ok _ _ _ _ hopened⟩

theorem openDevices_quiet (hvalid : config.validate = .ok ()) (world : AuditWorld)
    (hio : ∀ i, io i = {}) : ∃ devices, (openDevices config world io).2 = .ok devices := by
  obtain ⟨rotateAt, hrotate⟩ := go_ok (sizes_of_validate hvalid)
  obtain ⟨devices, hopened⟩ := @openAll_quiet io config.storagePath rotateAt hio config.audit 0 world
  have hsome : devices.isEmpty = false := by
    have hlength := (openAll_ok _ _ _ _ hopened).length_eq
    have hmem := List.length_pos_of_mem (sqlite_mem_of_validate hvalid)
    rw [List.isEmpty_eq_false_iff, ← List.length_pos_iff]
    omega
  refine ⟨devices, ?_⟩
  unfold openDevices fileRotateBytes
  rw [hrotate]
  show ((openAll config.storagePath rotateAt io 0 world config.audit).2 >>= _) = _
  rw [hopened]
  show (if devices.isEmpty then _ else _) = _
  rw [hsome]
  rfl

/-- An accepted configuration is served by one device for each stanza, in their order. Each has the size
of its own stanza exactly if the stanzas agree on it. -/
theorem keepsSizes_iff (config : Config) (hvalid : config.validate = .ok ()) :
    (∀ world io, (∀ i, io i = {}) → ∃ devices, (openDevices config world io).2 = .ok devices) ∧
      (∀ world io devices, (openDevices config world io).2 = .ok devices →
        List.Forall₂ (AuditConfig.Opens config.storagePath) config.audit devices) ∧
      (config.KeepsSizes ↔ config.OneSize) := by
  refine ⟨fun world io hio => openDevices_quiet hvalid world hio, ?_, ?_, ?_⟩
  · intro world io devices hopened
    obtain ⟨rotateAt, -, hall⟩ := openDevices_ok hopened
    exact hall.imp fun _ _ h => h.1
  · intro hkeeps
    obtain ⟨devices, hopened⟩ := @openDevices_quiet config (fun _ => {}) hvalid
      ⟨⟨[], some []⟩, fun _ => .empty⟩ fun _ => rfl
    obtain ⟨rotateAt, -, hall⟩ := openDevices_ok hopened
    have hown := hkeeps _ _ _ hopened
    -- both lists pair a stanza with the device at its place
    have hlooked : ∀ path size, AuditConfig.file path size ∈ config.audit →
        (AuditConfig.file path size).rotateBytes = .ok rotateAt := by
      intro path size hmem
      obtain ⟨i, hi, hstanza⟩ := List.mem_iff_getElem.mp hmem
      have hdevice : i < devices.length := hown.length_eq ▸ hi
      obtain ⟨hopens, hsized⟩ := (List.forall₂_iff_get.mp hown).2 i hi hdevice
      obtain ⟨-, hgiven⟩ := (List.forall₂_iff_get.mp hall).2 i hi hdevice
      rw [List.get_eq_getElem, List.get_eq_getElem] at hopens hsized
      rw [List.get_eq_getElem] at hgiven
      rw [hstanza] at hopens hsized
      generalize devices[i] = device at hopens hsized hgiven
      cases hopens with
      | file hpath => exact Eq.trans hsized (Eq.symm hgiven)
    intro path size path' size' hmem hmem'
    rw [hlooked path size hmem, hlooked path' size' hmem']
  · intro hone world io devices hopened
    obtain ⟨rotateAt, hrotate, hall⟩ := openDevices_ok hopened
    have hlooked : ∀ stanza ∈ config.audit, ∀ device : Device,
        stanza.Opens config.storagePath device → device.RotatesAt (.ok rotateAt) →
          device.RotatesAt stanza.rotateBytes := by
      intro stanza hmem device hopens hgiven
      cases hopens with
      | sqlite => trivial
      | file hpath =>
          rw [← go_eq_of_file_mem hone hmem]
          exact Eq.trans hrotate hgiven
    rw [List.forall₂_iff_get] at hall ⊢
    refine ⟨hall.1, fun i hi hi' => ?_⟩
    obtain ⟨hopens, hgiven⟩ := hall.2 i hi hi'
    exact ⟨hopens, hlooked _ (List.get_mem ..) _ hopens hgiven⟩

end Config

namespace Sample

/-- Two file stanzas, and only the second is to be rotated. -/
def twoFileStanzas : Config :=
  ⟨"/var/lib/ciphr.db", [.sqlite, .file "/var/log/all.log" none, .file "/mnt/audit.log" (some "64MB")],
    [], []⟩

/-- Two file stanzas that state one size. -/
def sameSizeStanzas : Config :=
  ⟨"/var/lib/ciphr.db", [.sqlite, .file "/var/log/all.log" (some "64MB"),
    .file "/mnt/audit.log" (some "67108864")], [], []⟩

theorem sameSizeStanzas_keepsSizes : sameSizeStanzas.validate = .ok () ∧ sameSizeStanzas.KeepsSizes := by
  have hvalid : sameSizeStanzas.validate = .ok () := by decide +kernel
  have hsize : ∀ path size, AuditConfig.file path size ∈ sameSizeStanzas.audit →
      (AuditConfig.file path size).rotateBytes = .ok (some 67108864) := by
    intro path size hmem
    simp only [sameSizeStanzas, List.mem_cons, List.not_mem_nil, or_false] at hmem
    rcases hmem with heq | heq | heq
    · cases heq
    · cases heq
      decide +kernel
    · cases heq
      decide +kernel
  refine ⟨hvalid, (Config.keepsSizes_iff sameSizeStanzas hvalid).2.2.mpr ?_⟩
  intro path size path' size' hmem hmem'
  rw [hsize path size hmem, hsize path' size' hmem']

/-- The second file never rotates. -/
theorem twoFileStanzas_share_a_size : twoFileStanzas.validate = .ok () ∧ ¬ twoFileStanzas.KeepsSizes := by
  have hvalid : twoFileStanzas.validate = .ok () := by decide +kernel
  refine ⟨hvalid, fun hkeeps => ?_⟩
  have hopened : (openDevices twoFileStanzas ⟨⟨[], some []⟩, fun _ => .empty⟩ fun _ => {}).2 =
      .ok [.sqlite (.opened "/var/lib/ciphr.db"),
        .file ⟨"file:/var/log/all.log", "/var/log/all.log", 0, 0, none⟩,
        .file ⟨"file:/mnt/audit.log", "/mnt/audit.log", 0, 0, none⟩] := by
    decide +kernel
  obtain - | ⟨-, - | ⟨-, - | ⟨⟨-, hsized⟩, -⟩⟩⟩ := hkeeps _ _ _ hopened
  have hsize : (AuditConfig.file "/mnt/audit.log" (some "64MB")).rotateBytes = .ok (some 67108864) := by
    decide +kernel
  cases (Eq.symm hsize).trans hsized

end Sample

end Ciphr
