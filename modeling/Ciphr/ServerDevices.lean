import Ciphr.StoreAudit
import Ciphr.AuditFile
import Ciphr.ServerConfig

/-!
The devices a configuration can name, in the world they share: one database, and for every path of a
file device the directory of its live file and its archives. Stanzas that name one path lead to one
directory.
-/

namespace Ciphr

structure AuditWorld where
  db : Database
  files : String → Volume

/-- What happens to the operations of one call outside the program. -/
structure DeviceFault where
  database : Option String := none
  file : FileFault := {}
  deriving DecidableEq, Repr

inductive Device where
  | sqlite (device : SqliteAuditDevice)
  | file (device : FileDevice)
  deriving DecidableEq, Repr

namespace AuditWorld

def setFiles (world : AuditWorld) (path : String) (volume : Volume) : AuditWorld :=
  { world with files := Function.update world.files path volume }

@[simp] theorem setFiles_db (world : AuditWorld) (path : String) (volume : Volume) :
    (world.setFiles path volume).db = world.db := rfl

@[simp] theorem setFiles_files_self (world : AuditWorld) (path : String) (volume : Volume) :
    (world.setFiles path volume).files path = volume := by
  simp [setFiles]

theorem setFiles_files_of_ne (world : AuditWorld) {path other : String} (volume : Volume)
    (h : other ≠ path) : (world.setFiles path volume).files other = world.files other := by
  simp [setFiles, Function.update_of_ne h]

end AuditWorld

namespace FileDevice

variable (volume : Volume) (device : FileDevice) (record : EncodedRecord) (fault : FileFault)

theorem rotate_path (nowMillis : Int) (nextSeq : Nat) :
    (rotate volume device nowMillis nextSeq fault).2.1.path = device.path ∧
      (rotate volume device nowMillis nextSeq fault).2.1.name = device.name := by
  unfold rotate
  dsimp only
  split
  · exact ⟨rfl, rfl⟩
  · split
    · exact ⟨rfl, rfl⟩
    · split
      · exact ⟨rfl, rfl⟩
      · split
        · exact ⟨rfl, rfl⟩
        · exact ⟨rfl, rfl⟩

theorem append_path (line : List UInt8) :
    (append volume device line fault).2.1.path = device.path ∧
      (append volume device line fault).2.1.name = device.name := by
  unfold append
  split
  · exact ⟨rfl, rfl⟩
  · exact ⟨rfl, rfl⟩

/-- A write leaves the device's path and its name alone. -/
theorem write_path :
    (write volume device record fault).2.1.path = device.path ∧
      (write volume device record fault).2.1.name = device.name := by
  have hrotate := rotate_path volume device fault record.tsMillis record.seq
  unfold write
  dsimp only
  split
  · split
    · rename_i heq
      rw [heq] at hrotate
      exact hrotate
    · rename_i volume' device' heq
      rw [heq] at hrotate
      have happend := append_path volume' device' fault (lineOf record)
      exact ⟨happend.1.trans hrotate.1, happend.2.trans hrotate.2⟩
  · exact append_path volume device fault (lineOf record)

end FileDevice

namespace Device

def name : Device → String
  | .sqlite device => device.name
  | .file device => device.name

def write (world : AuditWorld) (device : Device) (record : EncodedRecord) (fault : DeviceFault) :
    AuditWorld × Device × Except String Unit :=
  match device with
  | .sqlite table =>
      let written := SqliteAuditDevice.write world.db record fault.database
      ({ world with db := written.1 }, .sqlite table, written.2)
  | .file log =>
      let written := FileDevice.write (world.files log.path) log record fault.file
      (world.setFiles log.path written.1, .file written.2.1, written.2.2)

def headSeq (codec : Codec) (world : AuditWorld) (device : Device) (fault : DeviceFault) :
    Except String (Option Nat) :=
  match device with
  | .sqlite table => table.headSeq world.db fault.database
  | .file log => log.headSeq codec (world.files log.path) fault.file

/-- The database device keeps the trait's own `reopen`, which does nothing. -/
def reopen (world : AuditWorld) (device : Device) (fault : DeviceFault) :
    AuditWorld × Device × Except String Unit :=
  match device with
  | .sqlite table => (world, .sqlite table, .ok ())
  | .file log =>
      let opened := FileDevice.reopen (world.files log.path) log fault.file
      (world.setFiles log.path opened.1, .file opened.2.1, opened.2.2)

theorem name_write (world : AuditWorld) (device : Device) (record : EncodedRecord)
    (fault : DeviceFault) : (write world device record fault).2.1.name = device.name := by
  cases device with
  | sqlite table => rfl
  | file log => exact (FileDevice.write_path _ log record fault.file).2

instance : AuditDevice Device AuditWorld DeviceFault where
  name := name
  write := write
  headSeq := headSeq
  reopen := reopen
  name_write := name_write

/-- The path of a file device. -/
def path? : Device → Option String
  | .sqlite _ => none
  | .file device => some device.path

end Device

inductive StartupError where
  | config (error : ConfigError)
  | store (error : StoreError)
  | audit (detail : String)
  deriving DecidableEq

/-- The loop of `open_devices`, from stanza number `i` on. -/
def openAll (storagePath : String) (rotateAt : Option Nat) (io : Nat → DeviceFault) :
    Nat → AuditWorld → List AuditConfig → AuditWorld × Except StartupError (List Device)
  | _, world, [] => (world, .ok [])
  | i, world, .sqlite :: stanzas =>
      match (io i).database with
      | some error => (world, .error (.store (.sqlite error)))
      | none =>
          let rest := openAll storagePath rotateAt io (i + 1) world stanzas
          (rest.1, rest.2.map (.sqlite (.opened storagePath) :: ·))
  | i, world, .file path _ :: stanzas =>
      match FileDevice.opened path rotateAt (world.files path) (io i).file with
      | (volume, .error error) =>
          (world.setFiles path volume, .error (.audit ("cannot open " ++ path ++ " for append: " ++
            error ++ "\n  the file device appends every entry, so its directory has to be " ++
            "writable by the service user")))
      | (volume, .ok device) =>
          let rest := openAll storagePath rotateAt io (i + 1) (world.setFiles path volume) stanzas
          (rest.1, rest.2.map (.file device :: ·))

/-- Open every configured device: the world afterwards, and the devices. -/
def openDevices (config : Config) (world : AuditWorld) (io : Nat → DeviceFault) :
    AuditWorld × Except StartupError (List Device) :=
  match config.fileRotateBytes with
  | .error error => (world, .error (.config error))
  | .ok rotateAt =>
      let opened := openAll config.storagePath rotateAt io 0 world config.audit
      (opened.1, do
        let devices ← opened.2
        if devices.isEmpty then .error (.audit "no audit device is configured") else .ok devices)

end Ciphr
