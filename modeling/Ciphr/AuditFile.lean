import Ciphr.LibFileSystem
import Ciphr.LibLines
import Ciphr.RustText
import Ciphr.AuditChain

/-!
`ciphr-audit/src/file.rs`: the file device. The directory of the file is a `FileSystem` of byte
strings in which the device's handle is the number of a file, so that a handle survives a rename.
What the operating system makes of each operation of a write is an input.
-/

namespace Ciphr

abbrev Volume : Type := FileSystem String (List UInt8)

def newline : UInt8 := 0x0a

def attemptsPerStamp : Nat := 100

/-- What happens to the operations of one call: the errors that `rename` and `open` return, after
how many bytes the write fails, and whether cutting those bytes off again fails too. -/
structure FileFault where
  rename : Option String := none
  openFile : Option String := none
  write : Option (Nat × String) := none
  truncateFails : Bool := false
  read : Option String := none
  deriving DecidableEq, Repr

structure FileDevice where
  name : String
  path : String
  file : Nat
  written : Nat
  rotateAt : Option Nat
  deriving DecidableEq, Repr

/-- The bytes of a string. -/
def bytesOf (text : String) : List UInt8 := text.toUTF8.data.toList

theorem bytesOf_append (left right : String) :
    bytesOf (left ++ right) = bytesOf left ++ bytesOf right := by
  simp [bytesOf]

theorem bytesOf_injective : Function.Injective bytesOf := by
  intro left right h
  have hleft := Rust.fromUtf8_toUTF8 left
  rw [show left.toUTF8.data.toList = right.toUTF8.data.toList from h, Rust.fromUtf8_toUTF8] at hleft
  exact (Option.some.inj hleft).symm

theorem bytesOf_ofList_cons (c : Char) (rest : List Char) :
    bytesOf (String.ofList (c :: rest)) = String.utf8EncodeChar c ++ bytesOf (String.ofList rest) := by
  rw [← List.singleton_append, String.ofList_append]
  simp [bytesOf, List.utf8Encode]

/-- `File::set_len`: cut off, or fill up with zeros. -/
def setLen (len : Nat) (data : List UInt8) : List UInt8 :=
  data.take len ++ List.replicate (len - data.length) 0

namespace FileDevice

/-- `FileDevice::open`: the volume afterwards and the device. -/
def opened (path : String) (rotateAt : Option Nat) (volume : Volume) (fault : FileFault) :
    Volume × Except String FileDevice :=
  match fault.openFile with
  | some error => (volume, .error error)
  | none =>
      let (file, volume') := volume.openAppend path
      (volume', .ok ⟨"file:" ++ path, path, file, (volume'.data file).length, rotateAt⟩)

/-- The loop that looks for an archive name which is not taken. -/
def archivePath (volume : Volume) (base : String) : Nat → Nat → String → String
  | 0, _, rotated => rotated
  | fuel + 1, attempt, rotated =>
      if volume.exists? rotated then
        archivePath volume base fuel (attempt + 1) (base ++ "." ++ toString attempt)
      else rotated

def archiveSuffix (nowMillis : Int) (nextSeq : Nat) : String :=
  "." ++ String.ofList ((rfc3339Millis nowMillis).toList.map fun c => if c = ':' then '-' else c) ++
    "-" ++ toString (nextSeq - 1)

/-- Move the current file aside and start a new one. -/
def rotate (volume : Volume) (device : FileDevice) (nowMillis : Int) (nextSeq : Nat)
    (fault : FileFault) : Volume × FileDevice × Except String Unit :=
  let suffix := archiveSuffix nowMillis nextSeq
  let rotated := archivePath volume (device.path ++ suffix) attemptsPerStamp 1 (device.path ++ suffix)
  if volume.exists? rotated then
    (volume, device, .error (toString attemptsPerStamp ++ " archives already exist for " ++
      device.path ++ suffix))
  else
    match fault.rename with
    | some error => (volume, device, .error error)
    | none =>
        match volume.rename device.path rotated with
        | none => (volume, device, .error "No such file or directory (os error 2)")
        | some volume' =>
            match fault.openFile with
            | some error => (volume', device, .error error)
            | none =>
                let (file, volume'') := volume'.openAppend device.path
                (volume'', { device with file := file, written := 0 }, .ok ())

/-- The line of a record. -/
def lineOf (record : EncodedRecord) : List UInt8 := bytesOf record.payload ++ [newline]

/-- Whether a line makes the file rotate before it is written. -/
def needsRotation (device : FileDevice) (line : List UInt8) : Bool :=
  match device.rotateAt with
  | some limit => 0 < device.written && limit < device.written + line.length
  | none => false

/-- The part of `write` after the rotation. -/
def append (volume : Volume) (device : FileDevice) (line : List UInt8) (fault : FileFault) :
    Volume × FileDevice × Except String Unit :=
  match fault.write with
  | none =>
      (volume.modify device.file (· ++ line), { device with written := device.written + line.length },
        .ok ())
  | some (count, error) =>
      let volume' := volume.modify device.file (· ++ line.take count)
      let volume'' :=
        if fault.truncateFails then volume' else volume'.modify device.file (setLen device.written)
      (volume'', device, .error ("could not write to " ++ device.path ++ ": " ++ error))

def write (volume : Volume) (device : FileDevice) (record : EncodedRecord) (fault : FileFault) :
    Volume × FileDevice × Except String Unit :=
  let line := lineOf record
  if device.needsRotation line then
    match rotate volume device record.tsMillis record.seq fault with
    | (volume', device', .error error) =>
        (volume', device', .error ("could not rotate " ++ device.path ++ ": " ++ error))
    | (volume', device', .ok ()) => append volume' device' line fault
  else append volume device line fault

/-- A write that the process does not survive: `count` bytes of the line have reached the file, and
nothing is cut off. -/
def crashedWrite (volume : Volume) (device : FileDevice) (record : EncodedRecord)
    (fault : FileFault) (count : Nat) : Volume :=
  let line := lineOf record
  if device.needsRotation line then
    match rotate volume device record.tsMillis record.seq fault with
    | (volume', _, .error _) => volume'
    | (volume', device', .ok ()) => volume'.modify device'.file (· ++ line.take count)
  else volume.modify device.file (· ++ line.take count)

def reopen (volume : Volume) (device : FileDevice) (fault : FileFault) :
    Volume × FileDevice × Except String Unit :=
  match fault.openFile with
  | some error => (volume, device, .error ("could not reopen " ++ device.path ++ ": " ++ error))
  | none =>
      let (file, volume') := volume.openAppend device.path
      (volume', { device with file := file, written := (volume'.data file).length }, .ok ())

/-! ### The head of the file -/

/-- `rposition`: the index of the last byte that is looked for. -/
def rposition (p : UInt8 → Bool) (bytes : List UInt8) : Option Nat :=
  (bytes.reverse.findIdx? p).map fun i => bytes.length - 1 - i

def block : Nat := 8 * 1024

/-- The loop of `head_seq`: read backwards in blocks until the last line is complete. A file has no
more blocks than bytes. -/
def lastLine (content : List UInt8) : Nat → Nat → List UInt8 → List UInt8
  | 0, _, tail => tail
  | fuel + 1, readFrom, tail =>
      let taken := min block readFrom
      let readFrom' := readFrom - taken
      let tail' := (content.drop readFrom').take taken ++ tail
      let stop := ((rposition (· != newline) tail').map (· + 1)).getD 0
      match rposition (· == newline) (tail'.take stop) with
      | some start => (tail'.take stop).drop (start + 1)
      | none => if readFrom' = 0 then tail'.take stop else lastLine content fuel readFrom' tail'

def headSeq (codec : Codec) (volume : Volume) (device : FileDevice) (fault : FileFault) :
    Except String (Option Nat) :=
  match fault.read, volume.read device.path with
  | some error, _ => .error ("cannot open " ++ device.path ++ " to read its head: " ++ error)
  | none, none =>
      .error ("cannot open " ++ device.path ++
        " to read its head: No such file or directory (os error 2)")
  | none, some content =>
      if content.length = 0 then .ok none
      else
        let line := lastLine content content.length content.length []
        if line.isEmpty then .ok none
        else
          match Rust.fromUtf8 line with
          | none => .error ("the last line of " ++ device.path ++ " is not UTF-8")
          | some text =>
              match codec.valueSeq text with
              | .error error =>
                  .error ("the last line of " ++ device.path ++ " is not a record: " ++ error)
              | .ok none =>
                  .error ("the last line of " ++ device.path ++ " carries no sequence number")
              | .ok (some seq) => .ok (some seq)

end FileDevice

end Ciphr
