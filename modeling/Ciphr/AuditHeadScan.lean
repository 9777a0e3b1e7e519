import Ciphr.AuditFileHead

/-!
The loop of `head_seq` against what it is for: however a file falls into blocks, the loop ends, and what
it ends with is the last line of the file that is not empty.
-/

namespace Ciphr

/-! ### The loop -/

namespace FileDevice

/-- One round of the loop: where it has read from, what has been read so far, and the line if the loop
ends here. -/
def scanRound (content : List UInt8) (readFrom : Nat) (tail : List UInt8) :
    Nat × List UInt8 × Option (List UInt8) :=
  let taken := min block readFrom
  let readFrom' := readFrom - taken
  let tail' := (content.drop readFrom').take taken ++ tail
  let stop := ((rposition (· != newline) tail').map (· + 1)).getD 0
  (readFrom', tail', match rposition (· == newline) (tail'.take stop) with
    | some start => some ((tail'.take stop).drop (start + 1))
    | none => if readFrom' = 0 then some (tail'.take stop) else none)

/-- The loop ends after so many rounds, with this line. -/
inductive Scans (content : List UInt8) : Nat → List UInt8 → Nat → List UInt8 → Prop
  | ends {readFrom : Nat} {tail line : List UInt8}
      (hround : (scanRound content readFrom tail).2.2 = some line) :
      Scans content readFrom tail 1 line
  | again {readFrom rounds : Nat} {tail line : List UInt8}
      (hround : (scanRound content readFrom tail).2.2 = none)
      (hrest : Scans content (scanRound content readFrom tail).1 (scanRound content readFrom tail).2.1
        rounds line) :
      Scans content readFrom tail (rounds + 1) line

variable {content : List UInt8}

/-- No two ways to end. -/
theorem Scans.unique {readFrom rounds rounds' : Nat} {tail line line' : List UInt8}
    (h : Scans content readFrom tail rounds line) (h' : Scans content readFrom tail rounds' line') :
    rounds = rounds' ∧ line = line' := by
  induction h generalizing rounds' with
  | ends hround =>
      cases h' with
      | ends hround' =>
          rw [hround, Option.some.injEq] at hround'
          exact ⟨rfl, hround'⟩
      | again hround' hrest' =>
          rw [hround] at hround'
          cases hround'
  | again hround hrest ih =>
      cases h' with
      | ends hround' =>
          rw [hround] at hround'
          cases hround'
      | again hround' hrest' =>
          obtain ⟨hrounds, hline⟩ := ih hrest'
          exact ⟨by rw [hrounds], hline⟩

theorem lastLine_succ (fuel readFrom : Nat) (tail : List UInt8) :
    lastLine content (fuel + 1) readFrom tail =
      match (scanRound content readFrom tail).2.2 with
      | some line => line
      | none => lastLine content fuel (scanRound content readFrom tail).1
          (scanRound content readFrom tail).2.1 := by
  rw [lastLine]
  unfold scanRound
  dsimp only
  generalize readFrom - min block readFrom = readFrom'
  generalize (content.drop readFrom').take (min block readFrom) ++ tail = tail'
  generalize ((rposition (fun byte => byte != newline) tail').map (· + 1)).getD 0 = stop
  cases rposition (fun byte => byte == newline) (tail'.take stop) with
  | some start => rfl
  | none =>
      by_cases hstart : readFrom' = 0
      · simp only [if_pos hstart]
      · simp only [if_neg hstart]

/-- A round that does not end the loop has read a whole block, and has not come to the beginning. -/
theorem scanRound_again {readFrom : Nat} {tail : List UInt8}
    (h : (scanRound content readFrom tail).2.2 = none) :
    (scanRound content readFrom tail).1 + block = readFrom ∧
      0 < (scanRound content readFrom tail).1 := by
  unfold scanRound at h ⊢
  dsimp only at h ⊢
  split at h
  · cases h
  · split at h
    · cases h
    · omega

/-- The loop ends, after no more rounds than the file has blocks. -/
theorem scans_lastLine (fuel readFrom : Nat) (tail : List UInt8) (hpos : 0 < readFrom)
    (hfuel : readFrom ≤ fuel) :
    ∃ rounds, Scans content readFrom tail rounds (lastLine content fuel readFrom tail) ∧
      rounds ≤ (readFrom + (block - 1)) / block := by
  induction fuel generalizing readFrom tail with
  | zero => omega
  | succ fuel ih =>
      rw [lastLine_succ]
      cases hround : (scanRound content readFrom tail).2.2 with
      | some line =>
          refine ⟨1, .ends hround, ?_⟩
          unfold block
          omega
      | none =>
          obtain ⟨hblock, hmore⟩ := scanRound_again hround
          have hsmaller : (scanRound content readFrom tail).1 ≤ fuel := by
            unfold block at hblock
            omega
          obtain ⟨rounds, hscans, hbound⟩ :=
            ih (scanRound content readFrom tail).1 (scanRound content readFrom tail).2.1 hmore hsmaller
          refine ⟨rounds + 1, .again hround hscans, ?_⟩
          unfold block at hblock hbound ⊢
          omega

/-- The line that the loop ends with. -/
theorem lastLine_content (hne : content ≠ []) :
    lastLine content content.length content.length [] = Lines.last newline content := by
  have hlength := List.length_pos_iff.mpr hne
  have hall := lastLine_eq content content.length content.length hlength (Nat.le_refl _) (Nat.le_refl _)
  rwa [List.drop_length] at hall

end FileDevice

/-! ### The number on the line -/

/-- `serde_json::Number`. -/
inductive JsonNumber where
  | posInt (n : UInt64)
  | negInt (n : Int64)
  | float
  deriving DecidableEq

/-- `serde_json::Value`. An object has every key once. -/
inductive JsonValue where
  | null
  | bool (value : Bool)
  | number (value : JsonNumber)
  | string (value : String)
  | array (values : List JsonValue)
  | object (fields : List (String × JsonValue))

namespace JsonValue

/-- `Value::get` with a string. -/
def get (key : String) : JsonValue → Option JsonValue
  | .object fields => (fields.find? (·.1 == key)).map (·.2)
  | _ => none

def asU64 : JsonValue → Option Nat
  | .number (.posInt n) => some n.toNat
  | _ => none

/-- The value is an object with this number under `seq`. -/
def HasSeq (value : JsonValue) (seq : Nat) : Prop :=
  ∃ fields field n, value = .object fields ∧ fields.find? (·.1 == "seq") = some field ∧
    field.2 = .number (.posInt n) ∧ n.toNat = seq

theorem get_asU64_iff {value : JsonValue} {seq : Nat} :
    (value.get "seq").bind asU64 = some seq ↔ value.HasSeq seq := by
  constructor
  · intro h
    obtain ⟨found, hget, hfound⟩ := Option.bind_eq_some_iff.mp h
    unfold get at hget
    split at hget
    · rename_i fields
      obtain ⟨field, hfield, rfl⟩ := Option.map_eq_some_iff.mp hget
      unfold asU64 at hfound
      split at hfound
      · rename_i n hn
        cases hfound
        exact ⟨fields, field, n, rfl, hfield, hn, rfl⟩
      · cases hfound
    · cases hget
  · rintro ⟨fields, field, n, rfl, hfield, hnumber, rfl⟩
    unfold get
    dsimp only
    rw [hfield, Option.map_some, Option.bind_some, hnumber]
    rfl

end JsonValue

/-- The codec whose value of a line is what `from_str` makes of it, asked for the number. -/
def Codec.withValues (codec : Codec) (fromStr : String → Except String JsonValue) : Codec :=
  { codec with valueSeq := fun text => (fromStr text).map fun value =>
      (value.get "seq").bind JsonValue.asU64 }

section Head

variable {codec : Codec} {fromStr : String → Except String JsonValue} {volume : Volume}
  {device : FileDevice} {fault : FileFault} {content : List UInt8}

/-- `head_seq` of a file, in terms of its last line. -/
theorem headSeq_eq (hfault : fault.read = none) (hcontent : volume.read device.path = some content) :
    device.headSeq codec volume fault =
      if Lines.last newline content = [] then .ok none
      else
        match Rust.fromUtf8 (Lines.last newline content) with
        | none => .error ("the last line of " ++ device.path ++ " is not UTF-8")
        | some text =>
            match codec.valueSeq text with
            | .error error =>
                .error ("the last line of " ++ device.path ++ " is not a record: " ++ error)
            | .ok none =>
                .error ("the last line of " ++ device.path ++ " carries no sequence number")
            | .ok (some seq) => .ok (some seq) := by
  unfold FileDevice.headSeq
  rw [hfault, hcontent]
  dsimp only
  by_cases hempty : content = []
  · rw [if_pos (by rw [hempty]; rfl), hempty]
    rfl
  · rw [if_neg (by rwa [List.length_eq_zero_iff]), FileDevice.lastLine_content hempty]
    by_cases hnil : Lines.last newline content = []
    · rw [hnil]
      rfl
    · have hsome : (Lines.last newline content).isEmpty = false := by
        rwa [List.isEmpty_eq_false_iff]
      rw [hsome, if_neg Bool.false_ne_true]
      exact (if_neg hnil).symm

theorem headSeq_eq_none_iff (hfault : fault.read = none)
    (hcontent : volume.read device.path = some content) :
    device.headSeq codec volume fault = .ok none ↔ ∀ byte ∈ content, byte = newline := by
  rw [headSeq_eq hfault hcontent, ← Lines.last_eq_nil_iff]
  constructor
  · intro h
    split at h
    · assumption
    · split at h
      · cases h
      · split at h
        · cases h
        · cases h
        · cases h
  · intro hnil
    rw [if_pos hnil]

theorem headSeq_eq_some_iff {seq : Nat} (hfault : fault.read = none)
    (hcontent : volume.read device.path = some content) :
    device.headSeq codec volume fault = .ok (some seq) ↔
      ∃ text, Lines.IsLast newline content (bytesOf text) ∧ codec.valueSeq text = .ok (some seq) := by
  rw [headSeq_eq hfault hcontent]
  constructor
  · intro h
    split at h
    · cases h
    · rename_i hne
      split at h
      · cases h
      · rename_i text htext
        have hbytes : bytesOf text = Lines.last newline content := (Rust.fromUtf8_eq_some.mp htext).symm
        have hsome : ∃ byte ∈ content, byte ≠ newline := by
          by_contra hall
          simp only [not_exists, not_and, not_not] at hall
          exact hne (Lines.last_eq_nil_iff.mpr hall)
        refine ⟨text, ?_, ?_⟩
        · rw [hbytes]
          exact Lines.isLast_last hsome
        · split at h
          · cases h
          · cases h
          · rename_i found hfound
            cases h
            exact hfound
  · rintro ⟨text, hlast, hseq⟩
    have htext : Rust.fromUtf8 (bytesOf text) = some text := Rust.fromUtf8_eq_some.mpr rfl
    rw [hlast.eq, if_neg hlast.1, htext]
    dsimp only
    rw [hseq]

/-- For every content of a file the loop of `head_seq` ends, after no more rounds than there are
blocks, and only with the last line that is not empty; there is no head exactly where the file is
nothing but newlines, and the head is the number on that line exactly where the line is a JSON object
with such a number. -/
theorem head_scan_exact (codec : Codec) (fromStr : String → Except String JsonValue) :
    (∀ content, content ≠ [] → ∃ rounds line,
      FileDevice.Scans content content.length [] rounds line ∧
      rounds ≤ (content.length + (FileDevice.block - 1)) / FileDevice.block ∧
      (∀ rounds' line', FileDevice.Scans content content.length [] rounds' line' → line' = line) ∧
      ((∀ byte ∈ content, byte = newline) ∧ line = [] ∨ Lines.IsLast newline content line)) ∧
    ∀ volume (device : FileDevice) fault content, fault.read = none →
      volume.read device.path = some content →
      (device.headSeq (codec.withValues fromStr) volume fault = .ok none ↔
        ∀ byte ∈ content, byte = newline) ∧
      ∀ seq, device.headSeq (codec.withValues fromStr) volume fault = .ok (some seq) ↔
        ∃ text value, Lines.IsLast newline content (bytesOf text) ∧ fromStr text = .ok value ∧
          value.HasSeq seq := by
  constructor
  · intro content hne
    have hlength := List.length_pos_iff.mpr hne
    obtain ⟨rounds, hscans, hbound⟩ :=
      @FileDevice.scans_lastLine content content.length content.length [] hlength
        (Nat.le_refl _)
    rw [FileDevice.lastLine_content hne] at hscans
    refine ⟨rounds, _, hscans, hbound, fun _ _ hother => (hother.unique hscans).2, ?_⟩
    by_cases hall : ∀ byte ∈ content, byte = newline
    · exact .inl ⟨hall, Lines.last_eq_nil_iff.mpr hall⟩
    · simp only [not_forall] at hall
      obtain ⟨byte, hmem, hother⟩ := hall
      exact .inr (Lines.isLast_last ⟨byte, hmem, hother⟩)
  · intro volume device fault content hfault hcontent
    refine ⟨headSeq_eq_none_iff hfault hcontent, ?_⟩
    intro seq
    rw [headSeq_eq_some_iff hfault hcontent]
    apply exists_congr
    intro text
    constructor
    · rintro ⟨hlast, hseq⟩
      obtain ⟨value, hvalue, hget⟩ := Loop.map_eq_ok.mp hseq
      exact ⟨value, hlast, hvalue, JsonValue.get_asU64_iff.mp hget⟩
    · rintro ⟨value, hlast, hvalue, hhas⟩
      refine ⟨hlast, Loop.map_eq_ok.mpr ⟨value, hvalue, JsonValue.get_asU64_iff.mpr hhas⟩⟩

end Head

end Ciphr
