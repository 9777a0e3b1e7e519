import Ciphr.AuditIssued
import Ciphr.AuditFileHead

/-!
Quarantine across restarts. A file device that has missed a committed record is recognised at the
next start by the last line of its live file, and only by that line. As long as the live file of
such a device is not empty, the device stays quarantined and the lines of its archives and its live
file are the committed records without a gap. Where a rotation has just emptied the live file, the
device is taken for one that is in step.
-/

namespace Ciphr

/-- What the devices rely on `serde_json` for: the text of a record is not empty, has no newline and
carries the record's number. -/
structure Codec.WritesLines (codec : Codec) : Prop where
  not_empty : ∀ record text, codec.recordToString record = .ok text → bytesOf text ≠ []
  one_line : ∀ record text, codec.recordToString record = .ok text → newline ∉ bytesOf text
  carries_seq : ∀ record text, codec.recordToString record = .ok text →
    codec.valueSeq text = .ok (some record.seq)

/-- The line of a record without its newline. -/
def EncodedRecord.line (record : EncodedRecord) : List UInt8 := bytesOf record.payload

/-- A record whose text is a line of its own that carries its number. -/
structure Codec.Legible (codec : Codec) (record : EncodedRecord) : Prop where
  not_empty : record.line ≠ []
  one_line : newline ∉ record.line
  carries_seq : codec.valueSeq record.payload = .ok (some record.seq)

theorem Codec.WritesLines.legible {codec : Codec} (h : codec.WritesLines) {chain : Chain}
    {entry : Entry} {nowMillis : Int} {record : EncodedRecord}
    (hencode : chain.encode codec entry nowMillis = .ok record) : codec.Legible record := by
  obtain ⟨hseq, -, -, -, htext⟩ := Chain.encode_eq_ok hencode
  refine ⟨h.not_empty _ _ htext, h.one_line _ _ htext, ?_⟩
  rw [h.carries_seq _ _ htext, hseq]

/-! ### Files that hold records -/

/-- Files of which each holds some records, line by line, and which together hold these records in
this order. -/
def HoldRecords (contents : List (List UInt8)) (records : List EncodedRecord) : Prop :=
  ∃ chunks : List (List EncodedRecord),
    contents = chunks.map (fun chunk => Lines.join newline (chunk.map (·.line))) ∧
      chunks.flatten = records

namespace HoldRecords

theorem join_concat (chunk : List EncodedRecord) (record : EncodedRecord) :
    Lines.join newline ((chunk ++ [record]).map (·.line)) =
      Lines.join newline (chunk.map (·.line)) ++ FileDevice.lineOf record := by
  rw [List.map_append, Lines.join_append]
  simp [Lines.join, FileDevice.lineOf, EncodedRecord.line]

/-- The records of the newest file. -/
theorem concat {before : List (List UInt8)} {live : List UInt8} {records : List EncodedRecord}
    (h : HoldRecords (before ++ [live]) records) :
    ∃ others chunk, HoldRecords before others ∧ records = others ++ chunk ∧
      live = Lines.join newline (chunk.map (·.line)) := by
  obtain ⟨chunks, hcontents, rfl⟩ := h
  rcases List.eq_nil_or_concat' chunks with rfl | ⟨first, chunk, rfl⟩
  · exact absurd hcontents (List.append_ne_nil_of_right_ne_nil _ (List.cons_ne_nil _ _))
  · rw [List.map_append, List.map_singleton] at hcontents
    obtain ⟨hbefore, hlive⟩ := List.append_inj' hcontents rfl
    refine ⟨first.flatten, chunk, ⟨first, hbefore, rfl⟩, ?_, List.singleton_inj.mp hlive⟩
    simp

theorem append {before : List (List UInt8)} {others : List EncodedRecord}
    (h : HoldRecords before others) (chunk : List EncodedRecord) :
    HoldRecords (before ++ [Lines.join newline (chunk.map (·.line))]) (others ++ chunk) := by
  obtain ⟨chunks, hbefore, rfl⟩ := h
  refine ⟨chunks ++ [chunk], ?_, ?_⟩
  · rw [List.map_append, hbefore, List.map_singleton]
  · simp

theorem nil : HoldRecords [] [] := ⟨[], rfl, rfl⟩

theorem same {old new : List (List UInt8)} {records : List EncodedRecord} (h : HoldRecords old records)
    (hgrown : Grown [] old new) : HoldRecords new records := by
  obtain ⟨before, live, rfl | ⟨rfl, rfl⟩, rfl⟩ := hgrown
  · rwa [List.append_nil]
  · have hempty := h.append []
    rwa [List.append_nil] at hempty

/-- A line more, a record more. -/
theorem add {old new : List (List UInt8)} {records : List EncodedRecord} {record : EncodedRecord}
    (h : HoldRecords old records) (hgrown : Grown (FileDevice.lineOf record) old new) :
    HoldRecords new (records ++ [record]) := by
  obtain ⟨before, live, rfl | ⟨rfl, rfl⟩, rfl⟩ := hgrown
  · obtain ⟨others, chunk, hothers, rfl, rfl⟩ := h.concat
    rw [← join_concat, List.append_assoc]
    exact hothers.append _
  · have hnew := h.append [record]
    rwa [← List.nil_append [record], join_concat] at hnew

theorem complete {contents : List (List UInt8)} {records : List EncodedRecord}
    (h : HoldRecords contents records) (hlines : ∀ record ∈ records, newline ∉ record.line) :
    contents.flatMap (Lines.complete newline) = records.map (·.line) := by
  obtain ⟨chunks, rfl, rfl⟩ := h
  rw [List.flatMap_map, List.map_flatten, List.flatMap_def]
  congr 1
  refine List.map_congr_left ?_
  intro chunk hchunk
  refine Lines.complete_join ?_
  intro line hline
  obtain ⟨record, hrecord, rfl⟩ := List.mem_map.mp hline
  exact hlines record (List.mem_flatten.mpr ⟨chunk, hchunk, hrecord⟩)

/-- The last line of a newest file that is not empty is the last record. -/
theorem last_of_live {before : List (List UInt8)} {live : List UInt8} {records : List EncodedRecord}
    (h : HoldRecords (before ++ [live]) records) (hlive : live ≠ [])
    (hlegible : ∀ record ∈ records, record.line ≠ [] ∧ newline ∉ record.line) :
    ∃ record, records.getLast? = some record ∧ Lines.last newline live = record.line := by
  obtain ⟨others, chunk, -, rfl, rfl⟩ := h.concat
  rcases List.eq_nil_or_concat' chunk with rfl | ⟨chunk', record, rfl⟩
  · exact absurd rfl hlive
  · obtain ⟨hne, hline⟩ := hlegible record (by simp)
    refine ⟨record, ?_, ?_⟩
    · rw [← List.append_assoc, List.getLast?_concat]
    · rw [List.map_append]
      exact Lines.last_join hne hline

end HoldRecords

/-! ### Runs -/

namespace AuditLife

/-- The lines of the archives in the order of their creation, then those of the live file. -/
def rotationLines (s : AuditLife) (path : String) : List (List UInt8) :=
  (s.world.files path).contents.flatMap (Lines.complete newline)

/-- The device of a path has missed a committed record. -/
def Missed (s : AuditLife) (path : String) : Prop :=
  ∃ record ∈ s.committed, record.line ∉ s.rotationLines path

/-- The chain that was started with, resumed at its head. -/
def headChain (start : Chain) (s : AuditLife) : Except StoreError Chain :=
  .ok (start.after s.committed)

/-- There are no files yet, and nothing has been recorded. -/
def NoFiles (s : AuditLife) : Prop :=
  (∀ path, s.world.files path = .empty) ∧ s.sink = none ∧ s.committed = []

/-- Calls return, and what a failed write has left is cut off. At a restart the live file of a device
that has missed a record is there, is not empty and can be read. -/
def GapsVisible (config : Config) (s : AuditLife) : AuditEvent → Prop
  | .record _ _ io => ∀ i, (io i).file.truncateFails = false
  | .crash _ _ _ _ _ => False
  | .restart _ reading => ∀ i path size, config.audit[i]? = some (.file path size) → s.Missed path →
      (∃ content, (s.world.files path).read path = some content ∧ content ≠ []) ∧
        (reading i).file.read = none

/-- The files of every device hold the first records; those of a device that is written to hold all
of them. -/
structure GapInv (codec : Codec) (config : Config) (start : Chain) (s : AuditLife) : Prop where
  continued : start.Continued s.committed
  legible : ∀ record ∈ s.committed, codec.Legible record
  newest : ∀ path ∈ config.filePaths, FileDevice.PathNewest (s.world.files path) path
  held : ∀ path ∈ config.filePaths, ∃ k ≤ s.committed.length,
    HoldRecords (s.world.files path).contents (s.committed.take k)
  chain : ∀ sink, s.sink = some sink → sink.chain = start.after s.committed
  paths : ∀ sink, s.sink = some sink → sink.slots.map Slot.path? = config.audit.map (·.path?)
  writing : ∀ sink, s.sink = some sink → ∀ log, ⟨.file log, none⟩ ∈ sink.slots →
    FileDevice.Fits (s.world.files log.path) log ∧
      HoldRecords (s.world.files log.path).contents s.committed

variable {codec : Codec} {config : Config} {start : Chain} {s : AuditLife}

theorem gapInv_noFiles (h : NoFiles s) : GapInv codec config start s := by
  obtain ⟨hfiles, hsink, hcommitted⟩ := h
  have hnone : ∀ sink, s.sink ≠ some sink := by
    intro sink h
    rw [hsink] at h
    cases h
  refine ⟨?_, ?_, ?_, ?_, ?_, ?_, ?_⟩
  · rw [hcommitted]
    trivial
  · rw [hcommitted]
    intro record hmem
    cases hmem
  · intro path _ i hi
    rw [hfiles] at hi
    cases hi
  · intro path _
    refine ⟨0, Nat.zero_le _, ?_⟩
    rw [hfiles]
    exact .nil
  · intro sink h
    exact absurd h (hnone sink)
  · intro sink h
    exact absurd h (hnone sink)
  · intro sink h
    exact absurd h (hnone sink)

theorem GapInv.rotationLines_eq (h : GapInv codec config start s) {path : String} {k : Nat}
    (hheld : HoldRecords (s.world.files path).contents (s.committed.take k)) :
    s.rotationLines path = (s.committed.take k).map (·.line) := by
  refine hheld.complete ?_
  intro record hmem
  exact (h.legible record (List.mem_of_mem_take hmem)).one_line

/-- Records with one line are one record. -/
theorem GapInv.eq_of_line_eq (h : GapInv codec config start s) {record record' : EncodedRecord}
    (hmem : record ∈ s.committed) (hmem' : record' ∈ s.committed) (hline : record.line = record'.line) :
    record = record' := by
  have htext : record.payload = record'.payload := by
    have htext := Rust.fromUtf8_toUTF8 record.payload
    rw [show record.payload.toUTF8.data.toList = record'.payload.toUTF8.data.toList from hline,
      Rust.fromUtf8_toUTF8] at htext
    exact (Option.some.inj htext).symm
  have hseq := (h.legible record hmem).carries_seq
  rw [htext, (h.legible record' hmem').carries_seq] at hseq
  refine h.continued.eq_of_seq_eq hmem hmem' ?_
  simpa using hseq.symm

/-- A device that holds every committed record has missed none, and the other way round. -/
theorem GapInv.missed_iff (h : GapInv codec config start s) {path : String} {k : Nat}
    (hk : k ≤ s.committed.length)
    (hheld : HoldRecords (s.world.files path).contents (s.committed.take k)) :
    s.Missed path ↔ k < s.committed.length := by
  unfold Missed
  rw [h.rotationLines_eq hheld]
  constructor
  · rintro ⟨record, hmem, hnot⟩
    by_contra hge
    apply hnot
    rw [List.take_of_length_le (by omega)]
    exact List.mem_map.mpr ⟨record, hmem, rfl⟩
  · intro hlt
    refine ⟨s.committed[k], List.getElem_mem hlt, ?_⟩
    intro hmem
    obtain ⟨record, hrecord, hline⟩ := List.mem_map.mp hmem
    obtain ⟨j, hj⟩ := List.mem_iff_getElem?.mp hrecord
    have hjk : j < k := by
      have := (List.getElem?_eq_some_iff.mp hj).1
      rw [List.length_take] at this
      omega
    rw [List.getElem?_take_of_lt hjk] at hj
    have heq := h.eq_of_line_eq (List.mem_of_mem_take hrecord) (List.getElem_mem hlt) hline
    have hseq := h.continued.seq hj
    have hseq' := h.continued.seq (List.getElem?_eq_getElem hlt)
    rw [heq] at hseq
    omega

theorem GapInv.nodup (h : GapInv codec config start s) (hnodup : config.filePaths.Nodup)
    {sink : AuditSink Device} (hsink : s.sink = some sink) :
    (sink.slots.filterMap Slot.path?).Nodup := by
  rw [filterMap_path? (h.paths sink hsink)]
  exact hnodup

/-- The files of a path after a call, whether or not the record was committed. -/
theorem GapInv.fileAttempt (h : GapInv codec config start s) (hnodup : config.filePaths.Nodup)
    {sink : AuditSink Device} (hsink : s.sink = some sink) {io : Nat → DeviceFault}
    (hcut : ∀ i, (io i).file.truncateFails = false) (record : EncodedRecord) {path : String}
    (hpath : path ∈ config.filePaths) :
    FileAttempt record path sink.slots s.world (attemptAll record io 0 s.world sink.slots) := by
  obtain ⟨i, log, quarantined, hslot, rfl⟩ := slot_of_filePath (h.paths sink hsink) hpath
  exact Ciphr.fileAttempt record io (h.nodup hnodup hsink)
    (fun log hmem => (h.writing sink hsink log hmem).1) hcut hslot

/-- A call at whose end every device that was asked had refused. -/
theorem GapInv.allFailed (h : GapInv codec config start s) (hnodup : config.filePaths.Nodup)
    {sink : AuditSink Device} (hsink : s.sink = some sink) {io : Nat → DeviceFault}
    (hcut : ∀ i, (io i).file.truncateFails = false) (record : EncodedRecord)
    {attempts : AuditWorld × List (Attempt Device)}
    (hattempts : attempts = attemptAll record io 0 s.world sink.slots)
    (hnone : ∀ attempt ∈ attempts.2, attempt.outcome ≠ some (.ok ())) :
    GapInv codec config start
      { s with world := attempts.1, sink := some ⟨attempts.2.map (·.slot), sink.chain⟩ } := by
  subst hattempts
  have hfits : ∀ log, ⟨.file log, none⟩ ∈ sink.slots → FileDevice.Fits (s.world.files log.path) log :=
    fun log hmem => (h.writing sink hsink log hmem).1
  refine ⟨h.continued, h.legible, ?_, ?_, ?_, ?_, ?_⟩
  · intro path hpath
    exact (h.fileAttempt hnodup hsink hcut record hpath).pathNewest (h.newest path hpath)
  · intro path hpath
    obtain ⟨k, hk, hheld⟩ := h.held path hpath
    refine ⟨k, hk, ?_⟩
    cases h.fileAttempt hnodup hsink hcut record hpath with
    | quarantined log stop hslot hlog hfiles =>
        rw [hfiles]
        exact hheld
    | refused log log' error hslot hlog hattempt hlog' hfits' hgrown => exact hheld.same hgrown
    | accepted log log' hslot hlog hattempt hlog' hfits' hgrown => exact absurd rfl (hnone _ hattempt)
  · intro other hother
    cases hother
    exact h.chain sink hsink
  · intro other hother
    cases hother
    rw [List.map_map]
    exact (attemptAll_paths record io sink.slots 0 s.world).trans (h.paths sink hsink)
  · intro other hother log' hmem
    cases hother
    obtain ⟨attempt, hattempt, hslot⟩ := List.mem_map.mp hmem
    obtain ⟨log, hold, hpath, hfits', hcase⟩ :=
      fileAttempt_of_writing record io (h.nodup hnodup hsink) hfits hcut hattempt hslot
    rcases hcase with ⟨-, hgrown⟩ | ⟨hok, -⟩
    · rw [hpath]
      exact ⟨hfits', (h.writing sink hsink log hold).2.same hgrown⟩
    · exact absurd hok (hnone attempt hattempt)

/-- A call that has committed its record. -/
theorem GapInv.committed (h : GapInv codec config start s) (hcodec : codec.WritesLines)
    (hnodup : config.filePaths.Nodup) {sink : AuditSink Device} (hsink : s.sink = some sink)
    {entry : Entry} {nowMillis : Int} {io : Nat → DeviceFault}
    (hcut : ∀ i, (io i).file.truncateFails = false) {record : EncodedRecord}
    {attempts : AuditWorld × List (Attempt Device)}
    (hcommits : AuditSink.Commits codec sink s.world io entry nowMillis record attempts)
    (issued : List EncodedRecord) (accepted : List (String × Nat × EncodedRecord)) :
    GapInv codec config start
      ⟨attempts.1, some ⟨attempts.2.map (fun attempt =>
          attempt.slot.afterCommit record.seq (attempts.2.filterMap (·.failure))),
        ⟨sink.chain.nextSeq + 1, record.hash⟩⟩, s.committed ++ [record], issued, accepted⟩ := by
  have hfits : ∀ log, ⟨.file log, none⟩ ∈ sink.slots → FileDevice.Fits (s.world.files log.path) log :=
    fun log hmem => (h.writing sink hsink log hmem).1
  have hencode := hcommits.encoded
  have hattempts := hcommits.attempted
  subst hattempts
  have htake : ∀ k ≤ s.committed.length, (s.committed ++ [record]).take k = s.committed.take k :=
    fun k hk => List.take_append_of_le_length hk
  refine ⟨?_, ?_, ?_, ?_, ?_, ?_, ?_⟩
  · rw [h.chain sink hsink] at hencode
    exact h.continued.encode hencode
  · intro other hmem
    rcases List.mem_append.mp hmem with hmem | hmem
    · exact h.legible other hmem
    · rw [List.mem_singleton.mp hmem]
      exact hcodec.legible hencode
  · intro path hpath
    exact (h.fileAttempt hnodup hsink hcut record hpath).pathNewest (h.newest path hpath)
  · intro path hpath
    obtain ⟨k, hk, hheld⟩ := h.held path hpath
    cases h.fileAttempt hnodup hsink hcut record hpath with
    | quarantined log stop hslot hlog hfiles =>
        refine ⟨k, by simp; omega, ?_⟩
        rw [hfiles, htake k hk]
        exact hheld
    | refused log log' error hslot hlog hattempt hlog' hfits' hgrown =>
        refine ⟨k, by simp; omega, ?_⟩
        rw [htake k hk]
        exact hheld.same hgrown
    | accepted log log' hslot hlog hattempt hlog' hfits' hgrown =>
        refine ⟨(s.committed ++ [record]).length, Nat.le_refl _, ?_⟩
        rw [List.take_length]
        have hall := (h.writing sink hsink log hslot).2
        rw [hlog] at hall
        exact hall.add hgrown
  · intro other hother
    cases hother
    rw [Chain.after_concat, ← Chain.seq_of_encode hencode]
    rfl
  · intro other hother
    cases hother
    rw [List.map_map]
    refine Eq.trans ?_ (h.paths sink hsink)
    rw [← attemptAll_paths record io sink.slots 0 s.world]
    refine List.map_congr_left ?_
    intro attempt _
    exact afterCommit_path? _ _ _
  · intro other hother log' hmem
    cases hother
    obtain ⟨attempt, hattempt, hslot⟩ := List.mem_map.mp hmem
    obtain ⟨hslot, hnot⟩ := afterCommit_eq_writing hattempt hslot
    obtain ⟨log, hold, hpath, hfits', hcase⟩ :=
      fileAttempt_of_writing record io (h.nodup hnodup hsink) hfits hcut hattempt hslot
    rcases hcase with ⟨⟨error, herror⟩, -⟩ | ⟨-, hgrown⟩
    · exact absurd herror (hnot error)
    · rw [hpath]
      exact ⟨hfits', (h.writing sink hsink log hold).2.add hgrown⟩

/-- The head of the chain is the number of the last committed record. -/
theorem GapInv.head_eq (h : GapInv codec config start s) (hne : 0 < s.committed.length) :
    (start.after s.committed).nextSeq - 1 = start.nextSeq + s.committed.length - 1 := by
  have hlast : s.committed.getLast? = some s.committed[s.committed.length - 1] := by
    rw [List.getLast?_eq_getElem?]
    exact List.getElem?_eq_getElem (by omega)
  have hseq := h.continued.seq (List.getElem?_eq_getElem (i := s.committed.length - 1) (by omega))
  unfold Chain.after
  rw [hlast]
  simp only [Chain.resume]
  omega

/-- A device that is written to after a start has missed nothing. -/
theorem GapInv.held_of_opened (h : GapInv codec config start s) {log : FileDevice}
    {rotateAt : Option Nat} {opening : FileFault} {reading : DeviceFault} {world' : AuditWorld}
    (hpath : log.path ∈ config.filePaths)
    (hvisible : s.Missed log.path →
      (∃ content, (s.world.files log.path).read log.path = some content ∧ content ≠ []) ∧
        reading.file.read = none)
    (hopen : FileDevice.opened log.path rotateAt (s.world.files log.path) opening =
      (world'.files log.path, .ok log))
    (hstart : (startSlot codec world' ((start.after s.committed).nextSeq - 1) (Device.file log)
      reading).quarantined = none) :
    FileDevice.Fits (world'.files log.path) log ∧
      HoldRecords (world'.files log.path).contents s.committed := by
  obtain ⟨k, hk, hheld⟩ := h.held log.path hpath
  rcases FileDevice.opened_spec (h.newest log.path hpath) rotateAt opening with
    ⟨error, heq⟩ | ⟨volume, device, heq, hfits, -, hentry, hgrown, hread⟩
  · rw [hopen] at heq
    cases (Prod.mk.inj heq).2
  · rw [hopen] at heq
    obtain ⟨rfl, hdevice⟩ := Prod.mk.inj heq
    cases hdevice
    refine ⟨hfits, ?_⟩
    have hheld' := hheld.same hgrown
    by_cases hlt : k < s.committed.length
    · exfalso
      obtain ⟨⟨content, hcontent, hne⟩, hfault⟩ := hvisible ((h.missed_iff hk hheld).mpr hlt)
      have hcontent' : (world'.files log.path).read log.path = some content := by
        rcases hread with hread | ⟨hread, -⟩
        · rw [hread, hcontent]
        · rw [hread] at hcontent
          cases hcontent
      have hdata : (world'.files log.path).data log.file = content := by
        unfold FileSystem.read at hcontent'
        rw [hentry] at hcontent'
        exact Option.some.inj hcontent'
      rw [hfits.contents_eq, hdata] at hheld'
      obtain ⟨record, hlast, hline⟩ := hheld'.last_of_live hne
        fun other hmem => ⟨(h.legible other (List.mem_of_mem_take hmem)).not_empty,
          (h.legible other (List.mem_of_mem_take hmem)).one_line⟩
      have hmem := h.legible record (List.mem_of_mem_take (List.mem_of_getLast? hlast))
      have hhead := eq_head_of_startSlot hstart
        (FileDevice.headSeq_of_last hfault hcontent' hline hmem.not_empty hmem.carries_seq)
      -- the last line is that of record `k - 1`, and the head is a later one
      rw [List.getLast?_eq_getElem?, List.length_take] at hlast
      have hpos := (List.getElem?_eq_some_iff.mp hlast).1
      rw [List.length_take] at hpos
      rw [List.getElem?_take_of_lt (by omega)] at hlast
      have hseq := h.continued.seq hlast
      rw [h.head_eq (by omega)] at hhead
      omega
    · rwa [List.take_of_length_le (by omega)] at hheld'

theorem GapInv.restarted (h : GapInv codec config start s) (hnodup : config.filePaths.Nodup)
    {opening reading : Nat → DeviceFault}
    (hvisible : GapsVisible config s (.restart opening reading)) :
    GapInv codec config start (restarted codec config (headChain start) s opening reading) := by
  have hchain : ∀ sink, (AuditLife.restarted codec config (headChain start) s opening reading).sink =
      some sink → sink.chain = start.after s.committed := by
    intro sink hsink
    obtain ⟨devices, chain, -, hchain, hnew⟩ := restarted_sink hsink
    cases hchain
    exact (AuditSink.new_eq_ok hnew).1
  refine ⟨h.continued, h.legible, ?_, ?_, hchain, ?_, ?_⟩
  · intro path hpath
    exact (openDevices_files config s.world opening hnodup hpath (h.newest path hpath)).1
  · intro path hpath
    obtain ⟨k, hk, hheld⟩ := h.held path hpath
    refine ⟨k, hk, ?_⟩
    rcases (openDevices_files config s.world opening hnodup hpath (h.newest path hpath)).2 with
      hsame | hgrown
    · exact hsame.symm ▸ hheld
    · exact hheld.same hgrown
  · intro sink hsink
    exact (restarted_file hnodup hsink).1
  · intro sink hsink log hmem
    obtain ⟨i, size, rotateAt, fault, hstanza, hopen, hstart⟩ := (restarted_file hnodup hsink).2 log hmem
    rw [hchain sink hsink] at hstart
    have hpath : log.path ∈ config.filePaths :=
      List.mem_filterMap.mpr ⟨_, List.mem_of_getElem? hstanza, rfl⟩
    exact h.held_of_opened hpath (hvisible i log.path size hstanza) hopen hstart

theorem GapInv.step (h : GapInv codec config start s) (hcodec : codec.WritesLines)
    (hnodup : config.filePaths.Nodup) {event : AuditEvent} {s' : AuditLife}
    (hvisible : GapsVisible config s event)
    (hstep : AuditLife.step codec config (headChain start) s event = some s') :
    GapInv codec config start s' := by
  cases event with
  | record entry nowMillis io =>
      obtain ⟨sink, hsink, rfl⟩ := Option.map_eq_some_iff.mp hstep
      rcases recorded_cases codec s sink entry nowMillis io with
        heq | ⟨record, attempts, -, hattempts, hnone, heq⟩ | ⟨record, attempts, hcommits, heq⟩
      · rw [heq, ← hsink]
        exact h
      · rw [heq]
        exact h.allFailed hnodup hsink hvisible record hattempts hnone
      · rw [heq]
        exact h.committed hcodec hnodup hsink hvisible hcommits _ _
  | crash entry nowMillis io slot count => exact absurd hvisible not_false
  | restart opening reading =>
      cases hstep
      exact h.restarted hnodup hvisible

/-- A device that has missed a record is not written to. -/
theorem GapInv.bytes_of_missed (h : GapInv codec config start s) (hnodup : config.filePaths.Nodup)
    {path : String} (hpath : path ∈ config.filePaths) (hmissed : s.Missed path) {event : AuditEvent}
    {s' : AuditLife} (hvisible : GapsVisible config s event)
    (hstep : AuditLife.step codec config (headChain start) s event = some s') :
    (s'.world.files path).contents.flatten = (s.world.files path).contents.flatten := by
  cases event with
  | crash entry nowMillis io slot count => exact absurd hvisible not_false
  | restart opening reading =>
      cases hstep
      rcases (openDevices_files config s.world opening hnodup hpath (h.newest path hpath)).2 with
        hsame | hgrown
      · exact congrArg (fun volume => (FileSystem.contents volume).flatten) hsame
      · exact hgrown.flatten.trans (List.append_nil _)
  | record entry nowMillis io =>
      obtain ⟨sink, hsink, rfl⟩ := Option.map_eq_some_iff.mp hstep
      have hnot : ∀ log, ⟨.file log, none⟩ ∈ sink.slots → log.path ≠ path := by
        rintro log hmem rfl
        have hall := (h.writing sink hsink log hmem).2
        have htake := List.take_length (l := s.committed)
        rw [← htake] at hall
        exact absurd ((h.missed_iff (Nat.le_refl _) hall).mp hmissed) (Nat.lt_irrefl _)
      have hfiles : ∀ record, (attemptAll record io 0 s.world sink.slots).1.files path =
          s.world.files path := by
        intro record
        cases h.fileAttempt hnodup hsink hvisible record hpath with
        | quarantined log stop hslot hlog hfiles => exact hfiles
        | refused log log' error hslot hlog hattempt hlog' hfits hgrown => exact absurd hlog (hnot log hslot)
        | accepted log log' hslot hlog hattempt hlog' hfits hgrown => exact absurd hlog (hnot log hslot)
      rcases recorded_cases codec s sink entry nowMillis io with
        heq | ⟨record, attempts, -, hattempts, -, heq⟩ | ⟨record, attempts, hcommits, heq⟩
      · rw [heq]
      · rw [heq]
        dsimp only
        rw [hattempts, hfiles]
      · rw [heq]
        dsimp only
        rw [hcommits.attempted, hfiles]

/-- In every run in which the live file of a device that has missed a record is not empty at a
restart, the lines of a device's archives and its live file are the committed records up to some
point, without a gap, and no step writes to a device that has missed one. -/
theorem rotation_set_gap_free (codec : Codec) (hcodec : codec.WritesLines) (config : Config)
    (hnodup : config.filePaths.Nodup) (start : Chain) (s : AuditLife)
    (h : Transition.Reachable NoFiles (AuditLife.step codec config (headChain start))
      (GapsVisible config) s) (path : String) (hpath : path ∈ config.filePaths) :
    start.Continued s.committed ∧ s.rotationLines path <+: s.committed.map (·.line) ∧
      ∀ event s', GapsVisible config s event →
        AuditLife.step codec config (headChain start) s event = some s' → s.Missed path →
        (s'.world.files path).contents.flatten = (s.world.files path).contents.flatten := by
  have hinv : GapInv codec config start s :=
    h.invariant (fun _ hs => gapInv_noFiles hs)
      (fun _ _ _ hs hvisible hstep => hs.step hcodec hnodup hvisible hstep)
  refine ⟨hinv.continued, ?_, ?_⟩
  · obtain ⟨k, -, hheld⟩ := hinv.held path hpath
    rw [hinv.rotationLines_eq hheld, List.map_take]
    exact List.take_prefix _ _
  · intro event s' hvisible hstep hmissed
    exact hinv.bytes_of_missed hnodup hpath hmissed hvisible hstep

end AuditLife

/-! ### A rotation before the write that fails -/

namespace Sample

def logPath : String := "/var/log/ciphr/audit.jsonl"

/-- A file that has room for one record. -/
def rotatingConfig : Config :=
  ⟨"/var/lib/ciphr/store.db", [.sqlite, .file logPath (some "500")], [], []⟩

/-- The second record makes the file rotate and then finds the disk full; the server is restarted. -/
def fullAfterRotation : List AuditEvent :=
  [.restart noFaults noFaults, .record entry millis noFaults, .record entry millis diskFull,
    .restart noFaults noFaults]

theorem written_again_after_rotation :
    rotatingConfig.validate = .ok () ∧
      ∃ s s', Transition.run (AuditLife.step codec rotatingConfig (AuditLife.headChain .new)) start
          fullAfterRotation = some s ∧ s.Missed logPath ∧
        AuditLife.step codec rotatingConfig (AuditLife.headChain .new) s
          (.record entry millis noFaults) = some s' ∧
        (s'.world.files logPath).contents.flatten ≠ (s.world.files logPath).contents.flatten ∧
        ¬ s'.rotationLines logPath <+: s'.committed.map (·.line) := by
  refine ⟨by decide +kernel, ?_⟩
  have hrun : (Transition.run (AuditLife.step codec rotatingConfig (AuditLife.headChain .new)) start
      fullAfterRotation).any (fun s =>
        s.committed.any (fun record => record.line ∉ s.rotationLines logPath) &&
        (AuditLife.step codec rotatingConfig (AuditLife.headChain .new) s
          (.record entry millis noFaults)).any fun s' =>
            (s'.world.files logPath).contents.flatten ≠ (s.world.files logPath).contents.flatten &&
              ¬ s'.rotationLines logPath <+: s'.committed.map (·.line)) = true := by
    decide +kernel
  obtain ⟨s, hs, hpair⟩ := Option.any_eq_true _ _ |>.mp hrun
  rw [Bool.and_eq_true] at hpair
  obtain ⟨s', hs', hpair'⟩ := Option.any_eq_true _ _ |>.mp hpair.2
  simp only [Bool.and_eq_true, decide_eq_true_eq] at hpair'
  refine ⟨s, s', hs, ?_, hs', hpair'.1, hpair'.2⟩
  simpa [AuditLife.Missed] using hpair.1

theorem codec_writesLines : codec.WritesLines := by
  have htable : ∀ row ∈ table, bytesOf row.2.1 ≠ [] ∧ newline ∉ bytesOf row.2.1 ∧
      codec.valueSeq row.2.1 = .ok (some row.1.seq) := by
    decide +kernel
  have hrow : ∀ record text, codec.recordToString record = .ok text →
      ∃ row ∈ table, row.1 = record ∧ row.2.1 = text := by
    intro record text h
    unfold codec at h
    dsimp only at h
    split at h
    · rename_i row hfind
      cases h
      have hsame := List.find?_some hfind
      exact ⟨row, List.mem_of_find?_eq_some hfind, (beq_iff_eq.mp hsame).symm, rfl⟩
    · cases h
  constructor
  · intro record text h
    obtain ⟨row, hmem, -, rfl⟩ := hrow record text h
    exact (htable row hmem).1
  · intro record text h
    obtain ⟨row, hmem, -, rfl⟩ := hrow record text h
    exact (htable row hmem).2.1
  · intro record text h
    obtain ⟨row, hmem, rfl, rfl⟩ := hrow record text h
    exact (htable row hmem).2.2

theorem noFaults_cut (i : Nat) : (noFaults i).file.truncateFails = false := rfl

theorem diskFull_cut (i : Nat) : (diskFull i).file.truncateFails = false := by
  unfold diskFull
  split
  · rfl
  · rfl

/-- Without a rotation the device that missed the second record still holds the first one. -/
theorem rotation_set_gap_free_after_full_disk :
    ∃ s, Transition.run (AuditLife.step codec storeAndFileConfig (AuditLife.headChain .new)) start
        refusedByFile = some s ∧ s.Missed logPath ∧
      s.rotationLines logPath <+: s.committed.map (·.line) := by
  have hrun : (Transition.run (AuditLife.step codec storeAndFileConfig (AuditLife.headChain .new)) start
      refusedByFile).any (fun s =>
        s.committed.any (fun record => record.line ∉ s.rotationLines logPath)) = true := by
    decide +kernel
  obtain ⟨s, hs, hmissed⟩ := Option.any_eq_true _ _ |>.mp hrun
  have hlive : (Transition.run (AuditLife.step codec storeAndFileConfig (AuditLife.headChain .new)) start
      (refusedByFile.take 3)).all (fun s => ((s.world.files logPath).read logPath).any (· ≠ [])) = true := by
    decide +kernel
  have hreachable : Transition.Reachable AuditLife.NoFiles
      (AuditLife.step codec storeAndFileConfig (AuditLife.headChain .new))
      (AuditLife.GapsVisible storeAndFileConfig) s := by
    refine Transition.reachable_of_steps refusedByFile (.start ⟨fun _ => rfl, rfl, rfl⟩) ?_ hs
    intro k event t hevent hreached
    have hk : k < 5 := (List.getElem?_eq_some_iff.mp hevent).1
    rcases (by omega : k = 0 ∨ k = 1 ∨ k = 2 ∨ k = 3 ∨ k = 4) with rfl | rfl | rfl | rfl | rfl
    · obtain rfl := Option.some.inj hevent
      obtain rfl := Option.some.inj hreached
      rintro i path size - ⟨record, hmem, -⟩
      cases hmem
    · obtain rfl := Option.some.inj hevent
      exact noFaults_cut
    · obtain rfl := Option.some.inj hevent
      exact diskFull_cut
    · obtain rfl := Option.some.inj hevent
      intro i path size hstanza _
      have hpath : path = logPath := by
        have hmem : path ∈ storeAndFileConfig.filePaths :=
          List.mem_filterMap.mpr ⟨_, List.mem_of_getElem? hstanza, rfl⟩
        exact List.mem_singleton.mp hmem
      rw [hreached, Option.all_some] at hlive
      obtain ⟨content, hcontent, hne⟩ := Option.any_eq_true _ _ |>.mp hlive
      rw [hpath]
      exact ⟨⟨content, hcontent, by simpa using hne⟩, rfl⟩
    · obtain rfl := Option.some.inj hevent
      exact noFaults_cut
  refine ⟨s, hs, by simpa [AuditLife.Missed] using hmissed, ?_⟩
  exact (AuditLife.rotation_set_gap_free codec codec_writesLines storeAndFileConfig (by decide +kernel)
    .new s hreachable logPath (by decide +kernel)).2.1

end Sample

end Ciphr
