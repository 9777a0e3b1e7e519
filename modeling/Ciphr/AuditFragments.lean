import Ciphr.AuditRotationSet

/-!
Lines across a crash. A write that the process does not survive leaves a fragment at the end of the
live file, and nothing cuts it off: the next start looks at it only to find out where the device
stands. A device whose fragment is a whole record other than the head is quarantined. Where the
fragment cannot be read as a record, or is the head, the next record is written behind it on the
same line.
-/

namespace Ciphr

/-- Bytes that do not end with a newline have a last line. -/
theorem last_ne_nil_of_not_clean {content : List UInt8} (h : ¬ Lines.Clean newline content) :
    Lines.last newline content ≠ [] := by
  rcases List.eq_nil_or_concat' content with rfl | ⟨before, byte, rfl⟩
  · exact absurd (.inl rfl) h
  · have hbyte : byte ≠ newline := by
      rintro rfl
      exact h (.inr List.getLast?_concat)
    unfold Lines.last
    rw [List.reverse_append, List.reverse_singleton, List.singleton_append,
      List.dropWhile_cons_of_neg (by simpa using hbyte), List.takeWhile_cons_of_pos (by simpa using hbyte)]
    simp

namespace AuditLife

/-- A file device's record stands on a line of its own. -/
def OnOwnLine (s : AuditLife) (path : String) (file : Nat) (record : EncodedRecord) : Prop :=
  ∃ content, (s.world.files path).contents[file]? = some content ∧
    record.line ∈ Lines.complete newline content

/-- What a failed write has left is cut off. At a restart every live file ends with a newline, or with
a record that is not the head of the chain. -/
def FragmentsSeen (codec : Codec) (config : Config) (s : AuditLife) : AuditEvent → Prop
  | .record _ _ io => ∀ i, (io i).file.truncateFails = false
  | .crash _ _ io _ _ => ∀ i, (io i).file.truncateFails = false
  | .restart _ reading => ∀ chain, s.storeChain = .ok chain →
      ∀ i path size, config.audit[i]? = some (.file path size) →
      ∀ content, (s.world.files path).read path = some content →
        Lines.Clean newline content ∨
          ((reading i).file.read = none ∧ ∃ text seq, Lines.last newline content = bytesOf text ∧
            codec.valueSeq text = .ok (some seq) ∧ seq ≠ chain.nextSeq - 1)

/-- Every accepted record stands on a line of its own, and a device that is written to writes behind
complete lines. -/
structure LineInv (config : Config) (s : AuditLife) : Prop where
  newest : ∀ path ∈ config.filePaths, FileDevice.PathNewest (s.world.files path) path
  accepted : ∀ path file record, (path, file, record) ∈ s.accepted →
    path ∈ config.filePaths ∧ s.OnOwnLine path file record
  paths : ∀ sink, s.sink = some sink → sink.slots.map Slot.path? = config.audit.map (·.path?)
  writing : ∀ sink, s.sink = some sink → ∀ log, ⟨.file log, none⟩ ∈ sink.slots →
    FileDevice.Fits (s.world.files log.path) log ∧
      Lines.Clean newline ((s.world.files log.path).data log.file)

end AuditLife

/-- A line added behind complete lines: the newest file ends with it and has it as a line. -/
theorem Grown.complete_line {record : EncodedRecord} {volume volume' : Volume} {log log' : FileDevice}
    (hgrown : Grown (FileDevice.lineOf record) volume.contents volume'.contents)
    (hfits : FileDevice.Fits volume log) (hfits' : FileDevice.Fits volume' log')
    (hclean : Lines.Clean newline (volume.data log.file)) (hline : newline ∉ record.line) :
    Lines.Clean newline (volume'.data log'.file) ∧
      record.line ∈ Lines.complete newline (volume'.data log'.file) := by
  obtain ⟨before, live, hold, hnew⟩ := hgrown
  rw [hfits.contents_eq] at hold
  rw [hfits'.contents_eq] at hnew
  have hdata : volume'.data log'.file = live ++ (record.line ++ [newline]) :=
    List.singleton_inj.mp (List.append_inj_right' hnew rfl)
  have hlive : Lines.Clean newline live := by
    rcases hold with hold | ⟨-, rfl⟩
    · rw [← List.singleton_inj.mp (List.append_inj_right' hold rfl)]
      exact hclean
    · exact .inl rfl
  rw [hdata]
  refine ⟨Lines.clean_append_line _ _, ?_⟩
  rw [Lines.complete_append_line hlive hline]
  exact List.mem_append_right _ (List.mem_singleton.mpr rfl)

/-- Where nothing was added, the newest file ends as it did, or is new. -/
theorem Grown.clean {volume volume' : Volume} {log log' : FileDevice}
    (hgrown : Grown [] volume.contents volume'.contents) (hfits : FileDevice.Fits volume log)
    (hfits' : FileDevice.Fits volume' log')
    (hclean : Lines.Clean newline (volume.data log.file)) :
    Lines.Clean newline (volume'.data log'.file) := by
  obtain ⟨before, live, hold, hnew⟩ := hgrown
  rw [hfits.contents_eq] at hold
  rw [hfits'.contents_eq, List.append_nil] at hnew
  rw [List.singleton_inj.mp (List.append_inj_right' hnew rfl)]
  rcases hold with hold | ⟨-, rfl⟩
  · rw [← List.singleton_inj.mp (List.append_inj_right' hold rfl)]
    exact hclean
  · exact .inl rfl

namespace AuditLife

/-- Files that only grow keep their lines. -/
theorem OnOwnLine.mono {s s' : AuditLife} {path : String} {file : Nat} {record : EncodedRecord}
    (h : s.OnOwnLine path file record)
    (hfiles : s'.world.files path = s.world.files path ∨
      ∃ more, Grown more (s.world.files path).contents (s'.world.files path).contents) :
    s'.OnOwnLine path file record := by
  obtain ⟨content, hcontent, hline⟩ := h
  rcases hfiles with hsame | ⟨more, hgrown⟩
  · exact ⟨content, by rw [hsame, hcontent], hline⟩
  · obtain ⟨content', hcontent', rest, rfl⟩ := hgrown.getElem?_prefix hcontent
    exact ⟨_, hcontent', (Lines.complete_prefix_append content rest).subset hline⟩

end AuditLife

section Call

variable {record : EncodedRecord} {io : Nat → DeviceFault} {slots : List (Slot Device)}
  {world : AuditWorld} (hnodup : (slots.filterMap Slot.path?).Nodup)
  (hwriting : ∀ log, ⟨.file log, none⟩ ∈ slots → FileDevice.Fits (world.files log.path) log ∧
    Lines.Clean newline ((world.files log.path).data log.file))
  (hcut : ∀ i, (io i).file.truncateFails = false) (hline : newline ∉ record.line)

include hnodup hwriting hcut hline

/-- A device that is still written to after the loop writes behind complete lines. -/
theorem clean_of_writing {attempt : Attempt Device} {log' : FileDevice}
    (hmem : attempt ∈ (attemptAll record io 0 world slots).2)
    (hslot : attempt.slot = ⟨.file log', none⟩) :
    FileDevice.Fits ((attemptAll record io 0 world slots).1.files log'.path) log' ∧
      Lines.Clean newline (((attemptAll record io 0 world slots).1.files log'.path).data log'.file) := by
  obtain ⟨log, hold, hpath, hfits', hcase⟩ :=
    fileAttempt_of_writing record io hnodup (fun log hmem => (hwriting log hmem).1) hcut hmem hslot
  obtain ⟨hfits, hclean⟩ := hwriting log hold
  rw [hpath]
  refine ⟨hfits', ?_⟩
  rcases hcase with ⟨-, hgrown⟩ | ⟨-, hgrown⟩
  · exact hgrown.clean hfits hfits' hclean
  · exact (hgrown.complete_line hfits hfits' hclean hline).1

/-- What a file device has accepted in the loop stands on a line of its own. -/
theorem line_of_accepted {path : String} {file : Nat} {other : EncodedRecord}
    (hmem : (path, file, other) ∈ acceptedFiles record (attemptAll record io 0 world slots).2) :
    path ∈ slots.filterMap Slot.path? ∧
      ∃ content, ((attemptAll record io 0 world slots).1.files path).contents[file]? = some content ∧
        other.line ∈ Lines.complete newline content := by
  obtain ⟨rfl, attempt, hattempt, log', hok, hdevice, rfl, rfl⟩ := mem_acceptedFiles hmem
  have hslot : attempt.slot = ⟨.file log', none⟩ := by
    obtain ⟨i, hi⟩ := List.mem_iff_getElem?.mp hattempt
    obtain ⟨slot, -, hof⟩ := attemptAll_slot other io slots 0 world hi
    have hnone : attempt.slot.quarantined = none := by
      rw [hof.quarantined]
      exact hof.asked.mp (by simp [hok])
    rw [← hdevice, ← hnone]
  obtain ⟨log, hold, hpath, hfits', hcase⟩ :=
    fileAttempt_of_writing other io hnodup (fun log hmem => (hwriting log hmem).1) hcut hattempt hslot
  obtain ⟨hfits, hclean⟩ := hwriting log hold
  rcases hcase with ⟨⟨error, herror⟩, -⟩ | ⟨-, hgrown⟩
  · rw [hok] at herror
    cases herror
  · rw [hpath]
    refine ⟨List.mem_filterMap.mpr ⟨_, hold, rfl⟩, _, ?_,
      (hgrown.complete_line hfits hfits' hclean hline).2⟩
    exact FileSystem.contents_getElem? _ (by have := hfits'.newest; omega)

end Call

namespace AuditLife

variable {codec : Codec} {config : Config} {s : AuditLife}

theorem LineInv.nodup (h : LineInv config s) (hnodup : config.filePaths.Nodup)
    {sink : AuditSink Device} (hsink : s.sink = some sink) :
    (sink.slots.filterMap Slot.path?).Nodup := by
  rw [filterMap_path? (h.paths sink hsink)]
  exact hnodup

/-- A call that returns: the files only grow, and what was accepted stands where it should. -/
theorem LineInv.called (h : LineInv config s) (hnodup : config.filePaths.Nodup)
    {sink : AuditSink Device} (hsink : s.sink = some sink) {record : EncodedRecord}
    (hline : newline ∉ record.line) {io : Nat → DeviceFault}
    (hcut : ∀ i, (io i).file.truncateFails = false) {s' : AuditLife} {sink' : AuditSink Device}
    (hsink' : s'.sink = some sink')
    (hworld : s'.world = (attemptAll record io 0 s.world sink.slots).1)
    (haccepted : ∀ x ∈ s'.accepted, x ∈ s.accepted ∨
      x ∈ acceptedFiles record (attemptAll record io 0 s.world sink.slots).2)
    (hpaths : sink'.slots.map Slot.path? =
      (attemptAll record io 0 s.world sink.slots).2.map (·.slot.path?))
    (hslots : ∀ log, ⟨.file log, none⟩ ∈ sink'.slots →
      ∃ attempt ∈ (attemptAll record io 0 s.world sink.slots).2, attempt.slot = ⟨.file log, none⟩) :
    LineInv config s' := by
  have hwriting := h.writing sink hsink
  have hattempt : ∀ path ∈ config.filePaths,
      FileAttempt record path sink.slots s.world (attemptAll record io 0 s.world sink.slots) := by
    intro path hpath
    obtain ⟨i, log, quarantined, hslot, rfl⟩ := slot_of_filePath (h.paths sink hsink) hpath
    exact fileAttempt record io (h.nodup hnodup hsink) (fun log hmem => (hwriting log hmem).1) hcut hslot
  refine ⟨?_, ?_, ?_, ?_⟩
  · intro path hpath
    rw [hworld]
    exact (hattempt path hpath).pathNewest (h.newest path hpath)
  · intro path file other hmem
    rcases haccepted _ hmem with hold | hnew
    · obtain ⟨hpath, hown⟩ := h.accepted path file other hold
      refine ⟨hpath, hown.mono ?_⟩
      rw [hworld]
      exact (hattempt path hpath).grown
    · obtain ⟨hpath, content, hcontent, hmem⟩ :=
        line_of_accepted (h.nodup hnodup hsink) hwriting hcut hline hnew
      rw [filterMap_path? (h.paths sink hsink)] at hpath
      refine ⟨hpath, content, ?_, hmem⟩
      rw [hworld]
      exact hcontent
  · intro other hother
    rw [hsink', Option.some.injEq] at hother
    rw [← hother, hpaths, attemptAll_paths]
    exact h.paths sink hsink
  · intro other hother log hmem
    rw [hsink', Option.some.injEq] at hother
    rw [← hother] at hmem
    obtain ⟨attempt, hattempt, hslot⟩ := hslots log hmem
    rw [hworld]
    exact clean_of_writing (h.nodup hnodup hsink) hwriting hcut hline hattempt hslot

theorem LineInv.recorded (h : LineInv config s) (hnodup : config.filePaths.Nodup)
    (hcodec : ∀ record text, codec.recordToString record = .ok text → newline ∉ bytesOf text)
    {sink : AuditSink Device} (hsink : s.sink = some sink) {entry : Entry} {nowMillis : Int}
    {io : Nat → DeviceFault} (hcut : ∀ i, (io i).file.truncateFails = false) :
    LineInv config (recorded codec s sink entry nowMillis io) := by
  have hlegible : ∀ {record}, sink.chain.encode codec entry nowMillis = .ok record →
      newline ∉ record.line := fun hencode => hcodec _ _ (Chain.encode_eq_ok hencode).2.2.2.2
  rcases recorded_cases codec s sink entry nowMillis io with
    heq | ⟨record, attempts, hencode, rfl, -, heq⟩ | ⟨record, attempts, hcommits, heq⟩
  · rw [heq, ← hsink]
    exact h
  · rw [heq]
    refine h.called hnodup hsink (hlegible hencode) hcut rfl rfl (fun x hx => .inl hx) ?_ ?_
    · rw [List.map_map]
      rfl
    · intro log hmem
      exact List.mem_map.mp hmem
  · rw [heq]
    have hattempts := hcommits.attempted
    subst hattempts
    refine h.called hnodup hsink (hlegible hcommits.encoded) hcut rfl rfl
      (fun x hx => List.mem_append.mp hx) ?_ ?_
    · rw [List.map_map]
      refine List.map_congr_left ?_
      intro attempt _
      exact afterCommit_path? _ _ _
    · intro log hmem
      obtain ⟨attempt, hattempt, hslot⟩ := List.mem_map.mp hmem
      exact ⟨attempt, hattempt, (afterCommit_eq_writing hattempt hslot).1⟩

/-- The files of a path that the interrupted device does not have are as the loop left them. -/
theorem interrupted_files_of_ne (world : AuditWorld) {slot : Option (Slot Device)}
    (record : EncodedRecord) (fault : DeviceFault) (count : Nat) {path : String}
    (h : ∀ log, slot = some ⟨.file log, none⟩ → log.path ≠ path) :
    (interrupted world slot record fault count).files path = world.files path := by
  unfold interrupted
  split
  · rename_i log
    exact AuditWorld.setFiles_files_of_ne world _ (h log rfl).symm
  · rfl

/-- A device that the loop has come past is not the interrupted one. -/
theorem crashed_files_of_mem {sink : AuditSink Device} (hslots : (sink.slots.filterMap Slot.path?).Nodup)
    (record : EncodedRecord) (io : Nat → DeviceFault) (slot count : Nat) {path : String}
    (hmem : path ∈ (sink.slots.take slot).filterMap Slot.path?) :
    (crashed s sink record io slot count).world.files path =
      (attemptAll record io 0 s.world (sink.slots.take slot)).1.files path := by
  obtain ⟨other, hother, hpath⟩ := List.mem_filterMap.mp hmem
  obtain ⟨i, hi⟩ := List.mem_iff_getElem?.mp hother
  have hlt : i < slot := by
    have := (List.getElem?_eq_some_iff.mp hi).1
    rw [List.length_take] at this
    omega
  rw [List.getElem?_take_of_lt hlt] at hi
  refine interrupted_files_of_ne _ record (io slot) count ?_
  intro log hlog heq
  have := index_eq_of_path hslots hi hlog hpath (congrArg some heq)
  omega

/-- A crash adds at most one part of a line to the files of a path. -/
theorem LineInv.crashed_files (h : LineInv config s) (hnodup : config.filePaths.Nodup)
    {sink : AuditSink Device} (hsink : s.sink = some sink) (record : EncodedRecord)
    {io : Nat → DeviceFault} (hcut : ∀ i, (io i).file.truncateFails = false) (slot count : Nat)
    {path : String} (hpath : path ∈ config.filePaths) :
    FileDevice.PathNewest ((crashed s sink record io slot count).world.files path) path ∧
      ((crashed s sink record io slot count).world.files path = s.world.files path ∨
        ∃ more, Grown more (s.world.files path).contents
          ((crashed s sink record io slot count).world.files path).contents) := by
  have hslots := h.nodup hnodup hsink
  have htaken : ((sink.slots.take slot).filterMap Slot.path?).Nodup :=
    ((List.take_sublist slot sink.slots).filterMap Slot.path?).nodup hslots
  obtain ⟨j, log, quarantined, hslot, rfl⟩ := slot_of_filePath (h.paths sink hsink) hpath
  by_cases hmem : log.path ∈ (sink.slots.take slot).filterMap Slot.path?
  · -- the loop has come past the device
    obtain ⟨⟨device, stopped⟩, hother, hsame⟩ := List.mem_filterMap.mp hmem
    obtain ⟨i, hi⟩ := List.mem_iff_getElem?.mp hother
    rw [crashed_files_of_mem hslots record io slot count hmem]
    cases device with
    | sqlite table => cases hsame
    | file other =>
        have hattempt := fileAttempt record io htaken
          (fun log hlog => (h.writing sink hsink log (List.mem_of_mem_take hlog)).1) hcut hi
        rw [show other.path = log.path from Option.some.inj hsame] at hattempt
        exact ⟨hattempt.pathNewest (h.newest log.path hpath), hattempt.grown⟩
  · have hloop := attemptAll_files_of_not_mem record io (sink.slots.take slot) 0 s.world hmem
    by_cases hwritten : sink.slots[slot]? = some ⟨.file log, none⟩
    · -- the device is the one that was being written to
      have hfits := (h.writing sink hsink log (List.mem_of_getElem? hwritten)).1
      have hfiles : (crashed s sink record io slot count).world.files log.path =
          FileDevice.crashedWrite (s.world.files log.path) log record (io slot).file count := by
        unfold crashed interrupted
        dsimp only
        rw [hwritten]
        dsimp only
        rw [AuditWorld.setFiles_files_self, hloop]
      obtain ⟨hnewest, part, -, hgrown⟩ := FileDevice.crashedWrite_spec hfits record (io slot).file count
      rw [hfiles]
      exact ⟨hnewest, .inr ⟨part, hgrown⟩⟩
    · have hother : ∀ other, sink.slots[slot]? = some ⟨.file other, none⟩ → other.path ≠ log.path := by
        intro other hother heq
        have hsame := index_eq_of_path hslots hslot hother rfl (congrArg some heq)
        rw [← hsame] at hother hwritten
        rw [hslot] at hother hwritten
        cases hother
        exact hwritten rfl
      have hfiles : (crashed s sink record io slot count).world.files log.path = s.world.files log.path :=
        (interrupted_files_of_ne _ record (io slot) count hother).trans hloop
      rw [hfiles]
      exact ⟨h.newest log.path hpath, .inl rfl⟩

theorem LineInv.crashed (h : LineInv config s) (hnodup : config.filePaths.Nodup)
    {sink : AuditSink Device} (hsink : s.sink = some sink) {record : EncodedRecord}
    (hline : newline ∉ record.line) {io : Nat → DeviceFault}
    (hcut : ∀ i, (io i).file.truncateFails = false) (slot count : Nat) :
    LineInv config (crashed s sink record io slot count) := by
  have hslots := h.nodup hnodup hsink
  have htaken : ((sink.slots.take slot).filterMap Slot.path?).Nodup :=
    ((List.take_sublist slot sink.slots).filterMap Slot.path?).nodup hslots
  refine ⟨?_, ?_, ?_, ?_⟩
  · intro path hpath
    exact (h.crashed_files hnodup hsink record hcut slot count hpath).1
  · intro path file other hmem
    rcases List.mem_append.mp hmem with hold | hnew
    · obtain ⟨hpath, hown⟩ := h.accepted path file other hold
      exact ⟨hpath, hown.mono (h.crashed_files hnodup hsink record hcut slot count hpath).2⟩
    · obtain ⟨hpath, content, hcontent, hmem⟩ := line_of_accepted htaken
        (fun log hlog => h.writing sink hsink log (List.mem_of_mem_take hlog)) hcut hline hnew
      refine ⟨?_, content, ?_, hmem⟩
      · rw [← filterMap_path? (h.paths sink hsink)]
        exact ((List.take_sublist slot sink.slots).filterMap Slot.path?).subset hpath
      · rw [crashed_files_of_mem hslots record io slot count hpath]
        exact hcontent
  · intro other hother
    cases hother
  · intro other hother
    cases hother

theorem LineInv.restarted (h : LineInv config s) (hnodup : config.filePaths.Nodup)
    {opening reading : Nat → DeviceFault}
    (hseen : FragmentsSeen codec config s (.restart opening reading)) :
    LineInv config (restarted codec config AuditLife.storeChain s opening reading) := by
  have hfiles : ∀ path ∈ config.filePaths,
      FileDevice.PathNewest
          ((AuditLife.restarted codec config AuditLife.storeChain s opening reading).world.files path) path ∧
        ((AuditLife.restarted codec config AuditLife.storeChain s opening reading).world.files path =
            s.world.files path ∨
          Grown [] (s.world.files path).contents
            ((AuditLife.restarted codec config AuditLife.storeChain s opening reading).world.files
              path).contents) :=
    fun path hpath => openDevices_files config s.world opening hnodup hpath (h.newest path hpath)
  refine ⟨fun path hpath => (hfiles path hpath).1, ?_, ?_, ?_⟩
  · intro path file record hmem
    obtain ⟨hpath, hown⟩ := h.accepted path file record hmem
    refine ⟨hpath, hown.mono ?_⟩
    rcases (hfiles path hpath).2 with hsame | hgrown
    · exact .inl hsame
    · exact .inr ⟨[], hgrown⟩
  · intro sink hsink
    exact (restarted_file hnodup hsink).1
  · intro sink hsink log hmem
    obtain ⟨i, size, rotateAt, fault, hstanza, hopen, hstart⟩ := (restarted_file hnodup hsink).2 log hmem
    have hpath : log.path ∈ config.filePaths :=
      List.mem_filterMap.mpr ⟨_, List.mem_of_getElem? hstanza, rfl⟩
    obtain ⟨devices, chain, -, hchain, hnew⟩ := restarted_sink hsink
    rw [(AuditSink.new_eq_ok hnew).1] at hstart
    rcases FileDevice.opened_spec (h.newest log.path hpath) rotateAt fault with
      ⟨error, heq⟩ | ⟨volume, device, heq, hfits, -, hentry, -, hread⟩
    · rw [hopen] at heq
      cases (Prod.mk.inj heq).2
    · rw [hopen] at heq
      obtain ⟨rfl, hdevice⟩ := Prod.mk.inj heq
      cases hdevice
      refine ⟨hfits, ?_⟩
      -- what the path leads to is the file behind the handle
      rw [FileSystem.read, hentry, Option.map_some] at hread
      rcases hread with hread | ⟨-, hread⟩
      · rcases hseen chain hchain i log.path size hstanza _ hread.symm with
          hclean | ⟨hfault, text, seq, hlast, hseq, hne⟩
        · exact hclean
        · by_contra hclean
          have htext := last_ne_nil_of_not_clean hclean
          rw [hlast] at htext
          refine hne (eq_head_of_startSlot hstart ?_)
          refine FileDevice.headSeq_of_last hfault ?_ hlast htext hseq
          rw [FileSystem.read, hentry, Option.map_some]
      · rw [Option.some.inj hread]
        exact .inl rfl

theorem LineInv.step (h : LineInv config s) (hnodup : config.filePaths.Nodup)
    (hcodec : ∀ record text, codec.recordToString record = .ok text → newline ∉ bytesOf text)
    {event : AuditEvent} {s' : AuditLife} (hseen : FragmentsSeen codec config s event)
    (hstep : AuditLife.step codec config AuditLife.storeChain s event = some s') : LineInv config s' := by
  cases event with
  | record entry nowMillis io =>
      obtain ⟨sink, hsink, rfl⟩ := Option.map_eq_some_iff.mp hstep
      exact h.recorded hnodup hcodec hsink hseen
  | crash entry nowMillis io slot count =>
      obtain ⟨sink, record, hsink, hencode, rfl⟩ := step_crash hstep
      exact h.crashed hnodup hsink (hcodec _ _ (Chain.encode_eq_ok hencode).2.2.2.2) hseen slot count
  | restart opening reading =>
      cases hstep
      exact h.restarted hnodup hseen

theorem lineInv_noFiles (h : NoFiles s ∧ s.accepted = []) : LineInv config s := by
  obtain ⟨⟨hfiles, hsink, -⟩, haccepted⟩ := h
  refine ⟨?_, ?_, ?_, ?_⟩
  · intro path _ i hi
    rw [hfiles] at hi
    cases hi
  · rw [haccepted]
    intro path file record hmem
    cases hmem
  · rw [hsink]
    intro sink h
    cases h
  · rw [hsink]
    intro sink h
    cases h

/-- In every run in which at each restart a live file ends with a newline, or with a record that is
not the head, every record that a file device has accepted stands on a line of its own. -/
theorem accepted_on_own_line (codec : Codec)
    (hcodec : ∀ record text, codec.recordToString record = .ok text → newline ∉ bytesOf text)
    (config : Config) (hnodup : config.filePaths.Nodup) (s : AuditLife)
    (h : Transition.Reachable (fun s => NoFiles s ∧ s.accepted = [])
      (AuditLife.step codec config AuditLife.storeChain) (FragmentsSeen codec config) s)
    (path : String) (file : Nat) (record : EncodedRecord) (hmem : (path, file, record) ∈ s.accepted) :
    s.OnOwnLine path file record := by
  have hinv : LineInv config s :=
    h.invariant (fun _ hs => lineInv_noFiles hs)
      (fun _ _ _ hs hseen hstep => hs.step hnodup hcodec hseen hstep)
  exact (hinv.accepted path file record hmem).2

end AuditLife

/-! ### A fragment that is taken for nothing -/

namespace Sample

/-- The server crashes when the database has the second record and the file its first eight bytes. -/
def tornSecondRecord : List AuditEvent :=
  [.restart noFaults noFaults, .record entry millis noFaults, .crash entry millis noFaults 1 8,
    .restart noFaults noFaults, .record entry millis noFaults]

theorem third_record_behind_fragment :
    storeAndFileConfig.validate = .ok () ∧
      ∃ s, Transition.run (AuditLife.step codec storeAndFileConfig AuditLife.storeChain) start
          tornSecondRecord = some s ∧
        ∃ path file record, (path, file, record) ∈ s.accepted ∧ ¬ s.OnOwnLine path file record := by
  refine ⟨by decide +kernel, ?_⟩
  have hrun : (Transition.run (AuditLife.step codec storeAndFileConfig AuditLife.storeChain) start
      tornSecondRecord).any (fun s => s.accepted.any fun x =>
        ((s.world.files x.1).contents[x.2.1]?).all fun content =>
          x.2.2.line ∉ Lines.complete newline content) = true := by
    decide +kernel
  obtain ⟨s, hs, hany⟩ := Option.any_eq_true _ _ |>.mp hrun
  obtain ⟨⟨path, file, record⟩, hmem, hall⟩ := List.any_eq_true.mp hany
  refine ⟨s, hs, path, file, record, hmem, ?_⟩
  rintro ⟨content, hcontent, hline⟩
  dsimp only at hall
  rw [hcontent, Option.all_some, decide_eq_true_eq] at hall
  exact hall hline

def fileFirstConfig : Config := ⟨"/var/lib/ciphr/store.db", [.file logPath none, .sqlite], [], []⟩

/-- The server crashes when the file has the second record without its newline and the database has
not been asked. -/
def unfinishedSecondRecord : List AuditEvent :=
  [.restart noFaults noFaults, .record entry millis noFaults, .crash entry millis noFaults 0 391,
    .restart noFaults noFaults, .record entry millis noFaults]

theorem accepted_on_own_line_after_crash :
    ∃ s, Transition.run (AuditLife.step codec fileFirstConfig AuditLife.storeChain) start
        unfinishedSecondRecord = some s ∧ s.committed.length = 2 ∧
      ∃ file record, (logPath, file, record) ∈ s.accepted ∧ s.OnOwnLine logPath file record := by
  have hrun : (Transition.run (AuditLife.step codec fileFirstConfig AuditLife.storeChain) start
      unfinishedSecondRecord).any (fun s => s.committed.length = 2 &&
        s.accepted.any (·.1 = logPath)) = true := by
    decide +kernel
  obtain ⟨s, hs, hpair⟩ := Option.any_eq_true _ _ |>.mp hrun
  rw [Bool.and_eq_true, decide_eq_true_eq] at hpair
  obtain ⟨⟨path, file, record⟩, hmem, hpath⟩ := List.any_eq_true.mp hpair.2
  obtain rfl : path = logPath := by simpa using hpath
  have hfragment : (Transition.run (AuditLife.step codec fileFirstConfig AuditLife.storeChain) start
      (unfinishedSecondRecord.take 3)).all (fun t =>
        t.storeChain.toOption.all (fun chain => 2 ≠ chain.nextSeq - 1) &&
          ((t.world.files logPath).read logPath).all fun content =>
            Lines.last newline content = bytesOf payload2) = true := by
    decide +kernel
  have hreachable : Transition.Reachable (fun s => AuditLife.NoFiles s ∧ s.accepted = [])
      (AuditLife.step codec fileFirstConfig AuditLife.storeChain)
      (AuditLife.FragmentsSeen codec fileFirstConfig) s := by
    refine Transition.reachable_of_steps unfinishedSecondRecord
      (.start ⟨⟨fun _ => rfl, rfl, rfl⟩, rfl⟩) ?_ hs
    intro k event t hevent hreached
    have hk : k < 5 := (List.getElem?_eq_some_iff.mp hevent).1
    rcases (by omega : k = 0 ∨ k = 1 ∨ k = 2 ∨ k = 3 ∨ k = 4) with rfl | rfl | rfl | rfl | rfl
    · obtain rfl := Option.some.inj hevent
      obtain rfl := Option.some.inj hreached
      intro chain _ i path size _ content hcontent
      cases hcontent
    · obtain rfl := Option.some.inj hevent
      exact noFaults_cut
    · obtain rfl := Option.some.inj hevent
      exact noFaults_cut
    · obtain rfl := Option.some.inj hevent
      intro chain hchain i path size hstanza content hcontent
      have hpath : path = logPath := by
        have hmem : path ∈ fileFirstConfig.filePaths :=
          List.mem_filterMap.mpr ⟨_, List.mem_of_getElem? hstanza, rfl⟩
        exact List.mem_singleton.mp hmem
      rw [hpath] at hcontent
      rw [hreached, Option.all_some, hchain, hcontent] at hfragment
      simp only [Except.toOption, Option.all_some, Bool.and_eq_true, decide_eq_true_eq] at hfragment
      exact .inr ⟨rfl, payload2, 2, hfragment.2, by decide +kernel, hfragment.1⟩
    · obtain rfl := Option.some.inj hevent
      exact noFaults_cut
  exact ⟨s, hs, hpair.1, file, record, hmem,
    AuditLife.accepted_on_own_line codec codec_writesLines.one_line fileFirstConfig (by decide +kernel) s
      hreachable logPath file record hmem⟩

end Sample

end Ciphr
