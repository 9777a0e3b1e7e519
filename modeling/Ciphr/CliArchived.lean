import Ciphr.AuditCoverage
import Ciphr.CliTrailRuns

/-!
`require_archived` in `ciphr-cli/src/main.rs`, and what it guards: a cut with `--archive` removes from
the table only records whose payloads are lines of the archive that was read, whatever the service and
other commands do in the meantime.
-/

namespace Ciphr

/-- `cut_refused`. -/
def cutRefused (detail : String) : CliError := .store (.cutRefused detail)

/-- Either the archive is read, or the command line has `--assume-archived`: `clap` requires one of the
two. -/
def requireArchived (codec : Codec) (place : Surroundings)
    (read : SetFile → Except String (List UInt8)) (archive : Option String)
    (removing : List StoredRecord) : Except CliError Unit :=
  match archive with
  | none => .ok ()
  | some path => do
      let files ← (rotationSet place).mapError .io
      let coverage ← (coverageOf codec read files removing).mapError .io
      if coverage.isComplete then .ok ()
      else
        let shown := (coverage.missing.take 5).map toString
        .error (cutRefused (toString coverage.missing.length ++ " of the " ++
          toString removing.length ++ " entries to be removed are not in the archive at " ++ path ++
          " (" ++ toString coverage.files ++ " file(s), " ++ toString coverage.lines ++
          " lines read); the first missing sequence numbers are " ++ ", ".intercalate shown ++
          ". Cutting would destroy them. Point --archive at the file device's file, decompress " ++
          "rotated files it cannot read, or pass --assume-archived if the lines are shipped off " ++
          "this host as they are written."))

/-- The text is a line that one of these files is read as. -/
def ReadsLine (read : SetFile → Except String (List UInt8)) (files : List SetFile) (line : String) :
    Prop :=
  ∃ file ∈ files, ∃ bytes, read file = .ok bytes ∧ .ok line ∈ archiveLines bytes

section Sound

variable {codec : Codec}

/-- What is no longer outstanding after a file was one of its lines. -/
theorem coverLines_sound {lines : List (Except String String)} {state state' : Outstanding × Nat}
    (h : coverLines codec lines state = .ok state') {entry : Hash × Nat} (hentry : entry ∈ state.1) :
    entry ∈ state'.1 ∨ ∃ line, .ok line ∈ lines ∧ codec.hashPayload line = entry.1 := by
  induction lines generalizing state with
  | nil =>
      cases h
      exact .inl hentry
  | cons first lines ih =>
      obtain ⟨outstanding, count⟩ := state
      cases first with
      | error error => cases h
      | ok line =>
          have hlater : (entry ∈ state'.1 ∨ ∃ line, .ok line ∈ lines ∧
              codec.hashPayload line = entry.1) → entry ∈ state'.1 ∨
              ∃ other, .ok other ∈ Except.ok line :: lines ∧ codec.hashPayload other = entry.1 := by
            rintro (hstays | ⟨other, hother, hhash⟩)
            · exact .inl hstays
            · exact .inr ⟨other, List.mem_cons_of_mem _ hother, hhash⟩
          unfold coverLines at h
          split at h
          · exact hlater (ih h hentry)
          · by_cases hhash : codec.hashPayload line = entry.1
            · exact .inr ⟨line, List.mem_cons_self, hhash⟩
            · have hkept : entry ∈ outstanding.filter (·.1 ≠ codec.hashPayload line) := by
                rw [List.mem_filter, decide_eq_true_eq]
                exact ⟨hentry, Ne.symm hhash⟩
              dsimp only at h
              split at h
              · cases h
                exact .inl hkept
              · exact hlater (ih h hkept)

theorem foldlM_coverLines_sound {read : SetFile → Except String (List UInt8)} {files : List SetFile}
    {state state' : Outstanding × Nat}
    (h : files.foldlM (fun state file => do
      let bytes ← read file
      coverLines codec (archiveLines bytes) state) state = .ok state')
    {entry : Hash × Nat} (hentry : entry ∈ state.1) :
    entry ∈ state'.1 ∨ ∃ line, ReadsLine read files line ∧ codec.hashPayload line = entry.1 := by
  induction files generalizing state with
  | nil =>
      cases h
      exact .inl hentry
  | cons file files ih =>
      obtain ⟨mid, hmid, hrest⟩ := Loop.foldlM_cons_eq_ok h
      obtain ⟨bytes, hbytes, hlines⟩ := Loop.bind_eq_ok hmid
      rcases coverLines_sound hlines hentry with hstays | ⟨line, hline, hhash⟩
      · rcases ih hrest hstays with hend | ⟨line, ⟨other, hother, hread⟩, hhash⟩
        · exact .inl hend
        · exact .inr ⟨line, ⟨other, List.mem_cons_of_mem file hother, hread⟩, hhash⟩
      · exact .inr ⟨line, ⟨file, List.mem_cons_self, bytes, hbytes, hline⟩, hhash⟩

/-- Every record asked about is outstanding at first, under its hash. -/
theorem mem_outstandingOf {wanted : List StoredRecord} {record : StoredRecord}
    (hrecord : record ∈ wanted) :
    ∃ entry ∈ outstandingOf codec wanted, entry.1 = codec.hashPayload record.payload := by
  have hfold : ∀ (more : List StoredRecord) (outstanding : Outstanding) (hash : Hash),
      ((∃ entry ∈ outstanding, entry.1 = hash) ∨
        ∃ record ∈ more, codec.hashPayload record.payload = hash) →
      ∃ entry ∈ more.foldl (fun outstanding record =>
        let hash := codec.hashPayload record.payload
        outstanding.filter (·.1 ≠ hash) ++ [(hash, record.seq)]) outstanding, entry.1 = hash := by
    intro more
    induction more with
    | nil =>
        rintro outstanding hash (hentry | ⟨record, hrecord, -⟩)
        · exact hentry
        · cases hrecord
    | cons first more ih =>
        intro outstanding hash hsome
        apply ih
        by_cases hhash : codec.hashPayload first.payload = hash
        · exact .inl ⟨_, List.mem_append_right _ List.mem_cons_self, hhash⟩
        · rcases hsome with ⟨entry, hentry, rfl⟩ | ⟨record, hrecord, rfl⟩
          · refine .inl ⟨entry, List.mem_append_left _ ?_, rfl⟩
            rw [List.mem_filter, decide_eq_true_eq]
            exact ⟨hentry, Ne.symm hhash⟩
          · rcases List.mem_cons.mp hrecord with rfl | hmore
            · exact absurd rfl hhash
            · exact .inr ⟨record, hmore, rfl⟩
  exact hfold wanted [] _ (.inr ⟨record, hrecord, rfl⟩)

/-- The check lets a cut through where nothing is missing. -/
theorem requireArchived_of_isComplete {place : Surroundings}
    {read : SetFile → Except String (List UInt8)} {path : String} {removing : List StoredRecord}
    {files : List SetFile} {coverage : Coverage} (hfiles : rotationSet place = .ok files)
    (hcoverage : coverageOf codec read files removing = .ok coverage)
    (hcomplete : coverage.isComplete = true) :
    requireArchived codec place read (some path) removing = .ok () := by
  unfold requireArchived
  dsimp only
  rw [hfiles]
  dsimp only [Except.mapError, bind, Except.bind]
  rw [hcoverage]
  dsimp only
  rw [if_pos hcomplete]

/-- Where the check lets a cut through, every record to be removed has the hash of a line. -/
theorem requireArchived_sound {place : Surroundings}
    {read : SetFile → Except String (List UInt8)} {path : String} {removing : List StoredRecord}
    (h : requireArchived codec place read (some path) removing = .ok ()) :
    ∃ files, rotationSet place = .ok files ∧ ∀ record ∈ removing,
      ∃ line, ReadsLine read files line ∧
        codec.hashPayload line = codec.hashPayload record.payload := by
  obtain ⟨files, hfiles, h⟩ := Loop.bind_eq_ok h
  obtain ⟨coverage, hcoverage, h⟩ := Loop.bind_eq_ok h
  refine ⟨files, Loop.mapError_eq_ok hfiles, ?_⟩
  intro record hrecord
  split at h
  · rename_i hcomplete
    have hcoverage := Loop.mapError_eq_ok hcoverage
    obtain ⟨state, hstate, hend⟩ := Loop.bind_eq_ok hcoverage
    cases hend
    unfold Coverage.isComplete at hcomplete
    have hnil : state.1 = [] := by
      rw [List.isEmpty_iff] at hcomplete
      have hlength := congrArg List.length hcomplete
      rw [List.length_mergeSort, List.length_map] at hlength
      exact List.length_eq_zero_iff.mp hlength
    obtain ⟨entry, hentry, hhash⟩ := @mem_outstandingOf codec _ _ hrecord
    rcases foldlM_coverLines_sound hstate hentry with hleft | ⟨line, hline, hsame⟩
    · rw [hnil] at hleft
      cases hleft
    · exact ⟨line, hline, hsame.trans hhash⟩
  · cases h

end Sound

/-! ### A cut -/

/-- The text is a line that is read of one of the files around the path. -/
def ArchiveLine (place : Surroundings) (read : SetFile → Except String (List UInt8)) (line : String) :
    Prop :=
  ∃ files, rotationSet place = .ok files ∧ ReadsLine read files line

/-- A query has read these rows, when `k` records had been cut off. -/
def TrailWorld.Read (w : TrailWorld) (rows : AuditRows) : Prop :=
  ∃ k, k ≤ w.cut ∧ ∀ (j : Nat) row, rows.toList[j]? = some row → row.seq = k + j + 1 ∧
    ∃ record, w.records[k + j]? = some record ∧ record.payload = row.payload

/-- A command removes only records whose payloads are archived, as far as the reply to its check is
that they are. -/
def archiveContract (archived : String → Prop) :
    Script.Contract TrailWorld TrailCall TrailCall.Reply where
  requires
    | .cut throughSeq _ _ _, w => ∀ (i : Nat) record, w.cut ≤ i → i < throughSeq →
        w.records[i]? = some record → archived record.payload
    | _, _ => True
  answers
    | .auditAll, reply, w => ∀ rows : AuditRows, reply = .ok rows → w.Read rows
    | .requireArchived removing, reply, _ =>
        reply = .ok () → ∀ record ∈ removing, archived record.payload
    | _, _, _ => True

namespace TrailWorld

variable {codec : Codec} {archived : String → Prop} {w w' : TrailWorld} {rows : AuditRows}

theorem Read.mono (h : w.Read rows) (hw : w ≤ w') : w'.Read rows := by
  obtain ⟨k, hk, hrows⟩ := h
  refine ⟨k, hk.trans hw.2, ?_⟩
  intro j row hrow
  obtain ⟨hseq, record, hrecord, hpayload⟩ := hrows j row hrow
  obtain ⟨more, hmore⟩ := hw.1
  have hlt := (List.getElem?_eq_some_iff.mp hrecord).1
  refine ⟨hseq, record, ?_, hpayload⟩
  rw [← hmore, List.getElem?_append_left hlt]
  exact hrecord

/-- What a cut through the head of the first rows removes is among these rows. -/
theorem Read.payload_archived {removing : Nat} {start : Start} {verified : Verified} (h : w.Read rows)
    (hpos : 0 < removing) (hle : removing ≤ rows.toList.length)
    (hverified : codec.verifyFrom start (rows.storedRecords.toList.take removing) = .ok verified)
    (harchived : ∀ record ∈ rows.storedRecords.toList.take removing, archived record.payload)
    {i : Nat} {record : EncodedRecord} (hcut : w.cut ≤ i) (hthrough : i < verified.headSeq)
    (hrecord : w.records[i]? = some record) : archived record.payload := by
  obtain ⟨k, hk, hrows⟩ := h
  have hstored : ∀ (j : Nat) row, rows.toList[j]? = some row →
      rows.storedRecords.toList[j]? = some row.asStored := by
    intro j row hrow
    unfold AuditRows.storedRecords
    dsimp only
    rw [List.getElem?_map, hrow]
    rfl
  obtain ⟨n, rfl⟩ : ∃ n, removing = n + 1 := ⟨removing - 1, by omega⟩
  -- the cut ends at the last of the rows
  have hlast := List.getElem?_eq_getElem (show n < rows.toList.length by omega)
  have hhead : verified.headSeq = k + n + 1 := by
    rw [List.take_add_one, hstored n _ hlast, Option.toList_some] at hverified
    rw [(Codec.verifyFrom_head hverified).1]
    exact (hrows n _ hlast).1
  have hrow := List.getElem?_eq_getElem (show i - k < rows.toList.length by omega)
  obtain ⟨-, found, hfound, hpayload⟩ := hrows (i - k) _ hrow
  have hindex : k + (i - k) = i := by omega
  rw [hindex, hrecord, Option.some.injEq] at hfound
  rw [hfound, hpayload]
  apply harchived (Database.Row.asStored _)
  apply List.mem_of_getElem? (i := i - k)
  rw [List.getElem?_take, if_pos (by omega)]
  exact hstored (i - k) _ hrow

end TrailWorld

section Commands

open Script

variable {codec : Codec} {json : AnchorJson} {archived : String → Prop} {w : TrailWorld}

theorem appendAnchor_archives (anchor : Anchor) :
    (appendAnchor json anchor).Keeps (archiveContract archived) (fun _ _ => True) w := by
  unfold appendAnchor
  refine keeps_ask_bind (fun _ => trivial) fun _ _ _ => ?_
  refine keeps_ask_bind (fun _ => trivial) fun _ _ _ => ?_
  exact keeps_ask_bind (fun _ => trivial) fun _ _ _ => keeps_pure trivial

theorem auditAll_archives :
    (ask .auditAll (·.mapError .store) : Command AuditRows).Keeps (archiveContract archived)
      (fun rows w => w.Read rows) w := by
  refine keeps_ask (fun _ _ => trivial) ?_
  intro reply w' rows _ hanswers hreply
  exact hanswers rows (Loop.mapError_eq_ok hreply)

theorem requireArchived_archives (removing : List StoredRecord) :
    (ask (.requireArchived removing) id : Command Unit).Keeps (archiveContract archived)
      (fun _ _ => ∀ record ∈ removing, archived record.payload) w := by
  refine keeps_ask (fun _ _ => trivial) ?_
  intro reply w' _ _ hanswers hreply
  exact hanswers hreply

theorem cutTrail_archives (args : CutArgs) :
    (cutTrail codec json args).Keeps (archiveContract archived) (fun _ _ => True) w := by
  unfold cutTrail
  refine keeps_ask_bind (fun _ => trivial) fun _ _ _ => ?_
  refine keeps_ask_bind (fun _ => trivial) fun _ _ _ => ?_
  refine auditAll_archives.bind fun rows w₁ _ hrows => ?_
  refine keeps_ask_bind (fun _ => trivial) fun start w₂ h₂ => ?_
  refine keeps_ask_bind (fun _ => trivial) fun text w₃ h₃ => ?_
  refine keeps_ofExcept_bind fun previous _ => ?_
  refine keeps_ofExcept_bind fun _ _ => ?_
  split
  · exact keeps_pure trivial
  · rename_i hmore
    refine keeps_ofExcept_bind fun verified hverified => ?_
    refine keeps_ask_bind (fun _ => trivial) fun now w₄ h₄ => ?_
    refine (requireArchived_archives _).bind fun _ w₅ h₅ harchived => ?_
    split
    · exact keeps_pure trivial
    · refine (appendAnchor_archives _).bind fun _ w₆ h₆ _ => ?_
      refine keeps_ask_bind (fun _ => trivial) fun _ w₇ h₇ => ?_
      refine keeps_ask_bind (fun _ => trivial) fun now w₈ h₈ => ?_
      refine (keeps_ask ?_ fun _ _ _ _ _ _ => trivial : Keeps _ _ (fun _ _ => True) w₈).bind
        fun cut w₉ _ _ => ?_
      · intro w' h' i record hcut hthrough hrecord
        have hlater : w₁ ≤ w' :=
          h₂.trans (h₃.trans (h₄.trans (h₅.trans (h₆.trans (h₇.trans (h₈.trans h'))))))
        exact (hrows.mono hlater).payload_archived (by omega) (Nat.sub_le _ _)
          (Loop.mapError_eq_ok hverified) harchived hcut hthrough hrecord
      · refine keeps_ofExcept_bind fun remainder _ => ?_
        refine keeps_ask_bind (fun _ => trivial) fun now w₁₀ _ => ?_
        exact (appendAnchor_archives _).bind fun _ _ _ _ => keeps_pure trivial

end Commands

section Runs

variable {codec : Codec} {json : AnchorJson} {config : Config} {archived : String → Prop}

theorem Database.TrailOf.read {db : Database} {records : List EncodedRecord} {k : Nat}
    (h : db.TrailOf codec records k) {rows : AuditRows}
    (hrows : rows.toList = TrailOf.rowsOf records k) : TrailWorld.Read ⟨records, k⟩ rows := by
  refine ⟨k, le_rfl, ?_⟩
  intro j row hrow
  rw [hrows] at hrow
  refine ⟨h.rowsOf_seq hrow, ?_⟩
  unfold TrailOf.rowsOf at hrow
  obtain ⟨record, hrecord, rfl⟩ := Option.map_eq_some_iff.mp (List.getElem?_map ▸ hrow)
  rw [List.getElem?_take] at hrecord
  split at hrecord
  · rw [List.getElem?_drop] at hrecord
    exact ⟨record, hrecord, rfl⟩
  · cases hrecord

/-- A call on a trail, whose check is answered as the contract says. -/
theorem answer_archives {s : AnchoredTrail} {w : TrailWorld}
    (h : s.trail.Inv codec w.records w.cut) (outside : TrailOutside) (c : TrailCall)
    (hcheck : ∀ removing, c = .requireArchived removing → outside.archived = .ok () →
      ∀ record ∈ removing, archived record.payload) :
    ∃ w', w ≤ w' ∧ (s.answer outside c).1.trail.Inv codec w'.records w'.cut ∧
      (archiveContract archived).answers c (s.answer outside c).2 w' := by
  cases c with
  | openReadOnly => exact ⟨w, le_rfl, h, trivial⟩
  | requireCutTable => exact ⟨w, le_rfl, h, trivial⟩
  | auditStart => exact ⟨w, le_rfl, h, trivial⟩
  | readToString => exact ⟨w, le_rfl, h, trivial⟩
  | nowMillis => exact ⟨w, le_rfl, h, trivial⟩
  | syncAll => exact ⟨w, le_rfl, h, trivial⟩
  | openDevice => exact ⟨w, le_rfl, h, trivial⟩
  | requireArchived removing => exact ⟨w, le_rfl, h, hcheck removing rfl⟩
  | auditAll =>
      refine ⟨w, le_rfl, h, ?_⟩
      intro rows hreply
      obtain ⟨found, hfound, hlist⟩ := AnchoredTrail.readRows_eq h.trail
      have hread : AnchoredTrail.query (outside.fault 0) (AnchoredTrail.readRows s.trail.db) =
          .ok rows := hreply
      unfold AnchoredTrail.query at hread
      split at hread
      · cases hread
      · rw [hfound, Except.ok.injEq] at hread
        rw [hread] at hlist
        exact h.trail.read hlist
  | openAppend =>
      refine ⟨w, le_rfl, ?_, trivial⟩
      unfold AnchoredTrail.answer
      dsimp only
      split
      · exact h
      · exact h
  | writeLine line =>
      refine ⟨w, le_rfl, ?_, trivial⟩
      unfold AnchoredTrail.answer
      dsimp only
      split
      · exact h
      · exact h
  | cut throughSeq throughHash nowMillis path =>
      unfold AnchoredTrail.answer
      dsimp only
      rcases h.cut throughSeq throughHash nowMillis path outside.fault with
        ⟨error, heq⟩ | ⟨hlt, cut, -, heq, hinv⟩
      · rw [heq]
        exact ⟨w, le_rfl, h, trivial⟩
      · rw [heq]
        exact ⟨⟨w.records, throughSeq⟩, ⟨List.prefix_rfl, hlt.le⟩, hinv, trivial⟩

/-- `ciphr audit cut` has just been started, beside the service and whatever other commands there
are. -/
def CutStarted (codec : Codec) (json : AnchorJson) (config : Config) (s : AnchoredRun × Nat) : Prop :=
  ∃ before args, Transition.Reachable AnchoredRun.Fresh (anchoredMachine codec json config).step
      (fun _ _ => True) before ∧
    (anchoredMachine codec json config).step before (.start (.cut args)) = some s.1 ∧
    s.2 = before.scripts.length

/-- The command that is watched is given this archive, and SHA-256 is injective on the lines of it and
the payloads of the records to be removed. -/
def ChecksArchive (codec : Codec) (place : Surroundings)
    (read : SetFile → Except String (List UInt8)) (path : String) (s : AnchoredRun × Nat)
    (event : Script.Happens AuditEvent TrailOutside TrailArgs) : Prop :=
  ∀ outside removing, event = .advance s.2 outside →
    s.1.nextCall s.2 = some (.requireArchived removing) →
    outside.archived = requireArchived codec place read (some path) removing ∧
      Set.InjOn codec.hashPayload
        {text | (∃ record ∈ removing, record.payload = text) ∨ ArchiveLine place read text}

variable {place : Surroundings} {read : SetFile → Except String (List UInt8)} {path : String}

/-- The trail before the cut is started, whatever has happened to it. -/
theorem kept_of_reachable (hcodec : codec.ReadsBack) {s : AnchoredRun}
    (hs : Transition.Reachable AnchoredRun.Fresh (anchoredMachine codec json config).step
      (fun _ _ => True) s) : s.shared.trail.Kept codec := by
  refine Script.Machine.shared_invariant (fun shared => shared.trail.Kept codec) ?_ ?_ ?_ hs
  · intro s hfresh
    exact ⟨[], 0, Trail.inv_fresh hfresh.1⟩
  · rintro shared event shared' ⟨records, k, h⟩ hserve
    obtain ⟨trail, htrail, rfl⟩ := Option.map_eq_some_iff.mp hserve
    obtain ⟨records', -, hinv⟩ := h.service hcodec htrail
    exact ⟨records', k, hinv⟩
  · rintro shared outside c ⟨records, k, h⟩
    obtain ⟨w, -, hinv, -⟩ :=
      @answer_archives codec (fun _ => True) shared ⟨records, k⟩ h outside c fun _ _ _ _ _ => trivial
    exact ⟨w.records, w.cut, hinv⟩

theorem watched_of_reachable (hcodec : codec.ReadsBack) {s : AnchoredRun × Nat}
    (hs : Transition.Reachable (CutStarted codec json config)
      (anchoredMachine codec json config).watch (ChecksArchive codec place read path) s) :
    Script.Running.Watched (archiveContract (ArchiveLine place read))
      (fun shared w => shared.trail.Inv codec w.records w.cut) s := by
  refine Script.Machine.watched ?_ ?_ ?_ ?_ hs
  · rintro ⟨s, i⟩ ⟨before, args, hbefore, hstart, hi⟩
    obtain ⟨records, k, hw⟩ := kept_of_reachable hcodec hbefore
    cases hstart
    refine ⟨⟨records, k⟩, cutTrail codec json args, hw, ?_, cutTrail_archives args⟩
    dsimp only at hi ⊢
    rw [hi, List.getElem?_concat_length]
    rfl
  · intro shared w event shared' h hserve
    obtain ⟨trail, htrail, rfl⟩ := Option.map_eq_some_iff.mp hserve
    obtain ⟨records, hrecords, hinv⟩ := h.service hcodec htrail
    exact ⟨⟨records, w.cut⟩, ⟨hrecords, le_rfl⟩, hinv⟩
  · intro shared w outside c h
    obtain ⟨w', hle, hinv, -⟩ :=
      @answer_archives codec (fun _ => True) shared w h outside c fun _ _ _ _ _ => trivial
    exact ⟨w', hle, hinv⟩
  · intro s w outside c h hcall hok
    apply answer_archives h outside c
    rintro removing rfl harchived record hrecord
    obtain ⟨hcheck, hinj⟩ := hok outside removing rfl hcall
    rw [hcheck] at harchived
    obtain ⟨files, hfiles, hlines⟩ := requireArchived_sound harchived
    obtain ⟨line, hline, hhash⟩ := hlines record hrecord
    have hpayload := hinj (.inr ⟨files, hfiles, hline⟩) (.inl ⟨record, hrecord, rfl⟩) hhash
    rw [← hpayload]
    exact ⟨files, hfiles, hline⟩

/-- What a cut removes. -/
theorem removed_archived (hcodec : codec.ReadsBack) {s : AnchoredRun × Nat} {s' : AnchoredRun}
    (hs : Transition.Reachable (CutStarted codec json config)
      (anchoredMachine codec json config).watch (ChecksArchive codec place read path) s)
    {throughSeq : Nat} {throughHash : Hash} {nowMillis : Int} {anchor : Option String}
    (hcall : s.1.nextCall s.2 = some (.cut throughSeq throughHash nowMillis anchor))
    {outside : TrailOutside}
    (hstep : (anchoredMachine codec json config).step s.1 (.advance s.2 outside) = some s')
    {row : AuditLogRow} (hrow : row ∈ s.1.shared.trail.db.auditLog)
    (hgone : row ∉ s'.shared.trail.db.auditLog) : ArchiveLine place read row.payload := by
  obtain ⟨w, script, hw, hscript, hkeeps⟩ := watched_of_reachable hcodec hs
  obtain ⟨c, next, hat, hnext, rfl⟩ := Script.Machine.step_advance hstep
  rw [hcall, Option.some.injEq] at hnext
  subst hnext
  rw [hat, Option.some.injEq] at hscript
  rw [← hscript] at hkeeps
  obtain ⟨hrequires, -⟩ := hkeeps w le_rfl
  rw [hw.trail.log] at hrow
  obtain ⟨record, hrecord, rfl⟩ := List.mem_map.mp hrow
  obtain ⟨j, hj⟩ := List.mem_iff_getElem?.mp hrecord
  rw [List.getElem?_drop] at hj
  apply hrequires (w.cut + j) record (Nat.le_add_right _ _) ?_ hj
  by_contra hbehind
  apply hgone
  change SqliteAuditDevice.rowOf record ∈
    (s.1.shared.trail.db.cut throughSeq throughHash nowMillis anchor outside.fault).1.auditLog
  rcases hw.cut throughSeq throughHash nowMillis anchor outside.fault with
    ⟨error, heq⟩ | ⟨-, cut, -, heq, hinv⟩
  · rw [heq, hw.trail.log]
    exact List.mem_map_of_mem hrecord
  · rw [heq]
    have hlog : (s.1.shared.trail.db.afterCut cut).auditLog =
        (w.records.drop throughSeq).map SqliteAuditDevice.rowOf := hinv.trail.log
    rw [hlog]
    apply List.mem_map_of_mem
    apply List.mem_of_getElem? (i := w.cut + j - throughSeq)
    have hindex : throughSeq + (w.cut + j - throughSeq) = w.cut + j := by omega
    rw [List.getElem?_drop, hindex]
    exact hj

/-- Coverage of the records of a verified run is complete exactly where every payload is a line of a
file, and names the others in the order of their numbers; and a cut that the check of an archive lets
through removes only records whose payloads are lines of it, whatever happens beside it. -/
theorem archive_coverage_exact (codec : Codec) (hblank : codec.RejectsBlank)
    (hcodec : codec.ReadsBack) :
    (∀ read files (wanted : RecordSlice) start verified,
      codec.verifyFrom start wanted.toList = .ok verified →
      Set.InjOn codec.hashPayload (Compared read files wanted.toList) →
      (∀ file ∈ files, ∃ text, read file = .ok (bytesOf text)) →
      ∃ coverage, coverageOf codec read files wanted.toList = .ok coverage ∧
        (coverage.isComplete = true ↔
          ∀ record ∈ wanted.toList, InArchive read files record.payload) ∧
        coverage.missing.Pairwise (· < ·) ∧
        ∀ seq, seq ∈ coverage.missing ↔
          ∃ record ∈ wanted.toList, record.seq = seq ∧ ¬InArchive read files record.payload) ∧
    ∀ json config place read path s s' throughSeq throughHash nowMillis anchor outside,
      Transition.Reachable (CutStarted codec json config)
        (anchoredMachine codec json config).watch (ChecksArchive codec place read path) s →
      s.1.nextCall s.2 = some (.cut throughSeq throughHash nowMillis anchor) →
      (anchoredMachine codec json config).step s.1 (.advance s.2 outside) = some s' →
      ∀ row ∈ s.1.shared.trail.db.auditLog, row ∉ s'.shared.trail.db.auditLog →
        ArchiveLine place read row.payload := by
  constructor
  · intro read files wanted start verified hverified hinj hread
    exact coverageOf_exact hblank wanted.length_lt hverified hinj hread
  · intro json config place read path s s' throughSeq throughHash nowMillis anchor outside hs hcall
      hstep row hrow hgone
    exact removed_archived hcodec hs hcall hstep hrow hgone

end Runs

namespace Sample

/-- The file of a file device: a record that is not asked about, and the first of two records twice,
once by a writer that ends lines with CR LF. -/
def archiveText : String :=
  String.ofList (payload3.toList ++ '\n' :: (payload1.toList ++ '\n' ::
    ((payload1.toList ++ ['\r']) ++ '\n' :: [])))

def archiveFile : SetFile → Except String (List UInt8)
  | .live => .ok (bytesOf archiveText)
  | .rotated _ => .error "No such file or directory (os error 2)"

def archivePlace : Surroundings :=
  ⟨true, some (bytesOf "audit.jsonl"), true, .ok [.ok ⟨bytesOf "audit.jsonl", true⟩]⟩

def firstRow : StoredRecord := ⟨1, payload1, some hash1⟩

def twoRows : RecordSlice := ⟨[firstRow, ⟨2, payload2, some hash2⟩], by decide⟩

theorem rotationSet_archivePlace : rotationSet archivePlace = .ok [.live] := by
  have hlive : isArchiveOf (bytesOf "audit.jsonl") ⟨bytesOf "audit.jsonl", true⟩ = false := by
    decide +kernel
  unfold rotationSet archivePlace
  simp [bind, Except.bind, hlive, pure, Except.pure]

theorem archiveFile_live : archiveFile .live = .ok (bytesOf archiveText) := by
  unfold archiveFile
  dsimp only

theorem newline_not_mem_text {seq : Nat} {ts prevHash : String} (hseq : '\n' ∉ Nat.toDigits 10 seq)
    (hts : '\n' ∉ ts.toList) (hprev : '\n' ∉ prevHash.toList) :
    '\n' ∉ (text seq ts prevHash).toList := by
  unfold text
  simp only [String.toList_append, List.mem_append, not_or]
  simp [hseq, hts, hprev]

theorem getLast?_text (seq : Nat) (ts prevHash : String) :
    (text seq ts prevHash).toList.getLast? = some '\x7d' := by
  have hend : ",\"channel\":null\x7d\x7d\x7d".toList.getLast? = some '\x7d' := by decide
  unfold text
  rw [String.toList_append, List.getLast?_append, hend]
  rfl

theorem lines_archiveText : Rust.lines archiveText = [payload3, payload1, payload1] := by
  have hfirst : '\n' ∉ payload1.toList :=
    newline_not_mem_text (by decide) (by decide) (by decide)
  have hend : payload1.toList.getLast? ≠ some '\r' := by
    rw [payload1, getLast?_text]
    decide
  have hother : '\n' ∉ payload3.toList :=
    newline_not_mem_text (by decide) (by decide) (by decide)
  have hotherEnd : payload3.toList.getLast? ≠ some '\r' := by
    rw [payload3, getLast?_text]
    decide
  have hreturn : Rust.chomp (payload1.toList ++ ['\r'] ++ ['\n']) = payload1.toList := by
    unfold Rust.chomp
    rw [List.getLast?_concat, if_pos rfl, List.dropLast_concat, List.getLast?_concat, if_pos rfl,
      List.dropLast_concat]
  have hnil : Rust.lines (String.ofList []) = [] := by decide
  unfold archiveText
  rw [Rust.lines_cons hother, Rust.lines_cons hfirst, Rust.lines_cons (by simp [hfirst]),
    Rust.chomp_line hotherEnd, Rust.chomp_line hend, hreturn, hnil, String.ofList_toList,
    String.ofList_toList]

theorem inArchive_archiveFile (line : String) :
    InArchive archiveFile [.live] line ↔ line ∈ [payload3, payload1, payload1] := by
  have hread : List.Forall₂ (fun file text => archiveFile file = .ok (bytesOf text)) [.live]
      [archiveText] :=
    .cons archiveFile_live .nil
  rw [inArchive_iff hread, List.flatMap_singleton, lines_archiveText]

theorem hashPayload_payloads : readingCodec.hashPayload payload1 = hash1 ∧
    readingCodec.hashPayload payload2 = hash2 ∧ readingCodec.hashPayload payload3 = hash3 := by
  decide +kernel

theorem hashPayload_injOn :
    Set.InjOn readingCodec.hashPayload {text | text ∈ [payload1, payload2, payload3]} := by
  obtain ⟨hash_payload1, hash_payload2, hash_payload3⟩ := hashPayload_payloads
  have h12 : hash1 ≠ hash2 := by decide
  have h13 : hash1 ≠ hash3 := by decide
  have h23 : hash2 ≠ hash3 := by decide
  intro x hx y hy hhash
  simp only [Set.mem_ofPred_eq, List.mem_cons, List.not_mem_nil, or_false] at hx hy
  rcases hx with rfl | rfl | rfl
  · rcases hy with rfl | rfl | rfl
    · rfl
    · rw [hash_payload1, hash_payload2] at hhash
      exact absurd hhash h12
    · rw [hash_payload1, hash_payload3] at hhash
      exact absurd hhash h13
  · rcases hy with rfl | rfl | rfl
    · rw [hash_payload2, hash_payload1] at hhash
      exact absurd hhash.symm h12
    · rfl
    · rw [hash_payload2, hash_payload3] at hhash
      exact absurd hhash h23
  · rcases hy with rfl | rfl | rfl
    · rw [hash_payload3, hash_payload1] at hhash
      exact absurd hhash.symm h13
    · rw [hash_payload3, hash_payload2] at hhash
      exact absurd hhash.symm h23
    · rfl

theorem hashes_differ {text : String} (h : text ∈ [payload3, payload1, payload1]) :
    text ∈ [payload1, payload2, payload3] := by
  simp only [List.mem_cons, List.not_mem_nil, or_false, or_self] at h
  rcases h with rfl | rfl
  · exact .tail _ (.tail _ (.head _))
  · exact .head _

theorem archiveLine_archivePlace {line : String} (h : ArchiveLine archivePlace archiveFile line) :
    line ∈ [payload3, payload1, payload1] := by
  obtain ⟨files, hfiles, file, hfile, bytes, hbytes, hline⟩ := h
  rw [rotationSet_archivePlace, Except.ok.injEq] at hfiles
  rw [← hfiles, List.mem_singleton] at hfile
  rw [hfile, archiveFile_live, Except.ok.injEq] at hbytes
  rw [← hbytes, archiveLines_bytesOf, List.mem_map] at hline
  obtain ⟨text, htext, heq⟩ := hline
  cases heq
  exact (inArchive_archiveFile line).mp
    ⟨.live, List.mem_singleton_self _, archiveText, archiveFile_live, htext⟩

theorem head?_text (seq : Nat) (ts prevHash : String) :
    (text seq ts prevHash).toList.head? = some '\x7b' := by
  have hbegin : "\x7b\"seq\":".toList.head? = some '\x7b' := by decide
  unfold text
  simp only [String.toList_append, List.append_assoc]
  rw [List.head?_append, hbegin]
  rfl

theorem table_not_blank {row : Record × String × Hash} (hrow : row ∈ table) :
    (Rust.trim row.2.1).isEmpty = false := by
  have hall : ∃ seq ts prevHash, row.2.1 = text seq ts prevHash := by
    unfold table at hrow
    simp only [List.mem_cons, List.not_mem_nil, or_false] at hrow
    rcases hrow with rfl | rfl | rfl | rfl
    · exact ⟨_, _, _, rfl⟩
    · exact ⟨_, _, _, rfl⟩
    · exact ⟨_, _, _, rfl⟩
    · exact ⟨_, _, _, rfl⟩
  obtain ⟨seq, ts, prevHash, htext⟩ := hall
  rw [htext]
  exact Rust.trim_isEmpty_of_mem (List.mem_of_head? (head?_text seq ts prevHash)) (by decide)

theorem headerFromStr_blank {text : String} (h : (Rust.trim text).isEmpty = true) :
    readingCodec.headerFromStr text = .error "EOF while parsing an object at line 1 column 8" := by
  have hnone : table.find? (fun row => text == row.2.1) = none := by
    rw [List.find?_eq_none]
    intro row hrow hsame
    rw [beq_iff_eq] at hsame
    rw [hsame, table_not_blank hrow] at h
    exact absurd h (by decide)
  unfold readingCodec tabled
  dsimp only
  rw [hnone]

theorem readingCodec_rejectsBlank : readingCodec.RejectsBlank := by
  intro text htext
  exact ⟨_, headerFromStr_blank htext⟩

theorem compared_injOn {wanted : List StoredRecord}
    (h : ∀ record ∈ wanted, record.payload ∈ [payload1, payload2, payload3]) :
    Set.InjOn readingCodec.hashPayload (Compared archiveFile [.live] wanted) := by
  refine hashPayload_injOn.mono ?_
  rintro text (⟨record, hrecord, rfl⟩ | hline)
  · exact h record hrecord
  · exact hashes_differ ((inArchive_archiveFile text).mp hline)

theorem isText_archiveFile :
    ∀ file ∈ [SetFile.live], ∃ text, archiveFile file = .ok (bytesOf text) := by
  intro file hfile
  rw [List.mem_singleton] at hfile
  rw [hfile]
  exact ⟨archiveText, archiveFile_live⟩

/-- The first of the records can be cut off. -/
theorem requireArchived_firstRow :
    requireArchived readingCodec archivePlace archiveFile (some "/var/log/ciphr/audit.jsonl")
      [firstRow] = .ok () := by
  obtain ⟨verified, hverified⟩ : ∃ verified,
      readingCodec.verifyFrom .genesis [firstRow] = .ok verified :=
    Loop.isOk_iff.mp (by decide +kernel)
  have hinj : Set.InjOn readingCodec.hashPayload (Compared archiveFile [.live] [firstRow]) := by
    apply compared_injOn
    intro record hrecord
    rw [List.mem_singleton] at hrecord
    rw [hrecord]
    exact .head _
  obtain ⟨coverage, hcoverage, hcomplete, -⟩ := coverageOf_exact readingCodec_rejectsBlank
    (by decide) hverified hinj isText_archiveFile
  have hall : coverage.isComplete = true := by
    rw [hcomplete]
    intro record hrecord
    rw [List.mem_singleton] at hrecord
    rw [hrecord, inArchive_archiveFile]
    exact .tail _ (.head _)
  exact requireArchived_of_isComplete rotationSet_archivePlace hcoverage hall

/-- Two records, and the start of a cut of the first. -/
def cutStarted : Option (AnchoredRun × Nat) :=
  (Transition.run (anchoredMachine readingCodec anchorJson storeAndFileConfig).step anchoredStart
    [.serve (.restart noFaults noFaults), recordOne, recordOne]).bind fun before =>
      ((anchoredMachine readingCodec anchorJson storeAndFileConfig).step before
        (.start (.cut keepOne))).map fun s => (s, before.scripts.length)

theorem cutStarted_spec {s : AnchoredRun × Nat} (h : cutStarted = some s) :
    CutStarted readingCodec anchorJson storeAndFileConfig s := by
  obtain ⟨before, hbefore, hstart⟩ := Option.bind_eq_some_iff.mp h
  obtain ⟨started, hstarted, rfl⟩ := Option.map_eq_some_iff.mp hstart
  exact ⟨before, keepOne, Transition.reachable_of_any_run _ (.start anchoredStart_fresh) hbefore,
    hstarted, rfl⟩

/-- The cut that has made every call before the one that cuts. -/
def aboutToCut : Option (AnchoredRun × Nat) :=
  cutStarted.bind fun s => Transition.run
    (anchoredMachine readingCodec anchorJson storeAndFileConfig).watch s (advances 0 12)

/-- The checks of the command that is watched find the first record archived. -/
def checksFirstRow (s : AnchoredRun × Nat)
    (event : Script.Happens AuditEvent TrailOutside TrailArgs) : Bool :=
  match event, s.1.nextCall s.2 with
  | .advance _ outside, some (.requireArchived removing) =>
      outside.archived.isOk && removing == [firstRow]
  | _, _ => true

theorem checksArchive_of_checksFirstRow {s : AnchoredRun × Nat}
    {event : Script.Happens AuditEvent TrailOutside TrailArgs} (h : checksFirstRow s event = true) :
    ChecksArchive readingCodec archivePlace archiveFile "/var/log/ciphr/audit.jsonl" s event := by
  rintro outside removing rfl hcall
  unfold checksFirstRow at h
  rw [hcall] at h
  dsimp only at h
  rw [Bool.and_eq_true, beq_iff_eq] at h
  obtain ⟨hok, rfl⟩ := h
  constructor
  · rw [requireArchived_firstRow]
    cases harchived : outside.archived with
    | ok done => rfl
    | error error =>
        rw [harchived] at hok
        cases hok
  · refine hashPayload_injOn.mono ?_
    rintro text (⟨record, hrecord, rfl⟩ | hline)
    · rw [List.mem_singleton] at hrecord
      rw [hrecord]
      exact .head _
    · exact hashes_differ (archiveLine_archivePlace hline)

/-- Whether the command that is watched is about to cut. -/
def nextCuts (s : AnchoredRun × Nat) : Bool :=
  match s.1.nextCall s.2 with
  | some (.cut _ _ _ _) => true
  | _ => false

theorem nextCuts_spec {s : AnchoredRun × Nat} (h : nextCuts s = true) :
    ∃ throughSeq throughHash nowMillis anchor,
      s.1.nextCall s.2 = some (.cut throughSeq throughHash nowMillis anchor) := by
  unfold nextCuts at h
  split at h
  · rename_i throughSeq throughHash nowMillis anchor hcall
    exact ⟨throughSeq, throughHash, nowMillis, anchor, hcall⟩
  · cases h

theorem archive_coverage_exact_after_cut :
    (∃ coverage, coverageOf readingCodec archiveFile [.live] twoRows.toList = .ok coverage ∧
      coverage.isComplete = false ∧ ∀ seq, seq ∈ coverage.missing ↔ seq = 2) ∧
    ∃ s s', (anchoredMachine readingCodec anchorJson storeAndFileConfig).step s (.advance 0 quiet) =
        some s' ∧ s.shared.trail.db.auditLog.map (·.seq) = [1, 2] ∧
      s'.shared.trail.db.auditLog.map (·.seq) = [2] ∧
      ∀ row ∈ s.shared.trail.db.auditLog, row ∉ s'.shared.trail.db.auditLog →
        ArchiveLine archivePlace archiveFile row.payload := by
  constructor
  · obtain ⟨verified, hverified⟩ : ∃ verified,
        readingCodec.verifyFrom .genesis twoRows.toList = .ok verified :=
      Loop.isOk_iff.mp (by decide +kernel)
    have hinj : Set.InjOn readingCodec.hashPayload (Compared archiveFile [.live] twoRows.toList) := by
      apply compared_injOn
      intro record hrecord
      simp only [twoRows, List.mem_cons, List.not_mem_nil, or_false] at hrecord
      rcases hrecord with rfl | rfl
      · exact .head _
      · exact .tail _ (.head _)
    obtain ⟨coverage, hcoverage, hcomplete, -, hmissing⟩ := (archive_coverage_exact readingCodec
      readingCodec_rejectsBlank readingCodec_readsBack).1 archiveFile [.live] twoRows .genesis
      verified hverified hinj isText_archiveFile
    have hfirst : InArchive archiveFile [.live] payload1 :=
      (inArchive_archiveFile payload1).mpr (.tail _ (.head _))
    have hsecond : ¬InArchive archiveFile [.live] payload2 := by
      rw [inArchive_archiveFile]
      decide +kernel
    refine ⟨coverage, hcoverage, ?_, ?_⟩
    · rw [Bool.eq_false_iff]
      intro hall
      exact hsecond (hcomplete.mp hall ⟨2, payload2, some hash2⟩ (.tail _ (.head _)))
    · intro seq
      rw [hmissing]
      constructor
      · rintro ⟨record, hrecord, rfl, hnot⟩
        simp only [twoRows, List.mem_cons, List.not_mem_nil, or_false] at hrecord
        rcases hrecord with rfl | rfl
        · exact absurd hfirst hnot
        · rfl
      · rintro rfl
        exact ⟨⟨2, payload2, some hash2⟩, .tail _ (.head _), rfl, hsecond⟩
  · have hrun : (aboutToCut.bind fun s =>
        ((anchoredMachine readingCodec anchorJson storeAndFileConfig).step s.1
          (.advance 0 quiet)).map fun s' => (s.2, nextCuts s, s.1.shared.trail.db.auditLog.map (·.seq),
            s'.shared.trail.db.auditLog.map (·.seq))) = some (0, true, [1, 2], [2]) := by
      decide +kernel
    obtain ⟨s, hs, hmap⟩ := Option.bind_eq_some_iff.mp hrun
    obtain ⟨s', hstep, hfacts⟩ := Option.map_eq_some_iff.mp hmap
    simp only [Prod.mk.injEq] at hfacts
    obtain ⟨hwhere, hnext, hbefore, hafter⟩ := hfacts
    obtain ⟨throughSeq, throughHash, nowMillis, anchor, hcall⟩ := nextCuts_spec hnext
    obtain ⟨started, hstarted, hadvanced⟩ := Option.bind_eq_some_iff.mp hs
    have hsteps : cutStarted.all (fun s => Transition.allSteps
        (anchoredMachine readingCodec anchorJson storeAndFileConfig).watch
        (fun s event => checksFirstRow s event = true) s (advances 0 12)) = true := by
      decide +kernel
    rw [hstarted, Option.all_some] at hsteps
    have hreachable := (Transition.reachable_of_run _ (.start (cutStarted_spec hstarted)) hsteps
      hadvanced).imp fun s event => checksArchive_of_checksFirstRow
    rw [← hwhere] at hstep
    refine ⟨s.1, s', ?_, hbefore, hafter, ?_⟩
    · rw [← hwhere]
      exact hstep
    · exact (archive_coverage_exact readingCodec readingCodec_rejectsBlank readingCodec_readsBack).2
        anchorJson storeAndFileConfig archivePlace archiveFile "/var/log/ciphr/audit.jsonl" s s'
        throughSeq throughHash nowMillis anchor quiet hreachable hcall hstep

end Sample

end Ciphr
