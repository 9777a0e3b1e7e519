import Ciphr.AuditQuarantine
import Ciphr.AuditLife

/-!
Sequence numbers across restarts. A record is committed when any device has stored it, and a restart
continues the chain of the database alone. As long as the database has the last committed record at
every restart, the stored chain only ever grows and no number is used twice. Where the database has
missed that record, the next one gets its number.
-/

namespace Ciphr

namespace SqliteAuditDevice

/-- The statement either fails and changes nothing, or adds a row under a new number. -/
theorem write_cases (db : Database) (record : EncodedRecord) (fault : Option String) :
    (write db record fault).1 = db ∨
      ((∀ row ∈ db.auditLog, row.seq ≠ (rowOf record).seq) ∧
        write db record fault = ({ db with auditLog := db.auditLog ++ [rowOf record] }, .ok ())) := by
  unfold write Database.insertAuditLog
  cases fault with
  | some error => exact .inl rfl
  | none =>
      dsimp only
      by_cases hany : db.auditLog.any (·.seq == (rowOf record).seq) = true
      · rw [if_pos hany]
        exact .inl rfl
      · rw [if_neg hany]
        refine .inr ⟨?_, rfl⟩
        simpa using hany

end SqliteAuditDevice

section World

variable (record : EncodedRecord) (io : Nat → DeviceFault)

open SqliteAuditDevice (rowOf)

theorem Device.write_db_cases (world : AuditWorld) (device : Device) (fault : DeviceFault) :
    (Device.write world device record fault).1.db = world.db ∨
      ((∀ row ∈ world.db.auditLog, row.seq ≠ (rowOf record).seq) ∧
        (Device.write world device record fault).1.db =
          { world.db with auditLog := world.db.auditLog ++ [rowOf record] } ∧
        (Device.write world device record fault).2.2 = .ok ()) := by
  cases device with
  | file log => exact .inl rfl
  | sqlite table =>
      rcases SqliteAuditDevice.write_cases world.db record fault.database with h | ⟨hnew, h⟩
      · exact .inl h
      · refine .inr ⟨hnew, ?_, ?_⟩
        · exact congrArg Prod.fst h
        · exact congrArg Prod.snd h

/-- A number that the table has is not stored again. -/
theorem attemptAll_db_of_mem (slots : List (Slot Device)) (n : Nat) (world : AuditWorld)
    {row : AuditLogRow} (hmem : row ∈ world.db.auditLog) (hseq : row.seq = (rowOf record).seq) :
    (attemptAll record io n world slots).1.db = world.db := by
  induction slots generalizing n world with
  | nil => rfl
  | cons slot slots ih =>
      unfold attemptAll
      split
      · exact ih (n + 1) world hmem
      · have hsame : (Device.write world slot.device record (io n)).1.db = world.db := by
          rcases Device.write_db_cases record world slot.device (io n) with h | ⟨hnew, -, -⟩
          · exact h
          · exact absurd hseq (hnew row hmem)
        refine (ih (n + 1) _ ?_).trans hsame
        exact hsame.symm ▸ hmem

/-- The table keeps its rows, or gains that of the record, which a device has then accepted. -/
theorem attemptAll_db (slots : List (Slot Device)) (n : Nat) (world : AuditWorld) :
    (attemptAll record io n world slots).1.db = world.db ∨
      ((attemptAll record io n world slots).1.db =
          { world.db with auditLog := world.db.auditLog ++ [rowOf record] } ∧
        ∃ attempt ∈ (attemptAll record io n world slots).2, attempt.outcome = some (.ok ())) := by
  induction slots generalizing n world with
  | nil => exact .inl rfl
  | cons slot slots ih =>
      unfold attemptAll
      split
      · rcases ih (n + 1) world with h | ⟨h, attempt, hmem, hok⟩
        · exact .inl h
        · exact .inr ⟨h, attempt, List.mem_cons_of_mem _ hmem, hok⟩
      · rcases Device.write_db_cases record world slot.device (io n) with hsame | ⟨-, hrow, hok⟩
        · rcases ih (n + 1) (Device.write world slot.device record (io n)).1 with
            h | ⟨h, attempt, hmem, hok⟩
          · exact .inl (h.trans hsame)
          · refine .inr ⟨h.trans (by rw [hsame]), attempt, List.mem_cons_of_mem _ hmem, hok⟩
        · refine .inr ⟨?_, _, List.mem_cons_self, congrArg some hok⟩
          have hmem : rowOf record ∈ (Device.write world slot.device record (io n)).1.db.auditLog := by
            rw [hrow]
            exact List.mem_append_right _ (List.mem_singleton.mpr rfl)
          exact (attemptAll_db_of_mem record io slots (n + 1) _ hmem rfl).trans hrow

end World

theorem Database.mem_of_latestRow {rows : List AuditLogRow} {row : AuditLogRow}
    (h : latestRow rows = some row) : row ∈ rows := by
  induction rows generalizing row with
  | nil => cases h
  | cons first rows ih =>
      unfold latestRow at h
      split at h
      · cases h
        exact List.mem_cons_self
      · rename_i other hother
        split at h
        · cases h
          exact List.mem_cons_of_mem _ (ih hother)
        · cases h
          exact List.mem_cons_self

/-- `ORDER BY seq DESC LIMIT 1` finds the row that no other one exceeds. -/
theorem Database.latestRow_eq {rows : List AuditLogRow} {row : AuditLogRow} (hmem : row ∈ rows)
    (hmax : ∀ other ∈ rows, other.seq ≤ row.seq ∧ (other.seq = row.seq → other = row)) :
    latestRow rows = some row := by
  induction rows with
  | nil => cases hmem
  | cons first rows ih =>
      have hrest : ∀ other ∈ rows, other.seq ≤ row.seq ∧ (other.seq = row.seq → other = row) :=
        fun other hother => hmax other (List.mem_cons_of_mem _ hother)
      have hfirst := hmax first List.mem_cons_self
      unfold latestRow
      by_cases hin : row ∈ rows
      · rw [ih hin hrest]
        dsimp only
        split
        · rfl
        · rename_i hge
          rw [hfirst.2 (by omega)]
      · obtain rfl : row = first := by
          rcases List.mem_cons.mp hmem with h | h
          · exact h
          · exact absurd h hin
        cases hlatest : latestRow rows with
        | none => rfl
        | some other =>
            have hother := hrest other (mem_of_latestRow hlatest)
            dsimp only
            rw [if_neg (by omega)]

theorem openDevices_db (config : Config) (world : AuditWorld) (io : Nat → DeviceFault) :
    (openDevices config world io).1.db = world.db := by
  unfold openDevices
  split
  · rfl
  · exact openAll_db _ _ io config.audit 0 world

namespace AuditLife

open SqliteAuditDevice (rowOf columnSeq)

/-- At a restart the table has the last committed record, and the numbers fit into its column. -/
def StoreUpToDate (s : AuditLife) : AuditEvent → Prop
  | .restart _ _ =>
      (∀ record ∈ s.issued, record.seq < 2 ^ 63) ∧
        ∀ record ∈ s.committed.getLast?, ∃ row ∈ s.world.db.auditLog, row.seq = record.seq
  | _ => True

instance (s : AuditLife) (event : AuditEvent) : Decidable (StoreUpToDate s event) :=
  match event with
  | .restart _ _ => inferInstanceAs (Decidable (_ ∧ _))
  | .record _ _ _ | .crash _ _ _ _ _ => inferInstanceAs (Decidable True)

/-- The issued records are one chain that the running process continues, the committed ones are
among them, and the table holds some of them. Only a committed record can be missing at the end. -/
structure IssuedInv (s : AuditLife) : Prop where
  continued : Chain.new.Continued s.issued
  committed : s.committed.Sublist s.issued
  rows : ∀ row ∈ s.world.db.auditLog, ∃ record ∈ s.issued, row = rowOf record
  last : ∀ record, s.issued.getLast? = some record →
    s.committed.getLast? = some record ∨ rowOf record ∈ s.world.db.auditLog
  uncut : s.world.db.auditCut.bind (·.getLast?) = none
  running : ∀ sink, s.sink = some sink → sink.chain = Chain.new.after s.issued

variable {s : AuditLife}

theorem issuedInv_fresh (h : Fresh s) : IssuedInv s := by
  obtain ⟨hlog, hcut, -, hsink, hcommitted, hissued, -⟩ := h
  refine ⟨?_, ?_, ?_, ?_, ?_, ?_⟩
  · rw [hissued]
    trivial
  · rw [hcommitted]
    exact List.nil_sublist _
  · rw [hlog]
    intro row hmem
    cases hmem
  · rw [hissued]
    intro record hlast
    cases hlast
  · rcases hcut with h | h
    · rw [h]
      rfl
    · rw [h]
      rfl
  · rw [hsink]
    intro sink h
    cases h

theorem columnSeq_of_lt {seq : Nat} (h : seq < 2 ^ 63) : columnSeq seq = seq := by
  unfold columnSeq
  rw [if_pos h]

/-- The last issued record is the last row of the table. -/
theorem IssuedInv.latestRow {opening reading : Nat → DeviceFault} (h : IssuedInv s)
    (hstore : StoreUpToDate s (.restart opening reading)) {last : EncodedRecord}
    (hlast : s.issued.getLast? = some last) :
    Database.latestRow s.world.db.auditLog = some (rowOf last) := by
  obtain ⟨hfits, hstored⟩ := hstore
  have hmem : last ∈ s.issued := List.mem_of_getLast? hlast
  have hcolumn : ∀ record ∈ s.issued, (rowOf record).seq = record.seq := by
    intro record hrecord
    exact columnSeq_of_lt (hfits record hrecord)
  have hrow : rowOf last ∈ s.world.db.auditLog := by
    rcases h.last last hlast with hcommitted | hrow
    · obtain ⟨row, hrow, hseq⟩ := hstored last hcommitted
      obtain ⟨record, hrecord, rfl⟩ := h.rows row hrow
      rw [hcolumn record hrecord, Int.natCast_inj] at hseq
      rwa [h.continued.eq_of_seq_eq hrecord hmem hseq] at hrow
    · exact hrow
  refine Database.latestRow_eq hrow ?_
  intro row hother
  obtain ⟨record, hrecord, rfl⟩ := h.rows row hother
  have hle := h.continued.seq_le_last hrecord hlast
  rw [hcolumn record hrecord, hcolumn last hmem]
  refine ⟨by omega, ?_⟩
  intro hseq
  rw [h.continued.eq_of_seq_eq hrecord hmem (by omega)]

/-- The chain that a restart continues is that of the issued records. -/
theorem IssuedInv.storeChain {opening reading : Nat → DeviceFault} (h : IssuedInv s)
    (hstore : StoreUpToDate s (.restart opening reading)) :
    s.storeChain = .ok (Chain.new.after s.issued) := by
  have hcut : s.world.db.latestCutOf = .ok none := by
    unfold Database.latestCutOf
    rw [h.uncut]
  unfold AuditLife.storeChain Database.chainToContinue
  rw [hcut]
  rcases List.eq_nil_or_concat' s.issued with hnil | ⟨before, last, hconcat⟩
  · have hempty : s.world.db.auditLog = [] := by
      rw [List.eq_nil_iff_forall_not_mem]
      intro row hmem
      obtain ⟨record, hrecord, -⟩ := h.rows row hmem
      rw [hnil] at hrecord
      cases hrecord
    have hhead : s.world.db.headOf = .ok none := by
      unfold Database.headOf
      rw [hempty]
      rfl
    rw [hhead, hnil]
    rfl
  · have hlast : s.issued.getLast? = some last := by
      rw [hconcat, List.getLast?_concat]
    have hhead : s.world.db.headOf = .ok (some (last.seq, last.hash)) := by
      have hseq : (rowOf last).seq = last.seq :=
        columnSeq_of_lt (hstore.1 last (List.mem_of_getLast? hlast))
      have hcount : decodeCount (rowOf last).seq = .ok last.seq := by
        rw [hseq]
        unfold decodeCount
        rw [if_pos (Int.natCast_nonneg _), Int.toNat_natCast]
      unfold Database.headOf
      rw [h.latestRow hstore hlast]
      dsimp only
      rw [hcount, show decodeHash (rowOf last).hash = .ok last.hash from decodeHash_encode last.hash]
      rfl
    rw [hhead, hconcat, Chain.after_concat]
    rfl

/-- What one call does to the table keeps the invariant, when the record becomes an issued one if
the table has gained it. -/
theorem IssuedInv.issue {s' : AuditLife} {record : EncodedRecord} (h : IssuedInv s)
    (hcontinued : Chain.new.Continued (s.issued ++ [record]))
    (hissued : s'.issued = s.issued ++ [record])
    (hcommitted : s'.committed = s.committed ++ [record] ∨
      (s'.committed = s.committed ∧ rowOf record ∈ s'.world.db.auditLog))
    (hdb : s'.world.db = s.world.db ∨
      s'.world.db = { s.world.db with auditLog := s.world.db.auditLog ++ [rowOf record] })
    (hrunning : ∀ sink, s'.sink = some sink → sink.chain = .resume record.seq record.hash) :
    IssuedInv s' := by
  refine ⟨hissued ▸ hcontinued, ?_, ?_, ?_, ?_, ?_⟩
  · rw [hissued]
    rcases hcommitted with hc | ⟨hc, -⟩
    · rw [hc]
      exact h.committed.append_right [record]
    · rw [hc]
      exact h.committed.trans (List.sublist_append_left _ _)
  · intro row hmem
    rw [hissued]
    have hold : row ∈ s.world.db.auditLog → ∃ r ∈ s.issued ++ [record], row = rowOf r := by
      intro hmem
      obtain ⟨r, hr, hrow⟩ := h.rows row hmem
      exact ⟨r, List.mem_append_left _ hr, hrow⟩
    rcases hdb with hdb | hdb
    · rw [hdb] at hmem
      exact hold hmem
    · rw [hdb] at hmem
      rcases List.mem_append.mp hmem with hmem | hmem
      · exact hold hmem
      · exact ⟨record, List.mem_append_right _ (List.mem_singleton.mpr rfl), List.mem_singleton.mp hmem⟩
  · intro last hlast
    rw [hissued, List.getLast?_concat, Option.some.injEq] at hlast
    rw [← hlast]
    rcases hcommitted with hc | ⟨-, hrow⟩
    · rw [hc, List.getLast?_concat]
      exact .inl rfl
    · exact .inr hrow
  · rcases hdb with hdb | hdb
    · rw [hdb]
      exact h.uncut
    · rw [hdb]
      exact h.uncut
  · intro sink hsink
    rw [hrunning sink hsink, hissued, Chain.after_concat]

/-- A step that issues nothing and leaves the table alone. -/
theorem IssuedInv.keep {s' : AuditLife} (h : IssuedInv s) (hissued : s'.issued = s.issued)
    (hcommitted : s'.committed = s.committed) (hdb : s'.world.db = s.world.db)
    (hrunning : ∀ sink, s'.sink = some sink → sink.chain = Chain.new.after s.issued) :
    IssuedInv s' := by
  constructor
  · exact hissued ▸ h.continued
  · rw [hissued, hcommitted]
    exact h.committed
  · rw [hissued, hdb]
    exact h.rows
  · rw [hissued, hcommitted, hdb]
    exact h.last
  · rw [hdb]
    exact h.uncut
  · rw [hissued]
    exact hrunning

variable {codec : Codec} {config : Config}

theorem IssuedInv.recorded {sink : AuditSink Device} {entry : Entry} {nowMillis : Int}
    {io : Nat → DeviceFault} (h : IssuedInv s) (hsink : s.sink = some sink) :
    IssuedInv (recorded codec s sink entry nowMillis io) := by
  have hchain := h.running sink hsink
  rcases recorded_cases codec s sink entry nowMillis io with
    heq | ⟨record, attempts, -, hattempts, hnone, heq⟩ | ⟨record, attempts, hcommits, heq⟩
  · rw [heq]
    refine h.keep rfl rfl rfl ?_
    intro other hother
    cases hother
    exact hchain
  · rw [heq]
    refine h.keep rfl rfl ?_ ?_
    · rw [hattempts] at hnone ⊢
      rcases attemptAll_db record io sink.slots 0 s.world with hdb | ⟨-, attempt, hmem, hok⟩
      · exact hdb
      · exact absurd hok (hnone attempt hmem)
    · intro other hother
      cases hother
      exact hchain
  · have hencode := hcommits.encoded
    rw [hchain] at hencode
    rw [heq]
    refine h.issue (h.continued.encode hencode) rfl (.inl rfl) ?_ ?_
    · rw [hcommits.attempted]
      rcases attemptAll_db record io sink.slots 0 s.world with hdb | ⟨hdb, -⟩
      · exact .inl hdb
      · exact .inr hdb
    · intro other hother
      cases hother
      rw [← Chain.seq_of_encode hcommits.encoded]
      rfl

theorem IssuedInv.crashed {sink : AuditSink Device} {entry : Entry} {nowMillis : Int}
    {io : Nat → DeviceFault} {record : EncodedRecord} (h : IssuedInv s) (hsink : s.sink = some sink)
    (hencode : sink.chain.encode codec entry nowMillis = .ok record) (slot count : Nat) :
    IssuedInv (crashed s sink record io slot count) := by
  have hworld : ∀ world : AuditWorld,
      (interrupted world sink.slots[slot]? record (io slot) count).db = world.db := by
    intro world
    unfold interrupted
    split
    · rfl
    · rfl
  rw [h.running sink hsink] at hencode
  by_cases hsame : (attemptAll record io 0 s.world (sink.slots.take slot)).1.db = s.world.db
  · refine h.keep (if_pos hsame) rfl ((hworld _).trans hsame) ?_
    intro other hother
    cases hother
  · have hrow : (AuditLife.crashed s sink record io slot count).world.db =
        { s.world.db with auditLog := s.world.db.auditLog ++ [rowOf record] } := by
      rcases attemptAll_db record io (sink.slots.take slot) 0 s.world with hdb | ⟨hdb, -⟩
      · exact absurd hdb hsame
      · exact (hworld _).trans hdb
    refine h.issue (h.continued.encode hencode) (if_neg hsame) (.inr ⟨rfl, ?_⟩) (.inr hrow) ?_
    · rw [hrow]
      exact List.mem_append_right _ (List.mem_singleton.mpr rfl)
    · intro other hother
      cases hother

theorem IssuedInv.restarted {opening reading : Nat → DeviceFault} (h : IssuedInv s)
    (hstore : StoreUpToDate s (.restart opening reading)) :
    IssuedInv (restarted codec config AuditLife.storeChain s opening reading) := by
  refine h.keep rfl rfl (openDevices_db config s.world opening) ?_
  intro sink hsink
  obtain ⟨devices, chain, -, hchain, hnew⟩ := restarted_sink hsink
  rw [h.storeChain hstore] at hchain
  cases hchain
  exact (AuditSink.new_eq_ok hnew).1

theorem IssuedInv.step {s' : AuditLife} {event : AuditEvent} (h : IssuedInv s)
    (hstore : StoreUpToDate s event)
    (hstep : AuditLife.step codec config AuditLife.storeChain s event = some s') : IssuedInv s' := by
  cases event with
  | record entry nowMillis io =>
      obtain ⟨sink, hsink, rfl⟩ := Option.map_eq_some_iff.mp hstep
      exact h.recorded hsink
  | crash entry nowMillis io slot count =>
      obtain ⟨sink, record, hsink, hencode, rfl⟩ := step_crash hstep
      exact h.crashed hsink hencode slot count
  | restart opening reading =>
      cases hstep
      exact h.restarted hstore

/-- In every run in which the database has the last committed record at each restart, no two
different committed records have one number: the issued records are one chain from its beginning,
and the committed ones are among them. -/
theorem committed_once (codec : Codec) (config : Config) (s : AuditLife)
    (h : Transition.Reachable Fresh (AuditLife.step codec config AuditLife.storeChain) StoreUpToDate s) :
    (∀ record ∈ s.committed, ∀ record' ∈ s.committed, record.seq = record'.seq → record = record') ∧
      s.committed.Sublist s.issued ∧ Chain.new.Continued s.issued := by
  have hinv : IssuedInv s :=
    h.invariant (fun _ hs => issuedInv_fresh hs) (fun _ _ _ hs hok hstep => hs.step hok hstep)
  refine ⟨?_, hinv.committed, hinv.continued⟩
  intro record hmem record' hmem' hseq
  exact hinv.continued.eq_of_seq_eq (hinv.committed.subset hmem) (hinv.committed.subset hmem') hseq

end AuditLife

/-! ### A record that the database has missed -/

namespace Sample

def storeAndFileConfig : Config :=
  ⟨"/var/lib/ciphr/store.db", [.sqlite, .file "/var/log/ciphr/audit.jsonl" none], [], []⟩

def start : AuditLife := ⟨world, none, [], [], []⟩

theorem start_fresh : AuditLife.Fresh start :=
  ⟨rfl, .inr rfl, fun _ => rfl, rfl, rfl, rfl, rfl⟩

def storeBusy : Nat → DeviceFault
  | 0 => { database := some "database is locked" }
  | _ => {}

/-- The database refuses the first record, which the file accepts; then the server is restarted. -/
def refusedByStore : List AuditEvent :=
  [.restart noFaults noFaults, .record entry millis storeBusy, .restart noFaults noFaults,
    .record entry (millis + 1000) noFaults]

theorem first_number_issued_twice :
    storeAndFileConfig.validate = .ok () ∧
      ∃ s, Transition.run (AuditLife.step codec storeAndFileConfig AuditLife.storeChain) start
          refusedByStore = some s ∧
        ∃ record ∈ s.committed, ∃ record' ∈ s.committed,
          record.seq = record'.seq ∧ record ≠ record' := by
  refine ⟨by decide +kernel, ?_⟩
  have hrun : (Transition.run (AuditLife.step codec storeAndFileConfig AuditLife.storeChain) start
      refusedByStore).any (fun s => s.committed.any fun record => s.committed.any fun record' =>
        record.seq = record'.seq && record ≠ record') = true := by
    decide +kernel
  obtain ⟨s, hs, hpair⟩ := Option.any_eq_true _ _ |>.mp hrun
  simp only [List.any_eq_true, Bool.and_eq_true, decide_eq_true_eq] at hpair
  obtain ⟨record, hmem, record', hmem', hseq, hne⟩ := hpair
  exact ⟨s, hs, record, hmem, record', hmem', hseq, hne⟩

/-- The file refuses the second record instead. -/
def refusedByFile : List AuditEvent :=
  [.restart noFaults noFaults, .record entry millis noFaults, .record entry millis diskFull,
    .restart noFaults noFaults, .record entry millis noFaults]

theorem committed_once_after_full_disk :
    ∃ s, Transition.run (AuditLife.step codec storeAndFileConfig AuditLife.storeChain) start
        refusedByFile = some s ∧ s.committed.length = 3 ∧
      ∀ record ∈ s.committed, ∀ record' ∈ s.committed, record.seq = record'.seq → record = record' := by
  have hrun : (Transition.run (AuditLife.step codec storeAndFileConfig AuditLife.storeChain) start
      refusedByFile).any (fun s => s.committed.length = 3) = true := by
    decide +kernel
  obtain ⟨s, hs, hlength⟩ := Option.any_eq_true _ _ |>.mp hrun
  have hreachable : Transition.Reachable AuditLife.Fresh
      (AuditLife.step codec storeAndFileConfig AuditLife.storeChain) AuditLife.StoreUpToDate s :=
    Transition.reachable_of_run refusedByFile (.start start_fresh) (by decide +kernel) hs
  exact ⟨s, hs, by simpa using hlength,
    (AuditLife.committed_once codec storeAndFileConfig s hreachable).1⟩

end Sample

end Ciphr
