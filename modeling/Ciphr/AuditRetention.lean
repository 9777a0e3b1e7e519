import Ciphr.AuditCompleteness
import Ciphr.AuditTrail

/-!
Runs in which the service appends to its trail, ends and starts again, while cuts with any arguments
are made beside it. `everStored` remembers the rows that the table has held.
-/

namespace Ciphr

open SqliteAuditDevice (rowOf)

structure Trail where
  life : AuditLife
  everStored : List AuditLogRow

inductive TrailEvent where
  /-- The service records an entry, ends in the middle of doing so, or starts again. -/
  | service (event : AuditEvent)
  | cut (throughSeq : Nat) (throughHash : Hash) (nowMillis : Int) (anchor : Option String)
      (fault : Nat → Option String)

namespace Trail

def db (s : Trail) : Database := s.life.world.db

def Fresh (s : Trail) : Prop := s.life.Fresh ∧ s.everStored = []

def withDb (s : Trail) (db : Database) : Trail :=
  { s with life := { s.life with world := { s.life.world with db := db } } }

def step (codec : Codec) (config : Config) (s : Trail) : TrailEvent → Option Trail
  | .service event =>
      (s.life.step codec config AuditLife.storeChain event).map fun life =>
        ⟨life, s.everStored ++ life.world.db.auditLog.drop s.db.auditLog.length⟩
  | .cut throughSeq throughHash nowMillis anchor fault =>
      some (s.withDb (s.db.cut throughSeq throughHash nowMillis anchor fault).1)

/-- The rows that the table has held are those of `records`, the first `k` of them have been cut off,
and a process whose device appends to the table continues their chain. -/
structure Inv (codec : Codec) (s : Trail) (records : List EncodedRecord) (k : Nat) : Prop where
  trail : s.db.TrailOf codec records k
  ever : s.everStored = records.map rowOf
  running : ∀ sink, s.life.sink = some sink → (∃ slot ∈ sink.slots, slot.Stores) →
    sink.chain = Chain.new.after records

/-- Some records are those that the table has held. -/
def Kept (codec : Codec) (s : Trail) : Prop := ∃ records k, s.Inv codec records k

variable {codec : Codec} {config : Config} {s s' : Trail} {records : List EncodedRecord} {k : Nat}

theorem inv_fresh (h : s.Fresh) : s.Inv codec [] 0 := by
  obtain ⟨⟨hlog, hcut, -, hsink, -⟩, hever⟩ := h
  refine ⟨Database.trailOf_empty hlog hcut, hever, ?_⟩
  intro sink h
  rw [hsink] at h
  cases h

/-- The table after some of the devices of the running process were offered a record. -/
theorem Inv.offered (hcodec : codec.ReadsBack) (h : s.Inv codec records k)
    {sink : AuditSink Device} (hsink : s.life.sink = some sink) {entry : Entry} {nowMillis : Int}
    {record : EncodedRecord} (hencode : sink.chain.encode codec entry nowMillis = .ok record)
    (io : Nat → DeviceFault) {slots : List (Slot Device)} (hslots : slots ⊆ sink.slots) :
    (attemptAll record io 0 s.life.world slots).1.db = s.db ∨
      ((attemptAll record io 0 s.life.world slots).1.db =
          { s.db with auditLog := s.db.auditLog ++ [rowOf record] } ∧
        Database.TrailOf codec { s.db with auditLog := s.db.auditLog ++ [rowOf record] }
          (records ++ [record]) k) := by
  by_cases hsame : (attemptAll record io 0 s.life.world slots).1.db = s.db
  · exact .inl hsame
  · obtain ⟨slot, hmem, hstores⟩ := exists_stores_of_attemptAll record io slots 0 s.life.world hsame
    have hchain := h.running sink hsink ⟨slot, hslots hmem, hstores⟩
    have hgained := (attemptAll_db record io slots 0 s.life.world).resolve_left hsame
    have hnew : ∀ row ∈ s.db.auditLog, row.seq ≠ (rowOf record).seq := by
      intro row hrow hseq
      exact hsame (attemptAll_db_of_mem record io slots 0 s.life.world hrow hseq)
    have hfits : (Chain.new.after records).nextSeq < 2 ^ 64 := by
      have hlength := h.trail.fits
      rw [h.trail.continues.continued.after_nextSeq]
      simp only [Chain.new]
      omega
    rw [hchain] at hencode
    exact .inr ⟨hgained.1, h.trail.append (Chain.next_of_encode hcodec hencode hfits) hnew⟩

/-- A step of the service after which the table has gained at most the row of one record. -/
theorem Inv.serve {life : AuditLife} {records' : List EncodedRecord} (h : s.Inv codec records k)
    (hdb : life.world.db = s.db ∧ records' = records ∨
      ∃ record, life.world.db = { s.db with auditLog := s.db.auditLog ++ [rowOf record] } ∧
        records' = records ++ [record] ∧ life.world.db.TrailOf codec records' k)
    (hrunning : ∀ sink, life.sink = some sink → (∃ slot ∈ sink.slots, slot.Stores) →
      sink.chain = Chain.new.after records') :
    Inv codec ⟨life, s.everStored ++ life.world.db.auditLog.drop s.db.auditLog.length⟩ records' k := by
  rcases hdb with ⟨hsame, rfl⟩ | ⟨record, hgained, hrecords, htrail⟩
  · refine ⟨?_, ?_, hrunning⟩
    · change life.world.db.TrailOf codec records' k
      rw [hsame]
      exact h.trail
    · dsimp only
      rw [hsame, List.drop_length, List.append_nil]
      exact h.ever
  · refine ⟨htrail, ?_, hrunning⟩
    dsimp only
    rw [hgained, hrecords, List.drop_left, h.ever, List.map_append]
    rfl

theorem Inv.recorded (hcodec : codec.ReadsBack) (h : s.Inv codec records k)
    {sink : AuditSink Device} (hsink : s.life.sink = some sink) (entry : Entry) (nowMillis : Int)
    (io : Nat → DeviceFault) :
    ∃ records', records <+: records' ∧
      Inv codec ⟨AuditLife.recorded codec s.life sink entry nowMillis io, s.everStored ++
        (AuditLife.recorded codec s.life sink entry nowMillis io).world.db.auditLog.drop
          s.db.auditLog.length⟩ records' k := by
  rcases AuditLife.recorded_cases codec s.life sink entry nowMillis io with
    heq | ⟨record, attempts, hencode, hattempts, hnone, heq⟩ | ⟨record, attempts, hcommits, heq⟩
  · refine ⟨records, List.prefix_rfl, h.serve (.inl ⟨by rw [heq]; rfl, rfl⟩) ?_⟩
    rw [heq]
    intro other hother hstores
    cases hother
    exact h.running sink hsink hstores
  · -- nothing has been stored, and the devices are those of before
    have hdb : attempts.1.db = s.db := by
      rw [hattempts] at hnone ⊢
      rcases attemptAll_db record io sink.slots 0 s.life.world with hdb | ⟨-, attempt, hmem, hok⟩
      · exact hdb
      · exact absurd hok (hnone attempt hmem)
    refine ⟨records, List.prefix_rfl, h.serve (.inl ⟨by rw [heq]; exact hdb, rfl⟩) ?_⟩
    rw [heq]
    rintro other hother ⟨slot', hslot', hstore, hwriting⟩
    cases hother
    obtain ⟨attempt, hattempt, rfl⟩ := List.mem_map.mp hslot'
    obtain ⟨i, hi⟩ := List.mem_iff_getElem?.mp hattempt
    rw [hattempts] at hi
    obtain ⟨slot, hslot, hof⟩ := attemptAll_slot record io sink.slots 0 s.life.world hi
    rw [attemptAll_isStore record io sink.slots 0 s.life.world hslot hi] at hstore
    rw [hof.quarantined] at hwriting
    exact h.running sink hsink ⟨slot, List.mem_of_getElem? hslot, hstore, hwriting⟩
  · have hattempted := hcommits.attempted
    have hresume : (⟨sink.chain.nextSeq + 1, record.hash⟩ : Chain) =
        .resume record.seq record.hash := by
      rw [Chain.seq_of_encode hcommits.encoded]
      rfl
    rcases h.offered hcodec hsink hcommits.encoded io (List.Subset.refl sink.slots) with
      hsame | ⟨hgained, htrail⟩
    · refine ⟨records, List.prefix_rfl,
        h.serve (.inl ⟨by rw [heq, hattempted]; exact hsame, rfl⟩) ?_⟩
      rw [heq]
      rintro other hother ⟨slot', hslot', hstore, hwriting⟩
      cases hother
      -- a device that appends to the table has accepted the record or is stopped
      obtain ⟨attempt, hattempt, rfl⟩ := List.mem_map.mp hslot'
      rw [Slot.afterCommit_device] at hstore
      obtain ⟨i, hi⟩ := List.mem_iff_getElem?.mp hattempt
      rw [hattempted] at hi hattempt
      obtain ⟨slot, hslot, hof⟩ := attemptAll_slot record io sink.slots 0 s.life.world hi
      rw [hattempted] at hwriting
      have hok := (hof.accepted hattempt hwriting).2
      have hrow := attemptAll_db_of_accepted record io sink.slots 0 s.life.world hattempt hstore hok
      rw [hsame] at hrow
      have hlength := congrArg (fun db : Database => db.auditLog.length) hrow
      simp [Trail.db] at hlength
    · refine ⟨records ++ [record], List.prefix_append records [record],
        h.serve (.inr ⟨record, ?_, rfl, ?_⟩) ?_⟩
      · rw [heq, hattempted]
        exact hgained
      · rw [heq, hattempted, hgained]
        exact htrail
      · rw [heq]
        intro other hother _
        cases hother
        rw [Chain.after_concat]
        exact hresume

theorem Inv.crashed (hcodec : codec.ReadsBack) (h : s.Inv codec records k)
    {sink : AuditSink Device} (hsink : s.life.sink = some sink) {entry : Entry} {nowMillis : Int}
    {record : EncodedRecord} (hencode : sink.chain.encode codec entry nowMillis = .ok record)
    (io : Nat → DeviceFault) (slot count : Nat) :
    ∃ records', records <+: records' ∧
      Inv codec ⟨AuditLife.crashed s.life sink record io slot count, s.everStored ++
        (AuditLife.crashed s.life sink record io slot count).world.db.auditLog.drop
          s.db.auditLog.length⟩ records' k := by
  have hdb : (AuditLife.crashed s.life sink record io slot count).world.db =
      (attemptAll record io 0 s.life.world (sink.slots.take slot)).1.db := by
    simp only [AuditLife.crashed, AuditLife.interrupted]
    split
    · rfl
    · rfl
  have hstopped : ∀ other, (AuditLife.crashed s.life sink record io slot count).sink = some other →
      False := by
    intro other hother
    cases hother
  rcases h.offered hcodec hsink hencode io (List.take_subset slot sink.slots) with
    hsame | ⟨hgained, htrail⟩
  · exact ⟨records, List.prefix_rfl, h.serve (.inl ⟨hdb.trans hsame, rfl⟩)
      fun other hother => (hstopped other hother).elim⟩
  · refine ⟨records ++ [record], List.prefix_append records [record],
      h.serve (.inr ⟨record, hdb.trans hgained, rfl, ?_⟩)
        fun other hother => (hstopped other hother).elim⟩
    rw [hdb, hgained]
    exact htrail

theorem Inv.restarted (h : s.Inv codec records k) (opening reading : Nat → DeviceFault) :
    Inv codec ⟨AuditLife.restarted codec config AuditLife.storeChain s.life opening reading,
      s.everStored ++ (AuditLife.restarted codec config AuditLife.storeChain s.life opening
        reading).world.db.auditLog.drop s.db.auditLog.length⟩ records k := by
  refine h.serve (.inl ⟨openDevices_db config s.life.world opening, rfl⟩) ?_
  intro sink hsink _
  obtain ⟨devices, chain, -, hchain, hnew⟩ := AuditLife.restarted_sink hsink
  have hstored : s.db.chainToContinue = .ok chain := hchain
  rw [h.trail.chainToContinue_eq, Except.ok.injEq] at hstored
  rw [(AuditSink.new_eq_ok hnew).1, ← hstored]

/-- The service leaves the recorded cut where it is, and the records that the table has held. -/
theorem Inv.service (hcodec : codec.ReadsBack) (h : s.Inv codec records k) {event : AuditEvent}
    (hstep : s.step codec config (.service event) = some s') :
    ∃ records', records <+: records' ∧ s'.Inv codec records' k := by
  obtain ⟨life, hlife, rfl⟩ := Option.map_eq_some_iff.mp hstep
  cases event with
  | record entry nowMillis io =>
      obtain ⟨sink, hsink, rfl⟩ := Option.map_eq_some_iff.mp hlife
      exact h.recorded hcodec hsink entry nowMillis io
  | crash entry nowMillis io slot count =>
      obtain ⟨sink, record, hsink, hencode, rfl⟩ := AuditLife.step_crash hlife
      exact h.crashed hcodec hsink hencode io slot count
  | restart opening reading =>
      cases hlife
      exact ⟨records, List.prefix_rfl, h.restarted opening reading⟩

theorem Inv.cut (h : s.Inv codec records k) (throughSeq : Nat) (throughHash : Hash) (nowMillis : Int)
    (anchor : Option String) (fault : Nat → Option String) :
    (∃ error, s.db.cut throughSeq throughHash nowMillis anchor fault = (s.db, .error error)) ∨
      k < throughSeq ∧ ∃ cut, s.db.Cuts throughSeq throughHash cut ∧
        s.db.cut throughSeq throughHash nowMillis anchor fault = (s.db.afterCut cut, .ok cut) ∧
        Inv codec (s.withDb (s.db.afterCut cut)) records throughSeq := by
  rcases Database.cut_cases s.db throughSeq throughHash nowMillis anchor fault with
    hrefused | ⟨cut, hcuts, heq⟩
  · exact .inl hrefused
  · obtain ⟨hlt, htrail⟩ := h.trail.afterCut hcuts
    exact .inr ⟨hlt, cut, hcuts, heq, htrail, h.ever, h.running⟩

theorem Inv.step (hcodec : codec.ReadsBack) (h : s.Inv codec records k) {event : TrailEvent}
    (hstep : s.step codec config event = some s') : s'.Kept codec := by
  cases event with
  | cut throughSeq throughHash nowMillis anchor fault =>
      cases hstep
      rcases h.cut throughSeq throughHash nowMillis anchor fault with
        ⟨error, heq⟩ | ⟨-, cut, -, heq, h'⟩
      · rw [heq]
        exact ⟨records, k, h.trail, h.ever, h.running⟩
      · rw [heq]
        exact ⟨records, throughSeq, h'⟩
  | service event =>
      obtain ⟨records', -, h'⟩ := h.service hcodec hstep
      exact ⟨records', k, h'⟩

/-- The chain goes on one above the highest number of the rows. -/
def NextAfter (rows : List AuditLogRow) (chain : Chain) : Prop :=
  (∀ row ∈ rows, row.seq < (chain.nextSeq : Int)) ∧
    (rows = [] ∧ chain.nextSeq = 1 ∨ ∃ row ∈ rows, row.seq + 1 = (chain.nextSeq : Int))

/-- What holds of the tables of a trail, and of a process that is started on them. -/
structure Whole (codec : Codec) (config : Config) (s : Trail) : Prop where
  verifies : ∃ start rows verified, s.db.startOf = .ok start ∧ s.db.records = .ok rows ∧
    codec.verifyFrom start (rows.map Database.Row.asStored) = .ok verified
  held : s.db.auditLog <:+ s.everStored
  neverEmpty : s.everStored ≠ [] → s.db.auditLog ≠ []
  notReused : s.everStored.Pairwise (·.seq < ·.seq)
  cutsIncrease : ∀ cuts, s.db.auditCut = some cuts → cuts.Pairwise (·.seq < ·.seq)
  continues : ∃ chain, s.db.chainToContinue = .ok chain ∧ NextAfter s.everStored chain
  restarts : ∀ opening reading s' sink,
    s.step codec config (.service (.restart opening reading)) = some s' →
    s'.life.sink = some sink → NextAfter s.everStored sink.chain

theorem Inv.nextAfter (h : s.Inv codec records k) :
    NextAfter s.everStored (Chain.new.after records) := by
  have hnext : (Chain.new.after records).nextSeq = records.length + 1 := by
    rw [h.trail.continues.continued.after_nextSeq, Nat.add_comm]
    rfl
  rw [h.ever, NextAfter, hnext]
  constructor
  · intro row hrow
    obtain ⟨record, hrecord, rfl⟩ := List.mem_map.mp hrow
    obtain ⟨i, hi⟩ := List.mem_iff_getElem?.mp hrecord
    have hlt := (List.getElem?_eq_some_iff.mp hi).1
    have hseq := h.trail.seq hi
    rw [Database.rowOf_seq (h.trail.seq_lt hrecord)]
    omega
  · rcases List.eq_nil_or_concat' records with hnil | ⟨front, last, hconcat⟩
    · rw [hnil]
      exact .inl ⟨rfl, rfl⟩
    · have hlast : last ∈ records := by
        rw [hconcat]
        simp
      have hat : records[front.length]? = some last := by
        rw [hconcat]
        simp
      have hseq := h.trail.seq hat
      refine .inr ⟨rowOf last, List.mem_map_of_mem hlast, ?_⟩
      rw [Database.rowOf_seq (h.trail.seq_lt hlast), hconcat, List.length_append]
      simp only [List.length_singleton]
      omega

theorem Inv.whole (h : s.Inv codec records k) (config : Config) : s.Whole codec config := by
  refine ⟨?_, ?_, ?_, ?_, h.trail.increasing, ⟨_, h.trail.chainToContinue_eq, h.nextAfter⟩, ?_⟩
  · obtain ⟨start, hstart, hchain⟩ := h.trail.startOf_eq
    obtain ⟨verified, hverified⟩ := h.trail.verifyFrom hchain
    exact ⟨start, _, verified, hstart, h.trail.records_eq, hverified⟩
  · rw [h.ever, h.trail.log]
    exact (List.drop_suffix k records).map rowOf
  · intro hever
    rw [h.trail.log, ne_eq, List.map_eq_nil_iff, List.drop_eq_nil_iff]
    rcases h.trail.live with hlive | ⟨-, hnil⟩
    · omega
    · rw [h.ever, hnil] at hever
      exact absurd rfl hever
  · rw [h.ever]
    exact Database.pairwise_rows h.trail.continues.continued fun record hmem => h.trail.seq_lt hmem
  · intro opening reading s' sink hstep hsink
    cases hstep
    obtain ⟨devices, chain, -, hchain, hnew⟩ := AuditLife.restarted_sink hsink
    have hstored : s.db.chainToContinue = .ok chain := hchain
    rw [h.trail.chainToContinue_eq, Except.ok.injEq] at hstored
    rw [(AuditSink.new_eq_ok hnew).1, ← hstored]
    exact h.nextAfter

end Trail

/-- The log is empty although a cut is recorded, or it ends at or before the recorded cut. -/
def Database.Contradicts (db : Database) : Prop :=
  ∃ cut, db.auditCut.bind (·.getLast?) = some cut ∧
    ∀ row, latestRow db.auditLog = some row → row.seq ≤ cut.seq

theorem toNat_of_decodeCount {stored : Int} {count : Nat} (h : decodeCount stored = .ok count) :
    stored = count := by
  unfold decodeCount at h
  split at h
  · cases h
    omega
  · cases h

theorem Database.chainToContinue_refuses {db : Database} (h : db.Contradicts) :
    ∃ error, db.chainToContinue = .error error := by
  obtain ⟨row, hcut, hends⟩ := h
  cases hresult : db.chainToContinue with
  | error error => exact ⟨error, rfl⟩
  | ok chain =>
      -- both the head and the cut could be read
      exfalso
      obtain ⟨head, hhead, hresult⟩ := Loop.bind_eq_ok hresult
      obtain ⟨latest, hlatest, hresult⟩ := Loop.bind_eq_ok hresult
      unfold latestCutOf at hlatest
      rw [hcut] at hlatest
      obtain ⟨seq, hseq, hlatest⟩ := Loop.bind_eq_ok hlatest
      obtain ⟨hash, -, hlatest⟩ := Loop.bind_eq_ok hlatest
      obtain ⟨removed, -, hlatest⟩ := Loop.bind_eq_ok hlatest
      cases hlatest
      unfold headOf at hhead
      cases hrow : latestRow db.auditLog with
      | none =>
          rw [hrow] at hhead
          cases hhead
          cases hresult
      | some last =>
          rw [hrow] at hhead
          obtain ⟨lastSeq, hlastSeq, hhead⟩ := Loop.bind_eq_ok hhead
          obtain ⟨lastHash, -, hhead⟩ := Loop.bind_eq_ok hhead
          cases hhead
          have hle := hends last hrow
          have hcount := toNat_of_decodeCount hseq
          have hlastCount := toNat_of_decodeCount hlastSeq
          dsimp only at hresult
          rw [if_pos (by omega)] at hresult
          cases hresult

/-- Cuts, appends and restarts in any order keep the trail whole; a cut that is refused changes
nothing; and a table that contradicts the recorded cut is not continued. -/
theorem trail_stays_whole (codec : Codec) (config : Config) (hcodec : codec.ReadsBack) :
    (∀ s, Transition.Reachable Trail.Fresh (Trail.step codec config) (fun _ _ => True) s →
        s.Whole codec config) ∧
      (∀ (db : Database) (throughSeq : Nat) (throughHash : Hash) (nowMillis : Int)
        (anchor : Option String) (fault : Nat → Option String) (error : StoreError),
        (db.cut throughSeq throughHash nowMillis anchor fault).2 = .error error →
        (db.cut throughSeq throughHash nowMillis anchor fault).1 = db) ∧
      ∀ db : Database, db.Contradicts → ∃ error, db.chainToContinue = .error error := by
  refine ⟨?_, ?_, fun db h => Database.chainToContinue_refuses h⟩
  · intro s hs
    have hinv : s.Kept codec := by
      refine hs.invariant ?_ ?_
      · intro s hfresh
        exact ⟨[], 0, Trail.inv_fresh hfresh⟩
      · rintro s event s' ⟨records, k, h⟩ _ hstep
        exact h.step hcodec hstep
    obtain ⟨records, k, h⟩ := hinv
    exact h.whole config
  · intro db throughSeq throughHash nowMillis anchor fault error herror
    rcases Database.cut_cases db throughSeq throughHash nowMillis anchor fault with
      ⟨_, heq⟩ | ⟨cut, -, heq⟩
    · rw [heq]
    · rw [heq] at herror
      cases herror

namespace Sample

/-- Two records, a cut through the first, one through the head, which is refused, and a restart. -/
def cutAndRestarted : List TrailEvent :=
  [.service (.restart noFaults noFaults), .service (.record entry millis noFaults),
    .service (.record entry millis noFaults), .cut 1 hash1 millis none fun _ => none,
    .cut 2 hash2 millis none fun _ => none, .service (.restart noFaults noFaults),
    .service (.record entry millis noFaults)]

theorem trail_stays_whole_after_cut :
    ∃ s, Transition.run (Trail.step readingCodec storeAndFileConfig) ⟨start, []⟩ cutAndRestarted =
        some s ∧ s.db.auditLog.map (·.seq) = [2, 3] ∧ s.everStored.map (·.seq) = [1, 2, 3] ∧
      s.Whole readingCodec storeAndFileConfig := by
  have hrun : (Transition.run (Trail.step readingCodec storeAndFileConfig) ⟨start, []⟩
      cutAndRestarted).map (fun s => (s.db.auditLog.map (·.seq), s.everStored.map (·.seq))) =
        some ([2, 3], [1, 2, 3]) := by
    decide +kernel
  obtain ⟨s, hs, hrows⟩ := Option.map_eq_some_iff.mp hrun
  rw [Prod.mk.injEq] at hrows
  have hreachable : Transition.Reachable Trail.Fresh
      (Trail.step readingCodec storeAndFileConfig) (fun _ _ => True) s :=
    Transition.reachable_of_any_run cutAndRestarted (.start ⟨start_fresh, rfl⟩) hs
  exact ⟨s, hs, hrows.1, hrows.2,
    (trail_stays_whole readingCodec storeAndFileConfig readingCodec_readsBack).1 s hreachable⟩

end Sample

end Ciphr
