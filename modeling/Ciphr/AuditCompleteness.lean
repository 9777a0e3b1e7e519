import Ciphr.AuditContinuation
import Ciphr.AuditQuarantine

/-!
The records that a process commits, over whole runs: of a chain that is asked to encode and to commit,
and of a sink whose devices refuse records in any pattern. A number is a `u64`; a run ends where the
addition in `commit` would leave it.
-/

namespace Ciphr

/-- What is known of the records committed since `start`, when `chain` is the chain after them. -/
structure CompleteChain (codec : Codec) (start : Start) (committed : List EncodedRecord)
    (chain : Chain) : Prop where
  numbered : ∀ i record, committed[i]? = some record → record.seq = start.firstSeq + i
  verifies : ∀ copies, List.Forall₂ StoredRecord.CopyOf committed copies →
    ∃ verified, codec.verifyFrom start copies = .ok verified ∧
      verified.records = committed.length ∧ verified.headHash = chain.prevHash ∧
      ∀ last, committed.getLast? = some last → verified.headSeq = last.seq
  head : chain.nextSeq = start.firstSeq + committed.length ∧
    ∀ last, committed.getLast? = some last →
      last.seq + 1 = chain.nextSeq ∧ last.hash = chain.prevHash

/-- The chain is the one after the records, which continue it from its start. -/
structure CommittedSince (codec : Codec) (start : Start) (committed : List EncodedRecord)
    (chain : Chain) : Prop where
  continues : start.chain.Continues codec committed
  after : chain = start.chain.after committed
  fits : chain.nextSeq < 2 ^ 64

namespace CommittedSince

variable {codec : Codec} {start : Start} {committed : List EncodedRecord} {chain : Chain}

theorem begin (hfits : start.chain.nextSeq < 2 ^ 64) :
    CommittedSince codec start [] start.chain :=
  ⟨Chain.continues_nil, rfl, hfits⟩

theorem snoc {record : EncodedRecord} (h : CommittedSince codec start committed chain)
    (hnext : chain.Next codec record) (hfits : chain.nextSeq + 1 < 2 ^ 64) :
    CommittedSince codec start (committed ++ [record]) ⟨chain.nextSeq + 1, record.hash⟩ := by
  refine ⟨h.continues.concat (h.after ▸ hnext), ?_, hfits⟩
  rw [Chain.after_concat, hnext.seq]
  rfl

theorem nextSeq (h : CommittedSince codec start committed chain) :
    start.chain.nextSeq + committed.length < 2 ^ 64 ∧
      chain.nextSeq = start.firstSeq + committed.length := by
  have hfits := h.fits
  rw [h.after, h.continues.continued.after_nextSeq] at hfits
  refine ⟨hfits, ?_⟩
  rw [h.after, h.continues.continued.after_nextSeq, Start.chain_nextSeq (by omega)]

theorem seq (h : CommittedSince codec start committed chain) {i : Nat} {record : EncodedRecord}
    (hi : committed[i]? = some record) : record.seq = start.firstSeq + i := by
  rw [h.continues.continued.seq hi, Start.chain_nextSeq (by have := h.nextSeq.1; omega)]

theorem complete (h : CommittedSince codec start committed chain) :
    CompleteChain codec start committed chain := by
  refine ⟨fun i record hi => h.seq hi, ?_, h.nextSeq.2, ?_⟩
  · intro copies hcopies
    obtain ⟨verified, hverified, hhash, hrecords, hhead⟩ :=
      Codec.verifyFrom_continues hcopies h.continues h.nextSeq.1
    exact ⟨verified, hverified, hrecords, hhash.trans (congrArg Chain.prevHash h.after.symm), hhead⟩
  · intro last hlast
    obtain ⟨front, rfl⟩ := List.getLast?_eq_some_iff.mp hlast
    constructor
    · have hat : (front ++ [last])[front.length]? = some last := by simp
      rw [h.seq hat, h.nextSeq.2, List.length_append, List.length_singleton, Nat.add_assoc]
    · rw [h.after, Chain.after_concat]
      rfl

end CommittedSince

/-! ### A chain that is asked to encode and to commit -/

/-- A chain, what it has encoded, and what was committed to it. -/
structure ChainRun where
  chain : Chain
  encoded : List EncodedRecord
  committed : List EncodedRecord

inductive ChainCall where
  | encode (entry : Entry) (nowMillis : Int)
  | commit (record : EncodedRecord)

namespace ChainRun

def Begins (start : Start) (s : ChainRun) : Prop :=
  s = ⟨start.chain, [], []⟩ ∧ start.chain.nextSeq < 2 ^ 64

/-- Nothing, where the source panics: at a record of another number, and at the last number. -/
def step (codec : Codec) (s : ChainRun) : ChainCall → Option ChainRun
  | .encode entry nowMillis =>
      match s.chain.encode codec entry nowMillis with
      | .ok record => some { s with encoded := s.encoded ++ [record] }
      | .error _ => some s
  | .commit record =>
      if h : record ∈ s.encoded ∧ record.seq = s.chain.nextSeq ∧ s.chain.nextSeq + 1 < 2 ^ 64 then
        some { s with chain := s.chain.commit record h.2.1, committed := s.committed ++ [record] }
      else none

/-- An encoded record that could still be committed is the next one of the chain: the others have
numbers that are taken. -/
structure Inv (codec : Codec) (start : Start) (s : ChainRun) : Prop where
  since : CommittedSince codec start s.committed s.chain
  taken : ∀ record ∈ s.encoded, record.seq ≤ s.chain.nextSeq
  next : ∀ record ∈ s.encoded, record.seq = s.chain.nextSeq → s.chain.Next codec record

variable {codec : Codec} {start : Start} {s s' : ChainRun}

theorem Inv.encode (hcodec : codec.ReadsBack) (h : Inv codec start s) {entry : Entry}
    {nowMillis : Int} (hstep : s.step codec (.encode entry nowMillis) = some s') :
    Inv codec start s' := by
  unfold step at hstep
  dsimp only at hstep
  split at hstep
  · rename_i record hencode
    cases hstep
    have hnext := Chain.next_of_encode hcodec hencode h.since.fits
    refine ⟨h.since, ?_, ?_⟩
    · intro other hother
      rcases List.mem_append.mp hother with hold | hnew
      · exact h.taken other hold
      · rw [List.mem_singleton.mp hnew, hnext.seq]
    · intro other hother hseq
      rcases List.mem_append.mp hother with hold | hnew
      · exact h.next other hold hseq
      · rw [List.mem_singleton.mp hnew]
        exact hnext
  · cases hstep
    exact h

theorem Inv.commit (h : Inv codec start s) {record : EncodedRecord}
    (hstep : s.step codec (.commit record) = some s') : Inv codec start s' := by
  unfold step at hstep
  dsimp only at hstep
  split at hstep
  · rename_i hcommit
    obtain ⟨hmem, hseq, hfits⟩ := hcommit
    cases hstep
    refine ⟨h.since.snoc (h.next record hmem hseq) hfits, ?_, ?_⟩
    · intro other hother
      exact (h.taken other hother).trans (Nat.le_succ _)
    · -- no record has been encoded for the number that the chain has just come to
      intro other hother hnew
      have hle := h.taken other hother
      change other.seq = s.chain.nextSeq + 1 at hnew
      omega
  · cases hstep

theorem Inv.step (hcodec : codec.ReadsBack) (h : Inv codec start s) {call : ChainCall}
    (hstep : s.step codec call = some s') : Inv codec start s' := by
  cases call with
  | encode entry nowMillis => exact h.encode hcodec hstep
  | commit record => exact h.commit hstep

end ChainRun

/-! ### A sink whose devices may refuse -/

/-- One call of `record`, with the clock and what each device meets. -/
structure SinkCall (φ : Type) where
  entry : Entry
  nowMillis : Int
  io : Nat → φ

/-- The sink of one process, what has been committed since it began, and what the device of each slot
has accepted. -/
structure AuditProcess (δ ω : Type) where
  world : ω
  sink : AuditSink δ
  committed : List EncodedRecord
  held : Nat → List EncodedRecord

namespace AuditProcess

variable {δ ω φ : Type} [AuditDevice δ ω φ]

def Begins (codec : Codec) (start : Start) (p : AuditProcess δ ω) : Prop :=
  (∃ devices io, AuditSink.new codec p.world devices start.chain io = .ok p.sink) ∧
    p.committed = [] ∧ p.held = (fun _ => []) ∧ start.chain.nextSeq < 2 ^ 64

/-- What the device of slot `i` keeps of a record. -/
def accepted (outcomes : List (Option (Except String Unit))) (record : EncodedRecord) (i : Nat) :
    List EncodedRecord :=
  match outcomes[i]? with
  | some (some (.ok ())) => [record]
  | _ => []

def step (codec : Codec) (p : AuditProcess δ ω) (call : SinkCall φ) :
    Option (AuditProcess δ ω) :=
  let outcome := p.sink.record codec p.world call.io call.entry call.nowMillis
  match p.sink.chain.encode codec call.entry call.nowMillis with
  | .error _ => some { p with world := outcome.1.1, sink := outcome.1.2 }
  | .ok record =>
      let outcomes := p.sink.outcomes codec p.world call.io call.entry call.nowMillis
      let held := fun i => p.held i ++ accepted outcomes record i
      match outcome.2 with
      | .error _ => some ⟨outcome.1.1, outcome.1.2, p.committed, held⟩
      | .ok _ =>
          if p.sink.chain.nextSeq + 1 < 2 ^ 64 then
            some ⟨outcome.1.1, outcome.1.2, p.committed ++ [record], held⟩
          else none

/-- What the device of a slot has accepted, against what was committed since `start`. A device that
is stopped during the run has accepted what came before the record it is stopped at, and that record
only where it is stopped for the failure of another device of its name. -/
structure Holds (start : Start) (committed held : List EncodedRecord)
    (before now : Option Quarantined) : Prop where
  prefixed : held <+: committed
  writing : now = none → before = none ∧ held = committed
  stopped : ∀ stop, now = some stop →
    (before = some stop ∧ held = []) ∨
      (before = none ∧ ∃ k < committed.length, stop.missedFrom = start.firstSeq + k ∧
        (held = committed.take k ∨ held = committed.take (k + 1)))

omit [AuditDevice δ ω φ] in
theorem accepted_eq_nil {outcomes : List (Option (Except String Unit))} {record : EncodedRecord}
    {i : Nat} (h : ∀ outcome ∈ outcomes, outcome ≠ some (.ok ())) :
    accepted outcomes record i = [] := by
  unfold accepted
  split
  · rename_i hsome
    exact absurd rfl (h _ (List.mem_of_getElem? hsome))
  · rfl

/-- One call has left a process as it was, or has committed a record. -/
theorem step_cases {codec : Codec} {p p' : AuditProcess δ ω} {call : SinkCall φ}
    (h : p.step codec call = some p') :
    (p'.sink.chain = p.sink.chain ∧ p'.committed = p.committed ∧ p'.held = p.held ∧
        ∀ (i : Nat) (slot' : Slot δ), p'.sink.slots[i]? = some slot' →
          ∃ slot : Slot δ, p.sink.slots[i]? = some slot ∧ slot'.quarantined = slot.quarantined) ∨
      ∃ record attempts, AuditSink.Commits codec p.sink p.world call.io call.entry call.nowMillis
          record attempts ∧ p.sink.chain.nextSeq + 1 < 2 ^ 64 ∧
        p'.sink.chain = ⟨p.sink.chain.nextSeq + 1, record.hash⟩ ∧ p'.committed = p.committed ++ [record] ∧
        (∀ i, p'.held i = p.held i ++ accepted (attempts.2.map (·.outcome)) record i) ∧
        p'.sink.slots = attempts.2.map fun attempt =>
          attempt.slot.afterCommit record.seq (attempts.2.filterMap (·.failure)) := by
  unfold step at h
  dsimp only at h
  split at h
  · rename_i error hencode
    have hsame : p.sink.record codec p.world call.io call.entry call.nowMillis =
        ((p.world, p.sink), .error error) := AuditSink.record_of_encode_error hencode
    rw [hsame, Option.some.injEq] at h
    subst h
    exact .inl ⟨rfl, rfl, rfl, fun i slot hslot => ⟨slot, hslot, rfl⟩⟩
  · rename_i record hencode
    rw [AuditSink.outcomes_of_encode hencode] at h
    split at h
    · rename_i error hresult
      rw [Option.some.injEq] at h
      subst h
      obtain ⟨hnone, hafter⟩ := AuditSink.record_eq_error_of_encode hencode hresult
      rw [hafter]
      refine .inl ⟨rfl, rfl, ?_, ?_⟩
      · funext i
        dsimp only
        rw [accepted_eq_nil (by simpa using hnone), List.append_nil]
      · intro i slot' hslot'
        rw [List.getElem?_map, Option.map_eq_some_iff] at hslot'
        obtain ⟨attempt, hattempt, rfl⟩ := hslot'
        obtain ⟨slot, hslot, hof⟩ := attemptAll_slot record call.io p.sink.slots 0 p.world hattempt
        exact ⟨slot, hslot, hof.quarantined⟩
    · rename_i written hresult
      split at h
      · rename_i hfits
        rw [Option.some.injEq] at h
        subst h
        obtain ⟨other, attempts, hcommits, -, hslots, hchain, -⟩ := AuditSink.record_eq_ok hresult
        have hother := hcommits.encoded
        rw [hencode, Except.ok.injEq] at hother
        subst hother
        refine .inr ⟨record, attempts, hcommits, hfits, hchain, rfl, ?_, hslots⟩
        intro i
        rw [hcommits.attempted]
      · cases h

section Holds

variable {start : Start} {committed held : List EncodedRecord} {before now : Option Quarantined}
  {record : EncodedRecord}

/-- A device that was stopped keeps what it has. -/
theorem Holds.keep {stop : Quarantined} (h : Holds start committed held before (some stop)) :
    Holds start (committed ++ [record]) held before (some stop) := by
  refine ⟨h.prefixed.trans (List.prefix_append _ _), by simp, ?_⟩
  intro other hother
  rcases h.stopped other hother with hbefore | ⟨hnone, k, hk, hmissed, hheld⟩
  · exact .inl hbefore
  · refine .inr ⟨hnone, k, by rw [List.length_append]; omega, hmissed, ?_⟩
    rw [List.take_append_of_le_length (by omega), List.take_append_of_le_length (by omega)]
    exact hheld

theorem Holds.accept (h : Holds start committed held before none) :
    Holds start (committed ++ [record]) (held ++ [record]) before none := by
  obtain ⟨hbefore, rfl⟩ := h.writing rfl
  exact ⟨List.prefix_rfl, fun _ => ⟨hbefore, rfl⟩, by simp⟩

/-- A device that has accepted everything so far is stopped at a record, which it has accepted or
not. -/
theorem Holds.stop {more : List EncodedRecord} {stop : Quarantined}
    (h : Holds start committed held before none)
    (hmore : more = [] ∨ more = [record])
    (hmissed : stop.missedFrom = start.firstSeq + committed.length) :
    Holds start (committed ++ [record]) (held ++ more) before (some stop) := by
  obtain ⟨hbefore, rfl⟩ := h.writing rfl
  refine ⟨?_, by simp, ?_⟩
  · rcases hmore with rfl | rfl
    · rw [List.append_nil]
      exact List.prefix_append _ _
    · exact List.prefix_rfl
  · intro other hother
    rw [Option.some.injEq] at hother
    subst hother
    refine .inr ⟨hbefore, held.length, by simp, hmissed, ?_⟩
    rcases hmore with rfl | rfl
    · exact .inl (by simp)
    · exact .inr (List.take_of_length_le (by simp)).symm

end Holds

theorem accepted_cases (outcomes : List (Option (Except String Unit))) (record : EncodedRecord)
    (i : Nat) : accepted outcomes record i = [] ∨ accepted outcomes record i = [record] := by
  unfold accepted
  split
  · exact .inr rfl
  · exact .inl rfl

/-- The slot of a device after a record was committed, and what the device has accepted by then. -/
theorem Holds.commit {start : Start} {committed held : List EncodedRecord}
    {before : Option Quarantined} {slot : Slot δ} {attempts : List (Attempt δ)} {attempt : Attempt δ}
    {record : EncodedRecord} {i : Nat} (h : Holds start committed held before slot.quarantined)
    (hattempt : attempts[i]? = some attempt) (hof : Attempt.Of slot attempt)
    (hseq : record.seq = start.firstSeq + committed.length) :
    Holds start (committed ++ [record]) (held ++ accepted (attempts.map (·.outcome)) record i) before
      (attempt.slot.afterCommit record.seq (attempts.filterMap (·.failure))).quarantined := by
  have hat : (attempts.map (·.outcome))[i]? = some attempt.outcome := by
    rw [List.getElem?_map, hattempt]
    rfl
  unfold Slot.afterCommit
  cases hquarantined : slot.quarantined with
  | some stop =>
      rw [hquarantined] at h
      have hasked : attempt.outcome = none := by
        by_contra hne
        have := hof.asked.mp (Option.isSome_iff_ne_none.mpr hne)
        rw [hquarantined] at this
        cases this
      have hnothing : accepted (attempts.map (·.outcome)) record i = [] := by
        rw [accepted, hat, hasked]
      rw [hnothing, List.append_nil, hof.quarantined, hquarantined, if_neg (by simp),
        hof.quarantined, hquarantined]
      exact h.keep
  | none =>
      rw [hquarantined] at h
      rw [hof.quarantined, hquarantined]
      by_cases hfailed : (attempts.filterMap (·.failure)).any (·.device == attempt.slot.name) = true
      · rw [hfailed, if_pos (by simp)]
        exact h.stop (accepted_cases _ _ _) hseq
      · have hwriting : (attempt.slot.afterCommit record.seq
            (attempts.filterMap (·.failure))).quarantined = none := by
          rw [Slot.afterCommit, if_neg (by simp [hfailed]), hof.quarantined, hquarantined]
        have hok := (hof.accepted (List.mem_of_getElem? hattempt) hwriting).2
        rw [if_neg (by simp [hfailed]), hof.quarantined, hquarantined]
        have hone : accepted (attempts.map (·.outcome)) record i = [record] := by
          rw [accepted, hat, hok]
        rw [hone]
        exact h.accept

/-- The invariant of a process that began at `start` with the devices in `before` stopped. -/
structure Inv (codec : Codec) (start : Start) (before : Nat → Option Quarantined)
    (p : AuditProcess δ ω) : Prop where
  since : CommittedSince codec start p.committed p.sink.chain
  holds : ∀ (i : Nat) (slot : Slot δ), p.sink.slots[i]? = some slot →
    Holds start p.committed (p.held i) (before i) slot.quarantined

theorem Inv.step {codec : Codec} {start : Start} {before : Nat → Option Quarantined}
    {p p' : AuditProcess δ ω} (hcodec : codec.ReadsBack) (h : Inv codec start before p)
    {call : SinkCall φ} (hstep : p.step codec call = some p') : Inv codec start before p' := by
  obtain ⟨hchain, hcommitted, hheld, hslots⟩ |
    ⟨record, attempts, hcommits, hfits, hchain, hcommitted, hheld, hslots⟩ := step_cases hstep
  · refine ⟨?_, ?_⟩
    · rw [hchain, hcommitted]
      exact h.since
    · intro i slot' hslot'
      obtain ⟨slot, hslot, hquarantined⟩ := hslots i slot' hslot'
      rw [hcommitted, hheld, hquarantined]
      exact h.holds i slot hslot
  · have hnext := Chain.next_of_encode hcodec hcommits.encoded h.since.fits
    refine ⟨?_, ?_⟩
    · rw [hchain, hcommitted]
      exact h.since.snoc hnext hfits
    · intro i slot' hslot'
      rw [hslots, List.getElem?_map, Option.map_eq_some_iff] at hslot'
      obtain ⟨attempt, hattempt, rfl⟩ := hslot'
      have hof := hattempt
      rw [hcommits.attempted] at hof
      obtain ⟨slot, hslot, hof⟩ := attemptAll_slot record call.io p.sink.slots 0 p.world hof
      rw [hcommitted, hheld]
      exact (h.holds i slot hslot).commit hattempt hof (hnext.seq.trans h.since.nextSeq.2)

end AuditProcess

/-- Where a process began, which devices were stopped there, and what holds of it later. -/
structure CompleteProcess {δ ω φ : Type} [AuditDevice δ ω φ] (codec : Codec) (start : Start)
    (p₀ p : AuditProcess δ ω) : Prop where
  complete : CompleteChain codec start p.committed p.sink.chain
  /-- A record that no device accepts changes neither the chain nor the quarantines. -/
  refused : ∀ call : SinkCall φ,
    (∀ outcome ∈ p.sink.outcomes codec p.world call.io call.entry call.nowMillis,
      outcome ≠ some (.ok ())) →
    (∃ error, (p.sink.record codec p.world call.io call.entry call.nowMillis).2 = .error error) ∧
      (p.sink.record codec p.world call.io call.entry call.nowMillis).1.2.chain = p.sink.chain ∧
      (p.sink.record codec p.world call.io call.entry call.nowMillis).1.2.slots.map
        (·.quarantined) = p.sink.slots.map (·.quarantined)
  holds : ∀ (i : Nat) (slot₀ slot : Slot δ), p₀.sink.slots[i]? = some slot₀ →
    p.sink.slots[i]? = some slot →
    AuditProcess.Holds start p.committed (p.held i) slot₀.quarantined slot.quarantined

section Main

variable {δ ω φ : Type} [AuditDevice δ ω φ]

theorem AuditSink.record_of_refused {codec : Codec} {sink : AuditSink δ} {world : ω}
    {call : SinkCall φ}
    (h : ∀ outcome ∈ sink.outcomes codec world call.io call.entry call.nowMillis,
      outcome ≠ some (.ok ())) :
    (∃ error, (sink.record codec world call.io call.entry call.nowMillis).2 = .error error) ∧
      (sink.record codec world call.io call.entry call.nowMillis).1.2.chain = sink.chain ∧
      (sink.record codec world call.io call.entry call.nowMillis).1.2.slots.map (·.quarantined) =
        sink.slots.map (·.quarantined) := by
  cases hresult : (sink.record codec world call.io call.entry call.nowMillis).2 with
  | ok written =>
      obtain ⟨record, attempts, hcommits, -⟩ := AuditSink.record_eq_ok hresult
      obtain ⟨attempt, hmem, hok⟩ := hcommits.accepted
      rw [AuditSink.outcomes_of_encode hcommits.encoded, ← hcommits.attempted] at h
      exact absurd hok (h _ (List.mem_map_of_mem hmem))
  | error error =>
      refine ⟨⟨error, rfl⟩, ?_⟩
      obtain hsame | ⟨record, attempts, -, hattempts, -, hafter⟩ :=
        AuditSink.record_eq_error hresult
      · rw [hsame]
        exact ⟨rfl, rfl⟩
      · rw [hafter, hattempts]
        refine ⟨rfl, ?_⟩
        rw [List.map_map]
        exact attemptAll_map_quarantined record call.io sink.slots world

theorem AuditProcess.Begins.inv {codec : Codec} {start : Start} {p : AuditProcess δ ω}
    (h : p.Begins codec start) :
    p.Inv codec start fun i => (p.sink.slots[i]?).bind (·.quarantined) := by
  obtain ⟨⟨devices, io, hnew⟩, hcommitted, hheld, hfits⟩ := h
  refine ⟨?_, ?_⟩
  · rw [hcommitted, (AuditSink.new_eq_ok hnew).1]
    exact .begin hfits
  · intro i slot hslot
    rw [hcommitted, hheld, hslot, Option.bind_some]
    refine ⟨List.prefix_rfl, fun hnone => ⟨hnone, rfl⟩, ?_⟩
    intro stop hstop
    exact .inl ⟨hstop, rfl⟩

/-- The committed records of every run of a chain, and of every run of a sink whatever its devices
refuse, carry the numbers from the start on, verify from it, and end at the head. -/
theorem chain_completeness (codec : Codec) (start : Start) (hcodec : codec.ReadsBack) :
    (∀ s : ChainRun, Transition.Reachable (ChainRun.Begins start) (ChainRun.step codec)
        (fun _ _ => True) s → CompleteChain codec start s.committed s.chain) ∧
      ∀ p₀ p : AuditProcess δ ω, p₀.Begins codec start →
        Transition.Reachable (· = p₀) (AuditProcess.step codec) (fun _ _ => True) p →
        CompleteProcess codec start p₀ p := by
  constructor
  · intro s hs
    have hinv : ChainRun.Inv codec start s := by
      refine hs.invariant ?_ ?_
      · rintro _ ⟨rfl, hfits⟩
        exact ⟨.begin hfits, by simp, by simp⟩
      · intro s call s' hinv _ hstep
        exact hinv.step hcodec hstep
    exact hinv.since.complete
  · intro p₀ p hbegins hp
    have hinv : p.Inv codec start fun i => (p₀.sink.slots[i]?).bind (·.quarantined) := by
      refine hp.invariant ?_ ?_
      · rintro _ rfl
        exact hbegins.inv
      · intro p call p' hinv _ hstep
        exact hinv.step hcodec hstep
    refine ⟨hinv.since.complete, fun call hrefused => AuditSink.record_of_refused hrefused, ?_⟩
    intro i slot₀ slot hslot₀ hslot
    have hholds := hinv.holds i slot hslot
    rwa [hslot₀, Option.bind_some] at hholds

end Main

namespace Sample

/-- SHA-256 and `serde_json` on the records of a table, which are read back; other texts are torn ones. -/
def tabled (rows : List (Record × String × Hash)) : Codec where
  sha256 := fun bytes =>
    match rows.find? (fun row => bytes == row.2.1.toUTF8.data.toList) with
    | some row => row.2.2
    | none => genesis
  recordToString := fun record =>
    match rows.find? (fun row => record == row.1) with
    | some row => .ok row.2.1
    | none => .error "not asked for"
  headerFromStr := fun text =>
    match rows.find? (fun row => text == row.2.1) with
    | some row => .ok ⟨row.1.seq, row.1.prevHash⟩
    | none => .error "EOF while parsing an object at line 1 column 8"
  valueSeq := fun text =>
    match rows.find? (fun row => text == row.2.1) with
    | some row => .ok (some row.1.seq)
    | none => .error "EOF while parsing an object at line 1 column 8"

theorem tabled_readsBack {rows : List (Record × String × Hash)}
    (h : ∀ row ∈ rows, (tabled rows).headerFromStr row.2.1 = .ok ⟨row.1.seq, row.1.prevHash⟩) :
    (tabled rows).ReadsBack := by
  intro record text htext _
  unfold tabled at htext
  dsimp only at htext
  split at htext
  · rename_i row hrow
    have hrecord : record = row.1 := by
      simpa using List.find?_some (p := fun row : Record × String × Hash => record == row.1) hrow
    cases htext
    rw [h row (List.mem_of_find?_eq_some hrow), hrecord]
  · cases htext

/-- The codec of the sample records. -/
def readingCodec : Codec := tabled table

theorem readingCodec_readsBack : readingCodec.ReadsBack := tabled_readsBack (by decide +kernel)

/-- A store and a file device, at the start of the log. -/
def twoDevices : AuditProcess Device AuditWorld := ⟨world, storeAndFile, [], fun _ => []⟩

/-- Two records, on a disk that is full for the file device. -/
def twoRecords : Option (AuditProcess Device AuditWorld) :=
  (twoDevices.step readingCodec ⟨entry, millis, diskFull⟩).bind fun p =>
    p.step readingCodec ⟨entry, millis, diskFull⟩

theorem chain_completeness_with_full_disk :
    ∃ p, twoRecords = some p ∧ p.committed.map (·.seq) = [1, 2] ∧ p.held 1 = [] ∧
      CompleteProcess readingCodec .genesis twoDevices p := by
  have hfacts : twoRecords.map (fun p => (p.committed.map (·.seq), p.held 1)) =
      some ([1, 2], []) := by
    decide +kernel
  rw [Option.map_eq_some_iff] at hfacts
  obtain ⟨p, hp, hfacts⟩ := hfacts
  rw [Prod.mk.injEq] at hfacts
  refine ⟨p, hp, hfacts.1, hfacts.2, ?_⟩
  have hbegins : twoDevices.Begins readingCodec .genesis :=
    ⟨⟨storeAndFile.slots.map (·.device), noFaults, by decide +kernel⟩, rfl, rfl, by decide⟩
  obtain ⟨first, hfirst, hsecond⟩ := Option.bind_eq_some_iff.mp hp
  exact (chain_completeness readingCodec .genesis readingCodec_readsBack).2 twoDevices p hbegins
    (.next (.next (.start rfl) trivial hfirst) trivial hsecond)

end Sample

end Ciphr
