import Mathlib.Data.List.Nodup
import Ciphr.ServerDevices

/-!
Which devices a committed record stops. `AuditSink::record` collects the failures in one loop and
finds the devices they belong to in a second one by name, so that a failure also stops every other
device of the same name.
-/

namespace Ciphr

section Sink

variable {δ ω φ : Type} [AuditDevice δ ω φ]

/-- The write of device number `i` was refused. -/
def Failed (outcomes : List (Option (Except String Unit))) (i : Nat) : Prop :=
  ∃ reason, outcomes[i]? = some (some (.error reason))

namespace AuditSink

variable (codec : Codec) (sink : AuditSink δ) (world : ω) (io : Nat → φ)

/-- Of the devices that were written to, the record has stopped exactly those whose own write of it
failed, and one is still written to. -/
structure StopsExactly (entry : Entry) (nowMillis : Int) : Prop where
  exact : ∀ i slot slot', sink.slots[i]? = some slot →
    (sink.record codec world io entry nowMillis).1.2.slots[i]? = some slot' →
    slot.quarantined = none →
    (slot'.quarantined.isSome = true ↔ Failed (sink.outcomes codec world io entry nowMillis) i)
  writing : ∃ slot ∈ (sink.record codec world io entry nowMillis).1.2.slots, slot.quarantined = none

/-- Devices of one name all accept the record, or all refuse it. -/
def NamesAgree (entry : Entry) (nowMillis : Int) : Prop :=
  ∀ i j slot slot', sink.slots[i]? = some slot → sink.slots[j]? = some slot' →
    slot.quarantined = none → slot'.quarantined = none → slot.name = slot'.name →
    Failed (sink.outcomes codec world io entry nowMillis) i →
    Failed (sink.outcomes codec world io entry nowMillis) j

variable {codec sink world io} {entry : Entry} {nowMillis : Int}

theorem outcomes_of_commits {record : EncodedRecord} {attempts : ω × List (Attempt δ)}
    (h : Commits codec sink world io entry nowMillis record attempts) :
    sink.outcomes codec world io entry nowMillis = attempts.2.map (·.outcome) := by
  unfold AuditSink.outcomes
  rw [h.encoded, h.attempted]

theorem failed_iff {record : EncodedRecord} {attempts : ω × List (Attempt δ)}
    (h : Commits codec sink world io entry nowMillis record attempts) {i : Nat}
    {attempt : Attempt δ} (hattempt : attempts.2[i]? = some attempt) :
    Failed (sink.outcomes codec world io entry nowMillis) i ↔
      ∃ reason, attempt.outcome = some (.error reason) := by
  unfold Failed
  rw [outcomes_of_commits h, List.getElem?_map, hattempt, Option.map_some]
  simp only [Option.some.injEq]

end AuditSink

theorem Slot.afterCommit_isSome (seq : Nat) (failures : List DeviceFailure) {slot : Slot δ}
    (h : slot.quarantined = none) :
    (slot.afterCommit seq failures).quarantined.isSome = true ↔
      failures.any (·.device == slot.name) = true := by
  unfold Slot.afterCommit
  rw [h, Option.isNone_none, Bool.true_and]
  split
  · rename_i hany
    simp only [Option.isSome_some, hany]
  · rename_i hany
    simp only [h, Option.isSome_none, hany]

namespace AuditSink

variable {codec : Codec} {sink : AuditSink δ} {world : ω} {io : Nat → φ} {entry : Entry}
  {nowMillis : Int}

/-- The second loop of `record`: a device is stopped when some device of its name was refused. -/
theorem stopped_iff {written : Written}
    (h : (sink.record codec world io entry nowMillis).2 = .ok written) {i : Nat} {slot slot' : Slot δ}
    (hslot : sink.slots[i]? = some slot)
    (hslot' : (sink.record codec world io entry nowMillis).1.2.slots[i]? = some slot')
    (hwriting : slot.quarantined = none) :
    slot'.quarantined.isSome = true ↔
      ∃ j other, sink.slots[j]? = some other ∧ other.quarantined = none ∧ other.name = slot.name ∧
        Failed (sink.outcomes codec world io entry nowMillis) j := by
  obtain ⟨record, attempts, hcommits, -, hslots, -, -⟩ := record_eq_ok h
  have hattempts := hcommits.attempted
  subst hattempts
  obtain ⟨attempt, hattempt, hof⟩ := attemptAll_getElem? record io sink.slots 0 world hslot
  rw [hslots, List.getElem?_map, hattempt, Option.map_some, Option.some.injEq] at hslot'
  rw [← hslot', Slot.afterCommit_isSome _ _ (hof.quarantined.trans hwriting), any_failure_iff, hof.name]
  constructor
  · rintro ⟨other, hmem, hname, hfailed⟩
    obtain ⟨j, hj⟩ := List.mem_iff_getElem?.mp hmem
    obtain ⟨before, hbefore, hof'⟩ := attemptAll_slot record io sink.slots 0 world hj
    refine ⟨j, before, hbefore, ?_, hof'.name ▸ hname, (failed_iff hcommits hj).mpr hfailed⟩
    obtain ⟨reason, hreason⟩ := hfailed
    exact hof'.asked.mp (by simp [hreason])
  · rintro ⟨j, before, hbefore, -, hname, hfailed⟩
    obtain ⟨other, hj, hof'⟩ := attemptAll_getElem? record io sink.slots 0 world hbefore
    exact ⟨other, List.mem_of_getElem? hj, hof'.name.trans hname, (failed_iff hcommits hj).mp hfailed⟩

/-- Some device accepted a committed record. -/
theorem exists_writing {written : Written}
    (h : (sink.record codec world io entry nowMillis).2 = .ok written) :
    ∃ i slot slot', sink.slots[i]? = some slot ∧ slot.quarantined = none ∧
      (sink.record codec world io entry nowMillis).1.2.slots[i]? = some slot' ∧
      ¬ Failed (sink.outcomes codec world io entry nowMillis) i := by
  obtain ⟨record, attempts, hcommits, -, hslots, -, -⟩ := record_eq_ok h
  obtain ⟨attempt, hmem, hok⟩ := hcommits.accepted
  obtain ⟨i, hi⟩ := List.mem_iff_getElem?.mp hmem
  have hi' := hi
  rw [hcommits.attempted] at hi'
  obtain ⟨slot, hslot, hof⟩ := attemptAll_slot record io sink.slots 0 world hi'
  have hslot' : (sink.record codec world io entry nowMillis).1.2.slots[i]? =
      some (attempt.slot.afterCommit record.seq (attempts.2.filterMap (·.failure))) := by
    rw [hslots, List.getElem?_map, hi, Option.map_some]
  refine ⟨i, slot, _, hslot, hof.asked.mp (by simp [hok]), hslot', ?_⟩
  rw [failed_iff hcommits hi]
  rintro ⟨reason, hreason⟩
  rw [hok] at hreason
  cases hreason

/-- Devices of pairwise different names cannot disagree. -/
theorem namesAgree_of_nodup (h : (sink.slots.map (·.name)).Nodup) :
    sink.NamesAgree codec world io entry nowMillis := by
  intro i j slot slot' hslot hslot' _ _ hname hfailed
  have hi : (sink.slots.map (·.name))[i]? = some slot.name := by
    rw [List.getElem?_map, hslot, Option.map_some]
  have hj : (sink.slots.map (·.name))[j]? = some slot.name := by
    rw [List.getElem?_map, hslot', Option.map_some, hname]
  obtain ⟨hlt, hi⟩ := List.getElem?_eq_some_iff.mp hi
  obtain ⟨hlt', hj⟩ := List.getElem?_eq_some_iff.mp hj
  have hij : i = j := (List.Nodup.getElem_inj_iff h).mp (hi.trans hj.symm)
  exact hij ▸ hfailed

theorem stopsExactly_iff {written : Written}
    (h : (sink.record codec world io entry nowMillis).2 = .ok written) :
    sink.StopsExactly codec world io entry nowMillis ↔
      sink.NamesAgree codec world io entry nowMillis := by
  constructor
  · intro hexact i j slot slot' hslot hslot' hwriting hwriting' hname hfailed
    have hlt : j < (sink.record codec world io entry nowMillis).1.2.slots.length := by
      obtain ⟨record, attempts, hcommits, -, hslots, -, -⟩ := record_eq_ok h
      rw [hslots, List.length_map, hcommits.attempted, attemptAll_length]
      exact (List.getElem?_eq_some_iff.mp hslot').1
    refine (hexact.exact j slot' _ hslot' (List.getElem?_eq_getElem hlt) hwriting').mp ?_
    rw [stopped_iff h hslot' (List.getElem?_eq_getElem hlt) hwriting']
    exact ⟨i, slot, hslot, hwriting, hname, hfailed⟩
  · intro hagree
    have hexact : ∀ i slot slot', sink.slots[i]? = some slot →
        (sink.record codec world io entry nowMillis).1.2.slots[i]? = some slot' →
        slot.quarantined = none →
        (slot'.quarantined.isSome = true ↔
          Failed (sink.outcomes codec world io entry nowMillis) i) := by
      intro i slot slot' hslot hslot' hwriting
      rw [stopped_iff h hslot hslot' hwriting]
      constructor
      · rintro ⟨j, other, hother, hwriting', hname, hfailed⟩
        exact hagree j i other slot hother hslot hwriting' hwriting hname hfailed
      · intro hfailed
        exact ⟨i, slot, hslot, hwriting, rfl, hfailed⟩
    refine ⟨hexact, ?_⟩
    obtain ⟨i, slot, slot', hslot, hwriting, hslot', hfailed⟩ := exists_writing h
    refine ⟨slot', List.mem_of_getElem? hslot', ?_⟩
    rw [← hexact i slot slot' hslot hslot' hwriting] at hfailed
    simpa using hfailed

/-- A record that no device accepts stops none. -/
theorem quarantined_of_refused {error : AuditError}
    (h : (sink.record codec world io entry nowMillis).2 = .error error) :
    (sink.record codec world io entry nowMillis).1.2.slots.map (·.quarantined) =
      sink.slots.map (·.quarantined) := by
  rcases record_eq_error h with hsame | ⟨record, attempts, -, rfl, -, hafter⟩
  · rw [hsame]
  · rw [hafter, List.map_map]
    exact attemptAll_map_quarantined record io sink.slots world

/-- A committed record stops exactly the devices that refused it, and leaves one to write to, if and
only if no two of the devices written to have one name and different outcomes; a record that is not
committed stops none. -/
theorem record_stopsExactly_iff (codec : Codec) (sink : AuditSink δ) (world : ω) (io : Nat → φ)
    (entry : Entry) (nowMillis : Int) :
    (∀ written, (sink.record codec world io entry nowMillis).2 = .ok written →
      (sink.StopsExactly codec world io entry nowMillis ↔
        sink.NamesAgree codec world io entry nowMillis)) ∧
      ∀ error, (sink.record codec world io entry nowMillis).2 = .error error →
        (sink.record codec world io entry nowMillis).1.2.slots.map (·.quarantined) =
          sink.slots.map (·.quarantined) :=
  ⟨fun _ => stopsExactly_iff, fun _ => quarantined_of_refused⟩

end AuditSink

end Sink

/-! ### Two stanzas of one device -/

namespace Sample

def millis : Int := 1767225600000

def entry : Entry := (Entry.permitted .surfaceActive).withDetail "none"

def zeros : String := "0000000000000000000000000000000000000000000000000000000000000000"

/-- The hashes of the first three records at one time, and of a first record a second later. -/
def hash1 : Hash :=
  #v[0x31, 0x4f, 0xc8, 0xf2, 0xa0, 0xf3, 0x04, 0x19, 0xf5, 0x00, 0xea, 0xd3, 0xdd, 0xa3, 0x87, 0x4c,
    0x6f, 0xce, 0x29, 0xfd, 0x8b, 0xb5, 0x49, 0xd3, 0xd4, 0x47, 0x86, 0xd5, 0xd0, 0xba, 0x48, 0xf3]

def hash2 : Hash :=
  #v[0x59, 0x07, 0x93, 0x77, 0x1b, 0x22, 0x8a, 0xa7, 0x73, 0x1a, 0xf5, 0x50, 0x50, 0xe1, 0x41, 0xed,
    0xe2, 0xba, 0x6e, 0x38, 0x13, 0x64, 0x71, 0x9c, 0xac, 0x5a, 0x04, 0x8c, 0x77, 0xe4, 0x11, 0xe7]

def hash3 : Hash :=
  #v[0x00, 0x03, 0x70, 0x8b, 0x5c, 0x5d, 0xe6, 0x71, 0xb4, 0x42, 0x89, 0xc8, 0x41, 0xf6, 0xf8, 0x77,
    0xdb, 0x00, 0x35, 0xba, 0x1c, 0x6f, 0x46, 0xa5, 0x4a, 0xc7, 0x3c, 0x2c, 0xd7, 0x74, 0x6b, 0x5f]

def laterHash1 : Hash :=
  #v[0x9e, 0xfe, 0x27, 0x98, 0x8d, 0x9b, 0xeb, 0x87, 0x48, 0x94, 0x22, 0x77, 0xdb, 0xa1, 0xe1, 0x74,
    0xfa, 0xb0, 0x14, 0x13, 0xe2, 0xe1, 0x2a, 0x3c, 0x59, 0xb3, 0x83, 0x10, 0x32, 0xbc, 0x2a, 0xf0]

def ts : String := "2026-01-01T00:00:00.000Z"

def laterTs : String := "2026-01-01T00:00:01.000Z"

/-- What `serde_json` makes of a record of the entry. -/
def text (seq : Nat) (ts prevHash : String) : String :=
  "\x7b\"seq\":" ++ toString seq ++ ",\"ts\":\"" ++ ts ++ "\",\"prev_hash\":\"" ++ prevHash ++
    "\",\"entry\":\x7b\"principal\":null" ++ ",\"subject\":null" ++ ",\"action\":\"surface-active\"" ++
    ",\"path\":null" ++ ",\"version\":null" ++ ",\"allowed\":true" ++ ",\"deny_reason\":null" ++
    ",\"rule\":null" ++ ",\"results\":null" ++ ",\"detail\":\"none\"" ++
    ",\"request\":\x7b\"request_id\":null" ++ ",\"client_ip\":null" ++ ",\"user_agent\":null" ++
    ",\"http_status\":null" ++ ",\"channel\":null\x7d\x7d\x7d"

def payload1 : String := text 1 ts zeros

def payload2 : String :=
  text 2 ts "314fc8f2a0f30419f500ead3dda3874c6fce29fd8bb549d3d44786d5d0ba48f3"

def payload3 : String :=
  text 3 ts "590793771b228aa7731af55050e141ede2ba6e381364719cac5a048c77e411e7"

def laterPayload1 : String := text 1 laterTs zeros

/-- The four records, with what they are serialized to and hashed to. -/
def table : List (Record × String × Hash) :=
  [(⟨1, ts, zeros, entry⟩, payload1, hash1),
    (⟨2, ts, "314fc8f2a0f30419f500ead3dda3874c6fce29fd8bb549d3d44786d5d0ba48f3", entry⟩, payload2, hash2),
    (⟨3, ts, "590793771b228aa7731af55050e141ede2ba6e381364719cac5a048c77e411e7", entry⟩, payload3, hash3),
    (⟨1, laterTs, zeros, entry⟩, laterPayload1, laterHash1)]

/-- SHA-256 and `serde_json` on the four records; other texts are torn ones. -/
def codec : Codec where
  sha256 := fun bytes =>
    match table.find? (fun row => bytes == row.2.1.toUTF8.data.toList) with
    | some row => row.2.2
    | none => genesis
  recordToString := fun record =>
    match table.find? (fun row => record == row.1) with
    | some row => .ok row.2.1
    | none => .error "not asked for"
  headerFromStr := fun _ => .error "not asked for"
  valueSeq := fun text =>
    match table.find? (fun row => text == row.2.1) with
    | some row => .ok (some row.1.seq)
    | none => .error "EOF while parsing an object at line 1 column 8"

def world : AuditWorld := ⟨⟨[], some []⟩, fun _ => .empty⟩

def noFaults : Nat → DeviceFault := fun _ => {}

/-- Two stanzas of the store device. -/
def storeTwice : Config := ⟨"/var/lib/ciphr/store.db", [.sqlite, .sqlite], [], []⟩

def storeTwiceSink : AuditSink Device :=
  ⟨[⟨.sqlite ⟨"sqlite:/var/lib/ciphr/store.db"⟩, none⟩, ⟨.sqlite ⟨"sqlite:/var/lib/ciphr/store.db"⟩, none⟩],
    .new⟩

/-- The second device finds the first one's row under its sequence number. The failure stops both,
and nothing is left to write to. -/
theorem second_store_device_stops_both :
    storeTwice.validate = .ok () ∧
      (openDevices storeTwice world noFaults).2 = .ok (storeTwiceSink.slots.map (·.device)) ∧
      AuditSink.new codec world (storeTwiceSink.slots.map (·.device)) .new noFaults =
        .ok storeTwiceSink ∧
      (∃ written, (storeTwiceSink.record codec world noFaults entry millis).2 = .ok written) ∧
      ¬ storeTwiceSink.StopsExactly codec world noFaults entry millis := by
  refine ⟨by decide +kernel, by decide +kernel, by decide +kernel, ?_, ?_⟩
  · have hok : (storeTwiceSink.record codec world noFaults entry millis).2.toOption.isSome = true := by
      decide +kernel
    cases hresult : (storeTwiceSink.record codec world noFaults entry millis).2 with
    | error error =>
        rw [hresult] at hok
        cases hok
    | ok written => exact ⟨written, rfl⟩
  · rintro ⟨-, slot, hmem, hnone⟩
    have hall : (storeTwiceSink.record codec world noFaults entry millis).1.2.slots.all
        (·.quarantined.isSome) = true := by
      decide +kernel
    rw [List.all_eq_true] at hall
    have := hall slot hmem
    rw [hnone] at this
    cases this

def storeAndFile : AuditSink Device :=
  ⟨[⟨.sqlite ⟨"sqlite:/var/lib/ciphr/store.db"⟩, none⟩,
    ⟨.file ⟨"file:/var/log/ciphr/audit.jsonl", "/var/log/ciphr/audit.jsonl", 0, 0, none⟩, none⟩], .new⟩

/-- The disk of the file device is full. -/
def diskFull : Nat → DeviceFault
  | 1 => { file := { write := some (100, "No space left on device (os error 28)") } }
  | _ => {}

/-- The disk of the file device is full, and the database is locked. -/
def nothingWrites : Nat → DeviceFault
  | 0 => { database := some "database is locked" }
  | i => diskFull i

/-- The full disk stops the file device; where the database takes nothing either, both stay. -/
theorem record_stopsExactly_with_full_disk :
    storeAndFile.StopsExactly codec world diskFull entry millis ∧
      (storeAndFile.record codec world nothingWrites entry millis).1.2.slots.map (·.quarantined) =
        [none, none] := by
  have hok : (storeAndFile.record codec world diskFull entry millis).2 =
      .ok ⟨1, hash1, [⟨"file:/var/log/ciphr/audit.jsonl",
        "could not write to /var/log/ciphr/audit.jsonl: No space left on device (os error 28)"⟩],
        [⟨"file:/var/log/ciphr/audit.jsonl", some 0, 1⟩]⟩ := by
    decide +kernel
  have hrefused : (storeAndFile.record codec world nothingWrites entry millis).2.toOption.isSome = false := by
    decide +kernel
  refine ⟨((AuditSink.record_stopsExactly_iff codec storeAndFile world diskFull entry millis).1
    _ hok).mpr ?_, ?_⟩
  · exact AuditSink.namesAgree_of_nodup (by decide +kernel)
  · cases hresult : (storeAndFile.record codec world nothingWrites entry millis).2 with
    | ok written =>
        rw [hresult] at hrefused
        cases hrefused
    | error error =>
        exact (AuditSink.record_stopsExactly_iff codec storeAndFile world nothingWrites entry millis).2
          error hresult

end Sample

end Ciphr
