import Ciphr.LibTransition
import Ciphr.StoreInventory
import Ciphr.StoreVersioning

/-!
`ciphr-store/src/honeypots.rs`: marking a secret as bait, opening a trip and clearing the trips. A trip
is latched by the partial unique indexes of the schema, which an insert either meets or is refused by.
-/

namespace Ciphr

open Program

variable {u : Unicode}

/-! ### Marks -/

namespace SecretTables

variable {t : SecretTables} {produced : List (Produced u)}

/-- What `set_honeypot` sets in the row of a path. -/
def marked (tier : Option HoneypotTier) (row : SecretRow) : SecretRow :=
  { row with honeypotTier := tier.map HoneypotTier.asStr }

def setHoneypot (fault : SecretFault) (path : SecretPath u) (tier : Option HoneypotTier) :
    Statement Unit := do
  let changed ← updateSecrets fault (·.path == path.text) (marked tier)
  if changed = 0 then throw (.notFound path.text) else return ()

theorem Sound.mark (h : Sound t produced) (cond : SecretRow → Bool) (tier : Option HoneypotTier) :
    Sound (t.setSecrets cond (marked tier)) produced := by
  have hmapped := h.map (f := fun row => if cond row then marked tier row else row)
    (g := id) ?_ ?_ ?_ ?_ (fun v => .refl v)
  · rwa [List.map_id] at hmapped
  · intro row
    split <;> rfl
  · intro row
    split <;> rfl
  · intro row
    split <;> rfl
  · intro row hrow
    obtain ⟨rotation, hrotation⟩ := h.classified row hrow
    exact ⟨rotation, by split <;> exact hrotation⟩

theorem setHoneypot_sound (h : Sound t produced) (fault : SecretFault) (path : SecretPath u)
    (tier : Option HoneypotTier) : Sound (exec (setHoneypot fault path tier) t).2 produced := by
  unfold setHoneypot
  rcases updateSecrets_cases fault t (·.path == path.text) (marked tier) with ⟨e, herror⟩ | hok
  · rwa [exec_bind_error herror]
  · rw [exec_bind_ok hok]
    split
    · exact h.mark _ tier
    · exact h.mark _ tier

end SecretTables

/-- The operations that change what is stored of secrets. -/
inductive StoreOp (u : Unicode) where
  | secret (op : SecretOp u)
  | setHoneypot (path : SecretPath u) (tier : Option HoneypotTier)

namespace Versioning

variable {s : Versioning u}

/-- One operation of a store that bait is planted in, with what the database answers to its statements. -/
def stockStep (s : Versioning u) : StoreOp u × SecretFault → Option (Versioning u)
  | (.secret op, fault) => s.step (op, fault)
  | (.setHoneypot path tier, fault) =>
      some ⟨(exec (SecretTables.setHoneypot fault path tier) s.tables).2, s.produced⟩

/-- The states of a store. -/
def Stocked (s : Versioning u) : Prop :=
  Transition.Reachable (· = (⟨⟨[], []⟩, []⟩ : Versioning u)) stockStep (fun _ _ => True) s

theorem Stocked.sound (h : Stocked s) : s.tables.Sound s.produced := by
  refine @Transition.Reachable.invariant _ _ _ _ _ IsSound ?_ ?_ s h
  · rintro s rfl
    exact reachable_sound (.start rfl)
  · rintro s ⟨op, fault⟩ s' hs - hstep
    cases op with
    | secret op => exact (step_sound hs hstep).1
    | setHoneypot path tier =>
        cases hstep
        exact SecretTables.setHoneypot_sound hs fault path tier

end Versioning

/-! ### Trips -/

namespace TripRow

/-- What `trip_is_open` and the listings of bait look for. -/
def opens (kind : BaitKind) (reference : String) (row : TripRow) : Bool :=
  row.kind == kind.asStr &&
    (match kind with
      | .secret => row.path
      | .token => row.tokenId) == some reference && row.clearedAt.isNone

/-- The constraints on the columns of a row. -/
def Checked (row : TripRow) : Prop :=
  (row.kind = "secret" ∧ row.path.isSome ∧ row.tokenId = none ∨
    row.kind = "token" ∧ row.tokenId.isSome ∧ row.path = none) ∧ row.tier = "alert"

instance (row : TripRow) : Decidable row.Checked := by
  unfold Checked
  infer_instance

/-- What a row is in the index `tripwire_open_secret` under, where it is in the index. -/
def openSecret (row : TripRow) : Option String :=
  if row.kind = "secret" ∧ row.clearedAt = none then row.path else none

/-- What a row is in the index `tripwire_open_token` under. -/
def openToken (row : TripRow) : Option String :=
  if row.kind = "token" ∧ row.clearedAt = none then row.tokenId else none

end TripRow

namespace TripTable

/-- What the database answers instead of performing a statement on `tripwire`, if anything. -/
structure Fault where
  insert : Option String
  select : Option String
  update : Option String
  deriving DecidableEq, Repr

def noFault : Fault := ⟨none, none, none⟩

abbrev Statement (α : Type) := Program TripTable StoreError α

/-- A unique index takes a row unless it is there under the same text. -/
def indexTakes (key : TripRow → Option String) (trips : TripTable) (row : TripRow) : Bool :=
  (key row).all fun text => trips.all fun other => key other != some text

/-- The constraints that an insert is checked against. -/
def Admits (trips : TripTable) (row : TripRow) : Prop :=
  row.Checked ∧ indexTakes TripRow.openSecret trips row ∧ indexTakes TripRow.openToken trips row

instance (trips : TripTable) (row : TripRow) : Decidable (trips.Admits row) := by
  unfold Admits
  infer_instance

/-- The row that `latch_trip` inserts: the database numbers it after the rows that are there. -/
def newTrip (trips : TripTable) (kind : BaitKind) (reference : String) (identity : Option String)
    (tier : HoneypotTier) (now : Int) : TripRow where
  id := trips.foldl (fun last row => max last row.id) 0 + 1
  trippedAt := now
  kind := kind.asStr
  path := match kind with
    | .secret => some reference
    | .token => none
  tokenId := match kind with
    | .secret => none
    | .token => some reference
  identity := identity
  tier := tier.asStr
  clearedAt := none

def tripIsOpen (trips : TripTable) (fault : Fault) (kind : BaitKind) (reference : String) :
    Except StoreError Bool :=
  match fault.select with
  | some error => .error (.sqlite error)
  | none => .ok (trips.any (·.opens kind reference))

/-- Open a trip on one piece of bait, unless one is already open: `true` for the call that opened it. -/
def latchTrip (fault : Fault) (kind : BaitKind) (reference : String) (identity : Option String)
    (tier : HoneypotTier) (now : Int) : Statement Bool := do
  let trips ← getThe TripTable
  match fault.insert with
  | some error => throw (.sqlite error)
  | none =>
      if trips.Admits (trips.newTrip kind reference identity tier now) then do
        modify (· ++ [trips.newTrip kind reference identity tier now])
        return true
      else do
        -- which constraint refused the row is asked of the database
        let isOpen ← Program.ofExcept (trips.tripIsOpen fault kind reference)
        if isOpen then return false
        else throw (.sqlite "a tripwire row was refused and no trip is open")

/-- What `clear_trips` sets in the open rows. -/
def cleared (now : Int) (row : TripRow) : TripRow := { row with clearedAt := some now }

/-- Clear every open trip, and say how many there were. -/
def clearTrips (fault : Fault) (now : Int) : Statement Nat := do
  match fault.update with
  | some error => throw (.sqlite error)
  | none => do
      let trips ← getThe TripTable
      modify (·.map fun row => if row.clearedAt.isNone then cleared now row else row)
      return trips.countP (·.clearedAt.isNone)

/-- What the columns of the table promise: every row is one that was admitted, and each index has
every text once. -/
structure Sound (trips : TripTable) : Prop where
  checked : ∀ row ∈ trips, row.Checked
  secrets : (trips.filterMap TripRow.openSecret).Nodup
  tokens : (trips.filterMap TripRow.openToken).Nodup

theorem sound_nil : Sound [] := ⟨List.forall_mem_nil _, List.nodup_nil, List.nodup_nil⟩

theorem opens_iff {kind : BaitKind} {reference : String} {row : TripRow} :
    row.opens kind reference = true ↔ (match kind with
      | .secret => row.openSecret
      | .token => row.openToken) = some reference := by
  unfold TripRow.opens TripRow.openSecret TripRow.openToken
  cases kind with
  | secret =>
      simp only [BaitKind.asStr, Bool.and_eq_true, beq_iff_eq, Option.isNone_iff_eq_none]
      constructor
      · rintro ⟨⟨hkind, hpath⟩, hopen⟩
        rw [if_pos ⟨hkind, hopen⟩, hpath]
      · intro h
        split at h
        · rename_i hboth
          exact ⟨⟨hboth.1, h⟩, hboth.2⟩
        · cases h
  | token =>
      simp only [BaitKind.asStr, Bool.and_eq_true, beq_iff_eq, Option.isNone_iff_eq_none]
      constructor
      · rintro ⟨⟨hkind, htoken⟩, hopen⟩
        rw [if_pos ⟨hkind, hopen⟩, htoken]
      · intro h
        split at h
        · rename_i hboth
          exact ⟨⟨hboth.1, h⟩, hboth.2⟩
        · cases h

/-- An index with every text once has at most one row under each. -/
theorem length_filter_le_one {trips : TripTable} {key : TripRow → Option String}
    (h : (trips.filterMap key).Nodup) (text : String) :
    (trips.filter fun row => key row == some text).length ≤ 1 := by
  have hcount := List.nodup_iff_count_le_one.mp h text
  rwa [List.count_filterMap, List.countP_eq_length_filter] at hcount

/-- There is at most one open trip on a piece of bait. -/
theorem Sound.one_open {trips : TripTable} (h : Sound trips) (kind : BaitKind) (reference : String) :
    (trips.filter (·.opens kind reference)).length ≤ 1 := by
  cases kind with
  | secret =>
      refine le_of_eq_of_le (congrArg List.length ?_) (length_filter_le_one h.secrets reference)
      exact List.filter_congr fun row _ => Bool.eq_iff_iff.mpr (opens_iff.trans beq_iff_eq.symm)
  | token =>
      refine le_of_eq_of_le (congrArg List.length ?_) (length_filter_le_one h.tokens reference)
      exact List.filter_congr fun row _ => Bool.eq_iff_iff.mpr (opens_iff.trans beq_iff_eq.symm)

theorem nodup_of_indexTakes {trips : TripTable} {key : TripRow → Option String} {row : TripRow}
    (h : (trips.filterMap key).Nodup) (htakes : indexTakes key trips row = true) :
    ((trips ++ [row]).filterMap key).Nodup := by
  rw [List.filterMap_append]
  cases hkey : key row with
  | none =>
      rw [List.filterMap_cons_none hkey, List.filterMap_nil, List.append_nil]
      exact h
  | some text =>
      rw [List.filterMap_cons_some hkey, List.filterMap_nil, List.nodup_append]
      refine ⟨h, List.nodup_singleton text, ?_⟩
      intro other hother _ htext
      cases List.mem_singleton.mp htext
      rintro rfl
      obtain ⟨taken, htaken, hsame⟩ := List.mem_filterMap.mp hother
      unfold indexTakes at htakes
      rw [hkey, Option.all_some, List.all_eq_true] at htakes
      exact bne_iff_ne.mp (htakes taken htaken) hsame

theorem Sound.insert {trips : TripTable} (h : Sound trips) {row : TripRow} (hadmits : trips.Admits row) :
    Sound (trips ++ [row]) := by
  obtain ⟨hchecked, hsecret, htoken⟩ := hadmits
  refine ⟨fun other hother => ?_, nodup_of_indexTakes h.secrets hsecret, nodup_of_indexTakes h.tokens htoken⟩
  rcases List.mem_append.mp hother with hother | hother
  · exact h.checked other hother
  · rwa [List.mem_singleton.mp hother]

/-- What an insert of a new trip is refused for: an open one on the same bait. -/
theorem admits_newTrip_iff {trips : TripTable} {kind : BaitKind} {reference : String}
    {identity : Option String} {tier : HoneypotTier} {now : Int} :
    trips.Admits (trips.newTrip kind reference identity tier now) ↔
      trips.any (·.opens kind reference) = false := by
  have hany : ∀ key : TripRow → Option String, (∀ row : TripRow, row.opens kind reference = true ↔
      key row = some reference) → ((trips.all fun other => key other != some reference) = true ↔
        trips.any (·.opens kind reference) = false) := by
    intro key hkey
    rw [List.all_eq_true, List.any_eq_false]
    refine forall₂_congr fun row _ => ?_
    rw [bne_iff_ne, ne_eq, ← hkey row]
  unfold Admits
  cases kind with
  | secret =>
      have hsecret : (trips.newTrip .secret reference identity tier now).openSecret = some reference := rfl
      have htoken : (trips.newTrip .secret reference identity tier now).openToken = none := rfl
      have hchecked : (trips.newTrip .secret reference identity tier now).Checked := by
        cases tier with
        | alert => exact ⟨.inl ⟨rfl, rfl, rfl⟩, rfl⟩
      unfold indexTakes
      rw [hsecret, htoken, Option.all_some, Option.all_none, hany _ fun row => opens_iff]
      simp [hchecked]
  | token =>
      have hsecret : (trips.newTrip .token reference identity tier now).openSecret = none := rfl
      have htoken : (trips.newTrip .token reference identity tier now).openToken = some reference := rfl
      have hchecked : (trips.newTrip .token reference identity tier now).Checked := by
        cases tier with
        | alert => exact ⟨.inr ⟨rfl, rfl, rfl⟩, rfl⟩
      unfold indexTakes
      rw [hsecret, htoken, Option.all_some, Option.all_none, hany _ fun row => opens_iff]
      simp [hchecked]

/-! ### What the operations do -/

variable {trips trips' : TripTable} {kind : BaitKind} {reference : String}

/-- A new trip opens its bait. -/
theorem newTrip_opens (trips : TripTable) (kind : BaitKind) (reference : String) (identity : Option String)
    (tier : HoneypotTier) (now : Int) :
    (trips.newTrip kind reference identity tier now).opens kind reference = true := by
  unfold TripRow.opens newTrip
  cases kind <;> simp

/-- A trip is refused, found open already, or opened. -/
theorem latchTrip_cases (fault : Fault) (trips : TripTable) (kind : BaitKind) (reference : String)
    (identity : Option String) (tier : HoneypotTier) (now : Int) :
    (∃ e, exec (latchTrip fault kind reference identity tier now) trips = (.error e, trips)) ∨
      (trips.any (·.opens kind reference) = true ∧
        exec (latchTrip fault kind reference identity tier now) trips = (.ok false, trips)) ∨
      (trips.any (·.opens kind reference) = false ∧
        exec (latchTrip fault kind reference identity tier now) trips =
          (.ok true, trips ++ [trips.newTrip kind reference identity tier now])) := by
  unfold latchTrip
  rw [exec_bind_ok (exec_getThe trips)]
  cases hinsert : fault.insert with
  | some error => exact .inl ⟨_, rfl⟩
  | none =>
      dsimp only
      by_cases hadmits : trips.Admits (trips.newTrip kind reference identity tier now)
      · rw [if_pos hadmits]
        exact .inr (.inr ⟨admits_newTrip_iff.mp hadmits, rfl⟩)
      · rw [if_neg hadmits]
        have hopen : trips.any (·.opens kind reference) = true :=
          Bool.not_eq_false _ ▸ fun hnone => hadmits (admits_newTrip_iff.mpr hnone)
        unfold tripIsOpen
        cases hselect : fault.select with
        | some error => exact .inl ⟨.sqlite error, rfl⟩
        | none =>
            rw [hopen]
            exact .inr (.inl ⟨rfl, rfl⟩)

/-- Where the database performs every statement, a bait that is not open is opened. -/
theorem latchTrip_noFault (h : trips.any (·.opens kind reference) = false) (identity : Option String)
    (tier : HoneypotTier) (now : Int) :
    (exec (latchTrip noFault kind reference identity tier now) trips).1 = .ok true := by
  unfold latchTrip
  rw [exec_bind_ok (exec_getThe trips)]
  have hadmits : trips.Admits (trips.newTrip kind reference identity tier now) := admits_newTrip_iff.mpr h
  dsimp only [noFault]
  rw [if_pos hadmits]
  rfl

theorem clearTrips_cases (fault : Fault) (trips : TripTable) (now : Int) :
    (∃ e, exec (clearTrips fault now) trips = (.error e, trips)) ∨
      exec (clearTrips fault now) trips = (.ok (trips.countP (·.clearedAt.isNone)),
        trips.map fun row => if row.clearedAt.isNone then cleared now row else row) := by
  unfold clearTrips
  cases fault.update with
  | some error => exact .inl ⟨_, rfl⟩
  | none => exact .inr rfl

/-- Clearing leaves nothing open. -/
theorem not_opens_of_clear (now : Int) (kind : BaitKind) (reference : String) :
    (trips.map fun row => if row.clearedAt.isNone then cleared now row else row).any
      (·.opens kind reference) = false := by
  rw [List.any_map, List.any_eq_false]
  intro row _
  unfold TripRow.opens
  simp only [Function.comp_apply, Bool.and_eq_true, Option.isNone_iff_eq_none, not_and]
  intro _
  split
  · exact Option.some_ne_none now
  · assumption

theorem Sound.clear (h : Sound trips) (now : Int) :
    Sound (trips.map fun row => if row.clearedAt.isNone then cleared now row else row) := by
  have hnone : ∀ key : TripRow → Option String, (∀ row, row.clearedAt ≠ none → key row = none) →
      (trips.map fun row => if row.clearedAt.isNone then cleared now row else row).filterMap key = [] := by
    intro key hkey
    rw [List.filterMap_map, List.filterMap_eq_nil_iff]
    intro row _
    apply hkey
    dsimp only
    split
    · exact Option.some_ne_none now
    · rename_i hcleared
      rwa [Option.isNone_iff_eq_none] at hcleared
  refine ⟨fun row' hrow' => ?_, ?_, ?_⟩
  · obtain ⟨row, hrow, rfl⟩ := List.mem_map.mp hrow'
    split
    · exact h.checked row hrow
    · exact h.checked row hrow
  · rw [hnone TripRow.openSecret fun row hcleared => if_neg fun hboth => hcleared hboth.2]
    exact List.nodup_nil
  · rw [hnone TripRow.openToken fun row hcleared => if_neg fun hboth => hcleared hboth.2]
    exact List.nodup_nil

/-! ### Runs -/

inductive Op where
  | latchTrip (kind : BaitKind) (reference : String) (identity : Option String) (tier : HoneypotTier)
  | clearTrips
  deriving DecidableEq, Repr

/-- One operation, with what the database answers and the time it is. -/
def step (trips : TripTable) : Op × Fault × Int → Option TripTable
  | (.latchTrip kind reference identity tier, fault, now) =>
      some (exec (TripTable.latchTrip fault kind reference identity tier now) trips).2
  | (.clearTrips, fault, now) => some (exec (TripTable.clearTrips fault now) trips).2

/-- A trip without the time it was cleared at. -/
def opening (row : TripRow) : TripRow := { row with clearedAt := none }

/-- Every trip is still there, and a trip that was cleared is as it was. -/
structure Later (trips trips' : TripTable) : Prop where
  kept : trips.map opening <+: trips'.map opening
  closed : ∀ row ∈ trips, row.clearedAt ≠ none → row ∈ trips'

theorem Later.refl (trips : TripTable) : Later trips trips :=
  ⟨List.prefix_refl _, fun _ hrow _ => hrow⟩

theorem Later.trans {trips'' : TripTable} (h : Later trips trips') (h' : Later trips' trips'') :
    Later trips trips'' :=
  ⟨h.kept.trans h'.kept, fun row hrow hcleared => h'.closed row (h.closed row hrow hcleared) hcleared⟩

theorem later_append (trips : TripTable) (row : TripRow) : Later trips (trips ++ [row]) := by
  refine ⟨?_, fun other hother _ => List.mem_append_left _ hother⟩
  rw [List.map_append]
  exact List.prefix_append _ _

theorem later_clear (trips : TripTable) (now : Int) :
    Later trips (trips.map fun row => if row.clearedAt.isNone then cleared now row else row) := by
  refine ⟨?_, fun row hrow hcleared => ?_⟩
  · have hsame : (trips.map fun row => if row.clearedAt.isNone then cleared now row else row).map opening =
        trips.map opening := by
      rw [List.map_map]
      apply List.map_congr_left
      intro row _
      rw [Function.comp_apply]
      split <;> rfl
    rw [hsame]
  · refine List.mem_map.mpr ⟨row, hrow, if_neg fun hopen => hcleared ?_⟩
    exact Option.isNone_iff_eq_none.mp hopen

theorem step_sound {event : Op × Fault × Int} (h : Sound trips) (hstep : trips.step event = some trips') :
    Sound trips' ∧ Later trips trips' := by
  obtain ⟨op, fault, now⟩ := event
  cases op with
  | latchTrip kind reference identity tier =>
      cases hstep
      rcases latchTrip_cases fault trips kind reference identity tier now with
        ⟨e, hdone⟩ | ⟨-, hdone⟩ | ⟨hnone, hdone⟩
      · rw [hdone]
        exact ⟨h, .refl trips⟩
      · rw [hdone]
        exact ⟨h, .refl trips⟩
      · rw [hdone]
        exact ⟨h.insert (admits_newTrip_iff.mpr hnone), later_append trips _⟩
  | clearTrips =>
      cases hstep
      rcases clearTrips_cases fault trips now with ⟨e, hdone⟩ | hdone
      · rw [hdone]
        exact ⟨h, .refl trips⟩
      · rw [hdone]
        exact ⟨h.clear now, later_clear trips now⟩

theorem run_sound (events : List (Op × Fault × Int)) {trips trips' : TripTable} (h : Sound trips)
    (hrun : Transition.run step trips events = some trips') : Sound trips' ∧ Later trips trips' := by
  induction events generalizing trips with
  | nil =>
      cases hrun
      exact ⟨h, .refl _⟩
  | cons event events ih =>
      obtain ⟨next, hstep, hrun⟩ := Option.bind_eq_some_iff.mp hrun
      obtain ⟨hsound, hlater⟩ := step_sound h hstep
      obtain ⟨hsound', hlater'⟩ := ih hsound hrun
      exact ⟨hsound', hlater.trans hlater'⟩

/-- The states of the table. -/
def Kept (trips : TripTable) : Prop := Transition.Reachable (· = []) step (fun _ _ => True) trips

theorem Kept.sound (h : Kept trips) : Sound trips := by
  refine Transition.Reachable.invariant ?_ (fun _ _ _ hs _ hstep => (step_sound hs hstep).1) h
  rintro trips rfl
  exact sound_nil

/-- What the table promises of its latch in a state. -/
structure Latched (trips : TripTable) : Prop where
  once : ∀ kind reference, (trips.filter (·.opens kind reference)).length ≤ 1
  opened : ∀ fault kind reference identity tier now,
    (exec (latchTrip fault kind reference identity tier now) trips).1 = .ok true ↔
      trips.any (·.opens kind reference) = false ∧
        (exec (latchTrip fault kind reference identity tier now) trips).2.any (·.opens kind reference) = true
  unopened : ∀ fault kind reference identity tier now,
    (exec (latchTrip fault kind reference identity tier now) trips).1 = .ok false →
      trips.any (·.opens kind reference) = true
  reopened : ∀ fault now count trips', exec (clearTrips fault now) trips = (.ok count, trips') →
    ∀ kind reference identity tier later,
      (exec (latchTrip noFault kind reference identity tier later) trips').1 = .ok true
  kept : ∀ events trips', Transition.run step trips events = some trips' → Later trips trips'

theorem Kept.latched (h : Kept trips) : Latched trips where
  once := h.sound.one_open
  opened := by
    intro fault kind reference identity tier now
    rcases latchTrip_cases fault trips kind reference identity tier now with
      ⟨e, hdone⟩ | ⟨hopen, hdone⟩ | ⟨hnone, hdone⟩
    · rw [hdone]
      constructor
      · intro hok
        cases hok
      · rintro ⟨hnone, hopen⟩
        exact absurd (hnone.symm.trans hopen) Bool.false_ne_true
    · rw [hdone]
      constructor
      · intro hok
        cases hok
      · rintro ⟨hnone, -⟩
        exact absurd (hnone.symm.trans hopen) Bool.false_ne_true
    · rw [hdone]
      refine iff_of_true rfl ⟨hnone, ?_⟩
      rw [List.any_append, List.any_cons, newTrip_opens, Bool.true_or, Bool.or_true]
  unopened := by
    intro fault kind reference identity tier now hok
    rcases latchTrip_cases fault trips kind reference identity tier now with
      ⟨e, hdone⟩ | ⟨hopen, -⟩ | ⟨-, hdone⟩
    · rw [hdone] at hok
      cases hok
    · exact hopen
    · rw [hdone] at hok
      cases hok
  reopened := by
    intro fault now count trips' hclear kind reference identity tier later
    rcases clearTrips_cases fault trips now with ⟨e, hdone⟩ | hdone
    · cases hdone.symm.trans hclear
    · cases hdone.symm.trans hclear
      exact latchTrip_noFault (not_opens_of_clear now kind reference) identity tier later
  kept := fun events _ hrun => (run_sound events h.sound hrun).2

end TripTable

end Ciphr
