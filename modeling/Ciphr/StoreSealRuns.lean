import Ciphr.LibTransition
import Ciphr.CliMasterKey

/-!
`initialize` and `replace_seal` of `ciphr-store/src/sqlite.rs` on any number of connections to one
database. Each call reads the seal record and, where the record admits it, writes in a transaction of
its own afterwards; the steps of different calls interleave in any order.
-/

namespace Ciphr

open Program

namespace MetaTable

/-- `initialize`, with nothing in between. -/
def initializeStore (fault : MetaFault) (state : SealState) : Program MetaTable StoreError Unit := do
  let table ← getThe MetaTable
  let found ← Program.ofExcept (table.sealState fault)
  if found.isSome then throw .alreadyInitialized
  else storeSeal fault state

end MetaTable

inductive SealChange where
  | initializeStore (state : SealState)
  | replaceSeal (state : SealState)
  deriving DecidableEq, Repr

namespace SealChange

def state : SealChange → SealState
  | .initializeStore state => state
  | .replaceSeal state => state

def id (change : SealChange) : RootKeyId := change.state.wrappedRootKey.id

/-- What a change makes of the record that it has read. -/
def admits : SealChange → Option SealState → Except StoreError Unit
  | .initializeStore _, found => if found.isSome then .error .alreadyInitialized else .ok ()
  | .replaceSeal _, none => .error .notInitialized
  | .replaceSeal state, some current =>
      if current.wrappedRootKey.id ≠ state.wrappedRootKey.id then
        .error (.corrupt "the replacement seal record is for a different root key")
      else .ok ()

def program (fault : MetaFault) : SealChange → Program MetaTable StoreError Unit
  | .initializeStore state => MetaTable.initializeStore fault state
  | .replaceSeal state => MetaTable.replaceSeal fault state

/-- A call is its read, and its write where the record read admits it. -/
theorem exec_program (fault : MetaFault) (change : SealChange) (table : MetaTable) :
    exec (change.program fault) table =
      match (table.sealState fault).bind change.admits with
      | .error error => (.error error, table)
      | .ok _ => exec (MetaTable.storeSeal fault change.state) table := by
  cases change with
  | initializeStore state =>
      unfold program MetaTable.initializeStore
      dsimp only
      rw [exec_bind_ok (exec_getThe _)]
      cases hread : table.sealState fault with
      | error error => exact exec_bind_error (exec_ofExcept _ _)
      | ok found =>
          rw [exec_bind_ok (exec_ofExcept _ _)]
          cases found with
          | none => rfl
          | some current => rfl
  | replaceSeal state =>
      unfold program MetaTable.replaceSeal
      dsimp only
      rw [exec_bind_ok (exec_getThe _)]
      cases hread : table.sealState fault with
      | error error => exact exec_bind_error (exec_ofExcept _ _)
      | ok found =>
          rw [exec_bind_ok (exec_ofExcept _ _)]
          cases found with
          | none => rfl
          | some current =>
              by_cases hid : current.wrappedRootKey.id ≠ state.wrappedRootKey.id
              · simp [Except.bind, admits, hid]
              · simp [Except.bind, admits, hid]
                rfl

end SealChange

/-! ### The calls under way -/

inductive SealProgress where
  | reading
  | writing
  | returned (result : Except StoreError Unit)

structure SealRun where
  change : SealChange
  progress : SealProgress

/-- The next step of a call: the read of the record, or the transaction that writes it. -/
def SealRun.advance (fault : MetaFault) (table : MetaTable) (call : SealRun) :
    Option (MetaTable × SealRun) :=
  match call.progress with
  | .reading =>
      match (table.sealState fault).bind call.change.admits with
      | .error error => some (table, ⟨call.change, .returned (.error error)⟩)
      | .ok _ => some (table, ⟨call.change, .writing⟩)
  | .writing =>
      let (result, table') := exec (MetaTable.storeSeal fault call.change.state) table
      some (table', ⟨call.change, .returned result⟩)
  | .returned _ => none

/-- The database, and the calls made so far in the order in which they began. -/
structure SharedSeal where
  table : MetaTable
  calls : List SealRun

namespace SharedSeal

inductive Event where
  | call (change : SealChange)
  | advance (i : Nat) (fault : MetaFault)

def step (s : SharedSeal) : Event → Option SharedSeal
  | .call change => some { s with calls := s.calls ++ [⟨change, .reading⟩] }
  | .advance i fault =>
      (s.calls[i]?).bind fun call =>
        (call.advance fault s.table).map fun (table, call) => ⟨table, s.calls.set i call⟩

/-- The record that the database holds. -/
def Holds (s : SharedSeal) (record : SealState) : Prop :=
  s.table.sealState MetaTable.noFault = .ok (some record)

/-- Every `initialize` writes into a database without a record. -/
def WritesFirst (s : SharedSeal) : Event → Prop
  | .call _ => True
  | .advance i _ => ∀ state, s.calls[i]? = some ⟨.initializeStore state, .writing⟩ →
      s.table.sealState MetaTable.noFault = .ok none

def Initialized (s : SharedSeal) (i : Nat) (state : SealState) : Prop :=
  s.calls[i]? = some ⟨.initializeStore state, .returned (.ok ())⟩

/-- The calls that have been made. -/
def changes (s : SharedSeal) : List SealChange := s.calls.map (·.change)

/-! ### What a step does -/

/-- What one step of a call does: the read refuses the call or lets it write, and the transaction
fails or stores the record of the call. -/
inductive Advances (s : SharedSeal) (i : Nat) (s' : SharedSeal) : Prop where
  | refused (call : SealRun) (error : StoreError) (hcall : s.calls[i]? = some call)
      (hnext : s' = ⟨s.table, s.calls.set i ⟨call.change, .returned (.error error)⟩⟩)
  | admitted (change : SealChange) (found : Option SealState)
      (hcall : s.calls[i]? = some ⟨change, .reading⟩)
      (hread : s.table.sealState MetaTable.noFault = .ok found) (hadmits : change.admits found = .ok ())
      (hnext : s' = ⟨s.table, s.calls.set i ⟨change, .writing⟩⟩)
  | stored (change : SealChange) (hcall : s.calls[i]? = some ⟨change, .writing⟩)
      (hnext : s'.calls = s.calls.set i ⟨change, .returned (.ok ())⟩) (hholds : s'.Holds change.state)

theorem storeSeal_error {fault : MetaFault} {state : SealState} {table table' : MetaTable}
    {error : StoreError}
    (h : exec (MetaTable.storeSeal fault state) table = (.error error, table')) : table' = table := by
  unfold MetaTable.storeSeal at h
  rcases exec_transaction (do
      Program.ofExcept (MetaTable.answer fault .beginTransaction)
      MetaTable.writeSeal fault state
      Program.ofExcept (MetaTable.answer fault .commit)) table with
    ⟨e, t, -, hrolled⟩ | ⟨y, t, -, hcommitted⟩
  · rw [hrolled, Prod.mk.injEq] at h
    exact h.2.symm
  · rw [hcommitted, Prod.mk.injEq] at h
    cases h.1

theorem advances_of_step {s s' : SharedSeal} {i : Nat} {fault : MetaFault}
    (h : step s (.advance i fault) = some s') : Advances s i s' := by
  obtain ⟨call, hcall, h⟩ := Option.bind_eq_some_iff.mp h
  obtain ⟨⟨table, call'⟩, hadvance, rfl⟩ := Option.map_eq_some_iff.mp h
  obtain ⟨change, progress⟩ := call
  cases progress with
  | reading =>
      unfold SealRun.advance at hadvance
      dsimp only at hadvance
      cases hread : s.table.sealState fault with
      | error error =>
          rw [hread] at hadvance
          cases hadvance
          exact .refused _ error hcall rfl
      | ok found =>
          rw [hread] at hadvance
          dsimp only [Except.bind] at hadvance
          cases hadmits : change.admits found with
          | error error =>
              rw [hadmits] at hadvance
              cases hadvance
              exact .refused _ error hcall rfl
          | ok done =>
              rw [hadmits] at hadvance
              cases hadvance
              exact .admitted change found hcall (MetaTable.sealState_ok hread) hadmits rfl
  | writing =>
      unfold SealRun.advance at hadvance
      dsimp only at hadvance
      cases hstore : exec (MetaTable.storeSeal fault change.state) s.table with
      | mk result table' =>
          rw [hstore] at hadvance
          cases hadvance
          cases result with
          | error error =>
              rw [storeSeal_error hstore]
              exact .refused _ error hcall rfl
          | ok done => exact .stored change hcall rfl (MetaTable.sealState_storeSeal hstore)
  | returned result => cases hadvance

theorem getElem?_set_cases {calls : List SealRun} {i j : Nat} {new call : SealRun}
    (h : (calls.set i new)[j]? = some call) : j = i ∧ call = new ∨ calls[j]? = some call := by
  rw [List.getElem?_set] at h
  split at h
  · rename_i heq
    split at h
    · cases h
      exact .inl ⟨heq.symm, rfl⟩
    · cases h
  · exact .inr h

theorem changes_set {calls : List SealRun} {i : Nat} {call : SealRun} (hcall : calls[i]? = some call)
    (progress : SealProgress) :
    (calls.set i ⟨call.change, progress⟩).map (·.change) = calls.map (·.change) := by
  apply List.ext_getElem?
  intro j
  rw [List.map_set, List.getElem?_set]
  split
  · rename_i heq
    rw [← heq, List.getElem?_map, hcall]
    have hlt := (List.getElem?_eq_some_iff.mp hcall).1
    rw [if_pos (by rw [List.length_map]; exact hlt)]
    rfl
  · rfl

theorem admits_replaceSeal {state : SealState} {found : Option SealState}
    (h : (SealChange.replaceSeal state).admits found = .ok ()) :
    ∃ record, found = some record ∧ record.wrappedRootKey.id = state.wrappedRootKey.id := by
  cases found with
  | none => cases h
  | some record =>
      unfold SealChange.admits at h
      dsimp only at h
      split at h
      · cases h
      · rename_i hid
        exact ⟨record, rfl, not_not.mp hid⟩

/-! ### The invariant -/

/-- Of the calls that are about to write and of those that have initialized the store. -/
structure Inv (s : SharedSeal) : Prop where
  /-- A replacement that is about to write has the identifier of the record stored. -/
  replaces : ∀ (i : Nat) (state : SealState), s.calls[i]? = some ⟨.replaceSeal state, .writing⟩ →
    ∃ record, s.Holds record ∧ record.wrappedRootKey.id = state.wrappedRootKey.id
  /-- A record that one of the calls has written is stored, with the identifier of the first. -/
  initialized : ∀ (i : Nat) (state : SealState), s.Initialized i state →
    ∃ record, s.Holds record ∧ record.wrappedRootKey.id = state.wrappedRootKey.id ∧
      ∃ change ∈ s.changes, change.state = record
  once : ∀ (i j : Nat) (state state' : SealState), s.Initialized i state → s.Initialized j state' → i = j

theorem Holds.unique {s : SharedSeal} {record record' : SealState} (h : s.Holds record)
    (h' : s.Holds record') : record = record' := by
  unfold Holds at h h'
  rw [h, Except.ok.injEq, Option.some.injEq] at h'
  exact h'

/-- A step that does not write, and that lets no call return well. -/
theorem Inv.quiet {s s' : SharedSeal} (hinv : s.Inv) (htable : s'.table = s.table)
    (hchanges : ∀ change ∈ s.changes, change ∈ s'.changes)
    (hreplaces : ∀ (i : Nat) (state : SealState), s'.calls[i]? = some ⟨.replaceSeal state, .writing⟩ →
      ∃ record, s.Holds record ∧ record.wrappedRootKey.id = state.wrappedRootKey.id)
    (hdone : ∀ (i : Nat) (state : SealState), s'.Initialized i state → s.Initialized i state) :
    s'.Inv := by
  have hholds : ∀ record, s.Holds record → s'.Holds record := by
    intro record h
    unfold Holds
    rw [htable]
    exact h
  refine ⟨?_, ?_, ?_⟩
  · intro i state hcall
    obtain ⟨record, hrecord, hid⟩ := hreplaces i state hcall
    exact ⟨record, hholds record hrecord, hid⟩
  · intro i state hinit
    obtain ⟨record, hrecord, hid, change, hchange, hstate⟩ := hinv.initialized i state (hdone i state hinit)
    exact ⟨record, hholds record hrecord, hid, change, hchanges change hchange, hstate⟩
  · intro i j state state' hi hj
    exact hinv.once i j state state' (hdone i state hi) (hdone j state' hj)

theorem Inv.call {s : SharedSeal} (hinv : s.Inv) (change : SealChange) :
    Inv { s with calls := s.calls ++ [⟨change, .reading⟩] } := by
  have hold : ∀ (i : Nat) (call : SealRun), (s.calls ++ [⟨change, .reading⟩])[i]? = some call →
      s.calls[i]? = some call ∨ call = ⟨change, .reading⟩ := by
    intro i call h
    rw [List.getElem?_append] at h
    split at h
    · exact .inl h
    · exact .inr (List.mem_singleton.mp (List.mem_of_getElem? h))
  refine hinv.quiet rfl ?_ ?_ ?_
  · intro other hother
    unfold changes
    rw [List.map_append]
    exact List.mem_append_left _ hother
  · intro i state h
    rcases hold i _ h with hcall | hnew
    · exact hinv.replaces i state hcall
    · cases hnew
  · intro i state h
    rcases hold i _ h with hcall | hnew
    · exact hcall
    · cases hnew

/-- The call that writes first. -/
theorem Inv.first {s s' : SharedSeal} {i : Nat} {state : SealState} (hinv : s.Inv)
    (hempty : s.table.sealState MetaTable.noFault = .ok none)
    (hcall : s.calls[i]? = some ⟨.initializeStore state, .writing⟩)
    (hnext : s'.calls = s.calls.set i ⟨.initializeStore state, .returned (.ok ())⟩)
    (hholds : s'.Holds state) : s'.Inv := by
  have hnone : ∀ record, ¬s.Holds record := by
    intro record h
    unfold Holds at h
    rw [hempty] at h
    cases h
  have hinitialized : ∀ (j : Nat) (state' : SealState), s'.Initialized j state' → j = i ∧ state' = state := by
    intro j state' h
    unfold Initialized at h
    rw [hnext] at h
    rcases getElem?_set_cases h with ⟨hj, heq⟩ | hold
    · cases heq
      exact ⟨hj, rfl⟩
    · obtain ⟨record, hrecord, -⟩ := hinv.initialized j state' hold
      exact absurd hrecord (hnone record)
  refine ⟨?_, ?_, ?_⟩
  · intro j state' h
    rw [hnext] at h
    rcases getElem?_set_cases h with ⟨-, heq⟩ | hold
    · cases heq
    · obtain ⟨record, hrecord, -⟩ := hinv.replaces j state' hold
      exact absurd hrecord (hnone record)
  · intro j state' h
    obtain ⟨-, rfl⟩ := hinitialized j state' h
    refine ⟨state', hholds, rfl, .initializeStore state', ?_, rfl⟩
    unfold changes
    rw [hnext, changes_set hcall]
    exact List.mem_map_of_mem (List.mem_of_getElem? hcall)
  · intro j j' state' state'' h h'
    rw [(hinitialized j state' h).1, (hinitialized j' state'' h').1]

/-- A replacement keeps the identifier of the record that it replaces. -/
theorem Inv.replaced {s s' : SharedSeal} {i : Nat} {state : SealState} (hinv : s.Inv)
    (hcall : s.calls[i]? = some ⟨.replaceSeal state, .writing⟩)
    (hnext : s'.calls = s.calls.set i ⟨.replaceSeal state, .returned (.ok ())⟩)
    (hholds : s'.Holds state) : s'.Inv := by
  obtain ⟨record, hrecord, hid⟩ := hinv.replaces i state hcall
  have hinitialized : ∀ (j : Nat) (state' : SealState), s'.Initialized j state' → s.Initialized j state' := by
    intro j state' h
    unfold Initialized at h
    rw [hnext] at h
    rcases getElem?_set_cases h with ⟨-, heq⟩ | hold
    · cases heq
    · exact hold
  refine ⟨?_, ?_, ?_⟩
  · intro j state' h
    rw [hnext] at h
    rcases getElem?_set_cases h with ⟨-, heq⟩ | hold
    · cases heq
    · obtain ⟨record', hrecord', hid'⟩ := hinv.replaces j state' hold
      rw [hrecord'.unique hrecord] at hid'
      exact ⟨state, hholds, by rw [← hid, hid']⟩
  · intro j state' h
    obtain ⟨record', hrecord', hid', -⟩ := hinv.initialized j state' (hinitialized j state' h)
    rw [hrecord'.unique hrecord] at hid'
    refine ⟨state, hholds, by rw [← hid, hid'], .replaceSeal state, ?_, rfl⟩
    unfold changes
    rw [hnext, changes_set hcall]
    exact List.mem_map_of_mem (List.mem_of_getElem? hcall)
  · intro j j' state' state'' h h'
    exact hinv.once j j' state' state'' (hinitialized j state' h) (hinitialized j' state'' h')

theorem Inv.step {s s' : SharedSeal} {event : Event} (hinv : s.Inv) (hok : s.WritesFirst event)
    (hstep : s.step event = some s') : s'.Inv := by
  cases event with
  | call change =>
      cases hstep
      exact hinv.call change
  | advance i fault =>
      cases advances_of_step hstep with
      | refused call error hcall hnext =>
          subst hnext
          refine hinv.quiet rfl ?_ ?_ ?_
          · intro other hother
            unfold changes
            rw [changes_set hcall]
            exact hother
          · intro j state h
            rcases getElem?_set_cases h with ⟨-, heq⟩ | hold
            · simp at heq
            · exact hinv.replaces j state hold
          · intro j state h
            rcases getElem?_set_cases h with ⟨-, heq⟩ | hold
            · simp at heq
            · exact hold
      | admitted change found hcall hread hadmits hnext =>
          subst hnext
          refine hinv.quiet rfl ?_ ?_ ?_
          · intro other hother
            unfold changes
            rw [changes_set hcall]
            exact hother
          · intro j state h
            rcases getElem?_set_cases h with ⟨-, heq⟩ | hold
            · cases heq
              obtain ⟨record, rfl, hid⟩ := admits_replaceSeal hadmits
              exact ⟨record, hread, hid⟩
            · exact hinv.replaces j state hold
          · intro j state h
            rcases getElem?_set_cases h with ⟨-, heq⟩ | hold
            · cases heq
            · exact hold
      | stored change hcall hnext hholds =>
          cases change with
          | initializeStore state => exact hinv.first (hok state hcall) hcall hnext hholds
          | replaceSeal state => exact hinv.replaced hcall hnext hholds

/-- No step takes the identifier away from the record stored. -/
theorem Inv.keeps_id {s s' : SharedSeal} {event : Event} {record : SealState} (hinv : s.Inv)
    (hok : s.WritesFirst event) (hstep : s.step event = some s') (hrecord : s.Holds record) :
    ∃ record', s'.Holds record' ∧ record'.wrappedRootKey.id = record.wrappedRootKey.id := by
  cases event with
  | call change =>
      cases hstep
      exact ⟨record, hrecord, rfl⟩
  | advance i fault =>
      cases advances_of_step hstep with
      | refused call error hcall hnext =>
          subst hnext
          exact ⟨record, hrecord, rfl⟩
      | admitted change found hcall hread hadmits hnext =>
          subst hnext
          exact ⟨record, hrecord, rfl⟩
      | stored change hcall hnext hholds =>
          refine ⟨change.state, hholds, ?_⟩
          cases change with
          | initializeStore state =>
              have hempty := hok state hcall
              unfold Holds at hrecord
              rw [hempty] at hrecord
              cases hrecord
          | replaceSeal state =>
              obtain ⟨replaced, hreplaced, hid⟩ := hinv.replaces i state hcall
              rw [hrecord.unique hreplaced, hid]
              rfl

abbrev Reached (init : SharedSeal → Prop) (s : SharedSeal) : Prop :=
  Transition.Reachable init step WritesFirst s

theorem inv_of_reached {s : SharedSeal} (h : Reached (fun s => s.calls = []) s) : s.Inv := by
  refine Transition.Reachable.invariant ?_ (fun _ _ _ hinv hok hstep => hinv.step hok hstep) h
  intro s hs
  have hcalls : ∀ (i : Nat) (call : SealRun), s.calls[i]? ≠ some call := by
    intro i call hcall
    rw [hs] at hcall
    cases hcall
  refine ⟨?_, ?_, ?_⟩
  · intro i state h
    exact absurd h (hcalls i _)
  · intro i state h
    exact absurd h (hcalls i _)
  · intro i j state state' h
    exact absurd h (hcalls i _)

theorem id_kept {s s' : SharedSeal} (hinv : s.Inv) (h : Reached (fun t => t = s) s') {record : SealState}
    (hrecord : s.Holds record) :
    ∃ record', s'.Holds record' ∧ record'.wrappedRootKey.id = record.wrappedRootKey.id := by
  have hboth : s'.Inv ∧ ∃ record', s'.Holds record' ∧
      record'.wrappedRootKey.id = record.wrappedRootKey.id := by
    induction h with
    | start hs =>
        rw [hs]
        exact ⟨hinv, record, hrecord, rfl⟩
    | next _ hok hstep ih =>
        obtain ⟨ht, record', hrecord', hid⟩ := ih
        obtain ⟨record'', hrecord'', hid'⟩ := ht.keeps_id hok hstep hrecord'
        exact ⟨ht.step hok hstep, record'', hrecord'', hid'.trans hid⟩
  exact hboth.2

/-! ### The root key -/

variable {u : Unicode} {aead : Aead KeyBytes Nonce} {seals : List (SealCall u)}
  {rootOf : RootKeyId → RootKey}

/-- The record wraps the root key that its identifier names. -/
def Genuine (aead : Aead KeyBytes Nonce) (seals : List (SealCall u)) (rootOf : RootKeyId → RootKey)
    (state : SealState) : Prop :=
  ∃ master nonce, .wrapRootKey master (rootOf state.wrappedRootKey.id) state.wrappedRootKey.id nonce ∈ seals ∧
    wrapRootKey aead master (rootOf state.wrappedRootKey.id) state.wrappedRootKey.id nonce =
      .ok state.wrappedRootKey

/-- Where every `initialize` writes into a database without a record, the identifier of a stored record
stays what it is, one `initialize` at most returns well, and what was encrypted under its root key is
decrypted with the key in the record stored. -/
theorem root_key_kept (hideal : aead.Ideal (seals.flatMap (·.seals aead))) {s : SharedSeal}
    (hrun : Reached (fun s => s.calls = []) s)
    (hgenuine : ∀ change ∈ s.changes, Genuine aead seals rootOf change.state) :
    (∀ s' record, Reached (fun t => t = s) s' → s.Holds record →
      ∃ record', s'.Holds record' ∧ record'.wrappedRootKey.id = record.wrappedRootKey.id) ∧
      (∀ i j state state', s.Initialized i state → s.Initialized j state' → i = j) ∧
      ∀ i state, s.Initialized i state → ∃ record, s.Holds record ∧
        record.wrappedRootKey.id = state.wrappedRootKey.id ∧
        ∃ mechanism : StaticSeal,
          mechanism.unsealKey aead record.wrappedRootKey = .ok (rootOf state.wrappedRootKey.id) ∧
          ∀ (path : SecretPath u) (version : SecretVersion) (plaintext : List UInt8)
            (draws : ValueDraws) (value : EncryptedValue),
            .encrypt (rootOf state.wrappedRootKey.id) path version plaintext draws ∈ seals →
            encrypt aead (rootOf state.wrappedRootKey.id) path version plaintext draws = .ok value →
            decrypt aead (rootOf state.wrappedRootKey.id) path version value = .ok plaintext := by
  have hinv := inv_of_reached hrun
  refine ⟨fun s' record h hrecord => id_kept hinv h hrecord, hinv.once, ?_⟩
  intro i state hinit
  obtain ⟨record, hrecord, hid, change, hchange, rfl⟩ := hinv.initialized i state hinit
  obtain ⟨master, nonce, hcall, hwrapped⟩ := hgenuine change hchange
  rw [hid] at hcall hwrapped
  refine ⟨change.state, hrecord, hid, ⟨master⟩, ?_, ?_⟩
  · exact (unwrapRootKey_wrapRootKey hideal hcall hwrapped).1
  · intro path version plaintext draws value hcall hvalue
    exact decrypt_encrypt hideal hcall hvalue

/-! ### Runs in which the database performs every statement -/

theorem step_admitted {s : SharedSeal} {i : Nat} {change : SealChange} {found : Option SealState}
    (hcall : s.calls[i]? = some ⟨change, .reading⟩)
    (hread : s.table.sealState MetaTable.noFault = .ok found) (hadmits : change.admits found = .ok ()) :
    s.step (.advance i MetaTable.noFault) = some ⟨s.table, s.calls.set i ⟨change, .writing⟩⟩ := by
  have hadvance : SealRun.advance MetaTable.noFault s.table ⟨change, .reading⟩ =
      some (s.table, ⟨change, .writing⟩) := by
    unfold SealRun.advance
    simp only [hread, Except.bind, hadmits]
  unfold step
  dsimp only
  rw [hcall, Option.bind_some, hadvance]
  rfl

theorem writesFirst_reading {s : SharedSeal} {i : Nat} {fault : MetaFault} {change : SealChange}
    (hcall : s.calls[i]? = some ⟨change, .reading⟩) : s.WritesFirst (.advance i fault) := by
  intro state h
  rw [hcall] at h
  cases h

theorem writesFirst_replaceSeal {s : SharedSeal} {i : Nat} {fault : MetaFault} {state : SealState}
    {progress : SealProgress} (hcall : s.calls[i]? = some ⟨.replaceSeal state, progress⟩) :
    s.WritesFirst (.advance i fault) := by
  intro state' h
  rw [hcall] at h
  cases h

theorem writesFirst_empty {s : SharedSeal} {i : Nat} {fault : MetaFault}
    (hempty : s.table.sealState MetaTable.noFault = .ok none) : s.WritesFirst (.advance i fault) :=
  fun _ _ => hempty

theorem step_stored {s : SharedSeal} {i : Nat} {change : SealChange}
    (hcall : s.calls[i]? = some ⟨change, .writing⟩) :
    ∃ table, s.step (.advance i MetaTable.noFault) =
        some ⟨table, s.calls.set i ⟨change, .returned (.ok ())⟩⟩ ∧
      table.sealState MetaTable.noFault = .ok (some change.state) := by
  obtain ⟨table, hstore⟩ : ∃ table,
      exec (MetaTable.storeSeal MetaTable.noFault change.state) s.table = (.ok (), table) := ⟨_, rfl⟩
  refine ⟨table, ?_, MetaTable.sealState_storeSeal hstore⟩
  have hadvance : SealRun.advance MetaTable.noFault s.table ⟨change, .writing⟩ =
      some (table, ⟨change, .returned (.ok ())⟩) := by
    unfold SealRun.advance
    simp only [hstore]
  unfold step
  dsimp only
  rw [hcall, Option.bind_some, hadvance]
  rfl

end SharedSeal

namespace Sample

open SharedSeal

def pinnedState : SealState := ⟨StaticSeal.id, pinnedWrapped⟩

def otherState : SealState := ⟨StaticSeal.id, otherWrapped⟩

/-- What a second `init` seals: a root key with an identifier of its own. -/
def strayState : SealState := ⟨StaticSeal.id, { otherWrapped with id := ⟨Vector.replicate 16 0xb0⟩ }⟩

def freshDatabase (s : SharedSeal) : Prop := s = ⟨[], []⟩

/-- Two calls of `initialize` read the empty database one after the other. Both return well, and the
second writes its record over that of the first. -/
theorem initialize_twice :
    ∃ s s', Transition.Reachable freshDatabase step (fun _ _ => True) s ∧
      Transition.Reachable (fun t => t = s) step (fun _ _ => True) s' ∧
      s.Holds pinnedState ∧ s.Initialized 0 pinnedState ∧
      s'.Holds strayState ∧ s'.Initialized 0 pinnedState ∧ s'.Initialized 1 strayState ∧
      strayState.wrappedRootKey.id ≠ pinnedState.wrappedRootKey.id := by
  have hcalled : Transition.Reachable freshDatabase step (fun _ _ => True)
      ⟨[], [⟨.initializeStore pinnedState, .reading⟩, ⟨.initializeStore strayState, .reading⟩]⟩ :=
    .next (.next (.start rfl) trivial (a := .call (.initializeStore pinnedState)) rfl) trivial
      (a := .call (.initializeStore strayState)) rfl
  have hread : Transition.Reachable freshDatabase step (fun _ _ => True)
      ⟨[], [⟨.initializeStore pinnedState, .writing⟩, ⟨.initializeStore strayState, .writing⟩]⟩ :=
    (hcalled.next trivial (step_admitted (i := 0) rfl rfl rfl)).next trivial
      (step_admitted (i := 1) rfl rfl rfl)
  obtain ⟨table, hfirst, htable⟩ : ∃ table, step
      ⟨[], [⟨.initializeStore pinnedState, .writing⟩, ⟨.initializeStore strayState, .writing⟩]⟩
        (.advance 0 MetaTable.noFault) =
      some ⟨table, [⟨.initializeStore pinnedState, .returned (.ok ())⟩,
        ⟨.initializeStore strayState, .writing⟩]⟩ ∧
      table.sealState MetaTable.noFault = .ok (some pinnedState) := step_stored rfl
  obtain ⟨table', hsecond, htable'⟩ : ∃ table', step
      ⟨table, [⟨.initializeStore pinnedState, .returned (.ok ())⟩,
        ⟨.initializeStore strayState, .writing⟩]⟩ (.advance 1 MetaTable.noFault) =
      some ⟨table', [⟨.initializeStore pinnedState, .returned (.ok ())⟩,
        ⟨.initializeStore strayState, .returned (.ok ())⟩]⟩ ∧
      table'.sealState MetaTable.noFault = .ok (some strayState) := step_stored rfl
  exact ⟨_, _, hread.next trivial hfirst, .next (.start rfl) trivial hsecond, htable, rfl, htable', rfl,
    rfl, by decide⟩

/-- A store is initialized, its master key is replaced, and what was encrypted before is decrypted. -/
theorem root_key_kept_after_rotation :
    ∃ (s : SharedSeal) (record : SealState) (mechanism : StaticSeal), s.Holds record ∧ s.Initialized 0 pinnedState ∧
      mechanism.unsealKey pinnedAead record.wrappedRootKey = .ok pinnedRoot ∧
      decrypt pinnedAead pinnedRoot dbPassword .first pinnedValue = .ok pinnedPlaintext := by
  have hread : Reached (fun s => s.calls = []) ⟨[], [⟨.initializeStore pinnedState, .writing⟩]⟩ :=
    .next (.next (.start (s := ⟨[], []⟩) rfl) trivial (a := .call (.initializeStore pinnedState)) rfl)
      (writesFirst_reading rfl) (step_admitted (i := 0) rfl rfl rfl)
  obtain ⟨table, hfirst, htable⟩ : ∃ table, step ⟨[], [⟨.initializeStore pinnedState, .writing⟩]⟩
        (.advance 0 MetaTable.noFault) =
      some ⟨table, [⟨.initializeStore pinnedState, .returned (.ok ())⟩]⟩ ∧
      table.sealState MetaTable.noFault = .ok (some pinnedState) := step_stored rfl
  have hinit : Reached (fun s => s.calls = [])
      ⟨table, [⟨.initializeStore pinnedState, .returned (.ok ())⟩]⟩ :=
    hread.next (writesFirst_empty rfl) hfirst
  have hreplacing : Reached (fun s => s.calls = [])
      ⟨table, [⟨.initializeStore pinnedState, .returned (.ok ())⟩, ⟨.replaceSeal otherState, .writing⟩]⟩ :=
    .next (.next hinit trivial (a := .call (.replaceSeal otherState)) rfl)
      (writesFirst_reading rfl) (step_admitted (i := 1) rfl htable rfl)
  obtain ⟨table', hsecond, htable'⟩ : ∃ table', step
      ⟨table, [⟨.initializeStore pinnedState, .returned (.ok ())⟩, ⟨.replaceSeal otherState, .writing⟩]⟩
        (.advance 1 MetaTable.noFault) =
      some ⟨table', [⟨.initializeStore pinnedState, .returned (.ok ())⟩,
        ⟨.replaceSeal otherState, .returned (.ok ())⟩]⟩ ∧
      table'.sealState MetaTable.noFault = .ok (some otherState) := step_stored rfl
  have hreplaced := hreplacing.next (writesFirst_replaceSeal rfl) hsecond
  have hfirstWrap : Genuine pinnedAead pinnedCalls (fun _ => pinnedRoot) pinnedState :=
    ⟨pinnedSeal.master, some pinnedWrapped.nonce, by simp [pinnedCalls, pinnedState, pinnedWrapped],
      by decide +kernel⟩
  have hsecondWrap : Genuine pinnedAead pinnedCalls (fun _ => pinnedRoot) otherState :=
    ⟨otherSeal.master, some otherWrapped.nonce, by simp [pinnedCalls, otherState, otherWrapped],
      by decide +kernel⟩
  obtain ⟨-, -, hdecrypts⟩ := root_key_kept pinnedAead_ideal hreplaced (by
    intro change hchange
    rcases List.mem_cons.mp hchange with rfl | hchange
    · exact hfirstWrap
    · rw [List.mem_singleton.mp hchange]
      exact hsecondWrap)
  obtain ⟨record, hrecord, -, mechanism, hopens, hvalue⟩ := hdecrypts 0 pinnedState rfl
  exact ⟨_, record, mechanism, hrecord, rfl, hopens,
    hvalue dbPassword .first pinnedPlaintext pinnedDraws pinnedValue (by simp [pinnedCalls])
      (by decide +kernel)⟩

end Sample

end Ciphr
