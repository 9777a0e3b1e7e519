import Ciphr.CliCorrections
import Ciphr.ServerFailClosed

/-!
Which version of a secret `ciphr get` and `ciphr delete` act on, beside the version that the API acts on
for the same number.
-/

namespace Ciphr

open Script

variable {u : Unicode}

namespace Cli

/-- What the command writes to standard output. -/
def get (host : CliHost u) (path : String) (version : Option UInt32) (force : Bool) :
    Cli u (List UInt8) := do
  let path ← parsePath path
  guardSecretOutput force
  let root ← openOrServed (match version with
    | some version => "GET /v1/secrets/" ++ path.text ++ "?version=" ++ toString version.toNat
    | none => "GET /v1/secrets/" ++ path.text)
  let wanted := version.bind SecretVersion.new
  match ← ask (.get path wanted) .ok with
  | .error error => do
      Session.record ((Session.operatorEntry host .read false (some "not-found")).withPath path)
      ofExcept (.error (.store error))
  | .ok stored => do
      let plaintext ← ofExcept ((decrypt host.aead root stored.path stored.version stored.value).mapError
        .crypto)
      Session.record (readEntry host stored)
      return plaintext ++ utf8 "\n"

end Cli

/-! ### Targets -/

/-- The lookups are answered from the tables. -/
def CliAct.AnsweredBy (fault : SecretFault) (tables : SecretTables) : CliAct u → Prop
  | ⟨.get path version, reply⟩ => reply = tables.get fault path version
  | ⟨.metadata path, reply⟩ => reply = tables.metadata fault path
  | _ => True

def ApiAct.AnsweredBy (fault : SecretFault) (tables : SecretTables) : ApiAct u → Prop
  | ⟨.get path version, reply⟩ => reply = tables.get fault path version
  | ⟨.metadata path, reply⟩ => reply = tables.metadata fault path
  | _ => True

/-- The version whose value is read, or that is deleted. -/
def CliAct.target : CliAct u → Option (SecretPath u × SecretVersion)
  | ⟨.get _ _, .ok stored⟩ => some (stored.path, stored.version)
  | ⟨.delete path version, _⟩ => some (path, version)
  | _ => none

def ApiAct.target : ApiAct u → Option (SecretPath u × SecretVersion)
  | ⟨.get _ _, .ok stored⟩ => some (stored.path, stored.version)
  | ⟨.delete path version, _⟩ => some (path, version)
  | _ => none

def CliAct.targets (acts : List (CliAct u)) : List (SecretPath u × SecretVersion) :=
  acts.filterMap CliAct.target

def ApiAct.targets (acts : List (ApiAct u)) : List (SecretPath u × SecretVersion) :=
  acts.filterMap ApiAct.target

/-- The session was opened, and its trail took every record. -/
def CliAct.Served (acts : List (CliAct u)) : Prop :=
  (∃ root, (⟨.openSession, .ok root⟩ : CliAct u) ∈ acts) ∧ TrailAccepts acts

/-- The access was allowed, and is on the trail. -/
def Admitted (acts : List (ApiAct u)) : Prop := ∃ entry ∈ entries acts, entry.allowed = true

/-- Over the same tables, a command that gets to act and a handler that lets its caller in act on the
same versions. -/
def ResolvesAlike {α : Type} (fault : SecretFault) (tables : SecretTables)
    (command : CliHost u → Bool → Cli u α) (handler : Deployment → Headers → Api u ApiResponse) : Prop :=
  ∀ host force acts result deployment headers served answer, Runs (command host force) acts result →
    (∀ act ∈ acts, CliAct.AnsweredBy fault tables act) →
    (CliAct.targets acts ≠ [] ∨ CliAct.Served acts) →
    Runs (handler deployment headers) served answer →
    (∀ act ∈ served, ApiAct.AnsweredBy fault tables act) → Admitted served →
    ApiAct.targets served = CliAct.targets acts

@[simp] theorem CliAct.targets_append (acts more : List (CliAct u)) :
    CliAct.targets (acts ++ more) = CliAct.targets acts ++ CliAct.targets more :=
  List.filterMap_append

@[simp] theorem ApiAct.targets_append (acts more : List (ApiAct u)) :
    ApiAct.targets (acts ++ more) = ApiAct.targets acts ++ ApiAct.targets more :=
  List.filterMap_append

namespace SecretTables

variable (fault : SecretFault) (tables : SecretTables)

/-- What a lookup of a version finds. -/
def found (path : SecretPath u) (wanted : Option SecretVersion) : List (SecretPath u × SecretVersion) :=
  match tables.get fault path wanted with
  | .ok stored => [(stored.path, stored.version)]
  | .error _ => []

/-- What a deletion is about. -/
def deletable (path : SecretPath u) : Option SecretVersion → List (SecretPath u × SecretVersion)
  | some version => [(path, version)]
  | none =>
      match tables.metadata fault path with
      | .ok found => (found.currentVersion.map fun version => (path, version)).toList
      | .error _ => []

end SecretTables

variable {fault : SecretFault} {tables : SecretTables} {raw : String} {version : Option UInt32}

/-- The API refuses the number that is no version, and the command line takes it for none at all. -/
theorem parsed_eq (version : Option UInt32) :
    (VersionQuery.mk version).parsed = .ok (version.bind SecretVersion.new) ∧ version ≠ some 0 ∨
      version = some 0 ∧ version.bind SecretVersion.new = none ∧
        ∃ refused, (VersionQuery.mk version).parsed = .error refused := by
  cases version with
  | none => exact .inl ⟨rfl, nofun⟩
  | some number =>
      by_cases hzero : number = 0
      · subst hzero
        exact .inr ⟨rfl, rfl, _, rfl⟩
      · have hpos : number.toNat ≠ 0 := fun h => hzero (UInt32.toNat_inj.mp h)
        refine .inl ⟨?_, fun h => hzero (Option.some.inj h)⟩
        unfold VersionQuery.parsed
        simp only [SecretVersion.new, hpos, dif_neg, not_false_eq_true, Option.bind_some]

/-! ### The commands -/

section Commands

variable {host : CliHost u} {force : Bool} {acts : List (CliAct u)}

/-- Nothing of this reads or deletes a version, and no session was opened. -/
def CliAct.Outside (acts : List (CliAct u)) : Prop :=
  ∀ act ∈ acts, CliAct.target act = none ∧ ∀ root, act ≠ ⟨.openSession, .ok root⟩

theorem CliAct.Outside.targets (h : CliAct.Outside acts) : CliAct.targets acts = [] :=
  List.filterMap_eq_nil_iff.mpr fun act hmem => (h act hmem).1

theorem CliAct.Outside.append {more : List (CliAct u)} (h : CliAct.Outside acts)
    (hmore : CliAct.Outside more) : CliAct.Outside (acts ++ more) := by
  intro act hmem
  rcases List.mem_append.mp hmem with hleft | hright
  · exact h act hleft
  · exact hmore act hright

theorem CliAct.Outside.not_acting (h : CliAct.Outside acts) :
    ¬ (CliAct.targets acts ≠ [] ∨ CliAct.Served acts) := by
  rintro (htargets | ⟨⟨root, hmem⟩, -⟩)
  · exact htargets h.targets
  · exact (h _ hmem).2 root rfl

theorem outside_nil : CliAct.Outside ([] : List (CliAct u)) := List.forall_mem_nil _

theorem runs_guardSecretOutput_outside {ended : Except CliError Unit}
    (h : Runs (Cli.guardSecretOutput force : Cli u Unit) acts ended) : CliAct.Outside acts := by
  unfold Cli.guardSecretOutput at h
  split at h
  · obtain ⟨rfl, -⟩ := runs_pure_iff.mp h
    exact outside_nil
  · obtain ⟨reply, rfl, -⟩ := runs_ask_iff.mp h
    exact List.forall_mem_singleton.mpr ⟨rfl, fun root heq => by cases heq⟩

/-- A session that is not opened. -/
theorem runs_openOrServed_error {request : String} {error : CliError}
    (h : Runs (Cli.openOrServed request : Cli u RootKey) acts (.error error)) : CliAct.Outside acts := by
  obtain ⟨opened, rfl, hopened⟩ := runs_ask_iff.mp h
  cases opened with
  | ok root => cases hopened
  | error failed => exact List.forall_mem_singleton.mpr ⟨rfl, fun root heq => by cases heq⟩

theorem runs_openOrServed_ok {request : String} {root : RootKey}
    (h : Runs (Cli.openOrServed request : Cli u RootKey) acts (.ok root)) :
    acts = [⟨.openSession, .ok root⟩] := by
  obtain ⟨opened, rfl, hopened⟩ := runs_ask_iff.mp h
  cases opened with
  | ok root =>
      cases hopened
      rfl
  | error failed => cases hopened

/-- What a command that reads a version reads. -/
theorem runs_get_targets {result : Except CliError (List UInt8)}
    (h : Runs (Cli.get host raw version force) acts result)
    (hanswered : ∀ act ∈ acts, CliAct.AnsweredBy fault tables act)
    (hacting : CliAct.targets acts ≠ [] ∨ CliAct.Served acts) :
    ∃ path, SecretPath.parse u raw = .ok path ∧
      CliAct.targets acts = tables.found fault path (version.bind SecretVersion.new) := by
  unfold Cli.get at h
  rcases runs_bind_iff.mp h with ⟨error, hparse, -⟩ | ⟨path, front, rest, rfl, hparse, hguarded⟩
  · obtain ⟨rfl, -⟩ := runs_ofExcept_iff.mp hparse
    exact absurd hacting outside_nil.not_acting
  obtain ⟨rfl, hpath⟩ := runs_ofExcept_iff.mp hparse
  rcases runs_bind_iff.mp hguarded with ⟨error, hguard, -⟩ | ⟨⟨⟩, guarded, more, rfl, hguard, hopen⟩
  · exact absurd hacting (runs_guardSecretOutput_outside hguard).not_acting
  have houtside := runs_guardSecretOutput_outside hguard
  rcases runs_bind_iff.mp hopen with ⟨error, hsession, -⟩ | ⟨root, opened, asked, rfl, hsession, hask⟩
  · exact absurd hacting (houtside.append (runs_openOrServed_error hsession)).not_acting
  rw [runs_openOrServed_ok hsession] at hanswered ⊢
  obtain ⟨reply, last, rfl, hlast⟩ := runs_asked_bind_iff.mp hask
  have hreply : reply = tables.get fault path (version.bind SecretVersion.new) :=
    hanswered ⟨.get path (version.bind SecretVersion.new), reply⟩ (by simp)
  refine ⟨path, Loop.mapError_eq_ok hpath.symm, ?_⟩
  have hfound : CliAct.targets (guarded ++ ([⟨.openSession, .ok root⟩] ++
      ⟨.get path (version.bind SecretVersion.new), reply⟩ :: last)) =
        CliAct.targets [⟨.get path (version.bind SecretVersion.new), reply⟩] ++ CliAct.targets last := by
    rw [CliAct.targets_append, houtside.targets]
    exact CliAct.targets_append [⟨.get path (version.bind SecretVersion.new), reply⟩] last
  rw [List.nil_append, hfound]
  unfold SecretTables.found
  rw [← hreply]
  cases reply with
  | error error =>
      have hlast : CliAct.targets last = [] := by
        rcases runs_bind_iff.mp hlast with ⟨_, hrecord, -⟩ | ⟨_, recorded, end', rfl, hrecord, hend⟩
        · obtain ⟨_, rfl, -⟩ := runs_ask_iff.mp hrecord
          rfl
        · obtain ⟨_, rfl, -⟩ := runs_ask_iff.mp hrecord
          obtain ⟨rfl, -⟩ := runs_ofExcept_iff.mp hend
          rfl
      rw [hlast]
      rfl
  | ok stored =>
      have hlast : CliAct.targets last = [] := by
        rcases runs_bind_iff.mp hlast with ⟨_, hdecrypt, -⟩ | ⟨plaintext, _, rest, rfl, hdecrypt, hrecord⟩
        · obtain ⟨rfl, -⟩ := runs_ofExcept_iff.mp hdecrypt
          rfl
        · obtain ⟨rfl, -⟩ := runs_ofExcept_iff.mp hdecrypt
          rcases runs_bind_iff.mp hrecord with ⟨_, hask, -⟩ | ⟨_, recorded, end', rfl, hask, hend⟩
          · obtain ⟨_, rfl, -⟩ := runs_ask_iff.mp hask
            rfl
          · obtain ⟨_, rfl, -⟩ := runs_ask_iff.mp hask
            obtain ⟨rfl, -⟩ := runs_pure_iff.mp hend
            rfl
      rw [hlast]
      rfl

/-- The number of the version that a deletion is about. -/
theorem runs_deletedVersion_ok {path : SecretPath u} {wanted : SecretVersion}
    (h : Runs (Cli.deletedVersion path version) acts (.ok wanted))
    (hanswered : ∀ act ∈ acts, CliAct.AnsweredBy fault tables act) :
    tables.deletable fault path (version.bind SecretVersion.new) = [(path, wanted)] ∧
      CliAct.targets acts = [] := by
  unfold Cli.deletedVersion at h
  cases hversion : version.bind SecretVersion.new with
  | some given =>
      rw [hversion] at h
      obtain ⟨rfl, hgiven⟩ := runs_pure_iff.mp h
      cases hgiven
      exact ⟨rfl, rfl⟩
  | none =>
      rw [hversion] at h
      obtain ⟨reply, rfl, hended⟩ := runs_ask_iff.mp h
      have hreply : reply = tables.metadata fault path := hanswered ⟨.metadata path, reply⟩ (by simp)
      unfold SecretTables.deletable
      rw [← hreply]
      cases reply with
      | error error => cases hended
      | ok found =>
          dsimp only at hended ⊢
          cases hcurrent : found.currentVersion with
          | none =>
              rw [hcurrent] at hended
              cases hended
          | some current =>
              rw [hcurrent] at hended
              cases hended
              exact ⟨rfl, rfl⟩

theorem runs_deletedVersion_error {path : SecretPath u} {error : CliError}
    (h : Runs (Cli.deletedVersion path version) acts (.error error))
    (hanswered : ∀ act ∈ acts, CliAct.AnsweredBy fault tables act) :
    tables.deletable fault path (version.bind SecretVersion.new) = [] ∧ CliAct.targets acts = [] := by
  unfold Cli.deletedVersion at h
  cases hversion : version.bind SecretVersion.new with
  | some given =>
      rw [hversion] at h
      obtain ⟨-, hgiven⟩ := runs_pure_iff.mp h
      cases hgiven
  | none =>
      rw [hversion] at h
      obtain ⟨reply, rfl, hended⟩ := runs_ask_iff.mp h
      have hreply : reply = tables.metadata fault path := hanswered ⟨.metadata path, reply⟩ (by simp)
      unfold SecretTables.deletable
      rw [← hreply]
      cases reply with
      | error error => exact ⟨rfl, rfl⟩
      | ok found =>
          dsimp only at hended ⊢
          cases hcurrent : found.currentVersion with
          | none => exact ⟨rfl, rfl⟩
          | some current =>
              rw [hcurrent] at hended
              cases hended

/-- What a command that deletes a version deletes. -/
theorem runs_delete_targets {result : Except CliError Unit}
    (h : Runs (Cli.delete host raw version) acts result)
    (hanswered : ∀ act ∈ acts, CliAct.AnsweredBy fault tables act)
    (hacting : CliAct.targets acts ≠ [] ∨ CliAct.Served acts) :
    ∃ path, SecretPath.parse u raw = .ok path ∧ rejectReserved path = .ok () ∧
      CliAct.targets acts = tables.deletable fault path (version.bind SecretVersion.new) := by
  unfold Cli.delete at h
  rcases runs_bind_iff.mp h with ⟨error, hparse, -⟩ | ⟨path, front, rest, rfl, hparse, hchecked⟩
  · obtain ⟨rfl, -⟩ := runs_ofExcept_iff.mp hparse
    exact absurd hacting outside_nil.not_acting
  obtain ⟨rfl, hpath⟩ := runs_ofExcept_iff.mp hparse
  rcases runs_bind_iff.mp hchecked with ⟨error, hcheck, -⟩ | ⟨⟨⟩, checked, more, rfl, hcheck, hopen⟩
  · obtain ⟨rfl, -⟩ := runs_ofExcept_iff.mp hcheck
    exact absurd hacting outside_nil.not_acting
  obtain ⟨rfl, hreserved⟩ := runs_ofExcept_iff.mp hcheck
  rcases runs_bind_iff.mp hopen with ⟨error, hsession, -⟩ | ⟨root, opened, asked, rfl, hsession, hversion⟩
  · exact absurd hacting (runs_openOrServed_error hsession).not_acting
  rw [runs_openOrServed_ok hsession] at hanswered hacting ⊢
  refine ⟨path, Loop.mapError_eq_ok hpath.symm, Loop.mapError_eq_ok hreserved.symm, ?_⟩
  have htargets : CliAct.targets ([] ++ ([] ++ ([⟨.openSession, .ok root⟩] ++ asked))) =
      CliAct.targets asked := rfl
  have hasked : ∀ act ∈ asked, CliAct.AnsweredBy fault tables act :=
    fun act hmem => hanswered act (by simp [hmem])
  have htaken : CliAct.targets asked ≠ [] ∨ TrailAccepts asked := by
    rcases hacting with hsome | ⟨-, haccepts⟩
    · exact .inl (htargets ▸ hsome)
    · exact .inr fun entry refused hmem => haccepts entry refused (by simp [hmem])
  rw [htargets]
  rcases runs_bind_iff.mp hversion with ⟨error, hwanted, -⟩ |
    ⟨wanted, resolving, recording, rfl, hwanted, hrecord⟩
  · obtain ⟨hnothing, hnone⟩ := runs_deletedVersion_error hwanted hasked
    rw [hnothing, hnone]
  obtain ⟨hdeletable, hnone⟩ := runs_deletedVersion_ok hwanted fun act hmem =>
    hasked act (List.mem_append_left _ hmem)
  rw [hdeletable, CliAct.targets_append, hnone, List.nil_append]
  rcases runs_bind_iff.mp hrecord with ⟨error, hrefused, -⟩ | ⟨⟨⟩, recorded, last, rfl, hrecorded, hdelete⟩
  · obtain ⟨reply, rfl, hreply⟩ := runs_ask_iff.mp hrefused
    cases reply with
    | ok taken => cases hreply
    | error refused =>
        rcases htaken with hsome | haccepts
        · rw [CliAct.targets_append, hnone] at hsome
          exact absurd rfl hsome
        · exact (haccepts _ refused (List.mem_append_right _ (List.mem_singleton_self _))).elim
  · obtain ⟨reply, rfl, -⟩ := runs_ask_iff.mp hrecorded
    rcases runs_bind_iff.mp hdelete with ⟨error, hask, -⟩ | ⟨⟨⟩, deleted, printed, rfl, hask, hprint⟩
    · obtain ⟨reply, rfl, -⟩ := runs_ask_iff.mp hask
      rfl
    · obtain ⟨reply, rfl, -⟩ := runs_ask_iff.mp hask
      obtain ⟨_, rfl, -⟩ := runs_ask_iff.mp hprint
      rfl

end Commands

/-! ### The handlers -/

section Handlers

variable {deployment : Deployment} {headers : Headers} {served : List (ApiAct u)}

theorem Unguarded.targets (h : Unguarded served) : ApiAct.targets served = [] := by
  refine List.filterMap_eq_nil_iff.mpr fun act hmem => ?_
  have hguarded := h act hmem
  obtain ⟨call, reply⟩ := act
  cases call with
  | get => cases hguarded
  | delete => cases hguarded
  | _ => rfl

theorem Refusing.not_admitted (h : Refusing served) : ¬ Admitted served := by
  rintro ⟨entry, hmem, hallowed⟩
  rw [h.allowed hmem] at hallowed
  cases hallowed

/-- What a handler that lets its caller in has gone through, up to what it then does. -/
theorem Gated.of_admitted {α β : Type} {action : Action} {capability : Capability}
    {check : SecretPath u → Except ApiError β} {rest : Caller → SecretPath u → β → Api u α}
    {answer : Except ApiError α}
    (h : Gated deployment headers action capability raw check rest served answer)
    (hadmitted : Admitted served) :
    ∃ caller path b more, parsePath u raw = .ok path ∧ check path = .ok b ∧
      (∀ act ∈ more, act ∈ served) ∧ Runs (rest caller path b) more answer ∧
      ApiAct.targets served = ApiAct.targets more := by
  cases h with
  | turnedAway _ haway => exact absurd hadmitted haway.refusing.not_admitted
  | unchecked _ _ _ hpresented => exact absurd hadmitted hpresented.quiet.refusing.not_admitted
  | undecided _ _ _ _ _ _ hdecided => exact absurd hadmitted hdecided.refusing.not_admitted
  | @admitted front more _ caller path b hparse hcheck hallowed hrest =>
      refine ⟨caller, path, b, more, hparse, hcheck, fun act => List.mem_append_right _, hrest, ?_⟩
      rw [ApiAct.targets_append, hallowed.unguarded.targets, List.nil_append]

/-- What a handler that reads a version reads. -/
theorem runs_readSecret_targets {answer : Except ApiError ApiResponse}
    (h : Runs (readSecret deployment headers raw ⟨version⟩ : Api u ApiResponse) served answer)
    (hanswered : ∀ act ∈ served, ApiAct.AnsweredBy fault tables act) (hadmitted : Admitted served) :
    ∃ path, SecretPath.parse u raw = .ok path ∧
      ApiAct.targets served = match (VersionQuery.mk version).parsed with
        | .ok wanted => tables.found fault path wanted
        | .error _ => [] := by
  obtain ⟨caller, path, ⟨⟩, more, hparse, -, hmore, hrest, htargets⟩ :=
    (runs_readSecret h).of_admitted hadmitted
  refine ⟨path, Loop.mapError_eq_ok hparse, ?_⟩
  rw [htargets]
  rcases runs_bind_iff.mp hrest with ⟨refused, hparsed, -⟩ | ⟨wanted, front, last, rfl, hparsed, hserve⟩
  · obtain ⟨rfl, hrefused⟩ := runs_ofExcept_iff.mp hparsed
    rw [← hrefused]
    rfl
  obtain ⟨rfl, hwanted⟩ := runs_ofExcept_iff.mp hparsed
  rw [← hwanted]
  obtain ⟨reply, rest, rfl, hlast⟩ := runs_asked_bind_iff.mp hserve
  have hreply : reply = tables.get fault path wanted :=
    hanswered ⟨.get path wanted, reply⟩ (hmore _ (by simp))
  have hrecords : ApiAct.targets rest = [] := by
    cases reply with
    | error error =>
        obtain ⟨_, _, rfl, -⟩ := runs_record_refused hlast
        rfl
    | ok stored =>
        dsimp only [Except.mapError] at hlast
        cases hdecrypt : decryptToText deployment stored with
        | error error =>
            rw [hdecrypt] at hlast
            obtain ⟨_, _, rfl, -⟩ := runs_record_refused hlast
            rfl
        | ok value =>
            rw [hdecrypt] at hlast
            obtain ⟨rfl, -⟩ := runs_pure_iff.mp hlast
            rfl
  have hone : ApiAct.targets ([] ++ ⟨.get path wanted, reply⟩ :: rest) =
      ApiAct.targets [⟨.get path wanted, reply⟩] ++ ApiAct.targets rest :=
    ApiAct.targets_append [⟨.get path wanted, reply⟩] rest
  rw [hone, hrecords, List.append_nil]
  unfold SecretTables.found
  dsimp only
  rw [← hreply]
  cases reply with
  | error error => rfl
  | ok stored => rfl

/-- The version that a deletion is about, in a handler. -/
theorem runs_deletedVersion_targets {path : SecretPath u} {answer : Except ApiError SecretVersion}
    (h : Runs (deletedVersion path ⟨version⟩) served answer)
    (hanswered : ∀ act ∈ served, ApiAct.AnsweredBy fault tables act) :
    ApiAct.targets served = [] ∧
      (match (VersionQuery.mk version).parsed with
        | .ok wanted => tables.deletable fault path wanted
        | .error _ => []) = (answer.toOption.map fun wanted => (path, wanted)).toList := by
  unfold deletedVersion at h
  rcases runs_bind_iff.mp h with ⟨refused, hparsed, rfl⟩ | ⟨wanted, front, rest, rfl, hparsed, hrest⟩
  · obtain ⟨rfl, hrefused⟩ := runs_ofExcept_iff.mp hparsed
    rw [← hrefused]
    exact ⟨rfl, rfl⟩
  obtain ⟨rfl, hwanted⟩ := runs_ofExcept_iff.mp hparsed
  rw [← hwanted]
  cases wanted with
  | some given =>
      obtain ⟨rfl, rfl⟩ := runs_pure_iff.mp hrest
      exact ⟨rfl, rfl⟩
  | none =>
      dsimp only [SecretTables.deletable]
      rcases runs_bind_iff.mp hrest with ⟨failed, hask, rfl⟩ | ⟨found, asked, last, rfl, hask, hlast⟩
      · obtain ⟨reply, rfl, hfailed⟩ := runs_ask_iff.mp hask
        have hreply : reply = tables.metadata fault path := hanswered ⟨.metadata path, reply⟩ (by simp)
        rw [← hreply]
        cases reply with
        | error error => exact ⟨rfl, rfl⟩
        | ok found => cases hfailed
      · obtain ⟨reply, rfl, hfound⟩ := runs_ask_iff.mp hask
        have hreply : reply = tables.metadata fault path := hanswered ⟨.metadata path, reply⟩ (by simp)
        rw [← hreply]
        cases reply with
        | error error => cases hfound
        | ok metadata =>
            cases hfound
            dsimp only
            cases hcurrent : found.currentVersion with
            | none =>
                rw [hcurrent] at hlast
                obtain ⟨rfl, rfl⟩ := runs_ofExcept_iff.mp hlast
                exact ⟨rfl, rfl⟩
            | some current =>
                rw [hcurrent] at hlast
                obtain ⟨rfl, rfl⟩ := runs_pure_iff.mp hlast
                exact ⟨rfl, rfl⟩

theorem runs_deleteVersion_targets {path : SecretPath u} {answer : Except ApiError Unit}
    (h : Runs (deleteVersion path ⟨version⟩) served answer)
    (hanswered : ∀ act ∈ served, ApiAct.AnsweredBy fault tables act) :
    ApiAct.targets served = match (VersionQuery.mk version).parsed with
      | .ok wanted => tables.deletable fault path wanted
      | .error _ => [] := by
  rcases runs_bind_iff.mp h with ⟨refused, hversion, -⟩ | ⟨wanted, front, rest, rfl, hversion, hdelete⟩
  · obtain ⟨hnone, hdeletable⟩ := runs_deletedVersion_targets hversion hanswered
    rw [hnone, hdeletable]
    rfl
  · obtain ⟨hnone, hdeletable⟩ := runs_deletedVersion_targets hversion fun act hmem =>
      hanswered act (List.mem_append_left _ hmem)
    obtain ⟨reply, rfl, -⟩ := runs_ask_iff.mp hdelete
    rw [ApiAct.targets_append, hnone, hdeletable]
    rfl

/-- What a handler that deletes a version deletes. -/
theorem runs_deleteSecret_targets {answer : Except ApiError ApiResponse}
    (h : Runs (deleteSecret deployment headers raw ⟨version⟩ : Api u ApiResponse) served answer)
    (hanswered : ∀ act ∈ served, ApiAct.AnsweredBy fault tables act) (hadmitted : Admitted served) :
    ∃ path, SecretPath.parse u raw = .ok path ∧ rejectReserved path = .ok () ∧
      ApiAct.targets served = match (VersionQuery.mk version).parsed with
        | .ok wanted => tables.deletable fault path wanted
        | .error _ => [] := by
  obtain ⟨caller, path, ⟨⟩, more, hparse, hcheck, hmore, hrest, htargets⟩ :=
    (runs_deleteSecret h).of_admitted hadmitted
  refine ⟨path, Loop.mapError_eq_ok hparse, Loop.mapError_eq_ok hcheck, ?_⟩
  have hworked : ∀ {work : List (ApiAct u)} {ended : Except ApiError Unit},
      Runs (completeOrRecord caller .delete path headers.requestContext "delete-failed"
        (deleteVersion path ⟨version⟩)) work ended → (∀ act ∈ work, act ∈ more) →
      ApiAct.targets work = match (VersionQuery.mk version).parsed with
        | .ok wanted => tables.deletable fault path wanted
        | .error _ => [] := by
    intro work ended hwork hinside
    have hasked : ∀ act ∈ work, ApiAct.AnsweredBy fault tables act :=
      fun act hmem => hanswered act (hmore act (hinside act hmem))
    rcases runs_completeOrRecord hwork with ⟨_, hdone, -⟩ | ⟨failed, done, corrected, rfl, hdone, hcorrected⟩
    · exact runs_deleteVersion_targets hdone hasked
    · have hdeleted := runs_deleteVersion_targets hdone fun act hmem =>
        hasked act (List.mem_append_left _ hmem)
      obtain ⟨_, _, rfl, -⟩ := hcorrected
      rw [ApiAct.targets_append, hdeleted]
      exact List.append_nil _
  rw [htargets]
  rcases runs_bind_iff.mp hrest with ⟨refused, hwork, -⟩ | ⟨⟨⟩, front, last, rfl, hwork, hpure⟩
  · exact hworked hwork fun act hmem => hmem
  · obtain ⟨rfl, -⟩ := runs_pure_iff.mp hpure
    rw [List.append_nil]
    exact hworked hwork fun act hmem => List.mem_append_left _ hmem

end Handlers

/-! ### Number zero -/

section Zero

/-- A rule that allows whatever is read or deleted. -/
def openRule : Rule := ⟨⟨[.rest], "**", by decide +kernel⟩, {.read, .delete}⟩

def openPolicies : PolicySet where
  identities := [⟨"anyone", .machine, ["open"], List.nodup_singleton _⟩]
  policies := [⟨"open", [openRule], List.nodup_singleton _⟩]
  identities_nodup := List.nodup_singleton _
  policies_nodup := List.nodup_singleton _
  attached := by simp

theorem openRule_matches (path : SecretPath u) : openRule.pattern.matchesPath path = true := by
  unfold PathPattern.matchesPath
  cases hsegments : path.segments with
  | nil =>
      have hsplit : path.text.toList.splitOn '/' = [] := List.map_eq_nil_iff.mp hsegments
      exact absurd hsplit (List.splitOnP_ne_nil _ _)
  | cons first rest => rfl

theorem openPolicies_allows (path : SecretPath u) {capability : Capability}
    (hcapability : capability = .read ∨ capability = .delete) :
    (openPolicies.evaluate "anyone" path capability).isAllowed = true := by
  have hmatching : openPolicies.matching ⟨"anyone", .machine, ["open"], List.nodup_singleton _⟩ path =
      [(openRule, "open")] := by
    have hpolicy : openPolicies.policy "open" = some ⟨"open", [openRule], List.nodup_singleton _⟩ := rfl
    have hrule : [openRule].filter (fun rule => rule.pattern.matchesPath path) = [openRule] :=
      List.filter_cons_of_pos (openRule_matches path)
    unfold PolicySet.matching
    rw [List.flatMap_singleton, hpolicy]
    dsimp only
    rw [hrule]
    rfl
  have hwinners : PolicySet.winners [(openRule, "open")] = [(openRule, "open")] := rfl
  have hgrants : Candidate.grants capability (openRule, "open") = true := by
    rcases hcapability with rfl | rfl <;> rfl
  have hidentity : openPolicies.identity "anyone" =
      some ⟨"anyone", .machine, ["open"], List.nodup_singleton _⟩ := rfl
  unfold PolicySet.evaluate
  rw [hidentity]
  simp only [hmatching, hwinners, List.filter_cons_of_pos hgrants]
  rfl

/-- A build without bait, where anyone with a token may read and delete. -/
def openDeployment : Deployment where
  policies := openPolicies
  root := ⟨Vector.replicate 32 0⟩
  sealId := "env"
  keySource := "env"
  surface := []
  federation := ⟨[]⟩
  honeypotAlert := false
  aead := ⟨fun _ _ _ _ => none, fun _ _ _ _ => none⟩
  hmac := fun _ _ => Vector.replicate 32 0
  libraries := ⟨fun _ _ _ _ => false, fun _ _ _ => false, fun _ => none⟩
  rawValue := fun _ => .ok ()

def openHeaders : Headers := ⟨some (utf8 "Bearer t"), none, none, none⟩

theorem openHeaders_bearerToken : openHeaders.bearerToken = some "t" := by
  decide +kernel

def anyone : Authenticated := ⟨"anyone", "t"⟩

/-- The caller of a handler is let in, and the number zero is refused. -/
theorem exists_refused_read {path : SecretPath u} (hparse : SecretPath.parse u raw = .ok path) :
    ∃ served answer, Runs (readSecret openDeployment openHeaders raw ⟨some 0⟩ : Api u ApiResponse) served
        answer ∧ (∀ act ∈ served, ApiAct.AnsweredBy fault tables act) ∧ Admitted served ∧
      ApiAct.targets served = [] := by
  have hpath : parsePath u raw = .ok path := by
    unfold parsePath
    rw [hparse]
    rfl
  have hallowed : (openDeployment.authorize (openDeployment.callerOf anyone) .read path).isAllowed = true :=
    openPolicies_allows path (.inl rfl)
  have hserve : Runs (ofExcept (VersionQuery.mk (some 0)).parsed >>= fun version =>
      serveSecret openDeployment openHeaders (openDeployment.callerOf anyone) path version : Api u _) []
        (.error (.badRequest "version must be greater than zero")) :=
    Runs.bind_error (runs_ofExcept_iff.mpr ⟨rfl, rfl⟩)
  have hruns := runs_readSecret_of openHeaders_bearerToken hpath rfl hallowed hserve
  refine ⟨_, _, hruns, ?_, ⟨_, List.mem_singleton_self _, ?_⟩, rfl⟩
  · intro act hmem
    simp only [List.mem_cons, List.not_mem_nil, or_false] at hmem
    rcases hmem with rfl | rfl
    · exact trivial
    · exact trivial
  · rw [decisionEntry_allowed]
    exact hallowed

theorem runs_deleteSecret_of {deployment : Deployment} {headers : Headers} {path : SecretPath u}
    {presented : String} {one : Authenticated} {query : VersionQuery} {more : List (ApiAct u)}
    {answer : Except ApiError ApiResponse} (hbearer : headers.bearerToken = some presented)
    (hparse : parsePath u raw = .ok path) (hcheck : refuseReserved path = .ok ())
    (hbuild : deployment.honeypotAlert = false)
    (hallowed : (deployment.authorize (deployment.callerOf one) .delete path).isAllowed = true)
    (hrest : Runs (do
      completeOrRecord (deployment.callerOf one) .delete path headers.requestContext "delete-failed"
        (deleteVersion path query)
      return ApiResponse.noContent : Api u ApiResponse) more answer) :
    Runs (deleteSecret deployment headers raw query)
      (⟨.authenticate presented, .ok (.valid one)⟩ ::
        ⟨.record (decisionEntry (deployment.callerOf one) .delete path none headers.requestContext
          (deployment.authorize (deployment.callerOf one) .delete path) none), .ok ()⟩ :: more) answer := by
  change Runs (do
    let caller ← deployment.authenticated headers .delete headers.requestContext
    let path ← parsePathRecorded caller .delete headers.requestContext raw
    let b ← ofExcept (refuseReserved path)
    deployment.authorizeAndRecord caller .delete .delete path headers.requestContext
    let _ : Unit := b
    completeOrRecord caller .delete path headers.requestContext "delete-failed" (deleteVersion path query)
    return ApiResponse.noContent) _ _
  exact runs_gated_of hbearer hparse hcheck hbuild hallowed hrest

theorem exists_refused_delete {path : SecretPath u} (hparse : SecretPath.parse u raw = .ok path)
    (hreserved : rejectReserved path = .ok ()) :
    ∃ served answer, Runs (deleteSecret openDeployment openHeaders raw ⟨some 0⟩ : Api u ApiResponse) served
        answer ∧ (∀ act ∈ served, ApiAct.AnsweredBy fault tables act) ∧ Admitted served ∧
      ApiAct.targets served = [] := by
  have hpath : parsePath u raw = .ok path := by
    unfold parsePath
    rw [hparse]
    rfl
  have hcheck : refuseReserved path = .ok () := by
    unfold refuseReserved
    rw [hreserved]
    rfl
  have hallowed : (openDeployment.authorize (openDeployment.callerOf anyone) .delete path).isAllowed = true :=
    openPolicies_allows path (.inr rfl)
  have hwork : Runs (deleteVersion path ⟨some 0⟩ : Api u Unit) []
      (.error (.badRequest "version must be greater than zero")) :=
    Runs.bind_error (Runs.bind_error (runs_ofExcept_iff.mpr ⟨rfl, rfl⟩))
  have hrest : Runs (do
      completeOrRecord (openDeployment.callerOf anyone) .delete path openHeaders.requestContext "delete-failed"
        (deleteVersion path ⟨some 0⟩)
      return ApiResponse.noContent : Api u ApiResponse)
      [⟨.record (outcomeEntry (openDeployment.callerOf anyone) .delete (some path)
        openHeaders.requestContext 400 (some "delete-failed")), .ok ()⟩]
      (.error (.badRequest "version must be greater than zero")) := by
    apply Runs.bind_error
    exact (runs_outcome_iff.mpr ⟨_, hwork, rfl⟩).bind (Runs.ask_bind rfl (.done _))
  have hruns := runs_deleteSecret_of openHeaders_bearerToken hpath hcheck rfl hallowed hrest
  refine ⟨_, _, hruns, ?_, ⟨_, List.mem_cons_self, ?_⟩, rfl⟩
  · intro act hmem
    simp only [List.mem_cons, List.not_mem_nil, or_false] at hmem
    rcases hmem with rfl | rfl | rfl
    · exact trivial
    · exact trivial
    · exact trivial
  · rw [decisionEntry_allowed]
    exact hallowed

/-- A command that is given the number zero reads the current version. -/
theorem exists_replaced_read (host : CliHost u) {path : SecretPath u} {stored : StoredVersion u}
    (hparse : SecretPath.parse u raw = .ok path) (hget : tables.get fault path none = .ok stored) :
    ∃ acts result, Runs (Cli.get host raw (some 0) true) acts result ∧
      (∀ act ∈ acts, CliAct.AnsweredBy fault tables act) ∧
      CliAct.targets acts = [(stored.path, stored.version)] := by
  have hpath : (SecretPath.parse u raw).mapError CliError.path = .ok path := by
    rw [hparse]
    rfl
  cases hdecrypt : (decrypt host.aead ⟨Vector.replicate 32 0⟩ stored.path stored.version stored.value).mapError
      CliError.crypto with
  | error error =>
      refine ⟨[⟨.openSession, .ok ⟨Vector.replicate 32 0⟩⟩, ⟨.get path none, .ok stored⟩], .error error,
        ?_, ?_, rfl⟩
      · refine Runs.ofExcept_bind hpath (Runs.bind (runs_pure_iff.mpr ⟨rfl, rfl⟩) ?_)
        refine Runs.ask_bind rfl (Runs.ask_bind rfl ?_)
        exact Runs.bind_error (runs_ofExcept_iff.mpr ⟨rfl, hdecrypt.symm⟩)
      · intro act hmem
        simp only [List.mem_cons, List.not_mem_nil, or_false] at hmem
        rcases hmem with rfl | rfl
        · exact trivial
        · exact hget.symm
  | ok plaintext =>
      refine ⟨[⟨.openSession, .ok ⟨Vector.replicate 32 0⟩⟩, ⟨.get path none, .ok stored⟩,
        ⟨.record (Cli.readEntry host stored), .ok ()⟩], .ok (plaintext ++ utf8 "\n"), ?_, ?_, rfl⟩
      · refine Runs.ofExcept_bind hpath (Runs.bind (runs_pure_iff.mpr ⟨rfl, rfl⟩) ?_)
        refine Runs.ask_bind rfl (Runs.ask_bind rfl ?_)
        exact Runs.ofExcept_bind hdecrypt (Runs.ask_bind rfl (.done _))
      · intro act hmem
        simp only [List.mem_cons, List.not_mem_nil, or_false] at hmem
        rcases hmem with rfl | rfl | rfl
        · exact trivial
        · exact hget.symm
        · exact trivial

theorem exists_replaced_delete (host : CliHost u) {path : SecretPath u} {found : SecretMetadata u}
    {current : SecretVersion} (hparse : SecretPath.parse u raw = .ok path)
    (hreserved : rejectReserved path = .ok ()) (hfound : tables.metadata fault path = .ok found)
    (hcurrent : found.currentVersion = some current) :
    ∃ acts result, Runs (Cli.delete host raw (some 0)) acts result ∧
      (∀ act ∈ acts, CliAct.AnsweredBy fault tables act) ∧ CliAct.targets acts = [(path, current)] := by
  have hpath : (SecretPath.parse u raw).mapError CliError.path = .ok path := by
    rw [hparse]
    rfl
  have hcheck : (rejectReserved path).mapError CliError.store = .ok () := by
    rw [hreserved]
    rfl
  refine ⟨[⟨.openSession, .ok ⟨Vector.replicate 32 0⟩⟩, ⟨.metadata path, .ok found⟩,
    ⟨.record (((Session.operatorEntry host .delete true none).withPath path).withVersion current.number),
      .ok ()⟩, ⟨.delete path current, .ok ()⟩,
    ⟨.print (path.text ++ " version " ++ toString current.number ++ " deleted\n"), ()⟩], .ok (), ?_, ?_, rfl⟩
  · refine Runs.ofExcept_bind hpath (Runs.ofExcept_bind hcheck (Runs.ask_bind rfl ?_))
    have hversion : Runs (Cli.deletedVersion path (some 0)) [⟨.metadata path, .ok found⟩] (.ok current) := by
      refine runs_ask_iff.mpr ⟨.ok found, rfl, ?_⟩
      simp only [hcurrent]
    refine hversion.bind (Runs.ask_bind rfl (Runs.ask_bind rfl ?_))
    exact runs_ask_iff.mpr ⟨(), rfl, rfl⟩
  · intro act hmem
    simp only [List.mem_cons, List.not_mem_nil, or_false] at hmem
    rcases hmem with rfl | rfl | rfl | rfl | rfl
    · exact trivial
    · exact hfound.symm
    · exact trivial
    · exact trivial
    · exact trivial

/-- Whoever runs the command. -/
def anyHost : CliHost u where
  user := none
  username := none
  aead := ⟨fun _ _ _ _ => none, fun _ _ _ _ => none⟩
  hmac := fun _ _ => Vector.replicate 32 0
  random := fun _ => none
  debug := Sample.plainDebug
  json := ⟨fun _ => none, fun _ => none⟩
  toStringPretty := fun _ => ""

end Zero

theorem get_resolvesAlike_iff :
    ResolvesAlike fault tables (fun (host : CliHost u) force => Cli.get host raw version force)
        (fun deployment headers => readSecret deployment headers raw ⟨version⟩) ↔
      (version = some 0 → ∀ path : SecretPath u, SecretPath.parse u raw = .ok path →
        ∀ stored, tables.get fault path none ≠ .ok stored) := by
  constructor
  · rintro h rfl path hparse stored hget
    obtain ⟨acts, result, hruns, hanswered, htargets⟩ := exists_replaced_read anyHost hparse hget
    obtain ⟨served, answer, hserved, hserving, hadmitted, hnone⟩ := exists_refused_read hparse
    have hacting : CliAct.targets acts ≠ [] := htargets ▸ List.cons_ne_nil _ _
    have hsame := h anyHost true acts result _ _ served answer hruns hanswered (.inl hacting) hserved
      hserving hadmitted
    exact hacting (hsame ▸ hnone)
  · intro hzero host force acts result deployment headers served answer hruns hanswered hacting hserved
      hserving hadmitted
    obtain ⟨path, hparse, htargets⟩ := runs_get_targets hruns hanswered hacting
    obtain ⟨path', hparse', htargets'⟩ := runs_readSecret_targets hserved hserving hadmitted
    cases hparse.symm.trans hparse'
    rw [htargets, htargets']
    rcases parsed_eq version with ⟨hparsed, -⟩ | ⟨hversion, hnone, refused, hparsed⟩
    · rw [hparsed]
    · rw [hparsed, hnone]
      unfold SecretTables.found
      cases hget : tables.get fault path none with
      | error error => rfl
      | ok stored => exact absurd hget (hzero hversion path hparse stored)

theorem delete_resolvesAlike_iff :
    ResolvesAlike fault tables (fun (host : CliHost u) _ => Cli.delete host raw version)
        (fun deployment headers => deleteSecret deployment headers raw ⟨version⟩) ↔
      (version = some 0 → ∀ path : SecretPath u, SecretPath.parse u raw = .ok path →
        rejectReserved path = .ok () → ∀ found, tables.metadata fault path = .ok found →
          found.currentVersion = none) := by
  constructor
  · rintro h rfl path hparse hreserved found hfound
    cases hcurrent : found.currentVersion with
    | none => rfl
    | some current =>
        obtain ⟨acts, result, hruns, hanswered, htargets⟩ :=
          exists_replaced_delete anyHost hparse hreserved hfound hcurrent
        obtain ⟨served, answer, hserved, hserving, hadmitted, hnone⟩ :=
          exists_refused_delete hparse hreserved
        have hacting : CliAct.targets acts ≠ [] := htargets ▸ List.cons_ne_nil _ _
        have hsame := h anyHost true acts result _ _ served answer hruns hanswered (.inl hacting) hserved
          hserving hadmitted
        exact absurd (hsame ▸ hnone) hacting
  · intro hzero host force acts result deployment headers served answer hruns hanswered hacting hserved
      hserving hadmitted
    obtain ⟨path, hparse, hreserved, htargets⟩ := runs_delete_targets hruns hanswered hacting
    obtain ⟨path', hparse', -, htargets'⟩ := runs_deleteSecret_targets hserved hserving hadmitted
    cases hparse.symm.trans hparse'
    rw [htargets, htargets']
    rcases parsed_eq version with ⟨hparsed, -⟩ | ⟨hversion, hnone, refused, hparsed⟩
    · rw [hparsed]
    · rw [hparsed, hnone]
      unfold SecretTables.deletable
      cases hfound : tables.metadata fault path with
      | error error => rfl
      | ok found =>
          dsimp only
          rw [hzero hversion path hparse hreserved found hfound]
          rfl

/-- The commands act on the versions that the API acts on, unless they are given the number zero where
there is a current version. -/
theorem resolvesAlike_iff :
    (ResolvesAlike fault tables (fun (host : CliHost u) force => Cli.get host raw version force)
        (fun deployment headers => readSecret deployment headers raw ⟨version⟩) ↔
      (version = some 0 → ∀ path : SecretPath u, SecretPath.parse u raw = .ok path →
        ∀ stored, tables.get fault path none ≠ .ok stored)) ∧
    (ResolvesAlike fault tables (fun (host : CliHost u) _ => Cli.delete host raw version)
        (fun deployment headers => deleteSecret deployment headers raw ⟨version⟩) ↔
      (version = some 0 → ∀ path : SecretPath u, SecretPath.parse u raw = .ok path →
        rejectReserved path = .ok () → ∀ found, tables.metadata fault path = .ok found →
          found.currentVersion = none)) :=
  ⟨get_resolvesAlike_iff, delete_resolvesAlike_iff⟩

namespace Sample

/-- `ciphr delete infra/DB --version 0` deletes the current version, where the API refuses. -/
theorem zero_deletes_current : ¬ ResolvesAlike (fun _ => none) hostStore.secrets
    (fun (host : CliHost asciiUnicode) _ => Cli.delete host "infra/DB" (some 0))
    (fun deployment headers => deleteSecret deployment headers "infra/DB" ⟨some 0⟩) := by
  intro h
  have hparse : SecretPath.parse asciiUnicode "infra/DB" = .ok dbPath := by
    decide +kernel
  have hcurrent : (hostStore.secrets.metadata (fun _ => none) dbPath).toOption.bind (·.currentVersion) ≠
      none := by
    decide +kernel
  cases hfound : hostStore.secrets.metadata (fun _ => none) dbPath with
  | error error =>
      rw [hfound] at hcurrent
      exact hcurrent rfl
  | ok found =>
      rw [hfound] at hcurrent
      exact hcurrent (delete_resolvesAlike_iff.mp h rfl dbPath hparse rfl found hfound)

end Sample

end Ciphr
