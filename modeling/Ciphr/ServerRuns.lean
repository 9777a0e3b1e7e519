import Ciphr.ServerApi

/-!
What the parts that the handlers share have asked and recorded when they end. The replies are any
replies: the store may answer anything, and so may the devices of the audit trail.
-/

namespace Ciphr

open Script

variable {u : Unicode}

namespace ApiAct

/-- The entry that an act has committed to the trail. -/
def committed : ApiAct u → Option Entry
  | ⟨.record entry, .ok ()⟩ => some entry
  | _ => none

/-- A call that changes a row of the store, the last use of a token apart. -/
def changesRows (act : ApiAct u) : Bool :=
  match act.1 with
  | .putWithRotation _ _ _ _ | .delete _ _ | .revokeToken _ | .issueToken _ _ _ _ => true
  | _ => false

/-- A call that changes a row, or reads a value. -/
def isGuarded (act : ApiAct u) : Bool :=
  match act.1 with
  | .get _ _ => true
  | _ => act.changesRows

/-- The act neither records anything nor changes a row nor reads a value. -/
def isQuery (act : ApiAct u) : Bool :=
  match act.1 with
  | .record _ => false
  | _ => !act.isGuarded

/-- The act neither records that something was allowed nor changes a row nor reads a value. -/
def refuses (act : ApiAct u) : Bool := act.committed.all (!·.allowed) && !act.isGuarded

end ApiAct

/-- What was committed to the trail, in order. -/
def entries (acts : List (ApiAct u)) : List Entry := acts.filterMap ApiAct.committed

/-- The audit devices accepted every record. -/
def Accepting (acts : List (ApiAct u)) : Prop :=
  ∀ entry error, (⟨.record entry, .error error⟩ : ApiAct u) ∉ acts

/-- The act is not a record that was refused. -/
def ApiAct.accepted : ApiAct u → Bool
  | ⟨.record _, .error _⟩ => false
  | _ => true

theorem accepting_iff {acts : List (ApiAct u)} :
    Accepting acts ↔ acts.all ApiAct.accepted = true := by
  rw [List.all_eq_true]
  constructor
  · rintro h ⟨c, reply⟩ hmem
    cases c with
    | record entry =>
        cases reply with
        | error error => exact absurd hmem (h entry error)
        | ok => rfl
    | _ => rfl
  · intro h entry error hmem
    cases h _ hmem

instance (acts : List (ApiAct u)) : Decidable (Accepting acts) :=
  decidable_of_iff _ accepting_iff.symm

/-- Nothing was recorded, no row changed and no value was read. -/
def Quiet (acts : List (ApiAct u)) : Prop := ∀ act ∈ acts, act.isQuery = true

/-- Nothing was recorded as allowed, no row changed and no value was read. -/
def Refusing (acts : List (ApiAct u)) : Prop := ∀ act ∈ acts, act.refuses = true

@[simp] theorem entries_nil : entries ([] : List (ApiAct u)) = [] := rfl

@[simp] theorem entries_append (acts acts' : List (ApiAct u)) :
    entries (acts ++ acts') = entries acts ++ entries acts' :=
  List.filterMap_append

@[simp] theorem entries_record_ok (entry : Entry) (acts : List (ApiAct u)) :
    entries ((⟨.record entry, .ok ()⟩ : ApiAct u) :: acts) = entry :: entries acts := rfl

@[simp] theorem entries_record_error (entry : Entry) (error : ApiError) (acts : List (ApiAct u)) :
    entries ((⟨.record entry, .error error⟩ : ApiAct u) :: acts) = entries acts := rfl

theorem ApiAct.committed_of_isQuery {act : ApiAct u} (h : act.isQuery = true) :
    act.committed = none := by
  obtain ⟨c, reply⟩ := act
  cases c with
  | record entry => cases h
  | _ => rfl

theorem Quiet.entries {acts : List (ApiAct u)} (h : Quiet acts) : entries acts = [] := by
  apply List.filterMap_eq_nil_iff.mpr
  intro act hmem
  exact ApiAct.committed_of_isQuery (h act hmem)

theorem quiet_nil : Quiet ([] : List (ApiAct u)) := by
  intro act hmem
  cases hmem

theorem quiet_cons {act : ApiAct u} {acts : List (ApiAct u)} (h : act.isQuery = true)
    (hquiet : Quiet acts) : Quiet (act :: acts) := by
  intro other hmem
  rcases List.mem_cons.mp hmem with rfl | hmem
  · exact h
  · exact hquiet other hmem

theorem quiet_singleton {act : ApiAct u} (h : act.isQuery = true) : Quiet [act] := by
  intro other hmem
  rwa [List.mem_singleton.mp hmem]

theorem quiet_append {acts acts' : List (ApiAct u)} (h : Quiet acts) (h' : Quiet acts') :
    Quiet (acts ++ acts') := by
  intro act hmem
  rcases List.mem_append.mp hmem with hleft | hright
  · exact h act hleft
  · exact h' act hright

@[simp] theorem accepting_append {acts acts' : List (ApiAct u)} :
    Accepting (acts ++ acts') ↔ Accepting acts ∧ Accepting acts' := by
  constructor
  · intro h
    exact ⟨fun entry error hmem => h entry error (List.mem_append_left _ hmem),
      fun entry error hmem => h entry error (List.mem_append_right _ hmem)⟩
  · rintro ⟨h, h'⟩ entry error hmem
    rcases List.mem_append.mp hmem with hleft | hright
    · exact h entry error hleft
    · exact h' entry error hright

theorem not_accepting_record {entry : Entry} {error : ApiError} {acts : List (ApiAct u)} :
    ¬ Accepting ((⟨.record entry, .error error⟩ : ApiAct u) :: acts) := by
  intro h
  exact h entry error (List.mem_cons_self ..)

theorem Quiet.accepting {acts : List (ApiAct u)} (h : Quiet acts) : Accepting acts := by
  intro entry error hmem
  have hquery := h _ hmem
  cases hquery

theorem ApiAct.refuses_of_isQuery {act : ApiAct u} (h : act.isQuery = true) :
    act.refuses = true := by
  have hcommitted := ApiAct.committed_of_isQuery h
  obtain ⟨c, reply⟩ := act
  unfold ApiAct.refuses
  rw [hcommitted]
  cases c with
  | record entry => rfl
  | _ => exact h

theorem Quiet.refusing {acts : List (ApiAct u)} (h : Quiet acts) : Refusing acts := by
  intro act hmem
  exact ApiAct.refuses_of_isQuery (h act hmem)

theorem Refusing.append {acts acts' : List (ApiAct u)} (h : Refusing acts) (h' : Refusing acts') :
    Refusing (acts ++ acts') := by
  intro act hmem
  rcases List.mem_append.mp hmem with hleft | hright
  · exact h act hleft
  · exact h' act hright

theorem refusing_record {entry : Entry} {reply : Except ApiError Unit}
    (h : reply = .ok () → entry.allowed = false) :
    Refusing ([⟨.record entry, reply⟩] : List (ApiAct u)) := by
  intro act hmem
  rw [List.mem_singleton.mp hmem]
  cases reply with
  | error refused => rfl
  | ok =>
      change (!entry.allowed && true) = true
      rw [h rfl]
      rfl

theorem Refusing.allowed {acts : List (ApiAct u)} (h : Refusing acts) {entry : Entry}
    (hmem : entry ∈ entries acts) : entry.allowed = false := by
  obtain ⟨act, hact, hcommitted⟩ := List.mem_filterMap.mp hmem
  have hrefuses := h _ hact
  unfold ApiAct.refuses at hrefuses
  rw [hcommitted] at hrefuses
  simp only [Option.all_some, Bool.and_eq_true, Bool.not_eq_true'] at hrefuses
  exact hrefuses.1

/-! ### Records -/

theorem runs_record_iff {entry : Entry} {acts : List (ApiAct u)} {result : Except ApiError Unit} :
    Runs (record entry : Api u Unit) acts result ↔
      ∃ reply : Except ApiError Unit, acts = [⟨.record entry, reply⟩] ∧ result = reply :=
  runs_ask_iff

/-- A record that is followed by the answer it stands for. -/
theorem runs_record_then {α : Type} {entry : Entry} {error : ApiError} {acts : List (ApiAct u)}
    {result : Except ApiError α}
    (h : Runs (do record entry; ofExcept (.error error) : Api u α) acts result) :
    (acts = [⟨.record entry, .ok ()⟩] ∧ result = .error error) ∨
      ∃ refused, acts = [⟨.record entry, .error refused⟩] ∧ result = .error refused := by
  rcases runs_bind_iff.mp h with ⟨refused, hrecord, rfl⟩ | ⟨⟨⟩, front, rest, rfl, hrecord, hrest⟩
  · obtain ⟨reply, rfl, hreply⟩ := runs_record_iff.mp hrecord
    rw [← hreply]
    exact .inr ⟨refused, rfl, rfl⟩
  · obtain ⟨reply, rfl, hreply⟩ := runs_record_iff.mp hrecord
    obtain ⟨rfl, rfl⟩ := runs_ofExcept_iff.mp hrest
    rw [← hreply]
    exact .inl ⟨rfl, rfl⟩

/-! ### Callers -/

/-- The token table says that the request comes from this caller. -/
def Presented (deployment : Deployment) (headers : Headers) (caller : Caller)
    (acts : List (ApiAct u)) : Prop :=
  ∃ presented one, headers.bearerToken = some presented ∧
    acts = [⟨.authenticate presented, .ok (.valid one)⟩] ∧
    caller = ⟨one.identity, one.tokenId, deployment.kindOf one.identity⟩

section Callers

variable {deployment : Deployment} {headers : Headers} {acts : List (ApiAct u)}

theorem Presented.quiet {caller : Caller} (h : Presented deployment headers caller acts) :
    Quiet acts := by
  obtain ⟨presented, one, -, rfl, -⟩ := h
  exact quiet_singleton rfl

theorem identify_eq_ok {outcome : Except StoreError Authentication} {caller : Caller}
    (h : deployment.identify outcome = .ok caller) :
    ∃ one, outcome = .ok (.valid one) ∧
      caller = ⟨one.identity, one.tokenId, deployment.kindOf one.identity⟩ := by
  unfold Deployment.identify at h
  split at h
  · cases h
  · cases h
  · cases h
  · rename_i one
    cases h
    exact ⟨one, rfl, rfl⟩

theorem runs_authenticate {bearer : Option String} {result : Except ApiError (Except Rejection Caller)}
    (h : Runs (deployment.authenticate bearer : Api u _) acts result) :
    (bearer = none ∧ acts = [] ∧ result = .ok (.error (.plain .unauthenticated))) ∨
      ∃ presented outcome, bearer = some presented ∧ acts = [⟨.authenticate presented, outcome⟩] ∧
        result = .ok (deployment.identify outcome) := by
  cases bearer with
  | none =>
      obtain ⟨rfl, rfl⟩ := runs_pure_iff.mp h
      exact .inl ⟨rfl, rfl, rfl⟩
  | some presented =>
      obtain ⟨outcome, rfl, rfl⟩ := runs_ask_iff.mp h
      exact .inr ⟨presented, outcome, rfl, rfl, rfl⟩

/-- Someone authenticates, and nothing but the token table was asked; or nobody does. -/
theorem runs_authenticate_cases {result : Except ApiError (Except Rejection Caller)}
    (h : Runs (deployment.authenticate headers.bearerToken : Api u _) acts result) :
    Quiet acts ∧ ((∃ caller, result = .ok (.ok caller) ∧ Presented deployment headers caller acts) ∨
      ∃ rejection, result = .ok (.error rejection)) := by
  rcases runs_authenticate h with ⟨-, rfl, rfl⟩ | ⟨presented, outcome, hbearer, rfl, rfl⟩
  · exact ⟨quiet_nil, .inr ⟨_, rfl⟩⟩
  · refine ⟨quiet_singleton rfl, ?_⟩
    cases hidentify : deployment.identify outcome with
    | error rejection => exact .inr ⟨rejection, rfl⟩
    | ok caller =>
        obtain ⟨one, rfl, hcaller⟩ := identify_eq_ok hidentify
        exact .inl ⟨caller, rfl, presented, one, hbearer, rfl, hcaller⟩

/-- Whenever the token table is asked for the credential of the request, it knows it. -/
def Authenticates (headers : Headers) (one : Authenticated) (acts : List (ApiAct u)) : Prop :=
  ∃ presented, headers.bearerToken = some presented ∧
    ∀ outcome, (⟨.authenticate presented, outcome⟩ : ApiAct u) ∈ acts → outcome = .ok (.valid one)

/-- An answer of the token table to the credential is that it is this one's. -/
def ApiAct.vouches (presented : String) (one : Authenticated) : ApiAct u → Bool
  | ⟨.authenticate other, .ok (.valid found)⟩ => other != presented || decide (found = one)
  | ⟨.authenticate other, _⟩ => other != presented
  | _ => true

theorem authenticates_of_all {presented : String} {one : Authenticated}
    (hbearer : headers.bearerToken = some presented)
    (h : acts.all (ApiAct.vouches presented one) = true) : Authenticates headers one acts := by
  refine ⟨presented, hbearer, fun outcome hmem => ?_⟩
  have hvouches := List.all_eq_true.mp h _ hmem
  rcases outcome with failed | found
  · exact absurd hvouches (by simp [ApiAct.vouches])
  · cases found with
    | valid other =>
        have hother : other = one := by simpa [ApiAct.vouches] using hvouches
        rw [hother]
    | invalid => exact absurd hvouches (by simp [ApiAct.vouches])
    | bait tokenId identity => exact absurd hvouches (by simp [ApiAct.vouches])

theorem Authenticates.of_append {one : Authenticated} {more : List (ApiAct u)}
    (h : Authenticates headers one (acts ++ more)) :
    Authenticates headers one acts ∧ Authenticates headers one more := by
  obtain ⟨presented, hbearer, hone⟩ := h
  exact ⟨⟨presented, hbearer, fun outcome hmem => hone outcome (List.mem_append_left _ hmem)⟩,
    ⟨presented, hbearer, fun outcome hmem => hone outcome (List.mem_append_right _ hmem)⟩⟩

/-- The caller that a known credential stands for. -/
def Deployment.callerOf (deployment : Deployment) (one : Authenticated) : Caller :=
  ⟨one.identity, one.tokenId, deployment.kindOf one.identity⟩

theorem Presented.eq_callerOf {caller : Caller} {one : Authenticated}
    (h : Presented deployment headers caller acts) (hone : Authenticates headers one acts) :
    caller = deployment.callerOf one := by
  obtain ⟨presented, other, hbearer, rfl, hcaller⟩ := h
  obtain ⟨presented', hbearer', hone⟩ := hone
  have hsame : presented' = presented := by
    rw [hbearer, Option.some.injEq] at hbearer'
    exact hbearer'.symm
  have hvalid := hone (.ok (.valid other)) (by rw [hsame]; exact List.mem_singleton_self _)
  cases hvalid
  exact hcaller

/-- The first thing that happened is that the token table knew the caller. -/
def KnownCaller (deployment : Deployment) (headers : Headers) (caller : Caller)
    (acts : List (ApiAct u)) : Prop :=
  ∃ front more, acts = front ++ more ∧ Presented deployment headers caller front

theorem KnownCaller.unique {caller caller' : Caller}
    (h : KnownCaller deployment headers caller acts)
    (h' : KnownCaller deployment headers caller' acts) : caller = caller' := by
  obtain ⟨front, more, rfl, presented, one, -, rfl, rfl⟩ := h
  obtain ⟨front', more', heq, presented', one', -, rfl, rfl⟩ := h'
  cases heq
  rfl

theorem runs_authenticate_error {result : Except ApiError (Except Rejection Caller)}
    {rejection : Rejection} (h : Runs (deployment.authenticate headers.bearerToken : Api u _) acts result)
    (hresult : result = .ok (.error rejection)) (one : Authenticated) :
    ¬ Authenticates headers one acts := by
  rintro ⟨presented, hbearer, hone⟩
  rcases runs_authenticate h with ⟨hnone, -, -⟩ | ⟨presented', outcome, hsome, rfl, hidentify⟩
  · rw [hbearer] at hnone
    cases hnone
  · rw [hbearer, Option.some.injEq] at hsome
    have hvalid := hone outcome (by rw [hsome]; exact List.mem_singleton_self _)
    rw [hvalid, hresult] at hidentify
    cases hidentify

theorem runs_recordRejection {action : Action} {request : RequestContext} {bait : Option Bait}
    {result : Except ApiError Unit}
    (h : Runs (deployment.recordRejection action request bait : Api u Unit) acts result) :
    Refusing acts := by
  unfold Deployment.recordRejection at h
  split at h
  · rcases runs_bind_iff.mp h with ⟨e, hrecord, -⟩ | ⟨⟨⟩, front, rest, rfl, hrecord, hlatch⟩
    · obtain ⟨reply, rfl, -⟩ := runs_record_iff.mp hrecord
      exact refusing_record fun _ => rfl
    · obtain ⟨reply, rfl, -⟩ := runs_record_iff.mp hrecord
      obtain ⟨_, rfl, -⟩ := runs_ask_iff.mp hlatch
      exact (refusing_record fun _ => rfl).append (quiet_singleton rfl).refusing
  · obtain ⟨reply, rfl, -⟩ := runs_record_iff.mp h
    exact refusing_record fun _ => rfl

/-- A handler goes on with a caller whom the token table knows, and with nothing recorded yet. -/
theorem runs_authenticated_ok {action : Action} {request : RequestContext} {caller : Caller}
    (h : Runs (deployment.authenticated headers action request : Api u Caller) acts (.ok caller)) :
    Presented deployment headers caller acts := by
  unfold Deployment.authenticated at h
  rcases runs_bind_iff.mp h with ⟨e, -, hresult⟩ | ⟨outcome, front, rest, rfl, hfirst, hrest⟩
  · cases hresult
  · obtain ⟨-, ⟨found, hok, hpresented⟩ | ⟨rejection, herror⟩⟩ := runs_authenticate_cases hfirst
    · cases hok
      obtain ⟨rfl, hcaller⟩ := runs_pure_iff.mp hrest
      cases hcaller
      rwa [List.append_nil]
    · cases herror
      rcases runs_bind_iff.mp hrest with ⟨e, -, hresult⟩ | ⟨_, _, _, -, -, hthrow⟩
      · cases hresult
      · cases (runs_ofExcept_iff.mp hthrow).2

/-- The token table does not know the credential of the request. -/
structure Unknown (deployment : Deployment) (headers : Headers) (acts : List (ApiAct u)) : Prop where
  authenticates : ∀ one, ¬ Authenticates headers one acts
  caller : ∀ caller, ¬ KnownCaller deployment headers caller acts

theorem runs_authenticated_error {action : Action} {request : RequestContext} {error : ApiError}
    (h : Runs (deployment.authenticated headers action request : Api u Caller) acts (.error error)) :
    Refusing acts ∧ Unknown deployment headers acts := by
  unfold Deployment.authenticated at h
  rcases runs_bind_iff.mp h with ⟨e, hfirst, -⟩ | ⟨outcome, front, rest, rfl, hfirst, hrest⟩
  · obtain ⟨-, ⟨found, hok, -⟩ | ⟨rejection, herror⟩⟩ := runs_authenticate_cases hfirst
    · cases hok
    · cases herror
  · obtain ⟨hquiet, ⟨found, hok, hpresented⟩ | ⟨rejection, herror⟩⟩ := runs_authenticate_cases hfirst
    · cases hok
      cases (runs_pure_iff.mp hrest).2
    · have hnobody := runs_authenticate_error hfirst herror
      refine ⟨hquiet.refusing.append ?_, fun one hone => hnobody one hone.of_append.1, ?_⟩
      · cases herror
        rcases runs_bind_iff.mp hrest with ⟨e, hreject, -⟩ | ⟨_, front', rest', rfl, hreject, hthrow⟩
        · exact runs_recordRejection hreject
        · obtain ⟨rfl, -⟩ := runs_ofExcept_iff.mp hthrow
          exact (runs_recordRejection hreject).append quiet_nil.refusing
      · -- the first act would be the one that has found nobody
        rintro caller ⟨known, more, heq, presented, one, hbearer, rfl, -⟩
        rcases runs_authenticate hfirst with ⟨hnone, -, -⟩ | ⟨presented', outcome', -, rfl, hfound⟩
        · rw [hbearer] at hnone
          cases hnone
        · cases heq
          rw [hfound] at herror
          cases herror

end Callers

/-! ### Requests that are refused -/

/-- The entry of a refusal is the one act of a run, which ends with an error. -/
def RefusedWith {α : Type} (entry : Entry) (acts : List (ApiAct u)) (result : Except ApiError α) :
    Prop :=
  ∃ reply error, acts = [⟨.record entry, reply⟩] ∧ result = .error error

theorem RefusedWith.refusing {α : Type} {entry : Entry} {acts : List (ApiAct u)}
    {result : Except ApiError α} (h : RefusedWith entry acts result) (hallowed : entry.allowed = false) :
    Refusing acts := by
  obtain ⟨reply, error, rfl, -⟩ := h
  exact refusing_record fun _ => hallowed

theorem RefusedWith.committed {α : Type} {entry : Entry} {acts : List (ApiAct u)}
    {result : Except ApiError α} (h : RefusedWith entry acts result) (haccepting : Accepting acts) :
    entries acts = [entry] := by
  obtain ⟨reply, error, rfl, -⟩ := h
  cases reply with
  | ok => rfl
  | error refused => exact absurd haccepting not_accepting_record

theorem runs_record_refused {α : Type} {entry : Entry} {error : ApiError} {acts : List (ApiAct u)}
    {result : Except ApiError α}
    (h : Runs (do record entry; ofExcept (.error error) : Api u α) acts result) :
    RefusedWith entry acts result := by
  rcases runs_record_then h with ⟨rfl, rfl⟩ | ⟨refused, rfl, rfl⟩
  · exact ⟨_, _, rfl, rfl⟩
  · exact ⟨_, _, rfl, rfl⟩

theorem RefusedWith.of_error {α β : Type} {entry : Entry} {error : ApiError}
    {acts : List (ApiAct u)}
    (h : RefusedWith entry acts (.error error : Except ApiError α)) :
    RefusedWith entry acts (.error error : Except ApiError β) := by
  obtain ⟨reply, _, hacts, -⟩ := h
  exact ⟨reply, error, hacts, rfl⟩

section Checks

variable {acts : List (ApiAct u)} {caller : Caller} {attempted : Action} {request : RequestContext}

theorem runs_parsePathRecorded {raw : String} {result : Except ApiError (SecretPath u)}
    (h : Runs (parsePathRecorded caller attempted request raw : Api u _) acts result) :
    (∃ path, parsePath u raw = .ok path ∧ acts = [] ∧ result = .ok path) ∨
      ∃ refused, parsePath u raw = .error refused ∧
        RefusedWith (refusalEntry caller attempted request refused.status "malformed-path") acts
          result := by
  unfold parsePathRecorded at h
  split at h
  · rename_i path hparse
    obtain ⟨rfl, rfl⟩ := runs_pure_iff.mp h
    exact .inl ⟨path, hparse, rfl, rfl⟩
  · rename_i refused hparse
    exact .inr ⟨refused, hparse, runs_record_refused h⟩

/-- An entry that says no, and names the caller. -/
def Named (caller : Caller) (acts : List (ApiAct u)) : Prop :=
  ∃ entry ∈ entries acts, entry.allowed = false ∧ entry.principal = some caller.asPrincipal

/-- Nothing was allowed and nothing changed, and of a caller who authenticates it was recorded. -/
structure TurnedAway (deployment : Deployment) (headers : Headers) (acts : List (ApiAct u)) :
    Prop where
  refusing : Refusing acts
  named : ∀ one, Authenticates headers one acts → Accepting acts →
    Named (deployment.callerOf one) acts

theorem Unknown.turnedAway {deployment : Deployment} {headers : Headers}
    (h : Unknown deployment headers acts) (hrefusing : Refusing acts) :
    TurnedAway deployment headers acts :=
  ⟨hrefusing, fun one hone => absurd hone (h.authenticates one)⟩

theorem RefusedWith.named {α : Type} {entry : Entry} {result : Except ApiError α}
    (h : RefusedWith entry acts result) (hallowed : entry.allowed = false)
    (hprincipal : entry.principal = some caller.asPrincipal) (haccepting : Accepting acts) :
    Named caller acts := by
  refine ⟨entry, ?_, hallowed, hprincipal⟩
  rw [h.committed haccepting]
  exact List.mem_singleton_self _

theorem Named.append_left {front : List (ApiAct u)} (h : Named caller acts) :
    Named caller (front ++ acts) := by
  obtain ⟨entry, hmem, hentry⟩ := h
  refine ⟨entry, ?_, hentry⟩
  rw [entries_append]
  exact List.mem_append_right _ hmem

/-- A request that is refused before a handler has begun. -/
theorem runs_refuseKnown {α : Type} {deployment : Deployment} {headers : Headers}
    {refused : ApiError} {reason : String} {result : Except ApiError α}
    (h : Runs (do
      match ← deployment.authenticate headers.bearerToken with
      | .ok caller => do
          recordRefusal caller attempted headers.requestContext refused.status reason
          ofExcept (.error refused)
      | .error _ => ofExcept (.error refused) : Api u α) acts result) :
    (∃ error, result = .error error) ∧ TurnedAway deployment headers acts := by
  rcases runs_bind_iff.mp h with ⟨e, hfirst, rfl⟩ | ⟨outcome, front, rest, rfl, hfirst, hrest⟩
  · obtain ⟨-, ⟨_, hok, -⟩ | ⟨_, herror⟩⟩ := runs_authenticate_cases hfirst
    · cases hok
    · cases herror
  · obtain ⟨hquiet, ⟨caller, hok, hpresented⟩ | ⟨rejection, herror⟩⟩ := runs_authenticate_cases hfirst
    · cases hok
      have hrefused := runs_record_refused hrest
      obtain ⟨reply, error, -, rfl⟩ := id hrefused
      refine ⟨⟨error, rfl⟩, hquiet.refusing.append (hrefused.refusing rfl), ?_⟩
      intro one hone haccepting
      rw [← hpresented.eq_callerOf hone.of_append.1]
      exact (hrefused.named rfl rfl (accepting_append.mp haccepting).2).append_left
    · have hnobody := runs_authenticate_error hfirst herror
      cases herror
      obtain ⟨rfl, rfl⟩ := runs_ofExcept_iff.mp hrest
      refine ⟨⟨_, rfl⟩, hquiet.refusing.append quiet_nil.refusing, ?_⟩
      intro one hone
      exact absurd hone.of_append.1 (hnobody one)

/-- A body that was parsed, or a request that is refused. -/
theorem runs_auditedJson {α : Type} {deployment : Deployment} {headers : Headers}
    {body : Except String α} {result : Except ApiError α}
    (h : Runs (auditedJson deployment headers attempted body : Api u α) acts result) :
    (∃ parsed, body = .ok parsed ∧ acts = [] ∧ result = .ok parsed) ∨
      (∃ error, result = .error error) ∧ TurnedAway deployment headers acts := by
  cases body with
  | ok parsed =>
      obtain ⟨rfl, rfl⟩ := runs_pure_iff.mp h
      exact .inl ⟨parsed, rfl, rfl, rfl⟩
  | error text => exact .inr (runs_refuseKnown h)

theorem runs_refusedRequest {α : Type} {deployment : Deployment} {headers : Headers}
    {reason : String} {result : Except ApiError α}
    (h : Runs (refusedRequest deployment headers reason : Api u α) acts result) :
    (∃ error, result = .error error) ∧ TurnedAway deployment headers acts :=
  runs_refuseKnown h

/-- The opening of a handler that is given a path: the request is turned away, or the rest runs for
the caller and the path. -/
theorem runs_opened {α : Type} {deployment : Deployment} {headers : Headers} {raw : String}
    {rest : Caller → SecretPath u → Api u α} {result : Except ApiError α}
    (h : Runs (do
      let caller ← deployment.authenticated headers attempted request
      let path ← parsePathRecorded caller attempted request raw
      rest caller path) acts result) :
    ((∃ error, result = .error error) ∧ TurnedAway deployment headers acts ∧
        (Unknown deployment headers acts ∨ ∃ refused, parsePath u raw = .error refused)) ∨
      ∃ caller path front more, acts = front ++ more ∧ Presented deployment headers caller front ∧
        parsePath u raw = .ok path ∧ Runs (rest caller path) more result := by
  rcases runs_bind_iff.mp h with ⟨e, hfirst, rfl⟩ | ⟨caller, front, more, rfl, hfirst, hrest⟩
  · obtain ⟨hrefusing, hunknown⟩ := runs_authenticated_error hfirst
    exact .inl ⟨⟨e, rfl⟩, hunknown.turnedAway hrefusing, .inl hunknown⟩
  · have hpresented := runs_authenticated_ok hfirst
    rcases runs_bind_iff.mp hrest with ⟨e, hparse, rfl⟩ | ⟨path, parsed, last, rfl, hparse, hlast⟩
    · rcases runs_parsePathRecorded hparse with ⟨_, -, -, hok⟩ | ⟨refused, hmalformed, hrefused⟩
      · cases hok
      · refine .inl ⟨⟨e, rfl⟩, ⟨hpresented.quiet.refusing.append (hrefused.refusing rfl), ?_⟩,
          .inr ⟨refused, hmalformed⟩⟩
        intro one hone haccepting
        rw [← hpresented.eq_callerOf hone.of_append.1]
        exact (hrefused.named rfl rfl (accepting_append.mp haccepting).2).append_left
    · rcases runs_parsePathRecorded hparse with ⟨found, hfound, rfl, hok⟩ | ⟨refused, -, hrefused⟩
      · cases hok
        exact .inr ⟨caller, path, front, last, rfl, hpresented, hfound, hlast⟩
      · obtain ⟨_, _, -, herror⟩ := hrefused
        cases herror

end Checks

/-- The store did not fail to say whether a path is bait. -/
def LookedUp (acts : List (ApiAct u)) : Prop :=
  ∀ path error, (⟨.honeypotTier path, .error error⟩ : ApiAct u) ∉ acts

theorem lookedUp_nil : LookedUp ([] : List (ApiAct u)) := by
  intro path error hmem
  cases hmem

theorem lookedUp_cons {act : ApiAct u} {acts : List (ApiAct u)}
    (hact : ∀ path error, ⟨.honeypotTier path, .error error⟩ ≠ act) (h : LookedUp acts) :
    LookedUp (act :: acts) := by
  intro path error hmem
  rcases List.mem_cons.mp hmem with heq | hmem
  · exact hact path error heq
  · exact h path error hmem

theorem lookedUp_append {acts acts' : List (ApiAct u)} (h : LookedUp acts) (h' : LookedUp acts') :
    LookedUp (acts ++ acts') := by
  intro path error hmem
  rcases List.mem_append.mp hmem with hleft | hright
  · exact h path error hleft
  · exact h' path error hright

/-! ### Decisions -/

section Decisions

variable {deployment : Deployment} {caller : Caller} {action : Action} {capability : Capability}
  {path : SecretPath u} {subject : Option Principal} {request : RequestContext}

/-- Nothing but lookups of bait, all of them answered. -/
def Looking (path : SecretPath u) (acts : List (ApiAct u)) : Prop :=
  ∀ act ∈ acts, ∃ tier, act = ⟨.honeypotTier path, .ok tier⟩

/-- Nothing but trips to be opened. -/
def Latching (acts : List (ApiAct u)) : Prop :=
  ∀ act ∈ acts, ∃ kind reference identity tier,
    act = ⟨.latchOffTheRequestPath kind reference identity tier, ()⟩

theorem Looking.quiet {acts : List (ApiAct u)} (h : Looking path acts) : Quiet acts := by
  intro act hmem
  obtain ⟨tier, rfl⟩ := h act hmem
  rfl

theorem Looking.lookedUp {acts : List (ApiAct u)} (h : Looking path acts) : LookedUp acts := by
  intro other error hmem
  obtain ⟨tier, heq⟩ := h _ hmem
  cases heq

theorem Latching.quiet {acts : List (ApiAct u)} (h : Latching acts) : Quiet acts := by
  intro act hmem
  obtain ⟨kind, reference, identity, tier, rfl⟩ := h act hmem
  rfl

theorem Latching.lookedUp {acts : List (ApiAct u)} (h : Latching acts) : LookedUp acts := by
  intro path error hmem
  obtain ⟨kind, reference, identity, tier, heq⟩ := h _ hmem
  cases heq

theorem looking_nil : Looking path [] := by
  intro act hmem
  cases hmem

theorem latching_nil : Latching ([] : List (ApiAct u)) := by
  intro act hmem
  cases hmem

/-- How a decision ends: the bait could not be looked up, the entry could not be recorded, or it was
recorded and the access denied or allowed. -/
inductive Decided (deployment : Deployment) (caller : Caller) (action : Action)
    (capability : Capability) (path : SecretPath u) (subject : Option Principal)
    (request : RequestContext) : List (ApiAct u) → Except ApiError Unit → Prop where
  | lookupFailed (error : StoreError) (hbuild : deployment.honeypotAlert = true)
      (hallowed : (deployment.authorize caller capability path).isAllowed = true)
      (hread : capability = .read) :
      Decided deployment caller action capability path subject request
        [⟨.honeypotTier path, .error error⟩] (.error (.ofStore error))
  | unrecorded (look : List (ApiAct u)) (bait : Option HoneypotTier) (refused : ApiError)
      (hlook : Looking path look) :
      Decided deployment caller action capability path subject request
        (look ++ [⟨.record (decisionEntry caller action path subject request
          (deployment.authorize caller capability path) bait), .error refused⟩]) (.error refused)
  | denied (hdenied : (deployment.authorize caller capability path).isAllowed = false) :
      Decided deployment caller action capability path subject request
        [⟨.record (decisionEntry caller action path subject request
          (deployment.authorize caller capability path) none), .ok ()⟩] (.error .forbidden)
  | allowed (look more : List (ApiAct u)) (bait : Option HoneypotTier)
      (hallowed : (deployment.authorize caller capability path).isAllowed = true)
      (hbait : bait.isSome = true → capability = .read) (hlook : Looking path look)
      (hmore : Latching more) :
      Decided deployment caller action capability path subject request
        (look ++ ⟨.record (decisionEntry caller action path subject request
          (deployment.authorize caller capability path) bait), .ok ()⟩ :: more) (.ok ())

theorem decisionEntry_allowed (decision : Decision) (bait : Option HoneypotTier) :
    (decisionEntry caller action path subject request decision bait).allowed =
      decision.isAllowed := by
  unfold decisionEntry Entry.withRule? Entry.withSubject?
  cases decision.isAllowed <;> cases bait <;> cases subject <;> cases decision.rule <;> rfl

theorem runs_lookForBait {decision : Decision} {acts : List (ApiAct u)}
    {result : Except ApiError (Option HoneypotTier)}
    (h : Runs (deployment.lookForBait decision capability path : Api u _) acts result) :
    (∃ bait, result = .ok bait ∧ Looking path acts ∧ (bait.isSome = true → capability = .read) ∧
        (decision.isAllowed = false → acts = [] ∧ bait = none)) ∨
      ∃ error, acts = [⟨.honeypotTier path, .error error⟩] ∧ result = .error (.ofStore error) ∧
        deployment.honeypotAlert = true ∧ decision.isAllowed = true ∧ capability = .read := by
  unfold Deployment.lookForBait at h
  split at h
  · rename_i hlook
    simp only [Bool.and_eq_true, beq_iff_eq] at hlook
    obtain ⟨⟨hbuild, hallowed⟩, hread⟩ := hlook
    obtain ⟨reply, rfl, rfl⟩ := runs_ask_iff.mp h
    cases reply with
    | error error => exact .inr ⟨error, rfl, rfl, hbuild, hallowed, hread⟩
    | ok bait =>
        refine .inl ⟨bait, rfl, fun act hmem => ⟨bait, List.mem_singleton.mp hmem⟩, fun _ => hread,
          fun hdenied => ?_⟩
        rw [hallowed] at hdenied
        cases hdenied
  · obtain ⟨rfl, rfl⟩ := runs_pure_iff.mp h
    exact .inl ⟨none, rfl, looking_nil, nofun, fun _ => ⟨rfl, rfl⟩⟩

theorem runs_authorizeAndRecordSubject {acts : List (ApiAct u)} {result : Except ApiError Unit}
    (h : Runs (deployment.authorizeAndRecordSubject caller action capability path subject request)
      acts result) :
    Decided deployment caller action capability path subject request acts result := by
  unfold Deployment.authorizeAndRecordSubject at h
  rcases runs_bind_iff.mp h with ⟨e, hlook, rfl⟩ | ⟨bait, look, rest, rfl, hlook, hrest⟩
  · rcases runs_lookForBait hlook with ⟨_, hok, -⟩ | ⟨error, rfl, herror, hbuild, hallowed, hread⟩
    · cases hok
    · cases herror
      exact .lookupFailed error hbuild hallowed hread
  · rcases runs_lookForBait hlook with ⟨found, hok, hlooking, hbait, hnone⟩ |
      ⟨_, -, herror, -⟩
    · cases hok
      rcases runs_bind_iff.mp hrest with ⟨e, hrecord, rfl⟩ | ⟨⟨⟩, front, rest', rfl, hrecord, hend⟩
      · obtain ⟨reply, rfl, hreply⟩ := runs_record_iff.mp hrecord
        rw [← hreply]
        exact .unrecorded look bait e hlooking
      · obtain ⟨reply, rfl, hreply⟩ := runs_record_iff.mp hrecord
        rw [← hreply]
        -- the trip is latched, which records nothing
        obtain ⟨latched, last, rfl, hlatched, hlast⟩ : ∃ latched last, rest' = latched ++ last ∧
            (Latching latched ∧ (bait = none → latched = [])) ∧
            Runs (if (deployment.authorize caller capability path).isAllowed then pure () else
              ofExcept (.error .forbidden) : Api u Unit) last result := by
          cases bait with
          | none =>
              exact ⟨[], rest', rfl, ⟨latching_nil, fun _ => rfl⟩, hend⟩
          | some tier =>
              rcases runs_bind_iff.mp hend with ⟨e, hlatch, -⟩ | ⟨_, latched, last, rfl, hlatch, hlast⟩
              · obtain ⟨_, -, hresult⟩ := runs_ask_iff.mp hlatch
                cases hresult
              · obtain ⟨_, rfl, -⟩ := runs_ask_iff.mp hlatch
                refine ⟨_, last, rfl, ⟨fun act hmem => ?_, nofun⟩, hlast⟩
                exact ⟨_, _, _, _, List.mem_singleton.mp hmem⟩
        cases hallowed : (deployment.authorize caller capability path).isAllowed with
        | true =>
            rw [hallowed] at hlast
            obtain ⟨rfl, rfl⟩ := runs_pure_iff.mp hlast
            rw [List.append_nil]
            exact .allowed look latched bait hallowed hbait hlooking hlatched.1
        | false =>
            rw [hallowed] at hlast
            obtain ⟨rfl, rfl⟩ := runs_ofExcept_iff.mp hlast
            obtain ⟨rfl, rfl⟩ := hnone hallowed
            rw [hlatched.2 rfl]
            exact .denied hallowed
    · cases herror

theorem runs_authorizeAndRecord {acts : List (ApiAct u)} {result : Except ApiError Unit}
    (h : Runs (deployment.authorizeAndRecord caller action capability path request) acts result) :
    Decided deployment caller action capability path none request acts result :=
  runs_authorizeAndRecordSubject h

/-- A decision, and what follows it where it allows. -/
theorem runs_decided {α : Type} {rest : Unit → Api u α} {acts : List (ApiAct u)}
    {result : Except ApiError α}
    (h : Runs (deployment.authorizeAndRecordSubject caller action capability path subject request >>=
      rest) acts result) :
    (∃ error, result = .error error ∧
        Decided deployment caller action capability path subject request acts (.error error)) ∨
      ∃ front more, acts = front ++ more ∧
        Decided deployment caller action capability path subject request front (.ok ()) ∧
        Runs (rest ()) more result := by
  rcases runs_bind_iff.mp h with ⟨e, hdecide, rfl⟩ | ⟨⟨⟩, front, more, rfl, hdecide, hrest⟩
  · exact .inl ⟨e, rfl, runs_authorizeAndRecordSubject hdecide⟩
  · exact .inr ⟨front, more, rfl, runs_authorizeAndRecordSubject hdecide, hrest⟩

/-- The entry of an allowed access, as it was committed. -/
theorem Decided.entries_ok {acts : List (ApiAct u)}
    (h : Decided deployment caller action capability path subject request acts (.ok ())) :
    (deployment.authorize caller capability path).isAllowed = true ∧
      ∃ bait, (bait.isSome = true → capability = .read) ∧
        entries acts = [decisionEntry caller action path subject request
          (deployment.authorize caller capability path) bait] := by
  cases h with
  | allowed look more bait hallowed hbait hlook hmore =>
      refine ⟨hallowed, bait, hbait, ?_⟩
      rw [entries_append, hlook.quiet.entries, entries_record_ok, hmore.quiet.entries,
        List.nil_append]

theorem Decided.lookedUp {acts : List (ApiAct u)}
    (h : Decided deployment caller action capability path subject request acts (.ok ())) :
    LookedUp acts := by
  cases h with
  | allowed look more bait hallowed hbait hlook hmore =>
      exact lookedUp_append hlook.lookedUp
        (lookedUp_cons (fun _ _ heq => by cases heq) hmore.lookedUp)

/-- A decision asks nothing of the token table. -/
theorem Decided.not_token {acts : List (ApiAct u)} {result : Except ApiError Unit}
    (h : Decided deployment caller action capability path subject request acts result)
    (tokenId : String) (outcome : Except StoreError (Option TokenRecord)) :
    (⟨.token tokenId, outcome⟩ : ApiAct u) ∉ acts := by
  intro hmem
  cases h with
  | lookupFailed => cases List.mem_singleton.mp hmem
  | unrecorded look bait refused hlook =>
      rcases List.mem_append.mp hmem with hmem | hmem
      · obtain ⟨_, heq⟩ := hlook _ hmem
        cases heq
      · cases List.mem_singleton.mp hmem
  | denied => cases List.mem_singleton.mp hmem
  | allowed look more bait hallowed hbait hlook hmore =>
      rcases List.mem_append.mp hmem with hmem | hmem
      · obtain ⟨_, heq⟩ := hlook _ hmem
        cases heq
      · rcases List.mem_cons.mp hmem with heq | hmem
        · cases heq
        · obtain ⟨_, _, _, _, heq⟩ := hmore _ hmem
          cases heq

/-- A decision that ends with an error has recorded at most a denial. -/
theorem Decided.refusing {acts : List (ApiAct u)} {error : ApiError}
    (h : Decided deployment caller action capability path subject request acts (.error error)) :
    Refusing acts := by
  cases h with
  | lookupFailed => exact (quiet_singleton rfl).refusing
  | unrecorded look bait refused hlook =>
      refine hlook.quiet.refusing.append (refusing_record ?_)
      intro hok
      cases hok
  | denied hdenied =>
      apply refusing_record
      intro _
      rw [decisionEntry_allowed]
      exact hdenied

end Decisions

/-! ### Admissions -/

section Admissions

variable {deployment : Deployment} {headers : Headers} {caller : Caller} {action : Action}
  {capability : Capability} {path : SecretPath u} {subject : Option Principal}
  {acts : List (ApiAct u)}

/-- The caller is known, and the decision about the access ended like this. -/
def DecidedFor (deployment : Deployment) (headers : Headers) (caller : Caller) (action : Action)
    (capability : Capability) (path : SecretPath u) (subject : Option Principal)
    (acts : List (ApiAct u)) (result : Except ApiError Unit) : Prop :=
  ∃ front looked decided, acts = front ++ (looked ++ decided) ∧
    Presented deployment headers caller front ∧ Quiet looked ∧ LookedUp looked ∧
    Decided deployment caller action capability path subject headers.requestContext decided result

theorem DecidedFor.known {result : Except ApiError Unit}
    (h : DecidedFor deployment headers caller action capability path subject acts result) :
    KnownCaller deployment headers caller acts := by
  obtain ⟨front, looked, decided, rfl, hpresented, -, -, -⟩ := h
  exact ⟨front, _, rfl, hpresented⟩

theorem KnownCaller.append {more : List (ApiAct u)}
    (h : KnownCaller deployment headers caller acts) :
    KnownCaller deployment headers caller (acts ++ more) := by
  obtain ⟨front, rest, rfl, hpresented⟩ := h
  exact ⟨front, rest ++ more, by rw [List.append_assoc], hpresented⟩

theorem KnownCaller.eq_callerOf {one : Authenticated}
    (h : KnownCaller deployment headers caller acts) (hone : Authenticates headers one acts) :
    caller = deployment.callerOf one := by
  obtain ⟨front, more, rfl, hpresented⟩ := h
  exact hpresented.eq_callerOf hone.of_append.1

/-- An access that was not allowed, or could not be decided, has recorded at most a denial. -/
theorem DecidedFor.refusing {error : ApiError}
    (h : DecidedFor deployment headers caller action capability path subject acts (.error error)) :
    Refusing acts := by
  obtain ⟨front, looked, decided, rfl, hpresented, hlooked, -, hdecided⟩ := h
  exact hpresented.quiet.refusing.append (hlooked.refusing.append hdecided.refusing)

/-- The one entry of an access that was allowed. -/
theorem DecidedFor.entries_ok
    (h : DecidedFor deployment headers caller action capability path subject acts (.ok ())) :
    (deployment.authorize caller capability path).isAllowed = true ∧
      ∃ bait, (bait.isSome = true → capability = .read) ∧
        entries acts = [decisionEntry caller action path subject headers.requestContext
          (deployment.authorize caller capability path) bait] := by
  obtain ⟨front, looked, decided, rfl, hpresented, hlooked, -, hdecided⟩ := h
  obtain ⟨hallowed, bait, hbait, hentries⟩ := hdecided.entries_ok
  refine ⟨hallowed, bait, hbait, ?_⟩
  rw [entries_append, entries_append, hpresented.quiet.entries, hlooked.entries, List.nil_append,
    List.nil_append, hentries]

theorem Presented.lookedUp (h : Presented deployment headers caller acts) : LookedUp acts := by
  obtain ⟨presented, one, -, rfl, -⟩ := h
  exact lookedUp_cons (fun _ _ heq => by cases heq) lookedUp_nil

/-- The caller is known and may do this, and the store could say whether the path is bait. -/
def Granted (deployment : Deployment) (headers : Headers) (capability : Capability)
    (path : SecretPath u) (acts : List (ApiAct u)) : Prop :=
  ∃ caller, KnownCaller deployment headers caller acts ∧
    (deployment.authorize caller capability path).isAllowed = true ∧ LookedUp acts

theorem DecidedFor.granted
    (h : DecidedFor deployment headers caller action capability path subject acts (.ok ())) :
    Granted deployment headers capability path acts := by
  have hknown := h.known
  obtain ⟨front, looked, decided, rfl, hpresented, -, hlooked, hdecided⟩ := h
  exact ⟨caller, hknown, hdecided.entries_ok.1, lookedUp_append hpresented.lookedUp
    (lookedUp_append hlooked hdecided.lookedUp)⟩

theorem DecidedFor.not_granted {error : ApiError}
    (h : DecidedFor deployment headers caller action capability path subject acts (.error error))
    (haccepting : Accepting acts) : ¬ Granted deployment headers capability path acts := by
  rintro ⟨other, hother, hgranted, hlookedUp⟩
  have hsame : other = caller := hother.unique h.known
  subst hsame
  obtain ⟨front, looked, decided, rfl, -, -, -, hdecided⟩ := h
  cases hdecided with
  | lookupFailed failed => exact hlookedUp path failed (by simp)
  | unrecorded look bait refused hlook =>
      exact haccepting _ _ (List.mem_append_right _ (List.mem_append_right _
        (List.mem_append_right _ (List.mem_singleton_self _))))
  | denied hdenied =>
      rw [hgranted] at hdenied
      cases hdenied

/-- How a request that names a path came to an end before its access was allowed, or what it went on
with. `check` is what the handler asks of the path in between. -/
inductive Gated {α β : Type} (deployment : Deployment) (headers : Headers) (action : Action)
    (capability : Capability) (raw : String) (check : SecretPath u → Except ApiError β)
    (rest : Caller → SecretPath u → β → Api u α) :
    List (ApiAct u) → Except ApiError α → Prop where
  | turnedAway {acts : List (ApiAct u)} (error : ApiError)
      (haway : TurnedAway deployment headers acts)
      (hwhy : Unknown deployment headers acts ∨ ∃ refused, parsePath u raw = .error refused) :
      Gated deployment headers action capability raw check rest acts (.error error)
  | unchecked {acts : List (ApiAct u)} (caller : Caller) (path : SecretPath u) (error : ApiError)
      (hpresented : Presented deployment headers caller acts) (hparse : parsePath u raw = .ok path)
      (hcheck : check path = .error error) :
      Gated deployment headers action capability raw check rest acts (.error error)
  | undecided {acts : List (ApiAct u)} (caller : Caller) (path : SecretPath u) (b : β)
      (error : ApiError) (hparse : parsePath u raw = .ok path) (hcheck : check path = .ok b)
      (hdecided : DecidedFor deployment headers caller action capability path none acts
        (.error error)) :
      Gated deployment headers action capability raw check rest acts (.error error)
  | admitted {front more : List (ApiAct u)} {result : Except ApiError α} (caller : Caller)
      (path : SecretPath u) (b : β) (hparse : parsePath u raw = .ok path)
      (hcheck : check path = .ok b)
      (hadmitted : DecidedFor deployment headers caller action capability path none front (.ok ()))
      (hrest : Runs (rest caller path b) more result) :
      Gated deployment headers action capability raw check rest (front ++ more) result

theorem runs_gated {α β : Type} {raw : String} {check : SecretPath u → Except ApiError β}
    {rest : Caller → SecretPath u → β → Api u α} {result : Except ApiError α}
    (h : Runs (do
      let caller ← deployment.authenticated headers action headers.requestContext
      let path ← parsePathRecorded caller action headers.requestContext raw
      let b ← ofExcept (check path)
      deployment.authorizeAndRecord caller action capability path headers.requestContext
      rest caller path b) acts result) :
    Gated deployment headers action capability raw check rest acts result := by
  rcases runs_opened h with ⟨⟨error, rfl⟩, haway, hunknown⟩ |
    ⟨caller, path, front, more, rfl, hpresented, hparse, hmore⟩
  · exact .turnedAway error haway hunknown
  · rcases runs_bind_iff.mp hmore with ⟨error, hchecked, rfl⟩ | ⟨b, checked, more', rfl, hchecked, hgate⟩
    · obtain ⟨rfl, hcheck⟩ := runs_ofExcept_iff.mp hchecked
      rw [List.append_nil]
      exact .unchecked caller path error hpresented hparse hcheck.symm
    · obtain ⟨rfl, hcheck⟩ := runs_ofExcept_iff.mp hchecked
      rcases runs_decided hgate with ⟨error, rfl, hdecided⟩ | ⟨decided, last, rfl, hdecided, hlast⟩
      · exact .undecided caller path b error hparse hcheck.symm
          ⟨front, [], more', rfl, hpresented, quiet_nil, lookedUp_nil, hdecided⟩
      · rw [List.nil_append, ← List.append_assoc]
        exact .admitted caller path b hparse hcheck.symm
          ⟨front, [], decided, rfl, hpresented, quiet_nil, lookedUp_nil, hdecided⟩ hlast

section Granting

variable {presented : String} {one : Authenticated}

theorem runs_authenticated_of {request : RequestContext} (hbearer : headers.bearerToken = some presented) :
    Runs (deployment.authenticated headers action request : Api u Caller)
      [⟨.authenticate presented, .ok (.valid one)⟩] (.ok (deployment.callerOf one)) := by
  unfold Deployment.authenticated
  rw [hbearer]
  exact .call _ (.done _)

/-- In a build without bait, an access that is allowed is recorded and goes on. -/
theorem runs_authorizeAndRecord_of {request : RequestContext} (hbuild : deployment.honeypotAlert = false)
    (hallowed : (deployment.authorize caller capability path).isAllowed = true) :
    Runs (deployment.authorizeAndRecordSubject caller action capability path subject request)
      [⟨.record (decisionEntry caller action path subject request
        (deployment.authorize caller capability path) none), .ok ()⟩] (.ok ()) := by
  have hlook : deployment.lookForBait (deployment.authorize caller capability path) capability path =
      pure none := by
    unfold Deployment.lookForBait
    rw [hbuild]
    rfl
  unfold Deployment.authorizeAndRecordSubject
  dsimp only
  rw [hlook]
  refine Runs.ofExcept_bind rfl (Runs.ask_bind rfl ?_)
  change Runs (if (deployment.authorize caller capability path).isAllowed then pure () else
    ofExcept (.error ApiError.forbidden)) [] _
  rw [if_pos hallowed]
  exact .done _

theorem runs_gated_of {α β : Type} {raw : String} {check : SecretPath u → Except ApiError β} {b : β}
    {rest : Caller → SecretPath u → β → Api u α} {more : List (ApiAct u)} {result : Except ApiError α}
    (hbearer : headers.bearerToken = some presented) (hparse : parsePath u raw = .ok path)
    (hcheck : check path = .ok b) (hbuild : deployment.honeypotAlert = false)
    (hallowed : (deployment.authorize (deployment.callerOf one) capability path).isAllowed = true)
    (hrest : Runs (rest (deployment.callerOf one) path b) more result) :
    Runs (do
      let caller ← deployment.authenticated headers action headers.requestContext
      let path ← parsePathRecorded caller action headers.requestContext raw
      let b ← ofExcept (check path)
      deployment.authorizeAndRecord caller action capability path headers.requestContext
      rest caller path b)
      (⟨.authenticate presented, .ok (.valid one)⟩ ::
        ⟨.record (decisionEntry (deployment.callerOf one) action path none headers.requestContext
          (deployment.authorize (deployment.callerOf one) capability path) none), .ok ()⟩ :: more)
      result := by
  change Runs _ ([_] ++ ([_] ++ more)) result
  refine (runs_authenticated_of hbearer).bind ?_
  unfold parsePathRecorded
  rw [hparse]
  refine Runs.ofExcept_bind rfl (Runs.ofExcept_bind hcheck ?_)
  exact (runs_authorizeAndRecord_of hbuild hallowed).bind hrest

end Granting

/-- How a request for a virtual path came to an end before its access was allowed, or what it went on
with. -/
inductive Inspected [ReservedPaths u] (deployment : Deployment) (headers : Headers)
    (name : ReservedName) (serve : Caller → SecretPath u → Api u ApiResponse) :
    List (ApiAct u) → Except ApiError ApiResponse → Prop where
  | turnedAway {acts : List (ApiAct u)} (error : ApiError)
      (haway : TurnedAway deployment headers acts) (hunknown : Unknown deployment headers acts) :
      Inspected deployment headers name serve acts (.error error)
  | undecided {acts : List (ApiAct u)} (caller : Caller) (error : ApiError)
      (hdecided : DecidedFor deployment headers caller .read .inspect (reservedPath name) none acts
        (.error error)) :
      Inspected deployment headers name serve acts (.error error)
  | admitted {front more : List (ApiAct u)} {result : Except ApiError ApiResponse} (caller : Caller)
      (hadmitted : DecidedFor deployment headers caller .read .inspect (reservedPath name) none front
        (.ok ()))
      (hrest : Runs (serve caller (reservedPath name)) more result) :
      Inspected deployment headers name serve (front ++ more) result

theorem runs_inspecting [ReservedPaths u] {name : ReservedName}
    {serve : Caller → SecretPath u → Api u ApiResponse} {result : Except ApiError ApiResponse}
    (h : Runs (inspecting deployment headers name serve) acts result) :
    Inspected deployment headers name serve acts result := by
  unfold inspecting at h
  rcases runs_bind_iff.mp h with ⟨error, hfirst, rfl⟩ | ⟨caller, front, more, rfl, hfirst, hgate⟩
  · obtain ⟨hrefusing, hunknown⟩ := runs_authenticated_error hfirst
    exact .turnedAway error (hunknown.turnedAway hrefusing) hunknown
  · have hpresented := runs_authenticated_ok hfirst
    rcases runs_decided hgate with ⟨error, rfl, hdecided⟩ | ⟨decided, last, rfl, hdecided, hlast⟩
    · exact .undecided caller error ⟨front, [], more, rfl, hpresented, quiet_nil, lookedUp_nil, hdecided⟩
    · rw [← List.append_assoc]
      exact .admitted caller ⟨front, [], decided, rfl, hpresented, quiet_nil, lookedUp_nil, hdecided⟩ hlast

end Admissions

/-! ### Corrections -/

section Corrections

variable {α : Type} {caller : Caller} {action : Action} {path : SecretPath u}
  {request : RequestContext} {reason : String} {work : Api u α} {acts : List (ApiAct u)}

/-- The work was done, or an entry says that it was not. -/
theorem runs_completeOrRecord {result : Except ApiError α}
    (h : Runs (completeOrRecord caller action path request reason work) acts result) :
    (∃ value, Runs work acts (.ok value) ∧ result = .ok value) ∨
      ∃ error worked corrected, acts = worked ++ corrected ∧ Runs work worked (.error error) ∧
        RefusedWith (outcomeEntry caller action (some path) request error.status (some reason))
          corrected result := by
  unfold completeOrRecord at h
  rcases runs_bind_iff.mp h with ⟨e, hwork, -⟩ | ⟨ended, worked, rest, rfl, hwork, hrest⟩
  · obtain ⟨_, -, hended⟩ := runs_outcome_iff.mp hwork
    cases hended
  · obtain ⟨result', hworked, hended⟩ := runs_outcome_iff.mp hwork
    cases hended
    cases ended with
    | ok value =>
        obtain ⟨rfl, rfl⟩ := runs_pure_iff.mp hrest
        rw [List.append_nil]
        exact .inl ⟨value, hworked, rfl⟩
    | error error => exact .inr ⟨error, worked, rest, rfl, hworked, runs_record_refused hrest⟩

end Corrections

/-! ### A deployment -/

namespace Sample

instance : ReservedPaths asciiUnicode where
  path name := ⟨reservedPrefix ++ "/" ++ name.asStr, reservedPrefix ++ "/" ++ name.asStr, by
    cases name <;> decide +kernel⟩
  text_path _ := rfl

/-- A policy that allows whatever is asked under `infra`. -/
def infraPolicy : Policy where
  name := "infra"
  rules := [⟨⟨[.literal "infra", .rest], "infra/**", by decide +kernel⟩,
    {.read, .write, .delete, .list, .undelete}⟩]
  patterns_nodup := by simp

def infraPolicies : PolicySet where
  identities := [⟨"ci", .machine, ["infra"], by simp⟩]
  policies := [infraPolicy]
  identities_nodup := by simp
  policies_nodup := by simp
  attached := by simp [infraPolicy]

/-- A build without bait, that serves one identity and no federation. -/
def deployment : Deployment where
  policies := infraPolicies
  root := ⟨Vector.replicate 32 1⟩
  sealId := "env"
  keySource := "env"
  surface := [⟨"bulk_export", "api", "2026-08-21", "one call for a start", "several reads"⟩]
  federation := ⟨[]⟩
  honeypotAlert := false
  aead := ⟨fun _ _ _ _ => none, fun _ _ _ _ => none⟩
  hmac := fun _ _ => Vector.replicate 32 0
  libraries := ⟨fun _ _ _ _ => false, fun _ _ _ => false, fun _ => none⟩
  rawValue := fun _ => .ok ()

/-- The text of the credential that the requests present. -/
def presented : String := "cph_AQEBAQEBBwcHBwcHBwcHBwcHBwcHBwcHBwcHBwcHBwcHBwcHBwc"

def headers : Headers where
  authorization := some (utf8 ("Bearer " ++ presented))
  requestId := none
  userAgent := none
  clientIp := none

def ci : Authenticated := ⟨"ci", "AQEBAQEB"⟩

theorem headers_bearerToken : headers.bearerToken = some presented := by
  decide +kernel

def dbPath : SecretPath asciiUnicode := ⟨"infra/DB", "infra/DB", by decide +kernel⟩

def keyPath : SecretPath asciiUnicode := ⟨"infra/KEY", "infra/KEY", by decide +kernel⟩

theorem parsePath_dbPath : parsePath asciiUnicode "infra/DB" = .ok dbPath := by
  decide +kernel

theorem deployment_allows :
    (deployment.authorize (deployment.callerOf ci) .read dbPath).isAllowed = true := by
  decide +kernel

end Sample

end Ciphr
