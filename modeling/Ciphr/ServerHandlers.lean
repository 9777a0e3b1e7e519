import Ciphr.ServerRuns

/-!
What each handler has asked and recorded when it ends, from where its access was allowed on.
-/

namespace Ciphr

open Script

variable {u : Unicode} {deployment : Deployment} {headers : Headers} {caller : Caller}
  {path : SecretPath u} {acts : List (ApiAct u)}

/-! ### One secret -/

/-- The value that was read, or an entry that says none was served. -/
theorem runs_serveSecret {version : Option SecretVersion} {result : Except ApiError ApiResponse}
    (h : Runs (serveSecret deployment headers caller path version) acts result) :
    (∃ stored value, acts = [⟨.get path version, .ok stored⟩] ∧
        decryptToText deployment stored = .ok value ∧
        result = .ok (.secret ⟨stored.path.text, stored.version.number, value, stored.createdAt,
          stored.createdBy⟩)) ∨
      ∃ outcome corrected status reason, acts = ⟨.get path version, outcome⟩ :: corrected ∧
        RefusedWith (outcomeEntry caller .read (some path) headers.requestContext status
          (some reason)) corrected result := by
  rcases runs_bind_iff.mp h with ⟨_, hask, -⟩ | ⟨found, front, rest, rfl, hask, hrest⟩
  · obtain ⟨_, -, hresult⟩ := runs_ask_iff.mp hask
    cases hresult
  · obtain ⟨outcome, rfl, hfound⟩ := runs_ask_iff.mp hask
    cases hfound
    cases outcome with
    | error error => exact .inr ⟨_, rest, _, _, rfl, runs_record_refused hrest⟩
    | ok stored =>
        dsimp only [Except.mapError] at hrest
        cases hvalue : decryptToText deployment stored with
        | error error =>
            rw [hvalue] at hrest
            exact .inr ⟨_, rest, _, _, rfl, runs_record_refused hrest⟩
        | ok value =>
            rw [hvalue] at hrest
            obtain ⟨rfl, rfl⟩ := runs_pure_iff.mp hrest
            exact .inl ⟨stored, value, rfl, hvalue, rfl⟩

/-- The entries that take a write back, and the class it named. -/
def writeCorrections (caller : Caller) (path : SecretPath u) (request : RequestContext)
    (rotation : Option Rotation) (status : Nat) : List Entry :=
  outcomeEntry caller .write (some path) request status (some "write-failed") ::
    if rotation.isSome then
      [outcomeEntry caller .classify (some path) request status (some "classify-failed")]
    else []

theorem runs_storeSecret {rotation : Option Rotation} {value : String}
    {result : Except ApiError ApiResponse}
    (h : Runs (storeSecret deployment headers caller path rotation value) acts result) :
    ∃ outcome corrected, acts = ⟨.putWithRotation path caller.identity rotation
        (encryptBody deployment path value), outcome⟩ :: corrected ∧ Refusing corrected ∧
      ((∃ version, outcome = .ok version ∧ corrected = [] ∧
          result = .ok (.written ⟨path.text, version.number⟩)) ∨
        (∃ error, result = .error error) ∧ (Accepting acts → ∃ status, entries acts =
          writeCorrections caller path headers.requestContext rotation status)) := by
  rcases runs_bind_iff.mp h with ⟨_, hask, -⟩ | ⟨found, front, rest, rfl, hask, hrest⟩
  · obtain ⟨_, -, hresult⟩ := runs_ask_iff.mp hask
    cases hresult
  · obtain ⟨outcome, rfl, hfound⟩ := runs_ask_iff.mp hask
    cases hfound
    refine ⟨outcome, rest, rfl, ?_⟩
    cases outcome with
    | ok version =>
        obtain ⟨rfl, rfl⟩ := runs_pure_iff.mp hrest
        exact ⟨quiet_nil.refusing, .inl ⟨version, rfl, rfl, rfl⟩⟩
    | error error =>
        rcases runs_bind_iff.mp hrest with ⟨e, hrecord, rfl⟩ | ⟨⟨⟩, first, more, rfl, hrecord, hmore⟩
        · obtain ⟨reply, rfl, hreply⟩ := runs_record_iff.mp hrecord
          rw [← hreply]
          refine ⟨refusing_record fun _ => rfl, .inr ⟨⟨e, rfl⟩, fun haccepting => ?_⟩⟩
          exact absurd (accepting_append.mp haccepting).2 not_accepting_record
        · obtain ⟨reply, rfl, hreply⟩ := runs_record_iff.mp hrecord
          rw [← hreply]
          cases rotation with
          | none =>
              obtain ⟨rfl, rfl⟩ := runs_ofExcept_iff.mp hmore
              exact ⟨refusing_record fun _ => rfl, .inr ⟨⟨_, rfl⟩, fun _ => ⟨_, rfl⟩⟩⟩
          | some rotation =>
              have hrefused := runs_record_refused hmore
              obtain ⟨reply, e, hacts, rfl⟩ := id hrefused
              refine ⟨(refusing_record fun _ => rfl).append (hrefused.refusing rfl),
                .inr ⟨⟨e, rfl⟩, fun haccepting => ?_⟩⟩
              have hmore := hrefused.committed
                (accepting_append.mp (accepting_append.mp haccepting).2).2
              refine ⟨error |> ApiError.ofStore |>.status, ?_⟩
              rw [entries_append, entries_append, hmore]
              rfl

/-- The version of a deletion, found without recording anything or changing a row. -/
theorem runs_deletedVersion {query : VersionQuery} {result : Except ApiError SecretVersion}
    (h : Runs (deletedVersion path query) acts result) : Quiet acts := by
  rcases runs_bind_iff.mp h with ⟨_, hparsed, -⟩ | ⟨version, front, rest, rfl, hparsed, hrest⟩
  · obtain ⟨rfl, -⟩ := runs_ofExcept_iff.mp hparsed
    exact quiet_nil
  · obtain ⟨rfl, -⟩ := runs_ofExcept_iff.mp hparsed
    cases version with
    | some version =>
        obtain ⟨rfl, -⟩ := runs_pure_iff.mp hrest
        exact quiet_nil
    | none =>
        rcases runs_bind_iff.mp hrest with ⟨_, hask, -⟩ | ⟨metadata, asked, last, rfl, hask, hlast⟩
        · obtain ⟨_, rfl, -⟩ := runs_ask_iff.mp hask
          exact quiet_singleton rfl
        · obtain ⟨_, rfl, -⟩ := runs_ask_iff.mp hask
          have hnil : last = [] := by
            split at hlast
            · exact (runs_pure_iff.mp hlast).1
            · exact (runs_ofExcept_iff.mp hlast).1
          rw [hnil]
          exact quiet_singleton rfl

/-- What `delete_secret` does once it was allowed to. -/
def deleteVersion (path : SecretPath u) (query : VersionQuery) : Api u Unit := do
  let version ← deletedVersion path query
  ask (.delete path version) (·.mapError .ofStore)

theorem runs_deleteVersion {query : VersionQuery} {result : Except ApiError Unit}
    (h : Runs (deleteVersion path query) acts result) :
    Quiet acts ∨ ∃ quiet version outcome, Quiet quiet ∧
      acts = quiet ++ [⟨.delete path version, outcome⟩] := by
  rcases runs_bind_iff.mp h with ⟨_, hversion, -⟩ | ⟨version, front, rest, rfl, hversion, hask⟩
  · exact .inl (runs_deletedVersion hversion)
  · obtain ⟨outcome, rfl, -⟩ := runs_ask_iff.mp hask
    exact .inr ⟨front, version, outcome, runs_deletedVersion hversion, rfl⟩

/-- A read, up to where the value is looked up. -/
theorem runs_readSecret {raw : String} {query : VersionQuery} {result : Except ApiError ApiResponse}
    (h : Runs (readSecret deployment headers raw query : Api u ApiResponse) acts result) :
    Gated deployment headers .read .read raw (fun _ => .ok ())
      (fun caller path _ => do
        let version ← ofExcept query.parsed
        serveSecret deployment headers caller path version) acts result :=
  runs_gated (β := Unit) h

theorem runs_readSecret_of {raw presented : String} {one : Authenticated} {query : VersionQuery}
    {more : List (ApiAct u)} {result : Except ApiError ApiResponse}
    (hbearer : headers.bearerToken = some presented) (hparse : parsePath u raw = .ok path)
    (hbuild : deployment.honeypotAlert = false)
    (hallowed : (deployment.authorize (deployment.callerOf one) .read path).isAllowed = true)
    (hserve : Runs (ofExcept query.parsed >>= fun version =>
      serveSecret deployment headers (deployment.callerOf one) path version) more result) :
    Runs (readSecret deployment headers raw query)
      (⟨.authenticate presented, .ok (.valid one)⟩ ::
        ⟨.record (decisionEntry (deployment.callerOf one) .read path none headers.requestContext
          (deployment.authorize (deployment.callerOf one) .read path) none), .ok ()⟩ :: more)
      result := by
  change Runs (do
    let caller ← deployment.authenticated headers .read headers.requestContext
    let path ← parsePathRecorded caller .read headers.requestContext raw
    let b ← ofExcept (Except.ok ())
    deployment.authorizeAndRecord caller .read .read path headers.requestContext
    let _ : Unit := b
    let version ← ofExcept query.parsed
    serveSecret deployment headers caller path version) _ _
  exact runs_gated_of hbearer hparse rfl hbuild hallowed hserve

theorem runs_deleteSecret {raw : String} {query : VersionQuery}
    {result : Except ApiError ApiResponse}
    (h : Runs (deleteSecret deployment headers raw query : Api u ApiResponse) acts result) :
    Gated deployment headers .delete .delete raw refuseReserved
      (fun caller path _ => do
        completeOrRecord caller .delete path headers.requestContext "delete-failed"
          (deleteVersion path query)
        return .noContent) acts result :=
  runs_gated h

theorem runs_listVersions {raw : String} {result : Except ApiError ApiResponse}
    (h : Runs (listVersions deployment headers raw : Api u ApiResponse) acts result) :
    ∃ render : SecretPath u → SecretMetadata u × List VersionSummary → ApiResponse,
      Gated deployment headers .list .list raw (fun _ => .ok ())
      (fun caller path _ => do
        let history ← completeOrRecord caller .list path headers.requestContext "not-listed"
          (ask (.history path) (·.mapError .ofStore))
        return render path history) acts result :=
  ⟨fun path history => .versions
      { path := path.text
        rotation :=
          ⟨history.1.rotation.asStr, history.1.rotation.needsCare, history.1.rotation.advice⟩
        versions := history.2.map fun summary =>
          ⟨summary.version.number, summary.createdAt, summary.createdBy, summary.deletedAt.isSome,
            summary.destroyedAt.isSome⟩ }, runs_gated (β := Unit) h⟩

/-- What a write asks of a path before it is decided: that it may hold a secret, and that the class
is one. -/
def writeCheck (rotation : Option String) (path : SecretPath u) : Except ApiError (Option Rotation) :=
  refuseReserved path >>= fun _ => parseRotation rotation

/-- The decision about the class that a write names, and the write. -/
def classifyAndStore (deployment : Deployment) (headers : Headers) (value : String)
    (caller : Caller) (path : SecretPath u) (rotation : Option Rotation) : Api u ApiResponse := do
  if rotation.isSome then
    deployment.authorizeAndRecord caller .classify .write path headers.requestContext
  else pure ()
  storeSecret deployment headers caller path rotation value

/-- The class that a write names is decided first, as the write was; then the write. -/
theorem runs_classifyAndStore {value : String} {rotation : Option Rotation}
    {result : Except ApiError ApiResponse}
    (h : Runs (classifyAndStore deployment headers value caller path rotation) acts result) :
    (∃ error, result = .error error ∧ Decided deployment caller .classify .write path none
        headers.requestContext acts (.error error)) ∨
      ∃ classified stored, acts = classified ++ stored ∧
        (rotation = none ∧ classified = [] ∨ rotation.isSome = true ∧ Decided deployment caller
          .classify .write path none headers.requestContext classified (.ok ())) ∧
        Runs (storeSecret deployment headers caller path rotation value) stored result := by
  cases rotation with
  | none => exact .inr ⟨[], acts, rfl, .inl ⟨rfl, rfl⟩, h⟩
  | some rotation =>
      change Runs (deployment.authorizeAndRecord caller .classify .write path headers.requestContext >>=
        fun _ => storeSecret deployment headers caller path (some rotation) value) acts result at h
      rcases runs_decided h with hundecided | ⟨classified, stored, rfl, hclassified, hstored⟩
      · exact .inl hundecided
      · exact .inr ⟨classified, stored, rfl, .inr ⟨rfl, hclassified⟩, hstored⟩

/-- A write whose body was parsed, up to where its path is allowed. -/
theorem runs_writeSecret {raw : String} {body : Except String SecretBody}
    {result : Except ApiError ApiResponse}
    (h : Runs (writeSecret deployment headers raw body : Api u ApiResponse) acts result) :
    (∃ error, (∃ text, body = .error text) ∧ result = .error error ∧
        TurnedAway deployment headers acts) ∨
      ∃ parsed, body = .ok parsed ∧ Gated deployment headers .write .write raw
        (writeCheck parsed.rotation) (classifyAndStore deployment headers parsed.value) acts
        result := by
  unfold writeSecret at h
  cases body with
  | error text =>
      rcases runs_bind_iff.mp h with ⟨error, hbody, rfl⟩ | ⟨_, _, _, -, hbody, -⟩
      · rcases runs_auditedJson hbody with ⟨_, hok, -, -⟩ | ⟨-, haway⟩
        · cases hok
        · exact .inl ⟨error, ⟨text, rfl⟩, rfl, haway⟩
      · rcases runs_auditedJson hbody with ⟨_, hok, -, -⟩ | ⟨⟨_, herror⟩, -⟩
        · cases hok
        · cases herror
  | ok parsed =>
      refine .inr ⟨parsed, rfl, runs_gated ?_⟩
      have hchecks : ∀ (caller : Caller) (path : SecretPath u),
          (do let rotation ← ofExcept (writeCheck parsed.rotation path)
              deployment.authorizeAndRecord caller .write .write path headers.requestContext
              classifyAndStore deployment headers parsed.value caller path rotation) =
            (do ofExcept (refuseReserved path)
                let rotation ← ofExcept (parseRotation parsed.rotation)
                deployment.authorizeAndRecord caller .write .write path headers.requestContext
                classifyAndStore deployment headers parsed.value caller path rotation :
              Api u ApiResponse) :=
        fun _ _ => ofExcept_bind
      simp only [hchecks]
      exact h

/-! ### Several secrets -/

theorem runs_exportSecret {bytes : Nat} {result : Except ApiError (ExportedSecret × Nat)}
    (h : Runs (exportSecret deployment path bytes) acts result) :
    ∃ outcome, acts = [⟨.get path none, outcome⟩] ∧
      ∀ secret bytes', result = .ok (secret, bytes') →
        ∃ stored value, outcome = .ok stored ∧ decryptToText deployment stored = .ok value ∧
          secret = ⟨stored.path.text, stored.version.number, value⟩ := by
  rcases runs_bind_iff.mp h with ⟨_, hask, rfl⟩ | ⟨stored, front, rest, rfl, hask, hrest⟩
  · obtain ⟨outcome, rfl, -⟩ := runs_ask_iff.mp hask
    refine ⟨outcome, rfl, fun secret bytes' hresult => ?_⟩
    cases hresult
  · obtain ⟨outcome, rfl, hfound⟩ := runs_ask_iff.mp hask
    rcases runs_bind_iff.mp hrest with ⟨_, hdecoded, rfl⟩ | ⟨value, decoded, last, rfl, hdecoded, hlast⟩
    · obtain ⟨rfl, -⟩ := runs_ofExcept_iff.mp hdecoded
      refine ⟨outcome, rfl, fun secret bytes' hresult => ?_⟩
      cases hresult
    · obtain ⟨rfl, hvalue⟩ := runs_ofExcept_iff.mp hdecoded
      dsimp only at hlast
      split at hlast
      · obtain ⟨rfl, rfl⟩ := runs_ofExcept_iff.mp hlast
        refine ⟨outcome, rfl, fun secret bytes' hresult => ?_⟩
        cases hresult
      · obtain ⟨rfl, rfl⟩ := runs_pure_iff.mp hlast
        refine ⟨outcome, rfl, fun secret bytes' hresult => ?_⟩
        cases hresult
        cases outcome with
        | error error => cases hfound
        | ok found =>
            cases hfound
            exact ⟨_, value, rfl, hvalue.symm, rfl⟩

/-- How the loop of an export ends: which paths had been decided, and the values or the error. -/
inductive Exporting (deployment : Deployment) (caller : Caller) (request : RequestContext) :
    List (SecretPath u) → Nat → List (ApiAct u) → List (SecretPath u) →
    Except ApiError (List ExportedSecret) → Prop where
  | done (bytes : Nat) : Exporting deployment caller request [] bytes [] [] (.ok [])
  | undecided {path : SecretPath u} {decided : List (ApiAct u)} (paths : List (SecretPath u))
      (bytes : Nat) (error : ApiError)
      (hdecided : Decided deployment caller .read .read path none request decided (.error error)) :
      Exporting deployment caller request (path :: paths) bytes decided [] (.error error)
  | unserved {path : SecretPath u} {decided asked : List (ApiAct u)} (paths : List (SecretPath u))
      (bytes : Nat) (error : ApiError)
      (hdecided : Decided deployment caller .read .read path none request decided (.ok ()))
      (hasked : Runs (exportSecret deployment path bytes) asked (.error error)) :
      Exporting deployment caller request (path :: paths) bytes (decided ++ asked) [path]
        (.error error)
  | served {path : SecretPath u} {decided asked more : List (ApiAct u)}
      {paths new : List (SecretPath u)} {bytes bytes' : Nat} {secret : ExportedSecret}
      {ended : Except ApiError (List ExportedSecret)}
      (hdecided : Decided deployment caller .read .read path none request decided (.ok ()))
      (hasked : Runs (exportSecret deployment path bytes) asked (.ok (secret, bytes')))
      (hrest : Exporting deployment caller request paths bytes' more new ended) :
      Exporting deployment caller request (path :: paths) bytes (decided ++ (asked ++ more))
        (path :: new) (ended.map (secret :: ·))

theorem runs_exportSecrets {request : RequestContext} {paths recorded : List (SecretPath u)}
    {bytes : Nat} {secrets : List ExportedSecret}
    {result : Except ApiError (List (SecretPath u) × Except ApiError (List ExportedSecret))}
    (h : Runs (exportSecrets deployment caller request paths recorded bytes secrets) acts result) :
    ∃ new ended, Exporting deployment caller request paths bytes acts new ended ∧
      result = .ok (recorded ++ new, ended.map (secrets ++ ·)) := by
  induction paths generalizing recorded bytes secrets acts with
  | nil =>
      obtain ⟨rfl, rfl⟩ := runs_pure_iff.mp h
      refine ⟨[], .ok [], .done bytes, ?_⟩
      rw [List.append_nil]
      change _ = Except.ok (recorded, Except.ok (secrets ++ []))
      rw [List.append_nil]
  | cons path paths ih =>
      unfold exportSecrets at h
      rcases runs_bind_iff.mp h with ⟨_, houtcome, -⟩ | ⟨decision, decided, rest, rfl, houtcome, hrest⟩
      · obtain ⟨_, -, hended⟩ := runs_outcome_iff.mp houtcome
        cases hended
      · obtain ⟨_, hgate, hended⟩ := runs_outcome_iff.mp houtcome
        cases hended
        have hdecided := runs_authorizeAndRecord hgate
        cases decision with
        | error error =>
            obtain ⟨rfl, rfl⟩ := runs_pure_iff.mp hrest
            refine ⟨[], .error error, ?_, by rw [List.append_nil]; rfl⟩
            rw [List.append_nil]
            exact .undecided paths bytes error hdecided
        | ok =>
            rcases runs_bind_iff.mp hrest with ⟨_, hread, -⟩ | ⟨read, asked, last, rfl, hread, hlast⟩
            · obtain ⟨_, -, hended⟩ := runs_outcome_iff.mp hread
              cases hended
            · obtain ⟨_, hasked, hended⟩ := runs_outcome_iff.mp hread
              cases hended
              cases read with
              | error error =>
                  obtain ⟨rfl, rfl⟩ := runs_pure_iff.mp hlast
                  refine ⟨[path], .error error, ?_, rfl⟩
                  rw [List.append_nil]
                  exact .unserved paths bytes error hdecided hasked
              | ok served =>
                  obtain ⟨secret, bytes'⟩ := served
                  obtain ⟨new, ended, hexporting, rfl⟩ := ih hlast
                  refine ⟨path :: new, ended.map (secret :: ·),
                    .served hdecided hasked hexporting, ?_⟩
                  cases ended with
                  | error error => simp [Except.map]
                  | ok rest => simp [Except.map]

/-- Bait is looked up for the path that is decided, and for no other. -/
theorem Decided.looks {action : Action} {capability : Capability} {subject : Option Principal}
    {request : RequestContext} {result : Except ApiError Unit}
    (h : Decided deployment caller action capability path subject request acts result) {other : SecretPath u}
    {failed : StoreError} (hmem : (⟨.honeypotTier other, .error failed⟩ : ApiAct u) ∈ acts)
    (haccepting : Accepting acts) : other = path := by
  cases h with
  | lookupFailed =>
      cases List.mem_singleton.mp hmem
      rfl
  | unrecorded => exact absurd (accepting_append.mp haccepting).2 not_accepting_record
  | denied => cases List.mem_singleton.mp hmem
  | allowed look more bait hallowed hbait hlook hmore =>
      exact absurd hmem (lookedUp_append hlook.lookedUp
        (lookedUp_cons (fun _ _ heq => by cases heq) hmore.lookedUp) other failed)

theorem Exporting.looks {request : RequestContext} {paths new : List (SecretPath u)} {bytes : Nat}
    {ended : Except ApiError (List ExportedSecret)}
    (h : Exporting deployment caller request paths bytes acts new ended) {other : SecretPath u}
    {failed : StoreError} (hmem : (⟨.honeypotTier other, .error failed⟩ : ApiAct u) ∈ acts)
    (haccepting : Accepting acts) : other ∈ paths := by
  induction h with
  | done => cases hmem
  | undecided paths bytes error hdecided =>
      rw [hdecided.looks hmem haccepting]
      exact List.mem_cons_self ..
  | unserved paths bytes error hdecided hasked =>
      obtain ⟨outcome, rfl, -⟩ := runs_exportSecret hasked
      rcases List.mem_append.mp hmem with hmem | hmem
      · rw [hdecided.looks hmem (accepting_append.mp haccepting).1]
        exact List.mem_cons_self ..
      · cases List.mem_singleton.mp hmem
  | served hdecided hasked hrest ih =>
      obtain ⟨outcome, rfl, -⟩ := runs_exportSecret hasked
      rcases List.mem_append.mp hmem with hmem | hmem
      · rw [hdecided.looks hmem (accepting_append.mp haccepting).1]
        exact List.mem_cons_self ..
      · rcases List.mem_cons.mp hmem with heq | hmem
        · cases heq
        · exact List.mem_cons_of_mem _ (ih hmem
            (accepting_append.mp (accepting_append.mp haccepting).2).2)

/-- The entry of an allowed read, whether or not it took bait. -/
def ReadClaim (deployment : Deployment) (caller : Caller) (request : RequestContext)
    (path : SecretPath u) (entry : Entry) : Prop :=
  (deployment.authorize caller .read path).isAllowed = true ∧
    ∃ bait, entry = decisionEntry caller .read path none request
      (deployment.authorize caller .read path) bait

/-- What the trail holds when the loop of an export ends: a claim for each path that was decided, and
then perhaps the denial of the next one. -/
theorem Exporting.entries {request : RequestContext} {paths new : List (SecretPath u)} {bytes : Nat}
    {ended : Except ApiError (List ExportedSecret)}
    (h : Exporting deployment caller request paths bytes acts new ended)
    (haccepting : Accepting acts) :
    ∃ claims refused later, paths = new ++ later ∧ Ciphr.entries acts = claims ++ refused ∧
      List.Forall₂ (ReadClaim deployment caller request) new claims ∧
      ((∃ secrets, ended = .ok secrets ∧ later = [] ∧ refused = []) ∨
        ∃ error, ended = .error error ∧ (refused = [] ∨ ∃ path rest, later = path :: rest ∧
          (deployment.authorize caller .read path).isAllowed = false ∧
          refused = [decisionEntry caller .read path none request
            (deployment.authorize caller .read path) none])) := by
  induction h with
  | done bytes => exact ⟨[], [], [], rfl, rfl, .nil, .inl ⟨[], rfl, rfl, rfl⟩⟩
  | @undecided path decided paths bytes error hdecided =>
      cases hdecided with
      | lookupFailed failed =>
          exact ⟨[], [], path :: paths, rfl, rfl, .nil, .inr ⟨_, rfl, .inl rfl⟩⟩
      | unrecorded look bait refused hlook =>
          exact absurd (accepting_append.mp haccepting).2 not_accepting_record
      | denied hdenied =>
          exact ⟨[], _, path :: paths, rfl, rfl, .nil,
            .inr ⟨_, rfl, .inr ⟨path, paths, rfl, hdenied, rfl⟩⟩⟩
  | @unserved path decided asked paths bytes error hdecided hasked =>
      obtain ⟨hallowed, bait, -, hentries⟩ := hdecided.entries_ok
      obtain ⟨outcome, rfl, -⟩ := runs_exportSecret hasked
      refine ⟨[_], [], paths, rfl, ?_, .cons ⟨hallowed, bait, rfl⟩ .nil, .inr ⟨_, rfl, .inl rfl⟩⟩
      rw [entries_append, hentries]
      rfl
  | @served path decided asked more paths new bytes bytes' secret ended hdecided hasked hrest ih =>
      obtain ⟨hallowed, bait, -, hentries⟩ := hdecided.entries_ok
      obtain ⟨outcome, rfl, -⟩ := runs_exportSecret hasked
      obtain ⟨claims, refused, later, rfl, hmore, hclaims, hended⟩ :=
        ih (accepting_append.mp (accepting_append.mp haccepting).2).2
      refine ⟨_ :: claims, refused, later, rfl, ?_, .cons ⟨hallowed, bait, rfl⟩ hclaims, ?_⟩
      · rw [entries_append, entries_append, hentries, hmore]
        rfl
      · rcases hended with ⟨secrets, rfl, hlater, hrefused⟩ | ⟨error, rfl, hrefused⟩
        · exact .inl ⟨secret :: secrets, rfl, hlater, hrefused⟩
        · exact .inr ⟨error, rfl, hrefused⟩

/-- The corrections of an export were all recorded, or one of them could not be. -/
theorem runs_correctExport {request : RequestContext} {status : Nat} {paths : List (SecretPath u)}
    {result : Except ApiError Unit}
    (h : Runs (correctExport caller request status paths) acts result) :
    Refusing acts ∧ LookedUp acts ∧ ((result = .ok () ∧ entries acts = paths.map fun path =>
        outcomeEntry caller .read (some path) request status (some "not-served")) ∨
      (∃ refused, result = .error refused) ∧ ¬ Accepting acts) := by
  induction paths generalizing acts with
  | nil =>
      obtain ⟨rfl, rfl⟩ := runs_pure_iff.mp h
      exact ⟨quiet_nil.refusing, lookedUp_nil, .inl ⟨rfl, rfl⟩⟩
  | cons path paths ih =>
      rcases runs_bind_iff.mp h with ⟨e, hrecord, rfl⟩ | ⟨⟨⟩, front, rest, rfl, hrecord, hrest⟩
      · obtain ⟨reply, rfl, hreply⟩ := runs_record_iff.mp hrecord
        rw [← hreply]
        exact ⟨refusing_record fun _ => rfl, lookedUp_cons (fun _ _ heq => by cases heq) lookedUp_nil,
          .inr ⟨⟨e, rfl⟩, not_accepting_record⟩⟩
      · obtain ⟨reply, rfl, hreply⟩ := runs_record_iff.mp hrecord
        rw [← hreply]
        obtain ⟨hrefusing, hlookedUp, hended⟩ := ih hrest
        refine ⟨(refusing_record fun _ => rfl).append hrefusing,
          lookedUp_cons (fun _ _ heq => by cases heq) hlookedUp, ?_⟩
        rcases hended with ⟨rfl, hentries⟩ | ⟨hrefused, hnot⟩
        · refine .inl ⟨rfl, ?_⟩
          rw [entries_append, hentries]
          rfl
        · exact .inr ⟨hrefused, fun haccepting => hnot (accepting_append.mp haccepting).2⟩

/-- An export that was checked: the values of all its paths, or an error after the corrections. -/
theorem runs_serveExport {paths : List (SecretPath u)} {result : Except ApiError ApiResponse}
    (h : Runs (serveExport deployment headers caller paths) acts result) :
    ∃ exported corrected new ended, acts = exported ++ corrected ∧
      Exporting deployment caller headers.requestContext paths 0 exported new ended ∧
      ((∃ secrets, ended = .ok secrets ∧ corrected = [] ∧ result = .ok (.exported secrets)) ∨
        ∃ error refused, ended = .error error ∧ result = .error refused ∧ Refusing corrected ∧
          LookedUp corrected ∧ (Accepting corrected → refused = error ∧ entries corrected = new.map fun path =>
            outcomeEntry caller .read (some path) headers.requestContext error.status
              (some "not-served"))) := by
  rcases runs_bind_iff.mp h with ⟨_, hloop, -⟩ | ⟨ended, front, rest, rfl, hloop, hrest⟩
  · obtain ⟨_, _, -, hresult⟩ := runs_exportSecrets hloop
    cases hresult
  · obtain ⟨new, ended, hexporting, hresult⟩ := runs_exportSecrets hloop
    cases hresult
    refine ⟨front, rest, new, ended, rfl, hexporting, ?_⟩
    cases ended with
    | ok secrets =>
        obtain ⟨rfl, rfl⟩ := runs_pure_iff.mp hrest
        exact .inl ⟨secrets, rfl, rfl, rfl⟩
    | error error =>
        rcases runs_bind_iff.mp hrest with ⟨e, hcorrect, rfl⟩ | ⟨⟨⟩, corrected, last, rfl, hcorrect, hlast⟩
        · obtain ⟨hrefusing, hlookedUp, ⟨hok, -⟩ | ⟨-, hnot⟩⟩ := runs_correctExport hcorrect
          · cases hok
          · exact .inr ⟨error, e, rfl, rfl, hrefusing, hlookedUp,
              fun haccepting => absurd haccepting hnot⟩
        · obtain ⟨rfl, rfl⟩ := runs_ofExcept_iff.mp hlast
          obtain ⟨hrefusing, hlookedUp, ⟨-, hentries⟩ | ⟨⟨_, herror⟩, -⟩⟩ := runs_correctExport hcorrect
          · refine .inr ⟨error, error, rfl, rfl, hrefusing.append quiet_nil.refusing,
              lookedUp_append hlookedUp lookedUp_nil, fun _ => ⟨rfl, ?_⟩⟩
            rw [List.append_nil, hentries]
            rfl
          · cases herror

theorem pushExportPath_eq_ok {paths paths' : List (SecretPath u)} {raw : String}
    (h : pushExportPath paths raw = .ok paths') :
    ∃ path, parsePath u raw = .ok path ∧ path ∉ paths ∧ paths' = paths ++ [path] := by
  unfold pushExportPath at h
  cases hparse : parsePath u raw with
  | error refused =>
      rw [hparse] at h
      cases h
  | ok path =>
      rw [hparse] at h
      change (if paths.any (·.text == path.text) = true then _ else _) = Except.ok paths' at h
      split at h
      · cases h
      · rename_i hnew
        cases h
        refine ⟨path, rfl, fun hmem => hnew ?_, rfl⟩
        exact List.any_eq_true.mpr ⟨path, hmem, beq_self_eq_true _⟩

theorem foldlM_pushExportPath {raw : List String} {seen paths : List (SecretPath u)}
    (hseen : seen.Nodup) (h : raw.foldlM pushExportPath seen = .ok paths) :
    ∃ new, paths = seen ++ new ∧ paths.Nodup ∧
      List.Forall₂ (fun raw path => parsePath u raw = .ok path) raw new := by
  induction raw generalizing seen with
  | nil =>
      cases h
      exact ⟨[], (List.append_nil _).symm, hseen, .nil⟩
  | cons one raw ih =>
      rw [List.foldlM_cons] at h
      cases hpush : pushExportPath seen one with
      | error refused =>
          rw [hpush] at h
          cases h
      | ok grown =>
          rw [hpush] at h
          obtain ⟨path, hparse, hnew, rfl⟩ := pushExportPath_eq_ok hpush
          have hgrown : (seen ++ [path]).Nodup := by
            refine List.nodup_append.mpr ⟨hseen, List.nodup_singleton _, ?_⟩
            rintro a ha b hb rfl
            exact hnew (List.mem_singleton.mp hb ▸ ha)
          obtain ⟨new, rfl, hnodup, hall⟩ := ih hgrown h
          exact ⟨path :: new, by rw [List.append_assoc]; rfl, hnodup, .cons hparse hall⟩

/-- The paths of an export that is served: the ones that were asked for, in order and each once. -/
theorem validateExportPaths_eq_ok {raw : List String} {paths : List (SecretPath u)}
    (h : validateExportPaths u raw = .ok paths) :
    paths ≠ [] ∧ paths.length ≤ exportPathsMax ∧ paths.Nodup ∧
      List.Forall₂ (fun raw path => parsePath u raw = .ok path) raw paths := by
  unfold validateExportPaths at h
  split at h
  · cases h
  · rename_i hempty
    split at h
    · cases h
    · rename_i hlong
      obtain ⟨new, rfl, hnodup, hall⟩ := foldlM_pushExportPath .nil h
      have hlength := hall.length_eq
      refine ⟨?_, by simpa [← hlength] using hlong, hnodup, hall⟩
      intro hnil
      rw [hnil] at hall
      cases hall
      exact hempty rfl

/-- How a bulk export ends. -/
inductive Bulk (deployment : Deployment) (headers : Headers) (body : Except String (List String)) :
    List (ApiAct u) → Except ApiError ApiResponse → Prop where
  | turnedAway {acts : List (ApiAct u)} (error : ApiError)
      (haway : TurnedAway deployment headers acts)
      (hwhy : Unknown deployment headers acts ∨ ∃ text, body = .error text) :
      Bulk deployment headers body acts (.error error)
  | malformed {front more : List (ApiAct u)} {result : Except ApiError ApiResponse} (caller : Caller)
      (raw : List String) (refused : ApiError) (hbody : body = .ok raw)
      (hpresented : Presented deployment headers caller front)
      (hinvalid : validateExportPaths u raw = .error refused)
      (hrefused : RefusedWith (refusalEntry caller .read headers.requestContext refused.status
        "malformed-export") more result) :
      Bulk deployment headers body (front ++ more) result
  | checked {front more : List (ApiAct u)} {result : Except ApiError ApiResponse} (caller : Caller)
      (raw : List String) (paths : List (SecretPath u)) (hbody : body = .ok raw)
      (hpresented : Presented deployment headers caller front)
      (hvalid : validateExportPaths u raw = .ok paths)
      (hserved : Runs (serveExport deployment headers caller paths) more result) :
      Bulk deployment headers body (front ++ more) result

theorem runs_exportPaths {body : Except String (List String)} {result : Except ApiError ApiResponse}
    (h : Runs (exportPaths deployment headers body : Api u ApiResponse) acts result) :
    Bulk deployment headers body acts result := by
  rcases runs_bind_iff.mp h with ⟨error, hbody, rfl⟩ | ⟨raw, front, more, rfl, hbody, hrest⟩
  · rcases runs_auditedJson hbody with ⟨_, -, -, hok⟩ | ⟨-, haway⟩
    · cases hok
    · cases body with
      | error text => exact .turnedAway error haway (.inr ⟨text, rfl⟩)
      | ok raw => cases (runs_pure_iff.mp hbody).2
  · rcases runs_auditedJson hbody with ⟨parsed, rfl, rfl, hok⟩ | ⟨⟨_, herror⟩, -⟩
    · cases hok
      rw [List.nil_append]
      rcases runs_bind_iff.mp hrest with ⟨error, hfirst, rfl⟩ | ⟨caller, first, last, rfl, hfirst, hlast⟩
      · obtain ⟨hrefusing, hunknown⟩ := runs_authenticated_error hfirst
        exact .turnedAway error (hunknown.turnedAway hrefusing) (.inl hunknown)
      · have hpresented := runs_authenticated_ok hfirst
        cases hpaths : validateExportPaths u raw with
        | error refused =>
            rw [hpaths] at hlast
            exact .malformed caller raw refused rfl hpresented hpaths (runs_record_refused hlast)
        | ok paths =>
            rw [hpaths] at hlast
            exact .checked caller raw paths rfl hpresented hpaths hlast
    · cases herror

/-! ### Listings -/

/-- How a listing ends. -/
inductive Listing (deployment : Deployment) (headers : Headers) (raw : String)
    (rotation : Option String) : List (ApiAct u) → Except ApiError ApiResponse → Prop where
  | turnedAway {acts : List (ApiAct u)} (error : ApiError)
      (haway : TurnedAway deployment headers acts)
      (hwhy : Unknown deployment headers acts ∨ ∃ refused, parsePath u raw = .error refused) :
      Listing deployment headers raw rotation acts (.error error)
  | unclassed {acts : List (ApiAct u)} (caller : Caller) (start : SecretPath u) (error : ApiError)
      (hpresented : Presented deployment headers caller acts) (hparse : parsePath u raw = .ok start)
      (hclass : parseRotation rotation = .error error) :
      Listing deployment headers raw rotation acts (.error error)
  | unanswered {front : List (ApiAct u)} (caller : Caller) (start : SecretPath u)
      (error : StoreError) (hpresented : Presented deployment headers caller front)
      (hparse : parsePath u raw = .ok start) :
      Listing deployment headers raw rotation
        (front ++ [⟨.listWithRotation (some start), .error error⟩]) (.error (.ofStore error))
  | answered {front : List (ApiAct u)} (caller : Caller) (start : SecretPath u)
      (wanted : Option Rotation) (listed : List (ListedSecret u)) (reply : Except ApiError Unit)
      (hpresented : Presented deployment headers caller front) (hparse : parsePath u raw = .ok start)
      (hclass : parseRotation rotation = .ok wanted) :
      Listing deployment headers raw rotation
        (front ++ [⟨.listWithRotation (some start), .ok listed⟩, ⟨.record (listingEntry caller start
          headers.requestContext (visibleEntries deployment caller wanted listed).length), reply⟩])
        (reply.map fun _ =>
          let visible := visibleEntries deployment caller wanted listed
          .listing ⟨start.text, visible.map (·.path), visible⟩)

theorem runs_listPaths {raw : String} {rotation : Option String}
    {result : Except ApiError ApiResponse}
    (h : Runs (listPaths deployment headers raw rotation : Api u ApiResponse) acts result) :
    Listing deployment headers raw rotation acts result := by
  rcases runs_opened h with ⟨⟨error, rfl⟩, haway, hwhy⟩ |
    ⟨caller, start, front, more, rfl, hpresented, hparse, hmore⟩
  · exact .turnedAway error haway hwhy
  · rcases runs_bind_iff.mp hmore with ⟨error, hwanted, rfl⟩ | ⟨wanted, none', rest, rfl, hwanted, hrest⟩
    · obtain ⟨rfl, hclass⟩ := runs_ofExcept_iff.mp hwanted
      rw [List.append_nil]
      exact .unclassed caller start error hpresented hparse hclass.symm
    · obtain ⟨rfl, hclass⟩ := runs_ofExcept_iff.mp hwanted
      rcases runs_bind_iff.mp hrest with ⟨error, hask, rfl⟩ | ⟨listed, asked, last, rfl, hask, hlast⟩
      · obtain ⟨outcome, rfl, hlisted⟩ := runs_ask_iff.mp hask
        cases outcome with
        | ok found => cases hlisted
        | error failed =>
            cases hlisted
            exact .unanswered caller start failed hpresented hparse
      · obtain ⟨outcome, rfl, hlisted⟩ := runs_ask_iff.mp hask
        cases outcome with
        | error failed => cases hlisted
        | ok found =>
            cases hlisted
            rcases runs_bind_iff.mp hlast with ⟨error, hrecord, rfl⟩ | ⟨⟨⟩, recorded, last', rfl, hrecord, hend⟩
            · obtain ⟨reply, rfl, hreply⟩ := runs_record_iff.mp hrecord
              cases hreply
              exact .answered caller start wanted listed (.error error) hpresented hparse hclass.symm
            · obtain ⟨reply, rfl, hreply⟩ := runs_record_iff.mp hrecord
              cases hreply
              obtain ⟨rfl, rfl⟩ := runs_pure_iff.mp hend
              exact .answered caller start wanted listed (.ok ()) hpresented hparse hclass.symm

/-! ### Tokens -/

section Tokens

variable [ReservedPaths u]

/-- All that the token table has said of a token. -/
def LookedFor (tokenId : String) (record : Option TokenRecord) (acts : List (ApiAct u)) : Prop :=
  ∀ outcome, (⟨.token tokenId, outcome⟩ : ApiAct u) ∈ acts → outcome = .ok record

/-- How a revocation ends. -/
inductive Revoking (deployment : Deployment) (headers : Headers) (tokenId : String) :
    List (ApiAct u) → Except ApiError ApiResponse → Prop where
  | turnedAway {acts : List (ApiAct u)} (error : ApiError)
      (haway : TurnedAway deployment headers acts) (hunknown : Unknown deployment headers acts) :
      Revoking deployment headers tokenId acts (.error error)
  | unanswered {front : List (ApiAct u)} (caller : Caller) (error : StoreError)
      (hpresented : Presented deployment headers caller front) :
      Revoking deployment headers tokenId (front ++ [⟨.token tokenId, .error error⟩])
        (.error (.ofStore error))
  | undecided {acts : List (ApiAct u)} (caller : Caller) (record : Option TokenRecord)
      (error : ApiError) (hlooked : LookedFor tokenId record acts)
      (hdecided : DecidedFor deployment headers caller .revokeToken .revoke (reservedPath .tokens)
        (record.map TokenRecord.asSubject) acts (.error error)) :
      Revoking deployment headers tokenId acts (.error error)
  | unknown {acts : List (ApiAct u)} (caller : Caller)
      (hlooked : (⟨.token tokenId, .ok none⟩ : ApiAct u) ∈ acts)
      (hadmitted : DecidedFor deployment headers caller .revokeToken .revoke (reservedPath .tokens)
        none acts (.ok ())) :
      Revoking deployment headers tokenId acts (.error .notFound)
  | failed {front corrected : List (ApiAct u)} {result : Except ApiError ApiResponse}
      (caller : Caller) (found : TokenRecord) (error : StoreError) (status : Nat)
      (hlooked : LookedFor tokenId (some found) front)
      (hadmitted : DecidedFor deployment headers caller .revokeToken .revoke (reservedPath .tokens)
        (some found.asSubject) front (.ok ()))
      (hcorrected : RefusedWith (outcomeEntry caller .revokeToken
        (some (reservedPath .tokens : SecretPath u)) headers.requestContext status
        (some "revoke-failed")) corrected result) :
      Revoking deployment headers tokenId
        (front ++ ⟨.revokeToken tokenId, .error error⟩ :: corrected) result
  | revoked {front : List (ApiAct u)} (caller : Caller) (found : TokenRecord) (revokedNow : Bool)
      (hadmitted : DecidedFor deployment headers caller .revokeToken .revoke (reservedPath .tokens)
        (some found.asSubject) front (.ok ())) :
      Revoking deployment headers tokenId (front ++ [⟨.revokeToken tokenId, .ok revokedNow⟩])
        (.ok (.revoked ⟨tokenId, found.identity, revokedNow⟩))

theorem runs_revokeToken {tokenId : String} {result : Except ApiError ApiResponse}
    (h : Runs (revokeToken deployment headers tokenId : Api u ApiResponse) acts result) :
    Revoking deployment headers tokenId acts result := by
  unfold revokeToken at h
  rcases runs_bind_iff.mp h with ⟨error, hfirst, rfl⟩ | ⟨caller, front, more, rfl, hfirst, hrest⟩
  · obtain ⟨hrefusing, hunknown⟩ := runs_authenticated_error hfirst
    exact .turnedAway error (hunknown.turnedAway hrefusing) hunknown
  · have hpresented := runs_authenticated_ok hfirst
    rcases runs_bind_iff.mp hrest with ⟨error, hask, rfl⟩ | ⟨record, asked, last, rfl, hask, hgate⟩
    · obtain ⟨outcome, rfl, hlooked⟩ := runs_ask_iff.mp hask
      cases outcome with
      | ok found => cases hlooked
      | error failed =>
          cases hlooked
          exact .unanswered caller failed hpresented
    · obtain ⟨outcome, rfl, hlooked⟩ := runs_ask_iff.mp hask
      cases outcome with
      | error failed => cases hlooked
      | ok found =>
          cases hlooked
          have hfound : LookedUp [(⟨.token tokenId, .ok record⟩ : ApiAct u)] :=
            lookedUp_cons (fun _ _ heq => by cases heq) lookedUp_nil
          have hlooks : ∀ {decided result},
              Decided deployment caller .revokeToken .revoke (reservedPath .tokens)
                (record.map TokenRecord.asSubject) headers.requestContext decided result →
              LookedFor tokenId record (front ++ ([⟨.token tokenId, .ok record⟩] ++ decided)) := by
            intro decided result hdecided outcome hmem
            obtain ⟨_, one, -, rfl, -⟩ := hpresented
            rcases List.mem_append.mp hmem with hmem | hmem
            · cases List.mem_singleton.mp hmem
            · rcases List.mem_cons.mp hmem with heq | hmem
              · cases heq
                rfl
              · exact absurd hmem (hdecided.not_token tokenId outcome)
          rcases runs_decided hgate with ⟨error, rfl, hdecided⟩ | ⟨decided, last', rfl, hdecided, hend⟩
          · exact .undecided caller record error (hlooks hdecided)
              ⟨front, _, last, rfl, hpresented, quiet_singleton rfl, hfound, hdecided⟩
          · have hadmitted : DecidedFor deployment headers caller .revokeToken .revoke
                (reservedPath .tokens) (record.map TokenRecord.asSubject)
                (front ++ ([⟨.token tokenId, .ok record⟩] ++ decided)) (.ok ()) :=
              ⟨front, _, decided, rfl, hpresented, quiet_singleton rfl, hfound, hdecided⟩
            rw [← List.append_assoc _ decided, ← List.append_assoc]
            cases record with
            | none =>
                obtain ⟨rfl, rfl⟩ := runs_ofExcept_iff.mp hend
                rw [List.append_nil]
                refine .unknown caller ?_ hadmitted
                simp
            | some found =>
                rcases runs_bind_iff.mp hend with ⟨error, hcomplete, rfl⟩ | ⟨revokedNow, completed, last, rfl, hcomplete, hpure⟩
                · rcases runs_completeOrRecord hcomplete with ⟨_, -, hok⟩ |
                    ⟨failed, worked, corrected, rfl, hworked, hcorrected⟩
                  · cases hok
                  · obtain ⟨outcome, rfl, hended⟩ := runs_ask_iff.mp hworked
                    cases outcome with
                    | ok _ => cases hended
                    | error failure =>
                        exact .failed caller found failure _ (hlooks hdecided) hadmitted
                          hcorrected.of_error
                · obtain ⟨rfl, rfl⟩ := runs_pure_iff.mp hpure
                  rcases runs_completeOrRecord hcomplete with ⟨_, hworked, hok⟩ |
                    ⟨failed, worked, corrected, rfl, hworked, hcorrected⟩
                  · cases hok
                    obtain ⟨outcome, rfl, hended⟩ := runs_ask_iff.mp hworked
                    cases outcome with
                    | error _ => cases hended
                    | ok now =>
                        cases hended
                        rw [List.append_nil]
                        exact .revoked caller found revokedNow hadmitted
                  · obtain ⟨_, _, -, herror⟩ := hcorrected
                    cases herror

/-- How a login ends. -/
inductive LoggingIn (deployment : Deployment) (headers : Headers)
    (body : Except String OidcLoginRequest) :
    List (ApiAct u) → Except ApiError ApiResponse → Prop where
  | turnedAway {acts : List (ApiAct u)} (text : String) (error : ApiError)
      (hbody : body = .error text) (haway : TurnedAway deployment headers acts) :
      LoggingIn deployment headers body acts (.error error)
  | misshapen (now : Int) (login : OidcLoginRequest) (error : ApiError) (hbody : body = .ok login)
      (hasked : askedMillis login.ttlSeconds = .error error) :
      LoggingIn deployment headers body [⟨.nowMillis, now⟩] (.error error)
  | unverifiable (now : Int) (login : OidcLoginRequest) (asked : Option Int)
      (reason : Oidc.Unverifiable) (hbody : body = .ok login)
      (hasked : askedMillis login.ttlSeconds = .ok asked)
      (hexchange : deployment.federation.exchange deployment.libraries login.idToken now =
        .unverifiable reason) :
      LoggingIn deployment headers body [⟨.nowMillis, now⟩] (.error .unauthenticated)
  | refused {recorded : List (ApiAct u)} {result : Except ApiError ApiResponse} (now : Int)
      (login : OidcLoginRequest) (asked : Option Int) (provider : String) (subject : Option String)
      (reason : Oidc.Refusal) (hbody : body = .ok login)
      (hasked : askedMillis login.ttlSeconds = .ok asked)
      (hexchange : deployment.federation.exchange deployment.libraries login.idToken now =
        .refused provider subject reason)
      (hrecorded : RefusedWith (federationEntry (u := u) deployment provider subject
        (.refused reason.asStr) 401 headers.requestContext) recorded result) :
      LoggingIn deployment headers body (⟨.nowMillis, now⟩ :: recorded) result
  | accepted {minted : List (ApiAct u)} {result : Except ApiError ApiResponse} (now : Int)
      (login : OidcLoginRequest) (asked : Option Int) (accepted : Oidc.Accepted)
      (hbody : body = .ok login) (hasked : askedMillis login.ttlSeconds = .ok asked)
      (hexchange : deployment.federation.exchange deployment.libraries login.idToken now =
        .accepted accepted)
      (hminted : Runs (mintToken deployment headers accepted asked now) minted result) :
      LoggingIn deployment headers body (⟨.nowMillis, now⟩ :: minted) result

theorem runs_oidcLogin {body : Except String OidcLoginRequest}
    {result : Except ApiError ApiResponse}
    (h : Runs (oidcLogin deployment headers body : Api u ApiResponse) acts result) :
    LoggingIn deployment headers body acts result := by
  unfold oidcLogin at h
  rcases runs_bind_iff.mp h with ⟨error, hfirst, rfl⟩ | ⟨login, front, more, rfl, hfirst, hrest⟩
  · rcases runs_auditedJson hfirst with ⟨_, -, -, hok⟩ | ⟨-, haway⟩
    · cases hok
    · cases body with
      | error text => exact .turnedAway text error rfl haway
      | ok login => cases (runs_pure_iff.mp hfirst).2
  · rcases runs_auditedJson hfirst with ⟨parsed, rfl, rfl, hok⟩ | ⟨⟨_, herror⟩, -⟩
    · cases hok
      rcases runs_bind_iff.mp hrest with ⟨_, hnow, -⟩ | ⟨now, asking, last, rfl, hnow, hlast⟩
      · obtain ⟨_, -, hok⟩ := runs_ask_iff.mp hnow
        cases hok
      · obtain ⟨reply, rfl, hreply⟩ := runs_ask_iff.mp hnow
        cases hreply
        rcases runs_bind_iff.mp hlast with ⟨error, hshape, rfl⟩ | ⟨asked, shaped, end', rfl, hshape, hend⟩
        · obtain ⟨rfl, hasked⟩ := runs_ofExcept_iff.mp hshape
          exact .misshapen now login error rfl hasked.symm
        · obtain ⟨rfl, hasked⟩ := runs_ofExcept_iff.mp hshape
          cases hexchange : deployment.federation.exchange deployment.libraries login.idToken now with
          | unverifiable reason =>
              rw [hexchange] at hend
              obtain ⟨rfl, rfl⟩ := runs_ofExcept_iff.mp hend
              exact .unverifiable now login asked reason rfl hasked.symm hexchange
          | refused provider subject reason =>
              rw [hexchange] at hend
              exact .refused now login asked provider subject reason rfl hasked.symm hexchange
                (runs_record_refused hend)
          | accepted accepted =>
              rw [hexchange] at hend
              exact .accepted now login asked accepted rfl hasked.symm hexchange hend
    · cases herror

/-- The lifetime of a minted token: the provider's, or less on request. -/
def mintedTtl (accepted : Oidc.Accepted) (asked : Option Int) : Int :=
  (asked.map (min · accepted.ttlMs)).getD accepted.ttlMs

/-- How the minting of a token ends. -/
inductive Minting (deployment : Deployment) (headers : Headers) (accepted : Oidc.Accepted)
    (asked : Option Int) (now : Int) : List (ApiAct u) → Except ApiError ApiResponse → Prop where
  | ungenerated (detail : String) :
      Minting deployment headers accepted asked now [⟨.generateToken, none⟩]
        (.error (.internal detail))
  | unrecorded (token : Token) (refused : ApiError) :
      Minting deployment headers accepted asked now [⟨.generateToken, some token⟩,
        ⟨.record (federationEntry (u := u) deployment accepted.provider (some accepted.subject)
          (.minted accepted.identity token.id.asText) 200 headers.requestContext), .error refused⟩]
        (.error refused)
  | failed {corrected : List (ApiAct u)} {result : Except ApiError ApiResponse} (token : Token)
      (error : StoreError) (status : Nat)
      (hcorrected : RefusedWith (federationEntry (u := u) deployment accepted.provider
        (some accepted.subject) (.refused "mint-failed") status headers.requestContext) corrected
        result) :
      Minting deployment headers accepted asked now (⟨.generateToken, some token⟩ ::
        ⟨.record (federationEntry (u := u) deployment accepted.provider (some accepted.subject)
          (.minted accepted.identity token.id.asText) 200 headers.requestContext), .ok ()⟩ ::
        ⟨.issueToken accepted.identity token ("oidc:" ++ accepted.provider)
          (Rust.saturatingAdd now (mintedTtl accepted asked)), .error error⟩ :: corrected) result
  | minted (token : Token) :
      Minting deployment headers accepted asked now [⟨.generateToken, some token⟩,
        ⟨.record (federationEntry (u := u) deployment accepted.provider (some accepted.subject)
          (.minted accepted.identity token.id.asText) 200 headers.requestContext), .ok ()⟩,
        ⟨.issueToken accepted.identity token ("oidc:" ++ accepted.provider)
          (Rust.saturatingAdd now (mintedTtl accepted asked)), .ok ()⟩]
        (.ok (.loggedIn ⟨token.exposeText, token.id.asText, accepted.identity,
          Rust.saturatingAdd now (mintedTtl accepted asked)⟩))

theorem runs_mintToken {accepted : Oidc.Accepted} {asked : Option Int} {now : Int}
    {result : Except ApiError ApiResponse}
    (h : Runs (mintToken deployment headers accepted asked now : Api u ApiResponse) acts result) :
    Minting deployment headers accepted asked now acts result := by
  unfold mintToken at h
  rcases runs_bind_iff.mp h with ⟨error, hgenerate, rfl⟩ | ⟨token, front, more, rfl, hgenerate, hrest⟩
  · obtain ⟨generated, rfl, hgenerated⟩ := runs_ask_iff.mp hgenerate
    cases generated with
    | some token => cases hgenerated
    | none =>
        cases hgenerated
        exact .ungenerated _
  · obtain ⟨generated, rfl, hgenerated⟩ := runs_ask_iff.mp hgenerate
    cases generated with
    | none => cases hgenerated
    | some generated =>
        cases hgenerated
        rcases runs_bind_iff.mp hrest with ⟨error, hrecord, rfl⟩ | ⟨⟨⟩, recorded, last, rfl, hrecord, hstore⟩
        · obtain ⟨reply, rfl, hreply⟩ := runs_record_iff.mp hrecord
          cases hreply
          exact .unrecorded token error
        · obtain ⟨reply, rfl, hreply⟩ := runs_record_iff.mp hrecord
          cases hreply
          rcases runs_bind_iff.mp hstore with ⟨_, hask, -⟩ | ⟨stored, issued, end', rfl, hask, hend⟩
          · obtain ⟨_, -, hok⟩ := runs_ask_iff.mp hask
            cases hok
          · obtain ⟨outcome, rfl, hstored⟩ := runs_ask_iff.mp hask
            cases hstored
            cases outcome with
            | ok done =>
                obtain ⟨rfl, rfl⟩ := runs_pure_iff.mp hend
                exact .minted token
            | error error => exact .failed token error _ (runs_record_refused hend)

end Tokens

/-! ### Extractors -/

/-- What an extractor rejects reaches no handler. -/
theorem runs_extracting {α : Type} {extracted : Extracted α} {handler : α → Served u}
    {result : Except HttpError ApiResponse} (h : Runs (extracting extracted handler) acts result) :
    (∃ text, extracted = .error text ∧ acts = [] ∧ result = .error (.rejection text)) ∨
      ∃ a, extracted = .ok a ∧ Runs (handler a) acts result := by
  cases extracted with
  | error text =>
      obtain ⟨rfl, rfl⟩ := runs_ofExcept_iff.mp h
      exact .inl ⟨text, rfl, rfl, rfl⟩
  | ok a => exact .inr ⟨a, rfl, h⟩

end Ciphr
