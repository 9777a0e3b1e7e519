import Ciphr.LibServing
import Ciphr.SdkEnvironment

/-!
What the answers of the service rest on: the calls that a handler may make for a request, and the
replies behind every version that an answer names.
-/

namespace Script

variable {Call : Type} {Reply : Call → Type} {ε ε' α β : Type} {script : Script Call Reply ε α}

/-- Every result that the script ends well with meets the condition. -/
def Yields (P : α → Prop) (script : Script Call Reply ε α) : Prop :=
  ∀ acts a, Runs script acts (.ok a) → P a

theorem yields_pure {P : α → Prop} {a : α} (h : P a) : (pure a : Script Call Reply ε α).Yields P := by
  intro acts b hruns
  cases (runs_pure_iff.mp hruns).2
  exact h

theorem yields_error {P : α → Prop} {e : ε} :
    (ofExcept (.error e) : Script Call Reply ε α).Yields P := by
  intro acts b hruns
  cases (runs_ofExcept_iff.mp hruns).2

/-- What follows a script decides what both yield. -/
theorem yields_bind {P : β → Prop} {f : α → Script Call Reply ε β} (h : ∀ a, (f a).Yields P) :
    (script >>= f).Yields P := by
  intro acts b hruns
  rcases runs_bind_iff.mp hruns with ⟨e, -, heq⟩ | ⟨a, front, rest, -, -, hrest⟩
  · cases heq
  · exact h a rest b hrest

theorem yields_mapError {P : α → Prop} {f : ε → ε'} (h : script.Yields P) : (script.mapError f).Yields P := by
  intro acts a hruns
  obtain ⟨result, hresult, heq⟩ := runs_mapError_iff.mp hruns
  cases result with
  | error e => cases heq
  | ok b =>
      cases heq
      exact h acts _ hresult

end Script

namespace Ciphr

open Script

variable {u : Unicode}

/-! ### What an answer tells -/

/-- A version of a secret, and its value. -/
structure ToldValue where
  path : String
  version : Nat
  value : String
  deriving DecidableEq, Repr

namespace ApiResponse

/-- The values in an answer. -/
def values : ApiResponse → List ToldValue
  | .secret response => [⟨response.path, response.version, response.value⟩]
  | .exported secrets => secrets.map fun secret => ⟨secret.path, secret.version, secret.value⟩
  | _ => []

/-- The versions that an answer says were written. -/
def versionsTold : ApiResponse → List (String × Nat)
  | .secret response => [(response.path, response.version)]
  | .exported secrets => secrets.map fun secret => (secret.path, secret.version)
  | .written response => [(response.path, response.version)]
  | _ => []

/-- The token that an answer says is revoked. -/
def revokedId : ApiResponse → Option String
  | .revoked response => some response.tokenId
  | _ => none

/-- An answer that names no version of a secret, and says of no token that it is revoked. -/
def Plain (response : ApiResponse) : Prop :=
  response.values = [] ∧ response.versionsTold = [] ∧ response.revokedId = none

end ApiResponse

namespace ApiRequest

/-- A request for whatever is current: it names no version. -/
def takesCurrent : ApiRequest → Bool
  | .readSecret _ (.ok query) => query.version.isNone
  | .exportPaths _ => true
  | _ => false

/-- The value that a request asks to be written for a path. -/
def AsksToWrite (request : ApiRequest) (path : SecretPath u) (value : String) : Prop :=
  ∃ raw body, request = .writeSecret (.ok raw) (.ok body) ∧ parsePath u raw = .ok path ∧
    body.value = value

end ApiRequest

/-! ### The calls of a request -/

/-- The calls that may be made for a request: it writes nothing but what it asks to be written. -/
def ApiCall.MayFor (deployment : Deployment) (request : ApiRequest) : ApiCall u → Prop
  | .putWithRotation path _ _ encrypt =>
      ∃ value, request.AsksToWrite path value ∧ encrypt = encryptBody deployment path value
  | _ => True

section Calls

variable {deployment : Deployment} {headers : Headers} {request : ApiRequest} {caller : Caller}
  {T : (c : ApiCall u) → c.Reply → Prop} {action : Action}

theorem ApiCall.mayFor_of_reads {c : ApiCall u} (h : c.ReadsAmong fun _ => True) :
    c.MayFor deployment request := by
  cases c with
  | putWithRotation => exact h.elim
  | _ => trivial

theorem may_record {entry : Entry} :
    (record entry : Api u Unit).Asks T (ApiCall.MayFor deployment request) := asks_ask trivial

theorem may_authenticated {context : RequestContext} :
    (deployment.authenticated headers action context : Api u Caller).Asks T
      (ApiCall.MayFor deployment request) :=
  asks_authenticated.mono fun _ => ApiCall.mayFor_of_reads

theorem may_parsePathRecorded {context : RequestContext} {raw : String} :
    (parsePathRecorded caller action context raw : Api u (SecretPath u)).Asks T
      (ApiCall.MayFor deployment request) :=
  asks_parsePathRecorded.mono fun _ => ApiCall.mayFor_of_reads

theorem may_authorizeAndRecordSubject {capability : Capability} {path : SecretPath u}
    {subject : Option Principal} {context : RequestContext} :
    (deployment.authorizeAndRecordSubject caller action capability path subject context).Asks T
      (ApiCall.MayFor deployment request) := by
  have hbait : (deployment.lookForBait (deployment.authorize caller capability path) capability
      path).Asks T (ApiCall.MayFor deployment request) := by
    unfold Deployment.lookForBait
    split
    · exact asks_ask trivial
    · exact asks_pure
  have hend : (if (deployment.authorize caller capability path).isAllowed then pure ()
      else ofExcept (.error .forbidden) : Api u Unit).Asks T
        (ApiCall.MayFor deployment request) := by
    split
    · exact asks_pure
    · exact asks_ofExcept
  refine hbait.bind fun bait => may_record.bind fun _ => ?_
  cases bait with
  | some tier => exact Asks.bind (asks_ask (by trivial)) fun _ => hend
  | none => exact hend

theorem may_completeOrRecord {α : Type} {path : SecretPath u} {context : RequestContext}
    {reason : String} {work : Api u α} (h : work.Asks T (ApiCall.MayFor deployment request)) :
    (completeOrRecord caller action path context reason work).Asks T
      (ApiCall.MayFor deployment request) := by
  refine h.outcome.bind fun ended => ?_
  cases ended with
  | ok value => exact asks_pure
  | error error => exact may_record.bind fun _ => asks_ofExcept

theorem may_auditedJson {α : Type} {body : Except String α} :
    (auditedJson deployment headers action body : Api u α).Asks T
      (ApiCall.MayFor deployment request) := by
  cases body with
  | ok parsed => exact asks_pure
  | error text =>
      have hcaller : (deployment.authenticate headers.bearerToken : Api u _).Asks T
          (ApiCall.MayFor deployment request) :=
        asks_authenticate.mono fun _ => ApiCall.mayFor_of_reads
      refine hcaller.bind fun outcome => ?_
      split
      · exact may_record.bind fun _ => asks_ofExcept
      · exact asks_ofExcept

theorem may_health : (health deployment : Api u ApiResponse).Asks T
    (ApiCall.MayFor deployment request) := by
  have hrest : ∀ tripwire : Option (Bool × Nat), (ask .auditDevices .ok : Api u _).Asks T
      (ApiCall.MayFor deployment request) := fun _ => asks_ask trivial
  unfold health
  dsimp only
  split
  · exact Asks.bind (asks_ask trivial) fun tripwire => (hrest tripwire).bind fun _ => asks_pure
  · exact asks_pure.bind fun tripwire => (hrest tripwire).bind fun _ => asks_pure

theorem may_readSecret {raw : String} {query : VersionQuery} :
    (readSecret deployment headers raw query : Api u ApiResponse).Asks T
      (ApiCall.MayFor deployment request) := by
  refine may_authenticated.bind fun caller => may_parsePathRecorded.bind fun path =>
    may_authorizeAndRecordSubject.bind fun _ => asks_ofExcept.bind fun version => ?_
  have hget : (ask (.get path version) fun stored => .ok (stored.mapError ApiError.ofStore) :
      Api u _).Asks T (ApiCall.MayFor deployment request) := asks_ask trivial
  refine hget.bind fun stored => ?_
  split
  · exact may_record.bind fun _ => asks_ofExcept
  · split
    · exact may_record.bind fun _ => asks_ofExcept
    · exact asks_pure

theorem may_classifyAndStore {value : String} {path : SecretPath u} {rotation : Option Rotation}
    (h : request.AsksToWrite path value) :
    (classifyAndStore deployment headers value caller path rotation).Asks T
      (ApiCall.MayFor deployment request) := by
  have hstore : (storeSecret deployment headers caller path rotation value).Asks T
      (ApiCall.MayFor deployment request) := by
    have hput : (ask (.putWithRotation path caller.identity rotation
        (encryptBody deployment path value)) fun stored => .ok (stored.mapError ApiError.ofStore) :
          Api u _).Asks T (ApiCall.MayFor deployment request) := asks_ask ⟨value, h, rfl⟩
    refine hput.bind fun stored => ?_
    split
    · refine may_record.bind fun _ => ?_
      dsimp only
      split
      · exact may_record.bind fun _ => asks_ofExcept
      · exact asks_ofExcept
    · exact asks_pure
  cases rotation with
  | none => exact hstore
  | some rotation => exact may_authorizeAndRecordSubject.bind fun _ => hstore

/-- A write puts the value of its body, for the path that it names. -/
theorem may_writeSecret {raw : String} {body : Except String SecretBody} :
    (writeSecret deployment headers raw body : Api u ApiResponse).Asks T
      (ApiCall.MayFor deployment (.writeSecret (.ok raw) body)) := by
  refine may_auditedJson.bind_of fun acts parsed hbody _ => ?_
  have hparsed : body = .ok parsed := by
    rcases runs_auditedJson hbody with ⟨_, hok, -, heq⟩ | ⟨⟨_, herror⟩, -⟩
    · cases heq
      exact hok
    · cases herror
  subst hparsed
  refine may_authenticated.bind fun caller => may_parsePathRecorded.bind_of fun acts path hpath _ => ?_
  have hnamed : parsePath u raw = .ok path := by
    unfold parsePathRecorded at hpath
    split at hpath
    · rename_i named hnamed
      cases (runs_pure_iff.mp hpath).2
      exact hnamed
    · obtain ⟨_, -, hended⟩ | ⟨_, _, _, -, -, hended⟩ := runs_bind_iff.mp hpath
      · cases hended
      · cases (runs_ofExcept_iff.mp hended).2
  exact asks_ofExcept.bind fun _ => asks_ofExcept.bind fun rotation =>
    may_authorizeAndRecordSubject.bind fun _ =>
      may_classifyAndStore ⟨raw, parsed, rfl, hnamed, rfl⟩

theorem may_deleteSecret {raw : String} {query : VersionQuery} :
    (deleteSecret deployment headers raw query : Api u ApiResponse).Asks T
      (ApiCall.MayFor deployment request) := by
  refine may_authenticated.bind fun caller => may_parsePathRecorded.bind fun path =>
    asks_ofExcept.bind fun _ => may_authorizeAndRecordSubject.bind fun _ =>
      (may_completeOrRecord ?_).bind fun _ => asks_pure
  refine Asks.bind ?_ fun version => asks_ask trivial
  refine asks_ofExcept.bind fun version => ?_
  split
  · exact asks_pure
  · refine Asks.bind (asks_ask (by trivial)) fun metadata => ?_
    split
    · exact asks_pure
    · exact asks_ofExcept

theorem may_listVersions {raw : String} :
    (listVersions deployment headers raw : Api u ApiResponse).Asks T
      (ApiCall.MayFor deployment request) :=
  may_authenticated.bind fun _ => may_parsePathRecorded.bind fun _ =>
    may_authorizeAndRecordSubject.bind fun _ =>
      (may_completeOrRecord (asks_ask (by trivial))).bind fun _ => asks_pure

variable [ReservedPaths u]

theorem may_inspecting {name : ReservedName} {serve : Caller → SecretPath u → Api u ApiResponse}
    (h : ∀ caller path, (serve caller path).Asks T (ApiCall.MayFor deployment request)) :
    (inspecting deployment headers name serve).Asks T (ApiCall.MayFor deployment request) :=
  may_authenticated.bind fun caller => may_authorizeAndRecordSubject.bind fun _ => h caller _

theorem may_revokeToken {tokenId : String} :
    (revokeToken deployment headers tokenId : Api u ApiResponse).Asks T
      (ApiCall.MayFor deployment request) := by
  refine may_authenticated.bind fun caller => Asks.bind (asks_ask (by trivial)) fun record =>
    may_authorizeAndRecordSubject.bind fun _ => ?_
  split
  · exact asks_ofExcept
  · exact (may_completeOrRecord (asks_ask (by trivial))).bind fun _ => asks_pure

theorem may_mintToken {accepted : Oidc.Accepted} {asked : Option Int} {now : Int} :
    (mintToken deployment headers accepted asked now : Api u ApiResponse).Asks T
      (ApiCall.MayFor deployment request) := by
  refine Asks.bind (asks_ask (by trivial)) fun token => may_record.bind fun _ =>
    Asks.bind (asks_ask (by trivial)) fun stored => ?_
  split
  · exact may_record.bind fun _ => asks_ofExcept
  · exact asks_pure

theorem may_oidcLogin {body : Except String OidcLoginRequest} :
    (oidcLogin deployment headers body : Api u ApiResponse).Asks T
      (ApiCall.MayFor deployment request) := by
  refine may_auditedJson.bind fun body => Asks.bind (asks_ask (by trivial)) fun now =>
    asks_ofExcept.bind fun asked => ?_
  split
  · exact asks_ofExcept
  · exact may_record.bind fun _ => asks_ofExcept
  · exact may_mintToken

omit [ReservedPaths u] in
theorem may_extracting {α : Type} {extracted : Extracted α} {handler : α → Served u}
    (h : ∀ a, extracted = .ok a → (handler a).Asks T (ApiCall.MayFor deployment request)) :
    (extracting extracted handler).Asks T (ApiCall.MayFor deployment request) := by
  cases extracted with
  | ok a => exact h a rfl
  | error text => exact asks_ofExcept

/-- No request writes anything but what it asks to be written. -/
theorem may_serve :
    (serve deployment headers request : Served u).Asks T (ApiCall.MayFor deployment request) := by
  have hrefused : ∀ reason, (refusedRequest deployment headers reason : Api u ApiResponse).Asks T
      (ApiCall.MayFor deployment request) := by
    intro reason
    exact asks_refusedRequest.mono fun _ => ApiCall.mayFor_of_reads
  unfold serve
  split
  · cases request with
    | health => exact may_health.mapError
    | readSecret path query =>
        exact may_extracting fun _ _ => may_extracting fun _ _ => may_readSecret.mapError
    | writeSecret path body =>
        refine may_extracting fun raw hraw => ?_
        subst hraw
        exact may_writeSecret.mapError
    | deleteSecret path query =>
        exact may_extracting fun _ _ => may_extracting fun _ _ => may_deleteSecret.mapError
    | listVersions path => exact may_extracting fun _ _ => may_listVersions.mapError
    | listPaths start rotation =>
        exact may_extracting fun _ _ => may_extracting fun _ _ =>
          (asks_listPaths.mono fun _ => ApiCall.mayFor_of_reads).mapError
    | exportPaths body =>
        refine Asks.mapError ?_
        cases body with
        | error text =>
            refine may_auditedJson.bind_of fun acts raw hraw _ => ?_
            rcases runs_auditedJson hraw with ⟨_, hok, -, -⟩ | ⟨⟨_, herror⟩, -⟩
            · cases hok
            · cases herror
        | ok raw =>
            exact (asks_exportPaths fun _ _ _ _ => trivial).mono fun _ => ApiCall.mayFor_of_reads
    | readSurface => exact (may_inspecting fun _ _ => asks_pure).mapError
    | readHoneypots =>
        refine (may_inspecting fun caller path => ?_).mapError
        exact (may_completeOrRecord (asks_ask (by trivial))).bind fun _ => asks_pure
    | readAudit query =>
        refine may_extracting fun query _ => (may_inspecting fun caller path => ?_).mapError
        refine asks_ofExcept.bind fun filter => (may_completeOrRecord ?_).bind fun _ => asks_pure
        exact Asks.bind (asks_ask (by trivial)) fun _ => asks_ofExcept
    | readIdentities => exact (may_inspecting fun _ _ => asks_pure).mapError
    | readPolicies => exact (may_inspecting fun _ _ => asks_pure).mapError
    | readTokens identity =>
        refine may_extracting fun identity _ => (may_inspecting fun caller path => ?_).mapError
        exact Asks.bind (asks_ask (by trivial)) fun _ => Asks.bind (asks_ask (by trivial)) fun _ => asks_pure
    | revokeToken tokenId => exact may_extracting fun _ _ => may_revokeToken.mapError
    | oidcLogin body => exact may_oidcLogin.mapError
    | unmatched reason => exact (hrefused reason).mapError
  · exact (hrefused _).mapError

end Calls

/-! ### The replies behind an answer -/

/-- Every version that an answer names was read from the store or put into it, every value is that of
a version that was read, and a token is said to be revoked where the table has said so. -/
structure ApiResponse.Rests (deployment : Deployment) (request : ApiRequest) (acts : List (ApiAct u))
    (response : ApiResponse) : Prop where
  values : ∀ told ∈ response.values, ∃ path version stored,
    (⟨.get path version, .ok stored⟩ : ApiAct u) ∈ acts ∧
      decryptToText deployment stored = .ok told.value ∧ told.path = stored.path.text ∧
      told.version = stored.version.number ∧ (request.takesCurrent = true → version = none)
  versions : ∀ told ∈ response.versionsTold,
    (∃ path version stored, (⟨.get path version, .ok stored⟩ : ApiAct u) ∈ acts ∧
      told = (stored.path.text, stored.version.number)) ∨
    ∃ path createdBy rotation encrypt version,
      (⟨.putWithRotation path createdBy rotation encrypt, .ok version⟩ : ApiAct u) ∈ acts ∧
        told = (path.text, version.number)
  revoked : ∀ tokenId, response.revokedId = some tokenId →
    ∃ revokedNow, (⟨.revokeToken tokenId, .ok revokedNow⟩ : ApiAct u) ∈ acts

section Answers

variable {deployment : Deployment} {headers : Headers} {request : ApiRequest} {caller : Caller}
  {acts : List (ApiAct u)} {response : ApiResponse}

theorem ApiResponse.Plain.rests (h : response.Plain) : response.Rests deployment request acts where
  values := by
    rw [h.1]
    exact List.forall_mem_nil _
  versions := by
    rw [h.2.1]
    exact List.forall_mem_nil _
  revoked := by
    intro tokenId hrevoked
    rw [h.2.2] at hrevoked
    cases hrevoked

/-- A read rests on the version that it was given. -/
theorem readSecret_rests {raw : String} {query : VersionQuery}
    (h : Runs (readSecret deployment headers raw query : Api u ApiResponse) acts (.ok response)) :
    response.Rests deployment (.readSecret (.ok raw) (.ok query)) acts := by
  generalize hended : Except.ok response = result at h
  cases runs_readSecret h with
  | turnedAway => cases hended
  | unchecked => cases hended
  | undecided => cases hended
  | @admitted front more _ caller path _ hparse hcheck hadmitted hrest =>
      rcases runs_bind_iff.mp hrest with ⟨_, -, rfl⟩ | ⟨version, first, last, rfl, hversion, hserve⟩
      · cases hended
      · obtain ⟨rfl, hasked⟩ := runs_ofExcept_iff.mp hversion
        rcases runs_serveSecret hserve with ⟨stored, value, rfl, hvalue, rfl⟩ |
          ⟨_, _, _, _, -, hrefused⟩
        · cases hended
          have hmem : (⟨.get path version, .ok stored⟩ : ApiAct u) ∈
              front ++ ([] ++ [⟨.get path version, .ok stored⟩]) := by simp
          refine ⟨?_, ?_, nofun⟩
          · intro told htold
            cases List.mem_singleton.mp htold
            refine ⟨path, version, stored, hmem, hvalue, rfl, rfl, fun hcurrent => ?_⟩
            unfold VersionQuery.parsed at hasked
            change query.version.isNone = true at hcurrent
            rw [Option.isNone_iff_eq_none.mp hcurrent] at hasked
            exact Except.ok.inj hasked
          · intro told htold
            cases List.mem_singleton.mp htold
            exact .inl ⟨path, version, stored, hmem, rfl⟩
        · obtain ⟨_, error, -, herror⟩ := hrefused
          rw [herror] at hended
          cases hended

/-- A write rests on the version that was put. -/
theorem writeSecret_rests {raw : String} {body : Except String SecretBody}
    (h : Runs (writeSecret deployment headers raw body : Api u ApiResponse) acts (.ok response)) :
    response.Rests deployment request acts := by
  rcases runs_writeSecret h with ⟨_, -, hended, -⟩ | ⟨parsed, rfl, hgated⟩
  · cases hended
  · generalize hended : Except.ok response = result at hgated
    cases hgated with
    | turnedAway => cases hended
    | unchecked => cases hended
    | undecided => cases hended
    | @admitted front more _ caller path rotation hparse hcheck hadmitted hrest =>
        rcases runs_classifyAndStore hrest with ⟨_, rfl, -⟩ | ⟨classified, stored, rfl, -, hstored⟩
        · cases hended
        · obtain ⟨outcome, corrected, rfl, -, ⟨version, rfl, -, rfl⟩ | ⟨⟨_, rfl⟩, -⟩⟩ :=
            runs_storeSecret hstored
          · cases hended
            refine ⟨List.forall_mem_nil _, ?_, nofun⟩
            intro told htold
            cases List.mem_singleton.mp htold
            refine .inr ⟨path, caller.identity, rotation, encryptBody deployment path parsed.value, version,
              ?_, rfl⟩
            simp
          · cases hended

/-- The values of an export that went well were each read from the store. -/
theorem Exporting.rests {context : RequestContext} {paths new : List (SecretPath u)} {bytes : Nat}
    {ended : Except ApiError (List ExportedSecret)}
    (h : Exporting deployment caller context paths bytes acts new ended) {secrets : List ExportedSecret}
    (hended : ended = .ok secrets) :
    ∀ secret ∈ secrets, ∃ path stored, (⟨.get path none, .ok stored⟩ : ApiAct u) ∈ acts ∧
      decryptToText deployment stored = .ok secret.value ∧ secret.path = stored.path.text ∧
      secret.version = stored.version.number := by
  induction h generalizing secrets with
  | done bytes =>
      cases hended
      exact List.forall_mem_nil _
  | undecided => cases hended
  | unserved => cases hended
  | @served path decided asked more paths new bytes bytes' secret ended hdecided hasked hrest ih =>
      cases ended with
      | error error => cases hended
      | ok others =>
          cases hended
          obtain ⟨outcome, rfl, hserved⟩ := runs_exportSecret hasked
          obtain ⟨stored, value, rfl, hvalue, rfl⟩ := hserved secret bytes' rfl
          refine List.forall_mem_cons.mpr ⟨⟨path, stored, by simp, hvalue, rfl, rfl⟩, ?_⟩
          intro other hother
          obtain ⟨path', stored', hmem, hrest'⟩ := ih rfl other hother
          exact ⟨path', stored', by simp [hmem], hrest'⟩

theorem exportPaths_rests {body : Except String (List String)}
    (h : Runs (exportPaths deployment headers body : Api u ApiResponse) acts (.ok response)) :
    response.Rests deployment request acts := by
  generalize hended : Except.ok response = result at h
  cases runs_exportPaths h with
  | turnedAway => cases hended
  | malformed caller raw refused hbody hpresented hinvalid hrefused =>
      obtain ⟨_, error, -, herror⟩ := hrefused
      rw [herror] at hended
      cases hended
  | @checked front more _ caller raw paths hbody hpresented hvalid hserved =>
      obtain ⟨exported, corrected, new, ended, rfl, hexporting, ⟨secrets, rfl, rfl, rfl⟩ |
        ⟨_, _, -, rfl, -⟩⟩ := runs_serveExport hserved
      · cases hended
        have hall := hexporting.rests rfl
        refine ⟨?_, ?_, nofun⟩
        · intro told htold
          obtain ⟨secret, hsecret, rfl⟩ := List.mem_map.mp htold
          obtain ⟨path, stored, hmem, hvalue, hpath, hversion⟩ := hall secret hsecret
          exact ⟨path, none, stored, by simp [hmem], hvalue, hpath, hversion, fun _ => rfl⟩
        · intro told htold
          obtain ⟨secret, hsecret, rfl⟩ := List.mem_map.mp htold
          obtain ⟨path, stored, hmem, -, hpath, hversion⟩ := hall secret hsecret
          exact .inl ⟨path, none, stored, by simp [hmem], by rw [hpath, hversion]⟩
      · cases hended

/-- A revocation that was answered rests on the table's own answer. -/
theorem revokeToken_rests [ReservedPaths u] {tokenId : String}
    (h : Runs (revokeToken deployment headers tokenId : Api u ApiResponse) acts (.ok response)) :
    response.Rests deployment request acts := by
  generalize hended : Except.ok response = result at h
  cases runs_revokeToken h with
  | turnedAway | unanswered | undecided | unknown => cases hended
  | failed caller found error status hlooked hadmitted hcorrected =>
      obtain ⟨_, refused, -, herror⟩ := hcorrected
      rw [herror] at hended
      cases hended
  | revoked caller found revokedNow hadmitted =>
      cases hended
      refine ⟨List.forall_mem_nil _, List.forall_mem_nil _, ?_⟩
      intro id hid
      cases hid
      exact ⟨revokedNow, List.mem_append_right _ (List.mem_singleton_self _)⟩

/-! The other answers say neither. -/

theorem plain_health : (health deployment : Api u ApiResponse).Yields ApiResponse.Plain := by
  unfold health
  dsimp only
  split
  · exact yields_bind fun _ => yields_bind fun _ => yields_pure ⟨rfl, rfl, rfl⟩
  · exact yields_bind fun _ => yields_bind fun _ => yields_pure ⟨rfl, rfl, rfl⟩

theorem plain_extracting {α : Type} {extracted : Extracted α} {handler : α → Served u}
    (h : ∀ a, (handler a).Yields ApiResponse.Plain) :
    (extracting extracted handler).Yields ApiResponse.Plain := by
  cases extracted with
  | ok a => exact h a
  | error text => exact yields_error

theorem plain_inspecting [ReservedPaths u] {name : ReservedName}
    {serve : Caller → SecretPath u → Api u ApiResponse}
    (h : ∀ caller path, (serve caller path).Yields ApiResponse.Plain) :
    (inspecting deployment headers name serve).Yields ApiResponse.Plain :=
  yields_bind fun caller => yields_bind fun _ => h caller _

theorem plain_oidcLogin [ReservedPaths u] {body : Except String OidcLoginRequest} :
    (oidcLogin deployment headers body : Api u ApiResponse).Yields ApiResponse.Plain := by
  refine yields_bind fun body => yields_bind fun now => yields_bind fun asked => ?_
  split
  · exact yields_error
  · exact yields_bind fun _ => yields_error
  · refine yields_bind fun token => yields_bind fun _ => yields_bind fun stored => ?_
    split
    · exact yields_bind fun _ => yields_error
    · exact yields_pure ⟨rfl, rfl, rfl⟩

theorem plain_refusedRequest {reason : String} :
    (refusedRequest deployment headers reason : Api u ApiResponse).Yields ApiResponse.Plain := by
  refine yields_bind fun outcome => ?_
  split
  · exact yields_bind fun _ => yields_error
  · exact yields_error

/-- Whatever a request is answered with rests on what its calls were told. -/
theorem serve_rests [ReservedPaths u]
    (h : Runs (serve deployment headers request : Served u) acts (.ok response)) :
    response.Rests deployment request acts := by
  have hplain : ∀ script : Served u, script.Yields ApiResponse.Plain →
      Runs script acts (.ok response) → response.Rests deployment request acts :=
    fun script hscript hruns => (hscript acts response hruns).rests
  unfold serve at h
  split at h
  · cases request with
    | health =>
        exact hplain _ (yields_mapError plain_health) h
    | readSecret path query =>
        rcases runs_extracting h with ⟨_, -, -, hended⟩ | ⟨raw, rfl, h⟩
        · cases hended
        · rcases runs_extracting h with ⟨_, -, -, hended⟩ | ⟨query, rfl, h⟩
          · cases hended
          · obtain ⟨ended, hruns, hended⟩ := runs_mapError_iff.mp h
            cases ended with
            | error error => cases hended
            | ok response =>
                cases hended
                exact readSecret_rests hruns
    | writeSecret path body =>
        rcases runs_extracting h with ⟨_, -, -, hended⟩ | ⟨raw, rfl, h⟩
        · cases hended
        · obtain ⟨ended, hruns, hended⟩ := runs_mapError_iff.mp h
          cases ended with
          | error error => cases hended
          | ok response =>
              cases hended
              exact writeSecret_rests hruns
    | exportPaths body =>
        obtain ⟨ended, hruns, hended⟩ := runs_mapError_iff.mp h
        cases ended with
        | error error => cases hended
        | ok response =>
            cases hended
            exact exportPaths_rests hruns
    | deleteSecret path query =>
        refine hplain _ (plain_extracting fun _ => plain_extracting fun _ => yields_mapError ?_) h
        exact yields_bind fun _ => yields_bind fun _ => yields_bind fun _ => yields_bind fun _ =>
          yields_bind fun _ => yields_pure ⟨rfl, rfl, rfl⟩
    | listVersions path =>
        refine hplain _ (plain_extracting fun _ => yields_mapError ?_) h
        exact yields_bind fun _ => yields_bind fun _ => yields_bind fun _ => yields_bind fun _ =>
          yields_pure ⟨rfl, rfl, rfl⟩
    | listPaths start rotation =>
        refine hplain _ (plain_extracting fun _ => plain_extracting fun _ => yields_mapError ?_) h
        exact yields_bind fun _ => yields_bind fun _ => yields_bind fun _ => yields_bind fun _ =>
          yields_bind fun _ => yields_pure ⟨rfl, rfl, rfl⟩
    | readSurface =>
        exact hplain _ (yields_mapError (plain_inspecting fun _ _ => yields_pure ⟨rfl, rfl, rfl⟩)) h
    | readHoneypots =>
        exact hplain _ (yields_mapError (plain_inspecting fun _ _ =>
          yields_bind fun _ => yields_pure ⟨rfl, rfl, rfl⟩)) h
    | readAudit query =>
        exact hplain _ (plain_extracting fun _ => yields_mapError (plain_inspecting fun _ _ =>
          yields_bind fun _ => yields_bind fun _ => yields_pure ⟨rfl, rfl, rfl⟩)) h
    | readIdentities =>
        exact hplain _ (yields_mapError (plain_inspecting fun _ _ => yields_pure ⟨rfl, rfl, rfl⟩)) h
    | readPolicies =>
        exact hplain _ (yields_mapError (plain_inspecting fun _ _ => yields_pure ⟨rfl, rfl, rfl⟩)) h
    | readTokens identity =>
        exact hplain _ (plain_extracting fun _ => yields_mapError (plain_inspecting fun _ _ =>
          yields_bind fun _ => yields_bind fun _ => yields_pure ⟨rfl, rfl, rfl⟩)) h
    | revokeToken tokenId =>
        rcases runs_extracting h with ⟨_, -, -, hended⟩ | ⟨tokenId, rfl, h⟩
        · cases hended
        · obtain ⟨ended, hruns, hended⟩ := runs_mapError_iff.mp h
          cases ended with
          | error error => cases hended
          | ok response =>
              cases hended
              exact revokeToken_rests hruns
    | oidcLogin body => exact hplain _ (yields_mapError plain_oidcLogin) h
    | unmatched reason => exact hplain _ (yields_mapError plain_refusedRequest) h
  · exact hplain _ (yields_mapError plain_refusedRequest) h

end Answers

end Ciphr
