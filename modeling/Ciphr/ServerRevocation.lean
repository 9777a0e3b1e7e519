import Mathlib
import Ciphr.ServerBait
import Ciphr.ServerValues

/-!
Credentials over whole runs of the service. A revocation holds from the moment that it is answered:
whatever came in after that and presents the token is refused, however the requests are handled beside
one another and whatever other processes do to the table.
-/

namespace Ciphr

open Script

variable {u : Unicode}

/-! ### Whose answer it is -/

namespace ApiRequest

/-- A request that is answered to somebody who has authenticated. -/
def needsCaller : ApiRequest → Bool
  | .health | .oidcLogin _ => false
  | _ => true

end ApiRequest

/-- The token table has said that the credential of the request is valid. -/
def Vouched (headers : Headers) (acts : List (ApiAct u)) : Prop :=
  ∃ presented one, headers.bearerToken = some presented ∧
    (⟨.authenticate presented, .ok (.valid one)⟩ : ApiAct u) ∈ acts

section Callers

variable {deployment : Deployment} {headers : Headers} {acts : List (ApiAct u)}

theorem Vouched.of_append {more : List (ApiAct u)} (h : Vouched headers more) (front : List (ApiAct u)) :
    Vouched headers (front ++ more) := by
  obtain ⟨presented, one, hbearer, hmem⟩ := h
  exact ⟨presented, one, hbearer, List.mem_append_right _ hmem⟩

theorem vouched_authenticated {α : Type} {action : Action} {context : RequestContext}
    {rest : Caller → Api u α} {a : α}
    (h : Runs (deployment.authenticated headers action context >>= rest) acts (.ok a)) :
    Vouched headers acts := by
  rcases runs_bind_iff.mp h with ⟨_, -, hended⟩ | ⟨caller, front, more, rfl, hfirst, -⟩
  · cases hended
  · obtain ⟨presented, one, hbearer, rfl, -⟩ := runs_authenticated_ok hfirst
    exact ⟨presented, one, hbearer, List.mem_append_left _ (List.mem_singleton_self _)⟩

theorem vouched_auditedJson {α β : Type} {action : Action} {context : RequestContext}
    {body : Except String β} {rest : β → Caller → Api u α} {a : α}
    (h : Runs (auditedJson deployment headers action body >>= fun parsed =>
      deployment.authenticated headers action context >>= rest parsed) acts (.ok a)) :
    Vouched headers acts := by
  rcases runs_bind_iff.mp h with ⟨_, -, hended⟩ | ⟨parsed, front, more, rfl, -, hrest⟩
  · cases hended
  · exact (vouched_authenticated hrest).of_append front

theorem vouched_extracting {α : Type} {extracted : Extracted α} {handler : α → Served u}
    {response : ApiResponse} (h : Runs (extracting extracted handler) acts (.ok response))
    (hhandler : ∀ a, Runs (handler a) acts (.ok response) → Vouched headers acts) :
    Vouched headers acts := by
  rcases runs_extracting h with ⟨_, -, -, hended⟩ | ⟨a, -, h⟩
  · cases hended
  · exact hhandler a h

theorem vouched_mapError {script : Api u ApiResponse} {response : ApiResponse}
    (h : Runs (script.mapError HttpError.api) acts (.ok response))
    (hscript : Runs script acts (.ok response) → Vouched headers acts) : Vouched headers acts := by
  obtain ⟨ended, hruns, hended⟩ := runs_mapError_iff.mp h
  cases ended with
  | error error => cases hended
  | ok found =>
      cases hended
      exact hscript hruns

theorem not_ok_refusedRequest {reason : String} {response : ApiResponse} :
    ¬ Runs ((refusedRequest deployment headers reason : Api u ApiResponse).mapError HttpError.api) acts
      (.ok response) := by
  intro h
  obtain ⟨ended, hruns, hended⟩ := runs_mapError_iff.mp h
  obtain ⟨⟨error, rfl⟩, -⟩ := runs_refusedRequest hruns
  cases hended

variable [ReservedPaths u]

/-- Whoever gets an answer has presented a token that was valid when the table was asked. -/
theorem vouched_serve {request : ApiRequest} {response : ApiResponse}
    (hneeds : request.needsCaller = true)
    (h : Runs (serve deployment headers request : Served u) acts (.ok response)) :
    Vouched headers acts := by
  unfold serve at h
  split at h
  · cases request with
    | health | oidcLogin => cases hneeds
    | readSecret path query =>
        exact vouched_extracting h fun _ h => vouched_extracting h fun _ h =>
          vouched_mapError h vouched_authenticated
    | writeSecret path body =>
        exact vouched_extracting h fun _ h => vouched_mapError h vouched_auditedJson
    | deleteSecret path query =>
        exact vouched_extracting h fun _ h => vouched_extracting h fun _ h =>
          vouched_mapError h vouched_authenticated
    | listVersions path =>
        exact vouched_extracting h fun _ h => vouched_mapError h vouched_authenticated
    | listPaths start rotation =>
        exact vouched_extracting h fun _ h => vouched_extracting h fun _ h =>
          vouched_mapError h vouched_authenticated
    | exportPaths body => exact vouched_mapError h vouched_auditedJson
    | readSurface => exact vouched_mapError h vouched_authenticated
    | readHoneypots => exact vouched_mapError h vouched_authenticated
    | readAudit query => exact vouched_extracting h fun _ h => vouched_mapError h vouched_authenticated
    | readIdentities => exact vouched_mapError h vouched_authenticated
    | readPolicies => exact vouched_mapError h vouched_authenticated
    | readTokens identity =>
        exact vouched_extracting h fun _ h => vouched_mapError h vouched_authenticated
    | revokeToken tokenId =>
        exact vouched_extracting h fun _ h => vouched_mapError h vouched_authenticated
    | unmatched reason => exact absurd h not_ok_refusedRequest
  · exact absurd h not_ok_refusedRequest

end Callers

/-! ### The table and its parties -/

/-- What happens to the tokens beside the requests. -/
inductive CredentialEvent (δ ω : Type) where
  /-- Another process issues, authenticates or revokes. -/
  | tokens (event : TokenEvent)
  /-- Anything that leaves the tokens alone. -/
  | otherwise (server : Server δ ω)

namespace Server

variable {δ ω : Type}

def serveCredentials (deployment : Deployment) (s : Server δ ω) :
    CredentialEvent δ ω → Option (Server δ ω)
  | .tokens event =>
      (TokenLife.step deployment.hmac deployment.pepper ⟨s.tokens, []⟩ event).map fun life =>
        { s with tokens := life.table }
  | .otherwise server => if server.tokens = s.tokens then some server else none

end Server

def crediting {δ ω φ : Type} [AuditDevice δ ω φ] [ReservedPaths u] (deployment : Deployment)
    (codec : Codec) (json : JsonExtract) (database : ω → Database) :
    Machine (Attending (Server δ ω) (ApiRequest × Headers) HttpError ApiResponse)
      (Stage (ApiCall u) (ApiRequest × Headers) HttpError ApiResponse) (Stage.Reply ApiCall.Reply)
      HttpError (CredentialEvent δ ω) (ApiOutside φ) (ApiRequest × Headers) :=
  service (Server.serveCredentials deployment) (Server.answer deployment codec json database)
    fun request => serve deployment request.2 request.1

/-- A service that has not yet been asked anything, with any tokens. -/
def Unasked {δ ω : Type} (deployment : Deployment) (s : Running (Attending (Server δ ω)
    (ApiRequest × Headers) HttpError ApiResponse) (Stage (ApiCall u) (ApiRequest × Headers) HttpError
    ApiResponse) (Stage.Reply ApiCall.Reply) HttpError) : Prop :=
  TokenTable.WellFormed deployment.hmac deployment.pepper s.shared.shared.tokens ∧
    s.shared.arrived = [] ∧ s.shared.answered = [] ∧ s.scripts = []

/-! ### What is known of the tokens -/

/-- `revoke_token` answers when the token is revoked: by it, or by another one before. -/
theorem TokenTable.revokeToken_ok {table : TokenTable} {tokenId : String} {now : Int} {fault : TokenFault}
    {revokedNow : Bool} (h : (table.revokeToken tokenId now fault).2 = .ok revokedNow) :
    ∃ row ∈ (table.revokeToken tokenId now fault).1, row.tokenId = tokenId ∧ row.revokedAt ≠ none := by
  rcases table.revokeToken_cases tokenId now fault with ⟨-, ⟨row, hmem, hid, hstanding⟩, hmarked⟩ |
    ⟨hnot, hsame⟩
  · rw [hmarked]
    refine ⟨{ row with revokedAt := some now }, List.mem_map.mpr ⟨row, hmem, ?_⟩, hid, nofun⟩
    simp [hid, hstanding]
  · rw [hsame]
    unfold TokenTable.revokeToken at h hnot
    cases hupdate : fault.update with
    | some error =>
        rw [hupdate] at h
        cases h
    | none =>
        simp only [hupdate] at h hnot
        split at h
        · rename_i hcount
          rw [if_pos hcount] at hnot
          exact absurd rfl hnot
        · rename_i hcount
          -- there is a row, and it is none that could be marked
          unfold TokenTable.token at h
          cases hfault : fault.token with
          | some error => simp [hfault] at h
          | none =>
              cases hfind : table.find? (·.tokenId == tokenId) with
              | none => simp [hfault, hfind] at h
              | some row =>
                  have hmem := List.mem_of_find?_eq_some hfind
                  have hid : row.tokenId = tokenId := by
                    simpa using List.find?_some (p := fun r : TokenRow => r.tokenId == tokenId) hfind
                  refine ⟨row, hmem, hid, fun hstanding => hcount ?_⟩
                  exact List.countP_pos_iff.mpr ⟨row, hmem, by simp [hid, hstanding]⟩

/-- The tokens of a world are revoked. -/
structure Stops {δ ω : Type} (deployment : Deployment) (s : Server δ ω) (w : Set String) : Prop where
  wellFormed : TokenTable.WellFormed deployment.hmac deployment.pepper s.tokens
  revoked : ∀ id ∈ w, ∃ row ∈ s.tokens, row.tokenId = id ∧ row.revokedAt ≠ none

/-- What the replies of the table tell of the tokens. -/
def tokenContract : Contract (Set String) (ApiCall u) ApiCall.Reply where
  requires _ _ := True
  answers
    | .authenticate presented, .ok (.valid one), w =>
        ∃ token, Token.parse presented = some (.ok token) ∧ one.tokenId = token.id.asText ∧
          one.tokenId ∉ w
    | .revokeToken tokenId, .ok _, w => tokenId ∈ w
    | _, _, _ => True

section Known

variable {δ ω φ : Type} {deployment : Deployment} {s : Server δ ω} {w : Set String}

/-- A revocation stands, whatever is done to the table. -/
theorem Stops.of_change (h : Stops deployment s w) {s' : Server δ ω}
    (hchange : TokenTable.Change deployment.hmac deployment.pepper s.tokens s'.tokens) :
    Stops deployment s' w where
  wellFormed := hchange.wellFormed h.wellFormed
  revoked := by
    intro id hid
    obtain ⟨row, hrow, rfl, hrevoked⟩ := h.revoked id hid
    obtain ⟨row', hrow', hlater⟩ := hchange.later row hrow
    obtain ⟨t, ht⟩ := Option.ne_none_iff_exists'.mp hrevoked
    exact ⟨row', hrow', hlater.tokenId, by simp [hlater.revoked t ht]⟩

theorem Stops.of_same (h : Stops deployment s w) {s' : Server δ ω} (hsame : s'.tokens = s.tokens) :
    Stops deployment s' w := by
  refine h.of_change ?_
  rw [hsame]
  exact .same

/-- A token that admits somebody is none that is known to be revoked. -/
theorem Stops.not_mem (h : Stops deployment s w) {presented : String} {now : Int} {row : TokenRow}
    (hrow : row ∈ s.tokens)
    (hadmits : TokenTable.Admits deployment.hmac deployment.pepper presented now row) : row.tokenId ∉ w := by
  intro hid
  obtain ⟨other, hother, hsame, hrevoked⟩ := h.revoked _ hid
  rw [List.inj_on_of_nodup_map h.wellFormed.unique hother hrow hsame] at hrevoked
  exact hrevoked hadmits.standing

theorem Stops.serve (h : Stops deployment s w) {event : CredentialEvent δ ω} {s' : Server δ ω}
    (hserve : s.serveCredentials deployment event = some s') : Stops deployment s' w := by
  cases event with
  | tokens event =>
      obtain ⟨life, hlife, rfl⟩ := Option.map_eq_some_iff.mp hserve
      exact h.of_change (TokenLife.step_change (s := ⟨s.tokens, []⟩) h.wellFormed hlife)
  | otherwise server =>
      change (if server.tokens = s.tokens then some server else none) = some s' at hserve
      split at hserve
      · rename_i hsame
        cases hserve
        exact h.of_same hsame
      · cases hserve

variable [AuditDevice δ ω φ] {codec : Codec} {json : JsonExtract} {database : ω → Database}

/-- The answer to a call, in the world in which what it has revoked is revoked. -/
theorem Stops.answer (h : Stops deployment s w) (outside : ApiOutside φ) (c : ApiCall u) :
    ∃ w', w ≤ w' ∧ Stops deployment (s.answer deployment codec json database outside c).1 w' ∧
      tokenContract.answers c (s.answer deployment codec json database outside c).2 w' := by
  cases c with
  | authenticate presented =>
      refine ⟨w, le_rfl, h.of_change (TokenTable.authenticate_change h.wellFormed _ _ _), ?_⟩
      cases hreply : (s.tokens.authenticate deployment.hmac presented deployment.pepper outside.now
          outside.token).2 with
      | none =>
          simp only [Server.answer, hreply, Option.getD_none]
          trivial
      | some result =>
          simp only [Server.answer, hreply, Option.getD_some]
          cases result with
          | error error => trivial
          | ok authentication =>
              cases authentication with
              | invalid => trivial
              | bait tokenId identity => trivial
              | valid one =>
                  obtain ⟨-, -, row, hrow, hadmits, rfl⟩ :=
                    (TokenTable.authenticate_valid_iff h.wellFormed _ _ _ _).mp hreply
                  obtain ⟨token, hparse, hid, -⟩ := hadmits.names
                  exact ⟨token, hparse, hid, h.not_mem hrow hadmits⟩
  | revokeToken tokenId =>
      have hkept : Stops deployment (s.answer deployment codec json database outside
          (.revokeToken tokenId : ApiCall u)).1 w :=
        h.of_change (TokenTable.revokeToken_change _ _ _)
      cases hreply : (s.tokens.revokeToken tokenId outside.now outside.token).2 with
      | error error =>
          refine ⟨w, le_rfl, hkept, ?_⟩
          simp only [Server.answer, hreply]
          trivial
      | ok revokedNow =>
          refine ⟨insert tokenId w, Set.subset_insert _ _, ⟨hkept.wellFormed, ?_⟩, ?_⟩
          · rintro id (rfl | hid)
            · exact TokenTable.revokeToken_ok hreply
            · exact hkept.revoked id hid
          · simp only [Server.answer, hreply]
            exact Set.mem_insert _ _
  | issueToken identity token createdBy expiresAt =>
      exact ⟨w, le_rfl, h.of_change (TokenTable.issueToken_change _ _ _ _ _ _ _), trivial⟩
  | latchOffTheRequestPath kind reference identity tier =>
      refine ⟨w, le_rfl, h.of_same ?_, trivial⟩
      simp only [Server.answer]
      split
      · rfl
      · rfl
  | _ => exact ⟨w, le_rfl, h.of_same rfl, trivial⟩

end Known

/-! ### Whole runs -/

section Runs

variable {δ ω φ : Type} [AuditDevice δ ω φ] [ReservedPaths u] {deployment : Deployment}
  {codec : Codec} {json : JsonExtract} {database : ω → Database}
  {s : Running (Attending (Server δ ω) (ApiRequest × Headers) HttpError ApiResponse)
    (Stage (ApiCall u) (ApiRequest × Headers) HttpError ApiResponse) (Stage.Reply ApiCall.Reply)
    HttpError}

/-- A run of the service has a history, in which each request was told the truth about the tokens. -/
theorem crediting_described
    (hs : Transition.Reachable (Unasked deployment)
      (crediting (φ := φ) deployment codec json database).step (fun _ _ => True) s) :
    ∃ h, Describes (fun s _ w => Stops deployment s w) (fun request => serve (u := u) deployment request.2 request.1)
      tokenContract s.shared h := by
  have hservice : Transition.Reachable
      (fun s => TokenTable.WellFormed deployment.hmac deployment.pepper s.shared.shared.tokens ∧
        s.shared.arrived = [] ∧ s.shared.answered = [] ∧ s.scripts = [])
      (service (Server.serveCredentials deployment) (Server.answer (φ := φ) deployment codec json database)
        fun request : ApiRequest × Headers => serve (u := u) deployment request.2 request.1).step
      (fun _ _ => True) s := hs
  refine service_described (fun request => ApiCall.MayFor deployment request.1)
    (fun s => TokenTable.WellFormed deployment.hmac deployment.pepper s.tokens)
    (fun s _ w => Stops deployment s w) ?_ ?_ ?_ ?_ ?_ hservice
  · intro shared hwellFormed
    exact ⟨∅, hwellFormed, nofun⟩
  · intro shared arrived request w hw
    exact hw
  · intro shared arrived w event shared' hw hserve
    exact ⟨w, le_rfl, hw.serve hserve⟩
  · intro shared arrived w outside request c hw _ _
    exact hw.answer outside c
  · intro request
    exact may_serve

/-- A revocation holds from the moment that it is answered: a request that came in after that with the
token is refused, whatever runs beside it and whatever other processes do to the table. -/
theorem revocation_in_real_time
    (hs : Transition.Reachable (Unasked deployment)
      (crediting (φ := φ) deployment codec json database).step (fun _ _ => True) s) :
    ∀ one ∈ s.shared.answered, one.request.1.needsCaller = true →
      ∀ earlier ∈ s.shared.answered.take one.since, ∀ revoked, earlier.ended = .ok (.revoked revoked) →
        ∀ presented token, one.request.2.bearerToken = some presented →
          Token.parse presented = some (.ok token) → token.id.asText = revoked.tokenId →
            ∃ error, one.ended = .error error := by
  obtain ⟨h, hdescribed⟩ := crediting_described hs
  intro one hone hneeds earlier hearlier revoked hrevoked presented token hbearer hparse hid
  rw [← hdescribed.answered] at hone hearlier
  obtain ⟨settled, hsettled, rfl⟩ := List.mem_map.mp hone
  rw [← List.map_take] at hearlier
  obtain ⟨first, hfirst, rfl⟩ := List.mem_map.mp hearlier
  have hsound := hdescribed.sound settled hsettled
  have hbefore := hdescribed.sound first (List.mem_of_mem_take hfirst)
  cases hended : settled.answered.ended with
  | error error => exact ⟨error, rfl⟩
  | ok response =>
      exfalso
      -- the table said that it was revoked, in a world that came before
      have hruns := hbefore.runs
      rw [hrevoked] at hruns
      obtain ⟨revokedNow, hmem⟩ := (serve_rests hruns).revoked revoked.tokenId rfl
      obtain ⟨revoking, -, hthen, hin⟩ := hbefore.told.answers hmem
      -- and it said later that the token is valid
      have hserved := hsound.runs
      rw [hended] at hserved
      obtain ⟨presented', valid, hbearer', hvouched⟩ := vouched_serve hneeds hserved
      obtain ⟨now, hnow, -, token', hparse', hid', hout⟩ := hsound.told.answers hvouched
      rw [hbearer, Option.some.injEq] at hbearer'
      subst hbearer'
      rw [hparse, Option.some.injEq, Except.ok.injEq] at hparse'
      subst hparse'
      rw [hid', hid] at hout
      exact hout (hnow (hsound.since first hfirst (hthen hin)))

end Runs

namespace Sample

/-- A policy that allows to revoke tokens. -/
def operationsPolicy : Policy where
  name := "operations"
  rules := [⟨⟨[.literal "sys", .literal "tokens"], "sys/tokens", by decide +kernel⟩, {.revoke}⟩]
  patterns_nodup := by simp

def operationsPolicies : PolicySet where
  identities := [⟨"ci", .machine, ["operations"], by simp⟩]
  policies := [operationsPolicy]
  identities_nodup := by simp
  policies_nodup := by simp
  attached := by simp [operationsPolicy]

def operationsDeployment : Deployment :=
  { pinnedDeployment with
    policies := operationsPolicies
    surface := [⟨"token_revoke", "api", "2026-08-21", "leaked tokens are stopped", "one more way to write"⟩] }

def revocationEntry : Entry :=
  decisionEntry (operationsDeployment.callerOf ci) .revokeToken
    (ReservedPaths.path .tokens : SecretPath asciiUnicode) (some ⟨"ci", none, some "AQEBAQEB"⟩)
    headers.requestContext
    (operationsDeployment.authorize (operationsDeployment.callerOf ci) .revoke
      (ReservedPaths.path .tokens : SecretPath asciiUnicode)) none

def revocationCodec : Codec :=
  codecFor [(1, revocationEntry, visitPayload 1
      ("00000000000000000000000000000000" ++ "00000000000000000000000000000000")
      "\x7b\"name\":\"ci\",\"kind\":\"machine\",\"token_id\":\"AQEBAQEB\"\x7d"
      "\x7b\"name\":\"ci\",\"kind\":null,\"token_id\":\"AQEBAQEB\"\x7d" "revoke-token" "\"sys/tokens\""
      ("\"allowed\":true,\"deny_reason\":null" ++
        ",\"rule\":\x7b\"policy\":\"operations\",\"pattern\":\"sys/tokens\"\x7d") "null" "200",
      #v[0xc8, 0xd0, 0x59, 0x81, 0xd5, 0xd8, 0x85, 0xb4, 0xd9, 0x24, 0x88, 0x08, 0xc4, 0x51, 0x6d, 0xc6,
        0xee, 0xe4, 0x94, 0xd6, 0x23, 0x17, 0xd3, 0xff, 0x10, 0x90, 0xde, 0xaa, 0x78, 0x7e, 0x86, 0x28]),
    (2, unknownPresented, visitPayload 2
      ("c8d05981d5d885b4d9248808c4516dc6" ++ "eee494d62317d3ff1090deaa787e8628") "null" "null" "read" "null"
      "\"allowed\":false,\"deny_reason\":\"unauthenticated\",\"rule\":null" "null" "401",
      #v[0xe6, 0x1d, 0x27, 0xfc, 0xb6, 0x90, 0x92, 0x57, 0xb3, 0x07, 0x01, 0x7f, 0x36, 0xb6, 0x9e, 0xcf,
        0xce, 0x7d, 0xc4, 0x2f, 0x1d, 0xf8, 0x05, 0x32, 0xa7, 0x83, 0x58, 0xae, 0x23, 0x52, 0x89, 0xd9])]

def operationsCrediting := crediting (u := asciiUnicode) (δ := Device) (φ := DeviceFault)
  operationsDeployment revocationCodec (fun _ => none) AuditWorld.db

def revocationStart : Running (Attending (Server Device AuditWorld) (ApiRequest × Headers) HttpError
    ApiResponse) (Stage (ApiCall asciiUnicode) (ApiRequest × Headers) HttpError ApiResponse)
    (Stage.Reply ApiCall.Reply) HttpError where
  shared := ⟨servedStart.shared.shared.server, [], []⟩
  scripts := []

/-- `POST /v1/tokens/AQEBAQEB/revoke`. -/
def revoking : ApiRequest × Headers := (.revokeToken (.ok "AQEBAQEB"), headers)

/-- A token revokes itself, and once that is answered it is presented again. -/
def revocationEvents : List (Happens (CredentialEvent Device AuditWorld) (ApiOutside DeviceFault)
    (ApiRequest × Headers)) :=
  .start revoking :: List.replicate 6 (.advance 0 calm) ++
    .start reading :: List.replicate 4 (.advance 1 calm)

def revocationRun := (Transition.run operationsCrediting.step revocationStart revocationEvents).getD
  revocationStart

theorem revocationRun_answers :
    (Transition.run operationsCrediting.step revocationStart revocationEvents).map (fun s =>
      s.shared.answered.map fun one => (one.since, one.ended.toOption)) =
    some [(0, some (.revoked ⟨"AQEBAQEB", "ci", true⟩)), (1, none)] := by
  decide +kernel

theorem revocationRun_run :
    Transition.run operationsCrediting.step revocationStart revocationEvents = some revocationRun := by
  have hanswers := revocationRun_answers
  unfold revocationRun
  cases hrun : Transition.run operationsCrediting.step revocationStart revocationEvents with
  | none =>
      rw [hrun] at hanswers
      cases hanswers
  | some s => rfl

theorem revocationStart_wellFormed :
    TokenTable.WellFormed operationsDeployment.hmac operationsDeployment.pepper
      revocationStart.shared.shared.tokens where
  unique := by simp [revocationStart, servedStart]
  readable := by
    intro row hrow
    cases List.mem_singleton.mp hrow
    exact ⟨buildToken.verifier pinnedHmac pinnedPepper, by decide +kernel⟩

theorem revocationRun_reachable :
    Transition.Reachable (Unasked operationsDeployment) operationsCrediting.step (fun _ _ => True)
      revocationRun :=
  Transition.reachable_of_any_run revocationEvents (.start ⟨revocationStart_wellFormed, rfl, rfl, rfl⟩)
    revocationRun_run

theorem revocation_in_real_time_after_revoke :
    revocationRun.shared.answered.map (fun one => (one.since, one.ended.toOption)) =
      [(0, some (.revoked ⟨"AQEBAQEB", "ci", true⟩)), (1, none)] ∧
      ∀ one ∈ revocationRun.shared.answered, one.request.1.needsCaller = true →
        ∀ earlier ∈ revocationRun.shared.answered.take one.since, ∀ revoked,
          earlier.ended = .ok (.revoked revoked) → ∀ presented token,
            one.request.2.bearerToken = some presented → Token.parse presented = some (.ok token) →
              token.id.asText = revoked.tokenId → ∃ error, one.ended = .error error := by
  refine ⟨?_, revocation_in_real_time revocationRun_reachable⟩
  have hanswers := revocationRun_answers
  rw [revocationRun_run] at hanswers
  exact Option.some.inj hanswers

end Sample

end Ciphr
