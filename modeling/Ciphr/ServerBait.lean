import Ciphr.SdkBulkRead
import Ciphr.ServerApi
import Ciphr.ServerSinks
import Ciphr.StoreHoneypots
import Ciphr.StoreMarks
import Ciphr.StoreTokenLife

/-!
Bait and those who take it. Two processes whose stores differ in the marks of bait and in the trips it
opened serve whoever calls the same, and record as much; and so does one process to whom bait is
presented, and another to whom something else is presented that is no credential.
-/

namespace Ciphr

open Script

variable {u : Unicode}

/-! ### Calls -/

/-- The calls that have one answer, whatever is bait. -/
def ApiCall.Plain : ApiCall u → Prop
  | .nowMillis | .generateToken | .record _ | .get _ _ | .putWithRotation _ _ _ _ | .metadata _
  | .delete _ _ | .history _ | .listWithRotation _ | .token _ | .revokeToken _ | .issueToken _ _ _ _ =>
      True
  | _ => False

def ApiCall.IsLatch : ApiCall u → Prop
  | .latchOffTheRequestPath _ _ _ _ => True
  | _ => False

/-- What is presented is no credential, or none that is left: nobody has authenticated. -/
def TurnsAway (reply : Except StoreError Authentication) : Prop :=
  reply = .ok .invalid ∨ ∃ tokenId identity, reply = .ok (.bait tokenId identity)

inductive SameCall : ApiCall u → ApiCall u → Prop where
  | plain {c : ApiCall u} (h : c.Plain) : SameCall c c
  | record (entry entry' : Entry) : SameCall (.record entry) (.record entry')
  | authenticate (presented presented' : String) :
      SameCall (.authenticate presented) (.authenticate presented')
  | honeypotTier (path : SecretPath u) : SameCall (.honeypotTier path) (.honeypotTier path)

def SameReply : (c c' : ApiCall u) → c.Reply → c'.Reply → Prop
  | .record _, .record _, reply, reply' => reply = reply'
  | .authenticate _, .authenticate _, reply, reply' =>
      reply = reply' ∨ TurnsAway reply ∧ TurnsAway reply'
  | .honeypotTier _, .honeypotTier _, reply, reply' => Related (fun _ _ => True) reply reply'
  | _, _, reply, reply' => HEq reply reply'

theorem SameCall.loud {c c' : ApiCall u} (h : SameCall c c') : ¬ c.IsLatch ∧ ¬ c'.IsLatch := by
  cases h with
  | plain h =>
      cases c with
      | latchOffTheRequestPath => exact h.elim
      | _ => exact ⟨id, id⟩
  | record => exact ⟨id, id⟩
  | authenticate => exact ⟨id, id⟩
  | honeypotTier => exact ⟨id, id⟩

/-- Whoever calls sees no latch, what an entry says or how what is presented is turned away. -/
def likeness : Likeness (ApiCall u) ApiCall.Reply := ⟨ApiCall.IsLatch, SameCall, SameReply, SameCall.loud⟩

theorem ApiCall.Plain.same {c : ApiCall u} (h : c.Plain) :
    likeness.calls c c ∧ ∀ reply reply', likeness.replies c c reply reply' → reply = reply' := by
  refine ⟨.plain h, fun reply reply' hreplies => ?_⟩
  cases c with
  | record => exact hreplies
  | authenticate | honeypotTier | latchOffTheRequestPath | auditDevices | openTripCount | honeypots
  | auditQuery | tokens => exact h.elim
  | _ => exact eq_of_heq hreplies

/-! ### Callers -/

section Scripts

variable {α : Type} {deployment : Deployment} {headers headers' : Headers} {caller : Caller}
  {action : Action} {request request' : RequestContext}

theorem alike_plain {script : Api u α} (h : script.Asks (fun _ _ => True) ApiCall.Plain) :
    Alike likeness Eq script script :=
  alike_refl (fun _ => ApiCall.Plain.same) h

theorem alike_record (entry entry' : Entry) :
    Alike likeness Eq (record entry : Api u Unit) (record entry') := by
  refine alike_ask (.record entry entry') fun reply reply' hreplies => ?_
  have hsame : reply = reply' := hreplies
  rw [hsame]
  exact related_refl _

theorem alike_latch_first {R : Unit → α → Prop} {kind : BaitKind} {reference : String}
    {identity : Option String} {tier : HoneypotTier} {script : Api u α}
    (h : Alike likeness R (pure () : Api u Unit) script) :
    Alike likeness R (latch kind reference identity tier) script :=
  .first trivial fun _ => h

theorem alike_latch_second {R : α → Unit → Prop} {kind : BaitKind} {reference : String}
    {identity : Option String} {tier : HoneypotTier} {script : Api u α}
    (h : Alike likeness R script (pure () : Api u Unit)) :
    Alike likeness R script (latch kind reference identity tier) :=
  .second trivial fun _ => h

/-- The same caller, or the same refusal whatever was presented. -/
def SameCaller : Except Rejection Caller → Except Rejection Caller → Prop
  | .ok caller, .ok caller' => caller = caller'
  | .error rejection, .error rejection' => rejection.error = rejection'.error
  | _, _ => False

theorem sameCaller_refl (answer : Except Rejection Caller) : SameCaller answer answer := by
  cases answer <;> rfl

theorem TurnsAway.identify {reply : Except StoreError Authentication} (h : TurnsAway reply)
    (deployment : Deployment) :
    ∃ bait, deployment.identify reply = .error ⟨.unauthenticated, bait⟩ := by
  rcases h with rfl | ⟨tokenId, identity, rfl⟩
  · exact ⟨none, rfl⟩
  · exact ⟨some ⟨tokenId, identity⟩, rfl⟩

theorem alike_authenticate {bearer bearer' : Option String} (h : bearer.isSome = bearer'.isSome) :
    Alike likeness SameCaller (deployment.authenticate bearer : Api u _)
      (deployment.authenticate bearer') := by
  cases bearer with
  | none =>
      cases bearer' with
      | none => exact alike_pure rfl
      | some => cases h
  | some presented =>
      cases bearer' with
      | none => cases h
      | some presented' =>
          refine alike_ask (.authenticate presented presented') fun reply reply' hreplies => ?_
          change SameCaller (deployment.identify reply) (deployment.identify reply')
          have htold : reply = reply' ∨ TurnsAway reply ∧ TurnsAway reply' := hreplies
          rcases htold with rfl | ⟨haway, haway'⟩
          · exact sameCaller_refl _
          · obtain ⟨bait, hbait⟩ := haway.identify deployment
            obtain ⟨bait', hbait'⟩ := haway'.identify deployment
            rw [hbait, hbait']
            rfl

/-- A latch after an entry, or none. -/
theorem alike_record_latch (entry entry' : Entry) (kind : BaitKind) (reference : String)
    (identity : Option String) (tier : HoneypotTier) :
    Alike likeness Eq (record entry >>= fun _ => latch kind reference identity tier : Api u Unit)
        (record entry') ∧
      Alike likeness Eq (record entry' : Api u Unit)
        (record entry >>= fun _ => latch kind reference identity tier) := by
  constructor
  · refine .call (.record entry entry') fun reply reply' hreplies => ?_
    obtain rfl : reply = reply' := hreplies
    cases reply with
    | error error => exact .done rfl
    | ok => exact alike_latch_first (alike_pure rfl)
  · refine .call (.record entry' entry) fun reply reply' hreplies => ?_
    obtain rfl : reply = reply' := hreplies
    cases reply with
    | error error => exact .done rfl
    | ok => exact alike_latch_second (alike_pure rfl)

/-- One entry, whether or not what was presented is bait. -/
theorem alike_recordRejection (bait bait' : Option Bait) :
    Alike likeness Eq (deployment.recordRejection action request bait : Api u Unit)
      (deployment.recordRejection action request' bait') := by
  unfold Deployment.recordRejection Deployment.recordUnauthenticated
  cases deployment.honeypotAlert with
  | false => exact alike_record _ _
  | true =>
      cases bait with
      | none =>
          cases bait' with
          | none => exact alike_record _ _
          | some bait' => exact (alike_record_latch ..).2
      | some bait =>
          cases bait' with
          | none => exact (alike_record_latch ..).1
          | some bait' =>
              refine (alike_record _ _).bind fun _ _ _ => ?_
              exact alike_latch_first (alike_latch_second (alike_pure rfl))

theorem alike_authenticated (h : headers.bearerToken.isSome = headers'.bearerToken.isSome) :
    Alike likeness Eq (deployment.authenticated headers action request : Api u Caller)
      (deployment.authenticated headers' action request') := by
  unfold Deployment.authenticated
  refine (alike_authenticate h).bind fun answer answer' hanswer => ?_
  cases answer with
  | ok caller =>
      cases answer' with
      | ok caller' => exact alike_pure hanswer
      | error rejection' => exact hanswer.elim
  | error rejection =>
      cases answer' with
      | ok caller' => exact hanswer.elim
      | error rejection' =>
          refine (alike_recordRejection _ _).bind fun _ _ _ => ?_
          exact alike_ofExcept hanswer

/-- The tier of bait decides what an entry says, and not whether there is one. -/
theorem alike_authorizeAndRecordSubject {capability : Capability} {path : SecretPath u}
    {subject subject' : Option Principal} :
    Alike likeness Eq
      (deployment.authorizeAndRecordSubject caller action capability path subject request)
      (deployment.authorizeAndRecordSubject caller action capability path subject' request') := by
  unfold Deployment.authorizeAndRecordSubject
  dsimp only
  have hlook : Alike likeness (fun _ _ => True)
      (deployment.lookForBait (deployment.authorize caller capability path) capability path : Api u _)
      (deployment.lookForBait (deployment.authorize caller capability path) capability path) := by
    unfold Deployment.lookForBait
    split
    · refine alike_ask (.honeypotTier path) fun reply reply' hreplies => ?_
      have htold : Related (fun _ _ => True) reply reply' := hreplies
      exact htold.mapError _
    · exact alike_pure trivial
  refine hlook.bind fun bait bait' _ => ?_
  refine (alike_record _ _).bind fun _ _ _ => ?_
  have hend : Alike likeness Eq
      (if (deployment.authorize caller capability path).isAllowed = true then pure ()
        else ofExcept (.error .forbidden) : Api u Unit)
      (if (deployment.authorize caller capability path).isAllowed = true then pure ()
        else ofExcept (.error .forbidden)) := by
    split
    · exact alike_pure rfl
    · exact alike_ofExcept rfl
  cases bait with
  | none =>
      cases bait' with
      | none => exact hend
      | some tier' => exact .second trivial fun _ => hend
  | some tier =>
      cases bait' with
      | none => exact .first trivial fun _ => hend
      | some tier' => exact .first trivial fun _ => .second trivial fun _ => hend

theorem alike_parsePathRecorded {raw : String} :
    Alike likeness Eq (parsePathRecorded caller action request raw : Api u _)
      (parsePathRecorded caller action request' raw) := by
  unfold parsePathRecorded
  split
  · exact alike_pure rfl
  · exact (alike_record _ _).bind fun _ _ _ => alike_ofExcept rfl

theorem alike_auditedJson (h : headers.bearerToken.isSome = headers'.bearerToken.isSome)
    (body : Except String α) :
    Alike likeness Eq (auditedJson deployment headers action body : Api u α)
      (auditedJson deployment headers' action body) := by
  unfold auditedJson
  cases body with
  | ok body => exact alike_pure rfl
  | error text =>
      refine (alike_authenticate h).bind fun answer answer' hanswer => ?_
      cases answer with
      | ok caller =>
          cases answer' with
          | ok caller' => exact (alike_record _ _).bind fun _ _ _ => alike_ofExcept rfl
          | error rejection' => exact hanswer.elim
      | error rejection =>
          cases answer' with
          | ok caller' => exact hanswer.elim
          | error rejection' => exact alike_ofExcept rfl

theorem alike_refusedRequest (h : headers.bearerToken.isSome = headers'.bearerToken.isSome)
    {reason : String} :
    Alike likeness Eq (refusedRequest deployment headers reason : Api u α)
      (refusedRequest deployment headers' reason) := by
  unfold refusedRequest
  refine (alike_authenticate h).bind fun answer answer' hanswer => ?_
  cases answer with
  | ok caller =>
      cases answer' with
      | ok caller' => exact (alike_record _ _).bind fun _ _ _ => alike_ofExcept rfl
      | error rejection' => exact hanswer.elim
  | error rejection =>
      cases answer' with
      | ok caller' => exact hanswer.elim
      | error rejection' => exact alike_ofExcept rfl

theorem alike_completeOrRecord {path : SecretPath u} {reason : String} {work work' : Api u α}
    (h : Alike likeness Eq work work') :
    Alike likeness Eq (completeOrRecord caller action path request reason work)
      (completeOrRecord caller action path request' reason work') := by
  unfold completeOrRecord
  refine h.outcome.bind fun ended ended' hended => ?_
  rw [hended.eq]
  cases ended' with
  | ok value => exact alike_pure rfl
  | error error => exact (alike_record _ _).bind fun _ _ _ => alike_ofExcept rfl

/-! ### Handlers -/

theorem alike_readSecret (h : headers.bearerToken.isSome = headers'.bearerToken.isSome) (path : String)
    (query : VersionQuery) :
    Alike likeness Eq (readSecret deployment headers path query : Api u ApiResponse)
      (readSecret deployment headers' path query) := by
  unfold readSecret
  refine (alike_authenticated h).bind fun caller _ hcaller => ?_
  subst hcaller
  refine alike_parsePathRecorded.bind fun path _ hpath => ?_
  subst hpath
  refine alike_authorizeAndRecordSubject.bind fun _ _ _ => ?_
  refine (alike_ofExcept (related_refl _)).bind fun version _ hversion => ?_
  subst hversion
  unfold serveSecret
  refine (alike_plain (asks_ask (by trivial))).bind fun stored _ hstored => ?_
  subst hstored
  cases stored with
  | error error => exact (alike_record _ _).bind fun _ _ _ => alike_ofExcept rfl
  | ok stored =>
      dsimp only
      split
      · exact (alike_record _ _).bind fun _ _ _ => alike_ofExcept rfl
      · exact alike_pure rfl

theorem alike_storeSecret (path : SecretPath u) (rotation : Option Rotation) (value : String) :
    Alike likeness Eq (storeSecret deployment headers caller path rotation value)
      (storeSecret deployment headers' caller path rotation value) := by
  unfold storeSecret
  dsimp only
  refine (alike_plain (asks_ask (by trivial))).bind fun stored _ hstored => ?_
  subst hstored
  cases stored with
  | error error =>
      refine (alike_record _ _).bind fun _ _ _ => ?_
      split
      · exact (alike_record _ _).bind fun _ _ _ => alike_ofExcept rfl
      · exact alike_ofExcept rfl
  | ok version => exact alike_pure rfl

theorem alike_writeSecret (h : headers.bearerToken.isSome = headers'.bearerToken.isSome) (path : String)
    (body : Except String SecretBody) :
    Alike likeness Eq (writeSecret deployment headers path body : Api u ApiResponse)
      (writeSecret deployment headers' path body) := by
  unfold writeSecret
  refine (alike_auditedJson h body).bind fun body _ hbody => ?_
  subst hbody
  refine (alike_authenticated h).bind fun caller _ hcaller => ?_
  subst hcaller
  refine alike_parsePathRecorded.bind fun path _ hpath => ?_
  subst hpath
  refine (alike_ofExcept (related_refl _)).bind fun _ _ _ => ?_
  refine (alike_ofExcept (related_refl _)).bind fun rotation _ hrotation => ?_
  subst hrotation
  refine alike_authorizeAndRecordSubject.bind fun _ _ _ => ?_
  dsimp only
  split
  · exact alike_authorizeAndRecordSubject.bind fun _ _ _ => alike_storeSecret _ _ _
  · exact alike_storeSecret _ _ _

theorem asks_deletedVersion (path : SecretPath u) (query : VersionQuery) :
    (deletedVersion path query).Asks (fun _ _ => True) ApiCall.Plain := by
  unfold deletedVersion
  refine asks_ofExcept.bind fun wanted => ?_
  cases wanted with
  | some version => exact asks_pure
  | none =>
      refine (asks_ask (by trivial)).bind fun metadata => ?_
      split
      · exact asks_pure
      · exact asks_ofExcept

theorem alike_deleteSecret (h : headers.bearerToken.isSome = headers'.bearerToken.isSome) (path : String)
    (query : VersionQuery) :
    Alike likeness Eq (deleteSecret deployment headers path query : Api u ApiResponse)
      (deleteSecret deployment headers' path query) := by
  unfold deleteSecret
  refine (alike_authenticated h).bind fun caller _ hcaller => ?_
  subst hcaller
  refine alike_parsePathRecorded.bind fun path _ hpath => ?_
  subst hpath
  refine (alike_ofExcept (related_refl _)).bind fun _ _ _ => ?_
  refine alike_authorizeAndRecordSubject.bind fun _ _ _ => ?_
  refine (alike_completeOrRecord (alike_plain ?_)).bind fun _ _ _ => alike_pure rfl
  exact (asks_deletedVersion path query).bind fun _ => asks_ask (by trivial)

theorem alike_listVersions (h : headers.bearerToken.isSome = headers'.bearerToken.isSome) (path : String) :
    Alike likeness Eq (listVersions deployment headers path : Api u ApiResponse)
      (listVersions deployment headers' path) := by
  unfold listVersions
  refine (alike_authenticated h).bind fun caller _ hcaller => ?_
  subst hcaller
  refine alike_parsePathRecorded.bind fun path _ hpath => ?_
  subst hpath
  refine alike_authorizeAndRecordSubject.bind fun _ _ _ => ?_
  refine (alike_completeOrRecord (alike_plain (asks_ask (by trivial)))).bind fun history _ hhistory => ?_
  subst hhistory
  exact alike_pure rfl

theorem alike_listPaths (h : headers.bearerToken.isSome = headers'.bearerToken.isSome) (start : String)
    (rotation : Option String) :
    Alike likeness Eq (listPaths deployment headers start rotation : Api u ApiResponse)
      (listPaths deployment headers' start rotation) := by
  unfold listPaths
  refine (alike_authenticated h).bind fun caller _ hcaller => ?_
  subst hcaller
  refine alike_parsePathRecorded.bind fun start _ hstart => ?_
  subst hstart
  refine (alike_ofExcept (related_refl _)).bind fun wanted _ hwanted => ?_
  subst hwanted
  refine (alike_plain (asks_ask (by trivial))).bind fun listed _ hlisted => ?_
  subst hlisted
  exact (alike_record _ _).bind fun _ _ _ => alike_pure rfl

theorem asks_exportSecret (path : SecretPath u) (bytes : Nat) :
    (exportSecret deployment path bytes).Asks (fun _ _ => True) ApiCall.Plain := by
  unfold exportSecret
  refine (asks_ask (by trivial)).bind fun stored => ?_
  refine asks_ofExcept.bind fun value => ?_
  dsimp only
  split
  · exact asks_ofExcept
  · exact asks_pure

theorem alike_exportSecrets (paths recorded : List (SecretPath u)) (bytes : Nat)
    (secrets : List ExportedSecret) :
    Alike likeness Eq (exportSecrets deployment caller request paths recorded bytes secrets)
      (exportSecrets deployment caller request' paths recorded bytes secrets) := by
  induction paths generalizing recorded bytes secrets with
  | nil => exact alike_pure rfl
  | cons path paths ih =>
      unfold exportSecrets
      refine alike_authorizeAndRecordSubject.outcome.bind fun decided decided' hdecided => ?_
      rw [hdecided.eq]
      cases decided' with
      | error error => exact alike_pure rfl
      | ok =>
          refine (alike_plain (asks_exportSecret path bytes)).outcome.bind fun asked asked' hasked => ?_
          rw [hasked.eq]
          cases asked' with
          | error error => exact alike_pure rfl
          | ok exported => exact ih _ _ _

theorem alike_correctExport (status : Nat) (paths : List (SecretPath u)) :
    Alike likeness Eq (correctExport caller request status paths)
      (correctExport caller request' status paths) := by
  induction paths with
  | nil => exact alike_pure rfl
  | cons path paths ih => exact (alike_record _ _).bind fun _ _ _ => ih

theorem alike_exportPaths (h : headers.bearerToken.isSome = headers'.bearerToken.isSome)
    (body : Except String (List String)) :
    Alike likeness Eq (exportPaths deployment headers body : Api u ApiResponse)
      (exportPaths deployment headers' body) := by
  unfold exportPaths
  refine (alike_auditedJson h body).bind fun raw _ hraw => ?_
  subst hraw
  refine (alike_authenticated h).bind fun caller _ hcaller => ?_
  subst hcaller
  cases validateExportPaths u raw with
  | error refused => exact (alike_record _ _).bind fun _ _ _ => alike_ofExcept rfl
  | ok paths =>
      dsimp only [serveExport]
      refine (alike_exportSecrets paths [] 0 []).bind fun ended _ hended => ?_
      subst hended
      split
      · exact alike_pure rfl
      · exact (alike_correctExport _ _).bind fun _ _ _ => alike_ofExcept rfl

theorem alike_extracting {β : Type} (extracted : Extracted β) {handler handler' : β → Served u}
    (h : ∀ b, Alike likeness Eq (handler b) (handler' b)) :
    Alike likeness Eq (extracting extracted handler) (extracting extracted handler') := by
  cases extracted with
  | ok b => exact h b
  | error text => exact alike_ofExcept rfl

variable [ReservedPaths u]

theorem alike_inspecting (h : headers.bearerToken.isSome = headers'.bearerToken.isSome)
    {name : ReservedName} {serve serve' : Caller → SecretPath u → Api u ApiResponse}
    (hserve : ∀ caller path, Alike likeness Eq (serve caller path) (serve' caller path)) :
    Alike likeness Eq (inspecting deployment headers name serve)
      (inspecting deployment headers' name serve') := by
  unfold inspecting
  refine (alike_authenticated h).bind fun caller _ hcaller => ?_
  subst hcaller
  exact alike_authorizeAndRecordSubject.bind fun _ _ _ => hserve _ _

theorem alike_revokeToken (h : headers.bearerToken.isSome = headers'.bearerToken.isSome) (tokenId : String) :
    Alike likeness Eq (revokeToken deployment headers tokenId : Api u ApiResponse)
      (revokeToken deployment headers' tokenId) := by
  unfold revokeToken
  refine (alike_authenticated h).bind fun caller _ hcaller => ?_
  subst hcaller
  refine (alike_plain (asks_ask (by trivial))).bind fun record _ hrecord => ?_
  subst hrecord
  refine alike_authorizeAndRecordSubject.bind fun _ _ _ => ?_
  cases record with
  | none => exact alike_ofExcept rfl
  | some found =>
      refine (alike_completeOrRecord (alike_plain (asks_ask (by trivial)))).bind fun revoked _ hrevoked => ?_
      subst hrevoked
      exact alike_pure rfl

theorem alike_oidcLogin (h : headers.bearerToken.isSome = headers'.bearerToken.isSome)
    (body : Except String OidcLoginRequest) :
    Alike likeness Eq (oidcLogin deployment headers body : Api u ApiResponse)
      (oidcLogin deployment headers' body) := by
  unfold oidcLogin
  refine (alike_auditedJson h body).bind fun body _ hbody => ?_
  subst hbody
  refine (alike_plain (asks_ask (by trivial))).bind fun now _ hnow => ?_
  subst hnow
  refine (alike_ofExcept (related_refl _)).bind fun asked _ hasked => ?_
  subst hasked
  split
  · exact alike_ofExcept rfl
  · exact (alike_record _ _).bind fun _ _ _ => alike_ofExcept rfl
  · unfold mintToken
    refine (alike_plain (asks_ask (by trivial))).bind fun token _ htoken => ?_
    subst htoken
    refine (alike_record _ _).bind fun _ _ _ => ?_
    refine (alike_plain (asks_ask (by trivial))).bind fun stored _ hstored => ?_
    subst hstored
    cases stored with
    | error error => exact (alike_record _ _).bind fun _ _ _ => alike_ofExcept rfl
    | ok => exact alike_pure rfl

/-! ### Requests -/

/-- The routes that show what is bait, or what was recorded of it. -/
def ApiRequest.Shows : ApiRequest → Prop
  | .health | .readHoneypots | .readAudit _ | .readTokens _ => True
  | _ => False

theorem alike_serve (h : headers.bearerToken.isSome = headers'.bearerToken.isSome) {request : ApiRequest}
    (hrequest : ¬ request.Shows) :
    Alike likeness Eq (serve deployment headers request : Served u) (serve deployment headers' request) := by
  unfold serve
  split
  · unfold handle
    cases request with
    | readSecret path query =>
        exact alike_extracting _ fun path => alike_extracting _ fun query =>
          (alike_readSecret h path query).mapError _
    | writeSecret path body =>
        exact alike_extracting _ fun path => (alike_writeSecret h path body).mapError _
    | deleteSecret path query =>
        exact alike_extracting _ fun path => alike_extracting _ fun query =>
          (alike_deleteSecret h path query).mapError _
    | listVersions path => exact alike_extracting _ fun path => (alike_listVersions h path).mapError _
    | listPaths start rotation =>
        exact alike_extracting _ fun start => alike_extracting _ fun rotation =>
          (alike_listPaths h start rotation).mapError _
    | exportPaths body => exact (alike_exportPaths h body).mapError _
    | readSurface => exact (alike_inspecting h fun _ _ => alike_pure rfl).mapError _
    | readIdentities => exact (alike_inspecting h fun _ _ => alike_pure rfl).mapError _
    | readPolicies => exact (alike_inspecting h fun _ _ => alike_pure rfl).mapError _
    | revokeToken tokenId =>
        exact alike_extracting _ fun tokenId => (alike_revokeToken h tokenId).mapError _
    | oidcLogin body => exact (alike_oidcLogin h body).mapError _
    | unmatched reason => exact (alike_refusedRequest h).mapError _
    | health | readHoneypots | readAudit | readTokens => exact absurd trivial hrequest
  · exact (alike_refusedRequest h).mapError _

end Scripts

/-! ### Two processes -/

namespace TokenTable

variable {hmac : Hmac} {pepper : TokenPepper} {table : TokenTable}

/-- What no row admits is turned away: bait is, and so is what is unknown, wrong, expired or revoked. -/
theorem authenticate_turnsAway (hwf : WellFormed hmac pepper table) {presented : String} {now : Int}
    {fault : TokenFault} (htoken : fault.token = none) (hverifier : fault.verifier = none)
    (hnot : ∀ row ∈ table, ¬ Admits hmac pepper presented now row) :
    (table.authenticate hmac presented pepper now fault).1 = table ∧
      TurnsAway ((table.authenticate hmac presented pepper now fault).2.getD (.ok .invalid)) := by
  have hno := (authenticate_cases hwf presented now fault).resolve_left
    fun ⟨row, hmem, hadmits, _⟩ => hnot row hmem hadmits
  refine ⟨hno.2.1, ?_⟩
  cases hparse : Token.parse presented with
  | none =>
      unfold authenticate
      rw [hparse]
      exact .inl rfl
  | some parsed =>
      cases parsed with
      | error error =>
          unfold authenticate
          rw [hparse]
          exact .inl rfl
      | ok token =>
          cases hfind : table.find? (·.tokenId == token.id.asText) with
          | none =>
              unfold authenticate TokenTable.token
              rw [hparse]
              dsimp only
              rw [htoken, hfind]
              exact .inl rfl
          | some row =>
              obtain ⟨verifier, hhex⟩ := hwf.readable row (List.mem_of_find?_eq_some hfind)
              have hread : TokenVerifier.fromHex row.verifier = .ok verifier := by
                rw [hhex, TokenVerifier.fromHex_toHex]
              have hvalid := hno.2.2
              rw [authenticate_of_row hparse htoken hverifier hfind hread] at hvalid ⊢
              split
              · exact .inl rfl
              · split
                · exact .inr ⟨_, _, rfl⟩
                · split
                  · exact .inl rfl
                  · simp_all

end TokenTable

section Processes

variable {δ ω φ : Type} [AuditDevice δ ω φ] {deployment : Deployment} {codec : Codec} {json : JsonExtract}
  {database : ω → Database} {fixed : Nat → Nat → Except String Unit}

/-- Two processes that differ in bait at most, and in what they recorded of it. -/
structure AlikeButBait (deployment : Deployment) (s s' : Server δ ω) : Prop where
  secrets : s.secrets.AlikeButMarks s'.secrets
  tokens : s.tokens = s'.tokens
  wellFormed : TokenTable.WellFormed deployment.hmac deployment.pepper s.tokens
  app : s.app.Level s'.app

/-- What is outside is the same of both, but for what the devices meet: they answer what is fixed. Who
presents something else to one of the two presents no credential to either. -/
structure Agreed (deployment : Deployment) (codec : Codec) (fixed : Nat → Nat → Except String Unit)
    (s : Server δ ω) (outside : ApiOutside φ) (c : ApiCall u) (s' : Server δ ω) (outside' : ApiOutside φ)
    (c' : ApiCall u) : Prop where
  beyond : ∃ moments, outside' = { outside with moments := moments }
  recorded : ∀ entry, c = .record entry → s.app.MeetsAll codec fixed outside.moments entry
  recorded' : ∀ entry, c' = .record entry → s'.app.MeetsAll codec fixed outside'.moments entry
  presented : ∀ presented presented', c = .authenticate presented → c' = .authenticate presented' →
    presented = presented' ∨ outside.token.token = none ∧ outside.token.verifier = none ∧
      ∀ row ∈ s.tokens,
        ¬ TokenTable.Admits deployment.hmac deployment.pepper presented outside.now row ∧
        ¬ TokenTable.Admits deployment.hmac deployment.pepper presented' outside.now row

/-- A latch changes nothing that is looked at. -/
theorem AlikeButBait.latch {s s' : Server δ ω} (h : AlikeButBait deployment s s') {c : ApiCall u}
    (hc : c.IsLatch) (outside : ApiOutside φ) :
    AlikeButBait deployment (Server.answer deployment codec json database s outside c).1 s' ∧
      AlikeButBait deployment s (Server.answer deployment codec json database s' outside c).1 := by
  cases c with
  | latchOffTheRequestPath kind reference identity tier =>
      unfold Server.answer
      dsimp only
      constructor
      · split
        · exact h
        · exact ⟨h.secrets, h.tokens, h.wellFormed, h.app⟩
      · split
        · exact h
        · exact ⟨h.secrets, h.tokens, h.wellFormed, h.app⟩
  | _ => exact hc.elim

/-- A call on the secrets alone. -/
theorem AlikeButBait.write {α : Type} {s s' : Server δ ω} (h : AlikeButBait deployment s s')
    {p : SecretTables.Statement α} (hp : Program.Alike SecretTables.AlikeButMarks Eq p p) :
    (p.exec s.secrets).1 = (p.exec s'.secrets).1 ∧
      AlikeButBait deployment { s with secrets := (p.exec s.secrets).2 }
        { s' with secrets := (p.exec s'.secrets).2 } := by
  obtain ⟨hresult, hsecrets⟩ := hp _ _ h.secrets
  exact ⟨hresult.eq, hsecrets, h.tokens, h.wellFormed, h.app⟩

/-- The same of the tokens, which are the same of both. -/
theorem AlikeButBait.setTokens {s s' : Server δ ω} (h : AlikeButBait deployment s s') {table : TokenTable}
    (hchange : TokenTable.Change deployment.hmac deployment.pepper s.tokens table) :
    AlikeButBait deployment { s with tokens := table } { s' with tokens := table } :=
  ⟨h.secrets, rfl, hchange.wellFormed h.wellFormed, h.app⟩

/-- Corresponding calls are told what corresponds. -/
theorem AlikeButBait.answer {s s' : Server δ ω} (h : AlikeButBait deployment s s') (hencodes : codec.Encodes)
    {outside outside' : ApiOutside φ} {c c' : ApiCall u} (hcalls : SameCall c c')
    (hagreed : Agreed deployment codec fixed s outside c s' outside' c') :
    SameReply c c' (Server.answer deployment codec json database s outside c).2
        (Server.answer deployment codec json database s' outside' c').2 ∧
      AlikeButBait deployment (Server.answer deployment codec json database s outside c).1
        (Server.answer deployment codec json database s' outside' c').1 := by
  obtain ⟨⟨moments, rfl⟩, hrecorded, hrecorded', hpresented⟩ := hagreed
  have hrecord : ∀ entry entry', s.app.MeetsAll codec fixed outside.moments entry →
      s'.app.MeetsAll codec fixed moments entry' →
      SameReply (.record entry : ApiCall u) (.record entry')
          (Server.answer deployment codec json database s outside (.record entry : ApiCall u)).2
          (Server.answer deployment codec json database s' { outside with moments := moments }
            (.record entry' : ApiCall u)).2 ∧
        AlikeButBait deployment
          (Server.answer deployment codec json database s outside (.record entry : ApiCall u)).1
          (Server.answer deployment codec json database s' { outside with moments := moments }
            (.record entry' : ApiCall u)).1 := by
    intro entry entry' hmeets hmeets'
    obtain ⟨hresult, hlevel⟩ := h.app.record hencodes hmeets hmeets'
    exact ⟨hresult, h.secrets, h.tokens, h.wellFormed, hlevel⟩
  cases hcalls with
  | record entry entry' => exact hrecord _ _ (hrecorded _ rfl) (hrecorded' _ rfl)
  | honeypotTier path => exact ⟨h.secrets.honeypotTier path, h⟩
  | authenticate presented presented' =>
      rcases hpresented _ _ rfl rfl with rfl | ⟨htoken, hverifier, hnot⟩
      · unfold Server.answer
        dsimp only
        rw [← h.tokens]
        exact ⟨.inl rfl, h.setTokens (TokenTable.authenticate_change h.wellFormed _ _ _)⟩
      · obtain ⟨hsame, haway⟩ := TokenTable.authenticate_turnsAway h.wellFormed htoken hverifier
          fun row hmem => (hnot row hmem).1
        obtain ⟨hsame', haway'⟩ := TokenTable.authenticate_turnsAway h.wellFormed htoken hverifier
          fun row hmem => (hnot row hmem).2
        unfold Server.answer
        dsimp only
        rw [← h.tokens, hsame, hsame']
        exact ⟨.inr ⟨haway, haway'⟩, h.secrets, rfl, h.wellFormed, h.app⟩
  | plain hplain =>
      cases c with
      | nowMillis | generateToken => exact ⟨HEq.rfl, h⟩
      | record entry => exact hrecord _ _ (hrecorded _ rfl) (hrecorded' _ rfl)
      | get path version =>
          have hsame := h.secrets.eq (SecretTables.get outside.secret · path version)
            fun t => t.get_unmarked path version
          exact ⟨heq_of_eq hsame, h⟩
      | putWithRotation path createdBy rotation encrypt =>
          obtain ⟨hresult, hafter⟩ := h.write (SecretTables.alike_putWithRotation path createdBy rotation
            (encrypt outside.draws) outside.now)
          exact ⟨heq_of_eq hresult, hafter⟩
      | metadata path =>
          have hsame := h.secrets.eq (SecretTables.metadata outside.secret · path)
            fun t => t.metadata_unmarked path
          exact ⟨heq_of_eq hsame, h⟩
      | delete path version =>
          obtain ⟨hresult, hafter⟩ := h.write (SecretTables.alike_delete path version outside.now)
          exact ⟨heq_of_eq hresult, hafter⟩
      | history path =>
          have hmetadata := h.secrets.eq (SecretTables.metadata outside.secret · path)
            fun t => t.metadata_unmarked path
          have hversions := h.secrets.eq (SecretTables.versionSummaries outside.secret · path)
            fun t => t.versionSummaries_unmarked path
          unfold Server.answer
          dsimp only
          rw [hmetadata, hversions]
          exact ⟨HEq.rfl, h⟩
      | listWithRotation start =>
          have hsame := h.secrets.eq (SecretTables.listWithRotation outside.secret · start)
            fun t => t.listWithRotation_unmarked start
          exact ⟨heq_of_eq hsame, h⟩
      | token tokenId =>
          unfold Server.answer
          dsimp only
          rw [← h.tokens]
          exact ⟨HEq.rfl, h⟩
      | revokeToken tokenId =>
          unfold Server.answer
          dsimp only
          rw [← h.tokens]
          exact ⟨HEq.rfl, h.setTokens (TokenTable.revokeToken_change _ _ _)⟩
      | issueToken identity token createdBy expiresAt =>
          unfold Server.answer
          dsimp only
          rw [← h.tokens]
          exact ⟨HEq.rfl, h.setTokens (TokenTable.issueToken_change ..)⟩
      | _ => exact hplain.elim

/-! ### Runs -/

/-- A task that was spawned writes its trip, and ends: the writes of these runs do not fail. -/
def Server.finishLatch (s : Server δ ω) (ends : Nat × Int) : Option (Server δ ω) :=
  match s.spawned[ends.1]? with
  | none => none
  | some latch =>
      match Program.exec (TripTable.latchTrip TripTable.noFault latch.kind latch.reference latch.identity
        latch.tier ends.2) s.trips with
      | (.ok _, trips) => some { s with trips := trips, spawned := s.spawned.eraseIdx ends.1 }
      | (.error _, _) => none

theorem Server.finishLatch_eq_some {s t : Server δ ω} {ends : Nat × Int} (h : s.finishLatch ends = some t) :
    ∃ trips spawned, t = { s with trips := trips, spawned := spawned } := by
  unfold Server.finishLatch at h
  split at h
  · cases h
  · split at h
    · cases h
      exact ⟨_, _, rfl⟩
    · cases h

/-- A request and its headers. -/
abbrev Visit := ApiRequest × Headers

/-- Both are asked the same, with something presented or with nothing. -/
def SameVisit (visit visit' : Visit) : Prop :=
  visit.1 = visit'.1 ∧ ¬ visit.1.Shows ∧ visit.2.bearerToken.isSome = visit'.2.bearerToken.isSome

variable [ReservedPaths u]

/-- Two processes, and the requests that each of them serves. -/
abbrev TwoServers (δ ω : Type) (u : Unicode) :=
  Beside (Server δ ω) (ApiCall u) ApiCall.Reply HttpError ApiResponse

/-- The runs of two processes that differ in bait at most, whose requests are the same and make their
calls in the same order, apart from the latches of either. -/
def BesideBait (deployment : Deployment) (codec : Codec) (json : JsonExtract) (database : ω → Database)
    (fixed : Nat → Nat → Except String Unit) : TwoServers δ ω u → Prop :=
  Transition.Reachable
    (fun s => AlikeButBait deployment s.shared s.shared' ∧ s.scripts = [] ∧ s.scripts' = [])
    (Beside.step (Server.answer deployment codec json database)
      (fun visit : Visit => serve deployment visit.2 visit.1) Server.finishLatch)
    (Beside.Apart likeness SameVisit (Agreed deployment codec fixed))

/-- Bait cannot be told from what is none: every request is answered the same by both, and both have
recorded as much. -/
theorem bait_unseen (hencodes : codec.Encodes) {s : TwoServers δ ω u}
    (h : BesideBait deployment codec json database fixed s) :
    s.shared.app.trail.length = s.shared'.app.trail.length ∧
      s.shared.app.refused.length = s.shared'.app.refused.length ∧
      (∀ (i : Nat) (result : Except HttpError ApiResponse), s.scripts[i]? = some (Script.done result) →
        ∃ script : Served u, s.scripts'[i]? = some script ∧ script.Ends ApiCall.IsLatch result) ∧
      ∀ (i : Nat) (result : Except HttpError ApiResponse), s.scripts'[i]? = some (Script.done result) →
        ∃ script : Served u, s.scripts[i]? = some script ∧ script.Ends ApiCall.IsLatch result := by
  have hmatched : s.Matched likeness (AlikeButBait deployment) := by
    refine Beside.matched (fun _ hs => hs) ?_ ?_ ?_ ?_ ?_ ?_ h
    · rintro ⟨request, headers⟩ ⟨request', headers'⟩ ⟨hsame, hshows, hbearer⟩
      cases hsame
      exact alike_serve hbearer hshows
    · intro s s' outside outside' c c' hs hcalls hagreed
      exact hs.answer hencodes hcalls hagreed
    · intro s s' outside c hs hc
      exact (hs.latch hc outside).1
    · intro s s' outside c hs hc
      exact (hs.latch hc outside).2
    · intro s s' ends t hs ht
      obtain ⟨trips, spawned, rfl⟩ := Server.finishLatch_eq_some ht
      exact ⟨hs.secrets, hs.tokens, hs.wellFormed, hs.app⟩
    · intro s s' ends t hs ht
      obtain ⟨trips, spawned, rfl⟩ := Server.finishLatch_eq_some ht
      exact ⟨hs.secrets, hs.tokens, hs.wellFormed, hs.app⟩
  refine ⟨hmatched.shared.app.trail, hmatched.shared.app.refused, fun i result hdone => ?_,
    fun i result hdone => ?_⟩
  · obtain ⟨script, hscript, halike⟩ := Beside.forall₂_getElem? hmatched.scripts hdone
    exact ⟨script, hscript, halike.ends⟩
  · obtain ⟨script, hscript, halike⟩ := Beside.forall₂_getElem? hmatched.scripts.flip hdone
    exact ⟨script, hscript, halike.ends'⟩

end Processes

namespace Sample

/-- The build in which bait is planted. -/
def baiting : Deployment := { readable with honeypotAlert := true }

/-- A record of the request of one visit. -/
def visitPayload (seq : Nat) (prev principal subject action path decision detail status : String) : String :=
  "\x7b\"seq\":" ++ toString seq ++ ",\"ts\":\"2026-01-01T00:00:00.000Z\",\"prev_hash\":\"" ++ prev ++
    "\",\"entry\":\x7b\"principal\":" ++ principal ++ ",\"subject\":" ++ subject ++ ",\"action\":\"" ++ action ++
    "\",\"path\":" ++ path ++ ",\"version\":null," ++ decision ++ ",\"results\":null,\"detail\":" ++ detail ++
    ",\"request\":\x7b\"request_id\":null,\"client_ip\":null,\"user_agent\":null" ++
    ",\"http_status\":" ++ status ++ ",\"channel\":null\x7d\x7d\x7d"

def baitTaken : Entry :=
  decisionEntry (baiting.callerOf ci) .read dbPath none headers.requestContext
    (baiting.authorize (baiting.callerOf ci) .read dbPath) (some .alert)

def baitPresented : Entry := baitEntry .read headers.requestContext ⟨"AgICAgIC", "ops"⟩

def unknownPresented : Entry := unauthenticatedEntry .read headers.requestContext

/-- The two records of either process; nothing else is asked for. -/
def visitCodec : Codec :=
  let asked := codecFor [
    (1, readClaim dbPath, readPayload 1
      ("00000000000000000000000000000000" ++ "00000000000000000000000000000000") "infra/DB" granted,
      firstReadHash),
    (1, baitTaken, visitPayload 1
      ("00000000000000000000000000000000" ++ "00000000000000000000000000000000")
      "\x7b\"name\":\"ci\",\"kind\":\"machine\",\"token_id\":\"AQEBAQEB\"\x7d" "null" "honeypot-triggered"
      "\"infra/DB\"" granted.1 "\"attempted: read\"" "200",
      #v[0xb3, 0x9b, 0x85, 0xe7, 0xba, 0x61, 0x42, 0xde, 0xf0, 0xfa, 0xf0, 0x2d, 0xc6, 0x72, 0xfe, 0xaa,
        0xe5, 0xfb, 0x96, 0xe1, 0x74, 0x5d, 0xe1, 0x05, 0xc3, 0x81, 0xbc, 0x23, 0xfe, 0x42, 0x49, 0x92]),
    (2, baitPresented, visitPayload 2
      ("b39b85e7ba6142def0faf02dc672feaa" ++ "e5fb96e1745de105c381bc23fe424992") "null"
      "\x7b\"name\":\"ops\",\"kind\":null,\"token_id\":\"AgICAgIC\"\x7d" "honeypot-triggered" "null"
      "\"allowed\":false,\"deny_reason\":\"unauthenticated\",\"rule\":null" "\"attempted: read\"" "401",
      #v[0xa6, 0x01, 0xfb, 0x28, 0x0d, 0xd8, 0xd5, 0xb3, 0x24, 0xd3, 0xfc, 0x8a, 0xb4, 0x81, 0x07, 0x63,
        0x06, 0xa5, 0x2e, 0xb6, 0x8b, 0x6e, 0x46, 0x8e, 0xa7, 0x62, 0xab, 0xd8, 0x4d, 0xab, 0xcf, 0xb6]),
    (2, unknownPresented, visitPayload 2
      ("5b363591fb8b910c5d014cf193238fab" ++ "41413120c136fc8cb24d4ee53551689b") "null" "null" "read" "null"
      "\"allowed\":false,\"deny_reason\":\"unauthenticated\",\"rule\":null" "null" "401",
      #v[0x8e, 0xdc, 0x99, 0xaa, 0xde, 0x05, 0xa2, 0x7d, 0x1b, 0x3b, 0xd1, 0x8e, 0x07, 0xce, 0x36, 0x2f,
        0x54, 0x57, 0xa7, 0x37, 0xbb, 0x60, 0x91, 0x28, 0xce, 0x5d, 0xf8, 0xdf, 0x90, 0xc4, 0x6f, 0xe0])]
  { asked with recordToString := fun record => .ok ((asked.recordToString record).toOption.getD "") }

/-- A store without bait among its secrets; one of its two tokens is bait. -/
def unbaited : Server Device AuditWorld :=
  { stocked with
    tokens := stocked.tokens ++ [⟨"AgICAgIC", "ops",
      "58f32442101d7c6a37ad7db3e8fe7cdc" ++ "1a5761cda5b78102cc33c20ffe4734e6", 0, "cli:root", none, none, none,
      1⟩] }

/-- The same store, one of whose secrets is bait. -/
def baited : Server Device AuditWorld :=
  { unbaited with
    secrets := unbaited.secrets.setSecrets (·.path == "infra/DB") (SecretTables.marked (some .alert)) }

def presenting (token : String) : Headers := { headers with authorization := some (utf8 ("Bearer " ++ token)) }

def baitText : String := "cph_AgICAgICCQkJCQkJCQkJCQkJCQkJCQkJCQkJCQkJCQkJCQkJCQk"

def unknownText : String := "cph_AwMDAwMDCQkJCQkJCQkJCQkJCQkJCQkJCQkJCQkJCQkJCQkJCQk"

/-- `GET /v1/secrets/infra/DB`. -/
def visitDb : ApiRequest := .readSecret (.ok "infra/DB") (.ok ⟨none⟩)

/-- The one reads what is bait with a credential, and then presents bait; the other reads what is none, and
presents what is unknown. -/
def visited : TwoServers Device AuditWorld asciiUnicode :=
  ⟨baited, [serve baiting headers visitDb, serve baiting (presenting baitText) visitDb],
    unbaited, [serve baiting headers visitDb, serve baiting (presenting unknownText) visitDb]⟩

/-- What happens while nothing fails: a call of both, a latch of the first, and the end of its task. -/
inductive Going where
  | both (i : Nat)
  | latch (i : Nat)
  | task

def Going.together : Going → Together (ApiOutside DeviceFault) Visit (Nat × Int)
  | .both i => .both i calm calm
  | .latch i => .first i calm
  | .task => .work (0, 1767225600000)

def goStep (s : TwoServers Device AuditWorld asciiUnicode) (going : Going) :
    Option (TwoServers Device AuditWorld asciiUnicode) :=
  Beside.step (Server.answer baiting visitCodec (fun _ => none) AuditWorld.db)
    (fun visit : Visit => serve baiting visit.2 visit.1) Server.finishLatch s going.together

/-- Every device accepts what the call records. -/
def accepts (s : Server Device AuditWorld) : ApiCall asciiUnicode → Bool
  | .record entry =>
      s.app.audit.outcomes visitCodec s.app.world (fun _ => {}) entry 1767225600000 == [some (.ok ())] &&
        ((s.app.writeSink visitCodec calm.moments entry).1.toOption.all (·.failures.isEmpty))
  | .latchOffTheRequestPath _ _ _ _ => false
  | _ => true

/-- No row admits the text: those of its number are bait. -/
def admitsNone (s : Server Device AuditWorld) (presented : String) : Bool :=
  s.tokens.all fun row => row.honeypot != 0 ||
    !(Token.parse presented).any fun parsed => parsed.toOption.any fun token => row.tokenId == token.id.asText

def presentAlike (s : Server Device AuditWorld) : ApiCall asciiUnicode → ApiCall asciiUnicode → Bool
  | .authenticate presented, .authenticate presented' =>
      presented == presented' || admitsNone s presented && admitsNone s presented'
  | _, _ => true

def Going.ok (s : TwoServers Device AuditWorld asciiUnicode) : Going → Bool
  | .both i =>
      match nextCall s.scripts i, nextCall s.scripts' i with
      | some c, some c' => accepts s.shared c && accepts s.shared' c' && presentAlike s.shared c c'
      | _, _ => false
  | .latch i =>
      match nextCall s.scripts i with
      | some (.latchOffTheRequestPath _ _ _ _) => true
      | _ => false
  | .task => true

def goings : List Going :=
  [.both 0, .both 1, .both 0, .both 0, .both 1, .latch 1, .latch 0, .task, .both 0]

def goneOn : TwoServers Device AuditWorld asciiUnicode :=
  (Transition.run goStep visited goings).getD visited

theorem not_admits_of_admitsNone {s : Server Device AuditWorld} {presented : String}
    (h : admitsNone s presented = true) {row : TokenRow} (hmem : row ∈ s.tokens) (now : Int) :
    ¬ TokenTable.Admits baiting.hmac baiting.pepper presented now row := by
  intro hadmits
  obtain ⟨token, hparse, hid, -⟩ := hadmits.names
  have hrow := List.all_eq_true.mp h row hmem
  rw [hparse, hadmits.credential, hid] at hrow
  simp [Except.toOption] at hrow

theorem meetsAll_of_accepts {s : Server Device AuditWorld} {entry : Entry}
    (h : accepts s (.record entry) = true) :
    s.app.MeetsAll visitCodec (fun _ _ => .ok ()) calm.moments entry := by
  obtain ⟨houtcomes, hfailures⟩ := Bool.and_eq_true_iff.mp h
  constructor
  · intro i result hresult
    change (s.app.audit.outcomes visitCodec s.app.world (fun _ => {}) entry 1767225600000)[i]? = _ at hresult
    rw [beq_iff_eq.mp houtcomes] at hresult
    cases i with
    | zero =>
        rw [List.getElem?_cons_zero, Option.some.injEq, Option.some.injEq] at hresult
        exact hresult.symm
    | succ i => simp at hresult
  · intro written hwritten
    rw [hwritten] at hfailures
    have hnone : written.failures = [] := List.isEmpty_iff.mp hfailures
    rw [hnone]
    trivial

theorem Going.apart {s : TwoServers Device AuditWorld asciiUnicode} {going : Going} (h : going.ok s = true) :
    Beside.Apart likeness SameVisit (Agreed baiting visitCodec fun _ _ => .ok ()) s going.together := by
  cases going with
  | task => trivial
  | latch i =>
      intro c hc
      unfold Going.ok at h
      dsimp only at h
      rw [hc] at h
      cases c with
      | latchOffTheRequestPath => exact trivial
      | _ => cases h
  | both i =>
      intro c c' hc hc'
      unfold Going.ok at h
      dsimp only at h
      rw [hc, hc'] at h
      simp only [Bool.and_eq_true] at h
      obtain ⟨⟨hfirst, hsecond⟩, hpresent⟩ := h
      have hloud : ∀ (s : Server Device AuditWorld) (c : ApiCall asciiUnicode), accepts s c = true →
          ¬ c.IsLatch := by
        intro s c haccepts hlatch
        cases c with
        | latchOffTheRequestPath => cases haccepts
        | _ => exact hlatch
      refine ⟨hloud _ _ hfirst, hloud _ _ hsecond, ⟨_, rfl⟩, ?_, ?_, ?_⟩
      · rintro entry rfl
        exact meetsAll_of_accepts hfirst
      · rintro entry rfl
        exact meetsAll_of_accepts hsecond
      · rintro presented presented' rfl rfl
        rcases Bool.or_eq_true_iff.mp hpresent with hsame | hnone
        · exact .inl (beq_iff_eq.mp hsame)
        · obtain ⟨hpresented, hpresented'⟩ := Bool.and_eq_true_iff.mp hnone
          exact .inr ⟨rfl, rfl, fun row hmem => ⟨not_admits_of_admitsNone hpresented hmem _,
            not_admits_of_admitsNone hpresented' hmem _⟩⟩

theorem baited_alike : AlikeButBait baiting baited unbaited where
  secrets := {
    unmarked := by decide +kernel
    marked := by
      have hall : baited.secrets.secrets.all
          (fun row => row.honeypotTier == some "alert" || row.honeypotTier == none) = true := by
        decide +kernel
      intro row hrow
      rcases Bool.or_eq_true_iff.mp (List.all_eq_true.mp hall row hrow) with htier | htier
      · exact ⟨some .alert, beq_iff_eq.mp htier⟩
      · exact ⟨none, beq_iff_eq.mp htier⟩
    marked' := by
      have hall : unbaited.secrets.secrets.all (·.honeypotTier == none) = true := by decide +kernel
      intro row hrow
      exact ⟨none, beq_iff_eq.mp (List.all_eq_true.mp hall row hrow)⟩ }
  tokens := rfl
  wellFormed := by
    refine ⟨by decide +kernel, ?_⟩
    have hall : baited.tokens.all (fun row => (TokenVerifier.fromHex row.verifier).toOption.any
        fun verifier => row.verifier == verifier.toHex) = true := by decide +kernel
    intro row hrow
    have hread := List.all_eq_true.mp hall row hrow
    cases hhex : TokenVerifier.fromHex row.verifier with
    | error error =>
        rw [hhex] at hread
        cases hread
    | ok verifier =>
        rw [hhex] at hread
        exact ⟨verifier, beq_iff_eq.mp hread⟩
  app := ⟨⟨List.forall₂_same.mpr fun slot _ => ⟨rfl, rfl⟩, rfl⟩, rfl, rfl, rfl⟩

theorem goneOn_facts :
    (goneOn.scripts.map fun script => match script with
      | .done result => result.toOption
      | .call _ _ => none) = [some (.secret ⟨"infra/DB", 1, "hunter2", 0, "ci"⟩), none] ∧
      goneOn.shared.app.trail = [baitTaken, baitPresented] ∧
      goneOn.shared'.app.trail = [readClaim dbPath, unknownPresented] ∧
      goneOn.shared.trips.map (·.kind) = ["token"] := by
  decide +kernel

theorem goneOn_beside :
    BesideBait baiting visitCodec (fun _ => none) AuditWorld.db (fun _ _ => .ok ()) goneOn := by
  have hstart : BesideBait baiting visitCodec (fun _ => none) AuditWorld.db (fun _ _ => .ok ())
      (⟨baited, [], unbaited, []⟩ : TwoServers Device AuditWorld asciiUnicode) :=
    .start ⟨baited_alike, rfl, rfl⟩
  have hsame : SameVisit (visitDb, headers) (visitDb, headers) := ⟨rfl, id, rfl⟩
  have hother : SameVisit (visitDb, presenting baitText) (visitDb, presenting unknownText) :=
    ⟨rfl, id, by decide +kernel⟩
  have hvisited : BesideBait baiting visitCodec (fun _ => none) AuditWorld.db (fun _ _ => .ok ()) visited :=
    .next (a := .start (visitDb, presenting baitText) (visitDb, presenting unknownText))
      (.next (a := .start (visitDb, headers) (visitDb, headers)) hstart hsame rfl) hother rfl
  have hgone : Transition.Reachable (· = visited) goStep (fun s going => going.ok s = true) goneOn := by
    cases hrun : Transition.run goStep visited goings with
    | none =>
        -- nobody has tripped over the bait at the beginning
        have hstayed : goneOn = visited := by
          unfold goneOn
          rw [hrun, Option.getD_none]
        have htrips := goneOn_facts.2.2.2
        rw [hstayed] at htrips
        exact absurd htrips (by decide)
    | some reached =>
        refine Transition.reachable_of_run goings (.start rfl) (by decide +kernel) ?_
        unfold goneOn
        rw [hrun, Option.getD_some]
  refine hgone.invariant ?_ ?_
  · rintro s rfl
    exact hvisited
  · intro s going s' hs hok hstep
    exact hs.next (Going.apart hok) hstep

/-- A secret that is bait in one of two stores, and then a token that is bait where another is unknown: the
value is served by both, nobody authenticates, and there are two entries of each. -/
theorem goneOn_unseen :
    ((goneOn.scripts.map fun script => match script with
      | .done result => result.toOption
      | .call _ _ => none) = [some (.secret ⟨"infra/DB", 1, "hunter2", 0, "ci"⟩), none] ∧
      goneOn.shared.app.trail = [baitTaken, baitPresented] ∧
      goneOn.shared'.app.trail = [readClaim dbPath, unknownPresented] ∧
      goneOn.shared.trips.map (·.kind) = ["token"]) ∧
    goneOn.shared.app.trail.length = goneOn.shared'.app.trail.length ∧
    ∀ (i : Nat) (result : Except HttpError ApiResponse), goneOn.scripts[i]? = some (Script.done result) →
      ∃ script : Served asciiUnicode, goneOn.scripts'[i]? = some script ∧
        script.Ends ApiCall.IsLatch result := by
  have hencodes : visitCodec.Encodes := fun record => ⟨_, rfl⟩
  obtain ⟨htrail, -, hends, -⟩ := bait_unseen hencodes goneOn_beside
  exact ⟨goneOn_facts, htrail, hends⟩

end Sample

end Ciphr
