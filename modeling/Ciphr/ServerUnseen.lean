import Ciphr.ServerBait
import Ciphr.ServerValues
import Ciphr.StoreSeen

/-!
What callers who may reach some paths only are told of all the others, which is nothing. Two processes
whose stores agree on those paths, and differ in any way elsewhere, serve the same requests in lockstep.
-/

namespace Ciphr

open Script

variable {u : Unicode}

/-- Whoever it is, nothing is allowed to them elsewhere. -/
def Deployment.Confines (deployment : Deployment) (V : SecretPath u → Prop) (identity : String) : Prop :=
  ∀ path capability, (deployment.policies.evaluate identity path capability).isAllowed = true → V path

/-! ### Calls -/

/-- Calls that name no path elsewhere; a listing names what it may. -/
def ApiCall.Within (V : SecretPath u → Prop) : ApiCall u → Prop
  | .get path _ | .putWithRotation path _ _ _ | .metadata path | .delete path _ | .history path
  | .honeypotTier path => V path
  | .listWithRotation start => start.isSome = true
  | .honeypots | .openTripCount => False
  | _ => True

/-- Who authenticates is confined. -/
def ApiCall.HearsConfined (deployment : Deployment) (V : SecretPath u → Prop) :
    (c : ApiCall u) → c.Reply → Prop
  | .authenticate _, reply => ∀ one, reply = .ok (.valid one) → deployment.Confines V one.identity
  | _, _ => True

/-- Two listings differ elsewhere at most, all other replies are the same. -/
def SameButElsewhere (deployment : Deployment) (V : SecretPath u → Prop) :
    (c c' : ApiCall u) → c.Reply → c'.Reply → Prop
  | .listWithRotation _, .listWithRotation _, reply, reply' =>
      Related (SecretTables.SameListed V) reply reply'
  | .authenticate presented, .authenticate _, reply, reply' =>
      reply = reply' ∧ ApiCall.HearsConfined deployment V (.authenticate presented) reply
  | _, _, reply, reply' => HEq reply reply'

/-- There is nothing that one process asks and the other does not. -/
def elsewhere (deployment : Deployment) (V : SecretPath u → Prop) : Likeness (ApiCall u) ApiCall.Reply :=
  ⟨fun _ => False, fun c c' => c = c' ∧ c.Within V, SameButElsewhere deployment V, fun _ => ⟨id, id⟩⟩

/-- Calls within the paths, but for listings. -/
def ApiCall.Named (V : SecretPath u → Prop) (c : ApiCall u) : Prop :=
  c.Within V ∧ ∀ start, c ≠ .listWithRotation start

theorem ApiCall.Named.same {deployment : Deployment} {V : SecretPath u → Prop} {c : ApiCall u}
    (h : c.Named V) :
    (elsewhere deployment V).calls c c ∧ ∀ reply reply', (elsewhere deployment V).replies c c reply reply' →
      reply = reply' ∧ c.HearsConfined deployment V reply := by
  refine ⟨⟨rfl, h.1⟩, fun reply reply' hreplies => ?_⟩
  cases c with
  | listWithRotation start => exact absurd rfl (h.2 start)
  | authenticate presented => exact hreplies
  | _ => exact ⟨eq_of_heq hreplies, trivial⟩

/-! ### Handlers -/

section Scripts

variable {α : Type} {deployment : Deployment} {headers : Headers} {caller : Caller} {action : Action}
  {request : RequestContext} {V : SecretPath u → Prop}

theorem named_record {entry : Entry} {T : (c : ApiCall u) → c.Reply → Prop} :
    (record entry : Api u Unit).Asks T (ApiCall.Named V) := asks_ask ⟨trivial, nofun⟩

theorem named_authenticate {bearer : Option String} {T : (c : ApiCall u) → c.Reply → Prop} :
    (deployment.authenticate bearer : Api u _).Asks T (ApiCall.Named V) := by
  cases bearer with
  | none => exact asks_pure
  | some presented => exact asks_ask ⟨trivial, nofun⟩

theorem named_authenticated {T : (c : ApiCall u) → c.Reply → Prop} :
    (deployment.authenticated headers action request : Api u Caller).Asks T (ApiCall.Named V) := by
  refine named_authenticate.bind fun outcome => ?_
  split
  · exact asks_pure
  · refine Asks.bind ?_ fun _ => asks_ofExcept
    unfold Deployment.recordRejection
    split
    · exact named_record.bind fun _ => asks_ask ⟨trivial, nofun⟩
    · exact named_record

/-- Who is let in is confined. -/
theorem confined_of_authenticated {acts : List (ApiAct u)}
    (h : Runs (deployment.authenticated headers action request : Api u Caller) acts (.ok caller))
    (hacts : ∀ act ∈ acts, act.1.HearsConfined deployment V act.2) :
    deployment.Confines V caller.identity := by
  obtain ⟨presented, one, -, rfl, rfl⟩ := runs_authenticated_ok h
  exact hacts _ (List.mem_singleton_self _) one rfl

theorem named_parsePathRecorded {raw : String} {T : (c : ApiCall u) → c.Reply → Prop} :
    (parsePathRecorded caller action request raw : Api u (SecretPath u)).Asks T (ApiCall.Named V) := by
  unfold parsePathRecorded
  split
  · exact asks_pure
  · exact named_record.bind fun _ => asks_ofExcept

/-- Bait is looked up where access is allowed, and not elsewhere. -/
theorem named_authorizeAndRecordSubject {T : (c : ApiCall u) → c.Reply → Prop} {capability : Capability}
    {path : SecretPath u} {subject : Option Principal} (hcaller : deployment.Confines V caller.identity) :
    (deployment.authorizeAndRecordSubject caller action capability path subject request).Asks T
      (ApiCall.Named V) := by
  have hbait : (deployment.lookForBait (deployment.authorize caller capability path) capability
      path).Asks T (ApiCall.Named V) := by
    unfold Deployment.lookForBait
    split
    · rename_i hlook
      simp only [Bool.and_eq_true] at hlook
      exact asks_ask ⟨hcaller path capability hlook.1.2, nofun⟩
    · exact asks_pure
  have hend : (if (deployment.authorize caller capability path).isAllowed then pure ()
      else ofExcept (.error .forbidden) : Api u Unit).Asks T (ApiCall.Named V) := by
    split
    · exact asks_pure
    · exact asks_ofExcept
  refine hbait.bind fun bait => named_record.bind fun _ => ?_
  cases bait with
  | some tier => exact Asks.bind (asks_ask ⟨trivial, nofun⟩) fun _ => hend
  | none => exact hend

/-- What follows a decision is asked where the caller may be. -/
theorem named_decided {T : (c : ApiCall u) → c.Reply → Prop} {capability : Capability}
    {path : SecretPath u} {subject : Option Principal} {rest : Unit → Api u α}
    (hcaller : deployment.Confines V caller.identity) (hrest : V path → (rest ()).Asks T (ApiCall.Named V)) :
    (deployment.authorizeAndRecordSubject caller action capability path subject request >>= rest).Asks T
      (ApiCall.Named V) := by
  refine (named_authorizeAndRecordSubject hcaller).bind_of fun acts _ hruns _ => hrest ?_
  generalize hended : (Except.ok _ : Except ApiError Unit) = result at hruns
  cases runs_authorizeAndRecordSubject hruns with
  | allowed look more bait hallowed => exact hcaller path capability hallowed
  | _ => cases hended

theorem named_workOrRecord {T : (c : ApiCall u) → c.Reply → Prop} {path : SecretPath u}
    {reason : String} {work : Api u α} (h : work.Asks T (ApiCall.Named V)) :
    (completeOrRecord caller action path request reason work).Asks T (ApiCall.Named V) := by
  refine h.outcome.bind fun ended => ?_
  cases ended with
  | ok value => exact asks_pure
  | error error => exact named_record.bind fun _ => asks_ofExcept

theorem named_auditedJson {T : (c : ApiCall u) → c.Reply → Prop} {body : Except String α} :
    (auditedJson deployment headers action body : Api u α).Asks T (ApiCall.Named V) := by
  cases body with
  | ok parsed => exact asks_pure
  | error text =>
      refine named_authenticate.bind fun outcome => ?_
      split
      · exact named_record.bind fun _ => asks_ofExcept
      · exact asks_ofExcept

theorem named_refusedRequest {T : (c : ApiCall u) → c.Reply → Prop} {reason : String} :
    (refusedRequest deployment headers reason : Api u α).Asks T (ApiCall.Named V) := by
  refine named_authenticate.bind fun outcome => ?_
  split
  · exact named_record.bind fun _ => asks_ofExcept
  · exact asks_ofExcept

/-- A handler that starts with who is calling. -/
theorem named_called {rest : Caller → Api u α} (hrest : ∀ caller, deployment.Confines V caller.identity →
      (rest caller).Asks (ApiCall.HearsConfined deployment V) (ApiCall.Named V)) :
    (deployment.authenticated headers action request >>= rest).Asks (ApiCall.HearsConfined deployment V)
      (ApiCall.Named V) :=
  named_authenticated.bind_of fun _ caller hruns hacts => hrest caller (confined_of_authenticated hruns hacts)

theorem named_readSecret {raw : String} {query : VersionQuery} :
    (readSecret deployment headers raw query : Api u ApiResponse).Asks
      (ApiCall.HearsConfined deployment V) (ApiCall.Named V) := by
  refine named_called fun caller hcaller => named_parsePathRecorded.bind fun path =>
    named_decided hcaller fun hpath => asks_ofExcept.bind fun version => ?_
  have hget : (ask (.get path version) fun stored => .ok (stored.mapError ApiError.ofStore) :
      Api u _).Asks (ApiCall.HearsConfined deployment V) (ApiCall.Named V) := asks_ask ⟨hpath, nofun⟩
  refine hget.bind fun stored => ?_
  split
  · exact named_record.bind fun _ => asks_ofExcept
  · split
    · exact named_record.bind fun _ => asks_ofExcept
    · exact asks_pure

theorem named_storeSecret {T : (c : ApiCall u) → c.Reply → Prop} {path : SecretPath u}
    {rotation : Option Rotation} {value : String} (hpath : V path) :
    (storeSecret deployment headers caller path rotation value).Asks T (ApiCall.Named V) := by
  have hput : (ask (.putWithRotation path caller.identity rotation
      (encryptBody deployment path value)) fun stored => .ok (stored.mapError ApiError.ofStore) :
        Api u _).Asks T (ApiCall.Named V) := asks_ask ⟨hpath, nofun⟩
  refine hput.bind fun stored => ?_
  split
  · refine named_record.bind fun _ => ?_
    dsimp only
    split
    · exact named_record.bind fun _ => asks_ofExcept
    · exact asks_ofExcept
  · exact asks_pure

theorem named_writeSecret {raw : String} {body : Except String SecretBody} :
    (writeSecret deployment headers raw body : Api u ApiResponse).Asks
      (ApiCall.HearsConfined deployment V) (ApiCall.Named V) := by
  refine named_auditedJson.bind fun body => named_called fun caller hcaller =>
    named_parsePathRecorded.bind fun path => asks_ofExcept.bind fun _ => asks_ofExcept.bind fun rotation =>
      named_decided hcaller fun hpath => ?_
  cases rotation with
  | none => exact named_storeSecret hpath
  | some rotation => exact named_decided hcaller fun _ => named_storeSecret hpath

theorem named_deleteSecret {raw : String} {query : VersionQuery} :
    (deleteSecret deployment headers raw query : Api u ApiResponse).Asks
      (ApiCall.HearsConfined deployment V) (ApiCall.Named V) := by
  refine named_called fun caller hcaller => named_parsePathRecorded.bind fun path =>
    asks_ofExcept.bind fun _ => named_decided hcaller fun hpath =>
      (named_workOrRecord ?_).bind fun _ => asks_pure
  refine Asks.bind ?_ fun version => asks_ask ⟨hpath, nofun⟩
  refine asks_ofExcept.bind fun version => ?_
  split
  · exact asks_pure
  · refine Asks.bind (asks_ask ⟨hpath, nofun⟩) fun metadata => ?_
    split
    · exact asks_pure
    · exact asks_ofExcept

theorem named_listVersions {raw : String} :
    (listVersions deployment headers raw : Api u ApiResponse).Asks
      (ApiCall.HearsConfined deployment V) (ApiCall.Named V) := by
  refine named_called fun caller hcaller => named_parsePathRecorded.bind fun path =>
    named_decided hcaller fun hpath => (named_workOrRecord ?_).bind fun _ => asks_pure
  exact asks_ask ⟨hpath, nofun⟩

theorem named_exportSecrets {T : (c : ApiCall u) → c.Reply → Prop} {paths recorded : List (SecretPath u)}
    {bytes : Nat} {secrets : List ExportedSecret} (hcaller : deployment.Confines V caller.identity) :
    (exportSecrets deployment caller request paths recorded bytes secrets).Asks T (ApiCall.Named V) := by
  induction paths generalizing recorded bytes secrets with
  | nil => exact asks_pure
  | cons path paths ih =>
      refine (named_authorizeAndRecordSubject hcaller).outcome.bind_of fun acts decided hdecided _ => ?_
      cases decided with
      | error error => exact asks_pure
      | ok =>
          have hpath : V path := by
            obtain ⟨ended, hended, hsame⟩ := runs_outcome_iff.mp hdecided
            cases hsame
            generalize hok : (Except.ok _ : Except ApiError Unit) = result at hended
            cases runs_authorizeAndRecordSubject hended with
            | allowed look more bait hallowed => exact hcaller path .read hallowed
            | _ => cases hok
          have hsecret : (exportSecret deployment path bytes).Asks T (ApiCall.Named V) := by
            refine Asks.bind (asks_ask ⟨hpath, nofun⟩) fun stored => asks_ofExcept.bind fun value => ?_
            dsimp only
            split
            · exact asks_ofExcept
            · exact asks_pure
          refine hsecret.outcome.bind fun served => ?_
          split
          · exact asks_pure
          · exact ih

theorem named_correctExport {T : (c : ApiCall u) → c.Reply → Prop} {status : Nat}
    {paths : List (SecretPath u)} :
    (correctExport caller request status paths).Asks T (ApiCall.Named V) := by
  induction paths with
  | nil => exact asks_pure
  | cons path paths ih => exact named_record.bind fun _ => ih

theorem named_exportPaths {body : Except String (List String)} :
    (exportPaths deployment headers body : Api u ApiResponse).Asks
      (ApiCall.HearsConfined deployment V) (ApiCall.Named V) := by
  refine named_auditedJson.bind fun raw => named_called fun caller hcaller => ?_
  split
  · exact named_record.bind fun _ => asks_ofExcept
  · refine (named_exportSecrets hcaller).bind fun ended => ?_
    split
    · exact asks_pure
    · exact named_correctExport.bind fun _ => asks_ofExcept

/-- What is asked by name is told alike. -/
theorem alike_named {ε β : Type} {script : Script (ApiCall u) ApiCall.Reply ε β}
    (h : script.Asks (ApiCall.HearsConfined deployment V) (ApiCall.Named V)) :
    Alike (elsewhere deployment V) Eq script script :=
  (h.alike (Q := fun _ => True) (fun _ => ApiCall.Named.same) fun _ _ _ _ => trivial).mono fun _ _ => And.left

/-- A listing is told of other paths too, and does not tell of them. -/
theorem alike_listPaths_elsewhere {start : String} {rotation : Option String} :
    Alike (elsewhere deployment V) Eq (listPaths deployment headers start rotation : Api u ApiResponse)
      (listPaths deployment headers start rotation) := by
  unfold listPaths
  refine (named_authenticated.alike (Q := fun caller => deployment.Confines V caller.identity)
    (fun _ => ApiCall.Named.same) fun acts caller hruns hacts => confined_of_authenticated hruns hacts).bind ?_
  rintro caller _ ⟨rfl, hcaller⟩
  refine (alike_named named_parsePathRecorded).bind fun start _ hstart => ?_
  subst hstart
  refine (alike_ofExcept (related_refl _)).bind fun wanted _ hwanted => ?_
  subst hwanted
  have hask : Alike (elsewhere deployment V) (SecretTables.SameListed V)
      (ask (.listWithRotation (some start)) (·.mapError .ofStore) : Api u _)
      (ask (.listWithRotation (some start)) (·.mapError .ofStore)) := by
    refine alike_ask ⟨rfl, rfl⟩ fun reply reply' hreplies => ?_
    have htold : Related (SecretTables.SameListed V) reply reply' := hreplies
    exact htold.mapError _
  refine hask.bind fun listed listed' hlisted => ?_
  have hvisible : visibleEntries deployment caller wanted listed =
      visibleEntries deployment caller wanted listed' := by
    unfold visibleEntries
    rw [hlisted (fun secret => (deployment.authorize caller .list secret.path).isAllowed)
      fun secret hallowed => hcaller secret.path .list hallowed]
  dsimp only
  rw [hvisible]
  exact (alike_named named_record).bind fun _ _ _ => alike_pure rfl

theorem alike_extracted {β : Type} (extracted : Extracted β) {handler handler' : β → Served u}
    (h : ∀ b, Alike (elsewhere deployment V) Eq (handler b) (handler' b)) :
    Alike (elsewhere deployment V) Eq (extracting extracted handler) (extracting extracted handler') := by
  cases extracted with
  | ok b => exact h b
  | error text => exact alike_ofExcept rfl

variable [ReservedPaths u]

theorem named_inspecting {name : ReservedName} {serve : Caller → SecretPath u → Api u ApiResponse}
    (h : ∀ caller, V (reservedPath name) → (serve caller (reservedPath name)).Asks
      (ApiCall.HearsConfined deployment V) (ApiCall.Named V)) :
    (inspecting deployment headers name serve).Asks (ApiCall.HearsConfined deployment V)
      (ApiCall.Named V) :=
  named_called fun caller hcaller => named_decided hcaller fun hpath => h caller hpath

theorem named_revokeToken {tokenId : String} :
    (revokeToken deployment headers tokenId : Api u ApiResponse).Asks
      (ApiCall.HearsConfined deployment V) (ApiCall.Named V) := by
  refine named_called fun caller hcaller => Asks.bind (asks_ask ⟨trivial, nofun⟩) fun record =>
    named_decided hcaller fun _ => ?_
  split
  · exact asks_ofExcept
  · refine (named_workOrRecord ?_).bind fun _ => asks_pure
    exact asks_ask ⟨trivial, nofun⟩

theorem named_oidcLogin {T : (c : ApiCall u) → c.Reply → Prop} {body : Except String OidcLoginRequest} :
    (oidcLogin deployment headers body : Api u ApiResponse).Asks T (ApiCall.Named V) := by
  refine named_auditedJson.bind fun body => Asks.bind (asks_ask ⟨trivial, nofun⟩) fun now =>
    asks_ofExcept.bind fun asked => ?_
  split
  · exact asks_ofExcept
  · exact named_record.bind fun _ => asks_ofExcept
  · refine Asks.bind (asks_ask ⟨trivial, nofun⟩) fun token => named_record.bind fun _ =>
      Asks.bind (asks_ask ⟨trivial, nofun⟩) fun stored => ?_
    split
    · exact named_record.bind fun _ => asks_ofExcept
    · exact asks_pure

/-- Whatever is asked of the two, with whatever is presented, is served in lockstep. -/
theorem alike_serve_elsewhere (hhidden : ¬ V (reservedPath .honeypots)) {request : ApiRequest}
    (hrequest : request ≠ .health) :
    Alike (elsewhere deployment V) Eq (serve deployment headers request : Served u)
      (serve deployment headers request) := by
  unfold serve
  split
  · unfold handle
    cases request with
    | health => exact absurd rfl hrequest
    | readSecret path query =>
        exact alike_extracted _ fun path => alike_extracted _ fun query =>
          (alike_named named_readSecret).mapError _
    | writeSecret path body =>
        exact alike_extracted _ fun path => (alike_named named_writeSecret).mapError _
    | deleteSecret path query =>
        exact alike_extracted _ fun path => alike_extracted _ fun query =>
          (alike_named named_deleteSecret).mapError _
    | listVersions path => exact alike_extracted _ fun path => (alike_named named_listVersions).mapError _
    | listPaths start rotation =>
        exact alike_extracted _ fun start => alike_extracted _ fun rotation =>
          alike_listPaths_elsewhere.mapError _
    | exportPaths body => exact (alike_named named_exportPaths).mapError _
    | readSurface => exact (alike_named (named_inspecting fun _ _ => asks_pure)).mapError _
    | readHoneypots =>
        exact (alike_named (named_inspecting fun _ hpath => absurd hpath hhidden)).mapError _
    | readAudit query =>
        refine alike_extracted _ fun query => (alike_named (named_inspecting fun _ _ => ?_)).mapError _
        refine asks_ofExcept.bind fun filter => (named_workOrRecord ?_).bind fun _ => asks_pure
        exact Asks.bind (asks_ask ⟨trivial, nofun⟩) fun _ => asks_ofExcept
    | readIdentities => exact (alike_named (named_inspecting fun _ _ => asks_pure)).mapError _
    | readPolicies => exact (alike_named (named_inspecting fun _ _ => asks_pure)).mapError _
    | readTokens identity =>
        refine alike_extracted _ fun identity => (alike_named (named_inspecting fun _ _ => ?_)).mapError _
        exact Asks.bind (asks_ask ⟨trivial, nofun⟩) fun _ =>
          Asks.bind (asks_ask ⟨trivial, nofun⟩) fun _ => asks_pure
    | revokeToken tokenId => exact alike_extracted _ fun _ => (alike_named named_revokeToken).mapError _
    | oidcLogin body => exact (alike_named named_oidcLogin).mapError _
    | unmatched reason => exact (alike_named named_refusedRequest).mapError _
  · exact (alike_named named_refusedRequest).mapError _

end Scripts

/-! ### Two processes -/

/-- What happens to one of the two alone: another process does something elsewhere, or a task ends. -/
inductive Elsewhere (V : SecretPath u → Prop) where
  | store (op : StoreOp u) (fault : SecretFault) (away : ¬ V op.path)
  | task (ends : Nat × Int)

section Processes

variable {δ ω φ : Type} [AuditDevice δ ω φ] {deployment : Deployment} {codec : Codec} {json : JsonExtract}
  {database : ω → Database} {V : SecretPath u → Prop}

def Server.undergo (s : Server δ ω) : Elsewhere V → Option (Server δ ω)
  | .store op fault _ => some { s with secrets := op.perform fault s.secrets }
  | .task ends => s.finishLatch ends

/-- Two processes whose stores are alike at some paths, and that have recorded the same. -/
structure AlikeWithin (V : SecretPath u → Prop) (s s' : Server δ ω) : Prop where
  secrets : s.secrets.SeenAlike V s'.secrets
  tokens : s.tokens = s'.tokens
  app : s.app = s'.app

/-- What is outside is the same of both, and who is let in is confined. -/
structure AgreedWithin (deployment : Deployment) (codec : Codec) (json : JsonExtract)
    (database : ω → Database) (V : SecretPath u → Prop) (s : Server δ ω) (outside : ApiOutside φ)
    (c : ApiCall u) (s' : Server δ ω) (outside' : ApiOutside φ) (c' : ApiCall u) : Prop where
  same : outside' = outside
  confined : c.HearsConfined deployment V (Server.answer deployment codec json database s outside c).2

/-- A call on the secrets. -/
theorem AlikeWithin.write {α : Type} {s s' : Server δ ω} (h : AlikeWithin V s s')
    {p : SecretTables.Statement α}
    (hp : (p.exec s.secrets).1 = (p.exec s'.secrets).1 ∧
      SecretTables.SeenAlike V (p.exec s.secrets).2 (p.exec s'.secrets).2) :
    HEq (p.exec s.secrets).1 (p.exec s'.secrets).1 ∧
      AlikeWithin V { s with secrets := (p.exec s.secrets).2 }
        { s' with secrets := (p.exec s'.secrets).2 } :=
  ⟨heq_of_eq hp.1, hp.2, h.tokens, h.app⟩

/-- The two are told alike, and stay alike. -/
theorem AlikeWithin.answer {s s' : Server δ ω} (h : AlikeWithin V s s') (hstable : u.Stable)
    {outside : ApiOutside φ} {c : ApiCall u} (hwithin : c.Within V)
    (hconfined : c.HearsConfined deployment V (Server.answer deployment codec json database s outside c).2) :
    SameButElsewhere deployment V c c (Server.answer deployment codec json database s outside c).2
        (Server.answer deployment codec json database s' outside c).2 ∧
      AlikeWithin V (Server.answer deployment codec json database s outside c).1
        (Server.answer deployment codec json database s' outside c).1 := by
  obtain ⟨app, secrets, tokens, trips, latching, spawned⟩ := s
  obtain ⟨app', secrets', tokens', trips', latching', spawned'⟩ := s'
  obtain ⟨hsecrets, htokens, happ⟩ := h
  cases htokens
  cases happ
  cases c with
  | get path version =>
      exact ⟨heq_of_eq (SecretTables.get_seen (hsecrets.seen path hwithin) version), hsecrets, rfl, rfl⟩
  | putWithRotation path createdBy rotation encrypt =>
      exact AlikeWithin.write ⟨hsecrets, rfl, rfl⟩ (hsecrets.put hwithin)
  | metadata path =>
      exact ⟨heq_of_eq (SecretTables.metadata_seen (hsecrets.seen path hwithin)), hsecrets, rfl, rfl⟩
  | delete path version => exact AlikeWithin.write ⟨hsecrets, rfl, rfl⟩ (hsecrets.delete hwithin)
  | history path =>
      refine ⟨heq_of_eq ?_, hsecrets, rfl, rfl⟩
      unfold Server.answer
      dsimp only
      rw [SecretTables.metadata_seen (hsecrets.seen path hwithin),
        SecretTables.versionSummaries_seen (hsecrets.seen path hwithin)]
  | listWithRotation start =>
      obtain ⟨named, rfl⟩ := Option.isSome_iff_exists.mp hwithin
      exact ⟨hsecrets.listWithRotation hstable named, hsecrets, rfl, rfl⟩
  | honeypotTier path =>
      exact ⟨heq_of_eq (SecretTables.honeypotTier_seen (hsecrets.seen path hwithin)), hsecrets, rfl, rfl⟩
  | latchOffTheRequestPath kind reference identity tier =>
      refine ⟨HEq.rfl, ?_⟩
      unfold Server.answer
      dsimp only
      split
      · split
        · exact ⟨hsecrets, rfl, rfl⟩
        · exact ⟨hsecrets, rfl, rfl⟩
      · split
        · exact ⟨hsecrets, rfl, rfl⟩
        · exact ⟨hsecrets, rfl, rfl⟩
  | honeypots | openTripCount => exact hwithin.elim
  | authenticate presented => exact ⟨⟨rfl, hconfined⟩, hsecrets, rfl, rfl⟩
  | _ => exact ⟨HEq.rfl, hsecrets, rfl, rfl⟩

/-- What happens elsewhere makes no difference. -/
theorem AlikeWithin.undergo {s s' t : Server δ ω} (h : AlikeWithin V s s') {event : Elsewhere V}
    (ht : s.undergo event = some t) : AlikeWithin V t s' := by
  cases event with
  | store op fault away =>
      cases ht
      exact ⟨h.secrets.apart away, h.tokens, h.app⟩
  | task ends =>
      obtain ⟨trips, spawned, rfl⟩ := Server.finishLatch_eq_some ht
      exact ⟨h.secrets, h.tokens, h.app⟩

theorem AlikeWithin.symm {s s' : Server δ ω} (h : AlikeWithin V s s') : AlikeWithin V s' s :=
  ⟨h.secrets.symm, h.tokens.symm, h.app.symm⟩

variable [ReservedPaths u]

/-- The runs of two processes whose stores are alike where those who call may be. Both are asked the same
and make their calls in the same order; anything may be done elsewhere in the store of either. -/
def BesideElsewhere (deployment : Deployment) (codec : Codec) (json : JsonExtract) (database : ω → Database)
    (V : SecretPath u → Prop) : TwoServers δ ω u → Prop :=
  Transition.Reachable (fun s => AlikeWithin V s.shared s.shared' ∧ s.scripts = [] ∧ s.scripts' = [])
    (Beside.step (Server.answer deployment codec json database)
      (fun visit : Visit => serve deployment visit.2 visit.1) (Server.undergo (V := V)))
    (Beside.Apart (elsewhere deployment V) (fun visit visit' => visit = visit' ∧ visit.1 ≠ .health)
      (AgreedWithin (φ := φ) deployment codec json database V))

omit [ReservedPaths u] in
/-- Where nothing is silent, alike scripts have made the same calls, and have ended with the same. -/
theorem alike_elsewhere {script script' : Served u} (h : Alike (elsewhere deployment V) Eq script script') :
    (∀ result, script = .done result ↔ script' = .done result) ∧
      nextCall [script] 0 = nextCall [script'] 0 := by
  cases h with
  | done h =>
      cases h.eq
      exact ⟨fun _ => Iff.rfl, rfl⟩
  | call hcalls =>
      obtain ⟨rfl, -⟩ := hcalls
      exact ⟨fun _ => ⟨nofun, nofun⟩, rfl⟩
  | first hsilent => exact hsilent.elim
  | second hsilent => exact hsilent.elim

/-- Who may not reach a path cannot tell anything about it: not whether a secret is there, what its class or
its versions are, or whether it is bait. Every answer, every record and every token is the same of two
processes whose stores differ there, whatever is done there meanwhile, and so is what can be seen of all
other paths. -/
theorem elsewhere_unseen (hstable : u.Stable) (hhidden : ¬ V (reservedPath .honeypots))
    {s : TwoServers δ ω u} (h : BesideElsewhere deployment codec json database V s) :
    s.shared.app = s.shared'.app ∧ s.shared.tokens = s.shared'.tokens ∧
      (∀ path, V path → s.shared.secrets.seen path.text = s.shared'.secrets.seen path.text) ∧
      ∀ i, nextCall s.scripts i = nextCall s.scripts' i ∧
        ∀ result, s.scripts[i]? = some (Script.done result) ↔ s.scripts'[i]? = some (Script.done result) := by
  have hmatched : s.Matched (elsewhere deployment V) (AlikeWithin V) := by
    refine Beside.matched (fun _ hs => hs) ?_ ?_ ?_ ?_ ?_ ?_ h
    · rintro ⟨request, headers⟩ _ ⟨rfl, hrequest⟩
      exact alike_serve_elsewhere hhidden hrequest
    · rintro s s' outside _ c _ hs ⟨rfl, hwithin⟩ ⟨rfl, hconfined⟩
      exact hs.answer hstable hwithin hconfined
    · exact fun _ _ _ _ _ hsilent => hsilent.elim
    · exact fun _ _ _ _ _ hsilent => hsilent.elim
    · exact fun s s' event t hs ht => hs.undergo ht
    · exact fun s s' event t hs ht => (hs.symm.undergo ht).symm
  refine ⟨hmatched.shared.app, hmatched.shared.tokens, hmatched.shared.secrets.seen, fun i => ?_⟩
  cases hscript : s.scripts[i]? with
  | none =>
      have hnone : s.scripts'[i]? = none := by
        rw [List.getElem?_eq_none_iff] at hscript ⊢
        rwa [← hmatched.scripts.length_eq]
      unfold nextCall
      rw [hscript, hnone]
      exact ⟨rfl, fun _ => ⟨nofun, nofun⟩⟩
  | some script =>
      obtain ⟨script', hscript', halike⟩ := Beside.forall₂_getElem? hmatched.scripts hscript
      obtain ⟨hends, hnext⟩ := alike_elsewhere halike
      unfold nextCall at hnext ⊢
      rw [hscript, hscript']
      refine ⟨hnext, fun result => ?_⟩
      rw [Option.some.injEq, Option.some.injEq]
      exact hends result

end Processes

namespace Sample

/-- Where the policies of `ci` let it be. -/
def Reach (path : SecretPath asciiUnicode) : Prop :=
  ∃ capability, (pinnedDeployment.policies.evaluate "ci" path capability).isAllowed = true

theorem not_reach {path : SecretPath asciiUnicode}
    (h : (Capability.all.any fun capability =>
      (pinnedDeployment.policies.evaluate "ci" path capability).isAllowed) = false) : ¬ Reach path := by
  rintro ⟨capability, hallowed⟩
  refine List.any_eq_false.mp h capability ?_ hallowed
  cases capability <;> decide

def appsKey : SecretPath asciiUnicode := siblingPath "apps/KEY" (by decide +kernel)

/-- Two processes with the same token and no secrets. -/
def unwritten : Server Device AuditWorld := servedStart.shared.shared.server

/-- A secret is put where `ci` may not be, into the store of the first. -/
def keyWritten : Server Device AuditWorld :=
  { unwritten with
    secrets := StoreOp.perform SecretTables.noFault unwritten.secrets
      (.secret (.put appsKey "ops" none encryptOnce 0)) }

/-- A request to write and one to read, of each. -/
def apartStart : TwoServers Device AuditWorld asciiUnicode :=
  ⟨keyWritten, [serve pinnedDeployment headers writing.1, serve pinnedDeployment headers reading.1],
    unwritten, [serve pinnedDeployment headers writing.1, serve pinnedDeployment headers reading.1]⟩

/-- Both make the next call of a request. -/
def lockstep (s : TwoServers Device AuditWorld asciiUnicode) (i : Nat) :
    Option (TwoServers Device AuditWorld asciiUnicode) :=
  Beside.step (Server.answer pinnedDeployment accessCodec (fun _ => none) AuditWorld.db)
    (fun visit : Visit => serve pinnedDeployment visit.2 visit.1) (Server.undergo (V := Reach)) s
    (.both i drawing drawing)

/-- Nobody but `ci` is let in. -/
def hearsCi : (c : ApiCall asciiUnicode) → c.Reply → Bool
  | .authenticate _, .ok (.valid one) => one.identity == "ci"
  | _, _ => true

def lockstepOk (s : TwoServers Device AuditWorld asciiUnicode) (i : Nat) : Bool :=
  match nextCall s.scripts i with
  | some c => hearsCi c (Server.answer pinnedDeployment accessCodec (fun _ => none) AuditWorld.db s.shared
      drawing c).2
  | none => true

def lockSteps : List Nat := List.replicate 3 0 ++ List.replicate 3 1

def apartEnd : TwoServers Device AuditWorld asciiUnicode :=
  (Transition.run lockstep apartStart lockSteps).getD apartStart

def told (scripts : List (Served asciiUnicode)) : List (Option ApiResponse) :=
  scripts.map fun script => match script with
    | .done result => result.toOption
    | .call _ _ => none

theorem apartEnd_facts :
    (Transition.run lockstep apartStart lockSteps).isSome = true ∧
      told apartEnd.scripts = [some (.written ⟨"infra/service-a/DB_PASSWORD", 1⟩),
        some (.secret ⟨"infra/service-a/DB_PASSWORD", 1, "the value of a secret", 1767225600000, "ci"⟩)] ∧
      apartEnd.shared.secrets.secrets.map (·.path) = ["apps/KEY", "infra/service-a/DB_PASSWORD"] ∧
      apartEnd.shared'.secrets.secrets.map (·.path) = ["infra/service-a/DB_PASSWORD"] := by
  decide +kernel

theorem confined_of_hearsCi {c : ApiCall asciiUnicode} {reply : c.Reply} (h : hearsCi c reply = true) :
    c.HearsConfined pinnedDeployment Reach reply := by
  cases c with
  | authenticate presented =>
      rintro one rfl
      have hidentity : one.identity = "ci" := beq_iff_eq.mp h
      intro path capability hallowed
      rw [hidentity] at hallowed
      exact ⟨capability, hallowed⟩
  | _ => exact trivial

theorem apartEnd_beside : BesideElsewhere (φ := DeviceFault) pinnedDeployment accessCodec (fun _ => none)
    AuditWorld.db Reach apartEnd := by
  have hempty : SecretTables.Sound (⟨[], []⟩ : SecretTables) ([] : List (Produced asciiUnicode)) :=
    Versioning.reachable_sound (s := ⟨⟨[], []⟩, []⟩) (.start rfl)
  have hstart : BesideElsewhere (φ := DeviceFault) pinnedDeployment accessCodec (fun _ => none)
      AuditWorld.db Reach (⟨unwritten, [], unwritten, []⟩ : TwoServers Device AuditWorld asciiUnicode) :=
    .start ⟨⟨⟨⟨[], hempty⟩, ⟨[], hempty⟩, fun _ _ => rfl⟩, rfl, rfl⟩, rfl, rfl⟩
  have haway : ¬ Reach (SecretOp.put appsKey "ops" none encryptOnce 0).path := not_reach (by decide +kernel)
  have hstarted : BesideElsewhere (φ := DeviceFault) pinnedDeployment accessCodec (fun _ => none)
      AuditWorld.db Reach apartStart :=
    .next (a := .start reading reading)
      (.next (a := .start writing writing)
        (.next (a := .work (.store (.secret (.put appsKey "ops" none encryptOnce 0)) SecretTables.noFault haway))
          hstart trivial rfl) ⟨rfl, nofun⟩ rfl) ⟨rfl, nofun⟩ rfl
  have hrun : Transition.run lockstep apartStart lockSteps = some apartEnd := by
    obtain ⟨s, hs⟩ := Option.isSome_iff_exists.mp apartEnd_facts.1
    unfold apartEnd
    rw [hs]
    rfl
  have hreached : Transition.Reachable (· = apartStart) lockstep (fun s i => lockstepOk s i = true) apartEnd :=
    Transition.reachable_of_run lockSteps (.start rfl) (by decide +kernel) hrun
  refine hreached.invariant ?_ ?_
  · rintro s rfl
    exact hstarted
  · intro s i s' hs hok hstep
    refine hs.next (a := .both i drawing drawing) ?_ hstep
    intro c c' hc hc'
    refine ⟨id, id, rfl, ?_⟩
    unfold lockstepOk at hok
    rw [hc] at hok
    exact confined_of_hearsCi hok

theorem elsewhere_unseen_beside_key :
    (told apartEnd.scripts = [some (.written ⟨"infra/service-a/DB_PASSWORD", 1⟩),
        some (.secret ⟨"infra/service-a/DB_PASSWORD", 1, "the value of a secret", 1767225600000, "ci"⟩)] ∧
      apartEnd.shared.secrets.secrets.map (·.path) = ["apps/KEY", "infra/service-a/DB_PASSWORD"] ∧
      apartEnd.shared'.secrets.secrets.map (·.path) = ["infra/service-a/DB_PASSWORD"]) ∧
    apartEnd.shared.app = apartEnd.shared'.app ∧ apartEnd.shared.tokens = apartEnd.shared'.tokens ∧
      (∀ path, Reach path →
        apartEnd.shared.secrets.seen path.text = apartEnd.shared'.secrets.seen path.text) ∧
      ∀ i, nextCall apartEnd.scripts i = nextCall apartEnd.scripts' i ∧
        ∀ result, apartEnd.scripts[i]? = some (Script.done result) ↔
          apartEnd.scripts'[i]? = some (Script.done result) :=
  ⟨apartEnd_facts.2, elsewhere_unseen asciiUnicode_stable (not_reach (by decide +kernel)) apartEnd_beside⟩

end Sample

end Ciphr
