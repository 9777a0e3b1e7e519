import Ciphr.ServerRuns
import Ciphr.SdkClient

/-!
`ciphr-sdk/src/client.rs` and `environment.rs`: everything under a prefix as an environment, which is a
listing and then a read of what was listed.
-/

namespace Ciphr

open Script

variable {u : Unicode}

/-! ### The client -/

/-- Secrets under the names of their variables. -/
structure Environment where
  entries : List (EnvVarName × List UInt8)

/-- `Environment::assemble`: the names come from the paths that the service has served. -/
def Environment.assemble (secrets : List (Secret u)) : Except SdkError Environment := do
  let names ← (EnvVarName.assign (secrets.map (·.path))).mapError .envName
  .ok ⟨names.zip (secrets.map (·.value))⟩

namespace Client

/-- What `Client::list` makes of the reply. -/
def listed (start : SecretPath u) (reply : Delivered) : Except SdkError (List (SecretPath u)) := do
  match ← decode reply start.text with
  | .listing response => response.paths.mapM (parseNamed u)
  | _ => .error .misshapen

/-- `Client::list`. -/
def list (start : SecretPath u) : Sdk (List (SecretPath u)) :=
  ask (.listPaths (.ok start.text) (.ok none)) (listed start)

/-- `Client::environment_of`. -/
def environmentOf (paths : List (SecretPath u)) : Sdk Environment := do
  let _ ← ofExcept ((EnvVarName.assign paths).mapError .envName)
  let secrets ← readAll paths
  ofExcept (Environment.assemble secrets)

/-- `Client::environment`. -/
def environment (start : SecretPath u) : Sdk Environment := do
  let paths ← list start
  if paths.isEmpty then ofExcept (.error (.nothingUnderPrefix start.text))
  else environmentOf paths

/-- The requests of a client that reads secrets below a prefix, once it was told which ones. -/
inductive ReadsBelow (start : SecretPath u) (allowed : SecretPath u → Prop) : ApiRequest → Prop
  | list : ReadsBelow start allowed (.listPaths (.ok start.text) (.ok none))
  | bulk (paths : List (SecretPath u)) (h : ∀ path ∈ paths, allowed path) :
      ReadsBelow start allowed (.exportPaths (.ok (paths.map (·.text))))
  | one (path : SecretPath u) (h : allowed path) :
      ReadsBelow start allowed (.readSecret (.ok path.text) (.ok ⟨none⟩))

/-- What the client is told of a prefix names secrets of a set. -/
def TellsBelow (start : SecretPath u) (allowed : SecretPath u → Prop) (request : ApiRequest)
    (reply : Delivered) : Prop :=
  request = .listPaths (.ok start.text) (.ok none) → ∀ paths, listed start reply = .ok paths →
    ∀ path ∈ paths, allowed path

section Requests

variable {start : SecretPath u} {allowed : SecretPath u → Prop} {T : ApiRequest → Delivered → Prop}

theorem asks_getEach {paths : List (SecretPath u)} (h : ∀ path ∈ paths, allowed path) :
    (getEach paths).Asks T (ReadsBelow start allowed) := by
  induction paths with
  | nil => exact asks_pure
  | cons path paths ih =>
      obtain ⟨hfirst, hrest⟩ := List.forall_mem_cons.mp h
      have hget : (get path).Asks T (ReadsBelow start allowed) := asks_ask (.one path hfirst)
      exact hget.bind fun secret => (ih hrest).bind fun secrets => asks_pure

theorem asks_environmentOf {paths : List (SecretPath u)} (h : ∀ path ∈ paths, allowed path) :
    (environmentOf paths).Asks T (ReadsBelow start allowed) := by
  refine asks_ofExcept.bind fun _ => Asks.bind ?_ fun secrets => asks_ofExcept
  have hbulk : (exportAll paths).Asks T (ReadsBelow start allowed) := asks_ask (.bulk paths h)
  refine hbulk.outcome.bind fun ended => ?_
  split
  · exact asks_pure
  · exact asks_getEach h
  · exact asks_ofExcept

/-- `environment` reads what it was told to be there. -/
theorem asks_environment :
    (environment start).Asks (TellsBelow start allowed) (ReadsBelow start allowed) := by
  refine asks_ask_bind .list fun reply paths htold hlisted => ?_
  split
  · exact asks_ofExcept
  · exact asks_environmentOf (htold rfl paths hlisted)

end Requests

end Client

/-! ### The service -/

namespace ApiCall

/-- Calls that change no row, and read the current versions of no secrets but those of a set. -/
def ReadsAmong (allowed : SecretPath u → Prop) : ApiCall u → Prop
  | .putWithRotation _ _ _ _ | .delete _ _ | .revokeToken _ | .issueToken _ _ _ _ => False
  | .get path version => allowed path ∧ version = none
  | _ => True

end ApiCall

section Service

variable {deployment : Deployment} {headers : Headers} {allowed : SecretPath u → Prop}
  {T : (c : ApiCall u) → c.Reply → Prop} {caller : Caller} {action : Action} {request : RequestContext}

theorem asks_record {entry : Entry} : (record entry : Api u Unit).Asks T (ApiCall.ReadsAmong allowed) :=
  asks_ask trivial

theorem asks_authenticate {bearer : Option String} :
    (deployment.authenticate bearer : Api u _).Asks T (ApiCall.ReadsAmong allowed) := by
  cases bearer with
  | none => exact asks_pure
  | some presented => exact asks_ask trivial

theorem asks_authenticated :
    (deployment.authenticated headers action request : Api u Caller).Asks T
      (ApiCall.ReadsAmong allowed) := by
  refine asks_authenticate.bind fun outcome => ?_
  split
  · exact asks_pure
  · refine Asks.bind ?_ fun _ => asks_ofExcept
    unfold Deployment.recordRejection
    split
    · exact asks_record.bind fun _ => asks_ask trivial
    · exact asks_record

theorem asks_parsePathRecorded {raw : String} :
    (parsePathRecorded caller action request raw : Api u (SecretPath u)).Asks T
      (ApiCall.ReadsAmong allowed) := by
  unfold parsePathRecorded
  split
  · exact asks_pure
  · exact asks_record.bind fun _ => asks_ofExcept

theorem asks_authorizeAndRecord {capability : Capability} {path : SecretPath u} :
    (deployment.authorizeAndRecord caller action capability path request).Asks T
      (ApiCall.ReadsAmong allowed) := by
  have hbait : (deployment.lookForBait (deployment.authorize caller capability path) capability
      path).Asks T (ApiCall.ReadsAmong allowed) := by
    unfold Deployment.lookForBait
    split
    · exact asks_ask trivial
    · exact asks_pure
  have hend : (if (deployment.authorize caller capability path).isAllowed then pure ()
      else ofExcept (.error .forbidden) : Api u Unit).Asks T (ApiCall.ReadsAmong allowed) := by
    split
    · exact asks_pure
    · exact asks_ofExcept
  refine hbait.bind fun bait => asks_record.bind fun _ => ?_
  cases bait with
  | some tier => exact Asks.bind (asks_ask trivial) fun _ => hend
  | none => exact hend

theorem asks_listPaths {start : String} {rotation : Option String} :
    (listPaths deployment headers start rotation : Api u ApiResponse).Asks T
      (ApiCall.ReadsAmong allowed) := by
  refine asks_authenticated.bind fun caller => asks_parsePathRecorded.bind fun start =>
    asks_ofExcept.bind fun wanted => Asks.bind (asks_ask trivial) fun listed => ?_
  exact asks_record.bind fun _ => asks_pure

theorem asks_readSecret {raw : String} (h : ∀ path, parsePath u raw = .ok path → allowed path) :
    (readSecret deployment headers raw ⟨none⟩).Asks T (ApiCall.ReadsAmong allowed) := by
  refine asks_authenticated.bind fun caller => asks_parsePathRecorded.bind_of fun acts path hpath _ => ?_
  have hallowed : allowed path := by
    unfold parsePathRecorded at hpath
    split at hpath
    · rename_i parsed hparsed
      cases (runs_pure_iff.mp hpath).2
      exact h path hparsed
    · obtain ⟨error, -, hended⟩ | ⟨_, _, _, -, -, hended⟩ := runs_bind_iff.mp hpath
      · cases hended
      · cases (runs_ofExcept_iff.mp hended).2
  refine asks_authorizeAndRecord.bind fun _ => asks_ofExcept.bind_of fun acts version hversion _ => ?_
  cases (runs_ofExcept_iff.mp hversion).2
  have hget : (ask (.get path none) fun stored => .ok (stored.mapError ApiError.ofStore) :
      Api u _).Asks T (ApiCall.ReadsAmong allowed) := asks_ask ⟨hallowed, rfl⟩
  refine hget.bind fun stored => ?_
  split
  · exact asks_record.bind fun _ => asks_ofExcept
  · split
    · exact asks_record.bind fun _ => asks_ofExcept
    · exact asks_pure

theorem asks_exporting {paths recorded : List (SecretPath u)} {bytes : Nat}
    {secrets : List ExportedSecret} (h : ∀ path ∈ paths, allowed path) :
    (exportSecrets deployment caller request paths recorded bytes secrets).Asks T
      (ApiCall.ReadsAmong allowed) := by
  induction paths generalizing recorded bytes secrets with
  | nil => exact asks_pure
  | cons path paths ih =>
      obtain ⟨hfirst, hrest⟩ := List.forall_mem_cons.mp h
      have hsecret : (exportSecret deployment path bytes).Asks T (ApiCall.ReadsAmong allowed) := by
        refine Asks.bind (asks_ask ⟨hfirst, rfl⟩) fun stored => asks_ofExcept.bind fun value => ?_
        dsimp only
        split
        · exact asks_ofExcept
        · exact asks_pure
      refine asks_authorizeAndRecord.outcome.bind fun decided => ?_
      split
      · exact asks_pure
      · refine hsecret.outcome.bind fun served => ?_
        split
        · exact asks_pure
        · exact ih hrest

theorem asks_correctExport {status : Nat} {paths : List (SecretPath u)} :
    (correctExport caller request status paths).Asks T (ApiCall.ReadsAmong allowed) := by
  induction paths with
  | nil => exact asks_pure
  | cons path paths ih => exact asks_record.bind fun _ => ih

theorem asks_exportPaths {raw : List String}
    (h : ∀ paths, validateExportPaths u raw = .ok paths → ∀ path ∈ paths, allowed path) :
    (exportPaths deployment headers (.ok raw) : Api u ApiResponse).Asks T
      (ApiCall.ReadsAmong allowed) := by
  refine asks_pure.bind_of fun acts raw' hraw _ => ?_
  cases (runs_pure_iff.mp hraw).2
  refine asks_authenticated.bind fun caller => ?_
  split
  · exact asks_record.bind fun _ => asks_ofExcept
  · rename_i paths hpaths
    refine (asks_exporting (h paths hpaths)).bind fun ended => ?_
    split
    · exact asks_pure
    · exact asks_correctExport.bind fun _ => asks_ofExcept

theorem asks_refusedRequest {reason : String} :
    (refusedRequest deployment headers reason : Api u ApiResponse).Asks T
      (ApiCall.ReadsAmong allowed) := by
  refine asks_authenticate.bind fun outcome => ?_
  split
  · exact asks_record.bind fun _ => asks_ofExcept
  · exact asks_ofExcept

end Service

end Ciphr
