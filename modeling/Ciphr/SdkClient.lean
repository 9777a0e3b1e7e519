import Ciphr.CoreEnvName
import Ciphr.ServerExport

/-!
`ciphr-sdk/src/client.rs` and `error.rs`: the reads of one secret and of several. A request is what
the service makes of it, and an answer is delivered whole or is a failure of the transport.
-/

namespace Ciphr

open Script

/-! ### Errors -/

namespace ApiError

/-- The stable code of an error. -/
def code : ApiError → String
  | .unauthenticated => "unauthenticated"
  | .forbidden => "forbidden"
  | .notFound => "not_found"
  | .badRequest _ => "bad_request"
  | .auditUnavailable => "audit_unavailable"
  | .internal _ => "internal"

/-- The detail that a client is told. -/
def detail : ApiError → Option String
  | .badRequest reason => some reason
  | _ => none

end ApiError

/-- The body of an error, where it is the documented one. -/
structure ErrorWire where
  error : String
  detail : Option String
  deriving DecidableEq, Repr

/-- A rejected extractor answers with a plain text. -/
def HttpError.wire : HttpError → Option ErrorWire
  | .rejection _ => none
  | .api error => some ⟨error.code, error.detail⟩

inductive SdkError where
  | transport (detail : String)
  | unauthenticated
  | forbidden (path : String)
  | notFound (path : String)
  | badRequest (detail : String)
  | auditUnavailable
  | unexpected (status : Option Nat) (detail : String)
  | surfaceEntryUnavailable (route entry : String)
  | path (error : PathError)
  | nothingUnderPrefix (start : String)
  | envName (error : EnvNameError)
  deriving DecidableEq

namespace SdkError

/-- `status_error`: the status decides. -/
def ofStatus (status : Nat) (wire : Option ErrorWire) (subject : String) : SdkError :=
  if status = 400 then
    .badRequest ((wire.bind (·.detail)).getD "the service did not say why")
  else if status = 401 then .unauthenticated
  else if status = 403 then .forbidden subject
  else if status = 404 then .notFound subject
  else if status = 503 then .auditUnavailable
  else if 300 ≤ status ∧ status ≤ 399 then
    .unexpected (some status) ("the service answered with a redirect, which was not followed: this " ++
      "API has no redirect contract, so a 3xx is a transport or " ++
      "configuration failure rather than a hop to take")
  else .unexpected (some status)
    ((wire.map fun wire => "error class \"" ++ wire.error ++ "\"").getD "no error body")

/-- A success whose body is another one than is read. -/
def misshapen : SdkError :=
  .unexpected (some 200) "the response is not the documented shape (Data)"

end SdkError

/-! ### Requests -/

variable {u : Unicode}

/-- What comes back for a request: a failure of the transport, or what the service answered. -/
abbrev Delivered := Except String (Except HttpError ApiResponse)

/-- A part of what a client does. -/
abbrev Sdk (α : Type) := Script ApiRequest (fun _ => Delivered) SdkError α

/-- `decode`, up to the shape of the body. -/
def decode (reply : Delivered) (subject : String) : Except SdkError ApiResponse :=
  match reply with
  | .error detail => .error (.transport detail)
  | .ok (.error error) => .error (.ofStatus error.status error.wire subject)
  | .ok (.ok response) => .ok response

/-- A secret, as the client hands it out. -/
structure Secret (u : Unicode) where
  path : SecretPath u
  version : SecretVersion
  value : List UInt8
  createdAt : Int
  createdBy : String
  deriving DecidableEq

/-- A version from the wire, refusing zero. -/
def parseVersion (version : Nat) : Except SdkError SecretVersion :=
  if version < 2 ^ 32 then
    match SecretVersion.new (.ofNat version) with
    | some version => .ok version
    | none => .error (.unexpected none "the service reported version 0, which does not exist")
  else .error .misshapen

/-- `SecretPath::parse`, of a text that the service or the caller names. -/
def parseNamed (u : Unicode) (text : String) : Except SdkError (SecretPath u) :=
  (SecretPath.parse u text).mapError .path

theorem parseVersion_number (version : SecretVersion) :
    parseVersion version.number = .ok version := by
  have hnumber : (UInt32.ofNat version.number).toNat = version.number := by
    rw [UInt32.toNat_ofNat']
    exact Nat.mod_eq_of_lt version.lt
  have hnew : SecretVersion.new (.ofNat version.number) = some version := by
    unfold SecretVersion.new
    rw [dif_neg]
    · congr 1
      exact SecretVersion.ext hnumber
    · rw [hnumber]
      exact Nat.pos_iff_ne_zero.mp version.pos
  unfold parseVersion
  rw [if_pos version.lt, hnew]

namespace Client

/-- `Client::get`. -/
def get (path : SecretPath u) : Sdk (Secret u) :=
  ask (.readSecret (.ok path.text) (.ok ⟨none⟩)) fun reply => do
    match ← decode reply path.text with
    | .secret wire =>
        let parsed ← parseNamed u wire.path
        let version ← parseVersion wire.version
        .ok ⟨parsed, version, utf8 wire.value, wire.createdAt, wire.createdBy⟩
    | _ => .error .misshapen

/-- The surface entry of the bulk route is read into a `404` of it. -/
def absentExportRoute : SdkError → SdkError
  | .notFound _ => .surfaceEntryUnavailable "POST /v1/export" "bulk_export"
  | other => other

/-- The subject of a refusal: the set that was asked for. -/
def exportSubject (paths : List (SecretPath u)) : String :=
  "one of: " ++ ", ".intercalate (paths.map (·.text))

/-- One secret of an export, which reports nothing but its version. -/
def exportedSecret (u : Unicode) (entry : ExportedSecret) : Except SdkError (Secret u) := do
  let path ← parseNamed u entry.path
  let version ← parseVersion entry.version
  .ok ⟨path, version, utf8 entry.value, 0, ""⟩

/-- What `Client::export` makes of the reply. -/
def exported (paths : List (SecretPath u)) (reply : Delivered) :
    Except SdkError (List (Secret u)) := do
  match ← (decode reply (exportSubject paths)).mapError absentExportRoute with
  | .exported secrets => secrets.mapM (exportedSecret u)
  | _ => .error .misshapen

/-- `Client::export`. -/
def exportAll (paths : List (SecretPath u)) : Sdk (List (Secret u)) :=
  ask (.exportPaths (.ok (paths.map (·.text)))) (exported paths)

/-- One request for each path. -/
def getEach : List (SecretPath u) → Sdk (List (Secret u))
  | [] => return []
  | path :: paths => do
      let secret ← get path
      let secrets ← getEach paths
      return secret :: secrets

/-- `Client::read_all`. -/
def readAll (paths : List (SecretPath u)) : Sdk (List (Secret u)) := do
  match ← (exportAll paths).outcome with
  | .ok secrets => return secrets
  | .error (.surfaceEntryUnavailable _ _) => getEach paths
  | .error other => ofExcept (.error other)

end Client

end Ciphr
