import Ciphr.ServerGate

/-!
`ciphr-server/src/api.rs`: the handlers, and which of them a deployment has a route for. What an
extractor made of a request is an input, and the address of a peer is its text.
-/

namespace Ciphr

open Script

def exportPathsMax : Nat := 256

def exportBytesMax : Nat := 1024 * 1024

def auditLimitMax : UInt32 := 1000

def auditLimitDefault : UInt32 := 100

variable {u : Unicode}

/-! ### Wire shapes -/

structure SecretBody where
  value : String
  rotation : Option String

structure SecretResponse where
  path : String
  version : Nat
  value : String
  createdAt : Int
  createdBy : String
  deriving DecidableEq, Repr

structure WriteResponse where
  path : String
  version : Nat
  deriving DecidableEq, Repr

structure RotationResponse where
  rotationClass : String
  needsCare : Bool
  advice : String
  deriving DecidableEq, Repr

structure VersionResponse where
  version : Nat
  createdAt : Int
  createdBy : String
  deleted : Bool
  destroyed : Bool
  deriving DecidableEq, Repr

structure VersionsResponse where
  path : String
  rotation : RotationResponse
  versions : List VersionResponse
  deriving DecidableEq, Repr

structure ListEntry where
  path : String
  rotation : String
  deriving DecidableEq, Repr

structure ListResponse where
  start : String
  paths : List String
  entries : List ListEntry
  deriving DecidableEq, Repr

structure ExportedSecret where
  path : String
  version : Nat
  value : String
  deriving DecidableEq, Repr

/-- The query of `GET /v1/audit`; `page` is its `end`. -/
structure AuditQuery where
  limit : Option UInt32
  page : Option String
  afterSeq : Option UInt64
  beforeSeq : Option UInt64
  since : Option Int
  identity : Option String
  path : Option String
  decision : Option String

structure AuditEntryResponse where
  seq : Nat
  hash : String
  record : String
  deriving DecidableEq, Repr

structure IdentityResponse where
  name : String
  kind : String
  policies : List String
  deriving DecidableEq, Repr

structure RuleResponse where
  path : String
  capabilities : List String
  specificity : Nat
  deriving DecidableEq, Repr

structure PolicyResponse where
  name : String
  rules : List RuleResponse
  deriving DecidableEq, Repr

structure TokenResponse where
  tokenId : String
  identity : String
  state : String
  createdAt : Int
  createdBy : String
  expiresAt : Option Int
  lastUsedAt : Option Int
  revokedAt : Option Int
  honeypot : Bool
  deriving DecidableEq, Repr

structure RevokeResponse where
  tokenId : String
  identity : String
  revokedNow : Bool
  deriving DecidableEq, Repr

structure OidcLoginRequest where
  idToken : String
  ttlSeconds : Option UInt32

structure OidcLoginResponse where
  token : String
  tokenId : String
  identity : String
  expiresAt : Int
  deriving DecidableEq, Repr

structure HoneypotResponse where
  kind : String
  path : Option String
  tokenId : Option String
  identity : Option String
  tier : String
  tripped : Bool
  deriving DecidableEq, Repr

structure TripResponse where
  trippedAt : Int
  kind : String
  path : Option String
  tokenId : Option String
  identity : Option String
  tier : String
  deriving DecidableEq, Repr

structure Health where
  status : String
  isSealed : Bool
  sealedBy : String
  keySource : String
  auditDevices : List DeviceHealth
  surface : List String
  tripped : Option Bool
  openTripwires : Option Nat
  degraded : List String
  apiVersion : String
  deriving DecidableEq, Repr

inductive ApiResponse where
  | health (health : Health)
  | secret (response : SecretResponse)
  | written (response : WriteResponse)
  | noContent
  | versions (response : VersionsResponse)
  | listing (response : ListResponse)
  | exported (secrets : List ExportedSecret)
  | surface (entries : List ActiveEntry)
  | honeypots (honeypots : List HoneypotResponse) (openTrips : List TripResponse)
  | audit (entries : List AuditEntryResponse)
  | identities (identities : List IdentityResponse)
  | policies (policies : List PolicyResponse)
  | tokens (tokens : List TokenResponse)
  | revoked (response : RevokeResponse)
  | loggedIn (response : OidcLoginResponse)
  deriving DecidableEq, Repr

/-! ### Virtual paths -/

inductive ReservedName where
  | audit
  | identities
  | policies
  | surface
  | honeypots
  | tokens
  deriving DecidableEq, Repr

def ReservedName.asStr : ReservedName → String
  | .audit => "audit"
  | .identities => "identities"
  | .policies => "policies"
  | .surface => "surface"
  | .honeypots => "honeypots"
  | .tokens => "tokens"

/-- The virtual administrative paths: literals that satisfy the path rules. -/
class ReservedPaths (u : Unicode) where
  path : ReservedName → SecretPath u
  text_path : ∀ name, (path name).text = reservedPrefix ++ "/" ++ name.asStr

def reservedPath [ReservedPaths u] (name : ReservedName) : SecretPath u := ReservedPaths.path name

/-! ### Handlers -/

section Handlers

variable (deployment : Deployment) (headers : Headers)

def decryptToText (stored : StoredVersion u) : Except ApiError String := do
  let plaintext ← (decrypt deployment.aead deployment.root stored.path stored.version
    stored.value).mapError fun error => .ofCrypto error.text
  match Rust.fromUtf8 plaintext with
  | some text => .ok text
  | none => .error (.internal "a stored value is not valid UTF-8; read it with the CLI")

def health : Api u ApiResponse := do
  let tripwire ←
    if deployment.honeypotAlert then
      ask .openTripCount fun count => .ok (count.toOption.map fun count => (decide (0 < count), count))
    else pure none
  let devices ← ask .auditDevices .ok
  let degraded := if deployment.honeypotAlert && tripwire.isNone then ["tripwires"] else []
  return .health
    { status := if degraded.isEmpty then "ok" else "degraded"
      isSealed := false
      sealedBy := deployment.sealId
      keySource := deployment.keySource
      auditDevices := devices
      surface := deployment.surface.map (·.name)
      tripped := tripwire.map (·.1)
      openTripwires := tripwire.map (·.2)
      degraded := degraded
      apiVersion := "v1" }

/-- What follows the decision in `read_secret`. -/
def serveSecret (caller : Caller) (path : SecretPath u) (version : Option SecretVersion) :
    Api u ApiResponse := do
  let request := headers.requestContext
  match ← ask (.get path version) fun stored => .ok (stored.mapError ApiError.ofStore) with
  | .error error => do
      let reason := if error.status = 404 then "not-found" else "not-served"
      recordOutcome caller .read (some path) request error.status (some reason)
      ofExcept (.error error)
  | .ok stored =>
      match decryptToText deployment stored with
      | .error error => do
          recordOutcome caller .read (some path) request error.status (some "not-served")
          ofExcept (.error error)
      | .ok value =>
          return .secret ⟨stored.path.text, stored.version.number, value, stored.createdAt,
            stored.createdBy⟩

/-- `GET /v1/secrets/{path}`. -/
def readSecret (path : String) (query : VersionQuery) : Api u ApiResponse := do
  let request := headers.requestContext
  let caller ← deployment.authenticated headers .read request
  let path ← parsePathRecorded caller .read request path
  deployment.authorizeAndRecord caller .read .read path request
  let version ← ofExcept query.parsed
  serveSecret deployment headers caller path version

/-- The callback that encrypts the value of a write for the version it becomes. -/
def encryptBody (path : SecretPath u) (value : String) (draws : ValueDraws) :
    SecretTables.EncryptForVersion := fun version =>
  encrypt deployment.aead deployment.root path version (utf8 value) draws

/-- What follows the decisions in `write_secret`. -/
def storeSecret (caller : Caller) (path : SecretPath u) (rotation : Option Rotation)
    (value : String) : Api u ApiResponse := do
  let request := headers.requestContext
  let call := ApiCall.putWithRotation path caller.identity rotation (encryptBody deployment path value)
  match ← ask call fun stored => .ok (stored.mapError ApiError.ofStore) with
  | .error error => do
      recordOutcome caller .write (some path) request error.status (some "write-failed")
      if rotation.isSome then
        recordOutcome caller .classify (some path) request error.status (some "classify-failed")
      else pure ()
      ofExcept (.error error)
  | .ok version => return .written ⟨path.text, version.number⟩

/-- `PUT /v1/secrets/{path}`. -/
def writeSecret (path : String) (body : Except String SecretBody) : Api u ApiResponse := do
  let body ← auditedJson deployment headers .write body
  let request := headers.requestContext
  let caller ← deployment.authenticated headers .write request
  let path ← parsePathRecorded caller .write request path
  ofExcept (refuseReserved path)
  let rotation ← ofExcept (parseRotation body.rotation)
  deployment.authorizeAndRecord caller .write .write path request
  -- both decisions before the one mutation
  if rotation.isSome then deployment.authorizeAndRecord caller .classify .write path request
  else pure ()
  storeSecret deployment headers caller path rotation body.value

/-- The version that `delete_secret` was asked for, or else the current one. -/
def deletedVersion (path : SecretPath u) (query : VersionQuery) : Api u SecretVersion := do
  match ← ofExcept query.parsed with
  | some version => return version
  | none => do
      let metadata ← ask (.metadata path) (·.mapError .ofStore)
      match metadata.currentVersion with
      | some version => return version
      | none => ofExcept (.error .notFound)

/-- `DELETE /v1/secrets/{path}`. -/
def deleteSecret (path : String) (query : VersionQuery) : Api u ApiResponse := do
  let request := headers.requestContext
  let caller ← deployment.authenticated headers .delete request
  let path ← parsePathRecorded caller .delete request path
  ofExcept (refuseReserved path)
  deployment.authorizeAndRecord caller .delete .delete path request
  completeOrRecord caller .delete path request "delete-failed" do
    let version ← deletedVersion path query
    ask (.delete path version) (·.mapError .ofStore)
  return .noContent

/-- `GET /v1/versions/{path}`. -/
def listVersions (path : String) : Api u ApiResponse := do
  let request := headers.requestContext
  let caller ← deployment.authenticated headers .list request
  let path ← parsePathRecorded caller .list request path
  deployment.authorizeAndRecord caller .list .list path request
  let history ← completeOrRecord caller .list path request "not-listed"
    (ask (.history path) (·.mapError .ofStore))
  return .versions
    { path := path.text
      rotation := ⟨history.1.rotation.asStr, history.1.rotation.needsCare, history.1.rotation.advice⟩
      versions := history.2.map fun summary =>
        ⟨summary.version.number, summary.createdAt, summary.createdBy, summary.deletedAt.isSome,
          summary.destroyedAt.isSome⟩ }

/-- The paths of a listing that a caller may see, and asked for. -/
def visibleEntries (caller : Caller) (wanted : Option Rotation) (listed : List (ListedSecret u)) :
    List ListEntry :=
  ((listed.filter fun secret => (deployment.authorize caller .list secret.path).isAllowed).filter
    fun secret => wanted.all (secret.rotation == ·)).map fun secret =>
      ⟨secret.path.text, secret.rotation.asStr⟩

/-- `GET /v1/list/{prefix}`. -/
def listPaths (start : String) (rotation : Option String) : Api u ApiResponse := do
  let request := headers.requestContext
  let caller ← deployment.authenticated headers .list request
  let start ← parsePathRecorded caller .list request start
  let wanted ← ofExcept (parseRotation rotation)
  let listed ← ask (ApiCall.listWithRotation (some start)) (·.mapError .ofStore)
  let visible := visibleEntries deployment caller wanted listed
  recordListing caller start request visible.length
  return .listing ⟨start.text, visible.map (·.path), visible⟩

/-- The loop of `validate_export_paths`. -/
def pushExportPath (paths : List (SecretPath u)) (raw : String) :
    Except ApiError (List (SecretPath u)) := do
  let path ← parsePath u raw
  if paths.any (·.text == path.text) then
    .error (.badRequest (path.text ++ " is requested more than once"))
  else .ok (paths ++ [path])

def validateExportPaths (u : Unicode) (raw : List String) : Except ApiError (List (SecretPath u)) :=
  if raw.isEmpty then .error (.badRequest "no paths requested")
  else if exportPathsMax < raw.length then
    .error (.badRequest (toString raw.length ++ " paths requested; at most " ++
      toString exportPathsMax ++ " in one export"))
  else raw.foldlM pushExportPath []

/-- One path of an export, after its decision: the value, and how many bytes there are so far. -/
def exportSecret (path : SecretPath u) (bytes : Nat) : Api u (ExportedSecret × Nat) := do
  let stored ← ask (.get path none) (·.mapError .ofStore)
  let value ← ofExcept (decryptToText deployment stored)
  let bytes := min (bytes + value.utf8ByteSize) (2 ^ 64 - 1)
  if exportBytesMax < bytes then
    ofExcept (.error (.badRequest ("this export exceeds " ++ toString exportBytesMax ++
      " bytes of values; request fewer paths")))
  else return (⟨stored.path.text, stored.version.number, value⟩, bytes)

/-- The loop of `export_secrets`, with the paths whose decision is on the trail already. -/
def exportSecrets (caller : Caller) (request : RequestContext) : List (SecretPath u) →
    (recorded : List (SecretPath u)) → (bytes : Nat) → (secrets : List ExportedSecret) →
    Api u (List (SecretPath u) × Except ApiError (List ExportedSecret))
  | [], recorded, _, secrets => return (recorded, .ok secrets)
  | path :: paths, recorded, bytes, secrets => do
      match ← (deployment.authorizeAndRecord caller .read .read path request).outcome with
      | .error error => return (recorded, .error error)
      | .ok () => do
          let recorded := recorded ++ [path]
          match ← (exportSecret deployment path bytes).outcome with
          | .error error => return (recorded, .error error)
          | .ok (secret, bytes) =>
              exportSecrets caller request paths recorded bytes (secrets ++ [secret])

/-- One correcting entry for each path whose decision was recorded. -/
def correctExport (caller : Caller) (request : RequestContext) (status : Nat) :
    List (SecretPath u) → Api u Unit
  | [] => return ()
  | path :: paths => do
      recordOutcome caller .read (some path) request status (some "not-served")
      correctExport caller request status paths

/-- `export` after the request has been checked. -/
def serveExport (caller : Caller) (paths : List (SecretPath u)) : Api u ApiResponse := do
  let request := headers.requestContext
  let ended ← exportSecrets deployment caller request paths [] 0 []
  match ended.2 with
  | .ok secrets => return .exported secrets
  | .error error => do
      correctExport caller request error.status ended.1
      ofExcept (.error error)

/-- `POST /v1/export`. -/
def exportPaths (body : Except String (List String)) : Api u ApiResponse := do
  let raw ← auditedJson deployment headers .read body
  let request := headers.requestContext
  let caller ← deployment.authenticated headers .read request
  match validateExportPaths u raw with
  | .error refused => do
      recordRefusal caller .read request refused.status "malformed-export"
      ofExcept (.error refused)
  | .ok paths => serveExport deployment headers caller paths

variable [ReservedPaths u]

/-- The opening of the handlers of a virtual path. -/
def inspecting (name : ReservedName) (serve : Caller → SecretPath u → Api u ApiResponse) :
    Api u ApiResponse := do
  let request := headers.requestContext
  let caller ← deployment.authenticated headers .read request
  let path := reservedPath name
  deployment.authorizeAndRecord caller .read .inspect path request
  serve caller path

/-- `GET /v1/surface`. -/
def readSurface : Api u ApiResponse :=
  inspecting deployment headers .surface fun _ _ => return .surface deployment.surface

/-- `GET /v1/honeypots`. -/
def readHoneypots : Api u ApiResponse :=
  inspecting deployment headers .honeypots fun caller path => do
    let (bait, trips) ← completeOrRecord caller .read path headers.requestContext "not-served"
      (ask .honeypots (·.mapError .ofStore))
    return .honeypots
      (bait.map fun one =>
        ⟨one.kind.asStr, one.path, one.tokenId, one.identity, one.tier.asStr, one.tripped⟩)
      (trips.map fun trip =>
        ⟨trip.trippedAt, trip.kind.asStr, trip.path, trip.tokenId, trip.identity, trip.tier.asStr⟩)

def wantedDecision : Option String → Except ApiError (Option Bool)
  | none => .ok none
  | some "allow" => .ok (some true)
  | some "deny" => .ok (some false)
  | some _ => .error (.badRequest "decision must be 'allow' or 'deny'")

def takesNewest : Option String → Except ApiError Bool
  | some "newest" => .ok true
  | none | some "oldest" => .ok false
  | some _ => .error (.badRequest "end must be 'oldest' or 'newest'")

/-- The window the query asks for, or the reason it asks for nothing coherent. -/
def auditWindow (query : AuditQuery) : Except ApiError AuditWindow := do
  let newest ← takesNewest query.page
  match query.afterSeq, query.beforeSeq with
  | some _, some _ =>
      .error (.badRequest "after_seq and before_seq page in opposite directions; pass one")
  | some afterSeq, none =>
      if newest then
        .error (.badRequest ("after_seq pages forward from the oldest end; " ++
          "use before_seq with end=newest"))
      else .ok (.oldest (some afterSeq))
  | none, some beforeSeq => .ok (.newest (some beforeSeq))
  | none, none => .ok (if newest then .newest none else .oldest none)

def auditFilter (query : AuditQuery) : Except ApiError AuditFilter := do
  let allowed ← wantedDecision query.decision
  let window ← auditWindow query
  .ok ⟨max 1 (min (query.limit.getD auditLimitDefault) auditLimitMax), window, query.since,
    query.identity, query.path, allowed⟩

def auditEntryResponse (row : Database.Row) : Except ApiError AuditEntryResponse :=
  match deployment.rawValue row.payload with
  | .ok () => .ok ⟨row.seq, Hex.encode row.hash.toList, row.payload⟩
  | .error error => .error (.internal ("a stored audit record is not readable: " ++ error))

/-- `GET /v1/audit`. -/
def readAudit (query : AuditQuery) : Api u ApiResponse :=
  inspecting deployment headers .audit fun caller path => do
    let filter ← ofExcept (auditFilter query)
    let entries ← completeOrRecord caller .read path headers.requestContext "not-served" do
      let rows ← ask (.auditQuery filter) (·.mapError .ofStore)
      ofExcept (rows.mapM (auditEntryResponse deployment))
    return .audit entries

/-- `GET /v1/identities`. -/
def readIdentities : Api u ApiResponse :=
  inspecting deployment headers .identities fun _ _ =>
    return .identities
      ((deployment.policies.identities.insertionSort fun one other =>
        collate one.name ≤ collate other.name).map fun identity =>
          ⟨identity.name, identity.kind.asStr, identity.policies⟩)

/-- `GET /v1/policies`. -/
def readPolicies : Api u ApiResponse :=
  inspecting deployment headers .policies fun _ _ =>
    return .policies
      ((deployment.policies.policies.insertionSort fun one other =>
        collate one.name ≤ collate other.name).map fun policy =>
          ⟨policy.name, policy.rules.map fun rule =>
            ⟨rule.pattern.text,
              (Capability.all.filter fun capability => decide (capability ∈ rule.capabilities)).map
                Capability.asStr,
              rule.pattern.specificity⟩⟩)

/-- `GET /v1/tokens`. -/
def readTokens (identity : Option String) : Api u ApiResponse :=
  inspecting deployment headers .tokens fun _ _ => do
    let now ← ask .nowMillis .ok
    let records ← ask (.tokens identity) (·.mapError .ofStore)
    return .tokens (records.map fun record =>
      ⟨record.tokenId, record.identity, (record.stateAt now).asStr, record.createdAt,
        record.createdBy, record.expiresAt, record.lastUsedAt, record.revokedAt, record.honeypot⟩)

/-- Whose credential a revocation stops. -/
def TokenRecord.asSubject (record : TokenRecord) : Principal :=
  ⟨record.identity, none, some record.tokenId⟩

/-- `POST /v1/tokens/{token_id}/revoke`. -/
def revokeToken (tokenId : String) : Api u ApiResponse := do
  let request := headers.requestContext
  let caller ← deployment.authenticated headers .revokeToken request
  let path : SecretPath u := reservedPath .tokens
  let record ← ask (.token tokenId) (·.mapError .ofStore)
  deployment.authorizeAndRecordSubject caller .revokeToken .revoke path
    (record.map TokenRecord.asSubject) request
  match record with
  | none => ofExcept (.error .notFound)
  | some found => do
      let revokedNow ← completeOrRecord caller .revokeToken path request "revoke-failed"
        (ask (.revokeToken tokenId) (·.mapError .ofStore))
      return .revoked ⟨tokenId, found.identity, revokedNow⟩

end Handlers

/-! ### Federated login -/

inductive Federated where
  | minted (identity tokenId : String)
  | refused (reason : String)
  deriving DecidableEq, Repr

section Login

variable (deployment : Deployment) (headers : Headers)

/-- The entry of a verified exchange; the principal is the provider. -/
def federationEntry [ReservedPaths u] (provider : String) (subject : Option String)
    (outcome : Federated) (status : Nat) (request : RequestContext) : Entry :=
  let entry := match outcome with
    | .minted identity tokenId =>
        (Entry.permitted .federateToken).withSubject
          ⟨identity, deployment.kindOf identity, some tokenId⟩
    | .refused reason => .denied .federateToken reason
  let entry := (entry.withPrincipal ⟨"oidc:" ++ provider, some "oidc", none⟩).withPath
    (reservedPath .tokens : SecretPath u)
  let entry := match subject with
    | some subject => entry.withDetail ("sub: " ++ subject)
    | none => entry
  entry.withRequest (request.withStatus status)

def recordFederation [ReservedPaths u] (provider : String) (subject : Option String)
    (outcome : Federated) (status : Nat) (request : RequestContext) : Api u Unit :=
  record (federationEntry (u := u) deployment provider subject outcome status request)

/-- The lifetime a login asks for, in milliseconds. -/
def askedMillis : Option UInt32 → Except ApiError (Option Int)
  | none => .ok none
  | some seconds =>
      let asked := Rust.saturatingMul seconds.toNat 1000
      if asked < 1000 then
        .error (.badRequest "ttl_seconds must be at least 1; omit it for the configured lifetime")
      else .ok (some asked)

/-- The row of a token that an exchange resolved to. -/
def storeFederatedToken (identity : String) (token : Token) (provider : String) (expiresAt : Int) :
    Api u (Except ApiError Unit) :=
  ask (.issueToken identity token ("oidc:" ++ provider) expiresAt) fun stored =>
    .ok (stored.mapError .ofStore)

variable [ReservedPaths u]

/-- `oidc_login` once the exchange is accepted: the token is generated, recorded and then stored. -/
def mintToken (accepted : Oidc.Accepted) (asked : Option Int) (now : Int) : Api u ApiResponse := do
  let request := headers.requestContext
  -- less on request, never more
  let ttl := (asked.map (min · accepted.ttlMs)).getD accepted.ttlMs
  let expiresAt := Rust.saturatingAdd now ttl
  let token ← ask .generateToken fun token =>
    match token with
    | some token => .ok token
    | none => .error
        (.internal "the operating system provided no randomness for a federated token")
  let tokenId := token.id.asText
  recordFederation deployment accepted.provider (some accepted.subject)
    (.minted accepted.identity tokenId) 200 request
  match ← storeFederatedToken accepted.identity token accepted.provider expiresAt with
  | .error error => do
      recordFederation deployment accepted.provider (some accepted.subject) (.refused "mint-failed")
        error.status request
      ofExcept (.error error)
  | .ok () => return .loggedIn ⟨token.exposeText, tokenId, accepted.identity, expiresAt⟩

/-- `POST /v1/auth/oidc/login`. -/
def oidcLogin (body : Except String OidcLoginRequest) : Api u ApiResponse := do
  let body ← auditedJson deployment headers .federateToken body
  let request := headers.requestContext
  let now ← ask .nowMillis .ok
  let asked ← ofExcept (askedMillis body.ttlSeconds)
  match deployment.federation.exchange deployment.libraries body.idToken now with
  | .unverifiable _ => ofExcept (.error .unauthenticated)
  | .refused provider subject reason => do
      recordFederation deployment provider subject (.refused reason.asStr) 401 request
      ofExcept (.error .unauthenticated)
  | .accepted accepted => mintToken deployment headers accepted asked now

end Login

/-! ### Routes -/

/-- What a request is answered with that gets no result: the rejection of an extractor, which `axum`
answers with the status 400, or an error of the API. -/
inductive HttpError where
  | rejection (text : String)
  | api (error : ApiError)
  deriving DecidableEq, Repr

def HttpError.status : HttpError → Nat
  | .rejection _ => 400
  | .api error => error.status

/-- What an extractor makes of a part of a request. -/
abbrev Extracted (α : Type) := Except String α

inductive ApiRequest where
  | health
  | readSecret (path : Extracted String) (query : Extracted VersionQuery)
  | writeSecret (path : Extracted String) (body : Except String SecretBody)
  | deleteSecret (path : Extracted String) (query : Extracted VersionQuery)
  | listVersions (path : Extracted String)
  | listPaths (start : Extracted String) (rotation : Extracted (Option String))
  | exportPaths (body : Except String (List String))
  | readSurface
  | readHoneypots
  | readAudit (query : Extracted AuditQuery)
  | readIdentities
  | readPolicies
  | readTokens (identity : Extracted (Option String))
  | revokeToken (tokenId : Extracted String)
  | oidcLogin (body : Except String OidcLoginRequest)
  /-- A path that no route matches, or a method that a matched route does not have. -/
  | unmatched (reason : String)

namespace ApiRequest

/-- Whether `router` has registered the route of a request. -/
def registered (deployment : Deployment) : ApiRequest → Bool
  | .readAudit _ | .readIdentities | .readPolicies => deployment.has "viewer_api"
  | .exportPaths _ => deployment.has "bulk_export"
  | .readTokens _ => deployment.has "token_status"
  | .revokeToken _ => deployment.has "token_revoke"
  | .oidcLogin _ => deployment.has oidcSurfaceEntry
  | .readHoneypots => deployment.honeypotAlert
  | _ => true

end ApiRequest

abbrev Served (u : Unicode) := Script (ApiCall u) ApiCall.Reply HttpError ApiResponse

/-- A handler behind an extractor. -/
def extracting {α : Type} (extracted : Extracted α) (handler : α → Served u) : Served u :=
  match extracted with
  | .ok a => handler a
  | .error text => ofExcept (.error (.rejection text))

section Routes

variable (deployment : Deployment) (headers : Headers) [ReservedPaths u]

/-- The handler of a request that has a route. -/
def handle : ApiRequest → Served u
  | .health => (health deployment).mapError .api
  | .readSecret path query =>
      extracting path fun path => extracting query fun query =>
        (readSecret deployment headers path query).mapError .api
  | .writeSecret path body =>
      extracting path fun path => (writeSecret deployment headers path body).mapError .api
  | .deleteSecret path query =>
      extracting path fun path => extracting query fun query =>
        (deleteSecret deployment headers path query).mapError .api
  | .listVersions path =>
      extracting path fun path => (listVersions deployment headers path).mapError .api
  | .listPaths start rotation =>
      extracting start fun start => extracting rotation fun rotation =>
        (listPaths deployment headers start rotation).mapError .api
  | .exportPaths body => (exportPaths deployment headers body).mapError .api
  | .readSurface => (readSurface deployment headers).mapError .api
  | .readHoneypots => (readHoneypots deployment headers).mapError .api
  | .readAudit query => extracting query fun query => (readAudit deployment headers query).mapError .api
  | .readIdentities => (readIdentities deployment headers).mapError .api
  | .readPolicies => (readPolicies deployment headers).mapError .api
  | .readTokens identity =>
      extracting identity fun identity => (readTokens deployment headers identity).mapError .api
  | .revokeToken tokenId =>
      extracting tokenId fun tokenId => (revokeToken deployment headers tokenId).mapError .api
  | .oidcLogin body => (oidcLogin deployment headers body).mapError .api
  | .unmatched reason => (refusedRequest deployment headers reason).mapError .api

/-- What a request comes to. -/
def serve (request : ApiRequest) : Served u :=
  if request.registered deployment then handle deployment headers request
  else (refusedRequest deployment headers "unmatched-route").mapError .api

end Routes

end Ciphr
