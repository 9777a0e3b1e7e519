import Ciphr.ServerCall

/-!
`ciphr-server/src/state.rs`, the methods the handlers call, and the request handling that
`ciphr-server/src/api.rs` shares between them: who is calling, what was decided, and what of it is
recorded.
-/

namespace Ciphr

open Script

variable {u : Unicode}

/-! ### Requests -/

/-- `HeaderValue::to_str`: nothing unless every byte is visible ASCII. -/
def headerText (value : List UInt8) : Option String :=
  if value.all fun byte => 32 ≤ byte && byte < 127 || byte == 9 then
    some (String.ofList (value.map fun byte => Char.ofNat byte.toNat))
  else none

/-- The headers that are looked at, and the canonical text of the peer's address. -/
structure Headers where
  authorization : Option (List UInt8)
  requestId : Option (List UInt8)
  userAgent : Option (List UInt8)
  clientIp : Option String

namespace Headers

/-- The bearer token, if the request carries one. -/
def bearerToken (headers : Headers) : Option String :=
  ((headers.authorization.bind headerText).bind (Rust.stripPrefix "Bearer ")).map Rust.trim

/-- What the trail records about where a request came from. -/
def requestContext (headers : Headers) : RequestContext where
  requestId := (headers.requestId.bind headerText).map fun text => String.ofList (text.toList.take 128)
  clientIp := headers.clientIp
  userAgent := (headers.userAgent.bind headerText).map fun text => String.ofList (text.toList.take 256)
  httpStatus := none
  channel := none

end Headers

/-- The context of a request, with the status its entry carries. -/
def RequestContext.withStatus (request : RequestContext) (status : Nat) : RequestContext :=
  { request with httpStatus := some status }

/-! ### Callers -/

/-- A honeypot token that was presented. -/
structure Bait where
  tokenId : String
  identity : String
  deriving DecidableEq, Repr

/-- Why a request has no caller. -/
structure Rejection where
  error : ApiError
  bait : Option Bait
  deriving DecidableEq, Repr

def Rejection.plain (error : ApiError) : Rejection := ⟨error, none⟩

/-- Who is making a request, once their token has been checked. -/
structure Caller where
  identity : String
  tokenId : String
  kind : Option String
  deriving DecidableEq, Repr

def Caller.asPrincipal (caller : Caller) : Principal :=
  ⟨caller.identity, caller.kind, some caller.tokenId⟩

namespace Deployment

variable (deployment : Deployment)

/-- The kind the policy file gives an identity. -/
def kindOf (identity : String) : Option String :=
  (deployment.policies.identity identity).map (·.kind.asStr)

/-- What an answer of the token table says of whoever presented the token. -/
def identify : Except StoreError Authentication → Except Rejection Caller
  | .error error => .error (.plain (.ofStore error))
  | .ok .invalid => .error (.plain .unauthenticated)
  | .ok (.bait tokenId identity) => .error ⟨.unauthenticated, some ⟨tokenId, identity⟩⟩
  | .ok (.valid one) => .ok ⟨one.identity, one.tokenId, deployment.kindOf one.identity⟩

/-- `AppState::authenticate`. -/
def authenticate : Option String → Api u (Except Rejection Caller)
  | none => pure (.error (.plain .unauthenticated))
  | some presented => ask (.authenticate presented) fun outcome => .ok (deployment.identify outcome)

/-- Ask the policy evaluator. -/
def authorize (caller : Caller) (capability : Capability) (path : SecretPath u) : Decision :=
  deployment.policies.evaluate caller.identity path capability

end Deployment

/-! ### Entries -/

def record (entry : Entry) : Api u Unit := ask (.record entry) id

def DenyReason.asStr : DenyReason → String
  | .unknownIdentity => "unknown-identity"
  | .noMatchingRule => "no-matching-rule"
  | .notGranted => "not-granted"
  | .tie => "tie"

/-- `Entry::with_subject`, where there is one. -/
def Entry.withSubject? (entry : Entry) : Option Principal → Entry
  | some subject => entry.withSubject subject
  | none => entry

def Entry.withRule? (entry : Entry) : Option MatchedRule → Entry
  | some rule => entry.withRule rule.policy rule.pattern
  | none => entry

/-- The entry of a decision. A trip replaces the action of the entry, which then says in its detail
what was attempted. -/
def decisionEntry (caller : Caller) (action : Action) (path : SecretPath u)
    (subject : Option Principal) (request : RequestContext) (decision : Decision)
    (bait : Option HoneypotTier) : Entry :=
  let entry :=
    if decision.isAllowed then
      match bait with
      | some _ => (Entry.permitted .honeypotTriggered).withDetail ("attempted: " ++ action.asStr)
      | none => .permitted action
    else .denied action ((decision.reason.map DenyReason.asStr).getD "denied")
  let entry := (entry.withPrincipal caller.asPrincipal).withPath path
  let entry := (entry.withSubject? subject).withRule? decision.rule
  entry.withRequest (request.withStatus (if decision.isAllowed then 200 else 403))

def outcomeEntry (caller : Caller) (action : Action) (path : Option (SecretPath u))
    (request : RequestContext) (status : Nat) (reason : Option String) : Entry :=
  let entry := match reason with
    | none => Entry.permitted action
    | some reason => .denied action reason
  let entry := entry.withPrincipal caller.asPrincipal
  let entry := match path with
    | some path => entry.withPath path
    | none => entry
  entry.withRequest (request.withStatus status)

def refusalEntry (caller : Caller) (attempted : Action) (request : RequestContext) (status : Nat)
    (reason : String) : Entry :=
  (((Entry.denied .requestRefused reason).withPrincipal caller.asPrincipal).withDetail
    ("attempted: " ++ attempted.asStr)).withRequest (request.withStatus status)

def listingEntry (caller : Caller) (start : SecretPath u) (request : RequestContext)
    (returned : Nat) : Entry :=
  ((((Entry.permitted .list).withPrincipal caller.asPrincipal).withPath start).withResults
    returned).withRequest (request.withStatus 200)

def unauthenticatedEntry (action : Action) (request : RequestContext) : Entry :=
  (Entry.denied action "unauthenticated").withRequest (request.withStatus 401)

def baitEntry (action : Action) (request : RequestContext) (bait : Bait) : Entry :=
  (((Entry.denied .honeypotTriggered "unauthenticated").withSubject
    ⟨bait.identity, none, some bait.tokenId⟩).withDetail
      ("attempted: " ++ action.asStr)).withRequest (request.withStatus 401)

/-! ### Recording -/

def recordOutcome (caller : Caller) (action : Action) (path : Option (SecretPath u))
    (request : RequestContext) (status : Nat) (reason : Option String) : Api u Unit :=
  record (outcomeEntry caller action path request status reason)

def recordRefusal (caller : Caller) (attempted : Action) (request : RequestContext) (status : Nat)
    (reason : String) : Api u Unit :=
  record (refusalEntry caller attempted request status reason)

def recordListing (caller : Caller) (start : SecretPath u) (request : RequestContext)
    (returned : Nat) : Api u Unit :=
  record (listingEntry caller start request returned)

/-- Spawn the task that opens a trip. -/
def latch (kind : BaitKind) (reference : String) (identity : Option String) (tier : HoneypotTier) :
    Api u Unit :=
  ask (.latchOffTheRequestPath kind reference identity tier) .ok

/-- Run the work that an allowed decision authorized, and record that it did not happen if it did
not. -/
def completeOrRecord {α : Type} (caller : Caller) (action : Action) (path : SecretPath u)
    (request : RequestContext) (reason : String) (work : Api u α) : Api u α := do
  match ← work.outcome with
  | .ok value => return value
  | .error error => do
      recordOutcome caller action (some path) request error.status (some reason)
      ofExcept (.error error)

namespace Deployment

variable (deployment : Deployment)

/-- The bait a read would take. -/
def lookForBait (decision : Decision) (capability : Capability) (path : SecretPath u) :
    Api u (Option HoneypotTier) :=
  if deployment.honeypotAlert && decision.isAllowed && capability == .read then
    ask (.honeypotTier path) (·.mapError .ofStore)
  else pure none

/-- Authorize an access and audit the decision in one step. -/
def authorizeAndRecordSubject (caller : Caller) (action : Action) (capability : Capability)
    (path : SecretPath u) (subject : Option Principal) (request : RequestContext) : Api u Unit := do
  let decision := deployment.authorize caller capability path
  let bait ← deployment.lookForBait decision capability path
  record (decisionEntry caller action path subject request decision bait)
  match bait with
  | some tier => latch .secret path.text (some caller.identity) tier
  | none => pure ()
  if decision.isAllowed then return () else ofExcept (.error .forbidden)

def authorizeAndRecord (caller : Caller) (action : Action) (capability : Capability)
    (path : SecretPath u) (request : RequestContext) : Api u Unit :=
  deployment.authorizeAndRecordSubject caller action capability path none request

def recordUnauthenticated (action : Action) (request : RequestContext) : Api u Unit :=
  record (unauthenticatedEntry action request)

/-- Record a rejected credential, saying so if it was bait. -/
def recordRejection (action : Action) (request : RequestContext) (bait : Option Bait) :
    Api u Unit :=
  match deployment.honeypotAlert, bait with
  | true, some bait => do
      record (baitEntry action request bait)
      latch .token bait.tokenId none .alert
  | _, _ => recordUnauthenticated action request

/-- `authenticate` of `api.rs`: the attempt is recorded if it fails. -/
def authenticated (headers : Headers) (action : Action) (request : RequestContext) :
    Api u Caller := do
  match ← deployment.authenticate headers.bearerToken with
  | .ok caller => return caller
  | .error rejection => do
      deployment.recordRejection action request rejection.bait
      ofExcept (.error rejection.error)

end Deployment

/-! ### Request checks -/

def parsePath (u : Unicode) (raw : String) : Except ApiError (SecretPath u) :=
  (SecretPath.parse u raw).mapError fun error => .badRequest error.text

/-- The same, for a caller who has already authenticated. -/
def parsePathRecorded (caller : Caller) (attempted : Action) (request : RequestContext)
    (raw : String) : Api u (SecretPath u) :=
  match parsePath u raw with
  | .ok path => return path
  | .error refused => do
      recordRefusal caller attempted request refused.status "malformed-path"
      ofExcept (.error refused)

/-- Absent stays absent: unchanged, and not the default. -/
def parseRotation : Option String → Except ApiError (Option Rotation)
  | none => .ok none
  | some text => ((Rotation.parse text).mapError fun error => .badRequest error.text).map some

/-- Refuse writes and deletes under the reserved prefix, which the store refuses as well. -/
def refuseReserved (path : SecretPath u) : Except ApiError Unit :=
  (rejectReserved path).mapError fun _ =>
    .badRequest ("'" ++ reservedPrefix ++ "/' is reserved and cannot hold secrets")

/-- `?version=`. -/
structure VersionQuery where
  version : Option UInt32

def VersionQuery.parsed (query : VersionQuery) : Except ApiError (Option SecretVersion) :=
  match query.version with
  | none => .ok none
  | some number =>
      match SecretVersion.new number with
      | some version => .ok (some version)
      | none => .error (.badRequest "version must be greater than zero")

/-- The extractor of a JSON body: who sends one that cannot be parsed leaves a trace, if they
authenticate. -/
def auditedJson {α : Type} (deployment : Deployment) (headers : Headers) (attempted : Action) :
    Except String α → Api u α
  | .ok body => return body
  | .error text => do
      let refused := ApiError.badRequest text
      match ← deployment.authenticate headers.bearerToken with
      | .ok caller => do
          recordRefusal caller attempted headers.requestContext refused.status "malformed-body"
          ofExcept (.error refused)
      | .error _ => ofExcept (.error refused)

/-- The answer to a request that reached no handler. -/
def refusedRequest {α : Type} (deployment : Deployment) (headers : Headers) (reason : String) :
    Api u α := do
  match ← deployment.authenticate headers.bearerToken with
  | .ok caller => do
      recordRefusal caller .read headers.requestContext ApiError.notFound.status reason
      ofExcept (.error .notFound)
  | .error _ => ofExcept (.error .notFound)

end Ciphr
