import Ciphr.LibTrace
import Ciphr.StoreInventory
import Ciphr.StoreAuditQuery
import Ciphr.PolicyEvaluate
import Ciphr.ServerOidc
import Ciphr.ServerState

/-!
What the handlers of the API ask of the store, of the audit sink and of the system, each in one step:
every use of the store holds its lock, and so does every record.
-/

namespace Ciphr

/-- One active surface entry. -/
structure ActiveEntry where
  name : String
  kind : String
  accepted : String
  reason : String
  cost : String
  deriving DecidableEq, Repr

/-- What a process is started with and does not change. `honeypotAlert` is a feature of its build;
the last four are `aes-gcm`, `hmac`, the libraries of the federation, and `RawValue::from_string`. -/
structure Deployment where
  policies : PolicySet
  root : RootKey
  sealId : String
  keySource : String
  surface : List ActiveEntry
  federation : Oidc.Federation
  honeypotAlert : Bool
  aead : Aead KeyBytes Nonce
  hmac : Hmac
  libraries : Oidc.Libraries
  rawValue : String → Except String Unit

namespace Deployment

def pepper (deployment : Deployment) : TokenPepper :=
  .derive deployment.hmac deployment.root.bytes

/-- `Active::has`. -/
def has (deployment : Deployment) (entry : String) : Bool :=
  deployment.surface.any (·.name == entry)

end Deployment

variable {u : Unicode}

inductive ApiCall (u : Unicode) where
  | nowMillis
  /-- `Token::generate`. -/
  | generateToken
  | auditDevices
  | record (entry : Entry)
  | authenticate (presented : String)
  | honeypotTier (path : SecretPath u)
  /-- A task that opens a trip is spawned, unless one was for the same bait. -/
  | latchOffTheRequestPath (kind : BaitKind) (reference : String) (identity : Option String)
      (tier : HoneypotTier)
  | openTripCount
  | get (path : SecretPath u) (version : Option SecretVersion)
  | putWithRotation (path : SecretPath u) (createdBy : String) (rotation : Option Rotation)
      (encrypt : ValueDraws → SecretTables.EncryptForVersion)
  | metadata (path : SecretPath u)
  | delete (path : SecretPath u) (version : SecretVersion)
  /-- `metadata` and `versions` in one use of the store. -/
  | history (path : SecretPath u)
  | listWithRotation (start : Option (SecretPath u))
  /-- `honeypots` and `open_trips` in one use of the store. -/
  | honeypots
  | auditQuery (filter : AuditFilter)
  | tokens (identity : Option String)
  | token (tokenId : String)
  | revokeToken (tokenId : String)
  | issueToken (identity : String) (token : Token) (createdBy : String) (expiresAt : Int)

/-- What the calls return. -/
def ApiCall.Reply : ApiCall u → Type
  | .nowMillis => Int
  | .generateToken => Option Token
  | .auditDevices => List DeviceHealth
  | .record _ => Except ApiError Unit
  | .authenticate _ => Except StoreError Authentication
  | .honeypotTier _ => Except StoreError (Option HoneypotTier)
  | .latchOffTheRequestPath _ _ _ _ => Unit
  | .openTripCount => Except StoreError Nat
  | .get _ _ => Except StoreError (StoredVersion u)
  | .putWithRotation _ _ _ _ => Except StoreError SecretVersion
  | .metadata _ => Except StoreError (SecretMetadata u)
  | .delete _ _ => Except StoreError Unit
  | .history _ => Except StoreError (SecretMetadata u × List VersionSummary)
  | .listWithRotation _ => Except StoreError (List (ListedSecret u))
  | .honeypots => Except StoreError (List Honeypot × List Trip)
  | .auditQuery _ => Except StoreError (List Database.Row)
  | .tokens _ => Except StoreError (List TokenRecord)
  | .token _ => Except StoreError (Option TokenRecord)
  | .revokeToken _ => Except StoreError Bool
  | .issueToken _ _ _ _ => Except StoreError Unit

/-- A part of a request's handling. -/
abbrev Api (u : Unicode) (α : Type) := Script (ApiCall u) ApiCall.Reply ApiError α

abbrev ApiAct (u : Unicode) := Script.Act (ApiCall u) ApiCall.Reply

/-! ### The process -/

/-- A task that opens a trip, off the request path. -/
structure Latch where
  kind : BaitKind
  reference : String
  identity : Option String
  tier : HoneypotTier
  deriving DecidableEq, Repr

/-- The sink and its devices, the tables of the store, the bait whose latch was claimed, and the
tasks that were spawned for it. -/
structure Server (δ ω : Type) where
  app : AppState δ ω
  secrets : SecretTables
  tokens : TokenTable
  trips : TripTable
  latching : List (BaitKind × String)
  spawned : List Latch

/-- What decides an answer beside the state of the process: the clock, what each audit device meets,
the errors of the database, and what the operating system returns when it is asked for randomness. -/
structure ApiOutside (φ : Type) where
  now : Int
  moments : Nat → Moment φ
  query : Option String
  secret : SecretFault
  token : TokenFault
  draws : ValueDraws
  generated : Option Token

namespace Server

variable {δ ω φ : Type} [AuditDevice δ ω φ]

/-- A query on a database that may answer with an error instead. -/
def query {α : Type} (fault : Option String) (result : Except StoreError α) : Except StoreError α :=
  match fault with
  | some error => .error (.sqlite error)
  | none => result

variable (deployment : Deployment) (codec : Codec) (json : JsonExtract) (database : ω → Database)

/-- The answer to a call, and the process after it. The presented text of `authenticate` is that of
a header, and a text on which the source panics is none. -/
def answer (s : Server δ ω) (outside : ApiOutside φ) :
    (c : ApiCall u) → Server δ ω × c.Reply
  | .nowMillis => (s, outside.now)
  | .generateToken => (s, outside.generated)
  | .auditDevices => (s, s.app.devices)
  | .record entry =>
      let recorded := (AppState.record codec outside.moments entry).exec s.app
      ({ s with app := recorded.2 }, recorded.1)
  | .authenticate presented =>
      let result := s.tokens.authenticate deployment.hmac presented deployment.pepper outside.now
        outside.token
      ({ s with tokens := result.1 }, result.2.getD (.ok .invalid))
  | .honeypotTier path => (s, s.secrets.honeypotTier outside.secret path)
  | .latchOffTheRequestPath kind reference identity tier =>
      if s.latching.contains (kind, reference) then (s, ())
      else ({ s with
        latching := (kind, reference) :: s.latching,
        spawned := s.spawned ++ [⟨kind, reference, identity, tier⟩] }, ())
  | .openTripCount => (s, s.trips.openTripCount outside.query)
  | .get path version => (s, s.secrets.get outside.secret path version)
  | .putWithRotation path createdBy rotation encrypt =>
      let result := (SecretTables.putWithRotation outside.secret path createdBy rotation
        (encrypt outside.draws) outside.now).exec s.secrets
      ({ s with secrets := result.2 }, result.1)
  | .metadata path => (s, s.secrets.metadata outside.secret path)
  | .delete path version =>
      let result := (SecretTables.delete outside.secret path version outside.now).exec s.secrets
      ({ s with secrets := result.2 }, result.1)
  | .history path =>
      (s, do
        let metadata ← s.secrets.metadata outside.secret path
        let versions ← s.secrets.versionSummaries outside.secret path
        .ok (metadata, versions))
  | .listWithRotation start => (s, s.secrets.listWithRotation outside.secret start)
  | .honeypots =>
      (s, do
        let bait ← s.trips.honeypots s.secrets s.tokens outside.query
        let trips ← s.trips.openTrips outside.query
        .ok (bait, trips))
  | .auditQuery filter => (s, query outside.query ((database s.app.world).auditQuery json filter))
  | .tokens identity => (s, s.tokens.tokens identity outside.query)
  | .token tokenId => (s, s.tokens.token tokenId outside.token.token)
  | .revokeToken tokenId =>
      let result := s.tokens.revokeToken tokenId outside.now outside.token
      ({ s with tokens := result.1 }, result.2)
  | .issueToken identity token createdBy expiresAt =>
      let result := s.tokens.issueToken deployment.hmac identity token deployment.pepper createdBy
        (some expiresAt) .credential outside.now outside.query
      ({ s with tokens := result.1 }, result.2)

end Server

end Ciphr
