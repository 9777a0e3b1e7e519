import Ciphr.LibTrace
import Ciphr.CliDotenv
import Ciphr.Errors
import Ciphr.ServerGate
import Ciphr.StoreInventory

/-!
`ciphr-cli/src/main.rs` and `session.rs`: the commands that change secrets, classes and tokens, and
those that write values out. What a command asks of its session, of the store behind it and of the
system is a call; the session is the only writer of its store.
-/

namespace Ciphr

open Script

variable {u : Unicode}

/-- A secret as `dump` writes it. -/
structure Dumped where
  path : String
  version : Nat
  rotation : String
  createdAt : Int
  createdBy : String
  value : String
  deriving DecidableEq

/-- What `dump` writes. -/
structure PortableDocument where
  format : String
  exportedAt : String
  note : String
  secrets : List Dumped
  deriving DecidableEq

def portableDocument (now : Int) (secrets : List Dumped) : PortableDocument where
  format := "ciphr.portable.v1"
  exportedAt := rfc3339Millis now
  note := "Every value below is plaintext. Treat this file as the secret store itself."
  secrets := secrets

inductive CliCall (u : Unicode) where
  | stdoutIsTerminal
  /-- `read_value_from_stdin`. -/
  | readValueFromStdin
  /-- The text to import: a file, or standard input. -/
  | readCorpus (fromDotenv : Option String)
  | readPolicies
  /-- `open`: the lock, the store, the root key and the audit devices. -/
  | openSession
  | openMetadata
  | nowMillis
  /-- `Token::generate`. -/
  | generateToken
  | record (entry : Entry)
  | get (path : SecretPath u) (version : Option SecretVersion)
  | metadata (path : SecretPath u)
  | list (start : Option (SecretPath u))
  | putWithRotation (path : SecretPath u) (createdBy : String) (rotation : Option Rotation)
      (encrypt : ValueDraws → SecretTables.EncryptForVersion)
  | setRotation (path : SecretPath u) (rotation : Rotation)
  | delete (path : SecretPath u) (version : SecretVersion)
  | undelete (path : SecretPath u) (version : SecretVersion)
  | destroy (path : SecretPath u) (version : SecretVersion)
  | token (tokenId : String)
  | tokens (identity : Option String)
  | issueToken (identity : String) (token : Token) (pepper : TokenPepper) (createdBy : String)
      (expiresAt : Option Int) (purpose : TokenPurpose)
  | revokeToken (tokenId : String)
  | revokeIdentityTokens (identity : String)
  /-- Standard output, or the two outputs of a command that writes to both. -/
  | print (text : String)
  | githubEnv
  /-- `OpenOptions` with `append`, and `write_all`. -/
  | appendFile (target text : String)

/-- What the calls return. -/
def CliCall.Reply : CliCall u → Type
  | .stdoutIsTerminal => Bool
  | .readValueFromStdin => Except CliError (List UInt8)
  | .readCorpus _ => Except CliError String
  | .readPolicies => Except CliError PolicySet
  | .openSession => Except CliError RootKey
  | .openMetadata => Except StoreError Unit
  | .nowMillis => Int
  | .generateToken => Except CryptoError Token
  | .record _ => Except String Unit
  | .get _ _ => Except StoreError (StoredVersion u)
  | .metadata _ => Except StoreError (SecretMetadata u)
  | .list _ => Except StoreError (List (SecretPath u))
  | .putWithRotation _ _ _ _ => Except StoreError SecretVersion
  | .setRotation _ _ => Except StoreError Unit
  | .delete _ _ => Except StoreError Unit
  | .undelete _ _ => Except StoreError Unit
  | .destroy _ _ => Except StoreError Unit
  | .token _ => Except StoreError (Option TokenRecord)
  | .tokens _ => Except StoreError (List TokenRecord)
  | .issueToken _ _ _ _ _ _ => Except StoreError Unit
  | .revokeToken _ => Except StoreError Bool
  | .revokeIdentityTokens _ => Except StoreError Nat
  | .print _ => Unit
  | .githubEnv => Option String
  | .appendFile _ _ => Except String Unit

abbrev Cli (u : Unicode) (α : Type) := Script (CliCall u) CliCall.Reply CliError α

/-- Who runs the commands, and what they are linked with: `aes-gcm`, `hmac`, the random source of the
delimiters, the formats of `{:?}`, and `serde_json` on an object and on the document of a dump. -/
structure CliHost (u : Unicode) where
  user : Option String
  username : Option String
  aead : Aead KeyBytes Nonce
  hmac : Hmac
  random : Entropy
  debug : DebugFormat
  json : JsonObjects
  toStringPretty : PortableDocument → String

/-! ### The session -/

namespace Session

/-- `Session::operator_entry`. -/
def operatorEntry (host : CliHost u) (action : Action) (allowed : Bool) (reason : Option String) :
    Entry :=
  let name := (host.user <|> host.username).getD "operator"
  let entry := match allowed, reason with
    | true, _ => Entry.permitted action
    | false, some reason => .denied action reason
    | false, none => .denied action "refused"
  entry.withPrincipal ⟨"cli:" ++ name, some "operator", none⟩

/-- `Session::record`. -/
def record (entry : Entry) : Cli u Unit := ask (.record entry) (·.mapError .audit)

end Session

namespace Cli

variable (host : CliHost u)

def parsePath (raw : String) : Cli u (SecretPath u) :=
  ofExcept ((SecretPath.parse u raw).mapError .path)

def parseRotation (raw : String) : Cli u Rotation :=
  ofExcept ((Rotation.parse raw).mapError .rotation)

def parseRotationArg : Option String → Cli u (Option Rotation)
  | none => return none
  | some raw => do
      let rotation ← parseRotation raw
      return some rotation

/-- `open_or_served`. -/
def openOrServed (request : String) : Cli u RootKey :=
  ask .openSession fun opened => opened.mapError fun error =>
    match error with
    | .store (.locked holder) => .lockedButServed (.locked holder) request
    | other => other

/-- `open`. -/
def openSession : Cli u RootKey := ask .openSession id

def print (text : String) : Cli u Unit := ask (.print text) .ok

/-- `guard_secret_output`. -/
def guardSecretOutput (force : Bool) : Cli u Unit :=
  if force then return ()
  else ask .stdoutIsTerminal fun (terminal : Bool) =>
    if terminal then .ok () else .error .wouldPipeSecret

def recordClassification (path : SecretPath u) : Cli u Unit :=
  Session.record ((Session.operatorEntry host .classify true none).withPath path)

/-- The two entries of a write: of the value, and of the class where one is named. -/
def recordWrite (path : SecretPath u) (rotation : Option Rotation) : Cli u Unit := do
  Session.record ((Session.operatorEntry host .write true none).withPath path)
  if rotation.isSome then recordClassification host path else return ()

/-- The write itself. -/
def storeValue (root : RootKey) (path : SecretPath u) (createdBy : String)
    (rotation : Option Rotation) (value : List UInt8) : Cli u SecretVersion :=
  ask (.putWithRotation path createdBy rotation fun draws version =>
    encrypt host.aead root path version value draws) (·.mapError .store)

/-! ### Commands on one secret -/

def put (path : String) (rotation : Option String) : Cli u Unit := do
  let path ← parsePath path
  ofExcept ((rejectReserved path).mapError .store)
  let value ← ask .readValueFromStdin id
  let rotation ← parseRotationArg rotation
  let root ← openOrServed ("PUT /v1/secrets/" ++ path.text)
  recordWrite host path rotation
  let version ← storeValue host root path "cli" rotation value
  print (path.text ++ " version " ++ toString version.number ++ "\n")

/-- The version that `delete` is about. -/
def deletedVersion (path : SecretPath u) (version : Option UInt32) : Cli u SecretVersion :=
  match version.bind SecretVersion.new with
  | some version => return version
  | none => ask (.metadata path) fun found =>
      match found with
      | .error error => .error (.store error)
      | .ok found =>
          match found.currentVersion with
          | some version => .ok version
          | none => .error (.store (.notFound path.text))

def delete (path : String) (version : Option UInt32) : Cli u Unit := do
  let path ← parsePath path
  ofExcept ((rejectReserved path).mapError .store)
  let _ ← openOrServed ("DELETE /v1/secrets/" ++ path.text)
  let version ← deletedVersion path version
  Session.record (((Session.operatorEntry host .delete true none).withPath path).withVersion
    version.number)
  ask (.delete path version) (·.mapError .store)
  print (path.text ++ " version " ++ toString version.number ++ " deleted\n")

def versionArg (version : UInt32) : Cli u SecretVersion :=
  match SecretVersion.new version with
  | some version => return version
  | none => ofExcept (.error (.duration "version 0"))

def undelete (path : String) (version : UInt32) : Cli u Unit := do
  let path ← parsePath path
  let version ← versionArg version
  let _ ← openSession
  Session.record (((Session.operatorEntry host .undelete true none).withPath path).withVersion
    version.number)
  ask (.undelete path version) (·.mapError .store)
  print (path.text ++ " version " ++ toString version.number ++ " restored\n")

def destroy (path : String) (version : UInt32) (yes : Bool) : Cli u Unit := do
  let path ← parsePath path
  let version ← versionArg version
  if !yes then
    ofExcept (.error (.audit ("destroying a version is irreversible, including in every backup taken " ++
      "afterwards; pass --yes if that is what you mean")))
  else do
    let _ ← openSession
    Session.record (((Session.operatorEntry host .destroy true none).withPath path).withVersion
      version.number)
    ask (.destroy path version) (·.mapError .store)
    print (path.text ++ " version " ++ toString version.number ++
      " destroyed; the value cannot be recovered\n")

def classify (path : SecretPath u) (rotation : Rotation) : Cli u Unit := do
  recordClassification host path
  ask (.setRotation path rotation) (·.mapError .store)

def rotation (path : String) (newClass : Option String) : Cli u Unit := do
  let path ← parsePath path
  let rotation ← match newClass with
    | none => do
        ask .openMetadata (·.mapError .store)
        let found ← ask (.metadata path) (·.mapError .store)
        pure found.rotation
    | some raw => do
        let rotation ← parseRotation raw
        let _ ← openSession
        classify host path rotation
        pure rotation
  print (path.text ++ " is " ++ rotation.asStr ++ "\n")

/-! ### Commands on many secrets -/

/-- A loop over paths that stops at the first error. -/
def each {α β : Type} (one : α → Cli u β) : List α → Cli u (List β)
  | [] => return []
  | a :: rest => do
      let b ← one a
      let bs ← each one rest
      return b :: bs

/-- What is imported: a path below the prefix and its value. -/
def importTarget (start : SecretPath u) (entry : DotEnvEntry) :
    Except CliError (SecretPath u × String) := do
  let path ← (SecretPath.parse u (start.text ++ "/" ++ entry.key)).mapError .path
  .ok (path, entry.value)

def importOne (root : RootKey) (rotation : Option Rotation) (target : SecretPath u × String) :
    Cli u Unit := do
  recordWrite host target.1 rotation
  let _ ← storeValue host root target.1 "cli:import" rotation (utf8 target.2)
  print (target.1.text ++ "\n")

def dryRunLine (target : SecretPath u × String) : String :=
  "  " ++ target.1.text ++ "  (" ++ toString target.2.utf8ByteSize ++ " bytes)\n"

def importDotenv (fromDotenv : Option String) (start : String) (dryRun : Bool)
    (rotation : Option String) : Cli u Unit := do
  let start ← parsePath start
  let rotation ← parseRotationArg rotation
  let text ← ask (.readCorpus fromDotenv) id
  let entries ← ofExcept ((parseDotenv host.debug text).mapError fun found => .dotEnv found.1 found.2)
  let targets ← ofExcept (entries.mapM (importTarget start))
  if dryRun then
    print ("would write " ++ toString targets.length ++ " secrets:\n" ++
      String.join (targets.map dryRunLine))
  else do
    let root ← openSession
    let _ ← each (importOne host root rotation) targets
    return ()

/-- The entry of a value that is about to be handed out. -/
def readEntry (stored : StoredVersion u) : Entry :=
  ((Session.operatorEntry host .read true none).withPath stored.path).withVersion stored.version.number

/-- A stored value as text. -/
def valueText (root : RootKey) (stored : StoredVersion u) (complaint : String) :
    Except CliError String := do
  let plaintext ← (decrypt host.aead root stored.path stored.version stored.value).mapError .crypto
  match Rust.fromUtf8 plaintext with
  | some text => .ok text
  | none => .error (.audit complaint)

def exportOne (root : RootKey) (path : SecretPath u) : Cli u (Exported u) := do
  let stored ← ask (.get path none) (·.mapError .store)
  let value ← ofExcept (valueText host root stored
    (path.text ++ " is not valid UTF-8 and cannot be exported"))
  Session.record (readEntry host stored)
  return ⟨stored.path, value⟩

inductive ExportFormat where
  | dotenv
  | actionsEnv
  | json
  deriving DecidableEq, Repr

def ExportFormat.parse : String → Option ExportFormat
  | "dotenv" => some .dotenv
  | "actions-env" => some .actionsEnv
  | "json" => some .json
  | _ => none

def ExportFormat.writesValuesToStdout : ExportFormat → Bool
  | .dotenv | .json => true
  | .actionsEnv => false

def exportError : ExportError → CliError
  | .envName error => .envName error
  | .delimiter name reason => .exportDelimiter name reason

/-- What is written out: to standard output, and then to the environment file or to standard output. -/
def rendered (format : ExportFormat) (secrets : List (Exported u)) :
    Except ExportError (String × String) :=
  match format with
  | .dotenv => do
      let text ← renderDotenv secrets
      .ok (text, "")
  | .actionsEnv => renderActionsEnv host.random secrets
  | .json => .ok (renderJson host.json secrets, "")

/-- `export` from the values on. -/
def writeOut (format : ExportFormat) (githubEnv : Bool) (secrets : List (Exported u)) : Cli u Unit := do
  let texts ← ofExcept ((rendered host format secrets).mapError exportError)
  print texts.1
  if format = .actionsEnv then
    if githubEnv then do
      let target ← ask .githubEnv fun found =>
        match found with
        | some target => .ok target
        | none => .error (.audit "--github-env was given but GITHUB_ENV is not set")
      ask (.appendFile target texts.2) (·.mapError .io)
    else print texts.2
  else return ()

structure ExportArgs where
  start : Option String
  path : List String
  format : String
  force : Bool
  githubEnv : Bool

/-- The paths of an export. -/
def exportedPaths (args : ExportArgs) : Cli u (List (SecretPath u)) :=
  match args.start with
  | some start => do
      let start ← parsePath start
      ask (.list (some start)) (·.mapError .store)
  | none => ofExcept (args.path.mapM fun raw => (SecretPath.parse u raw).mapError .path)

def exportSecrets (args : ExportArgs) : Cli u Unit := do
  let format ← ofExcept (match ExportFormat.parse args.format with
    | some format => .ok format
    | none => .error (.duration ("format '" ++ args.format ++
        "'; use dotenv, actions-env or json")))
  if format.writesValuesToStdout then guardSecretOutput args.force else pure ()
  let root ← openOrServed "POST /v1/export (the bulk_export surface entry)"
  let paths ← exportedPaths args
  if paths.isEmpty then
    ofExcept (.error (.duration "nothing to export; pass --prefix or --path"))
  else do
    let secrets ← each (exportOne host root) paths
    writeOut host format args.githubEnv secrets

def dumpOne (root : RootKey) (path : SecretPath u) : Cli u Dumped := do
  let metadata ← ask (.metadata path) (·.mapError .store)
  let stored ← ask (.get path none) (·.mapError .store)
  let value ← ofExcept (valueText host root stored (path.text ++ " is not valid UTF-8"))
  Session.record (readEntry host stored)
  return ⟨stored.path.text, stored.version.number, metadata.rotation.asStr, stored.createdAt,
    stored.createdBy, value⟩

def dump (format : String) (force : Bool) : Cli u Unit := do
  if format ≠ "portable" then
    ofExcept (.error (.duration ("format '" ++ format ++ "'; only 'portable' exists")))
  else do
    guardSecretOutput force
    let root ← openSession
    let paths ← ask (.list none) (·.mapError .store)
    let secrets ← each (dumpOne host root) paths
    let now ← ask .nowMillis .ok
    print (host.toStringPretty (portableDocument now secrets) ++ "\n")

/-! ### Tokens -/

/-- The number of milliseconds of `90d`, `12h`, `30m` or `3600s`. -/
def parseDurationMillis (input : String) : Except CliError Int :=
  let text := Rust.trim input
  let unit : Option Int := match text.toList.getLast? with
    | some 'd' => some (24 * 60 * 60 * 1000)
    | some 'h' => some (60 * 60 * 1000)
    | some 'm' => some (60 * 1000)
    | some 's' => some 1000
    | _ => none
  match unit.bind fun unit =>
      (((Rust.parseI64 (String.ofList text.toList.dropLast)).filter (0 < ·)).bind
        (Rust.checkedMul · unit)) with
  | some millis => .ok millis
  | none => .error (.duration input)

def tokenSubject (name : String) (kind : Option String) (tokenId : String) : Principal :=
  ⟨name, kind, some tokenId⟩

def revocationEntry (name tokenId : String) : Entry :=
  (Session.operatorEntry host .revokeToken true none).withSubject (tokenSubject name none tokenId)

/-- The time at which a token expires: the addition of two `i64` wraps. -/
def expiry : Option String → Cli u (Option Int)
  | none => return none
  | some ttl => do
      let millis ← ofExcept (parseDurationMillis ttl)
      ask .nowMillis fun (now : Int) => .ok (some ((now + millis).bmod (2 ^ 64)))

def issueToken (identity : String) (ttl : Option String) (noExpiry force honeypot : Bool) :
    Cli u Unit := do
  if ttl.isNone && !noExpiry then ofExcept (.error .noExpiryDecision)
  else do
    let policies ← ask .readPolicies id
    match policies.identity identity with
    | none => ofExcept (.error (.unknownIdentity identity))
    | some found => do
        guardSecretOutput force
        let expiresAt ← expiry ttl
        let root ← openSession
        let token ← ask .generateToken (·.mapError .crypto)
        Session.record ((Session.operatorEntry host .issueToken true none).withSubject
          (tokenSubject identity (some found.kind.asStr) token.id.asText))
        ask (.issueToken identity token (.derive host.hmac root.bytes) "cli" expiresAt
          (if honeypot then .honeypot else .credential)) (·.mapError .store)
        print (token.exposeText ++ "\n")

def revoke (tokenId : String) : Cli u Unit := do
  let _ ← openSession
  let found ← ask (.token tokenId) (·.mapError .store)
  match found with
  | none => ofExcept (.error (.store (.tokenNotFound tokenId)))
  | some found => do
      Session.record (revocationEntry host found.identity tokenId)
      let revoked ← ask (.revokeToken tokenId) (·.mapError .store)
      print (tokenId ++ if revoked then " revoked\n" else " was already revoked\n")

def revokeAll (identity : String) : Cli u Unit := do
  let _ ← openSession
  let found ← ask (.tokens (some identity)) (·.mapError .store)
  let revoking := (found.filter (·.revokedAt.isNone)).map (·.tokenId)
  let _ ← each (fun tokenId => Session.record (revocationEntry host identity tokenId)) revoking
  let count ← ask (.revokeIdentityTokens identity) (·.mapError .store)
  print (toString count ++ " token(s) of " ++ identity ++ " revoked\n")

end Cli

/-! ### The store behind a session -/

/-- The tables of the store, what its trail has taken, and what was printed. -/
structure CliStore where
  secrets : SecretTables
  tokens : TokenTable
  trail : List Entry
  printed : List String

/-- What a call meets outside of the store. -/
structure CliOutside where
  opened : Except CliError RootKey
  terminal : Bool
  stdin : Except CliError (List UInt8)
  corpus : Except CliError String
  policies : Except CliError PolicySet
  now : Int
  generated : Except CryptoError Token
  draws : ValueDraws
  githubEnv : Option String
  appended : Except String Unit
  /-- Whether a device takes the record. -/
  recorded : Except String Unit
  secret : SecretFault
  token : TokenFault
  query : Option String

/-- What a call is answered with, and the store it leaves. -/
def CliStore.answer (hmac : Hmac) (s : CliStore) (outside : CliOutside) :
    (c : CliCall u) → CliStore × c.Reply
  | .stdoutIsTerminal => (s, outside.terminal)
  | .readValueFromStdin => (s, outside.stdin)
  | .readCorpus _ => (s, outside.corpus)
  | .readPolicies => (s, outside.policies)
  | .openSession => (s, outside.opened)
  | .openMetadata => (s, SecretTables.answer outside.secret .beginTransaction)
  | .nowMillis => (s, outside.now)
  | .generateToken => (s, outside.generated)
  | .record entry =>
      match outside.recorded with
      | .ok () => ({ s with trail := s.trail ++ [entry] }, .ok ())
      | .error error => (s, .error error)
  | .get path version => (s, s.secrets.get outside.secret path version)
  | .metadata path => (s, s.secrets.metadata outside.secret path)
  | .list start => (s, s.secrets.list outside.secret start)
  | .putWithRotation path createdBy rotation encrypt =>
      let result := (SecretTables.putWithRotation outside.secret path createdBy rotation
        (encrypt outside.draws) outside.now).exec s.secrets
      ({ s with secrets := result.2 }, result.1)
  | .setRotation path rotation =>
      let result := (SecretTables.setRotation outside.secret path rotation outside.now).exec s.secrets
      ({ s with secrets := result.2 }, result.1)
  | .delete path version =>
      let result := (SecretTables.delete outside.secret path version outside.now).exec s.secrets
      ({ s with secrets := result.2 }, result.1)
  | .undelete path version =>
      let result := (SecretTables.undelete outside.secret path version).exec s.secrets
      ({ s with secrets := result.2 }, result.1)
  | .destroy path version =>
      let result := (SecretTables.destroy outside.secret path version outside.now).exec s.secrets
      ({ s with secrets := result.2 }, result.1)
  | .token tokenId => (s, s.tokens.token tokenId outside.token.token)
  | .tokens identity => (s, s.tokens.tokens identity outside.query)
  | .issueToken identity token pepper createdBy expiresAt purpose =>
      let result := s.tokens.issueToken hmac identity token pepper createdBy expiresAt purpose outside.now
        outside.query
      ({ s with tokens := result.1 }, result.2)
  | .revokeToken tokenId =>
      let result := s.tokens.revokeToken tokenId outside.now outside.token
      ({ s with tokens := result.1 }, result.2)
  | .revokeIdentityTokens identity =>
      let result := s.tokens.revokeIdentityTokens identity outside.now outside.query
      ({ s with tokens := result.1 }, result.2)
  | .print text => ({ s with printed := s.printed ++ [text] }, ())
  | .githubEnv => (s, outside.githubEnv)
  | .appendFile _ _ => (s, outside.appended)

/-! ### The command line -/

inductive CliCommand where
  | put (path : String) (rotation : Option String)
  | delete (path : String) (version : Option UInt32)
  | undelete (path : String) (version : UInt32)
  | destroy (path : String) (version : UInt32) (yes : Bool)
  | rotation (path : String) (newClass : Option String)
  | importDotenv (fromDotenv : Option String) (start : String) (dryRun : Bool)
      (rotation : Option String)
  | exportSecrets (args : Cli.ExportArgs)
  | dump (format : String) (force : Bool)
  | issueToken (identity : String) (ttl : Option String) (noExpiry force honeypot : Bool)
  | revoke (tokenId : String)
  | revokeAll (identity : String)

/-- `run`, for the commands that record something as allowed. -/
def CliCommand.run (host : CliHost u) : CliCommand → Cli u Unit
  | .put path newClass => Cli.put host path newClass
  | .delete path version => Cli.delete host path version
  | .undelete path version => Cli.undelete host path version
  | .destroy path version yes => Cli.destroy host path version yes
  | .rotation path newClass => Cli.rotation host path newClass
  | .importDotenv fromDotenv start dryRun newClass =>
      Cli.importDotenv host fromDotenv start dryRun newClass
  | .exportSecrets args => Cli.exportSecrets host args
  | .dump format force => Cli.dump host format force
  | .issueToken identity ttl noExpiry force honeypot =>
      Cli.issueToken host identity ttl noExpiry force honeypot
  | .revoke tokenId => Cli.revoke host tokenId
  | .revokeAll identity => Cli.revokeAll host identity

end Ciphr
