import Mathlib.Data.List.DropRight
import Ciphr.LibFold
import Ciphr.LibThrough
import Ciphr.CoreProcessEnv
import Ciphr.CliDotenv
import Ciphr.SdkEnvironment

/-!
What the two programs that fetch secrets ask of the host they run on, and what they share before they
have a client: the file of their token, and the builder of `ciphr-sdk/src/client.rs`.
-/

namespace Ciphr

open Script

variable {u : Unicode}

/-! ### The builder of a client -/

/-- An item of a PEM bundle. -/
inductive PemItem where
  | certificate (der : List UInt8)
  | privateKey
  | other

/-- What the programs are built for and linked with; `parsePem` is `ureq::tls::parse_pem`. -/
structure Platform where
  unix : Bool
  parsePem : List UInt8 → List (Except String PemItem)
  debug : DebugFormat

/-- A client for one instance, as one identity. -/
structure Client where
  base : String
  authorities : List (List UInt8)
  timeout : Nat
  userAgent : String
  authorization : String
  deriving DecidableEq

structure ClientBuilder where
  baseUrl : String
  token : String
  certificateAuthorityPem : List UInt8
  timeout : Nat
  userAgent : String

def defaultTimeout : Nat := 10

def defaultUserAgent : String := "ciphr-sdk/0.15.0"

def Client.builder (baseUrl token : String) (certificateAuthorityPem : List UInt8) : ClientBuilder where
  baseUrl := baseUrl
  token := token
  certificateAuthorityPem := certificateAuthorityPem
  timeout := defaultTimeout
  userAgent := defaultUserAgent

/-- `https://host:port`, without a trailing slash. -/
def normalizeBaseUrl (debug : DebugFormat) (input : String) : Except String String :=
  let trimmed := input.toList.rdropWhile (· == '/')
  if !"https://".toList.isPrefixOf trimmed then
    .error (debug.text input ++ " is not an https URL; this client refuses plaintext transport for " ++
      "plaintext secrets")
  else if (String.ofList trimmed).utf8ByteSize ≤ "https://".utf8ByteSize then
    .error (debug.text input ++ " has no host")
  else .ok (String.ofList trimmed)

/-- `char::is_ascii_graphic`. -/
def isAsciiGraphic (c : Char) : Bool := 0x21 ≤ c.toNat && c.toNat ≤ 0x7E

/-- The product token, if it can be sent as one. -/
def usableProductToken (debug : DebugFormat) (input : String) : Except String String :=
  if input.isEmpty then
    .error ("the product token is empty; a client that says nothing about itself " ++
      "leaves an audit entry that names nothing")
  else if 256 < input.toList.length then
    .error "the product token is longer than the 256 characters the trail keeps"
  else
    match input.toList.find? fun c => !isAsciiGraphic c && c != ' ' with
    | some bad =>
        .error ("the product token contains " ++ debug.char bad ++ ", which is not printable ASCII " ++
          "and cannot be sent as a header value")
    | none => .ok input

/-- The loop of `read_authorities`. -/
def gatherAuthorities : List (Except String PemItem) → Except String (List (List UInt8))
  | [] => .ok []
  | .ok (.certificate der) :: items => (gatherAuthorities items).map (der :: ·)
  | .ok .privateKey :: _ =>
      .error ("the certificate authority bundle contains a private key; a client " ++
        "needs the certificate only")
  | .error error :: _ => .error ("the certificate authority bundle could not be read: " ++ error)
  | .ok .other :: items => gatherAuthorities items

/-- The certificates in a PEM bundle. -/
def readAuthorities (platform : Platform) (pem : List UInt8) : Except String (List (List UInt8)) := do
  let certificates ← gatherAuthorities (platform.parsePem pem)
  if certificates.isEmpty then .error "the certificate authority bundle contains no certificate"
  else .ok certificates

/-- `ClientBuilder::build`; the error is the detail of an `SdkError::Configuration`. -/
def ClientBuilder.build (platform : Platform) (builder : ClientBuilder) : Except String Client := do
  let base ← normalizeBaseUrl platform.debug builder.baseUrl
  let authorities ← readAuthorities platform builder.certificateAuthorityPem
  let userAgent ← usableProductToken platform.debug builder.userAgent
  .ok ⟨base, authorities, builder.timeout, userAgent, "Bearer " ++ builder.token⟩

theorem usableProductToken_ok {debug : DebugFormat} {input token : String}
    (h : usableProductToken debug input = .ok token) : token = input := by
  unfold usableProductToken at h
  split at h
  · cases h
  · split at h
    · cases h
    · split at h
      · cases h
      · cases h
        rfl

/-- A client speaks TLS to a host, to the authorities of the bundle and no others. -/
structure Client.Usable (client : Client) : Prop where
  https : ∃ host, host ≠ [] ∧ client.base.toList = "https://".toList ++ host
  anchored : client.authorities ≠ []

theorem normalizeBaseUrl_ok {debug : DebugFormat} {input base : String}
    (h : normalizeBaseUrl debug input = .ok base) :
    ∃ host, host ≠ [] ∧ base.toList = "https://".toList ++ host := by
  unfold normalizeBaseUrl at h
  dsimp only at h
  split at h
  · cases h
  · rename_i hstart
    rw [Bool.not_eq_true, Bool.not_eq_false'] at hstart
    obtain ⟨host, hhost⟩ := List.isPrefixOf_iff_prefix.mp hstart
    rw [← hhost] at h
    split at h
    · cases h
    · rename_i hlong
      cases h
      refine ⟨host, ?_, String.toList_ofList⟩
      intro hnil
      apply hlong
      rw [hnil, List.append_nil]
      exact le_rfl

/-- A URL that ends behind the scheme is refused as no `https` URL: its slashes are gone by then. -/
theorem normalizeBaseUrl_error {debug : DebugFormat} {input detail : String}
    (h : normalizeBaseUrl debug input = .error detail) :
    detail = debug.text input ++ " is not an https URL; this client refuses plaintext transport for " ++
      "plaintext secrets" := by
  unfold normalizeBaseUrl at h
  dsimp only at h
  split at h
  · cases h
    rfl
  · rename_i hstart
    rw [Bool.not_eq_true, Bool.not_eq_false'] at hstart
    obtain ⟨host, hhost⟩ := List.isPrefixOf_iff_prefix.mp hstart
    split at h
    · rename_i hshort
      exfalso
      rw [← hhost, String.ofList_append, String.utf8ByteSize_append] at hshort
      have hsame : (String.ofList "https://".toList).utf8ByteSize = "https://".utf8ByteSize := by
        rw [String.ofList_toList]
      have hempty : String.ofList host = "" := by
        apply String.utf8ByteSize_eq_zero_iff.mp
        omega
      have hnil : host = [] := by
        rw [← String.toList_ofList (l := host), hempty]
        rfl
      rw [hnil, List.append_nil] at hhost
      have hne : input.toList.rdropWhile (· == '/') ≠ [] := by
        rw [← hhost]
        decide
      apply List.rdropWhile_last_not (· == '/') input.toList hne
      rw [List.getLast_congr hne (by decide) hhost.symm]
      decide
    · cases h

theorem readAuthorities_ne_nil {platform : Platform} {pem : List UInt8} {authorities : List (List UInt8)}
    (h : readAuthorities platform pem = .ok authorities) : authorities ≠ [] := by
  unfold readAuthorities at h
  cases hgathered : gatherAuthorities (platform.parsePem pem) with
  | error error =>
      rw [hgathered] at h
      cases h
  | ok certificates =>
      rw [hgathered] at h
      change (if certificates.isEmpty then Except.error _ else .ok certificates) = .ok authorities at h
      split at h
      · cases h
      · rename_i hempty
        cases h
        intro hnil
        apply hempty
        rw [hnil]
        rfl

theorem ClientBuilder.build_ok {platform : Platform} {builder : ClientBuilder} {client : Client}
    (h : builder.build platform = .ok client) :
    client.Usable ∧ client.authorization = "Bearer " ++ builder.token ∧
      client.timeout = builder.timeout ∧ client.userAgent = builder.userAgent := by
  unfold ClientBuilder.build at h
  cases hbase : normalizeBaseUrl platform.debug builder.baseUrl with
  | error error =>
      rw [hbase] at h
      cases h
  | ok base =>
      rw [hbase] at h
      cases hauthorities : readAuthorities platform builder.certificateAuthorityPem with
      | error error =>
          rw [hauthorities] at h
          cases h
      | ok authorities =>
          rw [hauthorities] at h
          cases hagent : usableProductToken platform.debug builder.userAgent with
          | error error =>
              rw [hagent] at h
              cases h
          | ok userAgent =>
              rw [hagent] at h
              cases h
              refine ⟨⟨normalizeBaseUrl_ok hbase, readAuthorities_ne_nil hauthorities⟩, rfl, rfl, ?_⟩
              exact usableProductToken_ok hagent

/-! ### Messages -/

namespace SdkError

def display (debug : DebugFormat) : SdkError → String
  | .transport detail => "could not reach the service: " ++ detail
  | .unauthenticated =>
      "the token was not accepted; the service does not say which part of it was wrong"
  | .forbidden subject =>
      "this identity may not do that to " ++ subject ++ "; the rule that refused is in the " ++
        "audit trail, not in the response"
  | .notFound subject => subject ++ " does not exist"
  | .badRequest detail => "the request was refused: " ++ detail
  | .auditUnavailable =>
      "the service could not write its audit trail, so it served nothing and changed " ++
        "nothing; this is a deployment problem, not a client one"
  | .unexpected (some code) detail => "unexpected " ++ toString code ++ " response: " ++ detail
  | .unexpected none detail => "unexpected response: " ++ detail
  | .nothingUnderPrefix start =>
      "nothing is visible under " ++ start ++ ": either there is nothing there, or this " ++
        "identity has no 'list' capability on it — the service cannot tell those apart " ++
        "and neither can this client"
  | .surfaceEntryUnavailable route entry =>
      route ++ " is not available on this deployment: it belongs to the '" ++ entry ++ "' " ++
        "surface entry, which is off unless a configuration names it. GET /v1/health " ++
        "lists the entries this instance has"
  | .path error => error.text
  | .envName error => error.display debug

/-- What is displayed of `SdkError::Configuration`. -/
def configurationText (detail : String) : String := "this client cannot be built: " ++ detail

end SdkError

/-- `{:04o}`. -/
def octal4 (mode : UInt32) : String :=
  let digits := Nat.toDigits 8 mode.toNat
  String.ofList (List.replicate (4 - digits.length) '0' ++ digits)

/-! ### The host -/

/-- What a process is replaced with: a command, its arguments, and the variables to hand it. -/
structure Plan where
  program : String
  arguments : List String
  entries : List (EnvVarName × List UInt8)

/-- A call on the host. An `io::ErrorKind` is what it displays. -/
inductive HostCall where
  /-- `File::open`. -/
  | openFile (path : String)
  /-- `File::metadata`. -/
  | metadata (file : Nat)
  /-- `Read::read_to_string`. -/
  | readToString (file : Nat)
  /-- `std::fs::read`. -/
  | readFile (path : String)
  | request (client : Client) (request : ApiRequest)
  /-- `eprintln!`. -/
  | printError (line : String)
  /-- `CommandExt::exec`, of the command of a plan: where it succeeds, the process is no more. -/
  | exec (plan : Plan)
  /-- `std::env::var`. -/
  | environmentVariable (name : String)
  /-- `io::stdout().is_terminal()`. -/
  | stdoutIsTerminal
  /-- `Write::write_all`, on standard output; where it fails, some of the text may have been written. -/
  | writeOut (text : String)
  /-- `Write::flush`, on standard output. -/
  | flushOut
  /-- `OpenOptions::open`, to append. -/
  | openAppend (path : String)
  /-- `Write::write_all`, at the end of an open file. -/
  | append (file : Nat) (text : String)

/-- What the host tells of a call. -/
abbrev HostCall.Reply : HostCall → Type
  | .openFile _ => Except String Nat
  | .metadata _ => Except String FileMetadata
  | .readToString _ => Except String String
  | .readFile _ => Except String (List UInt8)
  | .request _ _ => Delivered
  | .printError _ => Unit
  | .exec _ => Except String Unit
  | .environmentVariable _ => Option String
  | .stdoutIsTerminal => Bool
  | .writeOut _ => Except String Unit
  | .flushOut => Except String Unit
  | .openAppend _ => Except String Nat
  | .append _ _ => Except String Unit

abbrev HostAct := Act HostCall HostCall.Reply

/-- A part of a program. -/
abbrev HostProgram (ε α : Type) := Script HostCall HostCall.Reply ε α

/-- What the SDK asks of a service, asked of it by a client. -/
def Client.send (client : Client) {α : Type} (script : Sdk α) : HostProgram SdkError α :=
  script.through (.request client) fun _ reply => reply

/-- An exchange of a client, as the SDK has it. -/
abbrev Asked (client : Client) : HostAct → Act ApiRequest (fun _ => Delivered) → Prop :=
  Carries (HostCall.request client) fun _ reply => reply

section Send

variable {ε α : Type} {failed : SdkError → ε} {client : Client} {script : Sdk α}

/-- A script of the SDK that a client has run. -/
theorem runs_send {acts : List HostAct} {a : α}
    (h : Runs ((client.send script).mapError failed) acts (.ok a)) :
    ∃ inner, List.Forall₂ (Asked client) acts inner ∧ Runs script inner (.ok a) := by
  obtain ⟨result, hruns, hresult⟩ := runs_mapError_iff.mp h
  cases result with
  | error error => cases hresult
  | ok b =>
      cases hresult
      exact runs_through_iff.mp hruns

theorem Runs.send {acts : List HostAct} {inner : List (Act ApiRequest fun _ => Delivered)} {a : α}
    (hasked : List.Forall₂ (Asked client) acts inner) (hruns : Runs script inner (.ok a)) :
    Runs ((client.send script).mapError failed) acts (.ok a) :=
  runs_mapError_iff.mpr ⟨.ok a, runs_through_iff.mpr ⟨inner, hasked, hruns⟩, rfl⟩

theorem asks_send {T : (c : HostCall) → HostCall.Reply c → Prop} {P : HostCall → Prop}
    (h : ∀ request, P (.request client request)) : ((client.send script).mapError failed).Asks T P := by
  apply Asks.mapError
  have hany : script.Asks (fun _ _ => True) fun _ => True := by
    induction script with
    | done ended => exact trivial
    | call c next ih => exact ⟨trivial, fun reply _ => ih reply⟩
  exact hany.through (fun request _ => h request) fun _ _ _ => trivial

end Send

/-! ### The paths of a command line -/

section Paths

variable {ε : Type} {failed : PathError → ε}

theorem parsed_of_mapM {raw : List String} {paths : List (SecretPath u)}
    (h : (raw.mapM fun path => (SecretPath.parse u path).mapError failed) = .ok paths) :
    List.Forall₂ (fun raw path => SecretPath.parse u raw = .ok path) raw paths :=
  (Loop.mapM_eq_ok_iff.mp h).imp fun _ _ hparse => Loop.mapError_eq_ok hparse

theorem mapM_of_parsed {raw : List String} {paths : List (SecretPath u)}
    (h : List.Forall₂ (fun raw path => SecretPath.parse u raw = .ok path) raw paths) :
    (raw.mapM fun path => (SecretPath.parse u path).mapError failed) = .ok paths := by
  refine Loop.mapM_eq_ok_iff.mpr (h.imp fun raw path hpath => ?_)
  rw [hpath]
  rfl

theorem mapM_parse_error {raw : List String} {error : ε}
    (h : (raw.mapM fun path => (SecretPath.parse u path).mapError failed) = .error error) :
    ∃ cause, error = failed cause := by
  induction raw with
  | nil => cases h
  | cons first raw ih =>
      rw [List.mapM_cons] at h
      cases hfirst : SecretPath.parse u first with
      | error cause =>
          rw [hfirst] at h
          cases h
          exact ⟨cause, rfl⟩
      | ok path =>
          rw [hfirst] at h
          cases hrest : raw.mapM fun path => (SecretPath.parse u path).mapError failed with
          | error cause =>
              rw [hrest] at h
              cases h
              exact ih hrest
          | ok rest =>
              rw [hrest] at h
              cases h

end Paths

/-! ### The file of a token -/

/-- `open_credential`: the metadata is read of what was opened. -/
def openCredential (platform : Platform) (path : String) : HostProgram CredentialError Credential := do
  let file ← ask (.openFile path) fun reply => reply.mapError .io
  let metadata ← ask (.metadata file) fun reply => reply.mapError .io
  ofExcept (Credential.inspect platform.unix file metadata)

/-- A world-accessible credential is refused. -/
def refuseWorldAccess {ε : Type} (refusal : UInt32 → WorldAccess → ε) (credential : Credential) :
    Except ε Unit :=
  match credential.world with
  | some access => .error (refusal (credential.mode.getD 0) access)
  | none => .ok ()

/-- `read_token`, with the errors of the program that it belongs to. -/
def readTokenFile {ε : Type} (unreadable : String → String → ε)
    (worldAccessible : String → UInt32 → WorldAccess → ε) (platform : Platform) (path : String) :
    HostProgram ε String := do
  let credential ← (openCredential platform path).mapError fun error => unreadable path error.reason
  let _ ← ofExcept (refuseWorldAccess (worldAccessible path) credential)
  Script.ask (.readToString credential.file) fun reply => reply.mapError (unreadable path)

/-- What was read of the file of a token: it was opened once, and what was inspected and then read is
what was opened, a regular file that is out of everyone's reach. -/
def TokenRead (platform : Platform) (path token : String) (acts : List HostAct) : Prop :=
  ∃ file metadata, acts = [⟨.openFile path, .ok file⟩, ⟨.metadata file, .ok metadata⟩,
      ⟨.readToString file, .ok token⟩] ∧
    metadata.isFile = true ∧
    (platform.unix = true → WorldAccess.ofMode (metadata.mode &&& 0o777) = none)

section TokenFile

variable {ε : Type} {unreadable : String → String → ε}
  {worldAccessible : String → UInt32 → WorldAccess → ε} {platform : Platform} {path : String}

theorem runs_openCredential {acts : List HostAct} {credential : Credential}
    (h : Runs (openCredential platform path) acts (.ok credential)) :
    ∃ metadata, acts = [⟨.openFile path, .ok credential.file⟩,
        ⟨.metadata credential.file, .ok metadata⟩] ∧
      Credential.inspect platform.unix credential.file metadata = .ok credential := by
  obtain ⟨opened, file, afterOpen, rfl, hfile, h⟩ := runs_ask_bind_ok h
  obtain ⟨told, metadata, afterMetadata, rfl, hmetadata, h⟩ := runs_ask_bind_ok h
  obtain ⟨rfl, hinspected⟩ := runs_ofExcept_iff.mp h
  rw [Loop.mapError_eq_ok hfile, Loop.mapError_eq_ok hmetadata]
  have hsame : credential.file = file := by
    unfold Credential.inspect at hinspected
    split at hinspected
    · cases hinspected
      rfl
    · cases hinspected
  rw [hsame]
  exact ⟨metadata, rfl, hinspected.symm⟩

/-- A token that was read is the text of the file that was inspected. -/
theorem runs_readTokenFile {acts : List HostAct} {token : String}
    (h : Runs (readTokenFile unreadable worldAccessible platform path) acts (.ok token)) :
    TokenRead platform path token acts := by
  obtain ⟨credential, front, rest, rfl, hopened, h⟩ := runs_bind_ok h
  obtain ⟨_, hworld, h⟩ := runs_ofExcept_bind_ok h
  obtain ⟨reply, rfl, hreply⟩ := runs_ask_iff.mp h
  obtain ⟨ended, hended, hcredential⟩ := runs_mapError_iff.mp hopened
  rw [Loop.mapError_eq_ok hcredential.symm] at hended
  rw [Loop.mapError_eq_ok hreply.symm]
  obtain ⟨metadata, rfl, hinspected⟩ := runs_openCredential hended
  refine ⟨credential.file, metadata, rfl, ?_⟩
  unfold Credential.inspect at hinspected
  split at hinspected
  · rename_i hfile
    refine ⟨hfile, fun hunix => ?_⟩
    rw [hunix] at hinspected
    have hfound : credential.world = WorldAccess.ofMode (metadata.mode &&& 0o777) := by
      rw [← Except.ok.inj hinspected]
      rfl
    rw [← hfound]
    unfold refuseWorldAccess at hworld
    split at hworld
    · cases hworld
    · assumption
  · cases hinspected

/-- A file that is inspected and read so is the file of a token. -/
theorem TokenRead.runs {acts : List HostAct} {token : String} (h : TokenRead platform path token acts) :
    Runs (readTokenFile unreadable worldAccessible platform path) acts (.ok token) := by
  obtain ⟨file, metadata, rfl, hfile, hworld⟩ := h
  let mode := if platform.unix then some (metadata.mode &&& 0o777) else none
  have hinspected : Credential.inspect platform.unix file metadata =
      .ok ⟨file, mode, mode.bind WorldAccess.ofMode⟩ := by
    unfold Credential.inspect
    rw [if_pos hfile]
  have hnone : mode.bind WorldAccess.ofMode = none := by
    by_cases hunix : platform.unix = true
    · have hmode : mode = some (metadata.mode &&& 0o777) := if_pos hunix
      rw [hmode, Option.bind_some]
      exact hworld hunix
    · have hmode : mode = none := if_neg hunix
      rw [hmode, Option.bind_none]
  have hopened : Runs (openCredential platform path) [⟨.openFile path, .ok file⟩,
      ⟨.metadata file, .ok metadata⟩] (.ok ⟨file, mode, mode.bind WorldAccess.ofMode⟩) :=
    Runs.ask_bind rfl (Runs.ask_bind rfl (runs_ofExcept_iff.mpr ⟨rfl, hinspected.symm⟩))
  have hcredential := runs_mapError_iff.mpr ⟨_, hopened, (rfl : Except.ok _ =
    Except.mapError (fun error : CredentialError => unreadable path error.reason) _)⟩
  have hpassed : refuseWorldAccess (worldAccessible path) ⟨file, mode, mode.bind WorldAccess.ofMode⟩ =
      .ok () := by
    unfold refuseWorldAccess
    rw [hnone]
  exact hcredential.bind (Runs.ofExcept_bind hpassed (runs_ask_iff.mpr ⟨.ok token, rfl, rfl⟩))

/-- The calls that read the file of a token. -/
def HostCall.ReadsToken : HostCall → Prop
  | .openFile _ | .metadata _ | .readToString _ => True
  | _ => False

theorem asks_readTokenFile {T : (c : HostCall) → HostCall.Reply c → Prop} :
    (readTokenFile unreadable worldAccessible platform path).Asks T HostCall.ReadsToken := by
  refine Asks.bind (Asks.mapError ?_) fun credential => ?_
  · refine Asks.bind (asks_ask trivial) fun file => ?_
    exact Asks.bind (asks_ask trivial) fun metadata => asks_ofExcept
  · exact Asks.bind asks_ofExcept fun _ => asks_ask trivial

theorem fails_readTokenFile {P : ε → Prop} (hunreadable : ∀ path reason, P (unreadable path reason))
    (hworld : ∀ path mode access, P (worldAccessible path mode access)) :
    (readTokenFile unreadable worldAccessible platform path).Fails P := by
  refine (fails_mapError fun error : CredentialError => hunreadable path error.reason).bind
    fun credential => (fails_ofExcept ?_).bind fun _ => fails_ask ?_
  · intro error herror
    unfold refuseWorldAccess at herror
    split at herror
    · cases herror
      exact hworld _ _ _
    · cases herror
  · intro reply error herror
    cases reply with
    | error kind =>
        cases herror
        exact hunreadable path kind
    | ok text => cases herror

end TokenFile

namespace Sample

/-- A host with a bundle of one certificate. -/
def host : Platform where
  unix := true
  parsePem := fun pem => [.ok (.certificate pem)]
  debug := ⟨fun text => "\"" ++ text ++ "\"", fun c => "'" ++ String.ofList [c] ++ "'"⟩

/-- The answer of a service that has both secrets. -/
def exportedAct : Act ApiRequest fun _ => Delivered :=
  ⟨.exportPaths (.ok ["infra/DB", "infra/KEY"]),
    .ok (.ok (.exported [⟨"infra/DB", 1, "hunter2"⟩, ⟨"infra/KEY", 1, "s3cret"⟩]))⟩

theorem readAll_exported : Runs (Client.readAll [dbPath, keyPath]) [exportedAct]
    (.ok [⟨dbPath, .first, utf8 "hunter2", 0, ""⟩, ⟨keyPath, .first, utf8 "s3cret", 0, ""⟩]) := by
  have hexported : Client.exported [dbPath, keyPath] exportedAct.2 =
      .ok [⟨dbPath, .first, utf8 "hunter2", 0, ""⟩, ⟨keyPath, .first, utf8 "s3cret", 0, ""⟩] := by
    decide +kernel
  refine runs_call_iff.mpr ⟨exportedAct.2, [], rfl, ?_⟩
  dsimp only [Script.outcome, Script.bind]
  rw [hexported]
  exact .done _

end Sample

end Ciphr
