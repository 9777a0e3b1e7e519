import Ciphr.CliCommands
import Ciphr.SdkHost

/-!
`ciphr-ci`: secrets are fetched on a runner, and written where the later steps of its job read them. Every
check that can refuse runs before a value is asked for, and every value is there before one is written.
-/

namespace Ciphr

open Script
open Cli (ExportFormat)

variable {u : Unicode}

namespace Ci

/-- What the command line asks for. -/
structure Cli where
  url : String
  tokenFile : String
  ca : String
  start : Option String
  path : List String
  format : String
  githubEnv : Bool
  timeout : Nat
  force : Bool
  report : Bool

inductive CiError where
  | format (found : String)
  | tokenFile (path reason : String)
  | tokenFileWorldAccessible (path : String) (mode : UInt32) (access : WorldAccess)
  | authorityFile (path reason : String)
  | path (error : PathError)
  | service (error : SdkError)
  /-- `Service`, of a client that cannot be built. -/
  | configuration (detail : String)
  | notText (path : String)
  | render (error : ExportError)
  | processControlName (name reason : String)
  | nothingUnderPrefix (start : String)
  | githubEnvWithoutActions
  | githubEnvUnset
  | output (reason : String)
  | environmentFile (path reason : String)
  | wouldPipeSecret

/-- The process exit code: one, for every failure. -/
def CiError.code : UInt8 := 1

def exportErrorText (debug : DebugFormat) : ExportError → String
  | .envName error => error.display debug
  | .delimiter name reason => "cannot write " ++ name ++ " into an environment file: " ++ reason

def CiError.display (debug : DebugFormat) : CiError → String
  | .format found => "format '" ++ found ++ "'; use dotenv, actions-env or json"
  | .tokenFile file reason => "cannot read the token file " ++ file ++ ": " ++ reason
  | .tokenFileWorldAccessible file mode access =>
      "the token file " ++ file ++ " is mode " ++ octal4 mode ++ " and " ++ access.description ++
        "; restrict it to its owner (and group, if the job needs it)" ++
        if mode = bindMountMode then bindMountHint else ""
  | .authorityFile file reason => "cannot read the certificate authority " ++ file ++ ": " ++ reason
  | .path error => error.text
  | .service error => error.display debug
  | .configuration detail => SdkError.configurationText detail
  | .notText found =>
      found ++ " is not valid UTF-8 and cannot be written into an environment; " ++
        "the API serves text, so a binary secret has to be encoded by whoever stored it"
  | .render error => exportErrorText debug error
  | .processControlName name reason =>
      "refusing to deliver " ++ name ++ ": " ++ reason ++ ", so a secret named after it would " ++
        "                 decide how the steps after this one run rather than what they read. " ++
        "                 Nothing was fetched and nothing was written. If this job genuinely needs " ++
        "                 that variable, set it in the workflow, where it is a line somebody " ++
        "                 reviewed"
  | .nothingUnderPrefix start =>
      "nothing is visible under " ++ start ++ ": either there is nothing there, or this " ++
        "token has no 'list' capability on it — the service cannot tell those apart " ++
        "and neither can this program. Naming the paths with --path needs only 'read'"
  | .githubEnvWithoutActions =>
      "--github-env belongs to --format actions-env, which is the format that has " ++
        "an environment file to append to; the other two write to standard output"
  | .githubEnvUnset =>
      "--github-env was given but GITHUB_ENV is not set; that variable is set by " ++
        "the runner, so this is either not a job step or not a runner that supports " ++
        "environment files"
  | .output reason =>
      "cannot write to standard output: " ++ reason ++ ". Nothing further was written, " ++
        "because a runner that did not receive the mask commands would log the values unredacted"
  | .environmentFile file reason =>
      "cannot append to the environment file " ++ file ++ ": " ++ reason ++ ". The masks were " ++
        "emitted and no assignment was written"
  | .wouldPipeSecret =>
      "this would write secret values to a pipe. Pass --force if that is what the " ++
        "step wants -- or use --format actions-env, which puts the values in the " ++
        "runner's environment file and only mask commands on standard output"

/-- What the program runs on, and what its rendering is linked with: the random source of the
delimiters, and `serde_json`. -/
structure Runner (u : Unicode) extends Platform where
  random : Entropy
  json : JsonObjects

/-! ### Before the fetch -/

def parseFormat (found : String) : Except CiError ExportFormat :=
  match ExportFormat.parse found with
  | some format => .ok format
  | none => .error (.format found)

/-- The file the assignments go into, if the invocation asked for one. -/
def environmentFile (cli : Cli) (format : ExportFormat) : HostProgram CiError (Option String) :=
  if !cli.githubEnv then pure none
  else if format ≠ .actionsEnv then ofExcept (.error .githubEnvWithoutActions)
  else
    Script.ask (.environmentVariable "GITHUB_ENV") fun found =>
      match found with
      | some path => .ok (some path)
      | none => .error .githubEnvUnset

/-- A value on a pipe has to be asked for. -/
def refusePipe (cli : Cli) (format : ExportFormat) : HostProgram CiError Unit :=
  if format.writesValuesToStdout && !cli.force then
    Script.ask .stdoutIsTerminal fun terminal => if terminal then .ok () else .error .wouldPipeSecret
  else pure ()

def readToken (platform : Platform) (path : String) : HostProgram CiError String :=
  readTokenFile .tokenFile .tokenFileWorldAccessible platform path

def builder (cli : Cli) (token : String) (authority : List UInt8) : ClientBuilder :=
  { Client.builder cli.url (Rust.trim token) authority with
    timeout := cli.timeout
    userAgent := "ciphr-ci/0.15.0" }

/-- Which paths to fetch: the ones named, or the ones that are listed. -/
def paths (u : Unicode) (client : Client) (cli : Cli) : HostProgram CiError (List (SecretPath u)) :=
  match cli.start with
  | none => ofExcept (cli.path.mapM fun path => (SecretPath.parse u path).mapError .path)
  | some start => do
      let start ← ofExcept ((SecretPath.parse u start).mapError .path)
      let listed ← (client.send (Client.list start)).mapError .service
      if listed.isEmpty then ofExcept (.error (.nothingUnderPrefix start.text)) else pure listed

/-- Names before values; what is keyed by path has no names. -/
def settleNames (format : ExportFormat) (paths : List (SecretPath u)) : Except CiError Unit :=
  if format = .json then .ok ()
  else do
    let names ← (EnvVarName.assign paths).mapError fun error => CiError.render (.envName error)
    refuseControlNames .processControlName names

/-! ### What is delivered -/

def textOf (secret : Secret u) : Except CiError (Exported u) :=
  match Rust.fromUtf8 secret.value with
  | some value => .ok ⟨secret.path, value⟩
  | none => .error (.notText secret.path.text)

/-- The values as text. -/
def asText (secrets : List (Secret u)) : Except CiError (List (Exported u)) := secrets.mapM textOf

/-- What is reported: names, or the paths where there are none. -/
def subjects (format : ExportFormat) (exported : List (Exported u)) : Option (List String) :=
  if format = .json then some (exported.map (·.path.text))
  else
    match assignNames exported with
    | .ok names => some (names.map (·.text))
    | .error _ => none

/-- What was delivered, on standard error. -/
def report (cli : Cli) (format : ExportFormat) (exported : List (Exported u)) : HostProgram CiError Unit :=
  if cli.report then
    match subjects format exported with
    | some subjects =>
        Script.ask (.printError ("ciphr-ci: delivering " ++ ", ".intercalate subjects)) fun _ => .ok ()
    | none => pure ()
  else pure ()

/-- `ExportFormat::render`. -/
def render (runner : Runner u) (format : ExportFormat) (secrets : List (Exported u)) :
    Except ExportError String :=
  match format with
  | .dotenv => renderDotenv secrets
  | .actionsEnv => do
      let (masks, assignments) ← renderActionsEnv runner.random secrets
      .ok (masks ++ assignments)
  | .json => .ok (renderJson runner.json secrets)

def writeOut (text : String) : HostProgram CiError Unit := Script.ask (.writeOut text) (·.mapError .output)

/-- Appending, because earlier steps have written to the file and later ones will. -/
def append (path text : String) : HostProgram CiError Unit := do
  let file ← Script.ask (.openAppend path) fun reply => reply.mapError (.environmentFile path)
  Script.ask (.append file text) fun reply => reply.mapError (.environmentFile path)

/-- Render the set and write it where the format says. -/
def deliver (runner : Runner u) (format : ExportFormat) (secrets : List (Exported u))
    (githubEnv : Option String) : HostProgram CiError Unit :=
  if format ≠ .actionsEnv then do
    let rendered ← ofExcept ((render runner format secrets).mapError .render)
    writeOut rendered
  else do
    -- Both halves before either is written.
    let (masks, assignments) ← ofExcept ((renderActionsEnv runner.random secrets).mapError .render)
    let _ ← writeOut masks
    let _ ← Script.ask .flushOut fun reply => reply.mapError .output
    match githubEnv with
    | some path => append path assignments
    | none => writeOut assignments

def run (runner : Runner u) (cli : Cli) : HostProgram CiError Unit := do
  let format ← ofExcept (parseFormat cli.format)
  let target ← environmentFile cli format
  let _ ← refusePipe cli format
  let token ← readToken runner.toPlatform cli.tokenFile
  let authority ← Script.ask (.readFile cli.ca) fun reply => reply.mapError (.authorityFile cli.ca)
  let client ← ofExcept (((builder cli token authority).build runner.toPlatform).mapError .configuration)
  let paths ← paths u client cli
  let _ ← ofExcept (settleNames format paths)
  let secrets ← (client.send (Client.readAll paths)).mapError .service
  let exported ← ofExcept (asText secrets)
  let _ ← report cli format exported
  deliver runner format exported target

/-- `main`; it ends with the exit code. -/
def main (runner : Runner u) (cli : Cli) : HostProgram Empty UInt8 := do
  match ← (run runner cli).outcome with
  | .ok () => return 0
  | .error error => do
      let _ ← Script.ask (.printError ("ciphr-ci: " ++ error.display runner.debug)) fun _ =>
        (.ok () : Except Empty Unit)
      return CiError.code

end Ci

end Ciphr
