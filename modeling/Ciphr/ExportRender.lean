import Ciphr.CoreEnvName
import Ciphr.CoreHex

/-!
`ciphr-export/src/lib.rs`: a set of secrets as a dotenv file, or as mask commands and the assignments
of an environment file; and `ciphr-ci/src/deliver.rs`, which writes the latter.
-/

namespace Ciphr

variable {u : Unicode}

/-- A path and its value, ready to be written out. -/
structure Exported (u : Unicode) where
  path : SecretPath u
  value : String

inductive ExportError where
  | envName (error : EnvNameError)
  | delimiter (name reason : String)
  deriving DecidableEq

def assignNames (secrets : List (Exported u)) : Except EnvNameError (List EnvVarName) :=
  EnvVarName.assign (secrets.map (·.path))

/-! ### Dotenv -/

/-- A quote is closed, escaped and opened again. -/
def quoteChar (c : Char) : List Char := if c = '\'' then ['\'', '\\', '\'', '\''] else [c]

def shellSingleQuote (value : String) : String :=
  String.ofList ('\'' :: (value.toList.flatMap quoteChar ++ ['\'']))

def renderDotenv (secrets : List (Exported u)) : Except ExportError String := do
  let names ← (assignNames secrets).mapError .envName
  .ok ((secrets.zip names).foldl
    (fun out item => out ++ item.2.text ++ "=" ++ shellSingleQuote item.1.value ++ "\n") "")

/-! ### The environment file of a runner -/

def delimiterAttempts : Nat := 4

/-- What the random source answers to each call: 16 bytes, or that there is no entropy. -/
abbrev Entropy := Nat → Option (Vector UInt8 16)

/-- The attempts that are left; `drawn` counts the calls of the random source so far. -/
def drawDelimiter (random : Entropy) (name value : String) :
    Nat → Nat → Except ExportError (String × Nat)
  | 0, _ =>
      .error (.delimiter name
        (toString delimiterAttempts ++ " random delimiters all occur in the value"))
  | attempts + 1, drawn =>
      match random drawn with
      | none => .error (.delimiter name "the operating system provided no entropy")
      | some bytes =>
          let candidate := "ciphr_" ++ name ++ "_" ++ Hex.encode bytes.toList
          if (Rust.lines value).any (· == candidate) then
            drawDelimiter random name value attempts (drawn + 1)
          else .ok (candidate, drawn + 1)

def heredocDelimiter (random : Entropy) (name value : String) (drawn : Nat) :
    Except ExportError (String × Nat) :=
  drawDelimiter random name value delimiterAttempts drawn

/-- The mask commands of a value: one for each line that is not empty. -/
def maskLines (value : String) : String :=
  (Rust.lines value).foldl
    (fun masks line => if line.isEmpty then masks else masks ++ "::add-mask::" ++ line ++ "\n") ""

/-- The variables of the loop of `render_actions_env`. -/
structure Rendering where
  masks : String
  assignments : String
  drawn : Nat

/-- One turn of the loop of `render_actions_env`. -/
def renderNext (random : Entropy) (state : Rendering) (item : Exported u × EnvVarName) :
    Except ExportError Rendering := do
  let masks := state.masks ++ maskLines item.1.value
  let name := item.2.text
  if item.1.value.toList.contains '\n' then do
    let (delimiter, drawn) ← heredocDelimiter random name item.1.value state.drawn
    .ok ⟨masks, state.assignments ++
      (name ++ "<<" ++ delimiter ++ "\n" ++ item.1.value ++ "\n" ++ delimiter ++ "\n"), drawn⟩
  else .ok ⟨masks, state.assignments ++ (name ++ "=" ++ item.1.value ++ "\n"), state.drawn⟩

/-- The mask commands and the assignments. -/
def renderActionsEnv (random : Entropy) (secrets : List (Exported u)) :
    Except ExportError (String × String) := do
  let names ← (assignNames secrets).mapError .envName
  let state ← (secrets.zip names).foldlM (renderNext random) ⟨"", "", 0⟩
  .ok (state.masks, state.assignments)

/-! ### The object of paths and values -/

/-- `serde_json`: how it writes an object whose values are strings over several lines, or fails to, and
what it reads a text as. -/
structure JsonObjects where
  pretty : List (String × String) → Option String
  parse : String → Option (List (String × String))

/-- `Map::insert`: the members are in the order of their keys, and a key that is there gets the value. -/
def insertMember (key value : String) : List (String × String) → List (String × String)
  | [] => [(key, value)]
  | one :: rest =>
      if key < one.1 then (key, value) :: one :: rest
      else if key = one.1 then (key, value) :: rest
      else one :: insertMember key value rest

def jsonMap (secrets : List (Exported u)) : List (String × String) :=
  secrets.foldl (fun map secret => insertMember secret.path.text secret.value map) []

def renderJson (json : JsonObjects) (secrets : List (Exported u)) : String :=
  (json.pretty (jsonMap secrets)).getD "\x7b\x7d" ++ "\n"

/-! ### Where the two halves go -/

inductive CiError where
  | render (error : ExportError)
  | output (reason : String)
  | environmentFile (path reason : String)
  deriving DecidableEq

/-- The standard output and the environment file of a step. -/
structure Sinks where
  out : String
  environment : String
  deriving DecidableEq

/-- What fails of the calls on the sinks: how many characters a failing write has written, and why it
has failed. -/
structure SinkFaults where
  masks : Option (Nat × String)
  flush : Option String
  opening : Option String
  assignments : Option (Nat × String)

/-- `write_all`: the text afterwards, and the result. -/
def writeAll (text : String) (written : String) (fault : Option (Nat × String)) :
    String × Except String Unit :=
  match fault with
  | some (count, reason) => (written ++ String.ofList (text.toList.take count), .error reason)
  | none => (written ++ text, .ok ())

/-- `deliver` for the format of a runner; `githubEnv` is the path of the environment file, where one
was asked for. -/
def deliver (random : Entropy) (secrets : List (Exported u)) (githubEnv : Option String)
    (faults : SinkFaults) (sinks : Sinks) : Sinks × Except CiError Unit :=
  match renderActionsEnv random secrets with
  | .error error => (sinks, .error (.render error))
  | .ok (masks, assignments) =>
      let (out, result) := writeAll masks sinks.out faults.masks
      match result with
      | .error reason => ({ sinks with out := out }, .error (.output reason))
      | .ok () =>
          match faults.flush, githubEnv with
          | some reason, _ => ({ sinks with out := out }, .error (.output reason))
          | none, none =>
              let (out, result) := writeAll assignments out faults.assignments
              ({ sinks with out := out }, result.mapError .output)
          | none, some path =>
              match faults.opening with
              | some reason => ({ sinks with out := out }, .error (.environmentFile path reason))
              | none =>
                  let (environment, result) :=
                    writeAll assignments sinks.environment faults.assignments
                  (⟨out, environment⟩, result.mapError (.environmentFile path))

end Ciphr
