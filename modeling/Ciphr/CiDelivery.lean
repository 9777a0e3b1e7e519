import Ciphr.CiStages
import Ciphr.ExportMasks
import Ciphr.ExportShell
import Ciphr.SdkServed

/-!
The step of a job and the service: what a later step reads of what `ciphr-ci` has written, where the
service at the other end is this one and others use it as well.
-/

namespace Ciphr

open Script
open Cli (ExportFormat)

namespace Ci

variable {u : Unicode}

/-- What a later step is to find: the values, under the last segments of their paths. -/
def variablesOf (exported : List (Exported u)) : List (String × String) :=
  exported.map fun one => (one.path.lastSegment, one.value)

theorem variablesOf_eq {exported : List (Exported u)} {names : List EnvVarName}
    (h : assignNames exported = .ok names) :
    (exported.zip names).map (fun item => (item.2.text, item.1.value)) = variablesOf exported := by
  have htexts := EnvVarName.text_of_assign h
  rw [List.map_map] at htexts
  clear h
  unfold variablesOf
  induction exported generalizing names with
  | nil => rfl
  | cons one exported ih =>
      cases names with
      | nil => cases htexts
      | cons name names =>
          rw [List.map_cons, List.map_cons, List.cons.injEq] at htexts
          rw [List.zip_cons_cons, List.map_cons, List.map_cons, ih htexts.2, htexts.1]
          rfl

/-- What was written is read back as the values: by a shell that sources it, where no value holds a NUL; by
a runner, which masks the lines of the values (as they stand, where nothing in them is replaced) and
reads its environment file; or as an object. -/
inductive Received (runner : Runner u) (exported : List (Exported u)) :
    ExportFormat → Option String → List HostAct → Prop
  | dotenv {target : Option String} {text : String}
      (hsource : (∀ one ∈ exported, '\x00' ∉ one.value.toList) →
        Shell.source text.toList =
          some ((variablesOf exported).map fun named => .assign named.1.toList named.2.toList)) :
      Received runner exported .dotenv target [⟨.writeOut text, .ok ()⟩]
  | actionsEnv {target : Option String} {masks assignments : String} {puts : List HostAct}
      (hmasks : executeCommands masks = (exportedLines exported).map
        fun line => .masks (String.ofList (unescapeData line.toList)))
      (hexact : (∀ line ∈ exportedLines exported, ¬ Escapes line.toList) →
        executeCommands masks = (exportedLines exported).map .masks)
      (hread : readEnvironmentFile assignments = some (variablesOf exported))
      (hputs : match target with
        | some path => ∃ file, puts = [⟨.openAppend path, .ok file⟩, ⟨.append file assignments, .ok ()⟩]
        | none => puts = [⟨.writeOut assignments, .ok ()⟩]) :
      Received runner exported .actionsEnv target
        (⟨.writeOut masks, .ok ()⟩ :: ⟨.flushOut, .ok ()⟩ :: puts)
  | json {target : Option String} {text : String} {object : List (String × String)}
      (hread : runner.json.parse text = some object) (hobject : ObjectOf exported object) :
      Received runner exported .json target [⟨.writeOut text, .ok ()⟩]

theorem Writes.received {runner : Runner u} {exported : List (Exported u)} {format : ExportFormat}
    {target : Option String} {written : List HostAct} (hjson : runner.json.Lawful)
    (h : Writes runner exported format target written (.ok ())) :
    Received runner exported format target written := by
  have hread : ∀ {masks assignments : String},
      renderActionsEnv runner.random exported = .ok (masks, assignments) →
        executeCommands masks = (exportedLines exported).map
            (fun line => .masks (String.ofList (unescapeData line.toList))) ∧
          ((∀ line ∈ exportedLines exported, ¬ Escapes line.toList) →
            executeCommands masks = (exportedLines exported).map .masks) ∧
          readEnvironmentFile assignments = some (variablesOf exported) := by
    intro masks assignments hrender
    obtain ⟨names, hnames, -, hassigned⟩ := read_assignments hrender
    rw [variablesOf_eq hnames] at hassigned
    refine ⟨executeCommands_masks hrender, fun hplain => ?_, hassigned⟩
    rw [executeCommands_masks hrender]
    exact List.map_inj_left.mpr fun line hline => masks_unescaped_iff.mpr (hplain line hline)
  generalize hresult : (Except.ok () : Except CiError Unit) = result at h
  cases h with
  | @whole _ _ text reply hformat hrender =>
      rw [Loop.mapError_eq_ok hresult.symm]
      cases format with
      | dotenv =>
          refine .dotenv fun hnul => ?_
          obtain ⟨names, hnames, hsource⟩ := source_renderDotenv hrender hnul
          rw [hsource, ← variablesOf_eq hnames]
          unfold dotenvItems
          rw [List.map_map, List.map_map]
          rfl
      | actionsEnv => exact (hformat rfl).elim
      | json =>
          cases hrender
          obtain ⟨object, hread, hobject⟩ := parse_renderJson hjson exported
          exact .json hread hobject
  | unmasked => cases hresult
  | unflushed => cases hresult
  | printed reply hrender =>
      obtain ⟨hmasks, hexact, hassigned⟩ := hread hrender
      rw [Loop.mapError_eq_ok hresult.symm]
      exact .actionsEnv hmasks hexact hassigned rfl
  | unopened => cases hresult
  | appended file reply hrender =>
      obtain ⟨hmasks, hexact, hassigned⟩ := hread hrender
      rw [Loop.mapError_eq_ok hresult.symm]
      exact .actionsEnv hmasks hexact hassigned ⟨file, rfl⟩

section Service

variable [ReservedPaths u] {δ ω φ : Type} [AuditDevice δ ω φ] {deployment : Deployment}
  {codec : Codec} {json : JsonExtract} {database : ω → Database}
  {between : Server δ ω → Server δ ω → Prop} {headers : Client → Headers}
  {readings : List (Reading u δ ω)} {runner : Runner u} {cli : Cli} {acts : List HostAct}

/-- A value that is delivered for a path is one that was granted for it. -/
def Granted (deployment : Deployment) (readings : List (Reading u δ ω)) (token : String)
    (path : SecretPath u) (one : Exported u) : Prop :=
  one.path = path ∧ GrantedValue deployment readings token path one.value

/-- The names of the variables are distinct, and none of them decides how a later step starts. -/
def Inert (exported : List (Exported u)) : Prop :=
  ((variablesOf exported).map (·.1)).Nodup ∧
    ∀ named ∈ variablesOf exported, processControlReason named.1 = none

theorem Chosen.wanted {client : Client} {paths : List (SecretPath u)} {listing : List HostAct}
    (hgenuine : GenuineHost deployment codec json database between headers readings acts)
    (hsub : listing ⊆ acts) (h : Chosen cli client paths listing) : Wanted cli.start cli.path readings paths := by
  cases h with
  | path hcli hparse => exact .path hcli hparse
  | @start _ start _ reply hcli hparse hlisted hne =>
      have hinner : List.Forall₂ (Asked client)
          [⟨.request client (.listPaths (.ok start.text) (.ok none)), reply⟩]
          [⟨.listPaths (.ok start.text) (.ok none), reply⟩] := .cons ⟨reply, rfl, rfl⟩ .nil
      exact .start hcli hparse hne (Client.listedBelow (hgenuine.asked hinner hsub) hlisted)

theorem Fetched.granted (hstable : u.Stable)
    (hheaders : ∀ client, (headers client).authorization = some (utf8 client.authorization))
    (hgenuine : GenuineHost deployment codec json database between headers readings acts)
    {prepared : Prepared u} {reads : List HostAct} {exported : List (Exported u)} {token : String}
    (hsub : reads ⊆ acts) (hclient : prepared.client.authorization = "Bearer " ++ Rust.trim token)
    (h : Fetched prepared reads exported) :
    List.Forall₂ (Granted deployment readings token) prepared.paths exported := by
  obtain ⟨inner, secrets, hasked, hruns, htexts⟩ := h
  have hserved := Client.readAll_served hstable (hgenuine.asked hasked hsub) hruns
  refine forall₂_of_common hserved.flip (Loop.mapM_eq_ok_iff.mp htexts) fun secret path one hsecret hone => ?_
  obtain ⟨text, htext, hgranted⟩ := ServedValue.granted (hheaders _) hclient hsecret
  have hdecoded : Rust.fromUtf8 secret.value = some text := by
    rw [htext]
    exact Rust.fromUtf8_toUTF8 text
  unfold textOf at hone
  rw [hdecoded] at hone
  cases hone
  exact ⟨ServedValue.path_eq hsecret, hgranted⟩

omit [ReservedPaths u] in
/-- The names were settled for the paths that were asked for, and the service has answered with those. -/
theorem Settled.inert {before : List HostAct} {prepared : Prepared u} {exported : List (Exported u)}
    (h : Settled runner cli before prepared) (hpaths : exported.map (·.path) = prepared.paths)
    (hformat : prepared.format ≠ .json) : Inert exported := by
  obtain ⟨names, hnames, hinert⟩ := h.names hformat
  have htexts := EnvVarName.text_of_assign hnames
  have hlast := ((EnvVarName.assign_eq_ok_iff _).mp ⟨names, hnames⟩).2
  have hvariables : (variablesOf exported).map (·.1) = prepared.paths.map SecretPath.lastSegment := by
    unfold variablesOf
    rw [← hpaths, List.map_map, List.map_map]
    rfl
  refine ⟨hvariables ▸ hlast, fun found hfound => ?_⟩
  have hmem : found.1 ∈ names.map (·.text) := by
    rw [htexts, ← hvariables]
    exact List.mem_map_of_mem hfound
  obtain ⟨name, hname, hsame⟩ := List.mem_map.mp hmem
  rw [← hsame]
  exact hinert name hname

end Service

end Ci

namespace Sample

end Sample

end Ciphr
