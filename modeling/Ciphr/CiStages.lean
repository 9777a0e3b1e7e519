import Ciphr.CiFetch
import Ciphr.CoreEnvAssign
import Ciphr.ExportJson

/-!
The stages of `ciphr-ci`: what has been settled before a value is asked for, and what is there before
one is written.
-/

namespace Ciphr

open Script
open Cli (ExportFormat)

variable {u : Unicode}

/-- The requests that read the values of paths. -/
inductive Client.ReadsValues (paths : List (SecretPath u)) : ApiRequest → Prop
  | bulk : ReadsValues paths (.exportPaths (.ok (paths.map (·.text))))
  | one {path : SecretPath u} (h : path ∈ paths) : ReadsValues paths (.readSecret (.ok path.text) (.ok ⟨none⟩))

theorem Client.asks_readAll {paths : List (SecretPath u)} {T : ApiRequest → Delivered → Prop} :
    (Client.readAll paths).Asks T (Client.ReadsValues paths) := by
  have heach : ∀ some : List (SecretPath u), some ⊆ paths →
      (Client.getEach some).Asks T (Client.ReadsValues paths) := by
    intro some hsub
    induction some with
    | nil => exact asks_pure
    | cons path some ih =>
        obtain ⟨hpath, hrest⟩ := List.cons_subset.mp hsub
        have hget : (Client.get path).Asks T (Client.ReadsValues paths) := asks_ask (.one hpath)
        exact hget.bind fun secret => (ih hrest).bind fun secrets => asks_pure
  have hbulk : (Client.exportAll paths).Asks T (Client.ReadsValues paths) := asks_ask .bulk
  refine hbulk.outcome.bind fun ended => ?_
  split
  · exact asks_pure
  · exact heach paths fun _ hmem => hmem
  · exact asks_ofExcept

namespace Ci

variable {runner : Runner u} {cli : Cli}

/-! ### Before a value is asked for -/

/-- What is settled before a value is asked for. -/
structure Prepared (u : Unicode) where
  format : ExportFormat
  target : Option String
  client : Client
  paths : List (SecretPath u)

/-- `run` up to the fetch. -/
def prepare (runner : Runner u) (cli : Cli) : HostProgram CiError (Prepared u) := do
  let format ← ofExcept (parseFormat cli.format)
  let target ← environmentFile cli format
  let _ ← refusePipe cli format
  let token ← readToken runner.toPlatform cli.tokenFile
  let authority ← Script.ask (.readFile cli.ca) fun reply => reply.mapError (.authorityFile cli.ca)
  let client ← ofExcept (((builder cli token authority).build runner.toPlatform).mapError .configuration)
  let paths ← paths u client cli
  let _ ← ofExcept (settleNames format paths)
  return ⟨format, target, client, paths⟩

/-- The fetch. -/
def fetch (prepared : Prepared u) : HostProgram CiError (List (Exported u)) := do
  let secrets ← (prepared.client.send (Client.readAll prepared.paths)).mapError .service
  ofExcept (asText secrets)

theorem run_eq : run runner cli = prepare runner cli >>= fun prepared => fetch prepared >>= fun exported =>
    report cli prepared.format exported >>= fun _ =>
      deliver runner prepared.format exported prepared.target := by
  unfold run prepare fetch
  simp only [bind_assoc]
  rfl

/-- A call that neither asks the service for a value nor writes where one could go. -/
def Quiet : HostCall → Prop
  | .request _ (.listPaths _ _) => True
  | .request _ _ | .writeOut _ | .flushOut | .openAppend _ | .append _ _ | .exec _ => False
  | _ => True

/-- What was asked of the host about the invocation. -/
def invoked (cli : Cli) (prepared : Prepared u) : List HostAct :=
  (if cli.githubEnv then [⟨.environmentVariable "GITHUB_ENV", prepared.target⟩] else []) ++
    if prepared.format.writesValuesToStdout && !cli.force then [⟨.stdoutIsTerminal, true⟩] else []

/-- The paths to fetch, and the listing that they were learned from. -/
inductive Chosen (cli : Cli) (client : Client) : List (SecretPath u) → List HostAct → Prop
  | path {paths : List (SecretPath u)} (hcli : cli.start = none)
      (hparse : List.Forall₂ (fun raw path => SecretPath.parse u raw = .ok path) cli.path paths) :
      Chosen cli client paths []
  | start {raw : String} {start : SecretPath u} {paths : List (SecretPath u)} {reply : Delivered}
      (hcli : cli.start = some raw) (hparse : SecretPath.parse u raw = .ok start)
      (hlisted : Client.listed start reply = .ok paths) (hne : paths ≠ []) :
      Chosen cli client paths [⟨.request client (.listPaths (.ok start.text) (.ok none)), reply⟩]

/-- Everything that can be refused before the fetch was looked at. -/
structure Settled (runner : Runner u) (cli : Cli) (before : List HostAct) (prepared : Prepared u) :
    Prop where
  format : ExportFormat.parse cli.format = some prepared.format
  masked : cli.githubEnv = true → prepared.format = .actionsEnv
  target : prepared.target.isSome = cli.githubEnv
  names : prepared.format ≠ .json → ∃ names, EnvVarName.assign prepared.paths = .ok names ∧
    ∀ name ∈ names, processControlReason name.text = none
  steps : ∃ credential token pem listing,
    before = invoked cli prepared ++ (credential ++ ⟨.readFile cli.ca, .ok pem⟩ :: listing) ∧
      TokenRead runner.toPlatform cli.tokenFile token credential ∧
      (builder cli token pem).build runner.toPlatform = .ok prepared.client ∧
      Chosen cli prepared.client prepared.paths listing

theorem asks_prepare {T : (c : HostCall) → HostCall.Reply c → Prop} :
    (prepare runner cli).Asks T Quiet := by
  have hfile : ∀ format, (environmentFile cli format).Asks T Quiet := by
    intro format
    unfold environmentFile
    split
    · exact asks_pure
    · split
      · exact asks_ofExcept
      · exact asks_ask trivial
  have hpipe : ∀ format, (refusePipe cli format).Asks T Quiet := by
    intro format
    unfold refusePipe
    split
    · exact asks_ask trivial
    · exact asks_pure
  have htoken : (readToken runner.toPlatform cli.tokenFile).Asks T Quiet := by
    apply asks_readTokenFile.mono
    intro c hc
    cases c with
    | openFile => trivial
    | metadata => trivial
    | readToString => trivial
    | _ => exact hc.elim
  have hpaths : ∀ client, (paths u client cli).Asks T Quiet := by
    intro client
    unfold paths
    split
    · exact asks_ofExcept
    · refine asks_ofExcept.bind fun start => Asks.bind (Asks.mapError ?_) fun listed => ?_
      · have hlist : (Client.list start).Asks (fun _ _ => True)
            fun request => request = .listPaths (.ok start.text) (.ok none) := asks_ask rfl
        refine hlist.through (fun request hrequest => ?_) fun _ _ _ => trivial
        rw [hrequest]
        trivial
      · split
        · exact asks_ofExcept
        · exact asks_pure
  exact asks_ofExcept.bind fun format => (hfile format).bind fun _ => (hpipe format).bind fun _ =>
    htoken.bind fun _ => Asks.bind (asks_ask trivial) fun _ => asks_ofExcept.bind fun client =>
      (hpaths client).bind fun _ => asks_ofExcept.bind fun _ => asks_pure

theorem runs_invocation_iff {format : ExportFormat} {target : Option String} (client : Client)
    (paths : List (SecretPath u)) {acts : List HostAct} :
    Runs (environmentFile cli format >>= fun target => refusePipe cli format >>= fun _ =>
        (pure target : HostProgram CiError (Option String))) acts (.ok target) ↔
      acts = invoked cli (⟨format, target, client, paths⟩ : Prepared u) ∧
        (cli.githubEnv = true → format = .actionsEnv) ∧ target.isSome = cli.githubEnv := by
  have hpipe : ∀ {acts : List HostAct} {found : Option String},
      Runs (refusePipe cli format >>= fun _ => (pure found : HostProgram CiError (Option String))) acts
          (.ok target) ↔
        acts = (if format.writesValuesToStdout && !cli.force then [⟨.stdoutIsTerminal, true⟩] else []) ∧
          target = found := by
    intro acts found
    unfold refusePipe
    split
    · constructor
      · intro h
        obtain ⟨terminal, _, rest, rfl, hterminal, h⟩ := runs_ask_bind_ok h
        obtain ⟨rfl, hsame⟩ := runs_pure_iff.mp h
        cases terminal with
        | true => exact ⟨rfl, Except.ok.inj hsame⟩
        | false => cases hterminal
      · intro h
        obtain ⟨rfl, rfl⟩ := h
        exact Runs.ask_bind rfl (runs_pure_iff.mpr ⟨rfl, rfl⟩)
    · constructor
      · intro h
        obtain ⟨rfl, hsame⟩ := runs_pure_iff.mp h
        exact ⟨rfl, Except.ok.inj hsame⟩
      · intro h
        obtain ⟨rfl, rfl⟩ := h
        exact runs_pure_iff.mpr ⟨rfl, rfl⟩
  unfold environmentFile invoked
  cases henv : cli.githubEnv with
  | false =>
      constructor
      · intro h
        obtain ⟨hacts, rfl⟩ := hpipe.mp h
        exact ⟨hacts, fun hset => (Bool.false_ne_true hset).elim, rfl⟩
      · intro h
        obtain ⟨hacts, -, hnone⟩ := h
        exact hpipe.mpr ⟨hacts, Option.not_isSome_iff_eq_none.mp (Bool.eq_false_iff.mp hnone)⟩
  | true =>
      by_cases hformat : format = .actionsEnv
      · rw [if_neg (by decide), if_neg (not_not.mpr hformat), if_pos rfl]
        constructor
        · intro h
          obtain ⟨reply, found, rest, rfl, hfound, h⟩ := runs_ask_bind_ok h
          obtain ⟨hrest, rfl⟩ := hpipe.mp h
          cases reply with
          | none => cases hfound
          | some path =>
              cases hfound
              rw [hrest]
              exact ⟨rfl, fun _ => hformat, rfl⟩
        · intro h
          obtain ⟨rfl, -, hsome⟩ := h
          obtain ⟨path, rfl⟩ := Option.isSome_iff_exists.mp hsome
          exact Runs.ask_bind rfl (hpipe.mpr ⟨rfl, rfl⟩)
      · rw [if_neg (by decide), if_pos hformat]
        constructor
        · intro h
          obtain ⟨_, hfailed, -⟩ := runs_ofExcept_bind_ok h
          cases hfailed
        · intro h
          exact (hformat (h.2.1 rfl)).elim

theorem runs_paths_iff {client : Client} {chosen : List (SecretPath u)} {acts : List HostAct} :
    Runs (paths u client cli) acts (.ok chosen) ↔ Chosen cli client chosen acts := by
  unfold paths
  constructor
  · intro h
    split at h
    · rename_i hcli
      obtain ⟨rfl, hchosen⟩ := runs_ofExcept_iff.mp h
      exact .path hcli (parsed_of_mapM hchosen.symm)
    · rename_i raw hcli
      obtain ⟨start, hstart, hafter⟩ := runs_ofExcept_bind_ok h
      obtain ⟨listed, front, rest, hacts, hlist, hended⟩ := runs_bind_ok hafter
      obtain ⟨inner, hasked, hinner⟩ := runs_send hlist
      obtain ⟨told, hone, hreply⟩ := runs_ask_iff.mp hinner
      rw [hone] at hasked
      obtain ⟨act, more, ⟨reply, hact, htold⟩, hnil, hfront⟩ := List.forall₂_cons_right_iff.mp hasked
      rw [List.forall₂_nil_right_iff.mp hnil] at hfront
      rw [hacts, hfront, hact]
      split at hended
      · cases (runs_ofExcept_iff.mp hended).2
      · rename_i hempty
        obtain ⟨rfl, hsame⟩ := runs_pure_iff.mp hended
        cases hsame
        have htold : told = reply := htold
        rw [htold] at hreply
        refine .start hcli (Loop.mapError_eq_ok hstart) hreply.symm fun hnil => hempty ?_
        rw [hnil]
        rfl
  · intro h
    cases h with
    | path hcli hparse =>
        rw [hcli]
        exact runs_ofExcept_iff.mpr ⟨rfl, (mapM_of_parsed hparse).symm⟩
    | @start raw start _ reply hcli hparse hlisted hne =>
        rw [hcli]
        have hlist : Runs (Client.list start) [⟨.listPaths (.ok start.text) (.ok none), reply⟩]
            (.ok chosen) := runs_ask_iff.mpr ⟨reply, rfl, hlisted.symm⟩
        have hsent : Runs ((client.send (Client.list start)).mapError CiError.service)
            [⟨.request client (.listPaths (.ok start.text) (.ok none)), reply⟩] (.ok chosen) :=
          Runs.send (.cons ⟨reply, rfl, rfl⟩ .nil) hlist
        refine Runs.ofExcept_bind (a := start) ?_ ?_
        · rw [hparse]
          rfl
        · rw [← List.append_nil [_]]
          refine hsent.bind ?_
          rw [if_neg (by simpa using hne)]
          exact runs_pure_iff.mpr ⟨rfl, rfl⟩

theorem settleNames_eq_ok {format : ExportFormat} {paths : List (SecretPath u)} :
    settleNames format paths = .ok () ↔ (format ≠ .json → ∃ names, EnvVarName.assign paths = .ok names ∧
      ∀ name ∈ names, processControlReason name.text = none) := by
  unfold settleNames
  split
  · rename_i hformat
    exact ⟨fun _ hne => (hne hformat).elim, fun _ => rfl⟩
  · rename_i hformat
    cases hnames : EnvVarName.assign paths with
    | error error =>
        constructor
        · intro h
          cases h
        · intro h
          obtain ⟨names, hok, -⟩ := h hformat
          cases hok
    | ok names =>
        have hsame : (refuseControlNames CiError.processControlName names = .ok ()) ↔ _ :=
          refuseControlNames_ok_iff
        constructor
        · intro h _
          exact ⟨names, rfl, hsame.mp h⟩
        · intro h
          obtain ⟨found, hfound, hinert⟩ := h hformat
          cases hfound
          exact hsame.mpr hinert

/-- The program comes as far as to fetch exactly where everything is settled. -/
theorem runs_prepare_iff {before : List HostAct} {prepared : Prepared u} :
    Runs (prepare runner cli) before (.ok prepared) ↔ Settled runner cli before prepared := by
  constructor
  · intro h
    obtain ⟨format, hformat, h⟩ := runs_ofExcept_bind_ok h
    obtain ⟨target, first, afterFile, rfl, hfile, h⟩ := runs_bind_ok h
    obtain ⟨passed, second, afterPipe, rfl, hpipe, h⟩ := runs_bind_ok h
    obtain ⟨token, credential, afterToken, rfl, htoken, h⟩ := runs_bind_ok h
    obtain ⟨reply, pem, afterCa, rfl, hpem, h⟩ := runs_ask_bind_ok h
    obtain ⟨client, hbuild, h⟩ := runs_ofExcept_bind_ok h
    obtain ⟨paths, listing, afterPaths, rfl, hpaths, h⟩ := runs_bind_ok h
    obtain ⟨settled, hnames, h⟩ := runs_ofExcept_bind_ok h
    obtain ⟨rfl, hsame⟩ := runs_pure_iff.mp h
    cases hsame
    have hparsed : ExportFormat.parse cli.format = some format := by
      unfold parseFormat at hformat
      split at hformat
      · cases hformat
        assumption
      · cases hformat
    have hlast : Runs (pure target : HostProgram CiError (Option String)) [] (.ok target) :=
      runs_pure_iff.mpr ⟨rfl, rfl⟩
    obtain ⟨hinvoked, hmasked, htarget⟩ :=
      (runs_invocation_iff client paths).mp (hfile.bind (hpipe.bind hlast))
    refine ⟨hparsed, hmasked, htarget, settleNames_eq_ok.mp hnames, credential, token, pem, listing, ?_,
      runs_readTokenFile htoken, Loop.mapError_eq_ok hbuild, runs_paths_iff.mp hpaths⟩
    rw [← hinvoked, Loop.mapError_eq_ok hpem]
    simp only [List.append_nil, List.append_assoc]
  · intro h
    obtain ⟨credential, token, pem, listing, rfl, htoken, hbuild, hchosen⟩ := h.steps
    have hformat : parseFormat cli.format = .ok prepared.format := by
      unfold parseFormat
      rw [h.format]
    have hinvocation := (runs_invocation_iff prepared.client prepared.paths).mpr
      ⟨(rfl : invoked cli prepared = invoked cli ⟨_, _, prepared.client, prepared.paths⟩), h.masked, h.target⟩
    obtain ⟨target, first, rest, hfirst, hfile, hrest⟩ := runs_bind_ok hinvocation
    obtain ⟨passed, second, last, hsecond, hpipe, hlast⟩ := runs_bind_ok hrest
    obtain ⟨rfl, hsame⟩ := runs_pure_iff.mp hlast
    cases hsame
    rw [hfirst, hsecond, List.append_nil, List.append_assoc]
    refine Runs.ofExcept_bind hformat (hfile.bind (hpipe.bind (htoken.runs.bind (Runs.ask_bind rfl ?_))))
    refine Runs.ofExcept_bind (a := prepared.client) ?_ ?_
    · rw [hbuild]
      rfl
    · rw [← List.append_nil listing]
      refine (runs_paths_iff.mpr hchosen).bind (Runs.ofExcept_bind (settleNames_eq_ok.mpr h.names) ?_)
      exact runs_pure_iff.mpr ⟨rfl, rfl⟩

/-! ### Before a value is written -/

/-- A call that writes to no sink. -/
def Unwritten : HostCall → Prop
  | .writeOut _ | .flushOut | .openAppend _ | .append _ _ | .exec _ => False
  | _ => True

/-- The values are what the service was asked for, as text. -/
def Fetched (prepared : Prepared u) (reads : List HostAct) (exported : List (Exported u)) : Prop :=
  ∃ inner secrets, List.Forall₂ (Asked prepared.client) reads inner ∧
    Runs (Client.readAll prepared.paths) inner (.ok secrets) ∧ asText secrets = .ok exported

theorem runs_fetch_iff {prepared : Prepared u} {reads : List HostAct} {exported : List (Exported u)} :
    Runs (fetch prepared) reads (.ok exported) ↔ Fetched prepared reads exported := by
  constructor
  · intro h
    obtain ⟨secrets, front, rest, rfl, hsent, h⟩ := runs_bind_ok h
    obtain ⟨rfl, htext⟩ := runs_ofExcept_iff.mp h
    obtain ⟨inner, hasked, hruns⟩ := runs_send hsent
    rw [List.append_nil]
    exact ⟨inner, secrets, hasked, hruns, htext.symm⟩
  · intro h
    obtain ⟨inner, secrets, hasked, hruns, htext⟩ := h
    rw [← List.append_nil reads]
    exact (Runs.send hasked hruns).bind (runs_ofExcept_iff.mpr ⟨rfl, htext.symm⟩)

/-- A call that reads values of the paths, by the client. -/
def Reads (prepared : Prepared u) (call : HostCall) : Prop :=
  ∃ request, call = .request prepared.client request ∧ Client.ReadsValues prepared.paths request

theorem asks_fetch {prepared : Prepared u} {T : (c : HostCall) → HostCall.Reply c → Prop} :
    (fetch prepared).Asks T (Reads prepared) := by
  refine Asks.bind (Asks.mapError ?_) fun secrets => asks_ofExcept
  exact (Client.asks_readAll (T := fun _ _ => True)).through (fun request hrequest => ⟨request, rfl, hrequest⟩)
    fun _ _ _ => trivial

/-- What was printed about values that are delivered. -/
def reported (cli : Cli) (format : ExportFormat) (exported : List (Exported u)) : List HostAct :=
  if cli.report then
    ((subjects format exported).map fun subjects =>
      (⟨.printError ("ciphr-ci: delivering " ++ ", ".intercalate subjects), ()⟩ : HostAct)).toList
  else []

theorem runs_report_iff {format : ExportFormat} {exported : List (Exported u)} {acts : List HostAct}
    {result : Except CiError Unit} :
    Runs (report cli format exported) acts result ↔ acts = reported cli format exported ∧ result = .ok () := by
  unfold report reported
  split
  · cases subjects format exported with
    | none => exact runs_pure_iff
    | some subjects =>
        constructor
        · intro h
          obtain ⟨reply, hacts, hresult⟩ := runs_ask_iff.mp h
          exact ⟨hacts, hresult⟩
        · intro h
          exact runs_ask_iff.mpr ⟨(), h.1, h.2⟩
  · exact runs_pure_iff

theorem unwritten_of_reported {format : ExportFormat} {exported : List (Exported u)} {act : HostAct}
    (h : act ∈ reported cli format exported) : Unwritten act.1 := by
  unfold reported at h
  split at h
  · obtain ⟨subjects, -, rfl⟩ := Option.map_eq_some_iff.mp (Option.mem_toList.mp h)
    trivial
  · cases h

/-! ### What is written -/

/-- How a rendered set goes out: the assignments only once the masks are written and flushed, and what
fails is the last step that is made. -/
inductive Writes (runner : Runner u) (exported : List (Exported u)) :
    ExportFormat → Option String → List HostAct → Except CiError Unit → Prop
  | whole {format : ExportFormat} {target : Option String} {text : String} (reply : Except String Unit)
      (hformat : format ≠ .actionsEnv) (hrender : render runner format exported = .ok text) :
      Writes runner exported format target [⟨.writeOut text, reply⟩] (reply.mapError .output)
  | unmasked {target : Option String} {masks assignments : String} (reason : String)
      (hrender : renderActionsEnv runner.random exported = .ok (masks, assignments)) :
      Writes runner exported .actionsEnv target [⟨.writeOut masks, .error reason⟩] (.error (.output reason))
  | unflushed {target : Option String} {masks assignments : String} (reason : String)
      (hrender : renderActionsEnv runner.random exported = .ok (masks, assignments)) :
      Writes runner exported .actionsEnv target
        [⟨.writeOut masks, .ok ()⟩, ⟨.flushOut, .error reason⟩] (.error (.output reason))
  | printed {masks assignments : String} (reply : Except String Unit)
      (hrender : renderActionsEnv runner.random exported = .ok (masks, assignments)) :
      Writes runner exported .actionsEnv none
        [⟨.writeOut masks, .ok ()⟩, ⟨.flushOut, .ok ()⟩, ⟨.writeOut assignments, reply⟩]
        (reply.mapError .output)
  | unopened {path masks assignments : String} (reason : String)
      (hrender : renderActionsEnv runner.random exported = .ok (masks, assignments)) :
      Writes runner exported .actionsEnv (some path)
        [⟨.writeOut masks, .ok ()⟩, ⟨.flushOut, .ok ()⟩, ⟨.openAppend path, .error reason⟩]
        (.error (.environmentFile path reason))
  | appended {path masks assignments : String} (file : Nat) (reply : Except String Unit)
      (hrender : renderActionsEnv runner.random exported = .ok (masks, assignments)) :
      Writes runner exported .actionsEnv (some path)
        [⟨.writeOut masks, .ok ()⟩, ⟨.flushOut, .ok ()⟩, ⟨.openAppend path, .ok file⟩,
          ⟨.append file assignments, reply⟩]
        (reply.mapError (.environmentFile path))

theorem render_actionsEnv_error {exported : List (Exported u)} {error : ExportError} :
    render runner .actionsEnv exported = .error error ↔ renderActionsEnv runner.random exported = .error error := by
  unfold render
  dsimp only
  cases renderActionsEnv runner.random exported with
  | error found =>
      change Except.error found = Except.error error ↔ _
      rw [Except.error.injEq, Except.error.injEq]
  | ok texts =>
      constructor
      · intro h
        cases h
      · intro h
        cases h

section Stages

variable {masks assignments path : String} {next : Unit → HostProgram CiError Unit} {acts : List HostAct}
  {result : Except CiError Unit}

/-- A script that gives out a text, or fails with the reason that it is told, and what follows it. -/
theorem runs_output_bind_iff {script : HostProgram CiError Unit} {act : Except String Unit → HostAct}
    (hscript : ∀ {acts result}, Runs script acts result ↔ ∃ reply, acts = [act reply] ∧
      result = reply.mapError .output) :
    Runs (script >>= next) acts result ↔
      (∃ reason, acts = [act (.error reason)] ∧ result = .error (.output reason)) ∨
        ∃ rest, acts = act (.ok ()) :: rest ∧ Runs (next ()) rest result := by
  rw [runs_bind_iff]
  constructor
  · rintro (⟨error, hgiven, rfl⟩ | ⟨_, front, rest, rfl, hgiven, hrest⟩)
    · obtain ⟨reply, rfl, hreply⟩ := hscript.mp hgiven
      cases reply with
      | error reason =>
          cases hreply
          exact .inl ⟨reason, rfl, rfl⟩
      | ok done => cases hreply
    · obtain ⟨reply, rfl, hreply⟩ := hscript.mp hgiven
      rw [Loop.mapError_eq_ok hreply.symm]
      exact .inr ⟨rest, rfl, hrest⟩
  · rintro (⟨reason, rfl, rfl⟩ | ⟨rest, rfl, hrest⟩)
    · exact .inl ⟨_, hscript.mpr ⟨.error reason, rfl, rfl⟩, rfl⟩
    · exact .inr ⟨(), [_], rest, rfl, hscript.mpr ⟨.ok (), rfl, rfl⟩, hrest⟩

theorem runs_masks_iff : Runs (writeOut masks >>= next) acts result ↔
    (∃ reason, acts = [⟨.writeOut masks, .error reason⟩] ∧ result = .error (.output reason)) ∨
      ∃ rest, acts = ⟨.writeOut masks, .ok ()⟩ :: rest ∧ Runs (next ()) rest result :=
  runs_output_bind_iff runs_ask_iff

theorem runs_flush_iff :
    Runs ((Script.ask .flushOut fun reply => reply.mapError .output : HostProgram CiError Unit) >>= next) acts
        result ↔
      (∃ reason, acts = [⟨.flushOut, .error reason⟩] ∧ result = .error (.output reason)) ∨
        ∃ rest, acts = ⟨.flushOut, .ok ()⟩ :: rest ∧ Runs (next ()) rest result :=
  runs_output_bind_iff runs_ask_iff

theorem runs_append_iff : Runs (append path assignments) acts result ↔
    (∃ reason, acts = [⟨.openAppend path, .error reason⟩] ∧ result = .error (.environmentFile path reason)) ∨
      ∃ file reply, acts = [⟨.openAppend path, .ok file⟩, ⟨.append file assignments, reply⟩] ∧
        result = reply.mapError (.environmentFile path) := by
  unfold append
  rw [runs_ask_bind_iff]
  constructor
  · rintro (⟨reply, e, hreply, rfl, rfl⟩ | ⟨reply, file, rest, hreply, rfl, hrest⟩)
    · cases reply with
      | error reason =>
          cases hreply
          exact .inl ⟨reason, rfl, rfl⟩
      | ok file => cases hreply
    · obtain ⟨written, rfl, rfl⟩ := runs_ask_iff.mp hrest
      rw [Loop.mapError_eq_ok hreply]
      exact .inr ⟨file, written, rfl, rfl⟩
  · rintro (⟨reason, rfl, rfl⟩ | ⟨file, reply, rfl, rfl⟩)
    · exact .inl ⟨.error reason, _, rfl, rfl, rfl⟩
    · exact .inr ⟨.ok file, file, _, rfl, rfl, runs_ask_iff.mpr ⟨reply, rfl, rfl⟩⟩

theorem runs_whole_iff {format : ExportFormat} {exported : List (Exported u)} {target : Option String}
    {text : String} (hformat : format ≠ .actionsEnv) (hrender : render runner format exported = .ok text) :
    Runs (writeOut text) acts result ↔ Writes runner exported format target acts result := by
  constructor
  · intro h
    obtain ⟨reply, rfl, rfl⟩ := runs_ask_iff.mp h
    exact .whole reply hformat hrender
  · intro h
    cases h with
    | whole reply _ hok =>
        cases hrender.symm.trans hok
        exact runs_ask_iff.mpr ⟨reply, rfl, rfl⟩
    | _ => exact (hformat rfl).elim

/-- The masks are written and flushed before the assignments are written. -/
theorem runs_actionsEnv_iff {exported : List (Exported u)} {target : Option String}
    (hrender : renderActionsEnv runner.random exported = .ok (masks, assignments)) :
    Runs (do
        let _ ← writeOut masks
        let _ ← (Script.ask .flushOut fun reply => reply.mapError .output : HostProgram CiError Unit)
        match target with
        | some path => append path assignments
        | none => writeOut assignments) acts result ↔
      Writes runner exported .actionsEnv target acts result := by
  rw [runs_masks_iff]
  constructor
  · rintro (⟨reason, rfl, rfl⟩ | ⟨rest, rfl, hrest⟩)
    · exact .unmasked reason hrender
    · rcases runs_flush_iff.mp hrest with ⟨reason, rfl, rfl⟩ | ⟨last, rfl, hlast⟩
      · exact .unflushed reason hrender
      · cases target with
        | none =>
            obtain ⟨reply, rfl, rfl⟩ := runs_ask_iff.mp hlast
            exact .printed reply hrender
        | some path =>
            rcases runs_append_iff.mp hlast with ⟨reason, rfl, rfl⟩ | ⟨file, reply, rfl, rfl⟩
            · exact .unopened reason hrender
            · exact .appended file reply hrender
  · intro h
    cases h with
    | whole reply hformat => exact (hformat rfl).elim
    | unmasked reason hok =>
        cases hrender.symm.trans hok
        exact .inl ⟨reason, rfl, rfl⟩
    | unflushed reason hok =>
        cases hrender.symm.trans hok
        exact .inr ⟨_, rfl, runs_flush_iff.mpr (.inl ⟨reason, rfl, rfl⟩)⟩
    | printed reply hok =>
        cases hrender.symm.trans hok
        exact .inr ⟨_, rfl, runs_flush_iff.mpr (.inr ⟨_, rfl, runs_ask_iff.mpr ⟨reply, rfl, rfl⟩⟩)⟩
    | unopened reason hok =>
        cases hrender.symm.trans hok
        exact .inr ⟨_, rfl, runs_flush_iff.mpr
          (.inr ⟨_, rfl, runs_append_iff.mpr (.inl ⟨reason, rfl, rfl⟩)⟩)⟩
    | appended file reply hok =>
        cases hrender.symm.trans hok
        exact .inr ⟨_, rfl, runs_flush_iff.mpr
          (.inr ⟨_, rfl, runs_append_iff.mpr (.inr ⟨file, reply, rfl, rfl⟩)⟩)⟩

theorem Writes.rendered {format : ExportFormat} {exported : List (Exported u)} {target : Option String}
    (h : Writes runner exported format target acts result) :
    ∃ text, render runner format exported = .ok text := by
  cases hrender : render runner format exported with
  | ok text => exact ⟨text, rfl⟩
  | error error =>
      cases h with
      | whole _ _ hok => cases hrender.symm.trans hok
      | unmasked _ hok => cases (render_actionsEnv_error.mp hrender).symm.trans hok
      | unflushed _ hok => cases (render_actionsEnv_error.mp hrender).symm.trans hok
      | printed _ hok => cases (render_actionsEnv_error.mp hrender).symm.trans hok
      | unopened _ hok => cases (render_actionsEnv_error.mp hrender).symm.trans hok
      | appended _ _ hok => cases (render_actionsEnv_error.mp hrender).symm.trans hok

end Stages

theorem runs_deliver_iff {format : ExportFormat} {exported : List (Exported u)} {target : Option String}
    {acts : List HostAct} {result : Except CiError Unit} :
    Runs (deliver runner format exported target) acts result ↔
      (∃ error, render runner format exported = .error error ∧ acts = [] ∧ result = .error (.render error)) ∨
        Writes runner exported format target acts result := by
  cases hrender : render runner format exported with
  | error error =>
      have hdone : deliver runner format exported target = .done (.error (.render error)) := by
        unfold deliver
        by_cases hformat : format = .actionsEnv
        · subst hformat
          rw [if_neg (not_not.mpr rfl), render_actionsEnv_error.mp hrender]
          rfl
        · rw [if_pos hformat, hrender]
          rfl
      rw [hdone, runs_done_iff]
      constructor
      · rintro ⟨hacts, hresult⟩
        exact .inl ⟨error, rfl, hacts, hresult⟩
      · rintro (⟨found, hfound, hacts, hresult⟩ | hwrites)
        · cases hfound
          exact ⟨hacts, hresult⟩
        · obtain ⟨text, htext⟩ := hwrites.rendered
          cases hrender.symm.trans htext
  | ok text =>
      rw [or_iff_right (by rintro ⟨found, hfound, -⟩; cases hfound)]
      unfold deliver
      by_cases hformat : format = .actionsEnv
      · subst hformat
        rw [if_neg (not_not.mpr rfl)]
        cases htexts : renderActionsEnv runner.random exported with
        | error error => cases hrender.symm.trans (render_actionsEnv_error.mpr htexts)
        | ok texts => exact runs_actionsEnv_iff htexts
      · rw [if_pos hformat, hrender]
        exact runs_whole_iff hformat hrender

/-! ### The sinks -/

/-- The errors of the delivery. -/
def CiError.ofDelivery : Ciphr.CiError → CiError
  | .render error => .render error
  | .output reason => .output reason
  | .environmentFile file reason => .environmentFile file reason

/-- What a call does to the sinks; of a text that could not be written, the beginning may have been. -/
inductive Sinks.Step : Sinks → HostAct → Sinks → Prop
  | out {out environment : String} (text : String) :
      Step ⟨out, environment⟩ ⟨.writeOut text, .ok ()⟩ ⟨out ++ text, environment⟩
  | outTorn {out environment : String} (text : String) (count : Nat) (reason : String) :
      Step ⟨out, environment⟩ ⟨.writeOut text, .error reason⟩
        ⟨out ++ String.ofList (text.toList.take count), environment⟩
  | flushed {sinks : Sinks} (reply : Except String Unit) : Step sinks ⟨.flushOut, reply⟩ sinks
  | opened {sinks : Sinks} (path : String) (reply : Except String Nat) :
      Step sinks ⟨.openAppend path, reply⟩ sinks
  | appended {out environment : String} (file : Nat) (text : String) :
      Step ⟨out, environment⟩ ⟨.append file text, .ok ()⟩ ⟨out, environment ++ text⟩
  | appendedTorn {out environment : String} (file : Nat) (text : String) (count : Nat) (reason : String) :
      Step ⟨out, environment⟩ ⟨.append file text, .error reason⟩
        ⟨out, environment ++ String.ofList (text.toList.take count)⟩

/-- What several calls do to the sinks. -/
inductive Sinks.Steps : Sinks → List HostAct → Sinks → Prop
  | nil {sinks : Sinks} : Steps sinks [] sinks
  | cons {before between after : Sinks} {act : HostAct} {acts : List HostAct}
      (h : Sinks.Step before act between) (hrest : Steps between acts after) : Steps before (act :: acts) after

/-- A delivery on sinks that fail in whatever way is a run of this one with what it does to them. -/
theorem runs_deliver_of_faults (exported : List (Exported u)) (target : Option String) (faults : SinkFaults)
    (sinks : Sinks) :
    ∃ acts, Runs (deliver runner .actionsEnv exported target) acts
        ((Ciphr.deliver runner.random exported target faults sinks).2.mapError CiError.ofDelivery) ∧
      Sinks.Steps sinks acts (Ciphr.deliver runner.random exported target faults sinks).1 := by
  obtain ⟨out, environment⟩ := sinks
  unfold Ciphr.deliver
  cases hrender : renderActionsEnv runner.random exported with
  | error error =>
      exact ⟨[], runs_deliver_iff.mpr (.inl ⟨error, render_actionsEnv_error.mpr hrender, rfl, rfl⟩), .nil⟩
  | ok texts =>
      obtain ⟨masks, assignments⟩ := texts
      cases hmasks : faults.masks with
      | some fault =>
          obtain ⟨count, reason⟩ := fault
          exact ⟨_, runs_deliver_iff.mpr (.inr (.unmasked reason hrender)),
            .cons (.outTorn masks count reason) .nil⟩
      | none =>
          have hmasked : Sinks.Step ⟨out, environment⟩ ⟨.writeOut masks, .ok ()⟩ ⟨out ++ masks, environment⟩ :=
            .out masks
          cases hflush : faults.flush with
          | some reason =>
              exact ⟨_, runs_deliver_iff.mpr (.inr (.unflushed reason hrender)),
                .cons hmasked (.cons (.flushed _) .nil)⟩
          | none =>
              cases target with
              | none =>
                  cases hassignments : faults.assignments with
                  | some fault =>
                      obtain ⟨count, reason⟩ := fault
                      exact ⟨_, runs_deliver_iff.mpr (.inr (.printed (.error reason) hrender)),
                        .cons hmasked (.cons (.flushed _) (.cons (.outTorn assignments count reason) .nil))⟩
                  | none =>
                      exact ⟨_, runs_deliver_iff.mpr (.inr (.printed (.ok ()) hrender)),
                        .cons hmasked (.cons (.flushed _) (.cons (.out assignments) .nil))⟩
              | some path =>
                  cases hopening : faults.opening with
                  | some reason =>
                      exact ⟨_, runs_deliver_iff.mpr (.inr (.unopened reason hrender)),
                        .cons hmasked (.cons (.flushed _) (.cons (.opened path _) .nil))⟩
                  | none =>
                      cases hassignments : faults.assignments with
                      | some fault =>
                          obtain ⟨count, reason⟩ := fault
                          exact ⟨_, runs_deliver_iff.mpr (.inr (.appended 3 (.error reason) hrender)),
                            .cons hmasked (.cons (.flushed _) (.cons (.opened path _)
                              (.cons (.appendedTorn 3 assignments count reason) .nil)))⟩
                      | none =>
                          exact ⟨_, runs_deliver_iff.mpr (.inr (.appended 3 (.ok ()) hrender)),
                            .cons hmasked (.cons (.flushed _) (.cons (.opened path _)
                              (.cons (.appended 3 assignments) .nil)))⟩

/-- A run of the delivery does to the sinks what the other one does where it fails in the same way. -/
theorem faults_of_runs_deliver {exported : List (Exported u)} {target : Option String} {acts : List HostAct}
    {result : Except CiError Unit} {sinks after : Sinks}
    (h : Runs (deliver runner .actionsEnv exported target) acts result) (hsteps : Sinks.Steps sinks acts after) :
    ∃ faults, (Ciphr.deliver runner.random exported target faults sinks).1 = after ∧
      (Ciphr.deliver runner.random exported target faults sinks).2.mapError CiError.ofDelivery = result := by
  rcases runs_deliver_iff.mp h with ⟨error, hrender, rfl, rfl⟩ | hwrites
  · cases hsteps
    refine ⟨⟨none, none, none, none⟩, ?_⟩
    unfold Ciphr.deliver
    rw [render_actionsEnv_error.mp hrender]
    exact ⟨rfl, rfl⟩
  cases hwrites with
  | whole _ hformat => exact (hformat rfl).elim
  | unmasked reason hrender =>
      obtain _ | ⟨hfirst, hnil⟩ := hsteps
      cases hnil
      cases hfirst with
      | outTorn text count =>
          refine ⟨⟨some (count, reason), none, none, none⟩, ?_⟩
          unfold Ciphr.deliver
          rw [hrender]
          exact ⟨rfl, rfl⟩
  | unflushed reason hrender =>
      obtain _ | ⟨hfirst, _ | ⟨hsecond, hnil⟩⟩ := hsteps
      cases hnil
      cases hsecond
      cases hfirst
      refine ⟨⟨none, some reason, none, none⟩, ?_⟩
      unfold Ciphr.deliver
      rw [hrender]
      exact ⟨rfl, rfl⟩
  | printed reply hrender =>
      obtain _ | ⟨hfirst, _ | ⟨hsecond, _ | ⟨hthird, hnil⟩⟩⟩ := hsteps
      cases hnil
      cases hsecond
      cases hfirst
      cases hthird with
      | out text =>
          refine ⟨⟨none, none, none, none⟩, ?_⟩
          unfold Ciphr.deliver
          rw [hrender]
          exact ⟨rfl, rfl⟩
      | outTorn text count reason =>
          refine ⟨⟨none, none, none, some (count, reason)⟩, ?_⟩
          unfold Ciphr.deliver
          rw [hrender]
          exact ⟨rfl, rfl⟩
  | unopened reason hrender =>
      obtain _ | ⟨hfirst, _ | ⟨hsecond, _ | ⟨hthird, hnil⟩⟩⟩ := hsteps
      cases hnil
      cases hthird
      cases hsecond
      cases hfirst
      refine ⟨⟨none, none, some reason, none⟩, ?_⟩
      unfold Ciphr.deliver
      rw [hrender]
      exact ⟨rfl, rfl⟩
  | appended file reply hrender =>
      obtain _ | ⟨hfirst, _ | ⟨hsecond, _ | ⟨hthird, _ | ⟨hfourth, hnil⟩⟩⟩⟩ := hsteps
      cases hnil
      cases hthird
      cases hsecond
      cases hfirst
      cases hfourth with
      | appended file text =>
          refine ⟨⟨none, none, none, none⟩, ?_⟩
          unfold Ciphr.deliver
          rw [hrender]
          exact ⟨rfl, rfl⟩
      | appendedTorn file text count reason =>
          refine ⟨⟨none, none, none, some (count, reason)⟩, ?_⟩
          unfold Ciphr.deliver
          rw [hrender]
          exact ⟨rfl, rfl⟩

/-! ### The whole program -/

/-- What follows the last step, and the exit code. -/
inductive Outcome (debug : DebugFormat) : Except CiError Unit → List HostAct → UInt8 → Prop
  | delivered : Outcome debug (.ok ()) [] 0
  | failed (error : CiError) :
      Outcome debug (.error error) [⟨.printError ("ciphr-ci: " ++ error.display debug), ()⟩] 1

theorem runs_main_iff {acts : List HostAct} {code : UInt8} :
    Runs (main runner cli) acts (.ok code) ↔ ∃ front after result, acts = front ++ after ∧
      Runs (run runner cli) front result ∧ Outcome runner.debug result after code := by
  unfold main
  constructor
  · intro h
    obtain ⟨result, front, rest, rfl, hrun, h⟩ := runs_bind_ok h
    obtain ⟨settled, hrun, hsame⟩ := runs_outcome_iff.mp hrun
    cases hsame
    refine ⟨front, rest, result, rfl, hrun, ?_⟩
    cases result with
    | error error =>
        obtain ⟨reply, a, printed, rfl, -, h⟩ := runs_ask_bind_ok h
        obtain ⟨rfl, hcode⟩ := runs_pure_iff.mp h
        cases hcode
        exact .failed error
    | ok done =>
        obtain ⟨rfl, hcode⟩ := runs_pure_iff.mp h
        cases hcode
        exact .delivered
  · intro h
    obtain ⟨front, after, result, rfl, hrun, houtcome⟩ := h
    refine (runs_outcome_iff.mpr ⟨result, hrun, rfl⟩ : Runs (run runner cli).outcome front (.ok result)).bind ?_
    cases houtcome with
    | delivered => exact runs_pure_iff.mpr ⟨rfl, rfl⟩
    | failed error => exact runs_call_iff.mpr ⟨(), [], rfl, .done _⟩

theorem Outcome.unwritten {result : Except CiError Unit} {after : List HostAct} {code : UInt8}
    (h : Outcome runner.debug result after code) : ∀ act ∈ after, Quiet act.1 ∧ Unwritten act.1 := by
  intro act hact
  cases h with
  | delivered => cases hact
  | failed error =>
      rw [List.mem_singleton.mp hact]
      exact ⟨trivial, trivial⟩

/-- Where the values are, once they are fetched: they are on their way out, or they could not be
rendered and nothing is written. -/
def Delivers (runner : Runner u) (cli : Cli) (prepared : Prepared u) (exported : List (Exported u))
    (rest : List HostAct) (code : UInt8) : Prop :=
  ∃ written result after, rest = reported cli prepared.format exported ++ (written ++ after) ∧
    Writes runner exported prepared.format prepared.target written result ∧
    Outcome runner.debug result after code

/-- The program fails closed, whatever it is told: until everything is settled no value is asked for, and
until every value is read and the whole set is rendered nothing is written; where it comes as far as to
write, the exit code is zero only if every step of it was made. -/
theorem main_in_stages {acts : List HostAct} {code : UInt8}
    (h : Runs (main runner cli) acts (.ok code)) :
    (code = 1 ∧ ∀ act ∈ acts, Quiet act.1) ∨
      ∃ before reads rest prepared, acts = before ++ (reads ++ rest) ∧ Settled runner cli before prepared ∧
        (∀ act ∈ before, Quiet act.1) ∧ (∀ act ∈ reads, Reads prepared act.1) ∧
        ((code = 1 ∧ ∀ act ∈ rest, Unwritten act.1) ∨
          ∃ exported, Fetched prepared reads exported ∧ Delivers runner cli prepared exported rest code) := by
  obtain ⟨front, after, result, rfl, hrun, houtcome⟩ := runs_main_iff.mp h
  have hfailed : ∀ error, result = .error error → code = 1 := by
    intro error herror
    rw [herror] at houtcome
    cases houtcome
    rfl
  rw [run_eq] at hrun
  have hquiet : ∀ {acts : List HostAct} {result : Except CiError (Prepared u)},
      Runs (prepare runner cli) acts result → ∀ act ∈ acts, Quiet act.1 := by
    intro acts result hruns
    exact Asks.runs (asks_prepare (T := fun _ _ => True)) hruns fun _ _ => trivial
  have hreads : ∀ {prepared : Prepared u} {acts : List HostAct} {result : Except CiError (List (Exported u))},
      Runs (fetch prepared) acts result → ∀ act ∈ acts, Reads prepared act.1 := by
    intro prepared acts result hruns
    exact Asks.runs (asks_fetch (T := fun _ _ => True)) hruns fun _ _ => trivial
  rcases runs_bind_iff.mp hrun with ⟨error, hstopped, hresult⟩ | ⟨prepared, before, more, rfl, hprepared, hrun⟩
  · refine .inl ⟨hfailed error hresult, ?_⟩
    intro act hact
    rcases List.mem_append.mp hact with hact | hact
    · exact hquiet hstopped act hact
    · exact (houtcome.unwritten act hact).1
  refine .inr ?_
  have hsettled := runs_prepare_iff.mp hprepared
  rcases runs_bind_iff.mp hrun with ⟨error, hstopped, hresult⟩ | ⟨exported, reads, last, rfl, hfetched, hrun⟩
  · refine ⟨before, more, after, prepared, List.append_assoc .., hsettled, hquiet hprepared,
      hreads hstopped, .inl ⟨hfailed error hresult, ?_⟩⟩
    exact fun act hact => (houtcome.unwritten act hact).2
  refine ⟨before, reads, last ++ after, prepared, ?_, hsettled, hquiet hprepared, hreads hfetched, ?_⟩
  · simp only [List.append_assoc]
  · obtain ⟨reply, printed, written, rfl, hreport, hwritten⟩ : ∃ _ printed written, last = printed ++ written ∧
        printed = reported cli prepared.format exported ∧
        Runs (deliver runner prepared.format exported prepared.target) written result := by
      rcases runs_bind_iff.mp hrun with ⟨error, hreport, -⟩ | ⟨done, printed, written, hlast, hreport, hrest⟩
      · cases (runs_report_iff.mp hreport).2
      · exact ⟨done, printed, written, hlast, (runs_report_iff.mp hreport).1, hrest⟩
    rw [hreport]
    rcases runs_deliver_iff.mp hwritten with ⟨error, -, rfl, hresult⟩ | hwrites
    · refine .inl ⟨hfailed _ hresult, ?_⟩
      intro act hact
      rw [List.append_nil] at hact
      rcases List.mem_append.mp hact with hact | hact
      · exact unwritten_of_reported hact
      · exact (houtcome.unwritten act hact).2
    · exact .inr ⟨exported, runs_fetch_iff.mp hfetched, written, result, after, List.append_assoc ..,
        hwrites, houtcome⟩

/-- The exit code is zero exactly where everything was settled, fetched and written. -/
theorem delivered_iff {acts : List HostAct} :
    Runs (main runner cli) acts (.ok 0) ↔
      ∃ before reads prepared exported written,
        acts = before ++ (reads ++ (reported cli prepared.format exported ++ written)) ∧
          Settled runner cli before prepared ∧ Fetched prepared reads exported ∧
          Writes runner exported prepared.format prepared.target written (.ok ()) := by
  constructor
  · intro h
    obtain ⟨front, after, result, rfl, hrun, houtcome⟩ := runs_main_iff.mp h
    cases houtcome with
    | delivered =>
        rw [run_eq] at hrun
        obtain ⟨prepared, before, more, rfl, hprepared, hrun⟩ := runs_bind_ok hrun
        obtain ⟨exported, reads, last, rfl, hfetched, hrun⟩ := runs_bind_ok hrun
        obtain ⟨reply, printed, written, rfl, hreport, hwritten⟩ := runs_bind_ok hrun
        rw [(runs_report_iff.mp hreport).1]
        refine ⟨before, reads, prepared, exported, written, ?_, runs_prepare_iff.mp hprepared,
          runs_fetch_iff.mp hfetched, ?_⟩
        · exact List.append_nil _
        · rcases runs_deliver_iff.mp hwritten with ⟨error, -, -, hresult⟩ | hwrites
          · cases hresult
          · exact hwrites
  · intro h
    obtain ⟨before, reads, prepared, exported, written, rfl, hsettled, hfetched, hwrites⟩ := h
    refine runs_main_iff.mpr ⟨_, [], .ok (), (List.append_nil _).symm, ?_, .delivered⟩
    rw [run_eq]
    refine (runs_prepare_iff.mpr hsettled).bind ((runs_fetch_iff.mpr hfetched).bind ?_)
    exact (runs_report_iff.mpr ⟨rfl, rfl⟩).bind (runs_deliver_iff.mpr (.inr hwrites))

end Ci

namespace Sample

def runner : Ci.Runner asciiUnicode where
  toPlatform := host
  random := fun n => some (Vector.replicate 16 (UInt8.ofNat n))
  json := serdeJson

def stepCli : Ci.Cli where
  url := "https://ciphr.internal:4400"
  tokenFile := "/runner/temp/token"
  ca := "/etc/ciphr/ca.crt"
  start := none
  path := ["infra/DB", "infra/KEY"]
  format := "actions-env"
  githubEnv := true
  timeout := 10
  force := false
  report := true

def stepClient : Client where
  base := "https://ciphr.internal:4400"
  authorities := [[48]]
  timeout := 10
  userAgent := "ciphr-ci/0.15.0"
  authorization := "Bearer " ++ presented

def stepPrepared : Ci.Prepared asciiUnicode where
  format := .actionsEnv
  target := some "/runner/env"
  client := stepClient
  paths := [dbPath, keyPath]

def stepBefore : List HostAct :=
  [⟨.environmentVariable "GITHUB_ENV", some "/runner/env"⟩, ⟨.openFile "/runner/temp/token", .ok 3⟩,
    ⟨.metadata 3, .ok ⟨true, 0o100600⟩⟩, ⟨.readToString 3, .ok (presented ++ "\n")⟩,
    ⟨.readFile "/etc/ciphr/ca.crt", .ok [48]⟩]

def stepValues : List (Exported asciiUnicode) := [⟨dbPath, "hunter2"⟩, ⟨keyPath, "s3cret"⟩]

def stepWritten : List HostAct :=
  [⟨.writeOut "::add-mask::hunter2\n::add-mask::s3cret\n", .ok ()⟩, ⟨.flushOut, .ok ()⟩,
    ⟨.openAppend "/runner/env", .ok 4⟩, ⟨.append 4 "DB=hunter2\nKEY=s3cret\n", .ok ()⟩]

def stepActs : List HostAct :=
  stepBefore ++ ([⟨.request stepClient exportedAct.1, exportedAct.2⟩] ++
    (⟨.printError "ciphr-ci: delivering DB, KEY", ()⟩ :: stepWritten))

theorem stepBefore_settled : Ci.Settled runner stepCli stepBefore stepPrepared where
  format := rfl
  masked := fun _ => rfl
  target := rfl
  names := fun _ =>
    ⟨[⟨"DB", by decide +kernel⟩, ⟨"KEY", by decide +kernel⟩], by decide +kernel, by decide +kernel⟩
  steps := by
    refine ⟨(stepBefore.drop 1).take 3, presented ++ "\n", [48], [], rfl, ⟨3, _, rfl, rfl, ?_⟩, ?_,
      .path rfl (.cons ?_ (.cons ?_ .nil))⟩
    · decide +kernel
    · decide +kernel
    · decide +kernel
    · decide +kernel

theorem stepActs_delivered : Runs (Ci.main runner stepCli) stepActs (.ok 0) := by
  have hrender : renderActionsEnv runner.random stepValues =
      .ok ("::add-mask::hunter2\n::add-mask::s3cret\n", "DB=hunter2\nKEY=s3cret\n") := by
    decide +kernel
  refine Ci.delivered_iff.mpr ⟨stepBefore, [⟨.request stepClient exportedAct.1, exportedAct.2⟩],
    stepPrepared, stepValues, stepWritten, ?_, stepBefore_settled,
    ⟨[exportedAct], _, .cons ⟨_, rfl, rfl⟩ .nil, readAll_exported, ?_⟩, .appended 4 (.ok ()) hrender⟩
  · have hreported : Ci.reported stepCli stepPrepared.format stepValues =
        [⟨.printError "ciphr-ci: delivering DB, KEY", ()⟩] := by
      have hsubjects : Ci.subjects stepPrepared.format stepValues =
          some ["DB", "KEY"] := by
        decide +kernel
      unfold Ci.reported
      rw [hsubjects]
      rfl
    rw [hreported]
    rfl
  · rfl

/-- A step of a job has its one variable, and its runner has the mask. -/
theorem main_in_stages_delivered :
    ((0 : UInt8) = 1 ∧ ∀ act ∈ stepActs, Ci.Quiet act.1) ∨
      ∃ before reads rest prepared, stepActs = before ++ (reads ++ rest) ∧
        Ci.Settled runner stepCli before prepared ∧ (∀ act ∈ before, Ci.Quiet act.1) ∧
        (∀ act ∈ reads, Ci.Reads prepared act.1) ∧
        (((0 : UInt8) = 1 ∧ ∀ act ∈ rest, Ci.Unwritten act.1) ∨
          ∃ exported, Ci.Fetched prepared reads exported ∧
            Ci.Delivers runner stepCli prepared exported rest 0) :=
  Ci.main_in_stages stepActs_delivered

end Sample

end Ciphr
