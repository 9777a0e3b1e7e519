import Ciphr.SdkHost
import Ciphr.CoreEnvAssign

/-!
`ciphr-run`: secrets are fetched and the process is replaced with a command that has them in its
environment. Every check that can refuse runs before that one step.
-/

namespace Ciphr

open Script

variable {u : Unicode}

namespace Run

/-- What the command line asks for. -/
structure Cli where
  url : String
  tokenFile : String
  ca : String
  start : Option String
  path : List String
  timeout : Nat
  report : Bool
  command : List String

inductive RunError where
  | noExec
  | tokenFile (path reason : String)
  | tokenFileWorldAccessible (path : String) (mode : UInt32) (access : WorldAccess)
  | authorityFile (path reason : String)
  | path (error : PathError)
  | service (error : SdkError)
  /-- `Service`, of a client that cannot be built. -/
  | configuration (detail : String)
  | processControlName (name reason : String)
  | noCommand
  | exec (program reason : String) (notFound : Bool)

/-- The process exit code for a failure. -/
def RunError.code : RunError → UInt8
  | .exec _ _ notFound => if notFound then 127 else 126
  | _ => 125

def RunError.display (debug : DebugFormat) : RunError → String
  | .noExec =>
      "this platform has no exec, so the command cannot replace this process. Running " ++
        "it as a child instead would leave a supervisor alive holding the plaintext, which " ++
        "is the opposite of what this program is for -- so it refuses rather than offering " ++
        "a weaker version of itself"
  | .tokenFile file reason => "cannot read the token file " ++ file ++ ": " ++ reason
  | .tokenFileWorldAccessible file mode access =>
      "the token file " ++ file ++ " is mode " ++ octal4 mode ++ " and " ++ access.description ++
        "; restrict it to its owner (and group, if a service needs it)" ++
        if mode = bindMountMode then bindMountHint else ""
  | .authorityFile file reason => "cannot read the certificate authority " ++ file ++ ": " ++ reason
  | .path error => error.text
  | .service error => error.display debug
  | .configuration detail => SdkError.configurationText detail
  | .processControlName name reason =>
      "refusing to hand " ++ name ++ " to the command: " ++ reason ++ ", so a secret named after " ++
        "it decides how that program starts rather than what it reads. Nothing was " ++
        "executed. If this deployment genuinely needs that variable, set it in the " ++
        "container definition, where it is a decision somebody reviewed -- and if " ++
        "this arrived under --prefix, note that whoever may write there chose this " ++
        "name"
  | .noCommand => "nothing to execute; put the command after `--`"
  | .exec program reason notFound =>
      if notFound then
        program ++ " was not found. The secrets were fetched and are gone with this " ++
          "process; nothing was started"
      else "cannot execute " ++ program ++ ": " ++ reason

/-- What `io::ErrorKind::NotFound` displays. -/
def kindNotFound : String := "entity not found"

def readToken (platform : Platform) (path : String) : HostProgram RunError String :=
  readTokenFile .tokenFile .tokenFileWorldAccessible platform path

/-- The secrets to hand over, by whichever of the two routes was asked for. -/
def fetch (u : Unicode) (client : Client) (cli : Cli) : HostProgram RunError Environment :=
  match cli.start with
  | some start => do
      let start ← ofExcept ((SecretPath.parse u start).mapError .path)
      (client.send (Client.environment start)).mapError .service
  | none => do
      let paths ← ofExcept (cli.path.mapM fun path => (SecretPath.parse u path).mapError .path)
      (client.send (Client.environmentOf paths)).mapError .service

/-- `Plan::new`. -/
def newPlan (command : List String) (entries : List (EnvVarName × List UInt8)) : Except RunError Plan :=
  match command with
  | [] => .error .noCommand
  | program :: arguments => .ok ⟨program, arguments, entries⟩

/-- The names that are delivered, on standard error. -/
def report (cli : Cli) (plan : Plan) : HostProgram RunError Unit :=
  if cli.report then
    Script.ask (.printError ("ciphr-run: delivering " ++
      ", ".intercalate (plan.entries.map (·.1.text)) ++ " to " ++ plan.program)) fun _ => .ok ()
  else pure ()

/-- `Plan::exec`, which comes back only where it has failed. -/
def exec (platform : Platform) (plan : Plan) : HostProgram RunError Plan :=
  if platform.unix then
    Script.ask (.exec plan) fun reply =>
      match reply with
      | .ok () => .ok plan
      | .error kind => .error (.exec plan.program kind (kind == kindNotFound))
  else ofExcept (.error .noExec)

def builder (cli : Cli) (token : String) (authority : List UInt8) : ClientBuilder :=
  { Client.builder cli.url (Rust.trim token) authority with
    timeout := cli.timeout
    userAgent := "ciphr-run/0.15.0" }

/-- Whether there is anything to do at all. -/
def checkInvocation (platform : Platform) (cli : Cli) : Except RunError Unit :=
  if !platform.unix then .error .noExec
  else if cli.command.isEmpty then .error .noCommand
  else .ok ()

/-- `run`; it ends well where the process was replaced, with what it was replaced with. -/
def run (u : Unicode) (platform : Platform) (cli : Cli) : HostProgram RunError Plan := do
  let _ ← ofExcept (checkInvocation platform cli)
  let token ← readToken platform cli.tokenFile
  let authority ← Script.ask (.readFile cli.ca) fun reply => reply.mapError (.authorityFile cli.ca)
  let client ← ofExcept (((builder cli token authority).build platform).mapError .configuration)
  let environment ← fetch u client cli
  let _ ← ofExcept (refuseControlNames .processControlName (environment.entries.map (·.1)))
  let plan ← ofExcept (newPlan cli.command environment.entries)
  let _ ← report cli plan
  exec platform plan

/-- How the process goes on. -/
inductive Ended where
  | replaced (plan : Plan)
  | exited (code : UInt8)

/-- `main`. -/
def main (u : Unicode) (platform : Platform) (cli : Cli) : HostProgram Empty Ended := do
  match ← (run u platform cli).outcome with
  | .ok plan => return .replaced plan
  | .error error => do
      let _ ← Script.ask (.printError ("ciphr-run: " ++ error.display platform.debug)) fun _ =>
        (.ok () : Except Empty Unit)
      return .exited error.code

/-! ### What was fetched -/

/-- What the client is asked for, by either route. -/
inductive Fetches (u : Unicode) (cli : Cli) : Sdk Environment → Prop
  | start {raw : String} {start : SecretPath u} (hcli : cli.start = some raw)
      (hparse : SecretPath.parse u raw = .ok start) : Fetches u cli (Client.environment start)
  | path {paths : List (SecretPath u)} (hcli : cli.start = none)
      (hparse : List.Forall₂ (fun raw path => SecretPath.parse u raw = .ok path) cli.path paths) :
      Fetches u cli (Client.environmentOf paths)

theorem runs_fetch {client : Client} {cli : Cli} {acts : List HostAct} {environment : Environment}
    (h : Runs (fetch u client cli) acts (.ok environment)) :
    ∃ script inner, Fetches u cli script ∧ List.Forall₂ (Asked client) acts inner ∧
      Runs script inner (.ok environment) := by
  unfold fetch at h
  split at h
  · rename_i raw hcli
    obtain ⟨start, hstart, h⟩ := runs_ofExcept_bind_ok h
    obtain ⟨inner, hasked, hruns⟩ := runs_send h
    exact ⟨_, inner, .start hcli (Loop.mapError_eq_ok hstart), hasked, hruns⟩
  · rename_i hcli
    obtain ⟨paths, hpaths, h⟩ := runs_ofExcept_bind_ok h
    obtain ⟨inner, hasked, hruns⟩ := runs_send h
    exact ⟨_, inner, .path hcli (parsed_of_mapM hpaths), hasked, hruns⟩

/-! ### What stands before the one step that is not taken back -/

/-- `run` up to `exec`. -/
def prepare (u : Unicode) (platform : Platform) (cli : Cli) : HostProgram RunError Plan := do
  let _ ← ofExcept (checkInvocation platform cli)
  let token ← readToken platform cli.tokenFile
  let authority ← Script.ask (.readFile cli.ca) fun reply => reply.mapError (.authorityFile cli.ca)
  let client ← ofExcept (((builder cli token authority).build platform).mapError .configuration)
  let environment ← fetch u client cli
  let _ ← ofExcept (refuseControlNames .processControlName (environment.entries.map (·.1)))
  let plan ← ofExcept (newPlan cli.command environment.entries)
  let _ ← report cli plan
  return plan

theorem run_eq {platform : Platform} {cli : Cli} :
    run u platform cli = prepare u platform cli >>= exec platform := by
  unfold run prepare
  simp only [bind_assoc]
  rfl

/-- A call that does not replace the process. -/
def Harmless : HostCall → Prop
  | .exec _ => False
  | _ => True

theorem asks_prepare {platform : Platform} {cli : Cli} {T : (c : HostCall) → HostCall.Reply c → Prop} :
    (prepare u platform cli).Asks T Harmless := by
  have htoken : ∀ path, (readToken platform path).Asks T Harmless := by
    intro path
    apply asks_readTokenFile.mono
    intro c hc
    cases c with
    | exec => exact hc
    | _ => trivial
  have hfetch : ∀ client, (fetch u client cli).Asks T Harmless := by
    intro client
    unfold fetch
    split
    · exact asks_ofExcept.bind fun _ => asks_send fun _ => trivial
    · exact asks_ofExcept.bind fun _ => asks_send fun _ => trivial
  have hreport : ∀ plan, (report cli plan).Asks T Harmless := by
    intro plan
    unfold report
    split
    · exact asks_ask trivial
    · exact asks_pure
  exact asks_ofExcept.bind fun _ => (htoken cli.tokenFile).bind fun _ =>
    Asks.bind (asks_ask trivial) fun _ => asks_ofExcept.bind fun client => (hfetch client).bind fun _ =>
      asks_ofExcept.bind fun _ => asks_ofExcept.bind fun plan => (hreport plan).bind fun _ => asks_pure

/-- What fails before `exec` is a failure of the wrapper. -/
theorem fails_prepare {platform : Platform} {cli : Cli} :
    (prepare u platform cli).Fails fun error => error.code = 125 := by
  have hmapped : ∀ {ε α : Type} {f : ε → RunError} (_ : ∀ e, (f e).code = 125) (result : Except ε α)
      (error : RunError), result.mapError f = .error error → error.code = 125 := by
    intro ε α f hf result error herror
    cases result with
    | ok a => cases herror
    | error e =>
        cases herror
        exact hf e
  have hinvocation : ∀ error, checkInvocation platform cli = .error error → error.code = 125 := by
    intro error herror
    unfold checkInvocation at herror
    split at herror
    · cases herror
      rfl
    · split at herror
      · cases herror
        rfl
      · cases herror
  have htoken : (readToken platform cli.tokenFile).Fails fun error => error.code = 125 :=
    fails_readTokenFile (fun _ _ => rfl) fun _ _ _ => rfl
  have hfetch : ∀ client, (fetch u client cli).Fails fun error => error.code = 125 := by
    intro client
    unfold fetch
    split
    · exact (fails_ofExcept (hmapped (fun _ => rfl) _)).bind fun _ => fails_mapError fun _ => rfl
    · refine (fails_ofExcept fun error herror => ?_).bind fun _ => fails_mapError fun _ => rfl
      obtain ⟨error', rfl⟩ := mapM_parse_error herror
      rfl
  have hcontrol : ∀ names error,
      refuseControlNames RunError.processControlName names = .error error → error.code = 125 := by
    intro names error herror
    obtain ⟨_, -, _, -, rfl⟩ := refuseControlNames_error herror
    rfl
  have hplan : ∀ entries error, newPlan cli.command entries = .error error → error.code = 125 := by
    intro entries error herror
    unfold newPlan at herror
    split at herror
    · cases herror
      rfl
    · cases herror
  have hreport : ∀ plan, (report cli plan).Fails fun error => error.code = 125 := by
    intro plan
    unfold report
    split
    · exact fails_ask fun _ _ herror => by cases herror
    · exact fails_pure
  refine (fails_ofExcept hinvocation).bind fun _ => htoken.bind fun token => ?_
  refine Fails.bind (fails_ask fun reply => hmapped (fun _ => rfl) reply) fun authority => ?_
  refine (fails_ofExcept (hmapped (fun _ => rfl) _)).bind fun client => (hfetch client).bind fun _ => ?_
  exact (fails_ofExcept (hcontrol _)).bind fun _ => (fails_ofExcept (hplan _)).bind fun plan =>
    (hreport plan).bind fun _ => fails_pure

/-- The names are what the last segments of the paths are that were served. -/
theorem names_distinct {secrets : List (Secret u)} {environment : Environment}
    (h : Environment.assemble secrets = .ok environment) : (environment.entries.map (·.1)).Nodup := by
  unfold Environment.assemble at h
  cases hnames : EnvVarName.assign (secrets.map (·.path)) with
  | error error =>
      rw [hnames] at h
      cases h
  | ok names =>
      rw [hnames] at h
      cases h
      have hlength := EnvVarName.assign_length hnames
      have hlast := ((EnvVarName.assign_eq_ok_iff _).mp ⟨names, hnames⟩).2
      rw [← EnvVarName.text_of_assign hnames] at hlast
      change ((names.zip (secrets.map (·.value))).map Prod.fst).Nodup
      rw [List.map_fst_zip]
      · exact hlast.of_map _
      · rw [hlength, List.length_map, List.length_map]

theorem Fetches.distinct {cli : Cli} {script : Sdk Environment}
    {inner : List (Act ApiRequest fun _ => Delivered)} {environment : Environment}
    (h : Fetches u cli script) (hruns : Runs script inner (.ok environment)) :
    (environment.entries.map (·.1)).Nodup := by
  have hof : ∀ {paths : List (SecretPath u)} {inner : List (Act ApiRequest fun _ => Delivered)},
      Runs (Client.environmentOf paths) inner (.ok environment) →
        (environment.entries.map (·.1)).Nodup := by
    intro paths inner hruns
    obtain ⟨_, _, hruns⟩ := runs_ofExcept_bind_ok hruns
    obtain ⟨secrets, _, rest, -, -, hruns⟩ := runs_bind_ok hruns
    exact names_distinct (runs_ofExcept_iff.mp hruns).2.symm
  cases h with
  | path => exact hof hruns
  | start =>
      obtain ⟨_, paths, rest, -, -, hruns⟩ := runs_ask_bind_ok hruns
      split at hruns
      · cases (runs_ofExcept_iff.mp hruns).2
      · exact hof hruns

/-- What was printed about a plan that is handed over. -/
def reported (cli : Cli) (plan : Plan) : List HostAct :=
  if cli.report then
    [⟨.printError ("ciphr-run: delivering " ++ ", ".intercalate (plan.entries.map (·.1.text)) ++ " to " ++
      plan.program), ()⟩]
  else []

/-- What has happened when the process is to be replaced: the token was read of the file that was
inspected, the client takes the authority of the command line, and the variables are what the service
has answered, under names that are distinct and decide nothing about how a process starts. -/
structure Launch (u : Unicode) (platform : Platform) (cli : Cli) (before : List HostAct) (plan : Plan) :
    Prop where
  unix : platform.unix = true
  command : plan.program :: plan.arguments = cli.command
  distinct : (plan.entries.map (·.1)).Nodup
  inert : ∀ entry ∈ plan.entries, processControlReason entry.1.text = none
  steps : ∃ token pem client script credential requests inner,
    before = credential ++ ⟨.readFile cli.ca, .ok pem⟩ :: (requests ++ reported cli plan) ∧
      TokenRead platform cli.tokenFile token credential ∧
      (builder cli token pem).build platform = .ok client ∧ Fetches u cli script ∧
      List.Forall₂ (Asked client) requests inner ∧ Runs script inner (.ok ⟨plan.entries⟩)

theorem checkInvocation_ok {platform : Platform} {cli : Cli} {a : Unit}
    (h : checkInvocation platform cli = .ok a) : platform.unix = true := by
  unfold checkInvocation at h
  split at h
  · cases h
  · rename_i hunix
    rwa [Bool.not_eq_true, Bool.not_eq_false'] at hunix

theorem newPlan_ok {command : List String} {entries : List (EnvVarName × List UInt8)} {plan : Plan}
    (h : newPlan command entries = .ok plan) :
    plan.program :: plan.arguments = command ∧ plan.entries = entries := by
  unfold newPlan at h
  split at h
  · cases h
  · cases h
    exact ⟨rfl, rfl⟩

theorem runs_report {cli : Cli} {plan : Plan} {acts : List HostAct} {a : Unit}
    (h : Runs (report cli plan) acts (.ok a)) : acts = reported cli plan := by
  unfold report at h
  unfold reported
  split at h
  · rename_i hreport
    obtain ⟨reply, hacts, -⟩ := runs_ask_iff.mp h
    rw [if_pos hreport, hacts]
  · rename_i hreport
    rw [if_neg hreport, (runs_pure_iff.mp h).1]

theorem runs_prepare {platform : Platform} {cli : Cli} {before : List HostAct} {plan : Plan}
    (h : Runs (prepare u platform cli) before (.ok plan)) : Launch u platform cli before plan := by
  obtain ⟨_, hinvocation, h⟩ := runs_ofExcept_bind_ok h
  obtain ⟨token, credential, afterToken, rfl, htoken, h⟩ := runs_bind_ok h
  obtain ⟨reply, pem, afterCa, rfl, hpem, h⟩ := runs_ask_bind_ok h
  obtain ⟨client, hbuild, h⟩ := runs_ofExcept_bind_ok h
  obtain ⟨environment, requests, afterFetch, rfl, hfetch, h⟩ := runs_bind_ok h
  obtain ⟨_, hinert, h⟩ := runs_ofExcept_bind_ok h
  obtain ⟨planned, hplan, h⟩ := runs_ofExcept_bind_ok h
  obtain ⟨_, printed, last, rfl, hreport, h⟩ := runs_bind_ok h
  obtain ⟨rfl, hsame⟩ := runs_pure_iff.mp h
  cases hsame
  obtain ⟨script, inner, hfetches, hasked, hruns⟩ := runs_fetch hfetch
  obtain ⟨hcommand, hentries⟩ := newPlan_ok hplan
  rw [Loop.mapError_eq_ok hpem, List.append_nil, runs_report hreport]
  refine ⟨checkInvocation_ok hinvocation, hcommand, ?_, ?_, ?_⟩
  · rw [hentries]
    exact hfetches.distinct hruns
  · rw [hentries]
    exact List.forall_mem_map.mp (refuseControlNames_ok_iff.mp hinert)
  · rw [hentries]
    exact ⟨token, pem, client, script, credential, requests, inner, rfl, runs_readTokenFile htoken,
      Loop.mapError_eq_ok hbuild, hfetches, hasked, hruns⟩

theorem Fetches.runs {client : Client} {cli : Cli} {script : Sdk Environment} {requests : List HostAct}
    {inner : List (Act ApiRequest fun _ => Delivered)} {environment : Environment}
    (h : Fetches u cli script) (hasked : List.Forall₂ (Asked client) requests inner)
    (hruns : Runs script inner (.ok environment)) :
    Runs (fetch u client cli) requests (.ok environment) := by
  have hsent : Runs ((client.send script).mapError RunError.service) requests (.ok environment) :=
    Runs.send hasked hruns
  unfold fetch
  cases h with
  | start hcli hparse =>
      rw [hcli]
      refine Runs.ofExcept_bind ?_ hsent
      rw [hparse]
      rfl
  | path hcli hparse =>
      rw [hcli]
      exact Runs.ofExcept_bind (mapM_of_parsed hparse) hsent

/-- The wrapper comes as far as to replace the process exactly where everything is as it is to be. -/
theorem runs_prepare_iff {platform : Platform} {cli : Cli} {before : List HostAct} {plan : Plan} :
    Runs (prepare u platform cli) before (.ok plan) ↔ Launch u platform cli before plan := by
  constructor
  · exact runs_prepare
  · intro h
    obtain ⟨token, pem, client, script, credential, requests, inner, rfl, htoken, hbuild, hfetches, hasked,
      hruns⟩ := h.steps
    have hinvocation : checkInvocation platform cli = .ok () := by
      unfold checkInvocation
      rw [h.unix, ← h.command]
      rfl
    have hinert : refuseControlNames RunError.processControlName (plan.entries.map (·.1)) = .ok () :=
      refuseControlNames_ok_iff.mpr (List.forall_mem_map.mpr h.inert)
    have hplan : newPlan cli.command plan.entries = .ok plan := by
      rw [← h.command]
      rfl
    have hreport : Runs (report cli plan) (reported cli plan) (.ok ()) := by
      unfold report reported
      split
      · exact runs_ask_iff.mpr ⟨(), rfl, rfl⟩
      · exact runs_pure_iff.mpr ⟨rfl, rfl⟩
    have hend : Runs (report cli plan >>= fun _ => (return plan : HostProgram RunError Plan))
        (reported cli plan) (.ok plan) := by
      have hlast : Runs (pure plan : HostProgram RunError Plan) [] (.ok plan) := runs_pure_iff.mpr ⟨rfl, rfl⟩
      rw [← List.append_nil (reported cli plan)]
      exact hreport.bind hlast
    refine Runs.ofExcept_bind hinvocation (htoken.runs.bind (Runs.ask_bind rfl ?_))
    refine Runs.ofExcept_bind (a := client) ?_ ((hfetches.runs hasked hruns).bind ?_)
    · rw [hbuild]
      rfl
    · exact Runs.ofExcept_bind hinert (Runs.ofExcept_bind hplan hend)

/-! ### The process -/

/-- What comes of the one step that is not taken back. -/
inductive Outcome (plan : Plan) : Except String Unit → List HostAct → Ended → Prop
  | replaced : Outcome plan (.ok ()) [] (.replaced plan)
  | failed (kind line : String) : Outcome plan (.error kind) [⟨.printError line, ()⟩]
      (.exited (if kind = kindNotFound then 127 else 126))

/-- The wrapper fails closed: in every run, `exec` is asked for at most once, and only after every check
has passed and for nothing but the command with the variables that the service was asked for. Without
that, nothing is executed, and the exit code says so. -/
theorem main_fails_closed {platform : Platform} {cli : Cli} {acts : List HostAct} {ended : Ended}
    (h : Runs (main u platform cli) acts (.ok ended)) :
    (∃ before plan reply after, acts = before ++ ⟨.exec plan, reply⟩ :: after ∧
      Launch u platform cli before plan ∧ (∀ act ∈ before, Harmless act.1) ∧
        Outcome plan reply after ended) ∨
      (∀ act ∈ acts, Harmless act.1) ∧ ended = .exited 125 := by
  obtain ⟨result, front, rest, rfl, hrun, hrest⟩ := runs_bind_ok h
  obtain ⟨settled, hrun, hsame⟩ := runs_outcome_iff.mp hrun
  cases hsame
  rw [run_eq] at hrun
  have hharmless : ∀ {acts : List HostAct} {result : Except RunError Plan},
      Runs (prepare u platform cli) acts result → ∀ act ∈ acts, Harmless act.1 := by
    intro acts result hruns
    exact Asks.runs (asks_prepare (T := fun _ _ => True)) hruns fun _ _ => trivial
  rcases runs_bind_iff.mp hrun with ⟨error, hfailed, rfl⟩ | ⟨plan, before, last, rfl, hprepared, hexec⟩
  · obtain ⟨reply, a, printed, rfl, -, hrest⟩ := runs_ask_bind_ok hrest
    obtain ⟨rfl, hended⟩ := runs_pure_iff.mp hrest
    refine .inr ⟨?_, ?_⟩
    · intro act hact
      rcases List.mem_append.mp hact with hact | hact
      · exact hharmless hfailed act hact
      · rw [List.mem_singleton.mp hact]
        trivial
    · rw [Except.ok.inj hended, fails_prepare _ _ hfailed]
  · have hlaunch := runs_prepare hprepared
    unfold exec at hexec
    rw [if_pos hlaunch.unix] at hexec
    obtain ⟨reply, rfl, rfl⟩ := runs_ask_iff.mp hexec
    refine .inl ⟨before, plan, reply, rest, ?_, hlaunch, hharmless hprepared, ?_⟩
    · rw [List.append_assoc]
      rfl
    · cases reply with
      | ok done =>
          obtain ⟨rfl, hended⟩ := runs_pure_iff.mp hrest
          cases hended
          exact .replaced
      | error kind =>
          obtain ⟨told, a, printed, rfl, -, hrest⟩ := runs_ask_bind_ok hrest
          obtain ⟨rfl, hended⟩ := runs_pure_iff.mp hrest
          have hcode : (RunError.exec plan.program kind (kind == kindNotFound)).code =
              if kind = kindNotFound then 127 else 126 := by
            unfold RunError.code
            by_cases hkind : kind = kindNotFound
            · rw [if_pos hkind, hkind]
              rfl
            · rw [if_neg hkind, beq_eq_false_iff_ne.mpr hkind]
              rfl
          rw [Except.ok.inj hended, hcode]
          exact .failed kind _

/-- The process is replaced exactly where everything stands before `exec` as it is to stand. -/
theorem replaced_iff {platform : Platform} {cli : Cli} {acts : List HostAct} {plan : Plan} :
    Runs (main u platform cli) acts (.ok (.replaced plan)) ↔
      ∃ before, acts = before ++ [⟨.exec plan, .ok ()⟩] ∧ Launch u platform cli before plan := by
  constructor
  · intro h
    obtain ⟨result, front, rest, rfl, hrun, hrest⟩ := runs_bind_ok h
    obtain ⟨settled, hrun, hsame⟩ := runs_outcome_iff.mp hrun
    cases hsame
    rw [run_eq] at hrun
    cases result with
    | error error =>
        obtain ⟨reply, a, printed, rfl, -, hrest⟩ := runs_ask_bind_ok hrest
        cases (runs_pure_iff.mp hrest).2
    | ok replaced =>
        obtain ⟨rfl, hsame⟩ := runs_pure_iff.mp hrest
        cases hsame
        obtain ⟨planned, before, last, rfl, hprepared, hexec⟩ := runs_bind_ok hrun
        have hlaunch := runs_prepare hprepared
        unfold exec at hexec
        rw [if_pos hlaunch.unix] at hexec
        obtain ⟨reply, rfl, hresult⟩ := runs_ask_iff.mp hexec
        cases reply with
        | error kind => cases hresult
        | ok done =>
            cases hresult
            exact ⟨before, List.append_nil _, hlaunch⟩
  · intro h
    obtain ⟨before, rfl, hlaunch⟩ := h
    have hrun : Runs (run u platform cli) (before ++ [⟨.exec plan, .ok ()⟩]) (.ok plan) := by
      rw [run_eq]
      refine (runs_prepare_iff.mpr hlaunch).bind ?_
      unfold exec
      rw [if_pos hlaunch.unix]
      exact runs_ask_iff.mpr ⟨.ok (), rfl, rfl⟩
    have hended : Runs (pure (.replaced plan) : HostProgram Empty Ended) [] (.ok (.replaced plan)) :=
      runs_pure_iff.mpr ⟨rfl, rfl⟩
    have hmain : Runs (main u platform cli) (before ++ [⟨.exec plan, .ok ()⟩] ++ [])
        (.ok (.replaced plan)) := (runs_outcome_iff.mpr ⟨_, hrun, rfl⟩).bind hended
    rwa [List.append_nil] at hmain

end Run

namespace Sample

def wrapped : Run.Cli where
  url := "https://ciphr.internal:4400"
  tokenFile := "/run/secrets/token"
  ca := "/etc/ciphr/ca.crt"
  start := none
  path := ["infra/DB", "infra/KEY"]
  timeout := 10
  report := false
  command := ["/original/entrypoint", "--flags"]

/-- The client of the wrapper, once it has read its token. -/
def wrappedClient : Client where
  base := "https://ciphr.internal:4400"
  authorities := [[48]]
  timeout := 10
  userAgent := "ciphr-run/0.15.0"
  authorization := "Bearer " ++ presented

def handedOver : Plan where
  program := "/original/entrypoint"
  arguments := ["--flags"]
  entries := [(⟨"DB", by decide +kernel⟩, utf8 "hunter2"), (⟨"KEY", by decide +kernel⟩, utf8 "s3cret")]

def launched : List HostAct :=
  [⟨.openFile "/run/secrets/token", .ok 3⟩, ⟨.metadata 3, .ok ⟨true, 0o100600⟩⟩,
    ⟨.readToString 3, .ok (presented ++ "\n")⟩, ⟨.readFile "/etc/ciphr/ca.crt", .ok [48]⟩,
    ⟨.request wrappedClient exportedAct.1, exportedAct.2⟩]

theorem environmentOf_exported : Runs (Client.environmentOf [dbPath, keyPath]) [exportedAct]
    (.ok ⟨handedOver.entries⟩) := by
  have hassigned : (EnvVarName.assign [dbPath, keyPath]).mapError SdkError.envName =
      .ok [⟨"DB", by decide +kernel⟩, ⟨"KEY", by decide +kernel⟩] := by
    decide +kernel
  have hassembled : Environment.assemble [(⟨dbPath, .first, utf8 "hunter2", 0, ""⟩ : Secret asciiUnicode),
        ⟨keyPath, .first, utf8 "s3cret", 0, ""⟩] =
      .ok ⟨handedOver.entries⟩ := by
    rfl
  exact Runs.ofExcept_bind hassigned (readAll_exported.bind (runs_ofExcept_iff.mpr ⟨rfl, hassembled.symm⟩))

theorem launched_launch : Run.Launch asciiUnicode host wrapped launched handedOver where
  unix := rfl
  command := rfl
  distinct := by decide +kernel
  inert := by decide +kernel
  steps := by
    refine ⟨presented ++ "\n", [48], wrappedClient, Client.environmentOf [dbPath, keyPath], launched.take 3,
      [⟨.request wrappedClient exportedAct.1, exportedAct.2⟩], [exportedAct], rfl, ⟨3, _, rfl, rfl, ?_⟩, ?_,
      .path rfl (.cons ?_ (.cons ?_ .nil)), .cons ⟨_, rfl, rfl⟩ .nil, ?_⟩
    · decide +kernel
    · decide +kernel
    · decide +kernel
    · decide +kernel
    · exact environmentOf_exported

/-- The process is replaced with what was asked for, and with what the service has answered. -/
theorem main_fails_closed_launched :
    (∃ before plan reply after, launched ++ [⟨.exec handedOver, .ok ()⟩] =
        before ++ ⟨.exec plan, reply⟩ :: after ∧
      Run.Launch asciiUnicode host wrapped before plan ∧ (∀ act ∈ before, Run.Harmless act.1) ∧
        Run.Outcome plan reply after (.replaced handedOver)) ∨
      (∀ act ∈ launched ++ [⟨.exec handedOver, .ok ()⟩], Run.Harmless act.1) ∧
        Run.Ended.replaced handedOver = .exited 125 :=
  Run.main_fails_closed (Run.replaced_iff.mpr ⟨launched, rfl, launched_launch⟩)

end Sample

end Ciphr
