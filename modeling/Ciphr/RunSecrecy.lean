import Ciphr.RunWrapper

/-!
What the wrapper does with the token and with the values: what it asks of the host, what it prints and how
it ends are the same whatever they are. The token is in the header of the requests, the values are in the
environment of the process that it becomes, and neither is anywhere else.
-/

namespace Ciphr

open Script

variable {u : Unicode}

/-! ### Values -/

/-- Two deliveries that are the same but for values. -/
inductive DeliveredAlike : Delivered → Delivered → Prop
  | same (reply : Delivered) : DeliveredAlike reply reply
  | secret (response : SecretResponse) (value : String) :
      DeliveredAlike (.ok (.ok (.secret response))) (.ok (.ok (.secret { response with value := value })))
  | exported {secrets secrets' : List ExportedSecret}
      (h : List.Forall₂ (fun one other => one.path = other.path ∧ one.version = other.version) secrets
        secrets') :
      DeliveredAlike (.ok (.ok (.exported secrets))) (.ok (.ok (.exported secrets')))

/-- Requests that are the same, and answers that are but for values. -/
def valuesApart : Likeness ApiRequest fun _ => Delivered where
  silent := fun _ => False
  calls := Eq
  replies := fun _ _ => DeliveredAlike
  loud := fun _ => ⟨id, id⟩

/-- Two secrets under one path. -/
def SecretAlike (one other : Secret u) : Prop := one.path = other.path

/-- Two environments of the same variables. -/
def NamesAlike (one other : Environment) : Prop := one.entries.map (·.1) = other.entries.map (·.1)

theorem related_of_refl {ε α : Type} {R : α → α → Prop} (h : ∀ a, R a a) (ended : Except ε α) :
    Related R ended ended := by
  cases ended with
  | error e => rfl
  | ok a => exact h a

namespace Client

theorem related_exported {paths : List (SecretPath u)} {reply reply' : Delivered}
    (h : DeliveredAlike reply reply') :
    Related (List.Forall₂ SecretAlike) (exported paths reply) (exported paths reply') := by
  cases h with
  | same =>
      exact related_of_refl (R := List.Forall₂ SecretAlike) (fun secrets => List.forall₂_same.mpr fun _ _ => rfl) _
  | secret => rfl
  | exported hsecrets =>
      refine related_mapM hsecrets fun one other hsame => ?_
      unfold exportedSecret
      rw [hsame.1, hsame.2]
      refine (related_refl _).bind fun path _ hpath => (related_refl _).bind fun version _ hversion => ?_
      exact hpath

theorem alike_get {path : SecretPath u} : Alike valuesApart SecretAlike (get path) (get path) := by
  refine alike_ask rfl fun reply reply' hreplies => ?_
  cases hreplies with
  | same => exact related_of_refl (R := SecretAlike) (fun secret => rfl) _
  | secret response value =>
      change Related SecretAlike (parseNamed u response.path >>= fun parsed => parseVersion response.version >>= _)
        (parseNamed u response.path >>= fun parsed => parseVersion response.version >>= _)
      refine (related_refl _).bind fun path _ hpath => (related_refl _).bind fun version _ hversion => ?_
      exact hpath
  | exported => rfl

theorem alike_getEach (paths : List (SecretPath u)) :
    Alike valuesApart (List.Forall₂ SecretAlike) (getEach paths) (getEach paths) := by
  induction paths with
  | nil => exact alike_pure .nil
  | cons path paths ih =>
      exact alike_get.bind fun secret secret' hfirst => ih.bind fun secrets secrets' hrest =>
        alike_pure (.cons hfirst hrest)

theorem alike_readAll (paths : List (SecretPath u)) :
    Alike valuesApart (List.Forall₂ SecretAlike) (readAll paths) (readAll paths) := by
  have hbulk : Alike valuesApart (List.Forall₂ SecretAlike) (exportAll paths) (exportAll paths) :=
    alike_ask rfl fun reply reply' hreplies => related_exported hreplies
  refine hbulk.outcome.bind fun ended ended' hended => ?_
  cases ended with
  | ok secrets =>
      cases ended' with
      | ok secrets' => exact alike_pure hended
      | error error => exact hended.elim
  | error error =>
      cases ended' with
      | ok secrets => exact hended.elim
      | error error' =>
          cases (hended : error = error')
          cases error with
          | surfaceEntryUnavailable => exact alike_getEach paths
          | _ => exact alike_ofExcept rfl

theorem related_assemble {secrets secrets' : List (Secret u)} (h : List.Forall₂ SecretAlike secrets secrets') :
    Related NamesAlike (Environment.assemble secrets) (Environment.assemble secrets') := by
  have hpaths : secrets.map (·.path) = secrets'.map (·.path) := by
    induction h with
    | nil => rfl
    | cons hone _ ih => exact congrArg₂ List.cons hone ih
  unfold Environment.assemble
  rw [← hpaths]
  cases hnames : EnvVarName.assign (secrets.map (·.path)) with
  | error error => rfl
  | ok names =>
      have hlength := EnvVarName.assign_length hnames
      have hsame := congrArg List.length hpaths
      rw [List.length_map] at hlength hsame
      rw [List.length_map] at hsame
      change (names.zip (secrets.map (·.value))).map Prod.fst = (names.zip (secrets'.map (·.value))).map Prod.fst
      rw [List.map_fst_zip, List.map_fst_zip]
      · rw [hlength, hsame, List.length_map]
      · rw [hlength, List.length_map]

theorem alike_environmentOf (paths : List (SecretPath u)) :
    Alike valuesApart NamesAlike (environmentOf paths) (environmentOf paths) :=
  Alike.bind (alike_ofExcept (related_refl _)) fun _ _ _ =>
    (alike_readAll paths).bind fun _ _ hsecrets => alike_ofExcept (related_assemble hsecrets)

theorem alike_environment (start : SecretPath u) :
    Alike valuesApart NamesAlike (environment start) (environment start) := by
  have hlist : Alike valuesApart Eq (list start) (list start) := by
    refine alike_ask rfl fun reply reply' hreplies => ?_
    cases hreplies with
    | same => exact related_refl _
    | secret => rfl
    | exported => rfl
  refine hlist.bind fun paths paths' hpaths => ?_
  rw [hpaths]
  split
  · exact alike_ofExcept rfl
  · exact alike_environmentOf _

end Client

/-! ### The token and the values -/

/-- Two clients that are the same but for the token they present. -/
def ClientAlike (one other : Client) : Prop := other = { one with authorization := other.authorization }

/-- Two plans that are the same but for values. -/
structure PlanAlike (one other : Plan) : Prop where
  program : one.program = other.program
  arguments : one.arguments = other.arguments
  names : one.entries.map (·.1) = other.entries.map (·.1)

/-- Calls that are the same but for a token in a header, or for the values of an environment. -/
inductive CallAlike : HostCall → HostCall → Prop
  | same (c : HostCall) : CallAlike c c
  | request {one other : Client} (h : ClientAlike one other) (request : ApiRequest) :
      CallAlike (.request one request) (.request other request)
  | exec {one other : Plan} (h : PlanAlike one other) : CallAlike (.exec one) (.exec other)

/-- Replies that are the same but for what was read of a file, or for values that were delivered. -/
inductive ReplyAlike : (c c' : HostCall) → HostCall.Reply c → HostCall.Reply c' → Prop
  | same (c : HostCall) (reply : HostCall.Reply c) : ReplyAlike c c reply reply
  | text (file : Nat) (text text' : String) : ReplyAlike (.readToString file) (.readToString file) (.ok text)
      (.ok text')
  | request {one other : Client} (request : ApiRequest) {reply reply' : Delivered}
      (h : DeliveredAlike reply reply') : ReplyAlike (.request one request) (.request other request) reply reply'
  | exec (one other : Plan) (reply : Except String Unit) : ReplyAlike (.exec one) (.exec other) reply reply

/-- Hosts that differ in the token they hold, and in the values that their service has. -/
def secretsApart : Likeness HostCall HostCall.Reply where
  silent := fun _ => False
  calls := CallAlike
  replies := ReplyAlike
  loud := fun _ => ⟨id, id⟩

theorem alike_send {ε α β : Type} {failed : SdkError → ε} {R : α → β → Prop} {client client' : Client}
    {script : Sdk α} {script' : Sdk β} (hclient : ClientAlike client client')
    (h : Alike valuesApart R script script') :
    Alike secretsApart R ((client.send script).mapError failed) ((client'.send script').mapError failed) := by
  apply Alike.mapError
  refine h.through (fun _ hsilent => hsilent) (fun c c' hcalls => ?_) fun c c' reply reply' hreplies => ?_
  · cases hcalls
    exact .request hclient c
  · cases hreplies with
    | same => exact .same reply
    | request _ hdelivered => exact hdelivered

namespace Run

variable {platform : Platform} {cli : Cli}

/-- The same call with the same reply. -/
theorem alike_same {ε α : Type} {c : HostCall} {g : HostCall.Reply c → Except ε α}
    (h : ∀ reply reply', ReplyAlike c c reply reply' → reply = reply') :
    Alike secretsApart Eq (Script.ask c g) (Script.ask c g) := by
  refine alike_ask (.same c) fun reply reply' hreplies => ?_
  rw [h reply reply' hreplies]
  exact related_refl _

theorem alike_readToken (path : String) :
    Alike secretsApart (fun _ _ => True) (readToken platform path) (readToken platform path) := by
  have hopened : Alike secretsApart Eq (openCredential platform path) (openCredential platform path) := by
    refine Alike.bind (alike_same fun reply reply' hreplies => ?_) fun file file' hfile => ?_
    · cases hreplies
      rfl
    cases hfile
    refine Alike.bind (alike_same fun reply reply' hreplies => ?_) fun metadata metadata' hmetadata => ?_
    · cases hreplies
      rfl
    cases hmetadata
    exact alike_ofExcept (related_refl _)
  refine (hopened.mapError _).bind fun credential credential' hcredential => ?_
  cases hcredential
  refine (alike_ofExcept (related_refl _)).bind fun _ _ _ => ?_
  refine alike_ask (.same _) fun reply reply' hreplies => ?_
  cases hreplies with
  | same => exact related_of_refl (R := fun _ _ => True) (fun _ => trivial) _
  | text => exact trivial

/-- A client is built, or is not, whatever the token. -/
theorem related_build (token token' : String) (pem : List UInt8) :
    Related ClientAlike ((builder cli token pem).build platform) ((builder cli token' pem).build platform) := by
  unfold ClientBuilder.build
  refine (related_refl _).bind fun base base' hbase => ?_
  refine (related_refl _).bind fun authorities authorities' hauthorities => ?_
  refine (related_refl _).bind fun userAgent userAgent' hagent => ?_
  cases hbase
  cases hauthorities
  cases hagent
  exact rfl

theorem alike_fetch {client client' : Client} (h : ClientAlike client client') :
    Alike secretsApart NamesAlike (fetch u client cli) (fetch u client' cli) := by
  unfold fetch
  split
  · refine (alike_ofExcept (related_refl _)).bind fun start start' hstart => ?_
    cases hstart
    exact alike_send h (Client.alike_environment start)
  · refine (alike_ofExcept (related_refl _)).bind fun paths paths' hpaths => ?_
    cases hpaths
    exact alike_send h (Client.alike_environmentOf paths)

theorem related_newPlan {entries entries' : List (EnvVarName × List UInt8)}
    (h : entries.map (·.1) = entries'.map (·.1)) :
    Related PlanAlike (newPlan cli.command entries) (newPlan cli.command entries') := by
  unfold newPlan
  split
  · exact rfl
  · exact ⟨rfl, rfl, h⟩

theorem alike_report {plan plan' : Plan} (h : PlanAlike plan plan') :
    Alike secretsApart Eq (report cli plan) (report cli plan') := by
  have htexts : plan.entries.map (·.1.text) = plan'.entries.map (·.1.text) := by
    have hnames := congrArg (List.map EnvVarName.text) h.names
    rwa [List.map_map, List.map_map] at hnames
  unfold report
  split
  · rw [htexts, h.program]
    refine alike_same fun reply reply' hreplies => ?_
    cases hreplies
    rfl
  · exact alike_pure rfl

theorem alike_exec {plan plan' : Plan} (h : PlanAlike plan plan') :
    Alike secretsApart PlanAlike (exec platform plan) (exec platform plan') := by
  unfold exec
  split
  · refine alike_ask (.exec h) fun reply reply' hreplies => ?_
    have hsame : reply = reply' := by
      cases hreplies with
      | same => rfl
      | exec => rfl
    rw [← hsame]
    cases reply with
    | ok done => exact h
    | error kind =>
        change RunError.exec plan.program kind _ = RunError.exec plan'.program kind _
        rw [h.program]
  · exact alike_ofExcept rfl

/-- The wrapper does the same, whatever its token is and whatever the values are. -/
theorem alike_run : Alike secretsApart PlanAlike (run u platform cli) (run u platform cli) := by
  refine (alike_ofExcept (related_refl _)).bind fun _ _ _ => ?_
  refine (alike_readToken _).bind fun token token' _ => ?_
  refine Alike.bind (alike_same fun reply reply' hreplies => ?_) fun pem pem' hpem => ?_
  · cases hreplies
    rfl
  cases hpem
  refine (alike_ofExcept ((related_build token token' pem).mapError _)).bind fun client client' hclient => ?_
  refine (alike_fetch hclient).bind fun environment environment' hnames => ?_
  have hsame : environment.entries.map (·.1) = environment'.entries.map (·.1) := hnames
  refine Alike.bind (alike_ofExcept ?_) fun _ _ (_ : True) => ?_
  · rw [hsame]
    exact related_of_refl (R := fun _ _ => True) (fun _ => trivial) _
  refine (alike_ofExcept (related_newPlan hsame)).bind fun plan plan' hplan => ?_
  exact (alike_report hplan).bind fun _ _ _ => alike_exec hplan

/-- Two ways to go on that are the same but for values. -/
inductive EndedAlike : Ended → Ended → Prop
  | replaced {plan plan' : Plan} (h : PlanAlike plan plan') : EndedAlike (.replaced plan) (.replaced plan')
  | exited (code : UInt8) : EndedAlike (.exited code) (.exited code)

theorem alike_main : Alike secretsApart EndedAlike (main u platform cli) (main u platform cli) := by
  refine alike_run.outcome.bind fun result result' hresult => ?_
  cases result with
  | ok plan =>
      cases result' with
      | ok plan' => exact alike_pure (.replaced hresult)
      | error error => exact hresult.elim
  | error error =>
      cases result' with
      | ok plan' => exact hresult.elim
      | error error' =>
          cases (hresult : error = error')
          refine Alike.bind (alike_same fun reply reply' hreplies => ?_) fun _ _ _ => alike_pure (.exited _)
          cases hreplies
          rfl

/-- **Secrecy.** On two hosts that tell the wrapper the same, but for the token in its file and the values
that the service has, every run asks the same and prints the same, line by line, and ends in the same way.
The token makes a difference to the headers of the requests only, and the values make one only to the
environment of the process. -/
theorem secrets_unseen {acts acts' : List HostAct} {ended ended' : Ended}
    (h : Runs (main u platform cli) acts (.ok ended)) (h' : Runs (main u platform cli) acts' (.ok ended'))
    (htold : ToldAlike secretsApart acts acts') :
    List.Forall₂ (Corresponds secretsApart) acts acts' ∧ EndedAlike ended ended' :=
  alike_main.runs (fun _ hsilent => hsilent) h h' htold

end Run

namespace Sample

/-- The client, the answer and the process where the token and the values are others. -/
def otherClient : Client := { wrappedClient with authorization := "Bearer cph_other" }

def otherAct : Act ApiRequest fun _ => Delivered :=
  ⟨.exportPaths (.ok ["infra/DB", "infra/KEY"]), .ok (.ok (.exported
    [⟨"infra/DB", 1, "correct horse"⟩, ⟨"infra/KEY", 1, "correct horse"⟩]))⟩

def otherPlan : Plan :=
  { handedOver with entries := handedOver.entries.map fun entry => (entry.1, utf8 "correct horse") }

def otherLaunched : List HostAct :=
  [⟨.openFile "/run/secrets/token", .ok 3⟩, ⟨.metadata 3, .ok ⟨true, 0o100600⟩⟩,
    ⟨.readToString 3, .ok "cph_other\n"⟩, ⟨.readFile "/etc/ciphr/ca.crt", .ok [48]⟩,
    ⟨.request otherClient otherAct.1, otherAct.2⟩]

theorem otherLaunched_launch : Run.Launch asciiUnicode host wrapped otherLaunched otherPlan where
  unix := rfl
  command := rfl
  distinct := by decide +kernel
  inert := by decide +kernel
  steps := by
    have hassigned : (EnvVarName.assign [dbPath, keyPath]).mapError SdkError.envName =
        .ok [⟨"DB", by decide +kernel⟩, ⟨"KEY", by decide +kernel⟩] := by
      decide +kernel
    have hexported : Client.exported [dbPath, keyPath] otherAct.2 =
        .ok [⟨dbPath, .first, utf8 "correct horse", 0, ""⟩,
          ⟨keyPath, .first, utf8 "correct horse", 0, ""⟩] := by
      decide +kernel
    have hread : Runs (Client.readAll [dbPath, keyPath]) [otherAct]
        (.ok [⟨dbPath, .first, utf8 "correct horse", 0, ""⟩,
          ⟨keyPath, .first, utf8 "correct horse", 0, ""⟩]) := by
      refine runs_call_iff.mpr ⟨otherAct.2, [], rfl, ?_⟩
      dsimp only [Script.outcome, Script.bind]
      rw [hexported]
      exact .done _
    have hassembled : Environment.assemble
        [(⟨dbPath, .first, utf8 "correct horse", 0, ""⟩ : Secret asciiUnicode),
          ⟨keyPath, .first, utf8 "correct horse", 0, ""⟩] = .ok ⟨otherPlan.entries⟩ := by
      rfl
    refine ⟨"cph_other\n", [48], otherClient, Client.environmentOf [dbPath, keyPath], otherLaunched.take 3,
      [⟨.request otherClient otherAct.1, otherAct.2⟩], [otherAct], rfl, ⟨3, _, rfl, rfl, ?_⟩, ?_,
      .path rfl (.cons ?_ (.cons ?_ .nil)), .cons ⟨_, rfl, rfl⟩ .nil, ?_⟩
    · decide +kernel
    · decide +kernel
    · decide +kernel
    · decide +kernel
    · exact Runs.ofExcept_bind hassigned (hread.bind (runs_ofExcept_iff.mpr ⟨rfl, hassembled.symm⟩))

/-- Two processes, of two tokens and two values. -/
theorem secrets_unseen_launched :
    List.Forall₂ (Corresponds secretsApart) (launched ++ [⟨.exec handedOver, .ok ()⟩])
        (otherLaunched ++ [⟨.exec otherPlan, .ok ()⟩]) ∧
      Run.EndedAlike (.replaced handedOver) (.replaced otherPlan) := by
  refine Run.secrets_unseen (Run.replaced_iff.mpr ⟨launched, rfl, launched_launch⟩)
    (Run.replaced_iff.mpr ⟨otherLaunched, rfl, otherLaunched_launch⟩) ?_
  refine fun _ => ⟨.same _ _, fun _ => ⟨.same _ _, fun _ => ⟨.text .., fun _ => ⟨.same _ _, fun _ => ⟨?_, ?_⟩⟩⟩⟩⟩
  · exact .request _ (.exported (.cons ⟨rfl, rfl⟩ (.cons ⟨rfl, rfl⟩ .nil)))
  · exact fun _ => ⟨.exec .., trivial⟩

end Sample

end Ciphr
