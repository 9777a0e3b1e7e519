import Ciphr.CoreEnvAssign
import Ciphr.CoreHexCodec
import Ciphr.ServerRevocation
import Ciphr.SdkBulkRead
import Ciphr.SdkHost

/-!
What a client of this service has in hand once it has read several secrets or everything under a prefix,
however the service was used beside it: for each path the value that was current when it was read, to a
caller whose token was valid and with a grant on the trail.
-/

namespace Rust

/-- A text that was trimmed is not trimmed any further. -/
theorem trim_trim (text : String) : trim (trim text) = trim text := by
  have hfront : ∀ chars : List Char,
      (trimEnd (chars.dropWhile isWhitespace)).dropWhile isWhitespace =
        trimEnd (chars.dropWhile isWhitespace) := by
    intro chars
    cases hchars : chars.dropWhile isWhitespace with
    | nil => rfl
    | cons c rest =>
        have hc : isWhitespace c = false := by
          have hne : chars.dropWhile isWhitespace ≠ [] := by simp [hchars]
          have hhead := List.head_dropWhile_not isWhitespace hne
          simpa [hchars] using hhead
        rw [trimEnd_cons hc, List.dropWhile_cons_of_neg (by simp [hc])]
  change String.ofList (trimEnd ((trim text).toList.dropWhile isWhitespace)) = _
  have htext : (trim text).toList = trimEnd (text.toList.dropWhile isWhitespace) := String.toList_ofList
  rw [htext, hfront, trimEnd_trimEnd]
  rfl

end Rust

namespace Ciphr

open Script

variable {u : Unicode}

/-! ### The token -/

/-- A header that is a text is the text that it was made of. -/
theorem headerText_utf8 {text found : String} (h : headerText (utf8 text) = some found) : found = text := by
  unfold headerText at h
  split at h
  · rename_i hvisible
    have hascii : ∀ byte ∈ Hex.textBytes text, byte < 0x80 := by
      intro byte hbyte
      have hone := List.all_eq_true.mp hvisible byte hbyte
      simp only [Bool.or_eq_true, Bool.and_eq_true, decide_eq_true_eq, beq_iff_eq] at hone
      rw [UInt8.lt_iff_toNat_lt]
      rcases hone with ⟨-, hlt⟩ | rfl
      · rw [UInt8.lt_iff_toNat_lt] at hlt
        exact lt_trans hlt (by decide)
      · decide
    rw [← Option.some.inj h]
    apply String.toList_injective
    rw [String.toList_ofList]
    exact (Hex.toList_of_ascii hascii).symm
  · cases h

/-- The token that a client presents is the one it was built with, less the whitespace around it. -/
theorem bearerToken_of_authorization {headers : Headers} {token presented : String}
    (h : headers.authorization = some (utf8 ("Bearer " ++ Rust.trim token)))
    (hpresented : headers.bearerToken = some presented) : presented = Rust.trim token := by
  unfold Headers.bearerToken at hpresented
  obtain ⟨body, hbody, rfl⟩ := Option.map_eq_some_iff.mp hpresented
  obtain ⟨found, hfound, hstripped⟩ := Option.bind_eq_some_iff.mp hbody
  rw [h, Option.bind_some] at hfound
  rw [headerText_utf8 hfound] at hstripped
  have hsame := Rust.stripPrefix_eq_some.mp hstripped
  rw [← Rust.trim_trim token]
  congr 1
  apply String.toList_injective
  have hlists := congrArg String.toList hsame
  rw [String.toList_append, String.toList_append] at hlists
  exact (List.append_cancel_left hlists).symm

/-! ### One secret -/

/-- A read of the current version that succeeds answers with what the store has given for the path. -/
theorem readSecret_served (hstable : u.Stable) [ReservedPaths u] {deployment : Deployment}
    {headers : Headers} {path : SecretPath u} {acts : List (ApiAct u)} {response : ApiResponse}
    (h : Runs (serve deployment headers (.readSecret (.ok path.text) (.ok ⟨none⟩)) : Served u) acts
      (.ok response)) :
    ∃ stored value, (⟨.get path none, .ok stored⟩ : ApiAct u) ∈ acts ∧
      decryptToText deployment stored = .ok value ∧
      response = .secret ⟨stored.path.text, stored.version.number, value, stored.createdAt,
        stored.createdBy⟩ := by
  unfold serve at h
  split at h
  · unfold handle at h
    dsimp only at h
    rcases runs_extracting h with ⟨_, hfailed, -⟩ | ⟨raw, hraw, h⟩
    · cases hfailed
    cases hraw
    rcases runs_extracting h with ⟨_, hfailed, -⟩ | ⟨query, hquery, h⟩
    · cases hfailed
    cases hquery
    obtain ⟨result, hruns, hresult⟩ := runs_mapError_iff.mp h
    have hok := Loop.mapError_eq_ok hresult.symm
    cases runs_readSecret hruns with
    | turnedAway => cases hok
    | unchecked => cases hok
    | undecided => cases hok
    | @admitted front more _ caller found _ hparse hcheck hadmitted hrest =>
        have hfound : found = path := by
          unfold parsePath at hparse
          rw [SecretPath.parse_text hstable] at hparse
          cases hparse
          rfl
        obtain ⟨version, hversion, hserve⟩ := runs_ofExcept_bind_ok (hok ▸ hrest)
        cases hversion
        rcases runs_serveSecret hserve with ⟨stored, value, rfl, hvalue, hended⟩ |
          ⟨_, _, _, _, -, _, error, -, hended⟩
        · refine ⟨stored, value, ?_, hvalue, Except.ok.inj hended⟩
          rw [← hfound]
          exact List.mem_append_right _ (List.mem_singleton_self _)
        · cases hended
  · obtain ⟨result, hruns, hresult⟩ := runs_mapError_iff.mp h
    obtain ⟨⟨error, rfl⟩, -⟩ := runs_refusedRequest hruns
    cases hresult

/-! ### Values -/

section Values

variable [ReservedPaths u] {δ ω φ : Type} [AuditDevice δ ω φ] {deployment : Deployment} {codec : Codec}
  {json : JsonExtract} {database : ω → Database} {between : Server δ ω → Server δ ω → Prop}
  {headers : Headers} {readings : List (Reading u δ ω)} {path : SecretPath u}

/-- A value that was read for a path: it was the current one at one of the turns of a request, which was
made for a caller whom the token table knew and whose read of the path is granted on the trail. -/
def ServedValue (deployment : Deployment) (headers : Headers) (readings : List (Reading u δ ω))
    (path : SecretPath u) (secret : Secret u) : Prop :=
  ∃ reading ∈ readings, ∃ caller, KnownCaller deployment headers caller reading.acts ∧
    Allows (entries reading.acts) caller.asPrincipal .read path.text ∧
    ∃ turn ∈ reading.turns, ReadValue deployment turn.before.secrets path secret

/-- Every answer that was delivered is one of the service's, on a process that was used by others as
well while it answered. -/
def Genuine (deployment : Deployment) (codec : Codec) (json : JsonExtract) (database : ω → Database)
    (between : Server δ ω → Server δ ω → Prop) (headers : Headers) (readings : List (Reading u δ ω))
    (inner : List (Act ApiRequest fun _ => Delivered)) : Prop :=
  ∀ act ∈ inner, ∀ answered, act.2 = .ok answered →
    ∃ reading ∈ readings, reading.request = act.1 ∧ reading.ended = answered ∧
      ∃ before after, Plays (Server.answer deployment codec json database) between before
        (serve deployment headers act.1 : Served u) reading.turns answered after

theorem Genuine.of_append {front rest : List (Act ApiRequest fun _ => Delivered)}
    (h : Genuine deployment codec json database between headers readings (front ++ rest)) :
    Genuine deployment codec json database between headers readings front ∧
      Genuine deployment codec json database between headers readings rest :=
  ⟨fun act hact => h act (List.mem_append_left _ hact), fun act hact => h act (List.mem_append_right _ hact)⟩

/-- A request that has read a value and was answered is in the name of a caller who may. -/
theorem allowed_of_get {request : ApiRequest} {acts : List (ApiAct u)} {response : ApiResponse}
    {reply : ApiCall.Reply (.get path none)} (htouches : request.touchesStore = true)
    (hlogin : ∀ body, request ≠ .oidcLogin body)
    (h : Runs (serve deployment headers request) acts (.ok response))
    (hget : (⟨.get path none, reply⟩ : ApiAct u) ∈ acts) :
    ∃ caller, KnownCaller deployment headers caller acts ∧
      Allows (entries acts) caller.asPrincipal .read path.text := by
  rcases serve_accountsFor htouches h with ⟨-, error, hfailed⟩ | ⟨principal, hacts, haccounted⟩
  · cases hfailed
  obtain ⟨front, later, hsplit⟩ := List.append_of_mem hget
  have hcovered := haccounted.calls
  rw [hsplit] at hcovered
  have hallows : Allows (entries acts) principal .read path.text := by
    apply Allows.mono hcovered.before
    rw [hsplit, entries_append]
    exact List.subset_append_left _ _
  cases hacts with
  | caller request caller _ hknown => exact ⟨caller, hknown, hallows⟩
  | provider login => exact absurd rfl (hlogin _)

/-- What an answered request has read is a value that was served. -/
theorem servedValue_of_get (hstable : u.Stable) {reading : Reading u δ ω} {request : ApiRequest}
    {response : ApiResponse} {before after : Server δ ω} {stored : StoredVersion u} {value : String}
    (hmem : reading ∈ readings) (htouches : request.touchesStore = true)
    (hlogin : ∀ body, request ≠ .oidcLogin body)
    (hplays : Plays (Server.answer deployment codec json database) between before
      (serve deployment headers request : Served u) reading.turns (.ok response) after)
    (hget : (⟨.get path none, .ok stored⟩ : ApiAct u) ∈ reading.acts)
    (hvalue : decryptToText deployment stored = .ok value) {secret : Secret u}
    (hpath : parseNamed u stored.path.text = .ok secret.path)
    (hversion : parseVersion stored.version.number = .ok secret.version)
    (hsecret : secret.value = utf8 value) :
    ServedValue deployment headers readings path secret := by
  obtain ⟨caller, hknown, hallows⟩ := allowed_of_get htouches hlogin hplays.runs hget
  obtain ⟨turn, hturn, hact⟩ := List.mem_map.mp hget
  obtain ⟨outside, hreply, -⟩ := hplays.answered hturn
  rw [hact] at hreply
  have hcurrent := currentValue_of_get hreply.symm hvalue
  have hsame : stored.path = path := SecretTables.get_path hreply.symm
  rw [parseVersion_number] at hversion
  have hnumber : stored.version = secret.version := Except.ok.inj hversion
  have hparsed : secret.path = path := by
    unfold parseNamed at hpath
    rw [hsame, SecretPath.parse_text hstable] at hpath
    exact (Except.ok.inj hpath).symm
  rw [hsame, hnumber] at hcurrent
  exact ⟨reading, hmem, caller, hknown, hallows, turn, hturn, hparsed, value, hsecret, hcurrent⟩

namespace Client

theorem decode_eq_ok {reply : Delivered} {subject : String} {response : ApiResponse}
    (h : decode reply subject = .ok response) : reply = .ok (.ok response) := by
  unfold decode at h
  split at h
  · cases h
  · cases h
  · cases h
    rfl

/-- One secret that the client was given. -/
theorem get_served (hstable : u.Stable) {inner : List (Act ApiRequest fun _ => Delivered)}
    {secret : Secret u}
    (hgenuine : Genuine deployment codec json database between headers readings inner)
    (h : Runs (get path) inner (.ok secret)) : ServedValue deployment headers readings path secret := by
  obtain ⟨reply, rfl, hreply⟩ := runs_ask_iff.mp h
  obtain ⟨response, hdecoded, hrest⟩ := Loop.bind_eq_ok hreply.symm
  have hanswered := decode_eq_ok hdecoded
  obtain ⟨reading, hmem, -, -, before, after, hplays⟩ :=
    hgenuine _ (List.mem_singleton_self _) _ hanswered
  obtain ⟨stored, value, hget, hvalue, rfl⟩ := readSecret_served hstable hplays.runs
  obtain ⟨parsed, hparsed, hrest⟩ := Loop.bind_eq_ok hrest
  obtain ⟨version, hversion, hrest⟩ := Loop.bind_eq_ok hrest
  cases hrest
  exact servedValue_of_get hstable hmem rfl (fun _ => by simp) hplays hget hvalue hparsed hversion rfl

theorem getEach_served (hstable : u.Stable) {paths : List (SecretPath u)}
    {inner : List (Act ApiRequest fun _ => Delivered)} {secrets : List (Secret u)}
    (hgenuine : Genuine deployment codec json database between headers readings inner)
    (h : Runs (getEach paths) inner (.ok secrets)) :
    List.Forall₂ (ServedValue deployment headers readings) paths secrets := by
  induction paths generalizing inner secrets with
  | nil =>
      cases (runs_pure_iff.mp h).2
      exact .nil
  | cons path paths ih =>
      obtain ⟨secret, front, rest, rfl, hfirst, h⟩ := runs_bind_ok h
      obtain ⟨more, middle, last, rfl, hmore, h⟩ := runs_bind_ok h
      cases (runs_pure_iff.mp h).2
      obtain ⟨hfront, hrest⟩ := hgenuine.of_append
      exact .cons (get_served hstable hfront hfirst) (ih hrest.of_append.1 hmore)

/-- Several secrets that the client was given in one answer. -/
theorem exported_served (hstable : u.Stable) {paths : List (SecretPath u)} {reply : Delivered}
    {secrets : List (Secret u)}
    (hgenuine : Genuine deployment codec json database between headers readings
      [⟨.exportPaths (.ok (paths.map (·.text))), reply⟩])
    (h : exported paths reply = .ok secrets) :
    List.Forall₂ (ServedValue deployment headers readings) paths secrets := by
  obtain ⟨response, hdecoded, hrest⟩ := Loop.bind_eq_ok h
  have hanswered := decode_eq_ok (Loop.mapError_eq_ok hdecoded)
  obtain ⟨reading, hmem, -, -, before, after, hplays⟩ :=
    hgenuine _ (List.mem_singleton_self _) _ hanswered
  obtain ⟨result, hresult, ⟨-, hruns⟩ | ⟨-, hruns⟩⟩ := runs_serve_exportPaths hplays.runs
  · rw [Loop.mapError_eq_ok hresult.symm] at hruns
    obtain ⟨entries, rfl, hserved⟩ := exportPaths_served hstable hruns
    have hsecrets := Loop.mapM_eq_ok_iff.mp hrest
    have hone : ∀ (path : SecretPath u) entry secret, (∃ stored value,
        (⟨.get path none, .ok stored⟩ : ApiAct u) ∈ reading.acts ∧
          decryptToText deployment stored = .ok value ∧
          entry = ⟨stored.path.text, stored.version.number, value⟩) →
        exportedSecret u entry = .ok secret → ServedValue deployment headers readings path secret := by
      intro path entry secret hread hsecret
      obtain ⟨stored, value, hget, hvalue, rfl⟩ := hread
      obtain ⟨parsed, hparsed, hsecret⟩ := Loop.bind_eq_ok hsecret
      obtain ⟨version, hversion, hsecret⟩ := Loop.bind_eq_ok hsecret
      cases hsecret
      exact servedValue_of_get hstable hmem rfl (fun _ => by simp) hplays hget hvalue hparsed hversion rfl
    exact forall₂_of_common hserved.flip hsecrets fun entry path secret => hone path entry secret
  · obtain ⟨⟨error, rfl⟩, -⟩ := runs_refusedRequest hruns
    cases hresult

/-- Whatever the client has read at once, by either route. -/
theorem readAll_served (hstable : u.Stable) {paths : List (SecretPath u)}
    {inner : List (Act ApiRequest fun _ => Delivered)} {secrets : List (Secret u)}
    (hgenuine : Genuine deployment codec json database between headers readings inner)
    (h : Runs (readAll paths) inner (.ok secrets)) :
    List.Forall₂ (ServedValue deployment headers readings) paths secrets := by
  obtain ⟨reply, rest, rfl, ⟨-, heach⟩ | ⟨-, rfl, hexported⟩⟩ := runs_readAll h
  · have hrest := fun act hact => hgenuine act (List.mem_cons_of_mem _ hact)
    exact getEach_served hstable hrest heach
  · exact exported_served hstable hgenuine hexported.symm

end Client

/-! ### An environment -/

/-- A variable that is named after a path, and has a value that was served for it. -/
def ServedVariable (deployment : Deployment) (headers : Headers) (readings : List (Reading u δ ω))
    (path : SecretPath u) (entry : EnvVarName × List UInt8) : Prop :=
  entry.1.text = path.lastSegment ∧
    ∃ secret, ServedValue deployment headers readings path secret ∧ entry.2 = secret.value

omit [ReservedPaths u] in
theorem ServedValue.path_eq {secret : Secret u}
    (h : ServedValue deployment headers readings path secret) : secret.path = path := by
  obtain ⟨_, -, _, -, -, _, -, hpath, -⟩ := h
  exact hpath

omit [ReservedPaths u] in
theorem assembled_served {paths : List (SecretPath u)} {secrets : List (Secret u)}
    {environment : Environment}
    (hserved : List.Forall₂ (ServedValue deployment headers readings) paths secrets)
    (h : Environment.assemble secrets = .ok environment) :
    List.Forall₂ (ServedVariable deployment headers readings) paths environment.entries := by
  have hpaths : secrets.map (·.path) = paths := by
    clear h
    induction hserved with
    | nil => rfl
    | cons hone _ ih => rw [List.map_cons, ih, hone.path_eq]
  obtain ⟨names, hassigned, hentries⟩ := Loop.bind_eq_ok h
  cases hentries
  have htexts := EnvVarName.text_of_assign (Loop.mapError_eq_ok hassigned)
  rw [hpaths] at htexts
  clear h hassigned hpaths
  induction hserved generalizing names with
  | nil =>
      cases names with
      | nil => exact .nil
      | cons name names => cases htexts
  | cons hone _ ih =>
      cases names with
      | nil => cases htexts
      | cons name names =>
          rw [List.map_cons, List.map_cons, List.cons.injEq] at htexts
          exact .cons ⟨htexts.1, _, hone, rfl⟩ (ih names htexts.2)

namespace Client

/-- The variables of the paths that were named. -/
theorem environmentOf_served (hstable : u.Stable) {paths : List (SecretPath u)}
    {inner : List (Act ApiRequest fun _ => Delivered)} {environment : Environment}
    (hgenuine : Genuine deployment codec json database between headers readings inner)
    (h : Runs (environmentOf paths) inner (.ok environment)) :
    List.Forall₂ (ServedVariable deployment headers readings) paths environment.entries := by
  obtain ⟨_, -, h⟩ := runs_ofExcept_bind_ok h
  obtain ⟨secrets, front, rest, rfl, hread, h⟩ := runs_bind_ok h
  exact assembled_served (readAll_served hstable hgenuine.of_append.1 hread) (runs_ofExcept_iff.mp h).2.symm

/-- The paths that the service has listed under a prefix. -/
def ListedBelow (readings : List (Reading u δ ω)) (start : SecretPath u) (paths : List (SecretPath u)) :
    Prop :=
  ∃ reading ∈ readings, ∃ response, reading.request = .listPaths (.ok start.text) (.ok none) ∧
    reading.ended = .ok (.listing response) ∧ response.paths.mapM (parseNamed u) = .ok paths

theorem listedBelow {start : SecretPath u} {reply : Delivered} {paths : List (SecretPath u)}
    (hgenuine : Genuine deployment codec json database between headers readings
      [⟨.listPaths (.ok start.text) (.ok none), reply⟩])
    (h : listed start reply = .ok paths) : ListedBelow readings start paths := by
  obtain ⟨response, hdecoded, hparsed⟩ := Loop.bind_eq_ok h
  have hanswered := decode_eq_ok hdecoded
  obtain ⟨reading, hmem, hrequest, hended, -⟩ := hgenuine _ (List.mem_cons_self ..) _ hanswered
  cases response with
  | listing response => exact ⟨reading, hmem, response, hrequest, hended, hparsed⟩
  | _ => cases hparsed

/-- The variables of the paths that were listed. -/
theorem environment_served (hstable : u.Stable) {start : SecretPath u}
    {inner : List (Act ApiRequest fun _ => Delivered)} {environment : Environment}
    (hgenuine : Genuine deployment codec json database between headers readings inner)
    (h : Runs (Client.environment start) inner (.ok environment)) :
    ∃ paths, paths ≠ [] ∧ ListedBelow readings start paths ∧
      List.Forall₂ (ServedVariable deployment headers readings) paths environment.entries := by
  obtain ⟨reply, paths, rest, rfl, hlisted, h⟩ := runs_ask_bind_ok h
  split at h
  · cases (runs_ofExcept_iff.mp h).2
  · rename_i hempty
    have hrest := environmentOf_served hstable (fun act hact => hgenuine act (List.mem_cons_of_mem _ hact)) h
    have hfirst : Genuine deployment codec json database between headers readings
        [⟨.listPaths (.ok start.text) (.ok none), reply⟩] := by
      intro act hact
      exact hgenuine act (List.mem_cons.mpr (.inl (List.mem_singleton.mp hact)))
    exact ⟨paths, fun hnil => hempty (by rw [hnil]; rfl), listedBelow hfirst hlisted, hrest⟩

end Client

end Values

/-! ### A program -/

section Host

variable [ReservedPaths u] {δ ω φ : Type} [AuditDevice δ ω φ] {deployment : Deployment} {codec : Codec}
  {json : JsonExtract} {database : ω → Database} {between : Server δ ω → Server δ ω → Prop}
  {headers : Client → Headers} {readings : List (Reading u δ ω)} {acts : List HostAct}

/-- Whatever was delivered to a client is an answer of the service to the headers that it sends. -/
def GenuineHost (deployment : Deployment) (codec : Codec) (json : JsonExtract) (database : ω → Database)
    (between : Server δ ω → Server δ ω → Prop) (headers : Client → Headers)
    (readings : List (Reading u δ ω)) (acts : List HostAct) : Prop :=
  ∀ client request answered, (⟨.request client request, .ok answered⟩ : HostAct) ∈ acts →
    ∃ reading ∈ readings, reading.request = request ∧ reading.ended = answered ∧
      ∃ before after, Plays (Server.answer deployment codec json database) between before
        (serve deployment (headers client) request : Served u) reading.turns answered after

/-- The paths whose values were asked for: the ones of the command line, or those that the service has
listed under the prefix. -/
inductive Wanted (below : Option String) (named : List String) (readings : List (Reading u δ ω)) :
    List (SecretPath u) → Prop
  | path {paths : List (SecretPath u)} (hbelow : below = none)
      (hparse : List.Forall₂ (fun raw path => SecretPath.parse u raw = .ok path) named paths) :
      Wanted below named readings paths
  | start {raw : String} {start : SecretPath u} {paths : List (SecretPath u)}
      (hbelow : below = some raw) (hparse : SecretPath.parse u raw = .ok start) (hne : paths ≠ [])
      (hlisted : Client.ListedBelow readings start paths) : Wanted below named readings paths

theorem GenuineHost.asked {client : Client} {requests : List HostAct}
    {inner : List (Act ApiRequest fun _ => Delivered)}
    (h : GenuineHost deployment codec json database between headers readings acts)
    (hasked : List.Forall₂ (Asked client) requests inner) (hsub : requests ⊆ acts) :
    Genuine deployment codec json database between (headers client) readings inner := by
  intro act hact answered hanswered
  obtain ⟨outer, houter, reply, rfl, hreply⟩ := Loop.forall₂_mem_right hasked hact
  apply h client act.1 answered
  rw [← hanswered, hreply]
  exact hsub houter

omit [ReservedPaths u] in
/-- What a client presents is the token of the file that was inspected, and a caller whom the service
knew has presented it. -/
theorem knownBy {client : Client} {token : String} {caller : Caller} {turns : List (ApiAct u)}
    (hheaders : (headers client).authorization = some (utf8 client.authorization))
    (hclient : client.authorization = "Bearer " ++ Rust.trim token)
    (h : KnownCaller deployment (headers client) caller turns) :
    ∃ one, (⟨.authenticate (Rust.trim token), .ok (.valid one)⟩ : ApiAct u) ∈ turns ∧
      caller = deployment.callerOf one := by
  obtain ⟨front, more, rfl, presented, one, hpresented, rfl, rfl⟩ := h
  rw [hclient] at hheaders
  rw [← bearerToken_of_authorization hheaders hpresented]
  exact ⟨one, List.mem_append_left _ (List.mem_singleton_self _), rfl⟩

/-- A value that a path had in the store while the service answered a request, where the service has put
on the trail that the one whose token it is may read the path. -/
def GrantedValue (deployment : Deployment) (readings : List (Reading u δ ω)) (token : String)
    (path : SecretPath u) (text : String) : Prop :=
  ∃ reading ∈ readings, ∃ one, (⟨.authenticate (Rust.trim token), .ok (.valid one)⟩ : ApiAct u) ∈ reading.acts ∧
    Allows (entries reading.acts) (deployment.callerOf one).asPrincipal .read path.text ∧
    ∃ turn ∈ reading.turns, ∃ version,
      CurrentValue deployment turn.before.secrets path ⟨path.text, version, text⟩

omit [ReservedPaths u] in
theorem ServedValue.granted {client : Client} {token : String} {path : SecretPath u} {secret : Secret u}
    (hheaders : (headers client).authorization = some (utf8 client.authorization))
    (hclient : client.authorization = "Bearer " ++ Rust.trim token)
    (h : ServedValue deployment (headers client) readings path secret) :
    ∃ text, secret.value = utf8 text ∧ GrantedValue deployment readings token path text := by
  obtain ⟨reading, hmem, caller, hknown, hallows, turn, hturn, hpath, text, htext, hcurrent⟩ := h
  obtain ⟨one, hauthenticated, rfl⟩ := knownBy hheaders hclient hknown
  exact ⟨text, htext, reading, hmem, one, hauthenticated, hallows, turn, hturn, _, hcurrent⟩

end Host

namespace Sample

/-- What a client sends, to a service that takes nothing else of it. -/
def sent (client : Client) : Headers := { headers with authorization := some (utf8 client.authorization) }

/-- The one answer is that of a service that nobody else uses. -/
theorem exported_genuine : ∃ readings : List (Reading asciiUnicode Device AuditWorld),
    ∀ acts, (∀ client request answered, (⟨.request client request, .ok answered⟩ : HostAct) ∈ acts →
      client.authorization = "Bearer " ++ presented ∧
        (⟨request, .ok answered⟩ : Act ApiRequest fun _ => Delivered) = exportedAct) →
        GenuineHost readable bulkCodec (fun _ => none) AuditWorld.db (· = ·) sent readings acts := by
  have hrun : (bulkRead [dbPath, keyPath]).map (fun bulk => bulk.1.map (·.ended.toOption)) =
      some [some (.exported [⟨"infra/DB", 1, "hunter2"⟩, ⟨"infra/KEY", 1, "s3cret"⟩])] := by
    decide +kernel
  obtain ⟨bulk, hbulk, hended⟩ := Option.map_eq_some_iff.mp hrun
  obtain ⟨readings, result, last⟩ := bulk
  have hconverses : Converses bulkAnswer (· = ·) (serve readable headers)
      (fun _ ended => (.ok ended : Delivered)) stocked (Client.readAll [dbPath, keyPath]) readings result last :=
    converses_of_converse (fun _ => rfl) hbulk
  obtain ⟨reply, rest, hacts, -⟩ := Client.runs_readAll hconverses.runs
  refine ⟨readings, fun acts honly client request answered hact => ?_⟩
  obtain ⟨hclient, hexported⟩ := honly client request answered hact
  have hsent : sent client = headers := by
    unfold sent
    rw [hclient]
    rfl
  cases hexported
  cases readings with
  | nil => cases hended
  | cons first more =>
      rw [List.map_cons, List.cons.injEq] at hacts hended
      have hrequest : first.request = .exportPaths (.ok ["infra/DB", "infra/KEY"]) :=
        congrArg Sigma.fst hacts.1
      have hanswered : first.ended =
          .ok (.exported [⟨"infra/DB", 1, "hunter2"⟩, ⟨"infra/KEY", 1, "s3cret"⟩]) := by
        cases hfirst : first.ended with
        | error error =>
            rw [hfirst] at hended
            cases hended.1
        | ok response =>
            rw [hfirst] at hended
            rw [Option.some.inj hended.1]
      obtain ⟨before, after, hplays⟩ := hconverses.served (List.mem_cons_self ..)
      rw [hrequest, hanswered] at hplays
      exact ⟨first, List.mem_cons_self .., hrequest, hanswered, before, after, hsent ▸ hplays⟩

end Sample

end Ciphr
