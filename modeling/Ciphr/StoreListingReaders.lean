import Ciphr.CliCorrections
import Ciphr.SdkBulkRead
import Ciphr.SdkEnvironment
import Ciphr.StoreListing

/-!
Whoever lists a prefix and then reads what was listed, path by path: `ciphr dump`, `ciphr export
--prefix` and `Client::environment`.
-/

namespace Ciphr

open Script

variable {u : Unicode}

/-- The answer that a version is deleted or destroyed. -/
def StoreError.SaysWithdrawn : StoreError → Prop
  | .versionDeleted _ _ | .versionDestroyed _ _ => True
  | _ => False

namespace SecretTables

/-- The path of a secret at or below a prefix. -/
def Below (t : SecretTables) (start : Option (SecretPath u)) (path : SecretPath u) : Prop :=
  ∃ row ∈ t.secrets, inSubtree start row = true ∧ row.path = path.text

variable {t : SecretTables} {produced : List (Produced u)} {fault : SecretFault}
  {start : Option (SecretPath u)}

theorem list_fault {paths : List (SecretPath u)} (h : t.list fault start = .ok paths) :
    t.list noFault start = .ok paths := by
  obtain ⟨_, -, hpaths⟩ := Loop.bind_eq_ok h
  exact hpaths

theorem Sound.below_of_list (h : Sound t produced) (hstable : u.Stable) {paths : List (SecretPath u)}
    (hlist : t.list fault start = .ok paths) : ∀ path ∈ paths, t.Below start path := by
  obtain ⟨paths', hlist', hmem⟩ := h.list_ok hstable start
  rw [list_fault hlist] at hlist'
  cases hlist'
  exact fun path hpath => (hmem path).mp hpath

/-- A read of a secret that is there is refused like this where its current version is withdrawn, and
nowhere else. -/
theorem Sound.withdrawn_of_get (h : Sound t produced) {path : SecretPath u} {error : StoreError}
    (hget : t.get fault path none = .error error) (hworded : error.SaysWithdrawn)
    (hbelow : t.Below start path) :
    ∃ row ∈ t.secrets, inSubtree start row = true ∧ t.Withdrawn row := by
  obtain ⟨row, hrow, hinside, hpath⟩ := hbelow
  rcases get_fault fault t path none with hsame | ⟨text, hfault⟩
  · rcases h.get_current hrow hpath with ⟨-, stored, hok⟩ | ⟨hwithdrawn, -⟩
    · rw [hsame, hok] at hget
      cases hget
    · exact ⟨row, hrow, hinside, hwithdrawn⟩
  · rw [hfault] at hget
    cases hget
    exact absurd hworded id

/-- A listing with classes names paths of the same rows. -/
theorem Sound.below_of_listWithRotation (h : Sound t produced) (hstable : u.Stable)
    {listed : List (ListedSecret u)} (hlist : t.listWithRotation fault start = .ok listed) :
    ∀ secret ∈ listed, t.Below start secret.path := by
  intro secret hsecret
  obtain ⟨_, -, hlisted⟩ := Loop.bind_eq_ok hlist
  obtain ⟨row, hrow, hparsed⟩ := Loop.exists_of_mem_mapM hlisted hsecret
  unfold listedRows at hrow
  rw [(List.perm_insertionSort _ _).mem_iff, List.mem_filter] at hrow
  obtain ⟨path, hpath, hparsed⟩ := Loop.bind_eq_ok hparsed
  obtain ⟨rotation, -, hsecret⟩ := Loop.bind_eq_ok hparsed
  cases hsecret
  obtain ⟨own, hown, -⟩ := h.named row hrow.1
  unfold parseStored at hpath
  rw [hown, SecretPath.parse_text hstable] at hpath
  cases hpath
  exact ⟨row, hrow.1, hrow.2, hown⟩

end SecretTables

/-! ### On the command line -/

/-- The store refuses a read because the version is deleted or destroyed. -/
def CliAct.FindsWithdrawn : CliAct u → Prop
  | ⟨.get _ _, .error error⟩ => error.SaysWithdrawn
  | _ => False

namespace Cli

/-- Calls that change no secret, and read the current versions of no secrets but those of a set. -/
def ReadsAmong (allowed : SecretPath u → Prop) : CliCall u → Prop
  | .putWithRotation _ _ _ _ | .setRotation _ _ | .delete _ _ | .undelete _ _ | .destroy _ _ => False
  | .get path version => allowed path ∧ version = none
  | _ => True

/-- What is told of a prefix names secrets of a set. -/
def TellsBelow (start : Option (SecretPath u)) (allowed : SecretPath u → Prop) :
    (c : CliCall u) → c.Reply → Prop
  | .list named, reply => named = start → ∀ paths, reply = .ok paths → ∀ path ∈ paths, allowed path
  | _, _ => True

section Reads

variable {host : CliHost u} {allowed : SecretPath u → Prop} {start : Option (SecretPath u)}
  {T : (c : CliCall u) → c.Reply → Prop}

theorem asks_each {P : CliCall u → Prop} {α β : Type} {one : α → Cli u β} {as : List α}
    (h : ∀ a ∈ as, (one a).Asks T P) : (each one as).Asks T P := by
  induction as with
  | nil => exact asks_pure
  | cons a as ih =>
      obtain ⟨hfirst, hrest⟩ := List.forall_mem_cons.mp h
      exact hfirst.bind fun b => (ih hrest).bind fun bs => asks_pure

theorem asks_guardSecretOutput {force : Bool} :
    (guardSecretOutput force : Cli u Unit).Asks T (ReadsAmong allowed) := by
  unfold guardSecretOutput
  split
  · exact asks_pure
  · exact asks_ask trivial

theorem asks_dumpOne {root : RootKey} {path : SecretPath u} (h : allowed path) :
    (dumpOne host root path).Asks T (ReadsAmong allowed) := by
  refine Asks.bind (asks_ask trivial) fun found => Asks.bind (asks_ask ⟨h, rfl⟩) fun stored => ?_
  exact asks_ofExcept.bind fun value => Asks.bind (asks_ask trivial) fun _ => asks_pure

/-- `dump` reads what it was told to be there. -/
theorem asks_dump {format : String} {force : Bool} :
    (dump host format force).Asks (TellsBelow none allowed) (ReadsAmong allowed) := by
  unfold dump
  split
  · exact asks_ofExcept
  · refine asks_guardSecretOutput.bind fun _ => Asks.bind (asks_ask trivial) fun root => ?_
    refine asks_ask_bind trivial fun reply paths htold hreply => ?_
    have hlisted : ∀ path ∈ paths, allowed path := htold rfl paths (Loop.mapError_eq_ok hreply)
    refine Asks.bind (asks_each fun path hpath => asks_dumpOne (hlisted path hpath)) fun secrets => ?_
    exact Asks.bind (asks_ask trivial) fun now => asks_ask trivial

theorem asks_exportOne {root : RootKey} {path : SecretPath u} (h : allowed path) :
    (exportOne host root path).Asks T (ReadsAmong allowed) := by
  refine Asks.bind (asks_ask ⟨h, rfl⟩) fun stored => asks_ofExcept.bind fun value => ?_
  exact Asks.bind (asks_ask trivial) fun _ => asks_pure

theorem asks_writeOut {format : ExportFormat} {githubEnv : Bool} {secrets : List (Exported u)} :
    (writeOut host format githubEnv secrets).Asks T (ReadsAmong allowed) := by
  refine asks_ofExcept.bind fun texts => Asks.bind (asks_ask trivial) fun _ => ?_
  split
  · split
    · exact Asks.bind (asks_ask trivial) fun target => asks_ask trivial
    · exact asks_ask trivial
  · exact asks_pure

/-- `export --prefix` reads what it was told to be there. -/
theorem asks_exportSecrets {args : ExportArgs} {raw : String} {named : SecretPath u}
    (hraw : args.start = some raw) (hnamed : SecretPath.parse u raw = .ok named) :
    (exportSecrets host args).Asks (TellsBelow (some named) allowed) (ReadsAmong allowed) := by
  have hpaths : (exportedPaths args).Asks (TellsBelow (some named) allowed) (ReadsAmong allowed) := by
    unfold exportedPaths
    rw [hraw]
    exact asks_ofExcept.bind fun start => asks_ask trivial
  have hlisted : ∀ acts paths, Runs (exportedPaths args) acts (.ok paths) →
      (∀ act ∈ acts, TellsBelow (some named) allowed act.1 act.2) → ∀ path ∈ paths, allowed path := by
    intro acts paths hruns htold
    unfold exportedPaths at hruns
    rw [hraw] at hruns
    obtain ⟨error, -, hended⟩ | ⟨found, front, rest, rfl, hparsed, hlist⟩ := runs_bind_iff.mp hruns
    · cases hended
    · have hfound := (runs_ofExcept_iff.mp hparsed).2
      rw [hnamed] at hfound
      cases hfound
      obtain ⟨reply, rfl, hreply⟩ := runs_ask_iff.mp hlist
      exact htold _ (List.mem_append_right _ (List.mem_singleton_self _)) rfl paths
        (Loop.mapError_eq_ok hreply.symm)
  have hrest : ∀ format : ExportFormat, (do
      let root ← openOrServed "POST /v1/export (the bulk_export surface entry)"
      let paths ← exportedPaths args
      if paths.isEmpty then
        ofExcept (.error (.duration "nothing to export; pass --prefix or --path"))
      else do
        let secrets ← each (exportOne host root) paths
        writeOut host format args.githubEnv secrets : Cli u Unit).Asks (TellsBelow (some named) allowed)
          (ReadsAmong allowed) := by
    intro format
    refine Asks.bind (asks_ask trivial) fun root => hpaths.bind_of fun acts paths hruns htold => ?_
    split
    · exact asks_ofExcept
    · have hallowed := hlisted acts paths hruns htold
      refine Asks.bind (asks_each fun path hpath => asks_exportOne (hallowed path hpath)) fun secrets => ?_
      exact asks_writeOut
  refine asks_ofExcept.bind fun format => ?_
  dsimp only
  split
  · exact asks_guardSecretOutput.bind fun _ => hrest format
  · exact hrest format

end Reads

end Cli

section Plays

variable {tables : SecretTables} {produced : List (Produced u)} {start : Option (SecretPath u)}
  {hmac : Hmac}

/-- A session that only reads leaves the secrets as they are, and is told what they are. -/
theorem CliStore.answer_reads (h : tables.Sound produced) (hstable : u.Stable) (s : CliStore)
    (outside : CliOutside) (c : CliCall u) (hc : Cli.ReadsAmong (tables.Below start) c)
    (hs : s.secrets = tables) :
    Cli.TellsBelow start (tables.Below start) c (CliStore.answer hmac s outside c).2 ∧
      (CliStore.answer hmac s outside c).1.secrets = tables := by
  cases c with
  | putWithRotation | setRotation | delete | undelete | destroy => exact hc.elim
  | list named =>
      refine ⟨?_, hs⟩
      rintro rfl paths hpaths
      have hlist : s.secrets.list outside.secret named = .ok paths := hpaths
      rw [hs] at hlist
      exact h.below_of_list hstable hlist
  | record entry =>
      refine ⟨trivial, ?_⟩
      unfold CliStore.answer
      dsimp only
      split
      · exact hs
      · exact hs
  | _ => exact ⟨trivial, hs⟩

/-- Where no current version at or below the prefix is withdrawn, a command that reads what it was told
is not refused a value for that. -/
theorem not_findsWithdrawn_of_plays (h : tables.Sound produced) (hstable : u.Stable)
    (hnone : ∀ row ∈ tables.secrets, inSubtree start row = true → ¬ tables.Withdrawn row)
    {script : Cli u Unit} {store last : CliStore} {turns : List (Turn CliStore (CliCall u) CliCall.Reply)}
    {result : Except CliError Unit}
    (hasks : script.Asks (Cli.TellsBelow start (tables.Below start)) (Cli.ReadsAmong (tables.Below start)))
    (hstore : store.secrets = tables)
    (hplays : Plays (CliStore.answer hmac) (· = ·) store script turns result last) :
    ∀ turn ∈ turns, ¬ CliAct.FindsWithdrawn turn.act := by
  have hothers : ∀ s s' : CliStore, s.secrets = tables → s = s' → s'.secrets = tables := by
    rintro s s' hs rfl
    exact hs
  obtain ⟨-, hturns⟩ := hplays.keeps hothers
    (fun s outside c hc hs => CliStore.answer_reads h hstable s outside c hc hs) hasks hstore
  intro turn hturn hfinds
  obtain ⟨hbefore, hreads⟩ := hturns turn hturn
  obtain ⟨outside, hreply, -⟩ := hplays.answered hturn
  obtain ⟨before, ⟨c, reply⟩, after⟩ := turn
  cases c with
  | get path version =>
      cases reply with
      | ok stored => exact hfinds
      | error error =>
          obtain ⟨hbelow, rfl⟩ := hreads
          have hget : before.secrets.get outside.secret path none = .error error := hreply.symm
          rw [hbefore] at hget
          obtain ⟨row, hrow, hinside, hwithdrawn⟩ := h.withdrawn_of_get hget hfinds hbelow
          exact hnone row hrow hinside hwithdrawn
  | _ => exact hfinds

end Plays

/-! ### Through the client -/

/-- The store refuses the service a read because the version is deleted or destroyed. -/
def ApiAct.FindsWithdrawn : ApiAct u → Prop
  | ⟨.get _ _, .error error⟩ => error.SaysWithdrawn
  | _ => False

/-- What the service is told of a prefix names secrets of a set. -/
def ApiCall.TellsBelow (start : SecretPath u) (allowed : SecretPath u → Prop) :
    (c : ApiCall u) → c.Reply → Prop
  | .listWithRotation named, reply =>
      named = some start → ∀ listed, reply = .ok listed → ∀ secret ∈ listed, allowed secret.path
  | _, _ => True

section Conversation

variable {tables : SecretTables} {produced : List (Produced u)} {start : SecretPath u}
  {deployment : Deployment} {headers : Headers} {δ ω φ : Type} [AuditDevice δ ω φ] {codec : Codec}
  {json : JsonExtract} {database : ω → Database}

/-- A request that only reads leaves the secrets as they are, and is told what they are. -/
theorem Server.answer_reads (h : tables.Sound produced) (hstable : u.Stable) (s : Server δ ω)
    (outside : ApiOutside φ) (c : ApiCall u) (hc : ApiCall.ReadsAmong (tables.Below (some start)) c)
    (hs : s.secrets = tables) :
    ApiCall.TellsBelow start (tables.Below (some start)) c
        (Server.answer deployment codec json database s outside c).2 ∧
      (Server.answer deployment codec json database s outside c).1.secrets = tables := by
  have hrows : ApiAct.changesRows ⟨c, (Server.answer deployment codec json database s outside c).2⟩ =
      false := by
    cases c with
    | putWithRotation | delete | revokeToken | issueToken => exact hc.elim
    | _ => rfl
  have hsecrets := congrArg Prod.fst (Server.answer_rows hrows)
  refine ⟨?_, hsecrets.trans hs⟩
  cases c with
  | listWithRotation named =>
      rintro rfl listed hlisted
      have hlist : s.secrets.listWithRotation outside.secret (some start) = .ok listed := hlisted
      rw [hs] at hlist
      exact h.below_of_listWithRotation hstable hlist
  | _ => exact trivial

variable [ReservedPaths u]

omit [ReservedPaths u] in
/-- A path is parsed from its own text by the service too. -/
theorem parsePath_eq (hstable : u.Stable) {path other : SecretPath u}
    (h : parsePath u path.text = .ok other) : other = path := by
  unfold parsePath at h
  rw [SecretPath.parse_text hstable] at h
  cases h
  rfl

/-- The service makes no other calls for a client that reads below a prefix. -/
theorem asks_serve_of_readsBelow (hstable : u.Stable) {allowed : SecretPath u → Prop}
    {T : (c : ApiCall u) → c.Reply → Prop} {request : ApiRequest}
    (h : Client.ReadsBelow start allowed request) :
    (serve deployment headers request : Served u).Asks T (ApiCall.ReadsAmong allowed) := by
  unfold serve
  split
  · cases h with
    | list => exact asks_listPaths.mapError
    | bulk paths hpaths =>
        refine (asks_exportPaths fun found hfound path hpath => ?_).mapError
        have hsame : found = paths :=
          forall₂_parsePath_unique (forall₂_parsePath_text hstable) (validateExportPaths_iff.mp hfound).parsed
        exact hpaths path (hsame ▸ hpath)
    | one path hpath =>
        refine (asks_readSecret fun other hother => ?_).mapError
        rw [parsePath_eq hstable hother]
        exact hpath
  · exact asks_refusedRequest.mapError

omit [ReservedPaths u] in
/-- The paths that a client reads from a listing are those that the service was told. -/
theorem mem_of_listed (hstable : u.Stable) {caller : Caller} {wanted : Option Rotation}
    {listed : List (ListedSecret u)} {named : String} {paths : List (SecretPath u)}
    (h : Client.listed start (.ok (.ok (.listing ⟨named,
      (visibleEntries deployment caller wanted listed).map (·.path),
      visibleEntries deployment caller wanted listed⟩))) = .ok paths) :
    ∀ path ∈ paths, ∃ secret ∈ listed, secret.path = path := by
  intro path hpath
  obtain ⟨text, htext, hparsed⟩ := Loop.exists_of_mem_mapM h hpath
  obtain ⟨entry, hentry, rfl⟩ := List.mem_map.mp htext
  obtain ⟨secret, hsecret, rfl⟩ := List.mem_map.mp hentry
  refine ⟨secret, List.mem_of_mem_filter (List.mem_of_mem_filter hsecret), ?_⟩
  unfold parseNamed at hparsed
  rw [SecretPath.parse_text hstable] at hparsed
  cases hparsed
  rfl

/-- What a client is told of a prefix is what the store has told the service. -/
theorem tellsBelow_of_plays (h : tables.Sound produced) (hstable : u.Stable)
    {between : Server δ ω → Server δ ω → Prop}
    (hbetween : ∀ s s', between s s' → s'.secrets = s.secrets) {s last : Server δ ω}
    (hs : s.secrets = tables) {request : ApiRequest}
    {turns : List (Turn (Server δ ω) (ApiCall u) ApiCall.Reply)} {ended : Except HttpError ApiResponse}
    (hplays : Plays (Server.answer deployment codec json database) between s
      (serve deployment headers request : Served u) turns ended last) :
    Client.TellsBelow start (tables.Below (some start)) request (.ok ended) := by
  rintro rfl paths hpaths path hpath
  have hasks : (serve deployment headers (.listPaths (.ok start.text) (.ok none)) : Served u).Asks
      (ApiCall.TellsBelow start (tables.Below (some start)))
      (ApiCall.ReadsAmong (tables.Below (some start))) := asks_serve_of_readsBelow hstable .list
  obtain ⟨-, hturns⟩ := hplays.keeps
    (fun s s' hs hb => (hbetween s s' hb).trans hs)
    (fun s outside c hc hs => Server.answer_reads h hstable s outside c hc hs) hasks hs
  obtain ⟨result, hruns, rfl⟩ := runs_mapError_iff.mp hplays.runs
  generalize hacts : turns.map (·.act) = acts at hruns
  cases runs_listPaths hruns with
  | turnedAway => cases hpaths
  | unclassed => cases hpaths
  | unanswered => cases hpaths
  | @answered front caller named wanted listed reply hpresented hparse hclass =>
      cases reply with
      | error => cases hpaths
      | ok =>
          obtain ⟨secret, hsecret, rfl⟩ := mem_of_listed hstable hpaths path hpath
          have hmem : (⟨.listWithRotation (some named), .ok listed⟩ : ApiAct u) ∈ turns.map (·.act) := by
            rw [hacts]
            exact List.mem_append_right _ (List.mem_cons_self ..)
          obtain ⟨turn, hturn, hact⟩ := List.mem_map.mp hmem
          obtain ⟨outside, hreply, -⟩ := hplays.answered hturn
          rw [hact] at hreply
          have hlist : turn.before.secrets.listWithRotation outside.secret (some named) = .ok listed :=
            hreply.symm
          rw [(hturns turn hturn).1, parsePath_eq hstable hparse] at hlist
          exact h.below_of_listWithRotation hstable hlist secret hsecret

/-- Where no current version at or below the prefix is withdrawn, an environment is not refused a value
for that. -/
theorem not_findsWithdrawn_of_converses (h : tables.Sound produced) (hstable : u.Stable)
    (hnone : ∀ row ∈ tables.secrets, inSubtree (some start) row = true → ¬ tables.Withdrawn row)
    {between : Server δ ω → Server δ ω → Prop}
    (hbetween : ∀ s s', between s s' → s'.secrets = s.secrets) {s last : Server δ ω}
    (hs : s.secrets = tables) {readings : List (Reading u δ ω)} {result : Except SdkError Environment}
    (hconverses : Converses (Server.answer deployment codec json database) between
      (serve deployment headers) (fun _ ended => (.ok ended : Delivered)) s (Client.environment start)
      readings result last) :
    ∀ reading ∈ readings, ∀ turn ∈ reading.turns, ¬ ApiAct.FindsWithdrawn turn.act := by
  have hanswer : ∀ (s : Server δ ω) outside c, ApiCall.ReadsAmong (tables.Below (some start)) c →
      s.secrets = tables → ApiCall.TellsBelow start (tables.Below (some start)) c
          (Server.answer deployment codec json database s outside c).2 ∧
        (Server.answer deployment codec json database s outside c).1.secrets = tables :=
    fun s outside c hc hs => Server.answer_reads h hstable s outside c hc hs
  have hturns := hconverses.keeps (fun s s' hs hb => (hbetween s s' hb).trans hs) hanswer
    (fun r hr => asks_serve_of_readsBelow hstable hr)
    (fun s r turns ended s' _ hs hplays => tellsBelow_of_plays h hstable hbetween hs hplays)
    Client.asks_environment hs
  intro reading hreading turn hturn hfinds
  obtain ⟨hbefore, hreads⟩ := hturns reading hreading turn hturn
  obtain ⟨before, after, hplays⟩ := hconverses.served hreading
  obtain ⟨outside, hreply, -⟩ := hplays.answered hturn
  obtain ⟨state, ⟨c, reply⟩, left⟩ := turn
  cases c with
  | get path version =>
      cases reply with
      | ok stored => exact hfinds
      | error error =>
          obtain ⟨hbelow, rfl⟩ := hreads
          have hget : state.secrets.get outside.secret path none = .error error := hreply.symm
          rw [hbefore] at hget
          obtain ⟨row, hrow, hinside, hwithdrawn⟩ := h.withdrawn_of_get hget hfinds hbelow
          exact hnone row hrow hinside hwithdrawn
  | _ => exact hfinds

end Conversation

/-! ### The law -/

/-- What a listing names can be read, and no reader of a whole prefix is refused a value because its
version is deleted or destroyed. -/
structure ListingAgrees (u : Unicode) [ReservedPaths u] (tables : SecretTables)
    (start : Option (SecretPath u)) : Prop where
  readable : ∃ paths, tables.list SecretTables.noFault start = .ok paths ∧
    ∀ path ∈ paths, ∃ stored, tables.get SecretTables.noFault path none = .ok stored
  dump : start = none → ∀ (host : CliHost u) format force store turns result last,
    store.secrets = tables →
      Plays (CliStore.answer host.hmac) (· = ·) store (Cli.dump host format force) turns result last →
      ∀ turn ∈ turns, ¬ CliAct.FindsWithdrawn turn.act
  exportPrefix : ∀ (host : CliHost u) (args : Cli.ExportArgs) raw named store turns result last,
    args.start = some raw → SecretPath.parse u raw = .ok named → start = some named →
      store.secrets = tables →
      Plays (CliStore.answer host.hmac) (· = ·) store (Cli.exportSecrets host args) turns result last →
      ∀ turn ∈ turns, ¬ CliAct.FindsWithdrawn turn.act
  environment : ∀ (named : SecretPath u), start = some named →
    ∀ (δ ω φ : Type) [AuditDevice δ ω φ] (deployment : Deployment) (headers : Headers) (codec : Codec)
      (json : JsonExtract) (database : ω → Database) (between : Server δ ω → Server δ ω → Prop)
      (s last : Server δ ω) (readings : List (Reading u δ ω)) (result : Except SdkError Environment),
      (∀ s s', between s s' → s'.secrets = s.secrets) → s.secrets = tables →
      Converses (Server.answer deployment codec json database) between (serve deployment headers)
        (fun _ ended => (.ok ended : Delivered)) s (Client.environment named) readings result last →
      ∀ reading ∈ readings, ∀ turn ∈ reading.turns, ¬ ApiAct.FindsWithdrawn turn.act

/-- **When listing agrees with reading**, in every state that the store reaches and for every prefix:
exactly if no secret at or below it has a current version that is deleted or destroyed. -/
theorem listingAgrees_iff [ReservedPaths u] (hstable : u.Stable) {s : Versioning u}
    (h : Transition.Reachable (· = (⟨⟨[], []⟩, []⟩ : Versioning u)) Versioning.step (fun _ _ => True) s)
    (start : Option (SecretPath u)) :
    ListingAgrees u s.tables start ↔
      ∀ row ∈ s.tables.secrets, inSubtree start row = true → ¬ s.tables.Withdrawn row := by
  have hsound : s.tables.Sound s.produced := Versioning.reachable_sound h
  obtain ⟨paths, hlist, hmem⟩ := hsound.list_ok hstable start
  constructor
  · rintro hagrees row hrow hinside
    obtain ⟨paths', hlist', hreadable⟩ := hagrees.readable
    rw [hlist] at hlist'
    cases hlist'
    obtain ⟨path, hpath, -⟩ := hsound.named row hrow
    exact (hsound.get_current_ok_iff hrow hpath).mp
      (hreadable path ((hmem path).mpr ⟨row, hrow, hinside, hpath⟩))
  · intro hnone
    refine ⟨⟨paths, hlist, fun path hpath => ?_⟩, ?_, ?_, ?_⟩
    · obtain ⟨row, hrow, hinside, hrowpath⟩ := (hmem path).mp hpath
      exact (hsound.get_current_ok_iff hrow hrowpath).mpr (hnone row hrow hinside)
    · rintro rfl host format force store turns result last hstore hplays
      exact not_findsWithdrawn_of_plays hsound hstable hnone Cli.asks_dump hstore hplays
    · rintro host args raw named store turns result last hraw hnamed rfl hstore hplays
      exact not_findsWithdrawn_of_plays hsound hstable hnone (Cli.asks_exportSecrets hraw hnamed) hstore
        hplays
    · rintro named rfl δ ω φ _ deployment headers codec json database between s' last readings result
        hbetween hs hconverses
      exact not_findsWithdrawn_of_converses hsound hstable hnone hbetween hs hconverses

namespace Sample

/-- A secret of one version, which is deleted in the second case. -/
def writtenEvents : List (SecretOp asciiUnicode × SecretFault) :=
  [(.put dbPassword "ci" none encryptOnce 10, SecretTables.noFault)]

def withdrawnEvents : List (SecretOp asciiUnicode × SecretFault) :=
  writtenEvents ++ [(.delete dbPassword .first 11, SecretTables.noFault)]

/-- The secret as it was written, and another one. -/
def twoWritten : List (SecretOp asciiUnicode × SecretFault) :=
  writtenEvents ++ [(.put keyPath "ci" none encryptOnce 11, SecretTables.noFault)]

def written : Versioning asciiUnicode :=
  (Transition.run Versioning.step ⟨⟨[], []⟩, []⟩ twoWritten).getD ⟨⟨[], []⟩, []⟩

def withdrawn : Versioning asciiUnicode :=
  (Transition.run Versioning.step ⟨⟨[], []⟩, []⟩ withdrawnEvents).getD ⟨⟨[], []⟩, []⟩

theorem written_reachable : Transition.Reachable (· = ⟨⟨[], []⟩, []⟩) Versioning.step
    (fun _ _ => True) written :=
  Transition.reachable_of_steps twoWritten (.start rfl) (fun _ _ _ _ _ => trivial)
    (by decide +kernel : Transition.run Versioning.step ⟨⟨[], []⟩, []⟩ twoWritten = some written)

/-- Both secrets can be read, and so a dump of the store is not refused them. -/
theorem written_agrees : written.tables.secrets.map (·.path) = ["infra/service-a/DB_PASSWORD", "infra/KEY"] ∧
    ListingAgrees asciiUnicode written.tables none := by
  refine ⟨by decide +kernel, (listingAgrees_iff asciiUnicode_stable written_reachable none).mpr ?_⟩
  rintro row - - ⟨v, hv, -, -, hmarked⟩
  have hunmarked : ∀ v ∈ written.tables.versions, v.deletedAt = none ∧ v.destroyedAt = none := by
    decide +kernel
  exact hmarked.elim (· (hunmarked v hv).1) (· (hunmarked v hv).2)

/-- `ciphr dump --format portable` of a store whose one secret was deleted: the secret is listed, it
cannot be read, and nothing is written out. -/
theorem withdrawn_disagrees :
    withdrawn.tables.list SecretTables.noFault (none : Option (SecretPath asciiUnicode)) =
        .ok [dbPassword] ∧
      withdrawn.tables.get SecretTables.noFault dbPassword none =
        .error (.versionDeleted "infra/service-a/DB_PASSWORD" .first) ∧
      (∃ turns last, Plays (CliStore.answer operator.hmac) (· = ·) ⟨withdrawn.tables, [], [], []⟩
          (Cli.dump operator "portable" true) turns
          (.error (.store (.versionDeleted "infra/service-a/DB_PASSWORD" .first))) last ∧
        last.printed = []) ∧
      ¬ ListingAgrees asciiUnicode withdrawn.tables none := by
  have hlist : withdrawn.tables.list SecretTables.noFault (none : Option (SecretPath asciiUnicode)) =
      .ok [dbPassword] := by
    rfl
  have hget : withdrawn.tables.get SecretTables.noFault dbPassword none =
      .error (.versionDeleted "infra/service-a/DB_PASSWORD" .first) := by
    rfl
  have hrun : (play (CliStore.answer operator.hmac) (List.replicate 4 undisturbed)
      ⟨withdrawn.tables, [], [], []⟩ (Cli.dump operator "portable" true)).map
        (fun played => (played.2.1, played.2.2.printed)) =
          some (.error (.store (.versionDeleted "infra/service-a/DB_PASSWORD" .first)), []) := by
    rfl
  refine ⟨hlist, hget, ?_, ?_⟩
  · obtain ⟨⟨turns, result, last⟩, hplayed, hended⟩ := Option.map_eq_some_iff.mp hrun
    rw [Prod.mk.injEq] at hended
    obtain ⟨rfl, hprinted⟩ := hended
    exact ⟨turns, last, plays_of_play (fun _ => rfl) hplayed, hprinted⟩
  · rintro ⟨⟨paths, hpaths, hreadable⟩, -⟩
    rw [hlist] at hpaths
    cases hpaths
    obtain ⟨stored, hstored⟩ := hreadable dbPassword (List.mem_singleton_self _)
    rw [hget] at hstored
    cases hstored

end Sample

end Ciphr
