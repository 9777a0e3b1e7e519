import Ciphr.StoreVersioning
import Ciphr.ServerFailClosed

/-!
What a bulk export leaves on the trail, path by path, and what it answers with.
-/

namespace Ciphr

open Script

section Exports

variable {u : Unicode} {deployment : Deployment} {headers : Headers} {caller : Caller}
  {request : RequestContext} {acts : List (ApiAct u)}

/-! ### Paths -/

/-- The texts are those of the paths: not none, not too many, each of them a path, and no path twice. -/
structure WellShaped (raw : List String) (paths : List (SecretPath u)) : Prop where
  asked : raw ≠ []
  length : raw.length ≤ exportPathsMax
  parsed : List.Forall₂ (fun raw path => parsePath u raw = .ok path) raw paths
  nodup : paths.Nodup

theorem pushExportPath_of_new {paths : List (SecretPath u)} {raw : String} {path : SecretPath u}
    (hparse : parsePath u raw = .ok path) (hnew : path ∉ paths) :
    pushExportPath paths raw = .ok (paths ++ [path]) := by
  unfold pushExportPath
  rw [hparse]
  change (if paths.any (·.text == path.text) = true then _ else _) = _
  rw [if_neg]
  intro hany
  obtain ⟨other, hmem, htext⟩ := List.any_eq_true.mp hany
  have hsame : other = path := SecretPath.ext (beq_iff_eq.mp htext)
  exact hnew (hsame ▸ hmem)

theorem foldlM_pushExportPath_of {raw : List String} {seen new : List (SecretPath u)}
    (hparsed : List.Forall₂ (fun raw path => parsePath u raw = .ok path) raw new)
    (hnodup : (seen ++ new).Nodup) : raw.foldlM pushExportPath seen = .ok (seen ++ new) := by
  induction hparsed generalizing seen with
  | nil =>
      rw [List.append_nil]
      rfl
  | @cons one path raw new hparse _ ih =>
      have hnew : path ∉ seen := by
        intro hmem
        exact (List.nodup_append.mp hnodup).2.2 path hmem path (List.mem_cons_self ..) rfl
      rw [List.foldlM_cons, pushExportPath_of_new hparse hnew]
      change raw.foldlM pushExportPath (seen ++ [path]) = _
      rw [ih (by rwa [List.append_assoc]), List.append_assoc]
      rfl

/-- The check of an export passes the well-shaped requests, and passes on their paths. -/
theorem validateExportPaths_iff {raw : List String} {paths : List (SecretPath u)} :
    validateExportPaths u raw = .ok paths ↔ WellShaped raw paths := by
  constructor
  · intro h
    obtain ⟨hnonempty, hlength, hnodup, hparsed⟩ := validateExportPaths_eq_ok h
    refine ⟨?_, hparsed.length_eq ▸ hlength, hparsed, hnodup⟩
    rintro rfl
    cases hparsed
    exact hnonempty rfl
  · rintro ⟨hasked, hlength, hparsed, hnodup⟩
    unfold validateExportPaths
    rw [if_neg (by simpa using hasked), if_neg (by omega)]
    exact foldlM_pushExportPath_of hparsed hnodup

/-! ### Entries of a path -/

/-- What a trail holds of a path. -/
def entriesOf (path : SecretPath u) (trail : List Entry) : List Entry :=
  trail.filter (·.path == some path.text)

theorem entriesOf_append {path : SecretPath u} (trail trail' : List Entry) :
    entriesOf path (trail ++ trail') = entriesOf path trail ++ entriesOf path trail' :=
  List.filter_append ..

theorem entriesOf_cons_self {path : SecretPath u} {entry : Entry} {trail : List Entry}
    (h : entry.path = some path.text) : entriesOf path (entry :: trail) = entry :: entriesOf path trail :=
  List.filter_cons_of_pos (beq_iff_eq.mpr h)

theorem entriesOf_cons_of_ne {path other : SecretPath u} {entry : Entry} {trail : List Entry}
    (h : entry.path = some other.text) (hne : path ≠ other) :
    entriesOf path (entry :: trail) = entriesOf path trail := by
  apply List.filter_cons_of_neg
  rw [h, beq_iff_eq, Option.some.injEq]
  intro htext
  exact hne (SecretPath.ext htext.symm)

/-- One entry for each of several paths: of each there is its own, and of others there is none. -/
theorem entriesOf_forall₂ {R : SecretPath u → Entry → Prop} {paths : List (SecretPath u)}
    {trail : List Entry} (h : List.Forall₂ R paths trail)
    (hpath : ∀ {path entry}, R path entry → entry.path = some path.text) (hnodup : paths.Nodup) :
    (∀ path ∈ paths, ∃ entry, R path entry ∧ entriesOf path trail = [entry]) ∧
      ∀ path ∉ paths, entriesOf path trail = [] := by
  induction h with
  | nil =>
      refine ⟨fun path hmem => ?_, fun path _ => rfl⟩
      cases hmem
  | @cons first entry paths trail hfirst _ ih =>
      obtain ⟨hnew, hnodup⟩ := List.nodup_cons.mp hnodup
      obtain ⟨hof, hnone⟩ := ih hnodup
      constructor
      · intro path hmem
        by_cases hsame : path = first
        · subst hsame
          refine ⟨entry, hfirst, ?_⟩
          rw [entriesOf_cons_self (hpath hfirst), hnone path hnew]
        · obtain ⟨own, hown, heq⟩ := hof path (List.mem_of_ne_of_mem hsame hmem)
          refine ⟨own, hown, ?_⟩
          rw [entriesOf_cons_of_ne (hpath hfirst) hsame, heq]
      · intro path hmem
        rw [List.mem_cons, not_or] at hmem
        obtain ⟨hne, hmem⟩ := hmem
        rw [entriesOf_cons_of_ne (hpath hfirst) hne, hnone path hmem]

/-! ### The loop -/

/-- How the loop of an export came to its end at a path: which paths have a claim, and whether a
denial follows. -/
inductive StoppedAt (acts : List (ApiAct u)) (served : List (SecretPath u)) (failing : SecretPath u) :
    List (SecretPath u) → List Entry → Prop where
  | unserved (outcome : Except StoreError (StoredVersion u))
      (hasked : (⟨.get failing none, outcome⟩ : ApiAct u) ∈ acts) :
      StoppedAt acts served failing (served ++ [failing]) []
  | unanswered (failed : StoreError)
      (hlooked : (⟨.honeypotTier failing, .error failed⟩ : ApiAct u) ∈ acts) :
      StoppedAt acts served failing served []
  | denied (denial : Entry) (hallowed : denial.allowed = false)
      (hpath : denial.path = some failing.text) : StoppedAt acts served failing served [denial]

theorem StoppedAt.cons {path failing : SecretPath u} {served new : List (SecretPath u)}
    {refused : List Entry} (h : StoppedAt acts served failing new refused) :
    StoppedAt acts (path :: served) failing (path :: new) refused := by
  cases h with
  | unserved outcome hasked => exact .unserved outcome hasked
  | unanswered failed hlooked => exact .unanswered failed hlooked
  | denied denial hallowed hpath => exact .denied denial hallowed hpath

theorem StoppedAt.mono {acts' : List (ApiAct u)} {failing : SecretPath u}
    {served new : List (SecretPath u)} {refused : List Entry}
    (h : StoppedAt acts served failing new refused) (hsub : acts ⊆ acts') :
    StoppedAt acts' served failing new refused := by
  cases h with
  | unserved outcome hasked => exact .unserved outcome (hsub hasked)
  | unanswered failed hlooked => exact .unanswered failed (hsub hlooked)
  | denied denial hallowed hpath => exact .denied denial hallowed hpath

theorem decisionEntry_path {action : Action} {path : SecretPath u} {subject : Option Principal}
    {decision : Decision} {bait : Option HoneypotTier} :
    (decisionEntry caller action path subject request decision bait).path = some path.text := by
  unfold decisionEntry Entry.withRule? Entry.withSubject?
  cases decision.isAllowed <;> cases bait <;> cases subject <;> cases decision.rule <;> rfl

/-- A loop that ends with an error ends at a path, with a claim for every path before it. -/
theorem exporting_stopped {paths new : List (SecretPath u)} {bytes : Nat}
    {ended : Except ApiError (List ExportedSecret)} {error : ApiError}
    (h : Exporting deployment caller request paths bytes acts new ended)
    (hended : ended = .error error) (haccepting : Accepting acts) :
    ∃ served failing later claims refused, paths = served ++ failing :: later ∧
      entries acts = claims ++ refused ∧
      List.Forall₂ (fun path entry => entry.Grants caller.asPrincipal .read path.text) new claims ∧
      StoppedAt acts served failing new refused := by
  induction h with
  | done => cases hended
  | @undecided path decided paths bytes refused hdecided =>
      cases hdecided with
      | lookupFailed failed =>
          exact ⟨[], path, paths, [], [], rfl, rfl, .nil, .unanswered failed (List.mem_singleton_self _)⟩
      | unrecorded look bait refused hlook =>
          exact absurd (accepting_append.mp haccepting).2 not_accepting_record
      | denied hdenied =>
          refine ⟨[], path, paths, [], _, rfl, rfl, .nil, .denied _ ?_ decisionEntry_path⟩
          rw [decisionEntry_allowed]
          exact hdenied
  | @unserved path decided asked paths bytes failed hdecided hasked =>
      obtain ⟨claim, hentries, hgrants⟩ := hdecided.allows
      obtain ⟨outcome, rfl, -⟩ := runs_exportSecret hasked
      refine ⟨[], path, paths, [claim], [], rfl, ?_, .cons hgrants .nil,
        .unserved outcome (List.mem_append_right _ (List.mem_singleton_self _))⟩
      rw [entries_append, hentries]
      rfl
  | @served path decided asked more paths new bytes bytes' secret ended hdecided hasked hrest ih =>
      obtain ⟨claim, hentries, hgrants⟩ := hdecided.allows
      obtain ⟨outcome, rfl, -⟩ := runs_exportSecret hasked
      cases ended with
      | ok rest => cases hended
      | error refusal =>
          cases hended
          obtain ⟨served, failing, later, claims, refused, rfl, hmore, hclaims, hstopped⟩ :=
            ih rfl (accepting_append.mp (accepting_append.mp haccepting).2).2
          refine ⟨path :: served, failing, later, claim :: claims, refused, rfl, ?_,
            .cons hgrants hclaims, ?_⟩
          · rw [entries_append, entries_append, hentries, hmore]
            rfl
          · rw [← List.append_assoc]
            exact (hstopped.mono fun act hmem => List.mem_append_right _ hmem).cons

/-! ### The answer -/

/-- A body that cannot be parsed leaves one refusal. -/
theorem entries_auditedJson {α : Type} {attempted : Action} {text : String} {one : Authenticated}
    {result : Except ApiError α}
    (h : Runs (auditedJson deployment headers attempted (.error text) : Api u α) acts result)
    (hone : Authenticates headers one acts) (haccepting : Accepting acts) :
    entries acts = [refusalEntry (deployment.callerOf one) attempted headers.requestContext
      (ApiError.badRequest text).status "malformed-body"] ∧ ∃ error, result = .error error := by
  unfold auditedJson at h
  rcases runs_bind_iff.mp h with ⟨e, hfirst, rfl⟩ | ⟨outcome, front, rest, rfl, hfirst, hrest⟩
  · obtain ⟨-, ⟨_, hok, -⟩ | ⟨_, herror⟩⟩ := runs_authenticate_cases hfirst
    · cases hok
    · cases herror
  · obtain ⟨hquiet, ⟨caller, hok, hpresented⟩ | ⟨rejection, herror⟩⟩ := runs_authenticate_cases hfirst
    · cases hok
      have hrefused := runs_record_refused hrest
      obtain ⟨_, error, -, rfl⟩ := id hrefused
      refine ⟨?_, error, rfl⟩
      rw [entries_append, hquiet.entries, hrefused.committed (accepting_append.mp haccepting).2,
        hpresented.eq_callerOf hone.of_append.1]
      rfl
    · exact absurd hone.of_append.1 (runs_authenticate_error hfirst herror one)

/-- The trail holds one refusal and nothing else, and no value was read. -/
def RefusedOnce (caller : Caller) (request : RequestContext) (reason : String)
    (acts : List (ApiAct u)) : Prop :=
  (∃ status, entries acts = [refusalEntry caller .read request status reason]) ∧ Unguarded acts

/-- The entry that takes the claim of a path back. -/
def notServed (caller : Caller) (request : RequestContext) (status : Nat) (path : SecretPath u) :
    Entry :=
  outcomeEntry caller .read (some path) request status (some "not-served")

/-- The trail holds of the path that it was allowed and then not served, and nothing else. -/
def Withdrawn (caller : Caller) (request : RequestContext) (status : Nat) (trail : List Entry)
    (path : SecretPath u) : Prop :=
  ∃ claim : Entry, claim.Grants caller.asPrincipal .read path.text ∧
    entriesOf path trail = [claim, notServed caller request status path]

/-- How an export stands on the trail that was answered with an error: it came to its end at a path,
all before it is withdrawn, and of all after it there is nothing. -/
def WithdrawnFrom (caller : Caller) (request : RequestContext) (status : Nat)
    (paths : List (SecretPath u)) (acts : List (ApiAct u)) : Prop :=
  ∃ served failing later, paths = served ++ failing :: later ∧
    (∀ path ∈ served, Withdrawn caller request status (entries acts) path) ∧
    ((Withdrawn caller request status (entries acts) failing ∧
        ∃ outcome, (⟨.get failing none, outcome⟩ : ApiAct u) ∈ acts) ∨
      (entriesOf failing (entries acts) = [] ∧
        ∃ failed, (⟨.honeypotTier failing, .error failed⟩ : ApiAct u) ∈ acts) ∨
      ∃ denial : Entry, denial.allowed = false ∧ entriesOf failing (entries acts) = [denial]) ∧
    (∀ path ∈ later, entriesOf path (entries acts) = []) ∧
    ∀ entry ∈ entries acts, ∃ path ∈ paths, entry.path = some path.text

theorem WithdrawnFrom.of_quiet {status : Nat} {paths : List (SecretPath u)} {front : List (ApiAct u)}
    (h : WithdrawnFrom caller request status paths acts) (hquiet : Quiet front) :
    WithdrawnFrom caller request status paths (front ++ acts) := by
  have hentries : entries (front ++ acts) = entries acts := by
    rw [entries_append, hquiet.entries, List.nil_append]
  obtain ⟨served, failing, later, hpaths, hserved, hfailing, hlater, hall⟩ := h
  unfold WithdrawnFrom
  rw [hentries]
  refine ⟨served, failing, later, hpaths, hserved, ?_, hlater, hall⟩
  rcases hfailing with ⟨hwithdrawn, outcome, hmem⟩ | ⟨hnone, failed, hmem⟩ | hdenied
  · exact .inl ⟨hwithdrawn, outcome, List.mem_append_right _ hmem⟩
  · exact .inr (.inl ⟨hnone, failed, List.mem_append_right _ hmem⟩)
  · exact .inr (.inr hdenied)

/-- The claims of an export, a denial perhaps, and a correction for each claim. -/
theorem StoppedAt.withdrawn {served later new : List (SecretPath u)} {failing : SecretPath u}
    {claims refused : List Entry} {status : Nat}
    (h : StoppedAt acts served failing new refused)
    (hentries : entries acts = claims ++ refused ++ new.map (notServed caller request status))
    (hclaims : List.Forall₂ (fun path entry => entry.Grants caller.asPrincipal .read path.text) new
      claims)
    (hnodup : (served ++ failing :: later).Nodup) :
    WithdrawnFrom caller request status (served ++ failing :: later) acts := by
  have hcorrections : List.Forall₂ (fun path entry => entry = notServed caller request status path) new
      (new.map (notServed caller request status)) := by
    rw [List.forall₂_map_right_iff]
    exact List.forall₂_same.mpr fun _ _ => rfl
  obtain ⟨hserved, hrest, hdisjoint⟩ := List.nodup_append.mp hnodup
  obtain ⟨hfailing, -⟩ := List.nodup_cons.mp hrest
  have hsub : new <+: served ++ [failing] := by
    cases h with
    | unserved => exact List.prefix_refl _
    | unanswered => exact List.prefix_append _ _
    | denied => exact List.prefix_append _ _
  have hall : served ++ failing :: later = served ++ [failing] ++ later := by
    rw [List.append_assoc]
    rfl
  have hnew : new.Nodup := by
    rw [hall] at hnodup
    exact (List.nodup_append.mp hnodup).1.sublist hsub.sublist
  obtain ⟨hclaim, hnoclaim⟩ := entriesOf_forall₂ hclaims (fun hgrants => hgrants.path) hnew
  obtain ⟨hcorrected, huncorrected⟩ := entriesOf_forall₂ hcorrections
    (fun hcorrection => by rw [hcorrection]; rfl) hnew
  -- what the trail holds of a path, by whether it has a claim
  have hwithdrawn : ∀ path ∈ new, entriesOf path refused = [] →
      Withdrawn caller request status (entries acts) path := by
    intro path hmem hrefused
    obtain ⟨claim, hgrants, hof⟩ := hclaim path hmem
    obtain ⟨correction, rfl, hofcorrection⟩ := hcorrected path hmem
    refine ⟨claim, hgrants, ?_⟩
    rw [hentries, entriesOf_append, entriesOf_append, hof, hofcorrection, hrefused]
    rfl
  have hunclaimed : ∀ path ∉ new, entriesOf path (entries acts) = entriesOf path refused := by
    intro path hmem
    rw [hentries, entriesOf_append, entriesOf_append, hnoclaim path hmem, huncorrected path hmem,
      List.nil_append, List.append_nil]
  have hrefusedOf : ∀ path, path ≠ failing → entriesOf path refused = [] := by
    intro path hne
    cases h with
    | unserved => rfl
    | unanswered => rfl
    | denied denial hallowed hpath =>
        rw [entriesOf_cons_of_ne hpath hne]
        rfl
  refine ⟨served, failing, later, rfl, ?_, ?_, ?_, ?_⟩
  · intro path hmem
    have hne : path ≠ failing := by
      rintro rfl
      exact hdisjoint path hmem path (List.mem_cons_self ..) rfl
    apply hwithdrawn path _ (hrefusedOf path hne)
    cases h with
    | unserved => exact List.mem_append_left _ hmem
    | unanswered => exact hmem
    | denied => exact hmem
  · have hunserved : failing ∉ served := fun hmem =>
      hdisjoint failing hmem failing (List.mem_cons_self ..) rfl
    cases h with
    | unserved outcome hasked =>
        exact .inl ⟨hwithdrawn failing (List.mem_append_right _ (List.mem_singleton_self _)) rfl,
          outcome, hasked⟩
    | unanswered failed hlooked =>
        exact .inr (.inl ⟨hunclaimed failing hunserved, failed, hlooked⟩)
    | denied denial hallowed hpath =>
        refine .inr (.inr ⟨denial, hallowed, ?_⟩)
        rw [hunclaimed failing hunserved, entriesOf_cons_self hpath]
        rfl
  · intro path hmem
    have hne : path ≠ failing := by
      rintro rfl
      exact hfailing hmem
    have hnotnew : path ∉ new := by
      intro hin
      rcases List.mem_append.mp (hsub.subset hin) with hin | hin
      · exact hdisjoint path hin path (List.mem_cons_of_mem _ hmem) rfl
      · exact hne (List.mem_singleton.mp hin)
    rw [hunclaimed path hnotnew, hrefusedOf path hne]
  · intro entry hmem
    have hin : ∀ path ∈ new, path ∈ served ++ failing :: later := by
      intro path hpath
      rw [hall]
      exact List.mem_append_left _ (hsub.subset hpath)
    rw [hentries] at hmem
    rcases List.mem_append.mp hmem with hfirst | hcorrection
    · rcases List.mem_append.mp hfirst with hclaimed | hdenied
      · obtain ⟨path, hpath, hgrants⟩ := Loop.forall₂_mem_right hclaims hclaimed
        exact ⟨path, hin path hpath, hgrants.path⟩
      · cases h with
        | unserved => cases hdenied
        | unanswered => cases hdenied
        | denied denial hallowed hpath =>
            rw [List.mem_singleton.mp hdenied]
            exact ⟨failing, List.mem_append_right _ (List.mem_cons_self ..), hpath⟩
    · obtain ⟨path, hpath, rfl⟩ := List.mem_map.mp hcorrection
      exact ⟨path, hin path hpath, rfl⟩

/-- What a checked export has on the trail, by its answer. -/
theorem runs_serveExport_accounting {paths : List (SecretPath u)}
    {result : Except ApiError ApiResponse}
    (h : Runs (serveExport deployment headers caller paths) acts result) (hnodup : paths.Nodup)
    (haccepting : Accepting acts) :
    (∃ secrets, result = .ok (.exported secrets) ∧
        List.Forall₂ (fun path entry => entry.Grants caller.asPrincipal .read path.text) paths
          (entries acts) ∧
        List.Forall₂ (fun (path : SecretPath u) secret => ∃ stored value,
          (⟨.get path none, .ok stored⟩ : ApiAct u) ∈ acts ∧
            decryptToText deployment stored = .ok value ∧
            secret = ⟨stored.path.text, stored.version.number, value⟩) paths secrets) ∨
      ∃ error, result = .error error ∧
        WithdrawnFrom caller headers.requestContext error.status paths acts := by
  obtain ⟨exported, corrected, new, ended, rfl, hexporting,
    ⟨secrets, rfl, rfl, rfl⟩ | ⟨error, refused, rfl, rfl, -, -, hcorrected⟩⟩ := runs_serveExport h
  · obtain ⟨hclaims, hsecrets⟩ := exporting_served hexporting rfl
    rw [List.append_nil]
    exact .inl ⟨secrets, rfl, hclaims, hsecrets⟩
  · obtain ⟨hfront, hback⟩ := accepting_append.mp haccepting
    obtain ⟨rfl, hcorrections⟩ := hcorrected hback
    obtain ⟨served, failing, later, claims, denials, rfl, hentries, hclaims, hstopped⟩ :=
      exporting_stopped hexporting rfl hfront
    refine .inr ⟨refused, rfl, (hstopped.mono ?_).withdrawn ?_ hclaims hnodup⟩
    · exact fun act hmem => List.mem_append_left _ hmem
    · rw [entries_append, hentries, hcorrections]
      rfl

/-- The value that a secret has at present, as an export answers with it. -/
def CurrentValue (deployment : Deployment) (tables : SecretTables) (path : SecretPath u)
    (secret : ExportedSecret) : Prop :=
  ∃ stored, tables.get SecretTables.noFault path none = .ok stored ∧
    decryptToText deployment stored = .ok secret.value ∧ secret.path = path.text ∧
    secret.version = stored.version.number ∧
    ∃ row ∈ tables.secrets, row.path = path.text ∧ (secret.version : Int) = row.currentVersion

theorem currentValue_of_get {tables : SecretTables} {fault : SecretFault} {path : SecretPath u}
    {stored : StoredVersion u} {value : String} (hget : tables.get fault path none = .ok stored)
    (hvalue : decryptToText deployment stored = .ok value) :
    CurrentValue deployment tables path ⟨stored.path.text, stored.version.number, value⟩ := by
  rcases SecretTables.get_fault fault tables path none with hsame | ⟨error, herror⟩
  · rw [hsame] at hget
    obtain ⟨row, hrow, hpath, -, -, -, -, hcurrent⟩ := SecretTables.Sound.get_row hget
    exact ⟨stored, hget, hvalue, congrArg SecretPath.text (SecretTables.get_path hget), rfl, row, hrow,
      hpath, hcurrent rfl⟩
  · rw [herror] at hget
    cases hget

section Process

variable {δ ω φ : Type} [AuditDevice δ ω φ] {codec : Codec} {json : JsonExtract}
  {database : ω → Database} {between : Server δ ω → Server δ ω → Prop} {s last : Server δ ω}
  {turns : List (Turn (Server δ ω) (ApiCall u) ApiCall.Reply)} {body : Except String (List String)}
  {result : Except ApiError ApiResponse} {one : Authenticated}

/-- **What an export of a caller who is known leaves and answers**, on a process that others use too,
while the devices accept what they are given. -/
theorem exportPaths_accounting
    (h : Plays (Server.answer deployment codec json database) between s
      (exportPaths deployment headers body : Api u ApiResponse) turns result last)
    (hone : Authenticates headers one (turns.map (·.act)))
    (haccepting : Accepting (turns.map (·.act))) :
    (∀ text, body = .error text → (∃ error, result = .error error) ∧
        RefusedOnce (deployment.callerOf one) headers.requestContext "malformed-body"
          (turns.map (·.act))) ∧
      (∀ raw, body = .ok raw → (∀ paths : List (SecretPath u), ¬ WellShaped raw paths) →
        (∃ error, result = .error error) ∧
          RefusedOnce (deployment.callerOf one) headers.requestContext "malformed-export"
            (turns.map (·.act))) ∧
      ∀ raw, body = .ok raw → ∀ paths : List (SecretPath u), WellShaped raw paths →
        (∃ secrets, result = .ok (.exported secrets) ∧
          List.Forall₂ (fun path entry =>
            entry.Grants (deployment.callerOf one).asPrincipal .read path.text) paths
            (entries (turns.map (·.act))) ∧
          List.Forall₂ (fun path secret => ∃ turn ∈ turns,
            CurrentValue deployment turn.before.secrets path secret) paths secrets) ∨
        ∃ error, result = .error error ∧
          WithdrawnFrom (deployment.callerOf one) headers.requestContext error.status paths
            (turns.map (·.act)) := by
  refine ⟨?_, ?_, ?_⟩
  · rintro text rfl
    rcases runs_bind_iff.mp h.runs with ⟨error, hbody, rfl⟩ | ⟨_, _, _, -, hbody, -⟩
    · rcases runs_auditedJson hbody with ⟨_, hok, -, -⟩ | ⟨-, haway⟩
      · cases hok
      · exact ⟨⟨error, rfl⟩, ⟨_, (entries_auditedJson hbody hone haccepting).1⟩,
          haway.refusing.unguarded⟩
    · rcases runs_auditedJson hbody with ⟨_, hok, -, -⟩ | ⟨⟨_, herror⟩, -⟩
      · cases hok
      · cases herror
  · rintro raw rfl hmisshapen
    have hended := runs_exportPaths h.runs
    generalize turns.map (·.act) = acts at hended hone haccepting ⊢
    cases hended with
    | turnedAway error haway hwhy =>
        rcases hwhy with hunknown | ⟨text, hbody⟩
        · exact absurd hone (hunknown.authenticates one)
        · cases hbody
    | malformed caller raw' refused hbody hpresented hinvalid hrefused =>
        obtain ⟨_, error, -, rfl⟩ := id hrefused
        refine ⟨⟨error, rfl⟩, ⟨refused.status, ?_⟩,
          hpresented.quiet.unguarded.append hrefused.unguarded⟩
        rw [entries_append, hpresented.quiet.entries,
          hrefused.committed (accepting_append.mp haccepting).2, ← hpresented.eq_callerOf hone.of_append.1]
        rfl
    | checked caller raw' paths hbody hpresented hvalid hserved =>
        cases hbody
        exact absurd (validateExportPaths_iff.mp hvalid) (hmisshapen paths)
  · rintro raw rfl paths hshaped
    have hvalidated := validateExportPaths_iff.mpr hshaped
    have hread : ∀ {path : SecretPath u} {stored : StoredVersion u},
        (⟨.get path none, .ok stored⟩ : ApiAct u) ∈ turns.map (·.act) →
          ∃ turn ∈ turns, ∃ fault, turn.before.secrets.get fault path none = .ok stored := by
      intro path stored hmem
      obtain ⟨turn, hturn, hact⟩ := List.mem_map.mp hmem
      obtain ⟨outside, hreply, -⟩ := h.answered hturn
      rw [hact] at hreply
      exact ⟨turn, hturn, outside.secret, hreply.symm⟩
    have hended := runs_exportPaths h.runs
    generalize turns.map (·.act) = acts at hended hone haccepting hread ⊢
    cases hended with
    | turnedAway error haway hwhy =>
        rcases hwhy with hunknown | ⟨text, hbody⟩
        · exact absurd hone (hunknown.authenticates one)
        · cases hbody
    | malformed caller raw' refused hbody hpresented hinvalid hrefused =>
        cases hbody
        rw [hvalidated] at hinvalid
        cases hinvalid
    | @checked front more _ caller raw' paths' hbody hpresented hvalid hserved =>
        cases hbody
        rw [hvalidated] at hvalid
        cases hvalid
        have hentries : entries (front ++ more) = entries more := by
          rw [entries_append, hpresented.quiet.entries, List.nil_append]
        rw [← hpresented.eq_callerOf hone.of_append.1]
        rcases runs_serveExport_accounting hserved hshaped.nodup (accepting_append.mp haccepting).2 with
          ⟨secrets, rfl, hclaims, hsecrets⟩ | ⟨error, rfl, hwithdrawn⟩
        · refine .inl ⟨secrets, rfl, ?_, hsecrets.imp ?_⟩
          · rwa [hentries]
          · rintro path secret ⟨stored, value, hmem, hvalue, rfl⟩
            obtain ⟨turn, hturn, fault, hget⟩ := hread (List.mem_append_right _ hmem)
            exact ⟨turn, hturn, currentValue_of_get hget hvalue⟩
        · exact .inr ⟨error, rfl, hwithdrawn.of_quiet hpresented.quiet⟩

end Process

end Exports

namespace Sample

def gonePath : SecretPath asciiUnicode := ⟨"infra/GONE", "infra/GONE", by decide +kernel⟩

/-- AES-256-GCM on the two values that the store holds. -/
def bulkAead : Aead KeyBytes Nonce where
  encrypt := fun _ _ _ _ => none
  decrypt := fun key nonce aad ciphertext =>
    if key = Vector.replicate 32 0 ∧ nonce = Vector.replicate 12 2 ∧
        aad = dekAad ⟨Vector.replicate 16 0xb0⟩ ∧
        ciphertext = [119, 203, 63, 222, 11, 64, 241, 22, 183, 207, 233, 76, 153, 203, 231, 233, 217, 75,
          38, 56, 187, 26, 30, 253, 114, 50, 140, 202, 126, 201, 237, 156, 254, 99, 146, 228, 94, 108, 229,
          7, 209, 235, 91, 96, 184, 59, 52, 158] then
      some (List.replicate 32 0x33)
    else if key = Vector.replicate 32 0x33 ∧ nonce = Vector.replicate 12 3 ∧
        aad = valueAad dbPath .first ⟨Vector.replicate 16 0xb0⟩ ∧
        ciphertext = [112, 88, 78, 241, 228, 35, 8, 143, 119, 133, 166, 112, 59, 19, 95, 96, 189, 243, 207,
          160, 103, 252, 156] then
      some (utf8 "hunter2")
    else if key = Vector.replicate 32 0 ∧ nonce = Vector.replicate 12 4 ∧
        aad = dekAad ⟨Vector.replicate 16 0xb1⟩ ∧
        ciphertext = [121, 52, 84, 119, 34, 69, 85, 246, 195, 36, 163, 118, 15, 128, 149, 70, 193, 33, 11, 82,
          139, 224, 162, 10, 76, 179, 63, 4, 203, 99, 161, 18, 134, 132, 24, 62, 49, 6, 197, 139,
          156, 4, 28, 71, 32, 49, 153, 71] then
      some (List.replicate 32 0x34)
    else if key = Vector.replicate 32 0x34 ∧ nonce = Vector.replicate 12 5 ∧
        aad = valueAad keyPath .first ⟨Vector.replicate 16 0xb1⟩ ∧
        ciphertext = [100, 6, 214, 223, 219, 63, 145, 205, 66, 159, 136, 139, 106, 224, 161, 191, 230, 77,
          229, 77, 242, 179] then
      some (utf8 "s3cret")
    else none

def readable : Deployment := { deployed with aead := bulkAead }

def readClaim (path : SecretPath asciiUnicode) : Entry :=
  decisionEntry (readable.callerOf ci) .read path none headers.requestContext
    (readable.authorize (readable.callerOf ci) .read path) none

def readTakenBack (path : SecretPath asciiUnicode) (reason : String) : Entry :=
  outcomeEntry (readable.callerOf ci) .read (some path) headers.requestContext 404 (some reason)

/-- A decision on a record, and the status that goes with it. -/
def granted : String × String :=
  ("\"allowed\":true,\"deny_reason\":null,\"rule\":\x7b\"policy\":\"infra\"" ++
    ",\"pattern\":\"infra/**\"\x7d", "200")

def withheld (reason : String) : String × String :=
  ("\"allowed\":false,\"deny_reason\":\"" ++ reason ++ "\",\"rule\":null", "404")

def readPayload (seq : Nat) (prev path : String) (decision : String × String) : String :=
  "\x7b\"seq\":" ++ toString seq ++ ",\"ts\":\"2026-01-01T00:00:00.000Z\",\"prev_hash\":\"" ++ prev ++
    "\",\"entry\":\x7b\"principal\":\x7b\"name\":\"ci\",\"kind\":\"machine\"" ++
    ",\"token_id\":\"AQEBAQEB\"\x7d,\"subject\":null,\"action\":\"read\",\"path\":\"" ++ path ++
    "\",\"version\":null," ++ decision.1 ++ ",\"results\":null,\"detail\":null" ++
    ",\"request\":\x7b\"request_id\":null,\"client_ip\":null,\"user_agent\":null" ++
    ",\"http_status\":" ++ decision.2 ++ ",\"channel\":null\x7d\x7d\x7d"

/-- The hash of a trail's first record, where it is the claim of the value. -/
def firstReadHash : Hash :=
  #v[0x5b, 0x36, 0x35, 0x91, 0xfb, 0x8b, 0x91, 0x0c, 0x5d, 0x01, 0x4c, 0xf1, 0x93, 0x23, 0x8f, 0xab,
    0x41, 0x41, 0x31, 0x20, 0xc1, 0x36, 0xfc, 0x8c, 0xb2, 0x4d, 0x4e, 0xe5, 0x35, 0x51, 0x68, 0x9b]

def bulkCodec : Codec :=
  codecFor [
    (1, readClaim dbPath, readPayload 1
      ("00000000000000000000000000000000" ++ "00000000000000000000000000000000") "infra/DB" granted,
      firstReadHash),
    (2, readClaim gonePath, readPayload 2
      ("5b363591fb8b910c5d014cf193238fab" ++ "41413120c136fc8cb24d4ee53551689b") "infra/GONE" granted,
      #v[0x55, 0x4e, 0x28, 0xbe, 0x44, 0x7d, 0xa2, 0xeb, 0x2c, 0x8d, 0x0f, 0xc3, 0x86, 0x73, 0xa8, 0x1b,
        0x44, 0x99, 0x52, 0x75, 0x3b, 0xc7, 0x89, 0xb6, 0xeb, 0x34, 0x84, 0x2c, 0x8b, 0x62, 0x37, 0xb3]),
    (2, readClaim keyPath, readPayload 2
      ("5b363591fb8b910c5d014cf193238fab" ++ "41413120c136fc8cb24d4ee53551689b") "infra/KEY" granted,
      #v[0xed, 0x9e, 0x16, 0x17, 0x2c, 0xbb, 0x96, 0x61, 0x40, 0x01, 0x48, 0xbd, 0xc6, 0x75, 0x8d, 0x69,
        0x83, 0x2b, 0x3c, 0xaf, 0x49, 0x74, 0x0f, 0x49, 0x50, 0x22, 0x92, 0xc2, 0x1d, 0x8c, 0x78, 0x47]),
    (3, readTakenBack dbPath "not-served", readPayload 3
      ("554e28be447da2eb2c8d0fc38673a81b" ++ "449952753bc789b6eb34842c8b6237b3") "infra/DB"
      (withheld "not-served"),
      #v[0x67, 0x9c, 0xb7, 0x21, 0xc6, 0xbe, 0xed, 0xae, 0x69, 0xf7, 0xbd, 0x41, 0xfa, 0x88, 0x87, 0xb7,
        0x1d, 0x3f, 0x53, 0x98, 0xf7, 0x58, 0xee, 0x03, 0x4c, 0x79, 0xf3, 0xbe, 0x2d, 0x28, 0x08, 0xc1]),
    (4, readTakenBack gonePath "not-served", readPayload 4
      ("679cb721c6beedae69f7bd41fa8887b7" ++ "1d3f5398f758ee034c79f3be2d2808c1") "infra/GONE"
      (withheld "not-served"),
      #v[0x85, 0xa6, 0xda, 0x50, 0x91, 0xe1, 0x7f, 0x84, 0x43, 0xe5, 0x92, 0xd9, 0xf9, 0x48, 0x6d, 0x14,
        0x86, 0x72, 0x1d, 0x65, 0xc8, 0x3e, 0xe4, 0x42, 0x9f, 0x68, 0x65, 0xda, 0x6a, 0x7c, 0x98, 0x63]),
    (5, readClaim dbPath, readPayload 5
      ("85a6da5091e17f8443e592d9f9486d14" ++ "86721d65c83ee4429f6865da6a7c9863") "infra/DB" granted,
      #v[0x24, 0x8b, 0x29, 0x95, 0x21, 0x44, 0x7f, 0xa3, 0xd8, 0x50, 0xc6, 0x3d, 0xb1, 0x95, 0xf5, 0xc0,
        0x74, 0x61, 0xf8, 0x2f, 0x8f, 0xe8, 0x79, 0x8c, 0xae, 0xf1, 0x19, 0x6e, 0x25, 0x83, 0xc6, 0xa1]),
    (6, readClaim gonePath, readPayload 6
      ("248b299521447fa3d850c63db195f5c0" ++ "7461f82f8fe8798caef1196e2583c6a1") "infra/GONE" granted,
      #v[0x52, 0x12, 0x6c, 0x8e, 0x71, 0x00, 0x95, 0xc5, 0x26, 0x72, 0x75, 0x81, 0x00, 0x2f, 0x89, 0x4e,
        0xbb, 0x52, 0xda, 0x44, 0x70, 0xf0, 0x57, 0x45, 0x01, 0xbd, 0xea, 0xf9, 0x66, 0x46, 0x36, 0x2e]),
    (7, readTakenBack gonePath "not-found", readPayload 7
      ("52126c8e710095c526727581002f894e" ++ "bb52da4470f0574501bdeaf96646362e") "infra/GONE"
      (withheld "not-found"),
      #v[0x26, 0xa7, 0xd9, 0xab, 0x4f, 0x66, 0x98, 0xe8, 0x56, 0x46, 0x62, 0x54, 0x33, 0x9a, 0x58, 0xe6,
        0x95, 0xef, 0xde, 0x4c, 0x5d, 0xd6, 0x57, 0x06, 0xfc, 0x01, 0x61, 0x6b, 0xa5, 0x78, 0x90, 0x0a])]

/-- The same store, with a value under its path and under another one. -/
def stocked : Server Device AuditWorld :=
  { deploying with
    secrets := ⟨deploying.secrets.secrets ++ [⟨2, "infra/KEY", 1, "rotatable", 0, 0, none⟩],
      [⟨1, 1, "b0b0b0b0b0b0b0b0b0b0b0b0b0b0b0b0", List.replicate 12 2,
        [119, 203, 63, 222, 11, 64, 241, 22, 183, 207, 233, 76, 153, 203, 231, 233, 217, 75, 38, 56, 187,
          26, 30, 253, 114, 50, 140, 202, 126, 201, 237, 156, 254, 99, 146, 228, 94, 108, 229, 7, 209, 235,
          91, 96, 184, 59, 52, 158], List.replicate 12 3,
        [112, 88, 78, 241, 228, 35, 8, 143, 119, 133, 166, 112, 59, 19, 95, 96, 189, 243, 207, 160, 103,
          252, 156], 0, "ci", none, none⟩,
        ⟨2, 1, "b1b1b1b1b1b1b1b1b1b1b1b1b1b1b1b1", List.replicate 12 4,
        [121, 52, 84, 119, 34, 69, 85, 246, 195, 36, 163, 118, 15, 128, 149, 70, 193, 33, 11, 82,
          139, 224, 162, 10, 76, 179, 63, 4, 203, 99, 161, 18, 134, 132, 24, 62, 49, 6, 197, 139,
          156, 4, 28, 71, 32, 49, 153, 71], List.replicate 12 5,
        [100, 6, 214, 223, 219, 63, 145, 205, 66, 159, 136, 139, 106, 224, 161, 191, 230, 77,
          229, 77, 242, 179], 0, "ci", none, none⟩]⟩ }

def bulkAnswer : Server Device AuditWorld → ApiOutside DeviceFault → (c : ApiCall asciiUnicode) →
    Server Device AuditWorld × c.Reply :=
  Server.answer readable bulkCodec (fun _ => none) AuditWorld.db

/-- An export of the secret that is there, and of one that is not. -/
def gone : Api asciiUnicode ApiResponse := exportPaths readable headers (.ok ["infra/DB", "infra/GONE"])

def goneTrail : List Entry :=
  [readClaim dbPath, readClaim gonePath, readTakenBack dbPath "not-served",
    readTakenBack gonePath "not-served"]

/-- The paths are paths, the store has nothing under the second, and what was allowed of both is taken
back. -/
theorem gone_accounting : ∃ turns error last,
    Plays bulkAnswer (· = ·) stocked gone turns (.error error) last ∧ last.app.trail = goneTrail ∧
      WithdrawnFrom (readable.callerOf ci) headers.requestContext error.status [dbPath, gonePath]
        (turns.map (·.act)) := by
  let played := play bulkAnswer (List.replicate 7 calm) stocked gone
  have hrun : played.map (fun played => (played.2.1.toOption.isSome, played.2.2.app.trail,
      (played.1.map (·.act)).all (ApiAct.vouches presented ci),
      (played.1.map (·.act)).all ApiAct.accepted)) = some (false, goneTrail, true, true) := by
    decide +kernel
  have hshaped : WellShaped ["infra/DB", "infra/GONE"] [dbPath, gonePath] :=
    validateExportPaths_iff.mp (by decide +kernel)
  cases hplayed : played with
  | none =>
      rw [hplayed] at hrun
      cases hrun
  | some found =>
      obtain ⟨turns, result, last⟩ := found
      rw [hplayed, Option.map_some, Option.some.injEq, Prod.mk.injEq, Prod.mk.injEq,
        Prod.mk.injEq] at hrun
      obtain ⟨hresult, htrail, hvouches, haccepted⟩ := hrun
      cases result with
      | ok answer => cases hresult
      | error error =>
          have hplays : Plays bulkAnswer (· = ·) stocked gone turns (.error error) last :=
            plays_of_play (fun _ => rfl) hplayed
          have hone : Authenticates headers ci (turns.map (·.act)) :=
            authenticates_of_all headers_bearerToken hvouches
          have hended := (exportPaths_accounting hplays hone
            (accepting_iff.mpr haccepted)).2.2 _ rfl [dbPath, gonePath] hshaped
          rcases hended with ⟨_, hok, -⟩ | ⟨_, herror, hwithdrawn⟩
          · cases hok
          · cases herror
            exact ⟨turns, error, last, hplays, htrail, hwithdrawn⟩

end Sample

end Ciphr
