import Ciphr.SdkClient
import Ciphr.ServerCorrections

/-!
A bulk read through the client: what the service makes of it, what the client takes that to mean, and
when the two agree.
-/

namespace Ciphr

open Script

section BulkRead

variable {u : Unicode} {deployment : Deployment} {headers : Headers} {caller : Caller}
  {acts : List (ApiAct u)}

/-! ### The service -/

/-- A secret that the store was asked for is not there, or its version is deleted or destroyed. -/
def FoundMissing (acts : List (ApiAct u)) : Prop :=
  ∃ path error, (⟨.get path none, .error error⟩ : ApiAct u) ∈ acts ∧ ApiError.ofStore error = .notFound

/-- Nobody but the store's lookup of a value says that something is not there. -/
def Sane (acts : List (ApiAct u)) : Prop :=
  ∀ act ∈ acts, match act with
    | ⟨.authenticate _, .error error⟩ => ApiError.ofStore error ≠ .notFound
    | ⟨.honeypotTier _, .error error⟩ => ApiError.ofStore error ≠ .notFound
    | ⟨.record _, .error error⟩ => error ≠ .notFound
    | _ => True

theorem Sane.of_append {acts' : List (ApiAct u)} (h : Sane (acts ++ acts')) : Sane acts ∧ Sane acts' :=
  ⟨fun act hmem => h act (List.mem_append_left _ hmem),
    fun act hmem => h act (List.mem_append_right _ hmem)⟩

theorem FoundMissing.mono {acts' : List (ApiAct u)} (h : FoundMissing acts) (hsub : acts ⊆ acts') :
    FoundMissing acts' := by
  obtain ⟨path, error, hmem, hmissing⟩ := h
  exact ⟨path, error, hsub hmem, hmissing⟩

theorem Unguarded.not_missing (h : Unguarded acts) : ¬ FoundMissing acts := by
  rintro ⟨path, error, hmem, -⟩
  have hunguarded := h _ hmem
  cases hunguarded

/-- A record is not answered with an error that says something is not there. -/
theorem runs_record_sane {entry : Entry} {error : ApiError}
    (h : Runs (record entry : Api u Unit) acts (.error error)) (hsane : Sane acts) :
    error ≠ .notFound := by
  obtain ⟨reply, rfl, hreply⟩ := runs_record_iff.mp h
  rw [← hreply] at hsane
  exact hsane _ (List.mem_singleton_self _)

theorem runs_recordRejection_sane {action : Action} {request : RequestContext} {bait : Option Bait}
    {error : ApiError}
    (h : Runs (deployment.recordRejection action request bait : Api u Unit) acts (.error error))
    (hsane : Sane acts) : error ≠ .notFound := by
  unfold Deployment.recordRejection at h
  split at h
  · rcases runs_bind_iff.mp h with ⟨e, hrecord, heq⟩ | ⟨⟨⟩, front, rest, rfl, -, hlatch⟩
    · cases heq
      exact runs_record_sane hrecord hsane
    · obtain ⟨_, -, hended⟩ := runs_ask_iff.mp hlatch
      cases hended
  · exact runs_record_sane h hsane

theorem identify_sane {outcome : Except StoreError Authentication} {rejection : Rejection}
    (h : deployment.identify outcome = .error rejection)
    (hsane : ∀ error, outcome = .error error → ApiError.ofStore error ≠ .notFound) :
    rejection.error ≠ .notFound := by
  unfold Deployment.identify at h
  split at h
  · cases h
    exact hsane _ rfl
  · cases h
    intro heq
    cases heq
  · cases h
    intro heq
    cases heq
  · cases h

/-- Nobody is turned away with the status of something that is not there. -/
theorem runs_authenticated_sane {action : Action} {request : RequestContext} {error : ApiError}
    (h : Runs (deployment.authenticated headers action request : Api u Caller) acts (.error error))
    (hsane : Sane acts) : error ≠ .notFound := by
  unfold Deployment.authenticated at h
  rcases runs_bind_iff.mp h with ⟨e, hfirst, -⟩ | ⟨outcome, front, rest, rfl, hfirst, hrest⟩
  · obtain ⟨-, ⟨_, hok, -⟩ | ⟨_, hok⟩⟩ := runs_authenticate_cases hfirst
    · cases hok
    · cases hok
  · cases outcome with
    | ok found => cases (runs_pure_iff.mp hrest).2
    | error rejection =>
        rcases runs_bind_iff.mp hrest with ⟨e, hreject, heq⟩ | ⟨_, front', rest', rfl, -, hthrow⟩
        · cases heq
          exact runs_recordRejection_sane hreject hsane.of_append.2
        · obtain ⟨-, heq⟩ := runs_ofExcept_iff.mp hthrow
          cases heq
          rcases runs_authenticate hfirst with ⟨-, rfl, hnobody⟩ | ⟨presented, reply, -, rfl, hreply⟩
          · cases hnobody
            intro heq
            cases heq
          · apply identify_sane (Except.ok.inj hreply).symm
            rintro failed rfl
            exact hsane.of_append.1 _ (List.mem_singleton_self _)

/-- A decision that ends with an error does not say that something is not there. -/
theorem Decided.sane {action : Action} {capability : Capability} {path : SecretPath u}
    {subject : Option Principal} {request : RequestContext} {error : ApiError}
    (h : Decided deployment caller action capability path subject request acts (.error error))
    (hsane : Sane acts) : error ≠ .notFound := by
  cases h with
  | lookupFailed failed => exact hsane _ (List.mem_singleton_self _)
  | unrecorded look bait refused hlook =>
      exact hsane _ (List.mem_append_right _ (List.mem_singleton_self _))
  | denied =>
      intro heq
      cases heq

theorem decryptToText_ne_notFound {stored : StoredVersion u} :
    decryptToText deployment stored ≠ .error .notFound := by
  intro h
  unfold decryptToText at h
  cases hplain : decrypt deployment.aead deployment.root stored.path stored.version stored.value with
  | error error =>
      rw [hplain] at h
      cases h
  | ok plaintext =>
      rw [hplain] at h
      dsimp only [Except.mapError, Except.bind, Bind.bind] at h
      split at h
      · cases h
      · cases h

/-- One path of an export is not there exactly if the store says so. -/
theorem runs_exportSecret_notFound {path : SecretPath u} {bytes : Nat} {error : ApiError}
    (h : Runs (exportSecret deployment path bytes) acts (.error error)) :
    error = .notFound ↔ FoundMissing acts := by
  rcases runs_bind_iff.mp h with ⟨_, hask, heq⟩ | ⟨stored, front, rest, rfl, hask, hrest⟩
  · cases heq
    obtain ⟨outcome, rfl, hended⟩ := runs_ask_iff.mp hask
    cases outcome with
    | ok stored => cases hended
    | error failed =>
        cases hended
        constructor
        · intro hmissing
          exact ⟨path, failed, List.mem_singleton_self _, hmissing⟩
        · rintro ⟨other, found, hmem, hmissing⟩
          cases List.mem_singleton.mp hmem
          exact hmissing
  · obtain ⟨outcome, rfl, hfound⟩ := runs_ask_iff.mp hask
    cases outcome with
    | error failed => cases hfound
    | ok found =>
        refine iff_of_false ?_ ?_
        · rcases runs_bind_iff.mp hrest with ⟨_, hdecoded, heq⟩ | ⟨value, decoded, last, rfl, -, hlast⟩
          · cases heq
            obtain ⟨-, hvalue⟩ := runs_ofExcept_iff.mp hdecoded
            rintro rfl
            exact decryptToText_ne_notFound hvalue.symm
          · dsimp only at hlast
            split at hlast
            · cases (runs_ofExcept_iff.mp hlast).2
              intro heq
              cases heq
            · cases (runs_pure_iff.mp hlast).2
        · rintro ⟨other, failed, hmem, -⟩
          obtain ⟨outcome, hacts, -⟩ := runs_exportSecret h
          rw [hacts] at hmem
          cases hacts
          cases List.mem_singleton.mp hmem

theorem foundMissing_append {acts' : List (ApiAct u)} :
    FoundMissing (acts ++ acts') ↔ FoundMissing acts ∨ FoundMissing acts' := by
  constructor
  · rintro ⟨path, error, hmem, hmissing⟩
    rcases List.mem_append.mp hmem with hleft | hright
    · exact .inl ⟨path, error, hleft, hmissing⟩
    · exact .inr ⟨path, error, hright, hmissing⟩
  · rintro (hleft | hright)
    · exact hleft.mono (List.subset_append_left ..)
    · exact hright.mono (List.subset_append_right ..)

/-- Calls that read no value do not decide whether a secret was missing. -/
theorem Unguarded.foundMissing_append_iff {acts' : List (ApiAct u)} (h : Unguarded acts) :
    FoundMissing (acts ++ acts') ↔ FoundMissing acts' := by
  rw [foundMissing_append]
  exact or_iff_right h.not_missing

theorem exporting_notFound_iff {request : RequestContext} {paths new : List (SecretPath u)}
    {bytes : Nat} {ended : Except ApiError (List ExportedSecret)}
    (h : Exporting deployment caller request paths bytes acts new ended) (hsane : Sane acts) :
    ended = .error .notFound ↔ FoundMissing acts := by
  induction h with
  | done =>
      refine iff_of_false nofun ?_
      rintro ⟨path, error, hmem, -⟩
      cases hmem
  | undecided paths bytes error hdecided =>
      refine iff_of_false ?_ hdecided.unguarded.not_missing
      intro heq
      exact hdecided.sane hsane (Except.error.inj heq)
  | unserved paths bytes error hdecided hasked =>
      rw [hdecided.unguarded.foundMissing_append_iff, Except.error.injEq]
      exact runs_exportSecret_notFound hasked
  | @served path decided asked more paths new bytes bytes' secret ended hdecided hasked hrest ih =>
      obtain ⟨outcome, rfl, hserved⟩ := runs_exportSecret hasked
      obtain ⟨stored, value, rfl, -, -⟩ := hserved secret bytes' rfl
      have hread : ¬ FoundMissing [(⟨.get path none, .ok stored⟩ : ApiAct u)] := by
        rintro ⟨other, error, hmem, -⟩
        cases List.mem_singleton.mp hmem
      rw [hdecided.unguarded.foundMissing_append_iff, foundMissing_append, or_iff_right hread,
        ← ih hsane.of_append.2.of_append.2]
      cases ended with
      | error error => rfl
      | ok secrets => exact iff_of_false nofun nofun

theorem pushExportPath_sane {paths : List (SecretPath u)} {raw : String} :
    pushExportPath paths raw ≠ .error .notFound := by
  unfold pushExportPath parsePath
  cases SecretPath.parse u raw with
  | error error => exact nofun
  | ok path =>
      change (if paths.any (·.text == path.text) = true then _ else _) ≠ _
      split
      · exact nofun
      · exact nofun

theorem foldlM_pushExportPath_sane {raw : List String} {seen : List (SecretPath u)} :
    raw.foldlM pushExportPath seen ≠ .error .notFound := by
  induction raw generalizing seen with
  | nil => exact nofun
  | cons one raw ih =>
      rw [List.foldlM_cons]
      cases hpush : pushExportPath seen one with
      | error error =>
          intro heq
          cases heq
          exact pushExportPath_sane hpush
      | ok grown => exact ih

theorem validateExportPaths_sane {raw : List String} :
    validateExportPaths u raw ≠ .error .notFound := by
  unfold validateExportPaths
  split
  · exact nofun
  · split
    · exact nofun
    · exact foldlM_pushExportPath_sane

theorem accepting_get {path : SecretPath u} {outcome : Except StoreError (StoredVersion u)} :
    Accepting [(⟨.get path none, outcome⟩ : ApiAct u)] := by
  intro entry error hmem
  cases List.mem_singleton.mp hmem

theorem Decided.accepting {action : Action} {capability : Capability} {path : SecretPath u}
    {subject : Option Principal} {request : RequestContext}
    (h : Decided deployment caller action capability path subject request acts (.ok ())) :
    Accepting acts := by
  cases h with
  | allowed look more bait hallowed hbait hlook hmore =>
      apply accepting_append.mpr
      refine ⟨hlook.quiet.accepting, ?_⟩
      intro entry error hmem
      rcases List.mem_cons.mp hmem with heq | hmem
      · cases heq
      · exact hmore.quiet.accepting entry error hmem

/-- The trail has taken every record of a loop that ends because something is not there. -/
theorem exporting_accepting {request : RequestContext} {paths new : List (SecretPath u)} {bytes : Nat}
    {ended : Except ApiError (List ExportedSecret)}
    (h : Exporting deployment caller request paths bytes acts new ended) (hsane : Sane acts)
    (hended : ended = .error .notFound) : Accepting acts := by
  induction h with
  | done => cases hended
  | undecided paths bytes error hdecided =>
      cases hended
      exact absurd rfl (hdecided.sane hsane)
  | unserved paths bytes error hdecided hasked =>
      obtain ⟨outcome, rfl, -⟩ := runs_exportSecret hasked
      exact accepting_append.mpr ⟨hdecided.accepting, accepting_get⟩
  | @served path decided asked more paths new bytes bytes' secret ended hdecided hasked hrest ih =>
      obtain ⟨outcome, rfl, -⟩ := runs_exportSecret hasked
      have hmore : ended = .error .notFound := by
        cases ended with
        | error error => exact hended
        | ok secrets => cases hended
      exact accepting_append.mpr ⟨hdecided.accepting,
        accepting_append.mpr ⟨accepting_get, ih hsane.of_append.2.of_append.2 hmore⟩⟩

/-- A correction that is refused is not answered as if something was not there. -/
theorem runs_correctExport_sane {request : RequestContext} {status : Nat} {paths : List (SecretPath u)}
    {error : ApiError} (h : Runs (correctExport caller request status paths) acts (.error error))
    (hsane : Sane acts) : error ≠ .notFound := by
  induction paths generalizing acts with
  | nil => cases (runs_pure_iff.mp h).2
  | cons path paths ih =>
      rcases runs_bind_iff.mp h with ⟨e, hrecord, heq⟩ | ⟨⟨⟩, front, rest, rfl, -, hrest⟩
      · cases heq
        exact runs_record_sane hrecord hsane
      · exact ih hrest hsane.of_append.2

theorem runs_correctExport_accepting {request : RequestContext} {status : Nat}
    {paths : List (SecretPath u)} (h : Runs (correctExport caller request status paths) acts (.ok ())) :
    Accepting acts := by
  induction paths generalizing acts with
  | nil =>
      obtain ⟨rfl, -⟩ := runs_pure_iff.mp h
      exact quiet_nil.accepting
  | cons path paths ih =>
      rcases runs_bind_iff.mp h with ⟨e, -, heq⟩ | ⟨⟨⟩, front, rest, rfl, hrecord, hrest⟩
      · cases heq
      · obtain ⟨reply, rfl, hreply⟩ := runs_record_iff.mp hrecord
        rw [← hreply]
        refine accepting_append.mpr ⟨?_, ih hrest⟩
        intro entry error hmem
        cases List.mem_singleton.mp hmem

/-- An export that was checked is answered with "not found" exactly if the store has not found one of
its secrets and the trail has taken all that was recorded of it. -/
theorem serveExport_notFound_iff {paths : List (SecretPath u)} {result : Except ApiError ApiResponse}
    (h : Runs (serveExport deployment headers caller paths) acts result) (hsane : Sane acts) :
    result = .error .notFound ↔ FoundMissing acts ∧ Accepting acts := by
  rcases runs_bind_iff.mp h with ⟨_, hloop, -⟩ | ⟨ended, front, rest, rfl, hloop, hrest⟩
  · obtain ⟨_, _, -, hended⟩ := runs_exportSecrets hloop
    cases hended
  · obtain ⟨new, ended, hexporting, heq⟩ := runs_exportSecrets hloop
    cases heq
    have hloop := exporting_notFound_iff hexporting hsane.of_append.1
    cases ended with
    | ok secrets =>
        obtain ⟨rfl, rfl⟩ := runs_pure_iff.mp hrest
        rw [List.append_nil, ← hloop]
        exact iff_of_false nofun nofun
    | error error =>
        have hfound : ∀ {later : List (ApiAct u)} {result : Except ApiError Unit},
            Runs (correctExport caller headers.requestContext error.status new) later result →
              (FoundMissing (front ++ later) ↔ error = .notFound) := by
          intro later result hcorrect
          rw [foundMissing_append, or_iff_left (runs_correctExport hcorrect).1.unguarded.not_missing,
            ← hloop, Except.error.injEq]
        rcases runs_bind_iff.mp hrest with ⟨e, hcorrect, rfl⟩ | ⟨⟨⟩, corrected, last, rfl, hcorrect, hlast⟩
        · obtain ⟨-, -, ⟨hok, -⟩ | ⟨-, hnot⟩⟩ := runs_correctExport hcorrect
          · cases hok
          · refine iff_of_false ?_ fun ⟨_, haccepting⟩ => hnot (accepting_append.mp haccepting).2
            intro heq
            exact runs_correctExport_sane hcorrect hsane.of_append.2 (Except.error.inj heq)
        · obtain ⟨rfl, rfl⟩ := runs_ofExcept_iff.mp hlast
          rw [List.append_nil]
          constructor
          · intro heq
            have herror : error = .notFound := Except.error.inj heq
            exact ⟨(hfound hcorrect).mpr herror, accepting_append.mpr
              ⟨exporting_accepting hexporting hsane.of_append.1 (congrArg _ herror),
                runs_correctExport_accepting hcorrect⟩⟩
          · rintro ⟨hmissing, -⟩
            exact congrArg Except.error ((hfound hcorrect).mp hmissing)

/-- A request for an export is answered with "not found" exactly if the store has not found one of the
secrets and the trail has taken all that was recorded of it. -/
theorem exportPaths_notFound_iff {raw : List String} {result : Except ApiError ApiResponse}
    (h : Runs (exportPaths deployment headers (.ok raw) : Api u ApiResponse) acts result)
    (hsane : Sane acts) : result = .error .notFound ↔ FoundMissing acts ∧ Accepting acts := by
  have hraw : (auditedJson deployment headers .read (.ok raw) : Api u (List String)) = pure raw := rfl
  unfold exportPaths at h
  rw [hraw] at h
  rcases runs_bind_iff.mp h with ⟨_, hpure, -⟩ | ⟨body, front, rest, rfl, hpure, hmore⟩
  · cases (runs_pure_iff.mp hpure).2
  obtain ⟨rfl, hbody⟩ := runs_pure_iff.mp hpure
  rw [Except.ok.inj hbody] at hmore
  rw [List.nil_append] at hsane ⊢
  rcases runs_bind_iff.mp hmore with ⟨error, hfirst, rfl⟩ | ⟨caller, front, more, rfl, hfirst, hrest⟩
  · refine iff_of_false ?_ fun h => (runs_authenticated_error hfirst).1.unguarded.not_missing h.1
    intro heq
    exact runs_authenticated_sane hfirst hsane (Except.error.inj heq)
  · have hquiet := (runs_authenticated_ok hfirst).quiet
    rw [hquiet.unguarded.foundMissing_append_iff, accepting_append,
      and_iff_right hquiet.accepting]
    cases hpaths : validateExportPaths u raw with
    | error refused =>
        rw [hpaths] at hrest
        rcases runs_record_then hrest with ⟨rfl, rfl⟩ | ⟨failed, rfl, rfl⟩
        · refine iff_of_false ?_ fun h => unguarded_record.not_missing h.1
          intro heq
          cases heq
          exact validateExportPaths_sane hpaths
        · refine iff_of_false ?_ fun h => unguarded_record.not_missing h.1
          intro heq
          cases heq
          exact hsane.of_append.2 _ (List.mem_singleton_self _) rfl
    | ok paths =>
        rw [hpaths] at hrest
        exact serveExport_notFound_iff hrest hsane.of_append.2

/-- Without a route, a request for an export is answered with "not found" unless the trail refuses. -/
theorem refusedRequest_notFound_iff {reason : String} {result : Except ApiError ApiResponse}
    (h : Runs (refusedRequest deployment headers reason : Api u ApiResponse) acts result)
    (hsane : Sane acts) : result = .error .notFound ↔ Accepting acts := by
  unfold refusedRequest at h
  rcases runs_bind_iff.mp h with ⟨e, hfirst, rfl⟩ | ⟨outcome, front, rest, rfl, hfirst, hrest⟩
  · obtain ⟨-, ⟨_, hok, -⟩ | ⟨_, hok⟩⟩ := runs_authenticate_cases hfirst
    · cases hok
    · cases hok
  · rw [accepting_append, and_iff_right (runs_authenticate_cases hfirst).1.accepting]
    cases outcome with
    | ok caller =>
        rcases runs_record_then hrest with ⟨rfl, rfl⟩ | ⟨failed, rfl, rfl⟩
        · refine iff_of_true rfl ?_
          intro entry error hmem
          cases List.mem_singleton.mp hmem
        · refine iff_of_false ?_ not_accepting_record
          intro heq
          cases heq
          exact hsane.of_append.2 _ (List.mem_singleton_self _) rfl
    | error rejection =>
        obtain ⟨rfl, rfl⟩ := runs_ofExcept_iff.mp hrest
        exact iff_of_true rfl quiet_nil.accepting

/-! ### The process -/

theorem token_error {table : TokenTable} {tokenId : String} {fault : Option String}
    {error : StoreError} (h : table.token tokenId fault = .error error) :
    ∃ text, error = .sqlite text := by
  unfold TokenTable.token at h
  split at h
  · cases h
    exact ⟨_, rfl⟩
  · cases h

theorem verifierFor_sane {table : TokenTable} {tokenId : String} {fault : Option String}
    {error : StoreError} (h : table.verifierFor tokenId fault = .error error) :
    ApiError.ofStore error ≠ .notFound := by
  unfold TokenTable.verifierFor at h
  split at h
  · cases h
    intro heq
    cases heq
  · split at h
    · cases h
    · split at h
      · cases h
      · cases h
        intro heq
        cases heq

/-- The token table may fail, but not to find something. -/
theorem authenticate_sane {table : TokenTable} {hmac : Hmac} {presented : String}
    {pepper : TokenPepper} {now : Int} {fault : TokenFault} {error : StoreError}
    (h : (table.authenticate hmac presented pepper now fault).2 = some (.error error)) :
    ApiError.ofStore error ≠ .notFound := by
  revert h
  fun_cases TokenTable.authenticate hmac table presented pepper now fault
  case case3 token hparse failed hfailed =>
    intro h
    cases h
    obtain ⟨text, rfl⟩ := token_error hfailed
    intro heq
    cases heq
  case case4 token hparse record hrecord stored failed hfailed =>
    intro h
    cases h
    cases record with
    | none =>
        have hnone : (.ok none : Except StoreError (Option TokenVerifier)) = .error error := hfailed
        cases hnone
    | some record => exact verifierFor_sane hfailed
  all_goals
    intro h
    cases h

theorem honeypotTier_sane {tables : SecretTables} {fault : SecretFault} {path : SecretPath u}
    {error : StoreError} (h : tables.honeypotTier fault path = .error error) :
    ApiError.ofStore error ≠ .notFound := by
  unfold SecretTables.honeypotTier SecretTables.answer at h
  cases hfault : fault .selectSecret with
  | some text =>
      rw [hfault] at h
      cases h
      intro heq
      cases heq
  | none =>
      rw [hfault] at h
      dsimp only [Except.bind, Bind.bind] at h
      split at h
      · cases h
      · unfold HoneypotTier.parse at h
        split at h
        · cases h
        · cases h
          intro heq
          cases heq

theorem record_sane {δ ω φ : Type} [AuditDevice δ ω φ] {codec : Codec} {moments : Nat → Moment φ}
    {s : AppState δ ω} {entry : Entry} {error : ApiError}
    (h : ((AppState.record codec moments entry).exec s).1 = .error error) : error ≠ .notFound := by
  cases hwritten : (s.writeSink codec moments entry).1 with
  | ok written =>
      rw [AppState.record_of_ok hwritten] at h
      cases h
  | error failed =>
      obtain ⟨devices, hexec, -⟩ := AppState.record_of_error hwritten
      rw [hexec] at h
      cases h
      exact nofun

/-- Whatever the database, the devices and others do, nothing but a value is ever missing. -/
theorem plays_sane {δ ω φ ε α : Type} [AuditDevice δ ω φ] {codec : Codec} {json : JsonExtract}
    {database : ω → Database} {script : Script (ApiCall u) ApiCall.Reply ε α}
    {between : Server δ ω → Server δ ω → Prop} {s last : Server δ ω} {result : Except ε α}
    {turns : List (Turn (Server δ ω) (ApiCall u) ApiCall.Reply)}
    (h : Plays (Server.answer deployment codec json database) between s script turns result last) :
    Sane (turns.map (·.act)) := by
  intro act hmem
  obtain ⟨turn, hturn, rfl⟩ := List.mem_map.mp hmem
  obtain ⟨outside, hreply, -⟩ := h.answered hturn
  obtain ⟨before, ⟨c, reply⟩, after⟩ := turn
  dsimp only at hreply ⊢
  cases c with
  | authenticate presented =>
      cases reply with
      | ok found => exact trivial
      | error error =>
          cases hasked : (before.tokens.authenticate deployment.hmac presented deployment.pepper
              outside.now outside.token).2 with
          | none =>
              rw [Server.answer, hasked] at hreply
              cases hreply
          | some outcome =>
              rw [Server.answer, hasked] at hreply
              cases hreply
              exact authenticate_sane hasked
  | honeypotTier path =>
      cases reply with
      | ok found => exact trivial
      | error error => exact honeypotTier_sane hreply.symm
  | record entry =>
      cases reply with
      | ok => exact trivial
      | error error =>
          have hrecorded : ((AppState.record codec outside.moments entry).exec before.app).1 =
              .error error := hreply.symm
          exact record_sane hrecorded
  | _ => exact trivial

end BulkRead

/-! ### The client -/

/-- The service has no route for it, as the client reads the answer. -/
def SurfaceMissing {α : Type} (result : Except SdkError α) : Prop :=
  ∃ route entry, result = .error (.surfaceEntryUnavailable route entry)

namespace Client

variable {u : Unicode} {paths : List (SecretPath u)} {answer : Except HttpError ApiResponse}

theorem parseVersion_present {version : Nat} : ¬ SurfaceMissing (parseVersion version) := by
  rintro ⟨route, surface, h⟩
  unfold parseVersion at h
  split at h
  · split at h
    · cases h
    · cases h
  · cases h

theorem exportedSecret_present {entry : ExportedSecret} :
    ¬ SurfaceMissing (exportedSecret u entry) := by
  rintro ⟨route, surface, h⟩
  unfold exportedSecret parseNamed at h
  cases hpath : SecretPath.parse u entry.path with
  | error error =>
      rw [hpath] at h
      cases h
  | ok path =>
      rw [hpath] at h
      cases hversion : parseVersion entry.version with
      | error error =>
          rw [hversion] at h
          cases h
          exact parseVersion_present ⟨_, _, hversion⟩
      | ok version =>
          rw [hversion] at h
          cases h

theorem mapM_exportedSecret_present {entries : List ExportedSecret} :
    ¬ SurfaceMissing (entries.mapM (exportedSecret u)) := by
  induction entries with
  | nil =>
      rintro ⟨route, surface, h⟩
      cases h
  | cons entry entries ih =>
      rintro ⟨route, surface, h⟩
      rw [List.mapM_cons] at h
      cases hentry : exportedSecret u entry with
      | error error =>
          rw [hentry] at h
          cases h
          exact exportedSecret_present ⟨_, _, hentry⟩
      | ok secret =>
          rw [hentry] at h
          cases hentries : entries.mapM (exportedSecret u) with
          | error error =>
              rw [hentries] at h
              cases h
              exact ih ⟨_, _, hentries⟩
          | ok secrets =>
              rw [hentries] at h
              cases h

/-- The client takes a `404` of the bulk route, and nothing else, for a service without the route. -/
theorem exported_surfaceMissing_iff :
    SurfaceMissing (exported paths (.ok answer)) ↔ answer = .error (.api .notFound) := by
  constructor
  · rintro ⟨route, surface, h⟩
    cases answer with
    | error failed =>
        cases failed with
        | rejection text => cases h
        | api error =>
            cases error with
            | notFound => rfl
            | _ => cases h
    | ok response =>
        cases response with
        | exported secrets => exact absurd ⟨route, surface, h⟩ mapM_exportedSecret_present
        | _ => cases h
  · rintro rfl
    exact ⟨"POST /v1/export", "bulk_export", rfl⟩

/-- Every run of a bulk read: one request for all, and one for each path if there is no route. -/
theorem runs_readAll {acts : List (Act ApiRequest fun _ => Delivered)}
    {result : Except SdkError (List (Secret u))} (h : Runs (readAll paths) acts result) :
    ∃ reply rest, acts = ⟨.exportPaths (.ok (paths.map (·.text))), reply⟩ :: rest ∧
      ((SurfaceMissing (exported paths reply) ∧ Runs (getEach paths) rest result) ∨
        ¬ SurfaceMissing (exported paths reply) ∧ rest = [] ∧ result = exported paths reply) := by
  obtain ⟨reply, rest, rfl, hrest⟩ := runs_call_iff.mp h
  refine ⟨reply, rest, rfl, ?_⟩
  dsimp only [Script.outcome, Script.bind] at hrest
  split at hrest
  · rename_i secrets hexported
    obtain ⟨rfl, rfl⟩ := runs_pure_iff.mp hrest
    refine .inr ⟨?_, rfl, hexported.symm⟩
    rintro ⟨route, surface, hmissing⟩
    rw [hexported] at hmissing
    cases hmissing
  · rename_i route surface hexported
    exact .inl ⟨⟨route, surface, hexported⟩, hrest⟩
  · rename_i other hother hexported
    obtain ⟨rfl, rfl⟩ := runs_ofExcept_iff.mp hrest
    refine .inr ⟨?_, rfl, hexported.symm⟩
    rintro ⟨route, surface, hmissing⟩
    rw [hexported] at hmissing
    cases hmissing
    exact hother _ _ rfl

end Client

/-! ### The two together -/

section Reading

variable {u : Unicode} {deployment : Deployment} {headers : Headers} {paths : List (SecretPath u)}

/-- The client was handed the value that the secret had at present. -/
def ReadValue (deployment : Deployment) (tables : SecretTables) (path : SecretPath u)
    (secret : Secret u) : Prop :=
  secret.path = path ∧ ∃ text, secret.value = utf8 text ∧
    CurrentValue deployment tables path ⟨path.text, secret.version.number, text⟩

theorem exportedSecret_of_currentValue (hstable : u.Stable) {tables : SecretTables}
    {path : SecretPath u} {entry : ExportedSecret} (h : CurrentValue deployment tables path entry) :
    ∃ secret, Client.exportedSecret u entry = .ok secret ∧ ReadValue deployment tables path secret := by
  obtain ⟨name, version, value⟩ := entry
  have hcurrent := h
  obtain ⟨stored, -, -, rfl, rfl, -⟩ := h
  refine ⟨⟨path, stored.version, utf8 value, 0, ""⟩, ?_, rfl, value, rfl, hcurrent⟩
  unfold Client.exportedSecret parseNamed
  dsimp only
  rw [SecretPath.parse_text hstable, parseVersion_number]
  rfl

theorem mapM_exportedSecret_of_currentValue (hstable : u.Stable) {α : Type}
    {tables : α → SecretTables} {among : List α} {entries : List ExportedSecret}
    (h : List.Forall₂ (fun path entry => ∃ a ∈ among, CurrentValue deployment (tables a) path entry)
      paths entries) :
    ∃ secrets, entries.mapM (Client.exportedSecret u) = .ok secrets ∧
      List.Forall₂ (fun path secret => ∃ a ∈ among, ReadValue deployment (tables a) path secret) paths
        secrets := by
  induction h with
  | nil => exact ⟨[], rfl, .nil⟩
  | cons hentry _ ih =>
      obtain ⟨a, ha, hvalue⟩ := hentry
      obtain ⟨secret, hsecret, hread⟩ := exportedSecret_of_currentValue hstable hvalue
      obtain ⟨secrets, hsecrets, hreads⟩ := ih
      refine ⟨secret :: secrets, ?_, .cons ⟨a, ha, hread⟩ hreads⟩
      rw [List.mapM_cons, hsecret, hsecrets]
      rfl

theorem forall₂_parsePath_unique {raw : List String} {paths' : List (SecretPath u)}
    (h : List.Forall₂ (fun raw path => parsePath u raw = .ok path) raw paths)
    (h' : List.Forall₂ (fun raw path => parsePath u raw = .ok path) raw paths') : paths' = paths := by
  induction h generalizing paths' with
  | nil =>
      cases h'
      rfl
  | cons hparse _ ih =>
      cases h' with
      | cons hparse' hmore =>
          rw [hparse] at hparse'
          cases hparse'
          rw [ih hmore]

theorem forall₂_parsePath_text (hstable : u.Stable) :
    List.Forall₂ (fun raw path => parsePath u raw = .ok path) (paths.map (·.text)) paths := by
  induction paths with
  | nil => exact .nil
  | cons path paths ih =>
      refine .cons ?_ ih
      unfold parsePath
      rw [SecretPath.parse_text hstable]
      rfl

/-- An export of paths that succeeds answers with what the store has given for each of them. -/
theorem exportPaths_served (hstable : u.Stable) {acts : List (ApiAct u)} {response : ApiResponse}
    (h : Runs (exportPaths deployment headers (.ok (paths.map (·.text))) : Api u ApiResponse) acts
      (.ok response)) :
    ∃ entries, response = .exported entries ∧
      List.Forall₂ (fun (path : SecretPath u) entry => ∃ stored value,
        (⟨.get path none, .ok stored⟩ : ApiAct u) ∈ acts ∧
          decryptToText deployment stored = .ok value ∧
          entry = ⟨stored.path.text, stored.version.number, value⟩) paths entries := by
  generalize hresult : (Except.ok response : Except ApiError ApiResponse) = result at h
  cases runs_exportPaths h with
  | turnedAway => cases hresult
  | malformed caller raw refused _ _ _ hrefused =>
      obtain ⟨_, _, -, rfl⟩ := hrefused
      cases hresult
  | @checked front more _ caller raw found hbody hpresented hvalid hserved =>
      cases hbody
      have hfound : found = paths := forall₂_parsePath_unique (forall₂_parsePath_text hstable)
        (validateExportPaths_iff.mp hvalid).parsed
      rw [hfound] at hserved
      obtain ⟨exported, corrected, new, ended, rfl, hexporting,
        ⟨secrets, rfl, rfl, rfl⟩ | ⟨_, _, -, rfl, -⟩⟩ := runs_serveExport hserved
      · cases hresult
        refine ⟨secrets, rfl, (exporting_served hexporting rfl).2.imp ?_⟩
        rintro path entry ⟨stored, value, hmem, hvalue⟩
        rw [List.append_nil]
        exact ⟨stored, value, List.mem_append_right _ hmem, hvalue⟩
      · cases hresult

variable [ReservedPaths u] {δ ω φ : Type} [AuditDevice δ ω φ] {codec : Codec} {json : JsonExtract}
  {database : ω → Database} {between : Server δ ω → Server δ ω → Prop} {s last : Server δ ω}

/-- A request of the client, with what the service did about it. -/
abbrev Reading (u : Unicode) (δ ω : Type) :=
  Exchange (Server δ ω) ApiRequest (ApiCall u) ApiCall.Reply HttpError ApiResponse

def Reading.acts (reading : Reading u δ ω) : List (ApiAct u) := reading.turns.map (·.act)

/-- Every path that was asked for has its value read. -/
def ReadWhole (deployment : Deployment) (paths : List (SecretPath u)) (readings : List (Reading u δ ω))
    (result : Except SdkError (List (Secret u))) : Prop :=
  ∃ secrets, result = .ok secrets ∧ List.Forall₂ (fun path secret => ∃ reading ∈ readings,
    ∃ turn ∈ reading.turns, ReadValue deployment turn.before.secrets path secret) paths secrets

/-- No value has left the service, and no read that was allowed is left standing if the trail takes
what it is given. -/
def ReadNothing (readings : List (Reading u δ ω)) : Prop :=
  (∀ reading ∈ readings, ∃ error, reading.ended = .error error) ∧
    (Accepting (readings.flatMap Reading.acts) → Corrected (entries (readings.flatMap Reading.acts)))

/-- The client reads all or nothing where there is a bulk route, and sees where there is none. -/
structure BulkReads (deployment : Deployment) (paths : List (SecretPath u))
    (readings : List (Reading u δ ω)) (answered : Except HttpError ApiResponse)
    (result : Except SdkError (List (Secret u))) : Prop where
  surface : SurfaceMissing (Client.exported paths (.ok answered)) ↔ deployment.has "bulk_export" = false
  whole : deployment.has "bulk_export" = true →
    ReadWhole deployment paths readings result ∨ ReadNothing readings

/-- A run of the service that answers a request for an export. -/
theorem runs_serve_exportPaths {body : Except String (List String)} {acts : List (ApiAct u)}
    {ended : Except HttpError ApiResponse}
    (h : Runs (serve deployment headers (.exportPaths body) : Served u) acts ended) :
    ∃ result, ended = result.mapError .api ∧
      ((deployment.has "bulk_export" = true ∧
          Runs (exportPaths deployment headers body : Api u ApiResponse) acts result) ∨
        deployment.has "bulk_export" = false ∧
          Runs (refusedRequest deployment headers "unmatched-route" : Api u ApiResponse) acts
            result) := by
  unfold serve at h
  split at h
  · rename_i hroute
    obtain ⟨result, hruns, rfl⟩ := runs_mapError_iff.mp h
    exact ⟨result, rfl, .inl ⟨hroute, hruns⟩⟩
  · rename_i hroute
    obtain ⟨result, hruns, rfl⟩ := runs_mapError_iff.mp h
    exact ⟨result, rfl, .inr ⟨Bool.eq_false_iff.mpr hroute, hruns⟩⟩

theorem mapError_api_notFound {result : Except ApiError ApiResponse} :
    result.mapError HttpError.api = .error (.api .notFound) ↔ result = .error .notFound := by
  cases result with
  | ok response => exact iff_of_false nofun nofun
  | error error =>
      constructor
      · intro h
        cases h
        rfl
      · intro h
        cases h
        rfl

/-- The store has nothing to read under a path at present. -/
def SecretTables.Gone (tables : SecretTables) (path : SecretPath u) : Prop :=
  ∃ error, tables.get noFault path none = .error error ∧ ApiError.ofStore error = .notFound

/-- The database was able to answer for the value of a path, and has had none to answer with. -/
def Reading.Missed (reading : Reading u δ ω) : Prop :=
  ∃ turn ∈ reading.turns, ∃ path error, turn.act = ⟨.get path none, .error error⟩ ∧
    (∀ text, error ≠ .sqlite text) ∧ turn.before.secrets.Gone path

omit [ReservedPaths u] in
theorem missed_iff {ε α : Type} {script : Script (ApiCall u) ApiCall.Reply ε α}
    {result : Except ε α} {reading : Reading u δ ω}
    (h : Plays (Server.answer deployment codec json database) between s script reading.turns result
      last) :
    reading.Missed ↔ FoundMissing reading.acts := by
  constructor
  · rintro ⟨turn, hturn, path, error, hact, hanswered, failed, hget, hmissing⟩
    obtain ⟨outside, hreply, -⟩ := h.answered hturn
    rw [hact] at hreply
    have hfound : turn.before.secrets.get outside.secret path none = .error error := hreply.symm
    refine ⟨path, error, hact ▸ List.mem_map_of_mem hturn, ?_⟩
    rcases SecretTables.get_fault outside.secret turn.before.secrets path none with hsame | ⟨text, hfault⟩
    · rw [hsame, hget] at hfound
      cases hfound
      exact hmissing
    · rw [hfault] at hfound
      cases hfound
      exact absurd rfl (hanswered text)
  · rintro ⟨path, error, hmem, hmissing⟩
    obtain ⟨turn, hturn, hact⟩ := List.mem_map.mp hmem
    obtain ⟨outside, hreply, -⟩ := h.answered hturn
    rw [hact] at hreply
    have hfound : turn.before.secrets.get outside.secret path none = .error error := hreply.symm
    have hanswered : ∀ text, error ≠ .sqlite text := by
      rintro text rfl
      cases hmissing
    refine ⟨turn, hturn, path, error, hact, hanswered, error, ?_, hmissing⟩
    rcases SecretTables.get_fault outside.secret turn.before.secrets path none with hsame | ⟨text, hfault⟩
    · rwa [hsame] at hfound
    · rw [hfault] at hfound
      cases hfound
      exact absurd rfl (hanswered text)

/-- A bulk read that the client takes for its answer has read everything, or nothing. -/
theorem readWhole_or_readNothing (hstable : u.Stable) {reading : Reading u δ ω}
    {answered : Except ApiError ApiResponse} {result : Except SdkError (List (Secret u))}
    (hplays : Plays (Server.answer deployment codec json database) between s
      (serve deployment headers (.exportPaths (.ok (paths.map (·.text)))) : Served u) reading.turns
      reading.ended last)
    (hruns : Runs (exportPaths deployment headers (.ok (paths.map (·.text))) : Api u ApiResponse)
      reading.acts answered)
    (hended : reading.ended = answered.mapError .api)
    (hresult : result = Client.exported paths (.ok reading.ended)) :
    ReadWhole deployment paths [reading] result ∨ ReadNothing [reading] := by
  cases answered with
  | ok response =>
      obtain ⟨entries, rfl, hserved⟩ := exportPaths_served hstable hruns
      have hvalues : List.Forall₂ (fun path entry => ∃ turn ∈ reading.turns,
          CurrentValue deployment turn.before.secrets path entry) paths entries := by
        refine hserved.imp ?_
        rintro path entry ⟨stored, value, hmem, hvalue, rfl⟩
        obtain ⟨turn, hturn, hact⟩ := List.mem_map.mp hmem
        obtain ⟨outside, hreply, -⟩ := hplays.answered hturn
        rw [hact] at hreply
        exact ⟨turn, hturn, currentValue_of_get hreply.symm hvalue⟩
      obtain ⟨secrets, hsecrets, hreads⟩ := mapM_exportedSecret_of_currentValue hstable hvalues
      refine .inl ⟨secrets, ?_, hreads.imp ?_⟩
      · rw [hresult, hended]
        exact hsecrets
      · rintro path secret ⟨turn, hturn, hread⟩
        exact ⟨reading, List.mem_singleton_self _, turn, hturn, hread⟩
  | error error =>
      refine .inr ⟨?_, ?_⟩
      · intro other hmem
        rw [List.mem_singleton.mp hmem]
        exact ⟨_, hended⟩
      · intro haccepting
        rw [List.flatMap_singleton] at haccepting ⊢
        exact corrected_exportPaths hruns haccepting

/-- **When a bulk read through the client is all or nothing**, on a process that others use too: where
the service has the route, exactly if not the store misses a secret and the trail takes it all. -/
theorem readAll_iff (hstable : u.Stable) {readings : List (Reading u δ ω)}
    {result : Except SdkError (List (Secret u))}
    (h : Converses (Server.answer deployment codec json database) between (serve deployment headers)
      (fun _ ended => (.ok ended : Delivered)) s (Client.readAll paths) readings result last) :
    ∃ first later, readings = first :: later ∧
      first.request = .exportPaths (.ok (paths.map (·.text))) ∧
      (BulkReads deployment paths readings first.ended result ↔
        (deployment.has "bulk_export" = true → ¬ (first.Missed ∧ Accepting first.acts)) ∧
        (deployment.has "bulk_export" = false → Accepting first.acts)) := by
  obtain ⟨reply, rest, hacts, hread⟩ := Client.runs_readAll h.runs
  cases readings with
  | nil => cases hacts
  | cons first later =>
      obtain ⟨request, turns, ended⟩ := first
      rw [List.map_cons, List.cons.injEq, Sigma.mk.injEq] at hacts
      obtain ⟨⟨rfl, hreply⟩, rfl⟩ := hacts
      cases hreply
      refine ⟨⟨_, turns, ended⟩, later, rfl, rfl, ?_⟩
      obtain ⟨before, after, hplays⟩ := h.served (List.mem_cons_self ..)
      have hsane : Sane (turns.map (·.act)) := plays_sane hplays
      obtain ⟨answered, hended, hruns⟩ := runs_serve_exportPaths hplays.runs
      change ended = answered.mapError .api at hended
      have hmissing : SurfaceMissing (Client.exported paths (.ok ended)) ↔ answered = .error .notFound := by
        rw [Client.exported_surfaceMissing_iff, hended, mapError_api_notFound]
      rcases hruns with ⟨hroute, hruns⟩ | ⟨hroute, hruns⟩
      · have hfound := exportPaths_notFound_iff hruns hsane
        have hmissed : Reading.Missed (⟨.exportPaths (.ok (paths.map (·.text))), turns, ended⟩ :
            Reading u δ ω) ↔ FoundMissing (turns.map (·.act)) :=
          missed_iff hplays
        constructor
        · rintro ⟨hsurface, -⟩
          refine ⟨fun _ hboth => ?_, fun hno => ?_⟩
          · have hno := hsurface.mp (hmissing.mpr (hfound.mpr ⟨hmissed.mp hboth.1, hboth.2⟩))
            rw [hroute] at hno
            cases hno
          · rw [hroute] at hno
            cases hno
        · rintro ⟨hnone, -⟩
          have hpresent : ¬ SurfaceMissing (Client.exported paths (.ok ended)) := fun hsurface =>
            have hboth := hfound.mp (hmissing.mp hsurface)
            hnone hroute ⟨hmissed.mpr hboth.1, hboth.2⟩
          obtain ⟨hsurface, -⟩ | ⟨-, hlater, hresult⟩ := hread
          · exact absurd hsurface hpresent
          · rw [List.map_eq_nil_iff.mp hlater]
            refine ⟨iff_of_false hpresent ?_, fun _ => ?_⟩
            · rw [hroute]
              exact nofun
            · exact readWhole_or_readNothing hstable hplays hruns hended hresult
      · have hfound := refusedRequest_notFound_iff hruns hsane
        constructor
        · rintro ⟨hsurface, -⟩
          refine ⟨fun hyes => ?_, fun _ => hfound.mp (hmissing.mp (hsurface.mpr hroute))⟩
          rw [hroute] at hyes
          cases hyes
        · rintro ⟨-, haccepting⟩
          refine ⟨iff_of_true (hmissing.mpr (hfound.mpr (haccepting hroute))) hroute, fun hyes => ?_⟩
          rw [hroute] at hyes
          cases hyes

end Reading

namespace Sample

/-- A bulk read of some paths, while nothing fails and nobody else is there. -/
def bulkRead (paths : List (SecretPath asciiUnicode)) :=
  converse bulkAnswer (serve readable headers)
    (fun _ ended => (.ok ended : Delivered)) (List.replicate 3 (List.replicate 10 calm)) stocked
    (Client.readAll paths)

/-- The call is no failed read of a value. -/
def getsValue : ApiAct asciiUnicode → Bool
  | ⟨.get _ _, .error _⟩ => false
  | _ => true

/-- Both values of the store are read, in one request. -/
theorem stocked_bulkReads : ∃ readings secrets last,
    Converses bulkAnswer (· = ·) (serve readable headers) (fun _ ended => (.ok ended : Delivered))
        stocked (Client.readAll [dbPath, keyPath]) readings (.ok secrets) last ∧
      secrets.map (·.value) = [utf8 "hunter2", utf8 "s3cret"] ∧ last.app.trail = [readClaim dbPath, readClaim keyPath] ∧
      ∃ first later, readings = first :: later ∧
        BulkReads readable [dbPath, keyPath] readings first.ended (.ok secrets) := by
  have hrun : (bulkRead [dbPath, keyPath]).map (fun bulk => (bulk.2.1.toOption.map (·.map (·.value)),
      bulk.2.2.app.trail, bulk.1.all fun reading => (Reading.acts reading).all getsValue)) =
        some (some [utf8 "hunter2", utf8 "s3cret"], [readClaim dbPath, readClaim keyPath], true) := by
    decide +kernel
  cases hbulk : bulkRead [dbPath, keyPath] with
  | none =>
      rw [hbulk] at hrun
      cases hrun
  | some bulk =>
      obtain ⟨readings, result, last⟩ := bulk
      rw [hbulk, Option.map_some, Option.some.injEq, Prod.mk.injEq, Prod.mk.injEq] at hrun
      obtain ⟨hresult, htrail, hall⟩ := hrun
      have hconverses : Converses bulkAnswer (· = ·) (serve readable headers)
          (fun _ ended => (.ok ended : Delivered)) stocked (Client.readAll [dbPath, keyPath]) readings result last :=
        converses_of_converse (fun _ => rfl) hbulk
      cases result with
      | error error => cases hresult
      | ok secrets =>
          obtain ⟨first, later, hfirst, -, hiff⟩ := readAll_iff asciiUnicode_stable hconverses
          refine ⟨readings, secrets, last, hconverses, Option.some.inj hresult, htrail, first, later,
            hfirst, hiff.mpr ⟨?_, fun hno => by cases hno⟩⟩
          rintro - ⟨⟨turn, hturn, path, error, hact, -⟩, -⟩
          rw [hfirst, List.all_cons, Bool.and_eq_true] at hall
          have hgot := List.all_eq_true.mp hall.1 turn.act (List.mem_map_of_mem hturn)
          rw [hact] at hgot
          cases hgot

/-- The service has a bulk route, the store has one of two secrets: the client takes the answer for one
of a service without the route, and reads the secret that is there before it fails. -/
theorem gone_readsInPart : readable.has "bulk_export" = true ∧ ∃ first readings error last,
    Converses bulkAnswer (· = ·) (serve readable headers) (fun _ ended => (.ok ended : Delivered))
        stocked (Client.readAll [dbPath, gonePath]) (first :: readings) (.error error) last ∧
      readings.map (·.ended.toOption) = [some (.secret ⟨"infra/DB", 1, "hunter2", 0, "ci"⟩), none] ∧
      last.app.trail = [readClaim dbPath, readClaim gonePath, readTakenBack dbPath "not-served",
        readTakenBack gonePath "not-served", readClaim dbPath, readClaim gonePath,
        readTakenBack gonePath "not-found"] ∧
      ¬ BulkReads readable [dbPath, gonePath] (first :: readings) first.ended (.error error) := by
  refine ⟨rfl, ?_⟩
  have hrun : (bulkRead [dbPath, gonePath]).map (fun bulk => (bulk.2.1.toOption.isSome,
      bulk.1.tail.map (·.ended.toOption), bulk.1.isEmpty, bulk.2.2.app.trail)) =
        some (false, [some (.secret ⟨"infra/DB", 1, "hunter2", 0, "ci"⟩), none], false,
          [readClaim dbPath, readClaim gonePath, readTakenBack dbPath "not-served",
            readTakenBack gonePath "not-served", readClaim dbPath, readClaim gonePath,
            readTakenBack gonePath "not-found"]) := by
    decide +kernel
  cases hbulk : bulkRead [dbPath, gonePath] with
  | none =>
      rw [hbulk] at hrun
      cases hrun
  | some bulk =>
      obtain ⟨readings, result, last⟩ := bulk
      rw [hbulk, Option.map_some, Option.some.injEq, Prod.mk.injEq, Prod.mk.injEq,
        Prod.mk.injEq] at hrun
      obtain ⟨hresult, hended, hnonempty, htrail⟩ := hrun
      have hconverses : Converses bulkAnswer (· = ·) (serve readable headers)
          (fun _ ended => (.ok ended : Delivered)) stocked (Client.readAll [dbPath, gonePath]) readings
          result last := converses_of_converse (fun _ => rfl) hbulk
      cases result with
      | ok secrets => cases hresult
      | error error =>
          cases readings with
          | nil => cases hnonempty
          | cons first readings =>
              refine ⟨first, readings, error, last, hconverses, hended, htrail, ?_⟩
              rintro ⟨-, hwhole⟩
              rcases hwhole rfl with ⟨_, hok, -⟩ | ⟨hnothing, -⟩
              · cases hok
              · cases readings with
                | nil => cases hended
                | cons second readings =>
                    obtain ⟨failed, hfailed⟩ := hnothing second (by simp)
                    rw [List.tail_cons, List.map_cons, hfailed] at hended
                    cases hended

end Sample

end Ciphr
