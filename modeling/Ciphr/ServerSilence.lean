import Ciphr.ServerCorrections

/-!
Whether a caller who is known and is answered with an error has left an entry that says so.
-/

namespace Ciphr

open Script

namespace ApiRequest

/-- An extractor makes nothing of a part of the request. -/
def rejected : ApiRequest → Bool
  | .readSecret (.error _) _ | .readSecret _ (.error _) | .writeSecret (.error _) _
  | .deleteSecret (.error _) _ | .deleteSecret _ (.error _) | .listVersions (.error _)
  | .listPaths (.error _) _ | .listPaths _ (.error _) | .readAudit (.error _)
  | .readTokens (.error _) | .revokeToken (.error _) => true
  | _ => false

end ApiRequest

section Answers

variable {u : Unicode} {deployment : Deployment} {headers : Headers} {caller : Caller}
  {action : Action} {capability : Capability} {path : SecretPath u} {acts : List (ApiAct u)}

/-- An entry that says no, and names the principal. -/
def Recorded (principal : Principal) (acts : List (ApiAct u)) : Prop :=
  ∃ entry ∈ entries acts, entry.allowed = false ∧ entry.principal = some principal

/-- The provider whose signature a presented token carries. -/
def VouchedBy (deployment : Deployment) (login : OidcLoginRequest) (now : Int) (provider : String) :
    Prop :=
  match deployment.federation.exchange deployment.libraries login.idToken now with
  | .unverifiable _ => False
  | .refused name _ _ => name = provider
  | .accepted accepted => accepted.provider = provider

/-- Whose credential the request carries: that of a caller the token table knows, or, for a login, the
token of a provider. -/
inductive Identified (deployment : Deployment) (headers : Headers) (acts : List (ApiAct u)) :
    ApiRequest → Principal → Prop where
  | caller (request : ApiRequest) (one : Authenticated) (hone : Authenticates headers one acts)
      (hother : ∀ login, request = .oidcLogin (.ok login) →
        request.registered deployment = false) :
      Identified deployment headers acts request (deployment.callerOf one).asPrincipal
  | provider (login : OidcLoginRequest) (now : Int) (provider : String)
      (hroute : deployment.has oidcSurfaceEntry = true)
      (hnow : (⟨.nowMillis, now⟩ : ApiAct u) ∈ acts)
      (hvouched : VouchedBy deployment login now provider) :
      Identified deployment headers acts (.oidcLogin (.ok login))
        ⟨"oidc:" ++ provider, some "oidc", none⟩

variable [ReservedPaths u]

/-- The requests that a handler refuses without an entry that says so. -/
def SilentlyRefused (deployment : Deployment) (headers : Headers) (acts : List (ApiAct u)) :
    ApiRequest → Prop
  | .readSecret (.ok raw) (.ok query) => ∃ path : SecretPath u, parsePath u raw = .ok path ∧
      -- the bait cannot be looked up, or the decision is followed by a version that cannot be
      ((∃ failed, (⟨.honeypotTier path, .error failed⟩ : ApiAct u) ∈ acts) ∨
        query.version = some 0 ∧ Granted deployment headers .read path acts)
  | .writeSecret (.ok raw) (.ok body) => ∃ path : SecretPath u, parsePath u raw = .ok path ∧
      ∃ refused, writeCheck body.rotation path = .error refused
  | .deleteSecret (.ok raw) (.ok _) => ∃ path : SecretPath u, parsePath u raw = .ok path ∧
      ∃ refused, refuseReserved path = .error refused
  | .listPaths (.ok raw) (.ok rotation) => ∃ start : SecretPath u, parsePath u raw = .ok start ∧
      ((∃ refused, parseRotation rotation = .error refused) ∨
        ∃ failed, (⟨.listWithRotation (some start), .error failed⟩ : ApiAct u) ∈ acts)
  | .exportPaths (.ok raw) => ∃ (first : SecretPath u) (rest : List (SecretPath u)),
      validateExportPaths u raw = .ok (first :: rest) ∧
        ∃ failed, (⟨.honeypotTier first, .error failed⟩ : ApiAct u) ∈ acts
  | .readAudit (.ok query) => (∃ refused, auditFilter query = .error refused) ∧
      Granted deployment headers .inspect (reservedPath .audit : SecretPath u) acts
  | .readTokens (.ok identity) =>
      (∃ failed, (⟨.tokens identity, .error failed⟩ : ApiAct u) ∈ acts) ∧
        Granted deployment headers .inspect (reservedPath .tokens : SecretPath u) acts
  | .revokeToken (.ok tokenId) =>
      (∃ failed, (⟨.token tokenId, .error failed⟩ : ApiAct u) ∈ acts) ∨
        -- what was asked is on the trail, as allowed and of nobody
        (⟨.token tokenId, .ok none⟩ : ApiAct u) ∈ acts ∧
          Granted deployment headers .revoke (reservedPath .tokens : SecretPath u) acts
  | .oidcLogin (.ok login) => (∃ refused, askedMillis login.ttlSeconds = .error refused) ∨
      ∃ now accepted, (⟨.nowMillis, now⟩ : ApiAct u) ∈ acts ∧
        deployment.federation.exchange deployment.libraries login.idToken now = .accepted accepted ∧
        (⟨.generateToken, none⟩ : ApiAct u) ∈ acts
  | request => request.rejected = true

omit [ReservedPaths u]

/-! ### Entries -/

theorem not_named_of_allowed (h : ∀ entry ∈ entries acts, entry.allowed = true) :
    ¬ Named caller acts := by
  rintro ⟨entry, hmem, hallowed, -⟩
  rw [h entry hmem] at hallowed
  cases hallowed

theorem Quiet.not_named (h : Quiet acts) : ¬ Named caller acts := by
  rintro ⟨entry, hmem, -⟩
  rw [h.entries] at hmem
  cases hmem

theorem decisionEntry_principal {subject : Option Principal} {request : RequestContext}
    {decision : Decision} {bait : Option HoneypotTier} :
    (decisionEntry caller action path subject request decision bait).principal =
      some caller.asPrincipal := by
  unfold decisionEntry Entry.withRule? Entry.withSubject?
  cases decision.isAllowed <;> cases bait <;> cases subject <;> cases decision.rule <;> rfl

theorem RefusedWith.lookedUp {α : Type} {entry : Entry} {result : Except ApiError α}
    (h : RefusedWith entry acts result) : LookedUp acts := by
  obtain ⟨reply, error, rfl, -⟩ := h
  exact lookedUp_cons (fun _ _ heq => by cases heq) lookedUp_nil

/-- An access that was not allowed is on the trail as a denial, unless the bait could not be looked
up. -/
theorem DecidedFor.error_cases {subject : Option Principal} {error : ApiError}
    (h : DecidedFor deployment headers caller action capability path subject acts (.error error))
    (haccepting : Accepting acts) :
    (entries acts = [] ∧ capability = .read ∧
        ∃ failed, (⟨.honeypotTier path, .error failed⟩ : ApiAct u) ∈ acts) ∨
      Named caller acts ∧ LookedUp acts := by
  obtain ⟨front, looked, decided, rfl, hpresented, hlooked, hlookedUp, hdecided⟩ := h
  cases hdecided with
  | lookupFailed failed _ _ hread =>
      refine .inl ⟨?_, hread, failed, by simp⟩
      rw [entries_append, hpresented.quiet.entries, entries_append, hlooked.entries]
      rfl
  | unrecorded look bait refused hlook =>
      exact absurd (accepting_append.mp (accepting_append.mp (accepting_append.mp haccepting).2).2).2
        not_accepting_record
  | denied hdenied =>
      have hnamed : Named caller [(⟨.record (decisionEntry caller action path subject
          headers.requestContext (deployment.authorize caller capability path) none), .ok ()⟩ :
          ApiAct u)] := by
        refine ⟨_, List.mem_singleton_self _, ?_, decisionEntry_principal⟩
        rw [decisionEntry_allowed]
        exact hdenied
      exact .inr ⟨hnamed.append_left.append_left, lookedUp_append hpresented.lookedUp
        (lookedUp_append hlookedUp (lookedUp_cons (fun _ _ heq => by cases heq) lookedUp_nil))⟩

theorem Named.append_right {more : List (ApiAct u)} (h : Named caller acts) :
    Named caller (acts ++ more) := by
  obtain ⟨entry, hmem, hentry⟩ := h
  refine ⟨entry, ?_, hentry⟩
  rw [entries_append]
  exact List.mem_append_left _ hmem

theorem Named.cons {act : ApiAct u} (h : Named caller acts) : Named caller (act :: acts) := by
  change Named caller ([act] ++ acts)
  exact h.append_left

theorem RefusedWith.named_outcome {α : Type} {request : RequestContext} {status : Nat}
    {reason : String} {result : Except ApiError α}
    (h : RefusedWith (outcomeEntry caller action (some path) request status (some reason)) acts result)
    (haccepting : Accepting acts) : Named caller acts :=
  h.named rfl rfl haccepting

/-- Work that was taken back, or done. -/
theorem named_completeOrRecord {α : Type} {request : RequestContext} {reason : String}
    {work : Api u α} {error : ApiError}
    (h : Runs (completeOrRecord caller action path request reason work) acts (.error error))
    (haccepting : Accepting acts) : Named caller acts := by
  rcases runs_completeOrRecord h with ⟨_, -, hok⟩ | ⟨_, worked, corrected, rfl, -, hrefused⟩
  · cases hok
  · exact (hrefused.named_outcome (accepting_append.mp haccepting).2).append_left

/-! ### Handlers -/

section Handlers

variable {one : Authenticated} {error : ApiError}

/-- A request that names a path, and whose capability takes no bait, is refused with an entry, unless
the path itself is refused. -/
theorem Gated.named_iff {α β : Type} {raw : String} {check : SecretPath u → Except ApiError β}
    {rest : Caller → SecretPath u → β → Api u α}
    (h : Gated deployment headers action capability raw check rest acts (.error error))
    (haccepting : Accepting acts) (hone : Authenticates headers one acts)
    (hcapability : capability ≠ .read)
    (hrest : ∀ caller path b more, Runs (rest caller path b) more (.error error) →
      (deployment.authorize caller capability path).isAllowed = true → Accepting more →
      Named caller more) :
    Named (deployment.callerOf one) acts ↔
      ¬ ∃ path : SecretPath u, parsePath u raw = .ok path ∧ ∃ refused, check path = .error refused := by
  cases h with
  | turnedAway _ haway hwhy =>
      refine iff_of_true (haway.named one hone haccepting) ?_
      rintro ⟨path, hparse, -⟩
      rcases hwhy with hunknown | ⟨refused, hrefused⟩
      · exact hunknown.authenticates one hone
      · rw [hparse] at hrefused
        cases hrefused
  | unchecked caller path _ hpresented hparse hcheck =>
      exact iff_of_false hpresented.quiet.not_named (not_not_intro ⟨path, hparse, _, hcheck⟩)
  | undecided caller path b _ hparse hcheck hdecided =>
      rcases hdecided.error_cases haccepting with ⟨-, hread, -⟩ | ⟨hnamed, -⟩
      · exact absurd hread hcapability
      · rw [hdecided.known.eq_callerOf hone] at hnamed
        refine iff_of_true hnamed ?_
        rintro ⟨other, hother, refused, hrefused⟩
        rw [hparse, Except.ok.injEq] at hother
        rw [← hother, hcheck] at hrefused
        cases hrefused
  | admitted caller path b hparse hcheck hadmitted hmore =>
      have hnamed := hrest caller path b _ hmore hadmitted.entries_ok.1 (accepting_append.mp haccepting).2
      rw [hadmitted.known.eq_callerOf hone.of_append.1] at hnamed
      refine iff_of_true hnamed.append_left ?_
      rintro ⟨other, hother, refused, hrefused⟩
      rw [hparse, Except.ok.injEq] at hother
      rw [← hother, hcheck] at hrefused
      cases hrefused

variable [ReservedPaths u]

theorem readSecret_named_iff {raw : String} {query : VersionQuery}
    (h : Runs (readSecret deployment headers raw query : Api u ApiResponse) acts (.error error))
    (haccepting : Accepting acts) (hone : Authenticates headers one acts) :
    Named (deployment.callerOf one) acts ↔
      ¬ SilentlyRefused deployment headers acts (.readSecret (.ok raw) (.ok query)) := by
  cases runs_readSecret h with
  | turnedAway _ haway hwhy =>
      refine iff_of_true (haway.named one hone haccepting) ?_
      rintro ⟨path, hparse, -⟩
      rcases hwhy with hunknown | ⟨refused, hrefused⟩
      · exact hunknown.authenticates one hone
      · rw [hparse] at hrefused
        cases hrefused
  | unchecked _ _ _ _ _ hcheck => cases hcheck
  | undecided caller path _ _ hparse _ hdecided =>
      rcases hdecided.error_cases haccepting with ⟨hnothing, -, hfailed⟩ | ⟨hnamed, hlookedUp⟩
      · refine iff_of_false ?_ (not_not_intro ⟨path, hparse, .inl hfailed⟩)
        apply not_named_of_allowed
        rw [hnothing]
        intro entry hmem
        cases hmem
      · rw [hdecided.known.eq_callerOf hone] at hnamed
        refine iff_of_true hnamed ?_
        rintro ⟨other, hother, ⟨failed, hfailed⟩ | ⟨-, hgranted⟩⟩
        · rw [hparse, Except.ok.injEq] at hother
          rw [← hother] at hfailed
          exact hlookedUp _ failed hfailed
        · rw [hparse, Except.ok.injEq] at hother
          rw [← hother] at hgranted
          exact hdecided.not_granted haccepting hgranted
  | admitted caller path _ hparse _ hadmitted hmore =>
      have hgranted := hadmitted.granted
      obtain ⟨hallowed, bait, -, hentries⟩ := hadmitted.entries_ok
      rcases runs_bind_iff.mp hmore with ⟨e, hparsed, -⟩ | ⟨version, asked, rest, rfl, hparsed, hserve⟩
      · obtain ⟨rfl, hrefused⟩ := runs_ofExcept_iff.mp hparsed
        refine iff_of_false ?_ (not_not_intro ⟨path, hparse, .inr ⟨?_, ?_⟩⟩)
        · apply not_named_of_allowed
          rw [List.append_nil, hentries]
          intro entry hmem
          rw [List.mem_singleton.mp hmem, decisionEntry_allowed]
          exact hallowed
        · by_contra hquery
          exact parsed_ne_error hquery e hrefused.symm
        · rw [List.append_nil]
          exact hgranted
      · obtain ⟨rfl, hversion⟩ := runs_ofExcept_iff.mp hparsed
        rcases runs_serveSecret hserve with ⟨_, _, -, -, hok⟩ |
          ⟨outcome, corrected, status, reason, rfl, hrefused⟩
        · cases hok
        · have hnamed := hrefused.named_outcome fun entry refused hmem =>
            haccepting entry refused (List.mem_append_right _ (List.mem_cons_of_mem _ hmem))
          rw [hadmitted.known.eq_callerOf hone.of_append.1] at hnamed
          refine iff_of_true (hnamed.cons.append_left) ?_
          rintro ⟨other, hother, ⟨failed, hfailed⟩ | ⟨hzero, -⟩⟩
          · rw [hparse, Except.ok.injEq] at hother
            obtain ⟨-, -, -, hlookedUp⟩ := hgranted
            rw [← hother] at hfailed
            have hlater : LookedUp (⟨.get path version, outcome⟩ :: corrected) :=
              lookedUp_cons (fun _ _ heq => by cases heq) hrefused.lookedUp
            exact lookedUp_append hlookedUp hlater _ failed hfailed
          · obtain ⟨number⟩ := query
            cases hzero
            cases hversion

theorem writeSecret_named_iff {raw : String} {body : Except String SecretBody}
    (h : Runs (writeSecret deployment headers raw body : Api u ApiResponse) acts (.error error))
    (haccepting : Accepting acts) (hone : Authenticates headers one acts) :
    Named (deployment.callerOf one) acts ↔
      ¬ SilentlyRefused deployment headers acts (.writeSecret (.ok raw) body) := by
  rcases runs_writeSecret h with ⟨_, ⟨text, rfl⟩, -, haway⟩ | ⟨parsed, rfl, hgated⟩
  · exact iff_of_true (haway.named one hone haccepting) nofun
  · refine hgated.named_iff haccepting hone nofun ?_
    intro caller path rotation more hmore hallowed haccepting
    rcases runs_classifyAndStore hmore with ⟨_, -, hundecided⟩ | ⟨classified, stored, rfl, -, hstore⟩
    · cases hundecided with
      | lookupFailed _ _ _ hread => cases hread
      | unrecorded look bait refused hlook =>
          exact absurd (accepting_append.mp haccepting).2 not_accepting_record
      | denied hdenied =>
          rw [hallowed] at hdenied
          cases hdenied
    · obtain ⟨outcome, corrected, rfl, -, ⟨_, -, -, hok⟩ | ⟨-, hcorrected⟩⟩ := runs_storeSecret hstore
      · cases hok
      · obtain ⟨status, hentries⟩ := hcorrected (accepting_append.mp haccepting).2
        refine Named.append_left ⟨outcomeEntry caller .write (some path) headers.requestContext status
          (some "write-failed"), ?_, rfl, rfl⟩
        rw [hentries]
        exact List.mem_cons_self ..

theorem deleteSecret_named_iff {raw : String} {query : VersionQuery}
    (h : Runs (deleteSecret deployment headers raw query : Api u ApiResponse) acts (.error error))
    (haccepting : Accepting acts) (hone : Authenticates headers one acts) :
    Named (deployment.callerOf one) acts ↔
      ¬ SilentlyRefused deployment headers acts (.deleteSecret (.ok raw) (.ok query)) := by
  refine (runs_deleteSecret h).named_iff haccepting hone nofun ?_
  intro caller path _ more hmore _ haccepting
  rcases runs_bind_iff.mp hmore with ⟨e, hcomplete, -⟩ | ⟨_, _, _, -, -, hpure⟩
  · exact named_completeOrRecord hcomplete haccepting
  · cases (runs_pure_iff.mp hpure).2

omit [ReservedPaths u] in
theorem listVersions_named {raw : String}
    (h : Runs (listVersions deployment headers raw : Api u ApiResponse) acts (.error error))
    (haccepting : Accepting acts) (hone : Authenticates headers one acts) :
    Named (deployment.callerOf one) acts := by
  obtain ⟨_, hgated⟩ := runs_listVersions h
  refine (hgated.named_iff haccepting hone nofun ?_).mpr ?_
  · intro caller path _ more hmore _ haccepting
    rcases runs_bind_iff.mp hmore with ⟨e, hcomplete, -⟩ | ⟨_, _, _, -, -, hpure⟩
    · exact named_completeOrRecord hcomplete haccepting
    · cases (runs_pure_iff.mp hpure).2
  · rintro ⟨_, -, _, hcheck⟩
    cases hcheck

theorem listPaths_named_iff {raw : String} {rotation : Option String}
    (h : Runs (listPaths deployment headers raw rotation : Api u ApiResponse) acts (.error error))
    (haccepting : Accepting acts) (hone : Authenticates headers one acts) :
    Named (deployment.callerOf one) acts ↔
      ¬ SilentlyRefused deployment headers acts (.listPaths (.ok raw) (.ok rotation)) := by
  generalize hresult : (Except.error error : Except ApiError ApiResponse) = result at h
  cases runs_listPaths h with
  | turnedAway _ haway hwhy =>
      refine iff_of_true (haway.named one hone haccepting) ?_
      rintro ⟨start, hparse, -⟩
      rcases hwhy with hunknown | ⟨refused, hrefused⟩
      · exact hunknown.authenticates one hone
      · rw [hparse] at hrefused
        cases hrefused
  | unclassed _ start refused hpresented hparse hclass =>
      exact iff_of_false hpresented.quiet.not_named
        (not_not_intro ⟨start, hparse, .inl ⟨refused, hclass⟩⟩)
  | unanswered _ start failed hpresented hparse =>
      refine iff_of_false (Quiet.not_named ?_)
        (not_not_intro ⟨start, hparse, .inr ⟨failed, by simp⟩⟩)
      exact quiet_append hpresented.quiet (quiet_singleton rfl)
  | answered caller start wanted listed reply hpresented =>
      cases reply with
      | ok => cases hresult
      | error refused =>
          exact (haccepting _ refused (List.mem_append_right _
            (List.mem_cons_of_mem _ (List.mem_singleton_self _)))).elim

omit [ReservedPaths u] in
/-- An export that fails has named its caller, unless its first path could not be looked up. -/
theorem exporting_error_cases {request : RequestContext} {first : SecretPath u}
    {rest new : List (SecretPath u)} {bytes : Nat} {ended : Except ApiError (List ExportedSecret)}
    (h : Exporting deployment caller request (first :: rest) bytes acts new ended)
    (hended : ended = .error error) (hfirst : first ∉ rest) (haccepting : Accepting acts) :
    (entries acts = [] ∧ new = [] ∧ ∃ failed, (⟨.honeypotTier first, .error failed⟩ : ApiAct u) ∈ acts) ∨
      (Named caller acts ∨ new ≠ []) ∧
        ∀ failed, (⟨.honeypotTier first, .error failed⟩ : ApiAct u) ∉ acts := by
  cases h with
  | undecided _ _ _ hdecided =>
      cases hdecided with
      | lookupFailed failed => exact .inl ⟨rfl, rfl, failed, List.mem_singleton_self _⟩
      | unrecorded => exact absurd (accepting_append.mp haccepting).2 not_accepting_record
      | denied hdenied =>
          refine .inr ⟨.inl ⟨_, List.mem_singleton_self _, ?_, decisionEntry_principal⟩, ?_⟩
          · rw [decisionEntry_allowed]
            exact hdenied
          · exact lookedUp_cons (fun _ _ heq => by cases heq) lookedUp_nil first
  | unserved _ _ _ hdecided hasked =>
      obtain ⟨outcome, rfl, -⟩ := runs_exportSecret hasked
      refine .inr ⟨.inr nofun, ?_⟩
      exact lookedUp_append hdecided.lookedUp
        (lookedUp_cons (fun _ _ heq => by cases heq) lookedUp_nil) first
  | served hdecided hasked hrest =>
      obtain ⟨outcome, rfl, -⟩ := runs_exportSecret hasked
      refine .inr ⟨.inr nofun, fun failed hmem => ?_⟩
      rcases List.mem_append.mp hmem with hmem | hmem
      · exact hdecided.lookedUp first failed hmem
      · rcases List.mem_cons.mp hmem with heq | hmem
        · cases heq
        · exact hfirst (hrest.looks hmem (accepting_append.mp (accepting_append.mp haccepting).2).2)

theorem exportPaths_named_iff {body : Except String (List String)}
    (h : Runs (exportPaths deployment headers body : Api u ApiResponse) acts (.error error))
    (haccepting : Accepting acts) (hone : Authenticates headers one acts) :
    Named (deployment.callerOf one) acts ↔
      ¬ SilentlyRefused deployment headers acts (.exportPaths body) := by
  cases runs_exportPaths h with
  | turnedAway _ haway hwhy =>
      refine iff_of_true (haway.named one hone haccepting) ?_
      rcases hwhy with hunknown | ⟨text, rfl⟩
      · exact absurd hone (hunknown.authenticates one)
      · nofun
  | malformed caller raw refused hbody hpresented hinvalid hrefused =>
      have hnamed := hrefused.named rfl rfl (accepting_append.mp haccepting).2
      rw [hpresented.eq_callerOf hone.of_append.1] at hnamed
      refine iff_of_true hnamed.append_left ?_
      subst hbody
      rintro ⟨first, rest, hvalid, -⟩
      rw [hinvalid] at hvalid
      cases hvalid
  | checked caller raw paths hbody hpresented hvalid hserved =>
      subst hbody
      obtain ⟨hnonempty, -, hnodup, -⟩ := validateExportPaths_eq_ok hvalid
      obtain ⟨first, rest, rfl⟩ := List.exists_cons_of_ne_nil hnonempty
      obtain ⟨exported, corrected, new, ended, rfl, hexporting, hended⟩ := runs_serveExport hserved
      obtain ⟨hexported, hcorrected⟩ := accepting_append.mp (accepting_append.mp haccepting).2
      have hcaller := hpresented.eq_callerOf hone.of_append.1
      rcases hended with ⟨_, -, -, hok⟩ | ⟨failed, answer, hfailed, -, -, hlookedUp, hcorrections⟩
      · cases hok
      · have hcommitted := (hcorrections hcorrected).2
        rcases exporting_error_cases hexporting hfailed (List.nodup_cons.mp hnodup).1 hexported with
          ⟨hnothing, rfl, lookup, hlookup⟩ | ⟨hnamed, hnever⟩
        · refine iff_of_false ?_ (not_not_intro ⟨first, rest, hvalid, lookup, ?_⟩)
          · rintro ⟨entry, hmem, -⟩
            rw [entries_append, hpresented.quiet.entries, entries_append, hnothing, hcommitted] at hmem
            cases hmem
          · exact List.mem_append_right _ (List.mem_append_left _ hlookup)
        · refine iff_of_true ?_ ?_
          · rw [← hcaller]
            rcases hnamed with hnamed | hnew
            · exact hnamed.append_right.append_left
            · obtain ⟨path, later, rfl⟩ := List.exists_cons_of_ne_nil hnew
              refine Named.append_left (Named.append_left ⟨outcomeEntry caller .read (some path)
                headers.requestContext failed.status (some "not-served"), ?_, rfl, rfl⟩)
              rw [hcommitted]
              exact List.mem_cons_self ..
          · rintro ⟨other, others, hother, lookup, hlookup⟩
            rw [hvalid] at hother
            cases hother
            rcases List.mem_append.mp hlookup with hmem | hmem
            · exact hpresented.lookedUp first lookup hmem
            · rcases List.mem_append.mp hmem with hmem | hmem
              · exact hnever lookup hmem
              · exact hlookedUp first lookup hmem

/-- A virtual path: who may not inspect it is denied on the trail. -/
theorem Inspected.named {name : ReservedName} {serve : Caller → SecretPath u → Api u ApiResponse}
    (h : Inspected deployment headers name serve acts (.error error)) (haccepting : Accepting acts)
    (hone : Authenticates headers one acts) :
    (Named (deployment.callerOf one) acts ∧
        ¬ Granted deployment headers .inspect (reservedPath name : SecretPath u) acts) ∨
      ∃ front more, acts = front ++ more ∧
        DecidedFor deployment headers (deployment.callerOf one) .read .inspect (reservedPath name)
          none front (.ok ()) ∧ Runs (serve (deployment.callerOf one) (reservedPath name)) more
            (.error error) := by
  cases h with
  | turnedAway _ haway hunknown => exact absurd hone (hunknown.authenticates one)
  | undecided caller _ hdecided =>
      rcases hdecided.error_cases haccepting with ⟨-, hread, -⟩ | ⟨hnamed, -⟩
      · cases hread
      · rw [hdecided.known.eq_callerOf hone] at hnamed
        exact .inl ⟨hnamed, hdecided.not_granted haccepting⟩
  | @admitted front more _ caller hadmitted hmore =>
      have hcaller := hadmitted.known.eq_callerOf hone.of_append.1
      subst hcaller
      exact .inr ⟨front, more, rfl, hadmitted, hmore⟩

theorem inspecting_named {name : ReservedName} {answer : ApiResponse}
    (h : Runs (inspecting deployment headers name fun _ _ => pure answer : Api u ApiResponse) acts
      (.error error))
    (haccepting : Accepting acts) (hone : Authenticates headers one acts) :
    Named (deployment.callerOf one) acts := by
  rcases (runs_inspecting h).named haccepting hone with ⟨hnamed, -⟩ | ⟨front, more, rfl, -, hmore⟩
  · exact hnamed
  · cases (runs_pure_iff.mp hmore).2

theorem readHoneypots_named
    (h : Runs (readHoneypots deployment headers : Api u ApiResponse) acts (.error error))
    (haccepting : Accepting acts) (hone : Authenticates headers one acts) :
    Named (deployment.callerOf one) acts := by
  rcases (runs_inspecting h).named haccepting hone with ⟨hnamed, -⟩ | ⟨front, more, rfl, -, hmore⟩
  · exact hnamed
  · rcases runs_bind_iff.mp hmore with ⟨e, hcomplete, -⟩ | ⟨_, _, _, -, -, hpure⟩
    · exact (named_completeOrRecord hcomplete (accepting_append.mp haccepting).2).append_left
    · cases (runs_pure_iff.mp hpure).2

omit [ReservedPaths u] in
/-- An access that was allowed, followed by nothing that says no. -/
theorem DecidedFor.not_named {front more : List (ApiAct u)} {subject : Option Principal}
    (h : DecidedFor deployment headers caller action capability path subject front (.ok ()))
    (hmore : entries more = []) {other : Caller} : ¬ Named other (front ++ more) := by
  obtain ⟨hallowed, bait, -, hentries⟩ := h.entries_ok
  apply not_named_of_allowed
  rw [entries_append, hentries, hmore]
  intro entry hmem
  rw [List.mem_singleton.mp hmem, decisionEntry_allowed]
  exact hallowed

theorem readAudit_named_iff {query : AuditQuery}
    (h : Runs (readAudit deployment headers query : Api u ApiResponse) acts (.error error))
    (haccepting : Accepting acts) (hone : Authenticates headers one acts) :
    Named (deployment.callerOf one) acts ↔
      ¬ SilentlyRefused deployment headers acts (.readAudit (.ok query)) := by
  rcases (runs_inspecting h).named haccepting hone with ⟨hnamed, hnot⟩ |
    ⟨front, more, rfl, hadmitted, hmore⟩
  · exact iff_of_true hnamed fun hsilent => hnot hsilent.2
  · rcases runs_bind_iff.mp hmore with ⟨e, hfilter, -⟩ | ⟨filter, checked, rest, rfl, hfilter, hrest⟩
    · obtain ⟨rfl, hrefused⟩ := runs_ofExcept_iff.mp hfilter
      exact iff_of_false (hadmitted.not_named rfl) (not_not_intro
        ⟨⟨e, hrefused.symm⟩, hadmitted.granted.append lookedUp_nil⟩)
    · obtain ⟨rfl, hfiltered⟩ := runs_ofExcept_iff.mp hfilter
      rcases runs_bind_iff.mp hrest with ⟨_, hcomplete, -⟩ | ⟨_, _, _, -, -, hpure⟩
      · have hnamed := named_completeOrRecord hcomplete (accepting_append.mp haccepting).2
        refine iff_of_true hnamed.append_left ?_
        rintro ⟨⟨refused, hrefused⟩, -⟩
        rw [hrefused] at hfiltered
        cases hfiltered
      · cases (runs_pure_iff.mp hpure).2

theorem readTokens_named_iff {identity : Option String}
    (h : Runs (readTokens deployment headers identity : Api u ApiResponse) acts (.error error))
    (haccepting : Accepting acts) (hone : Authenticates headers one acts) :
    Named (deployment.callerOf one) acts ↔
      ¬ SilentlyRefused deployment headers acts (.readTokens (.ok identity)) := by
  rcases (runs_inspecting h).named haccepting hone with ⟨hnamed, hnot⟩ |
    ⟨front, more, rfl, hadmitted, hmore⟩
  · exact iff_of_true hnamed fun hsilent => hnot hsilent.2
  · obtain ⟨now, rest, rfl, hrest⟩ := runs_asked_bind_iff.mp hmore
    rcases runs_bind_iff.mp hrest with ⟨_, htokens, -⟩ | ⟨_, _, _, -, -, hpure⟩
    · obtain ⟨outcome, rfl, houtcome⟩ := runs_ask_iff.mp htokens
      cases outcome with
      | ok records => cases houtcome
      | error failed =>
          refine iff_of_false (hadmitted.not_named rfl) (not_not_intro
            ⟨⟨failed, by simp⟩, hadmitted.granted.append ?_⟩)
          exact lookedUp_cons (fun _ _ heq => by cases heq)
            (lookedUp_cons (fun _ _ heq => by cases heq) lookedUp_nil)
    · cases (runs_pure_iff.mp hpure).2

theorem revokeToken_named_iff {tokenId : String}
    (h : Runs (revokeToken deployment headers tokenId : Api u ApiResponse) acts (.error error))
    (haccepting : Accepting acts) (hone : Authenticates headers one acts) :
    Named (deployment.callerOf one) acts ↔
      ¬ SilentlyRefused deployment headers acts (.revokeToken (.ok tokenId)) := by
  generalize hresult : (Except.error error : Except ApiError ApiResponse) = result at h
  cases runs_revokeToken h with
  | turnedAway _ haway hunknown => exact absurd hone (hunknown.authenticates one)
  | unanswered _ failed hpresented =>
      exact iff_of_false (quiet_append hpresented.quiet (quiet_singleton rfl)).not_named
        (not_not_intro (.inl ⟨failed, by simp⟩))
  | undecided caller record _ hlooked hdecided =>
      rcases hdecided.error_cases haccepting with ⟨-, hread, -⟩ | ⟨hnamed, -⟩
      · cases hread
      · rw [hdecided.known.eq_callerOf hone] at hnamed
        refine iff_of_true hnamed ?_
        rintro (⟨failed, hfailed⟩ | ⟨-, hgranted⟩)
        · cases hlooked _ hfailed
        · exact hdecided.not_granted haccepting hgranted
  | @unknown acts caller hlooked hadmitted =>
      have hnot : ¬ Named (deployment.callerOf one) (acts ++ []) := hadmitted.not_named rfl
      rw [List.append_nil] at hnot
      exact iff_of_false hnot (not_not_intro (.inr ⟨hlooked, hadmitted.granted⟩))
  | @failed front corrected _ caller found failure status hlooked hadmitted hcorrected =>
      have hlater : LookedFor tokenId (some found)
          (front ++ ⟨.revokeToken tokenId, .error failure⟩ :: corrected) := by
        intro outcome hmem
        rcases List.mem_append.mp hmem with hmem | hmem
        · exact hlooked outcome hmem
        · obtain ⟨_, _, rfl, -⟩ := hcorrected
          rcases List.mem_cons.mp hmem with heq | hmem
          · cases heq
          · cases List.mem_singleton.mp hmem
      have hnamed := hcorrected.named_outcome fun entry refused hmem =>
        haccepting entry refused (List.mem_append_right _ (List.mem_cons_of_mem _ hmem))
      rw [hadmitted.known.eq_callerOf hone.of_append.1] at hnamed
      refine iff_of_true hnamed.cons.append_left ?_
      rintro (⟨failed, hfailed⟩ | ⟨hnone, -⟩)
      · cases hlater _ hfailed
      · cases hlater _ hnone
  | revoked => cases hresult

/-! ### Logins -/

theorem federationEntry_principal {provider : String} {subject : Option String} {outcome : Federated}
    {status : Nat} {request : RequestContext} :
    (federationEntry (u := u) deployment provider subject outcome status request).principal =
      some ⟨"oidc:" ++ provider, some "oidc", none⟩ := by
  unfold federationEntry
  cases subject <;> cases outcome <;> rfl

theorem recorded_federation {α : Type} {provider reason : String} {subject : Option String}
    {status : Nat} {result : Except ApiError α}
    (h : RefusedWith (federationEntry (u := u) deployment provider subject (.refused reason) status
      headers.requestContext) acts result) (haccepting : Accepting acts) :
    Recorded ⟨"oidc:" ++ provider, some "oidc", none⟩ acts := by
  refine ⟨federationEntry (u := u) deployment provider subject (.refused reason) status
    headers.requestContext, ?_, federationEntry_refused, federationEntry_principal⟩
  rw [h.committed haccepting]
  exact List.mem_singleton_self _

omit [ReservedPaths u] in
theorem not_recorded_of_allowed {principal : Principal}
    (h : ∀ entry ∈ entries acts, entry.allowed = true) : ¬ Recorded principal acts := by
  rintro ⟨entry, hmem, hallowed, -⟩
  rw [h entry hmem] at hallowed
  cases hallowed

theorem oidcLogin_recorded_iff {login : OidcLoginRequest} {now : Int} {provider : String}
    (h : Runs (oidcLogin deployment headers (.ok login) : Api u ApiResponse) acts (.error error))
    (haccepting : Accepting acts) (hnow : (⟨.nowMillis, now⟩ : ApiAct u) ∈ acts)
    (hvouched : VouchedBy deployment login now provider) :
    Recorded ⟨"oidc:" ++ provider, some "oidc", none⟩ acts ↔
      ¬ SilentlyRefused deployment headers acts (.oidcLogin (.ok login)) := by
  unfold VouchedBy at hvouched
  cases runs_oidcLogin h with
  | turnedAway _ _ hbody => cases hbody
  | misshapen _ _ _ hbody hasked =>
      cases hbody
      refine iff_of_false (not_recorded_of_allowed ?_) (not_not_intro (.inl ⟨_, hasked⟩))
      intro entry hmem
      cases hmem
  | unverifiable at' _ _ _ hbody _ hexchange =>
      cases hbody
      cases List.mem_singleton.mp hnow
      rw [hexchange] at hvouched
      cases hvouched
  | @refused recorded _ at' _ asked other subject reason hbody hasked hexchange hrecorded =>
      cases hbody
      have hclock : ∀ clock, (⟨.nowMillis, clock⟩ : ApiAct u) ∈ ⟨.nowMillis, at'⟩ :: recorded →
          clock = at' := by
        intro clock hmem
        rcases List.mem_cons.mp hmem with heq | hmem
        · cases heq
          rfl
        · obtain ⟨_, _, rfl, -⟩ := hrecorded
          cases List.mem_singleton.mp hmem
      rw [hclock now hnow, hexchange] at hvouched
      obtain ⟨entry, hmem, hentry⟩ := recorded_federation hrecorded fun one failed hmem =>
        haccepting one failed (List.mem_cons_of_mem _ hmem)
      change other = provider at hvouched
      rw [hvouched] at hentry
      refine iff_of_true ⟨entry, hmem, hentry⟩ ?_
      rintro (⟨refused, hrefused⟩ | ⟨clock, accepted, hmem, haccepted, -⟩)
      · rw [hasked] at hrefused
        cases hrefused
      · rw [hclock clock hmem, hexchange] at haccepted
        cases haccepted
  | @accepted minted _ at' _ asked accepted hbody hasked hexchange hminted =>
      cases hbody
      generalize hresult : (Except.error error : Except ApiError ApiResponse) = result at hminted
      cases runs_mintToken hminted with
      | ungenerated =>
          refine iff_of_false (not_recorded_of_allowed ?_)
            (not_not_intro (.inr ⟨at', accepted, by simp, hexchange, by simp⟩))
          intro entry hmem
          cases hmem
      | unrecorded token refused =>
          exact (haccepting _ refused (List.mem_cons_of_mem _ (List.mem_cons_of_mem _
            (List.mem_singleton_self _)))).elim
      | @failed corrected _ token failure status hcorrected =>
          have hsame : now = at' := by
            obtain ⟨_, _, rfl, -⟩ := hcorrected
            simp only [List.mem_cons, List.not_mem_nil, or_false] at hnow
            rcases hnow with heq | heq | heq | heq | heq
            · cases heq
              rfl
            all_goals cases heq
          rw [hsame, hexchange] at hvouched
          change accepted.provider = provider at hvouched
          obtain ⟨entry, hmem, hentry⟩ := recorded_federation hcorrected fun entry refused hmem =>
            haccepting entry refused (by simp [hmem])
          rw [hvouched] at hentry
          refine iff_of_true ⟨entry, ?_, hentry⟩ ?_
          · change entry ∈ _ :: entries corrected
            exact List.mem_cons_of_mem _ hmem
          · rintro (⟨refused, hrefused⟩ | ⟨_, _, -, -, hgenerated⟩)
            · rw [hasked] at hrefused
              cases hrefused
            · obtain ⟨_, _, rfl, -⟩ := hcorrected
              simp only [List.mem_cons, List.not_mem_nil, or_false] at hgenerated
              rcases hgenerated with heq | heq | heq | heq | heq <;> cases heq
      | minted => cases hresult

/-! ### Requests -/

omit [ReservedPaths u] in
theorem extracting_recorded_iff {α : Type} {extracted : Extracted α} {handler : α → Served u}
    {failed : HttpError} {principal : Principal} {silent : Prop}
    (h : Runs (extracting extracted handler) acts (.error failed))
    (hrejected : ∀ text, extracted = .error text → silent)
    (hhandler : ∀ a, extracted = .ok a → Runs (handler a) acts (.error failed) →
      (Recorded principal acts ↔ ¬ silent)) :
    Recorded principal acts ↔ ¬ silent := by
  rcases runs_extracting h with ⟨text, hextracted, rfl, -⟩ | ⟨a, hextracted, hruns⟩
  · refine iff_of_false (not_recorded_of_allowed ?_) (not_not_intro (hrejected text hextracted))
    intro entry hmem
    cases hmem
  · exact hhandler a hextracted hruns

theorem handle_recorded_iff {request : ApiRequest} {error : HttpError} {principal : Principal}
    (hroute : request.registered deployment = true)
    (h : Runs (handle deployment headers request) acts (.error error)) (haccepting : Accepting acts)
    (hidentified : Identified deployment headers acts request principal) :
    Recorded principal acts ↔ ¬ SilentlyRefused deployment headers acts request := by
  cases hidentified with
  | provider login now provider _ hnow hvouched =>
      obtain ⟨e, hruns, -⟩ := runs_mapError_error h
      exact oidcLogin_recorded_iff hruns haccepting hnow hvouched
  | caller _ one hone hother =>
      change Named (deployment.callerOf one) acts ↔ _
      cases request with
      | health =>
          obtain ⟨e, hruns, -⟩ := runs_mapError_error h
          obtain ⟨-, _, hok⟩ := runs_health hruns
          cases hok
      | readSecret path query =>
          refine extracting_recorded_iff h (fun text htext => by subst htext; rfl) fun raw hraw h => ?_
          subst hraw
          refine extracting_recorded_iff h (fun text htext => by subst htext; rfl) fun query hquery h => ?_
          subst hquery
          obtain ⟨e, hruns, -⟩ := runs_mapError_error h
          exact readSecret_named_iff hruns haccepting hone
      | writeSecret path body =>
          refine extracting_recorded_iff h (fun text htext => by subst htext; rfl) fun raw hraw h => ?_
          subst hraw
          obtain ⟨e, hruns, -⟩ := runs_mapError_error h
          exact writeSecret_named_iff hruns haccepting hone
      | deleteSecret path query =>
          refine extracting_recorded_iff h (fun text htext => by subst htext; rfl) fun raw hraw h => ?_
          subst hraw
          refine extracting_recorded_iff h (fun text htext => by subst htext; rfl) fun query hquery h => ?_
          subst hquery
          obtain ⟨e, hruns, -⟩ := runs_mapError_error h
          exact deleteSecret_named_iff hruns haccepting hone
      | listVersions path =>
          refine extracting_recorded_iff h (fun text htext => by subst htext; rfl) fun raw hraw h => ?_
          subst hraw
          obtain ⟨e, hruns, -⟩ := runs_mapError_error h
          exact iff_of_true (listVersions_named hruns haccepting hone) nofun
      | listPaths start rotation =>
          refine extracting_recorded_iff h (fun text htext => by subst htext; rfl) fun raw hraw h => ?_
          subst hraw
          refine extracting_recorded_iff h (fun text htext => by subst htext; rfl) fun wanted hwanted h => ?_
          subst hwanted
          obtain ⟨e, hruns, -⟩ := runs_mapError_error h
          exact listPaths_named_iff hruns haccepting hone
      | exportPaths body =>
          obtain ⟨e, hruns, -⟩ := runs_mapError_error h
          exact exportPaths_named_iff hruns haccepting hone
      | readSurface =>
          obtain ⟨e, hruns, -⟩ := runs_mapError_error h
          exact iff_of_true (inspecting_named hruns haccepting hone) nofun
      | readHoneypots =>
          obtain ⟨e, hruns, -⟩ := runs_mapError_error h
          exact iff_of_true (readHoneypots_named hruns haccepting hone) nofun
      | readAudit query =>
          refine extracting_recorded_iff h (fun text htext => by subst htext; rfl) fun query hquery h => ?_
          subst hquery
          obtain ⟨e, hruns, -⟩ := runs_mapError_error h
          exact readAudit_named_iff hruns haccepting hone
      | readIdentities =>
          obtain ⟨e, hruns, -⟩ := runs_mapError_error h
          exact iff_of_true (inspecting_named hruns haccepting hone) nofun
      | readPolicies =>
          obtain ⟨e, hruns, -⟩ := runs_mapError_error h
          exact iff_of_true (inspecting_named hruns haccepting hone) nofun
      | readTokens identity =>
          refine extracting_recorded_iff h (fun text htext => by subst htext; rfl) fun wanted hwanted h => ?_
          subst hwanted
          obtain ⟨e, hruns, -⟩ := runs_mapError_error h
          exact readTokens_named_iff hruns haccepting hone
      | revokeToken tokenId =>
          refine extracting_recorded_iff h (fun text htext => by subst htext; rfl) fun tokenId htoken h => ?_
          subst htoken
          obtain ⟨e, hruns, -⟩ := runs_mapError_error h
          exact revokeToken_named_iff hruns haccepting hone
      | oidcLogin body =>
          cases body with
          | ok login =>
              rw [hother login rfl] at hroute
              cases hroute
          | error text =>
              obtain ⟨e, hruns, -⟩ := runs_mapError_error h
              cases runs_oidcLogin hruns with
              | turnedAway _ _ _ haway => exact iff_of_true (haway.named one hone haccepting) nofun
              | misshapen _ _ _ hbody => cases hbody
              | unverifiable _ _ _ _ hbody => cases hbody
              | refused _ _ _ _ _ _ hbody => cases hbody
              | accepted _ _ _ _ hbody => cases hbody
      | unmatched reason =>
          obtain ⟨e, hruns, -⟩ := runs_mapError_error h
          exact iff_of_true ((runs_refusedRequest hruns).2.named one hone haccepting) nofun

/-- A caller whose credential authenticates has an entry that names them and says no, exactly when the
request is none of those above. -/
theorem serve_recorded_iff {request : ApiRequest} {error : HttpError} {principal : Principal}
    (h : Runs (serve deployment headers request) acts (.error error)) (haccepting : Accepting acts)
    (hidentified : Identified deployment headers acts request principal) :
    Recorded principal acts ↔
      ¬ (request.registered deployment = true ∧ SilentlyRefused deployment headers acts request) := by
  unfold serve at h
  split at h
  · rename_i hroute
    rw [and_iff_right hroute]
    exact handle_recorded_iff hroute h haccepting hidentified
  · rename_i hroute
    obtain ⟨e, hruns, -⟩ := runs_mapError_error h
    cases hidentified with
    | caller _ one hone =>
        exact iff_of_true ((runs_refusedRequest hruns).2.named one hone haccepting)
          fun hsilent => hroute hsilent.1
    | provider login now provider hregistered => exact absurd hregistered hroute

end Handlers

end Answers

namespace Sample

theorem versionZero_authenticates : Authenticates headers ci versionZeroActs := by
  refine ⟨presented, headers_bearerToken, fun outcome hmem => ?_⟩
  rcases List.mem_cons.mp hmem with heq | hmem
  · cases heq
    rfl
  · cases List.mem_singleton.mp hmem

theorem missingSecret_authenticates : Authenticates headers ci missingSecretActs := by
  refine ⟨presented, headers_bearerToken, fun outcome hmem => ?_⟩
  simp only [missingSecretActs, List.mem_cons, List.not_mem_nil, or_false] at hmem
  rcases hmem with heq | heq | heq | heq <;> cases heq
  rfl

/-- A secret that is not there, and a version that no secret has: the caller is refused both times, and an
entry says so of the first one only. -/
theorem missing_recorded_versionZero_not_recorded :
    Recorded (deployment.callerOf ci).asPrincipal missingSecretActs ∧
      ¬ Recorded (deployment.callerOf ci).asPrincipal versionZeroActs := by
  rw [serve_recorded_iff missingSecret_runs missingSecret_accepting
      (.caller missingSecret ci missingSecret_authenticates nofun),
    serve_recorded_iff versionZero_runs versionZero_accepting
      (.caller versionZero ci versionZero_authenticates nofun), not_not]
  refine ⟨?_, rfl, dbPath, parsePath_dbPath, .inr ⟨rfl, versionZero_granted⟩⟩
  rintro ⟨-, path, -, ⟨failed, hlooked⟩ | ⟨hzero, -⟩⟩
  · simp only [missingSecretActs, List.mem_cons, List.not_mem_nil, or_false] at hlooked
    rcases hlooked with heq | heq | heq | heq <;> cases heq
  · cases hzero

/-- `PUT /v1/secrets/sys/tokens`, which is refused before anything is recorded. -/
def reservedWrite : ApiRequest := .writeSecret (.ok "sys/tokens") (.ok ⟨"value", none⟩)

def reservedWriteActs : List (ApiAct asciiUnicode) :=
  [⟨.authenticate presented, .ok (.valid ci)⟩]

theorem reservedWrite_runs : Runs (serve deployment headers reservedWrite) reservedWriteActs
    (.error (.api (.badRequest "'sys/' is reserved and cannot hold secrets"))) := by
  apply runs_mapError_iff.mpr
  refine ⟨.error (.badRequest "'sys/' is reserved and cannot hold secrets"), ?_, rfl⟩
  have hparse : parsePath asciiUnicode "sys/tokens" = .ok (reservedPath .tokens) := by
    decide +kernel
  have hreserved : refuseReserved (reservedPath .tokens : SecretPath asciiUnicode) =
      .error (.badRequest "'sys/' is reserved and cannot hold secrets") := by
    decide +kernel
  change Runs (deployment.authenticated headers .write headers.requestContext >>= _)
    ([⟨.authenticate presented, .ok (.valid ci)⟩] ++ []) _
  refine (runs_authenticated_of headers_bearerToken).bind ?_
  unfold parsePathRecorded
  rw [hparse]
  refine Runs.ofExcept_bind rfl (.bind_error ?_)
  rw [hreserved]
  exact .done _

theorem serve_not_recorded :
    ¬ ∀ (deployment : Deployment) (headers : Headers) (request : ApiRequest)
      (acts : List (ApiAct asciiUnicode)) (error : HttpError) (principal : Principal),
      Runs (serve deployment headers request) acts (.error error) → Accepting acts →
        Identified deployment headers acts request principal → Recorded principal acts := by
  intro hclaim
  have hone : Authenticates headers ci reservedWriteActs := by
    refine ⟨presented, headers_bearerToken, fun outcome hmem => ?_⟩
    cases List.mem_singleton.mp hmem
    rfl
  obtain ⟨entry, hmem, -⟩ := hclaim deployment headers reservedWrite _ _ _ reservedWrite_runs
    (quiet_singleton rfl).accepting (.caller reservedWrite ci hone nofun)
  cases hmem

end Sample

end Ciphr
