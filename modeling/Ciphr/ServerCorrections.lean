import Ciphr.ServerHandlers

/-!
Whether the trail takes back what did not happen: an answer that is an error, after an entry that
allowed the request with a success status.
-/

namespace Ciphr

open Script

/-! ### Entries -/

namespace Entry

/-- The entry says that something was done. The revocation of a token that nobody knows has no
subject, and claims nothing. -/
def claims (entry : Entry) : Bool :=
  entry.allowed && entry.request.httpStatus.any (fun status => decide (200 ≤ status ∧ status < 300)) &&
    !(entry.action == .revokeToken && entry.subject.isNone)

/-- An entry of the same request that says it did not happen. -/
structure Corrects (correction claim : Entry) : Prop where
  refused : correction.allowed = false
  principal : correction.principal = claim.principal
  path : correction.path = claim.path
  request : { correction.request with httpStatus := none } = { claim.request with httpStatus := none }
  /-- A trip has taken the place of the action. -/
  action : correction.action = claim.action ∨ claim.action = .honeypotTriggered

end Entry

/-- Whatever an entry claims is taken back by a later one. -/
def Corrected : List Entry → Prop
  | [] => True
  | entry :: later =>
      (entry.claims = true → ∃ correction ∈ later, correction.Corrects entry) ∧ Corrected later

theorem Entry.claims_of_refused {entry : Entry} (h : entry.allowed = false) :
    entry.claims = false := by
  unfold Entry.claims
  rw [h]
  rfl

theorem corrected_of_refused {trail : List Entry} (h : ∀ entry ∈ trail, entry.allowed = false) :
    Corrected trail := by
  induction trail with
  | nil => exact trivial
  | cons entry later ih =>
      refine ⟨fun hclaims => ?_, ih fun other hmem => h other (List.mem_cons_of_mem _ hmem)⟩
      rw [Entry.claims_of_refused (h entry (List.mem_cons_self ..))] at hclaims
      cases hclaims

/-- Claims that are all taken back by what follows them. -/
theorem corrected_append {front later : List Entry}
    (hfront : ∀ entry ∈ front, entry.claims = true → ∃ correction ∈ later, correction.Corrects entry)
    (hlater : Corrected later) : Corrected (front ++ later) := by
  induction front with
  | nil => exact hlater
  | cons entry front ih =>
      refine ⟨fun hclaims => ?_, ih fun other hmem => hfront other (List.mem_cons_of_mem _ hmem)⟩
      obtain ⟨correction, hmem, hcorrects⟩ := hfront entry (List.mem_cons_self ..) hclaims
      exact ⟨correction, List.mem_append_right _ hmem, hcorrects⟩

theorem not_corrected_singleton {entry : Entry} (h : entry.claims = true) : ¬ Corrected [entry] := by
  rintro ⟨hcorrected, -⟩
  obtain ⟨correction, hmem, -⟩ := hcorrected h
  cases hmem

theorem corrected_cons {entry correction : Entry} {later : List Entry}
    (hmem : correction ∈ later) (hcorrects : correction.Corrects entry) (hlater : Corrected later) :
    Corrected (entry :: later) :=
  ⟨fun _ => ⟨correction, hmem, hcorrects⟩, hlater⟩

theorem corrected_pair {entry correction : Entry} (h : correction.Corrects entry) :
    Corrected [entry, correction] := by
  apply corrected_cons (List.mem_singleton_self _) h
  apply corrected_of_refused
  intro other hmem
  rw [List.mem_singleton.mp hmem]
  exact h.refused

section Answers

variable {u : Unicode} {deployment : Deployment} {headers : Headers} {caller : Caller}
  {action : Action} {capability : Capability} {path : SecretPath u} {acts : List (ApiAct u)}

theorem Refusing.corrected (h : Refusing acts) : Corrected (entries acts) :=
  corrected_of_refused fun _ hmem => h.allowed hmem

theorem outcomeEntry_corrects {request : RequestContext} {subject : Option Principal}
    {decision : Decision} {bait : Option HoneypotTier} {status : Nat} {reason : String} :
    (outcomeEntry caller action (some path) request status (some reason)).Corrects
      (decisionEntry caller action path subject request decision bait) := by
  unfold decisionEntry Entry.withRule? Entry.withSubject?
  constructor
  · rfl
  · cases decision.isAllowed <;> cases bait <;> cases subject <;> cases decision.rule <;> rfl
  · cases decision.isAllowed <;> cases bait <;> cases subject <;> cases decision.rule <;> rfl
  · cases decision.isAllowed <;> cases bait <;> cases subject <;> cases decision.rule <;> rfl
  · cases decision.isAllowed <;> cases bait <;> cases subject <;> cases decision.rule <;>
      first | exact .inl rfl | exact .inr rfl

/-- The entry of an allowed access is a claim, except that of a revocation of nothing. -/
theorem decisionEntry_claims {request : RequestContext} {subject : Option Principal}
    {decision : Decision} {bait : Option HoneypotTier} (hallowed : decision.isAllowed = true)
    (haction : action ≠ .revokeToken) :
    (decisionEntry caller action path subject request decision bait).claims = true := by
  have hrevoke : (action == Action.revokeToken) = false := beq_eq_false_iff_ne.mpr haction
  unfold decisionEntry Entry.withRule? Entry.withSubject?
  rw [hallowed]
  cases bait <;> cases subject <;> cases decision.rule <;>
    simp [Entry.claims, Entry.permitted, Entry.withDetail, Entry.withPrincipal, Entry.withPath,
      Entry.withSubject, Entry.withRule, Entry.withRequest, RequestContext.withStatus, hrevoke]

theorem revokeNothing_claims {request : RequestContext} {decision : Decision} :
    (decisionEntry caller .revokeToken path none request decision none).claims = false := by
  unfold decisionEntry Entry.withRule? Entry.withSubject? Entry.claims
  cases decision.isAllowed <;> cases decision.rule <;> simp [Entry.permitted, Entry.denied,
    Entry.withPrincipal, Entry.withPath, Entry.withRule, Entry.withRequest]

section Federation

variable [ReservedPaths u] {provider : String} {subject : Option String} {request : RequestContext}

theorem federationEntry_refused {reason : String} {status : Nat} :
    (federationEntry (u := u) deployment provider subject (.refused reason) status request).allowed =
      false := by
  unfold federationEntry
  cases subject <;> rfl

theorem federationEntry_corrects {identity tokenId reason : String} {status : Nat} :
    (federationEntry (u := u) deployment provider subject (.refused reason) status request).Corrects
      (federationEntry (u := u) deployment provider subject (.minted identity tokenId) 200 request) := by
  unfold federationEntry
  constructor
  · cases subject <;> rfl
  · cases subject <;> rfl
  · cases subject <;> rfl
  · cases subject <;> rfl
  · cases subject <;> exact .inl rfl

end Federation

/-! ### Handlers -/

theorem parsed_ne_error {query : VersionQuery} (h : query.version ≠ some 0) (error : ApiError) :
    query.parsed ≠ .error error := by
  unfold VersionQuery.parsed
  split
  · nofun
  · rename_i number hnumber
    split
    · nofun
    · rename_i hnone
      have hzero : number = 0 := UInt32.toNat_inj.mp (SecretVersion.new_eq_none hnone)
      rw [hzero] at hnumber
      exact absurd hnumber h

section Handlers

variable {error : ApiError}

/-- A request that names a path leaves no claim standing if what follows its decision takes that back. -/
theorem Gated.corrected {α β : Type} {raw : String} {check : SecretPath u → Except ApiError β}
    {rest : Caller → SecretPath u → β → Api u α}
    (h : Gated deployment headers action capability raw check rest acts (.error error))
    (haccepting : Accepting acts)
    (hrest : ∀ caller path b bait more, Runs (rest caller path b) more (.error error) →
      (deployment.authorize caller capability path).isAllowed = true → Accepting more →
      Corrected (decisionEntry caller action path none headers.requestContext
        (deployment.authorize caller capability path) bait :: entries more)) :
    Corrected (entries acts) := by
  cases h with
  | turnedAway _ haway => exact haway.refusing.corrected
  | unchecked _ _ _ hpresented => exact hpresented.quiet.refusing.corrected
  | undecided _ _ _ _ _ _ hdecided => exact hdecided.refusing.corrected
  | admitted caller path b _ _ hadmitted hmore =>
      obtain ⟨hallowed, bait, -, hentries⟩ := hadmitted.entries_ok
      rw [entries_append, hentries]
      exact hrest caller path b bait _ hmore hallowed (accepting_append.mp haccepting).2

/-- The same for a virtual path. -/
theorem Inspected.corrected [ReservedPaths u] {name : ReservedName}
    {serve : Caller → SecretPath u → Api u ApiResponse}
    (h : Inspected deployment headers name serve acts (.error error)) (haccepting : Accepting acts)
    (hserve : ∀ caller bait more, Runs (serve caller (reservedPath name)) more (.error error) →
      Accepting more → Corrected (decisionEntry caller .read (reservedPath name : SecretPath u) none
        headers.requestContext (deployment.authorize caller .inspect (reservedPath name : SecretPath u))
        bait :: entries more)) :
    Corrected (entries acts) := by
  cases h with
  | turnedAway _ haway => exact haway.refusing.corrected
  | undecided _ _ hdecided => exact hdecided.refusing.corrected
  | admitted caller hadmitted hmore =>
      obtain ⟨-, bait, hbait, hentries⟩ := hadmitted.entries_ok
      rw [entries_append, hentries]
      exact hserve caller bait _ hmore (accepting_append.mp haccepting).2

/-- Work that records nothing of its own, and an entry that takes its decision back. -/
theorem corrected_completeOrRecord {α : Type} {request : RequestContext} {reason : String}
    {work : Api u α} {subject : Option Principal} {decision : Decision} {bait : Option HoneypotTier}
    (h : Runs (completeOrRecord caller action path request reason work) acts (.error error))
    (hwork : ∀ worked e, Runs work worked (.error e) → entries worked = [])
    (haccepting : Accepting acts) :
    Corrected (decisionEntry caller action path subject request decision bait :: entries acts) := by
  rcases runs_completeOrRecord h with ⟨_, -, hok⟩ | ⟨failed, worked, corrected, rfl, hworked, hrefused⟩
  · cases hok
  · rw [entries_append, hwork worked failed hworked, List.nil_append,
      hrefused.committed (accepting_append.mp haccepting).2]
    exact corrected_pair outcomeEntry_corrects

theorem corrected_readSecret {raw : String} {query : VersionQuery}
    (h : Runs (readSecret deployment headers raw query : Api u ApiResponse) acts (.error error))
    (hquery : query.version ≠ some 0) (haccepting : Accepting acts) : Corrected (entries acts) := by
  refine (runs_readSecret h).corrected haccepting ?_
  intro caller path _ bait more hmore _ haccepting
  rcases runs_bind_iff.mp hmore with ⟨e, hparsed, -⟩ | ⟨version, front, rest, rfl, hparsed, hserve⟩
  · exact absurd (runs_ofExcept_iff.mp hparsed).2.symm (parsed_ne_error hquery e)
  · obtain ⟨rfl, -⟩ := runs_ofExcept_iff.mp hparsed
    rcases runs_serveSecret hserve with ⟨_, _, -, -, hok⟩ | ⟨outcome, corrected, status, reason, rfl, hrefused⟩
    · cases hok
    · have hcommitted := hrefused.committed fun entry refused hmem =>
        haccepting entry refused (List.mem_append_right _ (List.mem_cons_of_mem _ hmem))
      change Corrected (_ :: entries corrected)
      rw [hcommitted]
      exact corrected_pair outcomeEntry_corrects

theorem corrected_writeSecret {raw : String} {body : Except String SecretBody}
    (h : Runs (writeSecret deployment headers raw body : Api u ApiResponse) acts (.error error))
    (haccepting : Accepting acts) : Corrected (entries acts) := by
  rcases runs_writeSecret h with ⟨_, -, -, haway⟩ | ⟨parsed, -, hgated⟩
  · exact haway.refusing.corrected
  · refine hgated.corrected haccepting ?_
    intro caller path rotation bait more hmore hallowed haccepting
    rcases runs_classifyAndStore hmore with ⟨_, -, hundecided⟩ | ⟨classified, stored, rfl, hclass, hstore⟩
    · -- the class is decided as the write was
      cases hundecided with
      | lookupFailed _ _ _ hread => cases hread
      | unrecorded look bait refused hlook =>
          exact absurd (accepting_append.mp haccepting).2 not_accepting_record
      | denied hdenied =>
          rw [hallowed] at hdenied
          cases hdenied
    · obtain ⟨outcome, corrected, rfl, -, ⟨_, -, -, hok⟩ | ⟨-, hcorrected⟩⟩ := runs_storeSecret hstore
      · cases hok
      · obtain ⟨status, hentries⟩ := hcorrected (accepting_append.mp haccepting).2
        rw [entries_append, hentries]
        rcases hclass with ⟨rfl, rfl⟩ | ⟨hnamed, hclassified⟩
        · exact corrected_pair outcomeEntry_corrects
        · obtain ⟨-, bait', -, hclaim⟩ := hclassified.entries_ok
          rw [hclaim, writeCorrections, if_pos hnamed]
          refine corrected_cons (List.mem_cons_of_mem _ (List.mem_cons_self ..))
            outcomeEntry_corrects ?_
          refine corrected_cons (List.mem_cons_of_mem _ (List.mem_cons_self ..))
            outcomeEntry_corrects ?_
          apply corrected_of_refused
          intro entry hmem
          rcases List.mem_cons.mp hmem with rfl | hmem
          · rfl
          · rw [List.mem_singleton.mp hmem]
            rfl

theorem corrected_deleteSecret {raw : String} {query : VersionQuery}
    (h : Runs (deleteSecret deployment headers raw query : Api u ApiResponse) acts (.error error))
    (haccepting : Accepting acts) : Corrected (entries acts) := by
  refine (runs_deleteSecret h).corrected haccepting ?_
  intro caller path _ bait more hmore _ haccepting
  rcases runs_bind_iff.mp hmore with ⟨e, hcomplete, -⟩ | ⟨_, _, _, -, -, hpure⟩
  · refine corrected_completeOrRecord hcomplete ?_ haccepting
    intro worked failed hworked
    rcases runs_deleteVersion hworked with hquiet | ⟨quiet, version, outcome, hquiet, rfl⟩
    · exact hquiet.entries
    · rw [entries_append, hquiet.entries]
      rfl
  · cases (runs_pure_iff.mp hpure).2

theorem corrected_listVersions {raw : String}
    (h : Runs (listVersions deployment headers raw : Api u ApiResponse) acts (.error error))
    (haccepting : Accepting acts) : Corrected (entries acts) := by
  obtain ⟨_, hgated⟩ := runs_listVersions h
  refine hgated.corrected haccepting ?_
  intro caller path _ bait more hmore _ haccepting
  rcases runs_bind_iff.mp hmore with ⟨e, hcomplete, -⟩ | ⟨_, _, _, -, -, hpure⟩
  · refine corrected_completeOrRecord hcomplete ?_ haccepting
    intro worked failed hworked
    obtain ⟨_, rfl, -⟩ := runs_ask_iff.mp hworked
    rfl
  · cases (runs_pure_iff.mp hpure).2

theorem corrected_listPaths {raw : String} {rotation : Option String}
    (h : Runs (listPaths deployment headers raw rotation : Api u ApiResponse) acts (.error error))
    (haccepting : Accepting acts) : Corrected (entries acts) := by
  generalize hresult : (Except.error error : Except ApiError ApiResponse) = result at h
  cases runs_listPaths h with
  | turnedAway _ haway => exact haway.refusing.corrected
  | unclassed _ _ _ hpresented => exact hpresented.quiet.refusing.corrected
  | unanswered _ _ _ hpresented =>
      exact (hpresented.quiet.refusing.append (quiet_singleton rfl).refusing).corrected
  | answered caller start wanted listed reply hpresented =>
      cases reply with
      | ok => cases hresult
      | error refused =>
          exact (haccepting _ refused (List.mem_append_right _
            (List.mem_cons_of_mem _ (List.mem_singleton_self _)))).elim

/-- A correction for each path whose decision was recorded. -/
theorem corrected_export {request : RequestContext} {status : Nat} {new : List (SecretPath u)}
    {claims : List Entry} (h : List.Forall₂ (ReadClaim deployment caller request) new claims)
    {refused : List Entry} (hrefused : ∀ entry ∈ refused, entry.allowed = false) :
    Corrected (claims ++ (refused ++ new.map fun path =>
      outcomeEntry caller .read (some path) request status (some "not-served"))) := by
  apply corrected_append
  · intro entry hmem _
    obtain ⟨path, hpath, -, bait, rfl⟩ := Loop.forall₂_mem_right h hmem
    exact ⟨_, List.mem_append_right _ (List.mem_map.mpr ⟨path, hpath, rfl⟩), outcomeEntry_corrects⟩
  · apply corrected_of_refused
    intro entry hmem
    rcases List.mem_append.mp hmem with hbefore | hafter
    · exact hrefused entry hbefore
    · obtain ⟨path, -, rfl⟩ := List.mem_map.mp hafter
      rfl

theorem corrected_exportPaths {body : Except String (List String)}
    (h : Runs (exportPaths deployment headers body : Api u ApiResponse) acts (.error error))
    (haccepting : Accepting acts) : Corrected (entries acts) := by
  cases runs_exportPaths h with
  | turnedAway _ haway => exact haway.refusing.corrected
  | malformed caller raw refused _ hpresented _ hrefused =>
      exact (hpresented.quiet.refusing.append (hrefused.refusing rfl)).corrected
  | checked caller raw paths _ hpresented _ hserved =>
      obtain ⟨exported, corrected, new, ended, rfl, hexporting, hended⟩ := runs_serveExport hserved
      obtain ⟨hexported, hcorrected⟩ := accepting_append.mp (accepting_append.mp haccepting).2
      obtain ⟨claims, refused, later, -, hentries, hclaims, hdenial⟩ := hexporting.entries hexported
      rcases hended with ⟨_, -, -, hok⟩ | ⟨failed, answer, rfl, -, -, -, hcorrections⟩
      · cases hok
      · rw [entries_append, hpresented.quiet.entries, List.nil_append, entries_append, hentries,
          (hcorrections hcorrected).2, List.append_assoc]
        apply corrected_export hclaims
        rcases hdenial with ⟨_, hok, -⟩ | ⟨_, -, rfl | ⟨path, rest, -, hdenied, rfl⟩⟩
        · cases hok
        · intro entry hmem
          cases hmem
        · intro entry hmem
          rw [List.mem_singleton.mp hmem, decisionEntry_allowed]
          exact hdenied

section Virtual

variable [ReservedPaths u]

theorem corrected_inspecting {name : ReservedName} {answer : ApiResponse}
    (h : Runs (inspecting deployment headers name fun _ _ => pure answer : Api u ApiResponse) acts
      (.error error))
    (haccepting : Accepting acts) : Corrected (entries acts) := by
  refine (runs_inspecting h).corrected haccepting ?_
  intro caller bait more hmore _
  cases (runs_pure_iff.mp hmore).2

theorem corrected_readHoneypots
    (h : Runs (readHoneypots deployment headers : Api u ApiResponse) acts (.error error))
    (haccepting : Accepting acts) : Corrected (entries acts) := by
  refine (runs_inspecting h).corrected haccepting ?_
  intro caller bait more hmore haccepting
  rcases runs_bind_iff.mp hmore with ⟨e, hcomplete, -⟩ | ⟨_, _, _, -, -, hpure⟩
  · refine corrected_completeOrRecord hcomplete ?_ haccepting
    intro worked failed hworked
    obtain ⟨_, rfl, -⟩ := runs_ask_iff.mp hworked
    rfl
  · cases (runs_pure_iff.mp hpure).2

theorem corrected_readAudit {query : AuditQuery}
    (h : Runs (readAudit deployment headers query : Api u ApiResponse) acts (.error error))
    (hquery : ∀ refused, auditFilter query ≠ .error refused) (haccepting : Accepting acts) :
    Corrected (entries acts) := by
  refine (runs_inspecting h).corrected haccepting ?_
  intro caller bait more hmore haccepting
  rcases runs_bind_iff.mp hmore with ⟨e, hfilter, -⟩ | ⟨filter, front, rest, rfl, hfilter, hrest⟩
  · exact absurd (runs_ofExcept_iff.mp hfilter).2.symm (hquery e)
  · obtain ⟨rfl, -⟩ := runs_ofExcept_iff.mp hfilter
    rcases runs_bind_iff.mp hrest with ⟨e, hcomplete, -⟩ | ⟨_, _, _, -, -, hpure⟩
    · refine corrected_completeOrRecord hcomplete ?_ haccepting
      intro worked failed hworked
      rcases runs_bind_iff.mp hworked with ⟨_, hask, -⟩ | ⟨_, _, _, rfl, hask, hrows⟩
      · obtain ⟨_, rfl, -⟩ := runs_ask_iff.mp hask
        rfl
      · obtain ⟨_, rfl, -⟩ := runs_ask_iff.mp hask
        obtain ⟨rfl, -⟩ := runs_ofExcept_iff.mp hrows
        rfl
    · cases (runs_pure_iff.mp hpure).2

theorem corrected_revokeToken {tokenId : String}
    (h : Runs (revokeToken deployment headers tokenId : Api u ApiResponse) acts (.error error))
    (haccepting : Accepting acts) : Corrected (entries acts) := by
  generalize hresult : (Except.error error : Except ApiError ApiResponse) = result at h
  cases runs_revokeToken h with
  | turnedAway _ haway => exact haway.refusing.corrected
  | unanswered _ _ hpresented =>
      exact (hpresented.quiet.refusing.append (quiet_singleton rfl).refusing).corrected
  | undecided _ _ _ _ hdecided => exact hdecided.refusing.corrected
  | unknown caller hlooked hadmitted =>
      obtain ⟨-, bait, hbait, hentries⟩ := hadmitted.entries_ok
      cases bait with
      | some tier => cases hbait rfl
      | none =>
          rw [hentries]
          refine ⟨fun hclaims => ?_, trivial⟩
          rw [revokeNothing_claims] at hclaims
          cases hclaims
  | @failed front corrected _ caller found failure status _ hadmitted hcorrected =>
      obtain ⟨-, bait, hbait, hentries⟩ := hadmitted.entries_ok
      have hcommitted := hcorrected.committed fun entry refused hmem =>
        haccepting entry refused (List.mem_append_right _ (List.mem_cons_of_mem _ hmem))
      rw [entries_append, hentries]
      change Corrected (_ :: entries corrected)
      rw [hcommitted]
      exact corrected_pair outcomeEntry_corrects
  | revoked => cases hresult

theorem corrected_oidcLogin {body : Except String OidcLoginRequest}
    (h : Runs (oidcLogin deployment headers body : Api u ApiResponse) acts (.error error))
    (haccepting : Accepting acts) : Corrected (entries acts) := by
  cases runs_oidcLogin h with
  | turnedAway _ _ _ haway => exact haway.refusing.corrected
  | misshapen => exact (quiet_singleton rfl).refusing.corrected
  | unverifiable => exact (quiet_singleton rfl).refusing.corrected
  | refused now login asked provider subject reason _ _ _ hrecorded =>
      have hrefusing := hrecorded.refusing (federationEntry_refused ..)
      exact ((quiet_singleton rfl).refusing.append hrefusing).corrected
  | accepted now login asked accepted _ _ _ hminted =>
      generalize hresult : (Except.error error : Except ApiError ApiResponse) = result at hminted
      cases runs_mintToken hminted with
      | ungenerated => exact trivial
      | unrecorded token refused =>
          exact (haccepting _ refused (List.mem_cons_of_mem _ (List.mem_cons_of_mem _
            (List.mem_singleton_self _)))).elim
      | @failed corrected _ token failure status hcorrected =>
          have hcommitted := hcorrected.committed fun entry refused hmem =>
            haccepting entry refused (by simp [hmem])
          change Corrected (_ :: entries corrected)
          rw [hcommitted]
          exact corrected_pair federationEntry_corrects
      | minted => cases hresult

end Virtual

end Handlers

/-! ### Requests -/

theorem Granted.append {more : List (ApiAct u)}
    (h : Granted deployment headers capability path acts) (hmore : LookedUp more) :
    Granted deployment headers capability path (acts ++ more) := by
  obtain ⟨caller, hknown, hallowed, hlooked⟩ := h
  exact ⟨caller, hknown.append, hallowed, lookedUp_append hlooked hmore⟩

/-- An access that was allowed, followed by nothing that takes it back. -/
theorem DecidedFor.not_corrected {front more : List (ApiAct u)}
    (h : DecidedFor deployment headers caller action capability path none front (.ok ()))
    (haction : action ≠ .revokeToken) (hmore : entries more = []) :
    ¬ Corrected (entries (front ++ more)) := by
  obtain ⟨hallowed, bait, -, hentries⟩ := h.entries_ok
  rw [entries_append, hentries, hmore]
  exact not_corrected_singleton (decisionEntry_claims hallowed haction)

/-- The health of the process is always answered. -/
theorem runs_health {result : Except ApiError ApiResponse}
    (h : Runs (health deployment : Api u ApiResponse) acts result) :
    Quiet acts ∧ ∃ answer, result = .ok (.health answer) := by
  unfold health at h
  dsimp only at h
  split at h
  · obtain ⟨_, _, rfl, hrest⟩ := runs_asked_bind_iff.mp h
    obtain ⟨_, _, rfl, hlast⟩ := runs_asked_bind_iff.mp hrest
    obtain ⟨rfl, rfl⟩ := runs_pure_iff.mp hlast
    exact ⟨quiet_cons rfl (quiet_singleton rfl), _, rfl⟩
  · obtain ⟨_, _, rfl, hlast⟩ := runs_asked_bind_iff.mp h
    obtain ⟨rfl, rfl⟩ := runs_pure_iff.mp hlast
    exact ⟨quiet_singleton rfl, _, rfl⟩

section Requests

variable [ReservedPaths u]

/-- The requests that are refused for themselves, or by the store, after their access was recorded, and
whose entry stays: a read of a version that cannot be, a page of the trail that cannot be, and a
listing of tokens that the store could not answer. -/
inductive Overclaims (deployment : Deployment) (headers : Headers) (acts : List (ApiAct u)) :
    ApiRequest → Prop where
  | version (raw : String) (path : SecretPath u) (hparse : parsePath u raw = .ok path)
      (hgranted : Granted deployment headers .read path acts) :
      Overclaims deployment headers acts (.readSecret (.ok raw) (.ok ⟨some 0⟩))
  | page (query : AuditQuery) (refused : ApiError) (hroute : deployment.has "viewer_api" = true)
      (hquery : auditFilter query = .error refused)
      (hgranted : Granted deployment headers .inspect (reservedPath .audit : SecretPath u) acts) :
      Overclaims deployment headers acts (.readAudit (.ok query))
  | tokens (identity : Option String) (failed : StoreError)
      (hroute : deployment.has "token_status" = true)
      (hgranted : Granted deployment headers .inspect (reservedPath .tokens : SecretPath u) acts)
      (hlisted : (⟨.tokens identity, .error failed⟩ : ApiAct u) ∈ acts) :
      Overclaims deployment headers acts (.readTokens (.ok identity))

theorem Overclaims.of_readAudit {query : AuditQuery}
    (h : Overclaims deployment headers acts (.readAudit (.ok query))) :
    (∃ refused, auditFilter query = .error refused) ∧
      Granted deployment headers .inspect (reservedPath .audit : SecretPath u) acts := by
  cases h with
  | page _ refused _ hquery hgranted => exact ⟨⟨refused, hquery⟩, hgranted⟩

theorem Overclaims.of_readTokens {identity : Option String}
    (h : Overclaims deployment headers acts (.readTokens (.ok identity))) :
    (∃ failed, (⟨.tokens identity, .error failed⟩ : ApiAct u) ∈ acts) ∧
      Granted deployment headers .inspect (reservedPath .tokens : SecretPath u) acts := by
  cases h with
  | tokens _ failed _ hgranted hlisted => exact ⟨⟨failed, hlisted⟩, hgranted⟩

variable {error : ApiError}

theorem readSecret_corrected_iff {raw : String} {query : VersionQuery}
    (h : Runs (readSecret deployment headers raw query : Api u ApiResponse) acts (.error error))
    (haccepting : Accepting acts) :
    Corrected (entries acts) ↔
      ¬ Overclaims deployment headers acts (.readSecret (.ok raw) (.ok query)) := by
  by_cases hquery : query.version = some 0
  · obtain ⟨version⟩ := query
    change version = some 0 at hquery
    subst hquery
    cases runs_readSecret h with
    | turnedAway _ haway hwhy =>
        refine iff_of_true haway.refusing.corrected ?_
        rintro ⟨_, path, hparse, caller, hknown, -⟩
        rcases hwhy with hunknown | ⟨refused, hrefused⟩
        · exact hunknown.caller caller hknown
        · rw [hparse] at hrefused
          cases hrefused
    | unchecked _ _ _ _ _ hcheck => cases hcheck
    | undecided caller path _ _ hparse _ hdecided =>
        refine iff_of_true hdecided.refusing.corrected ?_
        rintro ⟨_, other, hother, hgranted⟩
        rw [hparse, Except.ok.injEq] at hother
        subst hother
        exact hdecided.not_granted haccepting hgranted
    | admitted caller path _ hparse _ hadmitted hrest =>
        rcases runs_bind_iff.mp hrest with ⟨_, hparsed, -⟩ | ⟨_, _, _, -, hparsed, -⟩
        · obtain ⟨rfl, -⟩ := runs_ofExcept_iff.mp hparsed
          refine iff_of_false (hadmitted.not_corrected nofun rfl) (not_not_intro ?_)
          exact .version raw path hparse (hadmitted.granted.append lookedUp_nil)
        · cases (runs_ofExcept_iff.mp hparsed).2
  · refine iff_of_true (corrected_readSecret h hquery haccepting) ?_
    rintro ⟨⟩
    exact hquery rfl

theorem readAudit_corrected_iff {query : AuditQuery} (hroute : deployment.has "viewer_api" = true)
    (h : Runs (readAudit deployment headers query : Api u ApiResponse) acts (.error error))
    (haccepting : Accepting acts) :
    Corrected (entries acts) ↔ ¬ Overclaims deployment headers acts (.readAudit (.ok query)) := by
  cases hquery : auditFilter query with
  | ok filter =>
      have hcorrected := corrected_readAudit h (fun refused herror => by rw [hquery] at herror; cases herror)
        haccepting
      refine iff_of_true hcorrected fun hover => ?_
      obtain ⟨⟨refused, hrefused⟩, -⟩ := hover.of_readAudit
      rw [hquery] at hrefused
      cases hrefused
  | error refused =>
      cases runs_inspecting h with
      | turnedAway _ haway hunknown =>
          refine iff_of_true haway.refusing.corrected fun hover => ?_
          obtain ⟨-, caller, hknown, -⟩ := hover.of_readAudit
          exact hunknown.caller caller hknown
      | undecided caller _ hdecided =>
          refine iff_of_true hdecided.refusing.corrected fun hover => ?_
          exact hdecided.not_granted haccepting hover.of_readAudit.2
      | admitted caller hadmitted hrest =>
          rcases runs_bind_iff.mp hrest with ⟨_, hfilter, -⟩ | ⟨_, _, _, -, hfilter, -⟩
          · obtain ⟨rfl, -⟩ := runs_ofExcept_iff.mp hfilter
            refine iff_of_false (hadmitted.not_corrected nofun rfl) (not_not_intro ?_)
            exact .page query refused hroute hquery (hadmitted.granted.append lookedUp_nil)
          · rw [hquery] at hfilter
            cases (runs_ofExcept_iff.mp hfilter).2

theorem readTokens_corrected_iff {identity : Option String}
    (hroute : deployment.has "token_status" = true)
    (h : Runs (readTokens deployment headers identity : Api u ApiResponse) acts (.error error))
    (haccepting : Accepting acts) :
    Corrected (entries acts) ↔ ¬ Overclaims deployment headers acts (.readTokens (.ok identity)) := by
  cases runs_inspecting h with
  | turnedAway _ haway hunknown =>
      refine iff_of_true haway.refusing.corrected fun hover => ?_
      obtain ⟨-, caller, hknown, -⟩ := hover.of_readTokens
      exact hunknown.caller caller hknown
  | undecided caller _ hdecided =>
      refine iff_of_true hdecided.refusing.corrected fun hover => ?_
      exact hdecided.not_granted haccepting hover.of_readTokens.2
  | admitted caller hadmitted hmore =>
      rcases runs_bind_iff.mp hmore with ⟨_, hnow, -⟩ | ⟨now, asked, rest, rfl, hnow, hrest⟩
      · obtain ⟨_, -, hok⟩ := runs_ask_iff.mp hnow
        cases hok
      · obtain ⟨reply, rfl, hreply⟩ := runs_ask_iff.mp hnow
        cases hreply
        rcases runs_bind_iff.mp hrest with ⟨_, htokens, -⟩ | ⟨_, _, _, -, -, hpure⟩
        · obtain ⟨outcome, rfl, houtcome⟩ := runs_ask_iff.mp htokens
          cases outcome with
          | ok records => cases houtcome
          | error failed =>
              refine iff_of_false (hadmitted.not_corrected nofun rfl) (not_not_intro ?_)
              refine .tokens identity failed hroute (hadmitted.granted.append ?_) (by simp)
              exact lookedUp_cons (fun _ _ heq => by cases heq)
                (lookedUp_cons (fun _ _ heq => by cases heq) lookedUp_nil)
        · cases (runs_pure_iff.mp hpure).2

theorem handle_corrected_iff {request : ApiRequest} {error : HttpError}
    (hroute : request.registered deployment = true)
    (h : Runs (handle deployment headers request) acts (.error error)) (haccepting : Accepting acts) :
    Corrected (entries acts) ↔ ¬ Overclaims deployment headers acts request := by
  cases request with
  | health =>
      obtain ⟨e, hruns, -⟩ := runs_mapError_error h
      obtain ⟨-, _, hok⟩ := runs_health hruns
      cases hok
  | readSecret path query =>
      rcases runs_extracting h with ⟨_, rfl, rfl, -⟩ | ⟨raw, rfl, h⟩
      · exact iff_of_true trivial nofun
      · rcases runs_extracting h with ⟨_, rfl, rfl, -⟩ | ⟨query, rfl, h⟩
        · exact iff_of_true trivial nofun
        · obtain ⟨e, hruns, -⟩ := runs_mapError_error h
          exact readSecret_corrected_iff hruns haccepting
  | writeSecret path body =>
      rcases runs_extracting h with ⟨_, rfl, rfl, -⟩ | ⟨raw, rfl, h⟩
      · exact iff_of_true trivial nofun
      · obtain ⟨e, hruns, -⟩ := runs_mapError_error h
        exact iff_of_true (corrected_writeSecret hruns haccepting) nofun
  | deleteSecret path query =>
      rcases runs_extracting h with ⟨_, rfl, rfl, -⟩ | ⟨raw, rfl, h⟩
      · exact iff_of_true trivial nofun
      · rcases runs_extracting h with ⟨_, rfl, rfl, -⟩ | ⟨query, rfl, h⟩
        · exact iff_of_true trivial nofun
        · obtain ⟨e, hruns, -⟩ := runs_mapError_error h
          exact iff_of_true (corrected_deleteSecret hruns haccepting) nofun
  | listVersions path =>
      rcases runs_extracting h with ⟨_, rfl, rfl, -⟩ | ⟨raw, rfl, h⟩
      · exact iff_of_true trivial nofun
      · obtain ⟨e, hruns, -⟩ := runs_mapError_error h
        exact iff_of_true (corrected_listVersions hruns haccepting) nofun
  | listPaths start rotation =>
      rcases runs_extracting h with ⟨_, rfl, rfl, -⟩ | ⟨raw, rfl, h⟩
      · exact iff_of_true trivial nofun
      · rcases runs_extracting h with ⟨_, rfl, rfl, -⟩ | ⟨rotation, rfl, h⟩
        · exact iff_of_true trivial nofun
        · obtain ⟨e, hruns, -⟩ := runs_mapError_error h
          exact iff_of_true (corrected_listPaths hruns haccepting) nofun
  | exportPaths body =>
      obtain ⟨e, hruns, -⟩ := runs_mapError_error h
      exact iff_of_true (corrected_exportPaths hruns haccepting) nofun
  | readSurface =>
      obtain ⟨e, hruns, -⟩ := runs_mapError_error h
      exact iff_of_true (corrected_inspecting hruns haccepting) nofun
  | readHoneypots =>
      obtain ⟨e, hruns, -⟩ := runs_mapError_error h
      exact iff_of_true (corrected_readHoneypots hruns haccepting) nofun
  | readAudit query =>
      rcases runs_extracting h with ⟨_, rfl, rfl, -⟩ | ⟨query, rfl, h⟩
      · exact iff_of_true trivial nofun
      · obtain ⟨e, hruns, -⟩ := runs_mapError_error h
        exact readAudit_corrected_iff hroute hruns haccepting
  | readIdentities =>
      obtain ⟨e, hruns, -⟩ := runs_mapError_error h
      exact iff_of_true (corrected_inspecting hruns haccepting) nofun
  | readPolicies =>
      obtain ⟨e, hruns, -⟩ := runs_mapError_error h
      exact iff_of_true (corrected_inspecting hruns haccepting) nofun
  | readTokens identity =>
      rcases runs_extracting h with ⟨_, rfl, rfl, -⟩ | ⟨identity, rfl, h⟩
      · exact iff_of_true trivial nofun
      · obtain ⟨e, hruns, -⟩ := runs_mapError_error h
        exact readTokens_corrected_iff hroute hruns haccepting
  | revokeToken tokenId =>
      rcases runs_extracting h with ⟨_, rfl, rfl, -⟩ | ⟨tokenId, rfl, h⟩
      · exact iff_of_true trivial nofun
      · obtain ⟨e, hruns, -⟩ := runs_mapError_error h
        exact iff_of_true (corrected_revokeToken hruns haccepting) nofun
  | oidcLogin body =>
      obtain ⟨e, hruns, -⟩ := runs_mapError_error h
      exact iff_of_true (corrected_oidcLogin hruns haccepting) nofun
  | unmatched reason =>
      obtain ⟨e, hruns, -⟩ := runs_mapError_error h
      exact iff_of_true (runs_refusedRequest hruns).2.refusing.corrected nofun

theorem Overclaims.registered {request : ApiRequest}
    (h : Overclaims deployment headers acts request) : request.registered deployment = true := by
  cases h with
  | version => rfl
  | page _ _ hroute => exact hroute
  | tokens _ _ hroute => exact hroute

/-- Whenever the devices accept what they are given and the answer is an error, the trail takes back
what it claims, except for the requests above. -/
theorem serve_corrected_iff {request : ApiRequest} {error : HttpError}
    (h : Runs (serve deployment headers request) acts (.error error)) (haccepting : Accepting acts) :
    Corrected (entries acts) ↔ ¬ Overclaims deployment headers acts request := by
  unfold serve at h
  split at h
  · rename_i hroute
    exact handle_corrected_iff hroute h haccepting
  · rename_i hroute
    obtain ⟨e, hruns, -⟩ := runs_mapError_error h
    refine iff_of_true (runs_refusedRequest hruns).2.refusing.corrected fun hover => ?_
    exact hroute hover.registered

end Requests

end Answers

namespace Sample

/-- `GET /v1/secrets/infra/DB?version=0`, whose version no secret has. -/
def versionZero : ApiRequest := .readSecret (.ok "infra/DB") (.ok ⟨some 0⟩)

def versionZeroActs : List (ApiAct asciiUnicode) :=
  [⟨.authenticate presented, .ok (.valid ci)⟩,
    ⟨.record (decisionEntry (deployment.callerOf ci) .read dbPath none headers.requestContext
      (deployment.authorize (deployment.callerOf ci) .read dbPath) none), .ok ()⟩]

theorem versionZero_runs : Runs (serve deployment headers versionZero) versionZeroActs
    (.error (.api (.badRequest "version must be greater than zero"))) := by
  apply runs_mapError_iff.mpr
  refine ⟨.error (.badRequest "version must be greater than zero"), ?_, rfl⟩
  exact runs_readSecret_of headers_bearerToken parsePath_dbPath rfl deployment_allows
    (.bind_error (runs_ofExcept_iff.mpr ⟨rfl, rfl⟩))

theorem versionZero_accepting : Accepting versionZeroActs := by
  intro entry error hmem
  rcases List.mem_cons.mp hmem with heq | hmem
  · cases heq
  · cases List.mem_singleton.mp hmem

theorem versionZero_granted : Granted deployment headers .read dbPath versionZeroActs := by
  refine ⟨deployment.callerOf ci, ⟨[_], [_], rfl, presented, ci, headers_bearerToken, rfl, rfl⟩,
    deployment_allows, ?_⟩
  exact lookedUp_cons (fun _ _ heq => by cases heq)
    (lookedUp_cons (fun _ _ heq => by cases heq) lookedUp_nil)

/-- `GET /v1/secrets/infra/DB`, where there is no such secret. -/
def missingSecret : ApiRequest := .readSecret (.ok "infra/DB") (.ok ⟨none⟩)

def missingSecretActs : List (ApiAct asciiUnicode) :=
  [⟨.authenticate presented, .ok (.valid ci)⟩,
    ⟨.record (decisionEntry (deployment.callerOf ci) .read dbPath none headers.requestContext
      (deployment.authorize (deployment.callerOf ci) .read dbPath) none), .ok ()⟩,
    ⟨.get dbPath none, .error (.notFound "infra/DB")⟩,
    ⟨.record (outcomeEntry (deployment.callerOf ci) .read (some dbPath) headers.requestContext 404
      (some "not-found")), .ok ()⟩]

theorem missingSecret_runs : Runs (serve deployment headers missingSecret) missingSecretActs
    (.error (.api (ApiError.ofStore (.notFound "infra/DB")))) := by
  apply runs_mapError_iff.mpr
  refine ⟨.error (ApiError.ofStore (.notFound "infra/DB")), ?_, rfl⟩
  refine runs_readSecret_of headers_bearerToken parsePath_dbPath rfl deployment_allows ?_
  refine Runs.ofExcept_bind (a := none) rfl (Runs.ask_bind rfl ?_)
  exact Runs.ask_bind rfl (.done _)

theorem missingSecret_accepting : Accepting missingSecretActs := by
  intro entry error hmem
  simp only [missingSecretActs, List.mem_cons, List.not_mem_nil, or_false] at hmem
  rcases hmem with heq | heq | heq | heq <;> cases heq

/-- A read of a secret that is not there is corrected. A read of a version that no secret has is not: the
trail says that the secret was read, and the answer says that there is no such version. -/
theorem missing_corrected_versionZero_overclaims :
    Corrected (entries missingSecretActs) ∧ ¬ Corrected (entries versionZeroActs) := by
  rw [serve_corrected_iff missingSecret_runs missingSecret_accepting,
    serve_corrected_iff versionZero_runs versionZero_accepting, not_not]
  exact ⟨nofun, .version "infra/DB" dbPath parsePath_dbPath versionZero_granted⟩

theorem serve_not_corrected :
    ¬ ∀ (deployment : Deployment) (headers : Headers) (request : ApiRequest)
      (acts : List (ApiAct asciiUnicode)) (error : HttpError),
      Runs (serve deployment headers request) acts (.error error) → Accepting acts →
        Corrected (entries acts) := by
  intro hclaim
  refine not_corrected_singleton ?_
    (hclaim deployment headers versionZero _ _ versionZero_runs versionZero_accepting)
  decide +kernel

end Sample

end Ciphr
