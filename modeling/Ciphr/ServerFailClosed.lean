import Ciphr.ServerTurns
import Ciphr.ServerDevices
import Ciphr.StoreTokenLife

/-!
Nothing is given away and nothing is changed before the trail says in whose name: the read, export,
write, delete, revoke and login handlers, with devices that may refuse any record.
-/

namespace Ciphr

open Script

/-- The entry allows the principal the action on the path. A trip has taken the place of the action,
or not. -/
structure Entry.Grants (entry : Entry) (principal : Principal) (action : Action) (path : String) :
    Prop where
  allowed : entry.allowed = true
  principal : entry.principal = some principal
  action : entry.action = action ∨
    entry.action = .honeypotTriggered ∧ entry.detail = some ("attempted: " ++ action.asStr)
  path : entry.path = some path

/-- One of the entries allows it. -/
def Allows (trail : List Entry) (principal : Principal) (action : Action) (path : String) : Prop :=
  ∃ entry ∈ trail, entry.Grants principal action path

section Answers

variable {u : Unicode} {principal : Principal} {seen : List Entry} {acts : List (ApiAct u)}

theorem Allows.mono {trail trail' : List Entry} {action : Action} {path : String}
    (h : Allows trail principal action path) (hsub : trail ⊆ trail') :
    Allows trail' principal action path := by
  obtain ⟨entry, hmem, hgrants⟩ := h
  exact ⟨entry, hsub hmem, hgrants⟩

theorem forall₂_of_common {α β γ : Type} {R : α → β → Prop} {S : α → γ → Prop} {T : β → γ → Prop}
    {as : List α} {bs : List β} {cs : List γ} (hR : List.Forall₂ R as bs) (hS : List.Forall₂ S as cs)
    (h : ∀ a b c, R a b → S a c → T b c) : List.Forall₂ T bs cs := by
  induction hR generalizing cs with
  | nil =>
      cases hS
      exact .nil
  | cons hab _ ih =>
      cases hS with
      | cons hac hrest => exact .cons (h _ _ _ hab hac) (ih hrest)

theorem entries_cons (act : ApiAct u) (acts : List (ApiAct u)) :
    entries (act :: acts) = act.committed.toList ++ entries acts := by
  unfold entries
  rw [List.filterMap_cons]
  cases act.committed with
  | none => rfl
  | some entry => rfl

/-! ### Decisions -/

/-- No row changed and no value was read. -/
def Unguarded (acts : List (ApiAct u)) : Prop := ∀ act ∈ acts, act.isGuarded = false

theorem Refusing.unguarded (h : Refusing acts) : Unguarded acts := by
  intro act hmem
  have hrefuses := h act hmem
  unfold ApiAct.refuses at hrefuses
  rw [Bool.and_eq_true, Bool.not_eq_true'] at hrefuses
  exact hrefuses.2

theorem Quiet.unguarded (h : Quiet acts) : Unguarded acts := h.refusing.unguarded

theorem Unguarded.append {acts' : List (ApiAct u)} (h : Unguarded acts) (h' : Unguarded acts') :
    Unguarded (acts ++ acts') := by
  intro act hmem
  rcases List.mem_append.mp hmem with hleft | hright
  · exact h act hleft
  · exact h' act hright

theorem unguarded_record {entry : Entry} {reply : Except ApiError Unit} :
    Unguarded [(⟨.record entry, reply⟩ : ApiAct u)] := by
  intro act hmem
  rw [List.mem_singleton.mp hmem]
  rfl

theorem RefusedWith.unguarded {α : Type} {entry : Entry} {result : Except ApiError α}
    (h : RefusedWith entry acts result) : Unguarded acts := by
  obtain ⟨reply, error, rfl, -⟩ := h
  exact unguarded_record

variable {deployment : Deployment} {headers : Headers} {caller : Caller} {action : Action}
  {capability : Capability} {path : SecretPath u} {subject : Option Principal}
  {request : RequestContext}

theorem decisionEntry_grants {decision : Decision} {bait : Option HoneypotTier}
    (hallowed : decision.isAllowed = true) :
    (decisionEntry caller action path subject request decision bait).Grants caller.asPrincipal action
      path.text := by
  unfold decisionEntry Entry.withRule? Entry.withSubject?
  rw [hallowed]
  constructor
  · cases bait <;> cases subject <;> cases decision.rule <;> rfl
  · cases bait <;> cases subject <;> cases decision.rule <;> rfl
  · cases bait with
    | none => exact .inl (by cases subject <;> cases decision.rule <;> rfl)
    | some tier => exact .inr (by cases subject <;> cases decision.rule <;> exact ⟨rfl, rfl⟩)
  · cases bait <;> cases subject <;> cases decision.rule <;> rfl

theorem Decided.unguarded {result : Except ApiError Unit}
    (h : Decided deployment caller action capability path subject request acts result) :
    Unguarded acts := by
  cases h with
  | lookupFailed => exact (quiet_singleton rfl).unguarded
  | unrecorded look bait refused hlook => exact hlook.quiet.unguarded.append unguarded_record
  | denied => exact unguarded_record
  | allowed look more bait hallowed hbait hlook hmore =>
      exact hlook.quiet.unguarded.append (unguarded_record.append hmore.quiet.unguarded)

theorem Decided.allows
    (h : Decided deployment caller action capability path subject request acts (.ok ())) :
    ∃ claim, entries acts = [claim] ∧ claim.Grants caller.asPrincipal action path.text := by
  obtain ⟨hallowed, bait, -, hentries⟩ := h.entries_ok
  exact ⟨_, hentries, decisionEntry_grants hallowed⟩

theorem DecidedFor.unguarded {result : Except ApiError Unit}
    (h : DecidedFor deployment headers caller action capability path subject acts result) :
    Unguarded acts := by
  obtain ⟨front, looked, decided, rfl, hpresented, hlooked, -, hdecided⟩ := h
  exact hpresented.quiet.unguarded.append (hlooked.unguarded.append hdecided.unguarded)

theorem DecidedFor.allows
    (h : DecidedFor deployment headers caller action capability path subject acts (.ok ())) :
    Allows (entries acts) caller.asPrincipal action path.text := by
  obtain ⟨hallowed, bait, -, hentries⟩ := h.entries_ok
  exact ⟨_, by rw [hentries]; exact List.mem_singleton_self _, decisionEntry_grants hallowed⟩

/-! ### Calls and answers -/

/-- The store answers with the secret that was asked for. -/
def Addressed (acts : List (ApiAct u)) : Prop :=
  ∀ path version stored, (⟨.get path version, .ok stored⟩ : ApiAct u) ∈ acts → stored.path = path

variable [ReservedPaths u]

/-- The entry that names a token which a login mints. -/
def Mints (u : Unicode) [ReservedPaths u] (trail : List Entry) (principal : Principal)
    (identity tokenId : String) : Prop :=
  ∃ entry ∈ trail, entry.Grants principal .federateToken (reservedPath .tokens : SecretPath u).text ∧
    ∃ kind, entry.subject = some ⟨identity, kind, some tokenId⟩

/-- What the trail has to say before a call that changes a row or reads a value. -/
def Covers (principal : Principal) (trail : List Entry) : ApiCall u → Prop
  | .get path _ => Allows trail principal .read path.text
  | .putWithRotation path _ rotation _ => Allows trail principal .write path.text ∧
      (rotation.isSome = true → Allows trail principal .classify path.text)
  | .delete path _ => Allows trail principal .delete path.text
  | .revokeToken _ =>
      Allows trail principal .revokeToken (reservedPath .tokens : SecretPath u).text
  | .issueToken identity token _ _ => Mints u trail principal identity token.id.asText
  | _ => True

/-- What the trail has to say before an answer: of a token that it names, and of each value that it
serves in an entry of its own. -/
def CoversAnswer (u : Unicode) [ReservedPaths u] (principal : Principal) (trail : List Entry) :
    ApiResponse → Prop
  | .secret response => Allows trail principal .read response.path
  | .exported secrets => ∃ claims : List Entry, claims.Sublist trail ∧
      List.Forall₂ (fun secret entry => entry.Grants principal .read secret.path) secrets claims
  | .loggedIn response => Mints u trail principal response.identity response.tokenId
  | _ => True

/-- Every call is covered by what was committed before it. -/
def Covered (principal : Principal) : List Entry → List (ApiAct u) → Prop
  | _, [] => True
  | seen, act :: acts =>
      Covers principal seen act.1 ∧ Covered principal (seen ++ act.committed.toList) acts

theorem covered_append {acts' : List (ApiAct u)} :
    Covered principal seen (acts ++ acts') ↔
      Covered principal seen acts ∧ Covered principal (seen ++ entries acts) acts' := by
  induction acts generalizing seen with
  | nil =>
      change Covered principal seen acts' ↔ True ∧ Covered principal (seen ++ []) acts'
      rw [List.append_nil, true_and]
  | cons act acts ih =>
      change Covers principal seen act.1 ∧ Covered principal _ (acts ++ acts') ↔ _
      rw [ih, entries_cons, ← List.append_assoc]
      exact and_assoc.symm

theorem Covered.before {front later : List (ApiAct u)} {act : ApiAct u}
    (h : Covered principal seen (front ++ act :: later)) :
    Covers principal (seen ++ entries front) act.1 :=
  (covered_append.mp h).2.1

theorem covers_of_not_isGuarded {act : ApiAct u} (h : act.isGuarded = false) :
    Covers principal seen act.1 := by
  obtain ⟨c, reply⟩ := act
  cases c with
  | get | putWithRotation | delete | revokeToken | issueToken => cases h
  | _ => exact trivial

theorem Unguarded.covered (h : Unguarded acts) : Covered principal seen acts := by
  induction acts generalizing seen with
  | nil => exact trivial
  | cons act acts ih =>
      exact ⟨covers_of_not_isGuarded (h act (List.mem_cons_self ..)),
        ih fun other hmem => h other (List.mem_cons_of_mem _ hmem)⟩

/-- The calls are covered, and so is what is answered. -/
structure Accounted {ε : Type} (principal : Principal) (seen : List Entry) (acts : List (ApiAct u))
    (result : Except ε ApiResponse) : Prop where
  calls : Covered principal seen acts
  answer : Addressed acts → ∀ response, result = .ok response →
    CoversAnswer u principal (seen ++ entries acts) response

theorem accounted_error {ε : Type} {error : ε} (h : Covered principal seen acts) :
    Accounted principal seen acts (.error error) := by
  refine ⟨h, fun _ response hok => ?_⟩
  cases hok

theorem Accounted.append {more : List (ApiAct u)} {result : Except ApiError ApiResponse}
    (h : Unguarded acts) (hmore : Accounted principal (seen ++ entries acts) more result) :
    Accounted principal seen (acts ++ more) result := by
  refine ⟨covered_append.mpr ⟨h.covered, hmore.calls⟩, fun haddressed response hok => ?_⟩
  rw [entries_append, ← List.append_assoc]
  exact hmore.answer
    (fun path version stored hmem => haddressed path version stored (List.mem_append_right _ hmem))
    response hok

/-- Nothing was read or changed and the answer is an error, or all is accounted for in the name of
the caller. -/
def FailsClosed (deployment : Deployment) (headers : Headers) (acts : List (ApiAct u))
    (result : Except ApiError ApiResponse) : Prop :=
  (Unguarded acts ∧ ∃ error, result = .error error) ∨
    ∃ caller, KnownCaller deployment headers caller acts ∧
      Accounted caller.asPrincipal [] acts result

/-- What was allowed is accounted for, once the entry that allowed it is. -/
theorem DecidedFor.failsClosed {more : List (ApiAct u)} {result : Except ApiError ApiResponse}
    (h : DecidedFor deployment headers caller action capability path subject acts (.ok ()))
    (hmore : Accounted caller.asPrincipal (entries acts) more result) :
    FailsClosed deployment headers (acts ++ more) result :=
  .inr ⟨caller, h.known.append, Accounted.append h.unguarded hmore⟩

theorem Gated.failsClosed {β : Type} {raw : String} {check : SecretPath u → Except ApiError β}
    {rest : Caller → SecretPath u → β → Api u ApiResponse} {result : Except ApiError ApiResponse}
    (h : Gated deployment headers action capability raw check rest acts result)
    (hrest : ∀ {caller path b seen more result}, Allows seen caller.asPrincipal action path.text →
      Runs (rest caller path b) more result → Accounted caller.asPrincipal seen more result) :
    FailsClosed deployment headers acts result := by
  cases h with
  | turnedAway error haway => exact .inl ⟨haway.refusing.unguarded, error, rfl⟩
  | unchecked caller path error hpresented => exact .inl ⟨hpresented.quiet.unguarded, error, rfl⟩
  | undecided caller path b error hparse hcheck hdecided =>
      exact .inl ⟨hdecided.unguarded, error, rfl⟩
  | admitted caller path b hparse hcheck hadmitted hruns =>
      exact hadmitted.failsClosed (hrest hadmitted.allows hruns)

/-! ### One secret -/

theorem accounted_serveSecret {version : Option SecretVersion}
    {result : Except ApiError ApiResponse}
    (h : Runs (serveSecret deployment headers caller path version) acts result)
    (hallows : Allows seen caller.asPrincipal .read path.text) :
    Accounted caller.asPrincipal seen acts result := by
  rcases runs_serveSecret h with ⟨stored, value, rfl, hvalue, rfl⟩ |
    ⟨outcome, corrected, status, reason, rfl, hrefused⟩
  · refine ⟨⟨hallows, trivial⟩, fun haddressed response hok => ?_⟩
    cases hok
    change Allows _ _ _ stored.path.text
    rw [haddressed path version stored (List.mem_singleton_self _)]
    exact hallows.mono (List.subset_append_left ..)
  · obtain ⟨_, error, -, rfl⟩ := id hrefused
    exact accounted_error ⟨hallows, hrefused.unguarded.covered⟩

theorem readSecret_failsClosed {raw : String} {query : VersionQuery}
    {result : Except ApiError ApiResponse}
    (h : Runs (readSecret deployment headers raw query : Api u ApiResponse) acts result) :
    FailsClosed deployment headers acts result := by
  apply (runs_readSecret h).failsClosed
  intro caller path _ seen more result hallows hruns
  rcases runs_bind_iff.mp hruns with ⟨e, hversion, rfl⟩ | ⟨version, front, rest, rfl, hversion, hserve⟩
  · obtain ⟨rfl, -⟩ := runs_ofExcept_iff.mp hversion
    exact accounted_error quiet_nil.unguarded.covered
  · obtain ⟨rfl, -⟩ := runs_ofExcept_iff.mp hversion
    exact accounted_serveSecret hserve hallows

theorem accounted_storeSecret {rotation : Option Rotation} {value : String}
    {result : Except ApiError ApiResponse}
    (h : Runs (storeSecret deployment headers caller path rotation value) acts result)
    (hwrite : Allows seen caller.asPrincipal .write path.text)
    (hclassify : rotation.isSome = true → Allows seen caller.asPrincipal .classify path.text) :
    Accounted caller.asPrincipal seen acts result := by
  obtain ⟨outcome, corrected, rfl, hrefusing, hended⟩ := runs_storeSecret h
  refine ⟨⟨⟨hwrite, hclassify⟩, hrefusing.unguarded.covered⟩, fun _ response hok => ?_⟩
  rcases hended with ⟨version, -, -, rfl⟩ | ⟨⟨error, rfl⟩, -⟩
  · cases hok
    exact trivial
  · cases hok

theorem writeSecret_failsClosed {raw : String} {body : Except String SecretBody}
    {result : Except ApiError ApiResponse}
    (h : Runs (writeSecret deployment headers raw body : Api u ApiResponse) acts result) :
    FailsClosed deployment headers acts result := by
  rcases runs_writeSecret h with ⟨error, -, rfl, haway⟩ | ⟨parsed, rfl, hgated⟩
  · exact .inl ⟨haway.refusing.unguarded, error, rfl⟩
  · apply hgated.failsClosed
    intro caller path rotation seen more result hwrite hruns
    rcases runs_classifyAndStore hruns with ⟨error, rfl, hundecided⟩ |
      ⟨classified, stored, rfl, ⟨rfl, rfl⟩ | ⟨hsome, hclassified⟩, hstored⟩
    · exact accounted_error hundecided.unguarded.covered
    · exact accounted_storeSecret hstored hwrite nofun
    · obtain ⟨claim, hentries, hgrants⟩ := hclassified.allows
      apply Accounted.append hclassified.unguarded
      rw [hentries]
      apply accounted_storeSecret hstored (hwrite.mono (List.subset_append_left ..))
      exact fun _ => ⟨claim, List.mem_append_right _ (List.mem_singleton_self _), hgrants⟩

/-- Work that is covered, and is corrected if it fails, with an answer that gives nothing away. -/
theorem accounted_completeOrRecord {α : Type} {reason : String} {work : Api u α}
    {rest : α → Api u ApiResponse} {result : Except ApiError ApiResponse}
    (h : Runs (completeOrRecord caller action path request reason work >>= rest) acts result)
    (hwork : ∀ {worked ended}, Runs work worked ended → Covered principal seen worked)
    (hrest : ∀ {a more ended}, Runs (rest a) more ended →
      more = [] ∧ ∃ answer, ended = .ok answer ∧ ∀ trail, CoversAnswer u principal trail answer) :
    Accounted principal seen acts result := by
  rcases runs_bind_iff.mp h with ⟨error, hcomplete, rfl⟩ | ⟨a, completed, more, rfl, hcomplete, hmore⟩
  · rcases runs_completeOrRecord hcomplete with ⟨_, -, hok⟩ |
      ⟨failed, worked, corrected, rfl, hworked, hcorrected⟩
    · cases hok
    · apply accounted_error
      exact covered_append.mpr ⟨hwork hworked, hcorrected.unguarded.covered⟩
  · obtain ⟨rfl, answer, rfl, hanswer⟩ := hrest hmore
    rcases runs_completeOrRecord hcomplete with ⟨_, hworked, hok⟩ |
      ⟨failed, worked, corrected, rfl, hworked, hcorrected⟩
    · rw [List.append_nil]
      refine ⟨hwork hworked, fun _ response heq => ?_⟩
      cases heq
      exact hanswer _
    · obtain ⟨_, _, -, herror⟩ := hcorrected
      cases herror

theorem deleteSecret_failsClosed {raw : String} {query : VersionQuery}
    {result : Except ApiError ApiResponse}
    (h : Runs (deleteSecret deployment headers raw query : Api u ApiResponse) acts result) :
    FailsClosed deployment headers acts result := by
  apply (runs_deleteSecret h).failsClosed
  intro caller path _ seen more result hallows hruns
  apply accounted_completeOrRecord hruns
  · intro worked ended hworked
    rcases runs_deleteVersion hworked with hquiet | ⟨quiet, version, outcome, hquiet, rfl⟩
    · exact hquiet.unguarded.covered
    · apply covered_append.mpr
      exact ⟨hquiet.unguarded.covered, hallows.mono (List.subset_append_left ..), trivial⟩
  · intro _ more ended hmore
    obtain ⟨rfl, rfl⟩ := runs_pure_iff.mp hmore
    exact ⟨rfl, _, rfl, fun _ => trivial⟩

/-! ### Several secrets -/

theorem Exporting.covered {request : RequestContext} {paths new : List (SecretPath u)} {bytes : Nat}
    {ended : Except ApiError (List ExportedSecret)}
    (h : Exporting deployment caller request paths bytes acts new ended) :
    Covered caller.asPrincipal seen acts := by
  induction h generalizing seen with
  | done => exact trivial
  | undecided paths bytes error hdecided => exact hdecided.unguarded.covered
  | unserved paths bytes error hdecided hasked =>
      obtain ⟨outcome, rfl, -⟩ := runs_exportSecret hasked
      obtain ⟨claim, hentries, hgrants⟩ := hdecided.allows
      apply covered_append.mpr
      rw [hentries]
      exact ⟨hdecided.unguarded.covered,
        ⟨claim, List.mem_append_right _ (List.mem_singleton_self _), hgrants⟩, trivial⟩
  | served hdecided hasked hrest ih =>
      obtain ⟨outcome, rfl, -⟩ := runs_exportSecret hasked
      obtain ⟨claim, hentries, hgrants⟩ := hdecided.allows
      apply covered_append.mpr
      rw [hentries]
      exact ⟨hdecided.unguarded.covered,
        ⟨claim, List.mem_append_right _ (List.mem_singleton_self _), hgrants⟩, ih⟩

omit [ReservedPaths u] in
/-- A loop that comes to its end has a claim for each path, and has read each one. -/
theorem exporting_served {request : RequestContext} {paths new : List (SecretPath u)} {bytes : Nat}
    {ended : Except ApiError (List ExportedSecret)} {secrets : List ExportedSecret}
    (h : Exporting deployment caller request paths bytes acts new ended) (hended : ended = .ok secrets) :
    List.Forall₂ (fun path entry => entry.Grants caller.asPrincipal .read path.text) paths
        (entries acts) ∧
      List.Forall₂ (fun (path : SecretPath u) secret => ∃ stored value,
        (⟨.get path none, .ok stored⟩ : ApiAct u) ∈ acts ∧
          decryptToText deployment stored = .ok value ∧
          secret = ⟨stored.path.text, stored.version.number, value⟩) paths secrets := by
  induction h generalizing secrets with
  | done =>
      cases hended
      exact ⟨.nil, .nil⟩
  | undecided => cases hended
  | unserved => cases hended
  | @served path decided asked more paths new bytes bytes' secret ended hdecided hasked hrest ih =>
      cases ended with
      | error error => cases hended
      | ok rest =>
          cases hended
          obtain ⟨claim, hentries, hgrants⟩ := hdecided.allows
          obtain ⟨outcome, rfl, hserved⟩ := runs_exportSecret hasked
          obtain ⟨stored, value, rfl, hvalue, hsecret⟩ := hserved secret bytes' rfl
          obtain ⟨hclaims, hsecrets⟩ := ih rfl
          constructor
          · rw [entries_append, entries_append, hentries]
            exact .cons hgrants hclaims
          · refine .cons ⟨stored, value, by simp, hvalue, hsecret⟩ (hsecrets.imp ?_)
            rintro other one ⟨found, text, hmem, htext, rfl⟩
            exact ⟨found, text, List.mem_append_right _ (List.mem_append_right _ hmem), htext, rfl⟩

omit [ReservedPaths u] in
/-- An export that is served has recorded one entry for each value, and nothing else. -/
theorem exporting_claims {request : RequestContext} {paths new : List (SecretPath u)} {bytes : Nat}
    {ended : Except ApiError (List ExportedSecret)}
    (h : Exporting deployment caller request paths bytes acts new ended) (haddressed : Addressed acts)
    {secrets : List ExportedSecret} (hok : ended = .ok secrets) :
    List.Forall₂ (fun secret entry => entry.Grants caller.asPrincipal .read secret.path) secrets
      (entries acts) := by
  obtain ⟨hclaims, hsecrets⟩ := exporting_served h hok
  apply forall₂_of_common hsecrets hclaims
  rintro path secret entry ⟨stored, value, hmem, -, rfl⟩ hgrants
  rwa [haddressed path none stored hmem]

theorem exportPaths_failsClosed {body : Except String (List String)}
    {result : Except ApiError ApiResponse}
    (h : Runs (exportPaths deployment headers body : Api u ApiResponse) acts result) :
    FailsClosed deployment headers acts result := by
  cases runs_exportPaths h with
  | turnedAway error haway => exact .inl ⟨haway.refusing.unguarded, error, rfl⟩
  | malformed caller raw refused hbody hpresented hinvalid hrefused =>
      obtain ⟨_, error, -, rfl⟩ := id hrefused
      exact .inl ⟨hpresented.quiet.unguarded.append hrefused.unguarded, error, rfl⟩
  | @checked front more _ caller raw paths hbody hpresented hvalid hserved =>
      refine .inr ⟨caller, ⟨front, more, rfl, hpresented⟩, Accounted.append hpresented.quiet.unguarded ?_⟩
      obtain ⟨exported, corrected, new, ended, rfl, hexporting,
        ⟨secrets, rfl, rfl, rfl⟩ | ⟨error, refused, rfl, rfl, hrefusing, -⟩⟩ := runs_serveExport hserved
      · rw [List.append_nil]
        refine ⟨hexporting.covered, fun haddressed response hok => ?_⟩
        cases hok
        exact ⟨entries exported, List.sublist_append_right .., exporting_claims hexporting haddressed rfl⟩
      · exact accounted_error (covered_append.mpr ⟨hexporting.covered, hrefusing.unguarded.covered⟩)

/-! ### Tokens -/

theorem revokeToken_failsClosed {tokenId : String} {result : Except ApiError ApiResponse}
    (h : Runs (revokeToken deployment headers tokenId : Api u ApiResponse) acts result) :
    FailsClosed deployment headers acts result := by
  cases runs_revokeToken h with
  | turnedAway error haway => exact .inl ⟨haway.refusing.unguarded, error, rfl⟩
  | unanswered caller error hpresented =>
      exact .inl ⟨hpresented.quiet.unguarded.append (quiet_singleton rfl).unguarded, _, rfl⟩
  | undecided caller record error hlooked hdecided => exact .inl ⟨hdecided.unguarded, error, rfl⟩
  | unknown caller hlooked hadmitted => exact .inl ⟨hadmitted.unguarded, _, rfl⟩
  | failed caller found error status hlooked hadmitted hcorrected =>
      apply hadmitted.failsClosed
      obtain ⟨_, refused, -, rfl⟩ := id hcorrected
      exact accounted_error ⟨hadmitted.allows, hcorrected.unguarded.covered⟩
  | revoked caller found revokedNow hadmitted =>
      apply hadmitted.failsClosed
      refine ⟨⟨hadmitted.allows, trivial⟩, fun _ response hok => ?_⟩
      cases hok
      exact trivial

/-- The principal of a login: the provider. -/
def providerPrincipal (provider : String) : Principal := ⟨"oidc:" ++ provider, some "oidc", none⟩

theorem federationEntry_mints {provider identity tokenId : String} {subject : Option String}
    {status : Nat} : Mints u [federationEntry (u := u) deployment provider subject
      (.minted identity tokenId) status request] (providerPrincipal provider) identity tokenId := by
  refine ⟨_, List.mem_singleton_self _, ?_, deployment.kindOf identity, ?_⟩
  · unfold federationEntry
    constructor
    · cases subject <;> rfl
    · cases subject <;> rfl
    · cases subject <;> exact .inl rfl
    · cases subject <;> rfl
  · unfold federationEntry
    cases subject <;> rfl

theorem Minting.accounted {accepted : Oidc.Accepted} {asked : Option Int} {now : Int}
    {result : Except ApiError ApiResponse}
    (h : Minting deployment headers accepted asked now acts result) :
    Accounted (providerPrincipal accepted.provider) [] acts result := by
  cases h with
  | ungenerated detail => exact accounted_error (quiet_singleton rfl).unguarded.covered
  | unrecorded token refused =>
      exact accounted_error ((quiet_singleton rfl).unguarded.append unguarded_record).covered
  | failed token error status hcorrected =>
      obtain ⟨_, refused, -, rfl⟩ := id hcorrected
      exact accounted_error ⟨trivial, trivial, federationEntry_mints, hcorrected.unguarded.covered⟩
  | minted token =>
      refine ⟨⟨trivial, trivial, federationEntry_mints, trivial⟩, fun _ response hok => ?_⟩
      cases hok
      exact federationEntry_mints

/-- A login fails closed in the name of the provider whose exchange was accepted. -/
theorem oidcLogin_failsClosed {body : Except String OidcLoginRequest}
    {result : Except ApiError ApiResponse}
    (h : Runs (oidcLogin deployment headers body : Api u ApiResponse) acts result) :
    (Unguarded acts ∧ ∃ error, result = .error error) ∨
      ∃ login now accepted, body = .ok login ∧ (⟨.nowMillis, now⟩ : ApiAct u) ∈ acts ∧
        deployment.federation.exchange deployment.libraries login.idToken now = .accepted accepted ∧
        Accounted (providerPrincipal accepted.provider) [] acts result := by
  cases runs_oidcLogin h with
  | turnedAway text error hbody haway => exact .inl ⟨haway.refusing.unguarded, error, rfl⟩
  | misshapen now login error => exact .inl ⟨(quiet_singleton rfl).unguarded, error, rfl⟩
  | unverifiable now => exact .inl ⟨(quiet_singleton rfl).unguarded, _, rfl⟩
  | refused now login asked provider subject reason hbody hasked hexchange hrecorded =>
      obtain ⟨_, error, -, rfl⟩ := id hrecorded
      exact .inl ⟨(quiet_singleton rfl).unguarded.append hrecorded.unguarded, error, rfl⟩
  | @accepted minted _ now login asked accepted hbody hasked hexchange hminted =>
      refine .inr ⟨login, now, accepted, hbody, List.mem_cons_self .., hexchange, ?_⟩
      change Accounted _ [] ([⟨.nowMillis, now⟩] ++ minted) _
      exact Accounted.append (quiet_singleton rfl).unguarded (runs_mintToken hminted).accounted

/-! ### Requests -/

/-- The requests that read values or change rows. -/
def ApiRequest.touchesStore : ApiRequest → Bool
  | .readSecret _ _ | .exportPaths _ | .writeSecret _ _ | .deleteSecret _ _ | .revokeToken _
  | .oidcLogin _ => true
  | _ => false

/-- In whose name a request acts: that of the caller whom the token table knew, or, for a login, that
of the provider whose exchange was accepted. -/
inductive ActsFor (deployment : Deployment) (headers : Headers) (acts : List (ApiAct u)) :
    ApiRequest → Principal → Prop where
  | caller (request : ApiRequest) (caller : Caller) (hlogin : ∀ body, request ≠ .oidcLogin body)
      (hknown : KnownCaller deployment headers caller acts) :
      ActsFor deployment headers acts request caller.asPrincipal
  | provider (login : OidcLoginRequest) (now : Int) (accepted : Oidc.Accepted)
      (hnow : (⟨.nowMillis, now⟩ : ApiAct u) ∈ acts)
      (hexchange : deployment.federation.exchange deployment.libraries login.idToken now =
        .accepted accepted) :
      ActsFor deployment headers acts (.oidcLogin (.ok login)) (providerPrincipal accepted.provider)

/-- Nothing was read or changed and the answer is an error, or all is accounted for. -/
def AccountsFor (deployment : Deployment) (headers : Headers) (request : ApiRequest)
    (acts : List (ApiAct u)) (result : Except HttpError ApiResponse) : Prop :=
  (Unguarded acts ∧ ∃ error, result = .error error) ∨
    ∃ principal, ActsFor deployment headers acts request principal ∧
      Accounted principal [] acts result

theorem Accounted.mapError {result : Except ApiError ApiResponse}
    (h : Accounted principal seen acts result) :
    Accounted principal seen acts (result.mapError HttpError.api) := by
  refine ⟨h.calls, fun haddressed response hok => ?_⟩
  cases result with
  | error error => cases hok
  | ok answer =>
      cases hok
      exact h.answer haddressed _ rfl

theorem FailsClosed.accountsFor {request : ApiRequest} {result : Except ApiError ApiResponse}
    (h : FailsClosed deployment headers acts result) (hlogin : ∀ body, request ≠ .oidcLogin body) :
    AccountsFor deployment headers request acts (result.mapError .api) := by
  rcases h with ⟨hunguarded, error, rfl⟩ | ⟨caller, hknown, haccounted⟩
  · exact .inl ⟨hunguarded, .api error, rfl⟩
  · exact .inr ⟨_, .caller request caller hlogin hknown, haccounted.mapError⟩

/-- A handler that fails closed does so behind its extractors. -/
theorem accountsFor_handler {request : ApiRequest} {handler : Api u ApiResponse}
    {result : Except HttpError ApiResponse} (h : Runs (handler.mapError .api) acts result)
    (hlogin : ∀ body, request ≠ .oidcLogin body)
    (hhandler : ∀ {ended}, Runs handler acts ended → FailsClosed deployment headers acts ended) :
    AccountsFor deployment headers request acts result := by
  obtain ⟨ended, hruns, rfl⟩ := runs_mapError_iff.mp h
  exact (hhandler hruns).accountsFor hlogin

theorem handle_accountsFor {request : ApiRequest} {result : Except HttpError ApiResponse}
    (htouches : request.touchesStore = true)
    (h : Runs (handle deployment headers request) acts result) :
    AccountsFor deployment headers request acts result := by
  have hrejected : ∀ {text : String}, AccountsFor deployment headers request ([] : List (ApiAct u))
      (.error (.rejection text)) := fun {_} => .inl ⟨quiet_nil.unguarded, _, rfl⟩
  cases request with
  | readSecret path query =>
      rcases runs_extracting h with ⟨_, -, rfl, rfl⟩ | ⟨raw, rfl, h⟩
      · exact hrejected
      · rcases runs_extracting h with ⟨_, -, rfl, rfl⟩ | ⟨query, rfl, h⟩
        · exact hrejected
        · exact accountsFor_handler h nofun readSecret_failsClosed
  | writeSecret path body =>
      rcases runs_extracting h with ⟨_, -, rfl, rfl⟩ | ⟨raw, rfl, h⟩
      · exact hrejected
      · exact accountsFor_handler h nofun writeSecret_failsClosed
  | deleteSecret path query =>
      rcases runs_extracting h with ⟨_, -, rfl, rfl⟩ | ⟨raw, rfl, h⟩
      · exact hrejected
      · rcases runs_extracting h with ⟨_, -, rfl, rfl⟩ | ⟨query, rfl, h⟩
        · exact hrejected
        · exact accountsFor_handler h nofun deleteSecret_failsClosed
  | exportPaths body => exact accountsFor_handler h nofun exportPaths_failsClosed
  | revokeToken tokenId =>
      rcases runs_extracting h with ⟨_, -, rfl, rfl⟩ | ⟨tokenId, rfl, h⟩
      · exact hrejected
      · exact accountsFor_handler h nofun revokeToken_failsClosed
  | oidcLogin body =>
      obtain ⟨ended, hruns, rfl⟩ := runs_mapError_iff.mp h
      rcases oidcLogin_failsClosed hruns with ⟨hunguarded, error, rfl⟩ |
        ⟨login, now, accepted, rfl, hnow, hexchange, haccounted⟩
      · exact .inl ⟨hunguarded, .api error, rfl⟩
      · exact .inr ⟨_, .provider login now accepted hnow hexchange, haccounted.mapError⟩
  | health | listVersions | listPaths | readSurface | readHoneypots | readAudit | readIdentities
  | readPolicies | readTokens | unmatched => cases htouches

theorem serve_accountsFor {request : ApiRequest} {result : Except HttpError ApiResponse}
    (htouches : request.touchesStore = true)
    (h : Runs (serve deployment headers request) acts result) :
    AccountsFor deployment headers request acts result := by
  unfold serve at h
  split at h
  · exact handle_accountsFor htouches h
  · obtain ⟨ended, hruns, rfl⟩ := runs_mapError_iff.mp h
    obtain ⟨⟨error, rfl⟩, haway⟩ := runs_refusedRequest hruns
    exact .inl ⟨haway.refusing.unguarded, .api error, rfl⟩

end Answers

/-! ### On a process -/

theorem SecretTables.get_path {u : Unicode} {tables : SecretTables} {fault : SecretFault}
    {path : SecretPath u} {version : Option SecretVersion} {stored : StoredVersion u}
    (h : tables.get fault path version = .ok stored) : stored.path = path := by
  obtain ⟨found, -, h⟩ := Loop.bind_eq_ok h
  obtain ⟨wanted, -, h⟩ := Loop.bind_eq_ok h
  obtain ⟨_, -, h⟩ := Loop.bind_eq_ok h
  split at h
  · cases h
  · split at h
    · cases h
    · split at h
      · cases h
      · obtain ⟨dekId, -, h⟩ := Loop.bind_eq_ok h
        obtain ⟨dekNonce, -, h⟩ := Loop.bind_eq_ok h
        obtain ⟨valueNonce, -, h⟩ := Loop.bind_eq_ok h
        cases h
        rfl

section Process

variable {δ ω φ : Type} [AuditDevice δ ω φ] {u : Unicode} [ReservedPaths u] {deployment : Deployment}
  {codec : Codec} {json : JsonExtract} {database : ω → Database} {headers : Headers}
  {request : ApiRequest} {s last : Server δ ω}
  {turns : List (Turn (Server δ ω) (ApiCall u) ApiCall.Reply)}
  {result : Except HttpError ApiResponse}

omit [ReservedPaths u] in
theorem plays_addressed {ε α : Type} {script : Script (ApiCall u) ApiCall.Reply ε α}
    {between : Server δ ω → Server δ ω → Prop} {result : Except ε α}
    (h : Plays (Server.answer deployment codec json database) between s script turns result last) :
    Addressed (turns.map (·.act)) := by
  intro path version stored hmem
  obtain ⟨turn, hturn, hact⟩ := List.mem_map.mp hmem
  obtain ⟨outside, hreply, -⟩ := h.answered hturn
  rw [hact] at hreply
  exact SecretTables.get_path hreply.symm

omit [ReservedPaths u] in
theorem plays_guarded {ε α : Type} {script : Script (ApiCall u) ApiCall.Reply ε α}
    {between : Server δ ω → Server δ ω → Prop} {result : Except ε α}
    (h : Plays (Server.answer deployment codec json database) between s script turns result last)
    {turn : Turn (Server δ ω) (ApiCall u) ApiCall.Reply} (hturn : turn ∈ turns)
    (hrows : turn.after.rows ≠ turn.before.rows) : ApiAct.isGuarded turn.act = true := by
  obtain ⟨outside, hreply, hafter⟩ := h.answered hturn
  obtain ⟨before, ⟨c, reply⟩, after⟩ := turn
  dsimp only at hreply hafter hrows
  rw [hafter] at hrows
  by_contra hunguarded
  apply hrows
  apply Server.answer_rows
  cases c with
  | putWithRotation | delete | revokeToken | issueToken => exact absurd rfl hunguarded
  | _ => rfl

/-- On a process whose trail only grows, whatever else others do to it and whatever the devices
refuse: a request changes no row and reads no value unless what it committed before covers that, and
the same holds of its answer. What it committed is on the trail. -/
theorem serve_failsClosed (htouches : request.touchesStore = true)
    (h : Plays (Server.answer deployment codec json database) Server.Extends s
      (serve (u := u) deployment headers request) turns result last) :
    (∀ front turn later, turns = front ++ turn :: later →
        turn.after.rows ≠ turn.before.rows ∨ ApiAct.isGuarded turn.act = true →
        ∃ principal, ActsFor deployment headers (turns.map (·.act)) request principal ∧
          Covers principal (entries (front.map (·.act))) turn.act.1 ∧
          (s.app.trail ++ entries (front.map (·.act))).Sublist turn.before.app.trail) ∧
      ∀ response, result = .ok response →
        ∃ principal, ActsFor deployment headers (turns.map (·.act)) request principal ∧
          CoversAnswer u principal (entries (turns.map (·.act))) response ∧
          (s.app.trail ++ entries (turns.map (·.act))).Sublist last.app.trail := by
  obtain ⟨hlast, htrail⟩ := Server.plays_trail h
  have haddressed := plays_addressed h
  constructor
  · intro front turn later heq htouched
    have hturn : turn ∈ turns := by
      rw [heq]
      exact List.mem_append_right _ (List.mem_cons_self ..)
    have hguarded : ApiAct.isGuarded turn.act = true := by
      rcases htouched with hrows | hguarded
      · exact plays_guarded h hturn hrows
      · exact hguarded
    rcases serve_accountsFor htouches h.runs with ⟨hunguarded, -⟩ | ⟨principal, hacts, haccounted⟩
    · rw [hunguarded _ (List.mem_map_of_mem hturn)] at hguarded
      cases hguarded
    · refine ⟨principal, hacts, ?_, htrail front turn later heq⟩
      have hcalls := haccounted.calls
      rw [heq, List.map_append, List.map_cons] at hcalls
      exact hcalls.before
  · intro response hok
    rcases serve_accountsFor htouches h.runs with ⟨-, error, rfl⟩ | ⟨principal, hacts, haccounted⟩
    · cases hok
    · exact ⟨principal, hacts, haccounted.answer haddressed response hok, hlast⟩

end Process

namespace Sample

/-- HMAC-SHA256 also where the pepper is derived. -/
def deployedHmac : Hmac := fun key message =>
  if key = List.replicate 32 0 ∧ message = "ciphr/token-pepper/v1".toUTF8.data.toList then pepper.key
  else hmac key message

def deployed : Deployment := { deployment with root := ⟨Vector.replicate 32 0⟩, hmac := deployedHmac }

def deletionEntry : Entry :=
  decisionEntry (deployed.callerOf ci) .delete dbPath none headers.requestContext
    (deployed.authorize (deployed.callerOf ci) .delete dbPath) none

def deletionPayload : String :=
  "\x7b\"seq\":1,\"ts\":\"2026-01-01T00:00:00.000Z\",\"prev_hash\":\"" ++
    "00000000000000000000000000000000" ++ "00000000000000000000000000000000" ++
    "\",\"entry\":\x7b\"principal\":\x7b\"name\":\"ci\",\"kind\":\"machine\"" ++
    ",\"token_id\":\"AQEBAQEB\"\x7d,\"subject\":null,\"action\":\"delete\",\"path\":\"infra/DB\"" ++
    ",\"version\":null,\"allowed\":true,\"deny_reason\":null,\"rule\":\x7b\"policy\":\"infra\"" ++
    ",\"pattern\":\"infra/**\"\x7d,\"results\":null,\"detail\":null" ++
    ",\"request\":\x7b\"request_id\":null,\"client_ip\":null,\"user_agent\":null" ++
    ",\"http_status\":200,\"channel\":null\x7d\x7d\x7d"

/-- SHA-256 and `serde_json` on the records of some entries, by their numbers. -/
def codecFor (records : List (Nat × Entry × String × Hash)) : Codec where
  sha256 := fun bytes =>
    match records.find? (fun row => bytes == row.2.2.1.toUTF8.data.toList) with
    | some row => row.2.2.2
    | none => genesis
  recordToString := fun record =>
    match records.find? (fun row => record.seq == row.1 && record.entry == row.2.1) with
    | some row => .ok row.2.2.1
    | none => .error "not asked for"
  headerFromStr := fun _ => .error "not asked for"
  valueSeq := fun _ => .error "not asked for"

def deletionCodec : Codec :=
  codecFor [(1, deletionEntry, deletionPayload,
    #v[0x43, 0xdc, 0x6d, 0xb2, 0x3e, 0x6e, 0xcc, 0xb3, 0xdd, 0x5a, 0xc6, 0xb6, 0x2a, 0x5b, 0xe0, 0xa0,
      0x7f, 0xfe, 0x91, 0x1b, 0x49, 0x65, 0x9e, 0x0b, 0x71, 0xa8, 0x0b, 0xa8, 0xe3, 0x02, 0x59, 0x4c])]

/-- A store that holds one secret and one token, and records in its own database. -/
def deploying : Server Device AuditWorld where
  app := .new ⟨⟨[], some []⟩, fun _ => .empty⟩
    ⟨[⟨.sqlite ⟨"sqlite:/var/lib/ciphr/store.db"⟩, none⟩], .new⟩
  secrets := ⟨[⟨1, "infra/DB", 1, "rotatable", 0, 0, none⟩],
    [⟨1, 1, "0101", [], [], [], [], 0, "ci", none, none⟩]⟩
  tokens := [⟨"AQEBAQEB", "ci",
    "ee67ae281db65760af64f28f9ae8fcfc" ++ "905cf858334c111e9687a41ab1170414", 0, "cli:root", none, none,
    none, 0⟩]
  trips := []
  latching := []
  spawned := []

def calm : ApiOutside DeviceFault :=
  ⟨1767225600000, fun _ => ⟨1767225600000, fun _ => {}⟩, none, fun _ => none, {},
    ⟨none, none, none, none⟩, none⟩

/-- `DELETE /v1/secrets/infra/DB?version=1`. -/
def deletion : ApiRequest := .deleteSecret (.ok "infra/DB") (.ok ⟨some 1⟩)

def deletionAnswer : Server Device AuditWorld → ApiOutside DeviceFault → (c : ApiCall asciiUnicode) →
    Server Device AuditWorld × c.Reply :=
  Server.answer deployed deletionCodec (fun _ => none) AuditWorld.db

def deletionPlayed := play deletionAnswer [calm, calm, calm] deploying
  (serve (u := asciiUnicode) deployed headers deletion)

theorem deletion_failsClosed : ∃ turns last,
    Plays deletionAnswer Server.Extends deploying (serve (u := asciiUnicode) deployed headers deletion)
        turns (.ok .noContent) last ∧
      last.secrets.versions.map (·.deletedAt) = [some 1767225600000] ∧
      last.app.trail = [deletionEntry] ∧
      ∀ front turn later, turns = front ++ turn :: later →
        turn.after.rows ≠ turn.before.rows ∨ ApiAct.isGuarded turn.act = true →
          ∃ principal, ActsFor deployed headers (turns.map (·.act)) deletion principal ∧
            Covers principal (entries (front.map (·.act))) turn.act.1 ∧
            (deploying.app.trail ++ entries (front.map (·.act))).Sublist turn.before.app.trail := by
  have hrun : deletionPlayed.map (fun played => (played.2.1.toOption,
      played.2.2.secrets.versions.map (·.deletedAt), played.2.2.app.trail)) =
        some (some .noContent, [some 1767225600000], [deletionEntry]) := by
    decide +kernel
  cases hplayed : deletionPlayed with
  | none =>
      rw [hplayed] at hrun
      cases hrun
  | some played =>
      obtain ⟨turns, result, last⟩ := played
      rw [hplayed, Option.map_some, Option.some.injEq, Prod.mk.injEq, Prod.mk.injEq] at hrun
      obtain ⟨hresult, hdeleted, htrail⟩ := hrun
      cases result with
      | error error => cases hresult
      | ok answer =>
          cases hresult
          have hplays : Plays deletionAnswer Server.Extends deploying
              (serve (u := asciiUnicode) deployed headers deletion) turns (.ok .noContent) last :=
            plays_of_play (fun s => List.prefix_refl s.app.trail) hplayed
          exact ⟨turns, last, hplays, hdeleted, htrail, (serve_failsClosed rfl hplays).1⟩

end Sample

end Ciphr
