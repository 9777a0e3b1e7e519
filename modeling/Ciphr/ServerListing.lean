import Ciphr.LibTwins
import Ciphr.ServerHandlers
import Ciphr.StoreHoneypots
import Ciphr.StoreSubtree

/-!
What a listing reveals: what the caller may list and nothing else. The store lists everything below the
prefix, so what the caller may not list has to be without influence on what leaves the process and on
what is recorded.
-/

namespace Ciphr

open Script

variable {u : Unicode} {deployment : Deployment} {headers : Headers} {caller : Caller}
  {t t' : SecretTables} {fault : SecretFault}

/-- A secret that is stored, and that the caller may list. -/
def MayList (deployment : Deployment) (caller : Caller) (t : SecretTables) (secret : ListedSecret u) : Prop :=
  t.Stores secret ∧ (deployment.authorize caller .list secret.path).isAllowed = true

theorem stores_iff {secret : ListedSecret u} : t.Stores secret ↔
    (secret.path.text, secret.rotation.asStr) ∈ t.secrets.map fun row => (row.path, row.rotation) := by
  unfold SecretTables.Stores
  rw [List.mem_map]
  simp only [Prod.mk.injEq]

/-- What a request for a prefix and a class is about, of what the caller may list. -/
def AskedFor (deployment : Deployment) (caller : Caller) (t : SecretTables) (start : SecretPath u)
    (wanted : Option Rotation) (secret : ListedSecret u) : Prop :=
  MayList deployment caller t secret ∧ start.Covers secret.path ∧
    ∀ rotation, wanted = some rotation → secret.rotation = rotation

def ListedSecret.entry (secret : ListedSecret u) : ListEntry := ⟨secret.path.text, secret.rotation.asStr⟩

/-- The secrets of a listing that the caller may see, and asked for. -/
def visibleSecrets (deployment : Deployment) (caller : Caller) (wanted : Option Rotation)
    (listed : List (ListedSecret u)) : List (ListedSecret u) :=
  (listed.filter fun secret => (deployment.authorize caller .list secret.path).isAllowed).filter
    fun secret => wanted.all (secret.rotation == ·)

theorem visibleEntries_eq (wanted : Option Rotation) (listed : List (ListedSecret u)) :
    visibleEntries deployment caller wanted listed =
      (visibleSecrets deployment caller wanted listed).map ListedSecret.entry := rfl

theorem mem_visibleSecrets {wanted : Option Rotation} {listed : List (ListedSecret u)}
    {secret : ListedSecret u} :
    secret ∈ visibleSecrets deployment caller wanted listed ↔ secret ∈ listed ∧
      (deployment.authorize caller .list secret.path).isAllowed = true ∧
      ∀ rotation, wanted = some rotation → secret.rotation = rotation := by
  unfold visibleSecrets
  simp only [List.mem_filter, Option.all_eq_true, beq_iff_eq, and_assoc]

/-- The visible part of a listing is what was asked for, in order. -/
structure Visible (deployment : Deployment) (caller : Caller) (t : SecretTables) (start : SecretPath u)
    (wanted : Option Rotation) (visible : List (ListedSecret u)) : Prop where
  ordered : visible.Pairwise SecretTables.ListedBefore
  exact : ∀ secret, secret ∈ visible ↔ AskedFor deployment caller t start wanted secret

/-- There is one listing of what was asked for. -/
theorem Visible.unique {start : SecretPath u} {wanted : Option Rotation}
    {visible visible' : List (ListedSecret u)} (h : Visible deployment caller t start wanted visible)
    (h' : Visible deployment caller t' start wanted visible')
    (hagree : ∀ secret : ListedSecret u, MayList deployment caller t secret ↔
      MayList deployment caller t' secret) : visible = visible' := by
  refine h.ordered.eq_of_mem_iff h'.ordered fun secret => ?_
  rw [h.exact, h'.exact]
  exact and_congr_left fun _ => hagree secret

theorem SecretTables.Sound.visible {produced : List (Produced u)} (h : t.Sound produced)
    (hstable : u.Stable) (caller : Caller) (start : SecretPath u) (wanted : Option Rotation) :
    ∃ listed, t.listWithRotation SecretTables.noFault (some start) = .ok listed ∧
      Visible deployment caller t start wanted (visibleSecrets deployment caller wanted listed) := by
  obtain ⟨listed, hlisted, hordered, hmem⟩ := h.listWithRotation_ok hstable start
  refine ⟨listed, hlisted, (hordered.filter _).filter _, fun secret => ?_⟩
  rw [mem_visibleSecrets, hmem]
  unfold AskedFor MayList
  tauto

/-! ### One request -/

/-- A store that answers a listing at all answers it as one that performs every statement. -/
theorem SecretTables.listWithRotation_fault (u : Unicode) (fault : SecretFault) :
    (∃ error, ∀ (t : SecretTables) (start : Option (SecretPath u)),
      t.listWithRotation fault start = .error (.sqlite error)) ∨
      ∀ (t : SecretTables) (start : Option (SecretPath u)),
        t.listWithRotation fault start = t.listWithRotation SecretTables.noFault start := by
  cases hfault : fault .selectSecret with
  | some error =>
      refine .inl ⟨error, fun t start => ?_⟩
      unfold SecretTables.listWithRotation SecretTables.answer
      rw [hfault]
      rfl
  | none =>
      refine .inr fun t start => ?_
      unfold SecretTables.listWithRotation SecretTables.answer
      rw [hfault]
      rfl

/-- Every listing that was asked for was answered from the tables. -/
def ListedFrom (t : SecretTables) (fault : SecretFault) (acts : List (ApiAct u)) : Prop :=
  ∀ start reply, (⟨.listWithRotation start, reply⟩ : ApiAct u) ∈ acts →
    reply = t.listWithRotation fault start

/-- What was returned and recorded: what the caller may list of what they asked for, and how many. -/
structure Lists (deployment : Deployment) (headers : Headers) (t : SecretTables) (raw : String)
    (rotation : Option String) (acts : List (ApiAct u)) (response : ApiResponse) (caller : Caller)
    (start : SecretPath u) (wanted : Option Rotation) (visible : List (ListedSecret u)) : Prop where
  parsed : parsePath u raw = .ok start
  classed : parseRotation rotation = .ok wanted
  shown : Visible deployment caller t start wanted visible
  returned : response =
    .listing ⟨start.text, visible.map (·.path.text), visible.map ListedSecret.entry⟩
  recorded : ∃ front listed, Presented deployment headers caller front ∧
    acts = front ++ [⟨.listWithRotation (some start), .ok listed⟩,
      ⟨.record (listingEntry caller start headers.requestContext visible.length), .ok ()⟩]

theorem lists_of_runs {produced : List (Produced u)} (h : t.Sound produced) (hstable : u.Stable)
    {raw : String} {rotation : Option String} {acts : List (ApiAct u)} {response : ApiResponse}
    (hruns : Runs (listPaths deployment headers raw rotation) acts (.ok response))
    (hlisted : ListedFrom t fault acts) : ∃ caller start wanted visible,
      Lists deployment headers t raw rotation acts response caller start wanted visible := by
  generalize hresult : (.ok response : Except ApiError ApiResponse) = result at hruns
  cases runs_listPaths hruns with
  | turnedAway error => cases hresult
  | unclassed caller start error => cases hresult
  | unanswered caller start error => cases hresult
  | @answered front caller start wanted listed reply hpresented hparse hclass =>
      cases reply with
      | error error => cases hresult
      | ok =>
          cases hresult
          have hreply : .ok listed = t.listWithRotation fault (some start) :=
            hlisted _ _ (List.mem_append_right _ (List.mem_cons_self ..))
          obtain ⟨own, hown, hvisible⟩ := h.visible hstable caller start wanted
          have hsame : listed = own := by
            rcases SecretTables.listWithRotation_fault u fault with ⟨error, herror⟩ | hfault
            · rw [herror] at hreply
              cases hreply
            · rw [hfault, hown] at hreply
              exact Except.ok.inj hreply
          subst hsame
          refine ⟨caller, start, wanted, _, hparse, hclass, hvisible, ?_, front, listed, hpresented, ?_⟩
          · dsimp only
            rw [visibleEntries_eq, List.map_map]
            rfl
          · rw [visibleEntries_eq, List.length_map]

/-! ### Two stores -/

/-- Listings are answered from the tables and all else as before. -/
def answeredFrom (base : (c : ApiCall u) → c.Reply) (fault : SecretFault) (t : SecretTables) :
    (c : ApiCall u) → c.Reply
  | .listWithRotation start => t.listWithRotation fault start
  | c => base c

/-- The two stores hold the same of what whoever is presented may list. -/
def ListAlike (deployment : Deployment) (headers : Headers) (base : (c : ApiCall u) → c.Reply)
    (t t' : SecretTables) : Prop :=
  ∀ presented one, headers.bearerToken = some presented →
    base (.authenticate presented) = .ok (.valid one) →
      ∀ secret : ListedSecret u, MayList deployment (deployment.callerOf one) t secret ↔
        MayList deployment (deployment.callerOf one) t' secret

section Twins

variable {base : (c : ApiCall u) → c.Reply}

/-- What is asked for is no listing. -/
def ApiCall.Unlisted : ApiCall u → Prop
  | .listWithRotation _ => False
  | _ => True

theorem twins_unlisted {α : Type} {script : Api u α}
    (h : script.Asks (fun _ _ => True) ApiCall.Unlisted) :
    Twins (answeredFrom base fault t) (answeredFrom base fault t') Eq script script := by
  refine twins_refl (h.mono fun c hc => ?_)
  cases c with
  | listWithRotation start => exact hc.elim
  | _ => rfl

theorem asks_authenticated_unlisted {action : Action} {request : RequestContext} :
    (deployment.authenticated headers action request : Api u Caller).Asks (fun _ _ => True)
      ApiCall.Unlisted := by
  have hauthenticate : (deployment.authenticate headers.bearerToken : Api u _).Asks (fun _ _ => True)
      ApiCall.Unlisted := by
    unfold Deployment.authenticate
    cases headers.bearerToken with
    | none => exact asks_pure
    | some presented => exact asks_ask trivial
  refine hauthenticate.bind fun outcome => ?_
  cases outcome with
  | ok caller => exact asks_pure
  | error rejection =>
      refine Asks.bind ?_ fun _ => asks_ofExcept
      unfold Deployment.recordRejection Deployment.recordUnauthenticated
      split
      · exact (asks_ask trivial).bind fun _ => asks_ask trivial
      · exact asks_ask trivial

theorem asks_parsePathRecorded_unlisted {action : Action} {request : RequestContext} {raw : String} :
    (parsePathRecorded caller action request raw : Api u (SecretPath u)).Asks (fun _ _ => True)
      ApiCall.Unlisted := by
  unfold parsePathRecorded
  cases parsePath u raw with
  | ok path => exact asks_pure
  | error refused => exact Asks.bind (asks_ask trivial) fun _ => asks_ofExcept

/-- Whoever is known to be the caller was presented. -/
theorem told_authenticated {f : (c : ApiCall u) → c.Reply} {action : Action} {request : RequestContext}
    (h : ((deployment.authenticated headers action request : Api u Caller).told f).2 = .ok caller) :
    ∃ presented one, headers.bearerToken = some presented ∧
      f (.authenticate presented) = .ok (.valid one) ∧ caller = deployment.callerOf one := by
  have hruns := runs_told f (deployment.authenticated headers action request : Api u Caller)
  rw [h] at hruns
  obtain ⟨presented, one, hbearer, hacts, hcaller⟩ := runs_authenticated_ok hruns
  refine ⟨presented, one, hbearer, ?_, hcaller⟩
  have hmem : (⟨.authenticate presented, .ok (.valid one)⟩ : ApiAct u) ∈
      ((deployment.authenticated headers action request : Api u Caller).told f).1.map
        fun c => ⟨c, f c⟩ := by
    rw [hacts]
    exact List.mem_singleton_self _
  obtain ⟨c, -, hc⟩ := List.mem_map.mp hmem
  obtain ⟨rfl, hreply⟩ := Sigma.mk.inj_iff.mp hc
  exact eq_of_heq hreply

/-- The response to a listing and all that is asked and recorded for it are the same for two stores that
hold the same of what the caller may list. -/
theorem listPaths_twins {produced produced' : List (Produced u)} (h : t.Sound produced)
    (h' : t'.Sound produced') (hstable : u.Stable) (halike : ListAlike deployment headers base t t')
    (raw : String) (rotation : Option String) :
    (listPaths deployment headers raw rotation : Api u ApiResponse).told (answeredFrom base fault t) =
      (listPaths deployment headers raw rotation : Api u ApiResponse).told (answeredFrom base fault t') := by
  apply Twins.eq
  unfold listPaths
  refine Twins.bind_of (twins_unlisted asks_authenticated_unlisted) fun caller _ hcaller hsame => ?_
  subst hsame
  obtain ⟨presented, one, hbearer, hone, rfl⟩ := told_authenticated hcaller
  refine Twins.bind (twins_unlisted asks_parsePathRecorded_unlisted) fun start _ hsame => ?_
  subst hsame
  refine Twins.bind (twins_ofExcept (related_refl _)) fun wanted _ hsame => ?_
  subst hsame
  refine Twins.bind (R := fun listed listed' =>
    visibleEntries deployment (deployment.callerOf one) wanted listed =
      visibleEntries deployment (deployment.callerOf one) wanted listed') (twins_ask ?_) fun listed listed' hvisible => ?_
  · obtain ⟨listed, hlisted, hshown⟩ := h.visible hstable (deployment.callerOf one) start wanted
    obtain ⟨listed', hlisted', hshown'⟩ := h'.visible hstable (deployment.callerOf one) start wanted
    rcases SecretTables.listWithRotation_fault u fault with ⟨error, herror⟩ | hfault
    · have herror' : ∀ t : SecretTables, answeredFrom base fault t (.listWithRotation (some start)) =
          .error (.sqlite error) := fun t => herror t (some start)
      rw [herror', herror']
      rfl
    · have hanswer : ∀ t : SecretTables, answeredFrom base fault t (.listWithRotation (some start)) =
          t.listWithRotation SecretTables.noFault (some start) := fun t => hfault t (some start)
      rw [hanswer, hanswer, hlisted, hlisted']
      change visibleEntries deployment (deployment.callerOf one) wanted listed =
        visibleEntries deployment (deployment.callerOf one) wanted listed'
      rw [visibleEntries_eq, visibleEntries_eq, hshown.unique hshown' (halike presented one hbearer hone)]
  · rw [hvisible]
    exact Twins.bind (twins_unlisted (asks_ask trivial)) fun _ _ _ => twins_pure rfl

end Twins

/-- A listing returns exactly what is stored at or below the prefix, that the caller may list and whose
class was asked for, in order, and its entry counts it; of two stores that hold the same of what the
caller may list, whatever else they hold, it returns, asks and records the same. -/
theorem listPaths_exact (hstable : u.Stable) (deployment : Deployment) (headers : Headers)
    (raw : String) (rotation : Option String) :
    (∀ (s : Versioning u) (fault : SecretFault) (acts : List (ApiAct u)) (response : ApiResponse),
      s.Stocked → Runs (listPaths deployment headers raw rotation) acts (.ok response) →
      ListedFrom s.tables fault acts → ∃ caller start wanted visible,
        Lists deployment headers s.tables raw rotation acts response caller start wanted visible) ∧
      ∀ (s s' : Versioning u) fault base, s.Stocked → s'.Stocked →
        ListAlike deployment headers base s.tables s'.tables →
        (listPaths deployment headers raw rotation : Api u ApiResponse).told
            (answeredFrom base fault s.tables) =
          (listPaths deployment headers raw rotation : Api u ApiResponse).told
            (answeredFrom base fault s'.tables) :=
  ⟨fun _ _ _ _ hs hruns hlisted => lists_of_runs hs.sound hstable hruns hlisted,
    fun _ _ _ _ hs hs' halike => listPaths_twins hs.sound hs'.sound hstable halike raw rotation⟩

namespace Sample

/-- A policy that allows to list what is under `infra/service-a`. -/
def serviceDeployment : Deployment :=
  { Sample.deployment with
    policies :=
      { identities := [⟨"ci", .machine, ["service-a"], by simp⟩]
        policies :=
          [{ name := "service-a"
             rules := [⟨⟨[.literal "infra", .literal "service-a", .rest], "infra/service-a/**",
               by decide +kernel⟩, {.list}⟩]
             patterns_nodup := by simp }]
        identities_nodup := by simp
        policies_nodup := by simp
        attached := by simp } }

def apiKey : SecretPath asciiUnicode :=
  ⟨"infra/service-a/API_KEY", "infra/service-a/API_KEY", by decide +kernel⟩

/-- A secret that the caller's policy says nothing of. -/
def payrollKey : SecretPath asciiUnicode := ⟨"infra/payroll/KEY", "infra/payroll/KEY", by decide +kernel⟩

/-- Two secrets of two classes. -/
def listedEvents : List (StoreOp asciiUnicode × SecretFault) :=
  [(.secret (.put dbPassword "ci" none encryptOnce 10), SecretTables.noFault),
    (.secret (.put apiKey "ci" (some .rotatable) encryptOnce 11), SecretTables.noFault)]

/-- The same store with a secret that is below the prefix, too, and is marked as bait. -/
def hiddenEvents : List (StoreOp asciiUnicode × SecretFault) :=
  listedEvents ++ [(.secret (.put payrollKey "root" none encryptOnce 12), SecretTables.noFault),
    (.setHoneypot payrollKey (some .alert), SecretTables.noFault)]

def listedStore : Versioning asciiUnicode :=
  (Transition.run Versioning.stockStep ⟨⟨[], []⟩, []⟩ listedEvents).getD ⟨⟨[], []⟩, []⟩

def hiddenStore : Versioning asciiUnicode :=
  (Transition.run Versioning.stockStep ⟨⟨[], []⟩, []⟩ hiddenEvents).getD ⟨⟨[], []⟩, []⟩

/-- Everyone is `ci`, and every entry is recorded. -/
def ciReplies (t : SecretTables) : (c : ApiCall asciiUnicode) → c.Reply
  | .nowMillis => (0 : Int)
  | .generateToken => (none : Option Token)
  | .auditDevices => ([] : List DeviceHealth)
  | .record _ => (.ok () : Except ApiError Unit)
  | .authenticate _ => (.ok (.valid ci) : Except StoreError Authentication)
  | .latchOffTheRequestPath _ _ _ _ => ()
  | .honeypotTier path => t.honeypotTier SecretTables.noFault path
  | .openTripCount => (.ok 0 : Except StoreError Nat)
  | .get path version => t.get SecretTables.noFault path version
  | .putWithRotation _ _ _ _ => (.ok .first : Except StoreError SecretVersion)
  | .metadata path => t.metadata SecretTables.noFault path
  | .delete _ _ => (.ok () : Except StoreError Unit)
  | .history path => (.error (.notFound path.text) : Except StoreError (SecretMetadata _ × List VersionSummary))
  | .listWithRotation start => t.listWithRotation SecretTables.noFault start
  | .honeypots => (.ok ([], []) : Except StoreError (List Honeypot × List Trip))
  | .auditQuery _ => (.ok [] : Except StoreError (List Database.Row))
  | .tokens _ => (.ok [] : Except StoreError (List TokenRecord))
  | .token _ => (.ok none : Except StoreError (Option TokenRecord))
  | .revokeToken _ => (.ok false : Except StoreError Bool)
  | .issueToken _ _ _ _ => (.ok () : Except StoreError Unit)

/-- `GET /v1/list/infra?rotation=unclassified`, of a store that holds what the caller may list and of one
that holds more below `infra`. -/
theorem infra_listed :
    ((listPaths serviceDeployment Sample.headers "infra" (some "unclassified")).told
        (answeredFrom (ciReplies ⟨[], []⟩) SecretTables.noFault listedStore.tables)).2 =
      .ok (.listing ⟨"infra", ["infra/service-a/DB_PASSWORD"],
        [⟨"infra/service-a/DB_PASSWORD", "unclassified"⟩]⟩) ∧
    (listPaths serviceDeployment Sample.headers "infra" (some "unclassified")).told
        (answeredFrom (ciReplies ⟨[], []⟩) SecretTables.noFault listedStore.tables) =
      (listPaths serviceDeployment Sample.headers "infra" (some "unclassified")).told
        (answeredFrom (ciReplies ⟨[], []⟩) SecretTables.noFault hiddenStore.tables) := by
  have hlisted : listedStore.Stocked :=
    Transition.reachable_of_steps listedEvents (.start rfl) (fun _ _ _ _ _ => trivial)
      (by decide +kernel : Transition.run Versioning.stockStep ⟨⟨[], []⟩, []⟩ listedEvents = some listedStore)
  have hhidden : hiddenStore.Stocked :=
    Transition.reachable_of_steps hiddenEvents (.start rfl) (fun _ _ _ _ _ => trivial)
      (by decide +kernel : Transition.run Versioning.stockStep ⟨⟨[], []⟩, []⟩ hiddenEvents = some hiddenStore)
  have hrows : listedStore.tables.secrets.map (fun row => (row.path, row.rotation)) =
      [(dbPassword.text, "unclassified"), (apiKey.text, "rotatable")] ∧
        hiddenStore.tables.secrets.map (fun row => (row.path, row.rotation)) =
          [(dbPassword.text, "unclassified"), (apiKey.text, "rotatable")] ++
            [(payrollKey.text, "unclassified")] := by
    decide +kernel
  have hdenied : (serviceDeployment.authorize (serviceDeployment.callerOf ci) .list payrollKey).isAllowed =
      false := by
    decide +kernel
  refine ⟨by decide +kernel, (listPaths_exact asciiUnicode_stable serviceDeployment Sample.headers "infra"
    (some "unclassified")).2 listedStore hiddenStore _ _ hlisted hhidden ?_⟩
  rintro presented one - hone secret
  cases hone
  unfold MayList
  rw [stores_iff, stores_iff, hrows.1, hrows.2]
  constructor
  · rintro ⟨hstored, hallowed⟩
    exact ⟨List.mem_append_left _ hstored, hallowed⟩
  · rintro ⟨hstored, hallowed⟩
    refine ⟨?_, hallowed⟩
    rcases List.mem_append.mp hstored with hstored | hstored
    · exact hstored
    · have hpath : secret.path = payrollKey :=
        SecretPath.ext (congrArg Prod.fst (List.mem_singleton.mp hstored))
      rw [hpath, hdenied] at hallowed
      cases hallowed

end Sample

end Ciphr
