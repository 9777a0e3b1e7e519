import Mathlib.Data.List.Forall2
import Ciphr.PolicyEvaluate

/-!
From a policy file to a decision. What loads is described by what the document says, in no order:
which identities it names, which policies it attaches to them and which rules it defines. Two files
that say the same decide the same, and what a file says in addition only counts where it is as
specific as what was there.
-/

namespace Ciphr

/-- The rule a raw rule loads as. -/
def RawRule.Loads (u : Unicode) (raw : RawRule) (rule : Rule) : Prop :=
  PathPattern.parse u raw.path = .ok rule.pattern ∧
    ∀ capability, capability ∈ rule.capabilities ↔
      ∃ name ∈ raw.capabilities, Capability.parse name = .ok capability

theorem RawRule.Loads.unique {u : Unicode} {raw : RawRule} {left right : Rule}
    (hl : raw.Loads u left) (hr : raw.Loads u right) : left = right := by
  obtain ⟨lp, lc⟩ := left
  obtain ⟨rp, rc⟩ := right
  have hpattern : lp = rp := by
    have := hl.1.symm.trans hr.1
    simpa using this
  have hcapabilities : lc = rc := by
    ext capability
    exact (hl.2 capability).trans (hr.2 capability).symm
  rw [hpattern, hcapabilities]

section Load

variable {σ : Type} {u : Unicode}

theorem addCapability_collects {policy : String} {pattern : PathPattern}
    {capabilities capabilities' : Finset Capability} {name : String}
    (h : addCapability (σ := σ) policy pattern capabilities name = .ok capabilities')
    (capability : Capability) :
    capability ∈ capabilities' ↔
      capability ∈ capabilities ∨ Capability.parse name = .ok capability := by
  obtain ⟨parsed, hparsed, h⟩ := Loop.bind_eq_ok h
  have hparse := Loop.mapError_eq_ok hparsed
  split at h
  · cases h
  · split at h
    · cases h
    · cases h
      rw [Finset.mem_insert, hparse, Except.ok.injEq, or_comm, eq_comm]

theorem addRule_collects {policy policy' : Policy} {raw : RawRule}
    (h : addRule (σ := σ) u policy raw = .ok policy') :
    policy'.name = policy.name ∧
      ∀ rule, rule ∈ policy'.rules ↔ rule ∈ policy.rules ∨ raw.Loads u rule := by
  obtain ⟨pattern, hpattern, h⟩ := Loop.bind_eq_ok h
  have hparse := Loop.mapError_eq_ok hpattern
  split at h
  · cases h
  · obtain ⟨capabilities, hcapabilities, h⟩ := Loop.bind_eq_ok h
    cases h
    have hloads : raw.Loads u ⟨pattern, capabilities⟩ := by
      refine ⟨hparse, ?_⟩
      intro capability
      have hcollects := Loop.foldlM_collects hcapabilities (fun acc c => c ∈ acc)
        (fun name c => Capability.parse name = .ok c) (fun _ _ _ => addCapability_collects) capability
      simpa using hcollects
    refine ⟨rfl, ?_⟩
    intro rule
    rw [List.mem_append, List.mem_singleton]
    constructor
    · rintro (hrule | rfl)
      · exact .inl hrule
      · exact .inr hloads
    · rintro (hrule | hrule)
      · exact .inl hrule
      · exact .inr (hrule.unique hloads)

theorem buildPolicy_spec {raw : RawPolicy} {policy : Policy}
    (h : buildPolicy (σ := σ) u raw = .ok policy) :
    policy.name = raw.name ∧
      ∀ rule, rule ∈ policy.rules ↔ ∃ rawRule ∈ raw.rule, rawRule.Loads u rule := by
  constructor
  · exact Loop.foldlM_keeps h Policy.name fun _ _ _ h => (addRule_collects h).1
  · intro rule
    have hcollects := Loop.foldlM_collects h (fun acc r => r ∈ acc.rules) (RawRule.Loads u)
      (fun _ _ _ h => (addRule_collects h).2) rule
    simpa using hcollects

theorem addPolicy_collects {policies policies' : PolicyMap} {raw : RawPolicy}
    (h : addPolicy (σ := σ) u policies raw = .ok policies') (candidate : Candidate) :
    (∃ policy ∈ policies'.1, policy.name = candidate.2 ∧ candidate.1 ∈ policy.rules) ↔
      (∃ policy ∈ policies.1, policy.name = candidate.2 ∧ candidate.1 ∈ policy.rules) ∨
        raw.name = candidate.2 ∧ ∃ rawRule ∈ raw.rule, rawRule.Loads u candidate.1 := by
  obtain ⟨policy, hpolicy, h⟩ := Loop.bind_eq_ok h
  obtain ⟨hname, hrules⟩ := buildPolicy_spec hpolicy
  split at h
  · cases h
  · cases h
    simp only [List.mem_append, List.mem_singleton, or_and_right, exists_or, exists_eq_left]
    rw [hname, hrules]

theorem checkReference_append {identity : String} {policies : List Policy}
    {seen seen' : CheckedNames policies} {name : String}
    (h : checkReference (σ := σ) identity policies seen name = .ok seen') :
    seen'.1 = seen.1 ++ [name] := by
  unfold checkReference at h
  split at h
  · split at h
    · cases h
    · cases h
      rfl
  · cases h

theorem checkReferences_append {identity : String} {policies : List Policy} (names : List String)
    {seen seen' : CheckedNames policies}
    (h : names.foldlM (checkReference (σ := σ) identity policies) seen = .ok seen') :
    seen'.1 = seen.1 ++ names := by
  induction names generalizing seen with
  | nil =>
      cases h
      rw [List.append_nil]
  | cons name names ih =>
      obtain ⟨mid, hmid, hrest⟩ := Loop.foldlM_cons_eq_ok h
      rw [ih hrest, checkReference_append hmid, List.append_assoc, List.singleton_append]

theorem buildIdentity_spec {raw : RawIdentity} {policies : List Policy}
    {identity : AttachedIdentity policies}
    (h : buildIdentity (σ := σ) raw policies = .ok identity) :
    identity.1.name = raw.name ∧ identity.1.policies = raw.policies := by
  obtain ⟨kind, _, h⟩ := Loop.bind_eq_ok h
  obtain ⟨names, hnames, h⟩ := Loop.bind_eq_ok h
  cases h
  exact ⟨rfl, checkReferences_append raw.policies hnames⟩

theorem addIdentity_collects {policies : List Policy} {identities identities' : IdentityMap policies}
    {raw : RawIdentity} (h : addIdentity (σ := σ) policies identities raw = .ok identities')
    (P : String → List String → Prop) :
    (∃ identity ∈ identities'.1, P identity.name identity.policies) ↔
      (∃ identity ∈ identities.1, P identity.name identity.policies) ∨ P raw.name raw.policies := by
  obtain ⟨identity, hidentity, h⟩ := Loop.bind_eq_ok h
  obtain ⟨hname, hpolicies⟩ := buildIdentity_spec hidentity
  split at h
  · cases h
  · cases h
    simp only [List.mem_append, List.mem_singleton, or_and_right, exists_or, exists_eq_left]
    rw [hname, hpolicies]

end Load

/-! ### What a document says -/

namespace RawConfig

def Names (raw : RawConfig) (identity : String) : Prop :=
  ∃ rawIdentity ∈ raw.identity, rawIdentity.name = identity

def Attaches (raw : RawConfig) (identity policy : String) : Prop :=
  ∃ rawIdentity ∈ raw.identity, rawIdentity.name = identity ∧ policy ∈ rawIdentity.policies

def Defines (u : Unicode) (raw : RawConfig) (candidate : Candidate) : Prop :=
  ∃ rawPolicy ∈ raw.policy, rawPolicy.name = candidate.2 ∧
    ∃ rawRule ∈ rawPolicy.rule, rawRule.Loads u candidate.1

end RawConfig

namespace PolicySet

variable {σ : Type} {u : Unicode} {raw : RawConfig} {set : PolicySet}

theorem fromRaw_knows (h : fromRaw (σ := σ) u raw = .ok set) (identity : String) :
    set.Knows identity ↔ raw.Names identity := by
  obtain ⟨policies, _, h⟩ := Loop.bind_eq_ok h
  obtain ⟨identities, hidentities, h⟩ := Loop.bind_eq_ok h
  cases h
  have hcollects := Loop.foldlM_collects hidentities
    (fun acc name => ∃ known ∈ acc.1, known.name = name) (fun raw name => raw.name = name)
    (fun _ _ _ h name => addIdentity_collects h (fun n _ => n = name)) identity
  simpa [Knows, RawConfig.Names] using hcollects

theorem fromRaw_attaches (h : fromRaw (σ := σ) u raw = .ok set) (identity policy : String) :
    (∃ known ∈ set.identities, known.name = identity ∧ policy ∈ known.policies) ↔
      raw.Attaches identity policy := by
  obtain ⟨policies, _, h⟩ := Loop.bind_eq_ok h
  obtain ⟨identities, hidentities, h⟩ := Loop.bind_eq_ok h
  cases h
  have hcollects := Loop.foldlM_collects hidentities
    (fun acc (x : String × String) => ∃ known ∈ acc.1, known.name = x.1 ∧ x.2 ∈ known.policies)
    (fun raw x => raw.name = x.1 ∧ x.2 ∈ raw.policies)
    (fun _ _ _ h x => addIdentity_collects h (fun n ps => n = x.1 ∧ x.2 ∈ ps)) (identity, policy)
  simpa [RawConfig.Attaches] using hcollects

theorem fromRaw_defines (h : fromRaw (σ := σ) u raw = .ok set) (candidate : Candidate) :
    (∃ policy ∈ set.policies, policy.name = candidate.2 ∧ candidate.1 ∈ policy.rules) ↔
      raw.Defines u candidate := by
  obtain ⟨policies, hpolicies, h⟩ := Loop.bind_eq_ok h
  obtain ⟨identities, _, h⟩ := Loop.bind_eq_ok h
  cases h
  have hcollects := Loop.foldlM_collects hpolicies
    (fun acc (x : Candidate) => ∃ policy ∈ acc.1, policy.name = x.2 ∧ x.1 ∈ policy.rules)
    (fun raw x => raw.name = x.2 ∧ ∃ rawRule ∈ raw.rule, rawRule.Loads u x.1)
    (fun _ _ _ h => addPolicy_collects h) candidate
  simpa [RawConfig.Defines] using hcollects

theorem fromRaw_applicable (h : fromRaw (σ := σ) u raw = .ok set) (identity : String)
    (path : SecretPath u) (candidate : Candidate) :
    candidate ∈ set.Applicable identity path ↔ raw.Attaches identity candidate.2 ∧
      raw.Defines u candidate ∧ candidate.1.pattern.matchesPath path = true := by
  rw [← fromRaw_attaches h, ← fromRaw_defines h]
  constructor
  · rintro ⟨known, hknown, hname, hattached, policy, hpolicy, hpname, hrule, hmatch⟩
    exact ⟨⟨known, hknown, hname, hattached⟩, ⟨policy, hpolicy, hpname, hrule⟩, hmatch⟩
  · rintro ⟨⟨known, hknown, hname, hattached⟩, ⟨policy, hpolicy, hpname, hrule⟩, hmatch⟩
    exact ⟨known, hknown, hname, hattached, policy, hpolicy, hpname, hrule, hmatch⟩

theorem fromToml_eq_ok {toml : String → Except σ RawConfig} {file : String}
    (hraw : toml file = .ok raw) (h : fromToml u toml file = .ok set) :
    fromRaw (σ := σ) u raw = .ok set := by
  obtain ⟨raw', hraw', h⟩ := Loop.bind_eq_ok h
  have hsame := Loop.mapError_eq_ok hraw'
  rw [hraw, Except.ok.injEq] at hsame
  exact hsame ▸ h

end PolicySet

/-! ### Files that say the same, and files that say more -/

namespace RawConfig

/-- The policies, the rules inside each of them, the identities and the policy names attached to
each of them stand in another order. -/
structure Rearranged (raw raw' : RawConfig) : Prop where
  policies : ∃ policies, raw.policy.Perm policies ∧
    List.Forall₂ (fun policy policy' => policy'.name = policy.name ∧ policy.rule.Perm policy'.rule)
      policies raw'.policy
  identities : ∃ identities, raw.identity.Perm identities ∧
    List.Forall₂ (fun identity identity' => identity'.name = identity.name ∧
      identity'.kind = identity.kind ∧ identity.policies.Perm identity'.policies)
      identities raw'.identity

/-- There are further rules, in old policies or in new ones, and further attached policies. -/
structure Extends (raw raw' : RawConfig) : Prop where
  policies : ∀ policy ∈ raw.policy, ∃ policy' ∈ raw'.policy,
    policy'.name = policy.name ∧ policy.rule ⊆ policy'.rule
  identities : ∀ identity ∈ raw.identity, ∃ identity' ∈ raw'.identity,
    identity'.name = identity.name ∧ identity.policies ⊆ identity'.policies
  same : ∀ identity' ∈ raw'.identity, ∃ identity ∈ raw.identity, identity.name = identity'.name

variable {raw raw' : RawConfig}

theorem exists_mem_of_forall₂ {α β : Type} {R : α → β → Prop} {P : α → Prop} {Q : β → Prop}
    {l l₁ : List α} {l₂ : List β} (hperm : l.Perm l₁) (hrel : List.Forall₂ R l₁ l₂)
    (himp : ∀ a b, R a b → (P a ↔ Q b)) : (∃ a ∈ l, P a) ↔ ∃ b ∈ l₂, Q b := by
  have hmem : (∃ a ∈ l, P a) ↔ ∃ a ∈ l₁, P a := by simp only [hperm.mem_iff]
  rw [hmem]
  clear hmem hperm
  induction hrel with
  | nil => simp
  | cons hab _ ih =>
      rw [List.exists_mem_cons_iff, List.exists_mem_cons_iff]
      exact or_congr (himp _ _ hab) ih

theorem Rearranged.names_iff (h : raw.Rearranged raw') (identity : String) :
    raw.Names identity ↔ raw'.Names identity := by
  obtain ⟨identities, hperm, hrel⟩ := h.identities
  apply exists_mem_of_forall₂ hperm hrel
  rintro a b ⟨hname, -, -⟩
  rw [hname]

theorem Rearranged.attaches_iff (h : raw.Rearranged raw') (identity policy : String) :
    raw.Attaches identity policy ↔ raw'.Attaches identity policy := by
  obtain ⟨identities, hperm, hrel⟩ := h.identities
  apply exists_mem_of_forall₂ hperm hrel
  rintro a b ⟨hname, -, hpolicies⟩
  rw [hname, hpolicies.mem_iff]

theorem Rearranged.defines_iff (u : Unicode) (h : raw.Rearranged raw') (candidate : Candidate) :
    raw.Defines u candidate ↔ raw'.Defines u candidate := by
  obtain ⟨policies, hperm, hrel⟩ := h.policies
  apply exists_mem_of_forall₂ hperm hrel
  rintro a b ⟨hname, hrules⟩
  simp only [hname, hrules.mem_iff]

theorem Extends.names_iff (h : raw.Extends raw') (identity : String) :
    raw.Names identity ↔ raw'.Names identity := by
  constructor
  · rintro ⟨rawIdentity, hmem, rfl⟩
    obtain ⟨other, hother, hname, -⟩ := h.identities rawIdentity hmem
    exact ⟨other, hother, hname⟩
  · rintro ⟨rawIdentity, hmem, rfl⟩
    exact h.same rawIdentity hmem

theorem Extends.attaches (h : raw.Extends raw') {identity policy : String}
    (hattaches : raw.Attaches identity policy) : raw'.Attaches identity policy := by
  obtain ⟨rawIdentity, hmem, rfl, hpolicy⟩ := hattaches
  obtain ⟨other, hother, hname, hpolicies⟩ := h.identities rawIdentity hmem
  exact ⟨other, hother, hname, hpolicies hpolicy⟩

theorem Extends.defines {u : Unicode} (h : raw.Extends raw') {candidate : Candidate}
    (hdefines : raw.Defines u candidate) : raw'.Defines u candidate := by
  obtain ⟨rawPolicy, hmem, hname, rawRule, hrule, hloads⟩ := hdefines
  obtain ⟨other, hother, hname', hrules⟩ := h.policies rawPolicy hmem
  exact ⟨other, hother, hname'.trans hname, rawRule, hrules hrule, hloads⟩

end RawConfig

section Decide

variable {known known' : Prop} {applicable further : Set Candidate} {capability : Capability}
  {decision decision' : Decision}

/-- Rules less specific than what applies already change nothing. -/
theorem Meaning.eq_of_lower (h : Meaning known applicable capability decision)
    (h' : Meaning known' further capability decision') (hknown : known ↔ known')
    (hsub : applicable ⊆ further)
    (hlower : ∀ candidate ∈ further, candidate ∉ applicable →
      ∃ other ∈ applicable, candidate.specificity < other.specificity) : decision = decision' := by
  obtain rfl := propext hknown
  have hunion : further = applicable ∪ (further \ applicable) :=
    (Set.union_sdiff_cancel hsub).symm
  have htop : Selection.top Candidate.specificity further =
      Selection.top Candidate.specificity applicable := by
    rw [hunion]
    exact Selection.top_union_of_lower fun y hy => hlower y hy.1 hy.2
  have hempty : (∀ candidate, candidate ∉ further) ↔ ∀ candidate, candidate ∉ applicable := by
    constructor
    · intro hnone candidate hmem
      exact hnone candidate (hsub hmem)
    · intro hnone candidate hmem
      obtain ⟨other, hother, -⟩ := hlower candidate hmem (hnone candidate)
      exact hnone other hother
  -- the meaning reads of the rules only whether there are any and which are the most specific
  have hmeaning : Meaning known applicable capability decision' := by
    cases h' with
    | unknownIdentity hk => exact .unknownIdentity hk
    | noMatchingRule hk hnone => exact .noMatchingRule hk (hempty.mp hnone)
    | allow hk hall hleast =>
        rw [htop] at hall hleast
        exact .allow hk hall hleast
    | notGranted hk hnone hleast =>
        rw [htop] at hnone hleast
        exact .notGranted hk hnone hleast
    | tie hk hsome hleast =>
        rw [htop] at hsome hleast
        exact .tie hk hsome hleast
  exact h.unique hmeaning

/-- Rules at most as specific as what applies already lift no denial. -/
theorem Meaning.denied_of_bounded (h : Meaning known applicable capability decision)
    (h' : Meaning known' further capability decision') (hknown : known ↔ known')
    (hsub : applicable ⊆ further) (hsome : applicable.Nonempty)
    (hbounded : ∀ candidate ∈ further, candidate ∉ applicable →
      ∃ other ∈ applicable, candidate.specificity ≤ other.specificity)
    (hdenied : decision.isAllowed = false) : decision'.isAllowed = false := by
  have hunion : further = applicable ∪ (further \ applicable) :=
    (Set.union_sdiff_cancel hsub).symm
  have htop : Selection.top Candidate.specificity applicable ⊆
      Selection.top Candidate.specificity further := by
    rw [hunion]
    exact Selection.top_subset_top_union fun y hy => hbounded y hy.1 hy.2
  by_contra hallowed
  rw [Bool.not_eq_false, h'.isAllowed_iff] at hallowed
  obtain ⟨hk, -, hall⟩ := hallowed
  have : decision.isAllowed = true :=
    h.isAllowed_iff.mpr ⟨hknown.mpr hk, hsome, fun candidate hc => hall candidate (htop hc)⟩
  rw [hdenied] at this
  cases this

end Decide

namespace PolicySet

variable {σ : Type} {u : Unicode} {raw raw' : RawConfig} {set set' : PolicySet}

theorem evaluate_eq_of_rearranged (h : fromRaw (σ := σ) u raw = .ok set)
    (h' : fromRaw (σ := σ) u raw' = .ok set') (hsame : raw.Rearranged raw') (identity : String)
    (path : SecretPath u) (capability : Capability) :
    set.evaluate identity path capability = set'.evaluate identity path capability := by
  have hknows : set.Knows identity ↔ set'.Knows identity := by
    rw [fromRaw_knows h, fromRaw_knows h', hsame.names_iff]
  have happlicable : set.Applicable identity path = set'.Applicable identity path := by
    ext candidate
    rw [fromRaw_applicable h, fromRaw_applicable h', hsame.attaches_iff, hsame.defines_iff u]
  rw [evaluate_eq_iff_meaning, happlicable, propext hknows]
  exact set'.evaluate_meaning identity path capability

theorem applicable_subset_of_extends (h : fromRaw (σ := σ) u raw = .ok set)
    (h' : fromRaw (σ := σ) u raw' = .ok set') (hmore : raw.Extends raw') (identity : String)
    (path : SecretPath u) : set.Applicable identity path ⊆ set'.Applicable identity path := by
  intro candidate hmem
  rw [fromRaw_applicable h] at hmem
  rw [fromRaw_applicable h']
  exact ⟨hmore.attaches hmem.1, hmore.defines hmem.2.1, hmem.2.2⟩

/-- Neither the order of a file nor what it says in addition and less specifically changes who gets
in or which rule is named, and additions that are no more specific only take away. -/
theorem policy_files_compose (u : Unicode) (toml : String → Except σ RawConfig)
    (file file' : String) (raw raw' : RawConfig) (set set' : PolicySet)
    (hraw : toml file = .ok raw) (hraw' : toml file' = .ok raw')
    (hload : fromToml u toml file = .ok set) (hload' : fromToml u toml file' = .ok set') :
    (raw.Rearranged raw' → ∀ identity (path : SecretPath u) capability,
      set.evaluate identity path capability = set'.evaluate identity path capability) ∧
    (raw.Extends raw' → ∀ identity (path : SecretPath u) capability,
      ((∀ candidate ∈ set'.Applicable identity path, candidate ∉ set.Applicable identity path →
          ∃ other ∈ set.Applicable identity path, candidate.specificity < other.specificity) →
        set'.evaluate identity path capability = set.evaluate identity path capability) ∧
      ((set.Applicable identity path).Nonempty →
        (∀ candidate ∈ set'.Applicable identity path, candidate ∉ set.Applicable identity path →
          ∃ other ∈ set.Applicable identity path, candidate.specificity ≤ other.specificity) →
        (set.evaluate identity path capability).isAllowed = false →
        (set'.evaluate identity path capability).isAllowed = false)) := by
  have h := fromToml_eq_ok hraw hload
  have h' := fromToml_eq_ok hraw' hload'
  refine ⟨fun hsame => evaluate_eq_of_rearranged h h' hsame, ?_⟩
  intro hmore identity path capability
  have hknows : set.Knows identity ↔ set'.Knows identity := by
    rw [fromRaw_knows h, fromRaw_knows h', hmore.names_iff]
  have hsub := applicable_subset_of_extends h h' hmore identity path
  have hmeaning := set.evaluate_meaning identity path capability
  have hmeaning' := set'.evaluate_meaning identity path capability
  exact ⟨fun hlower => (hmeaning.eq_of_lower hmeaning' hknows hsub hlower).symm,
    fun hsome hbounded hdenied =>
      hmeaning.denied_of_bounded hmeaning' hknows hsub hsome hbounded hdenied⟩

end PolicySet

def infraRead : RawPolicy :=
  ⟨"infra-read", [⟨"infra/**", ["read", "list"]⟩, ⟨"infra/ciphr/**", []⟩]⟩

def operators : RawPolicy := ⟨"operators", [⟨"infra/ciphr/*", ["read"]⟩]⟩

def everything : RawPolicy := ⟨"everything", [⟨"**", ["read"]⟩]⟩

def policyDocument : RawConfig :=
  ⟨[⟨"runner", "machine", ["infra-read", "operators"]⟩, ⟨"guest", "human", []⟩],
    [infraRead, operators]⟩

def reorderedDocument : RawConfig :=
  ⟨[⟨"guest", "human", []⟩, ⟨"runner", "machine", ["operators", "infra-read"]⟩],
    [operators, ⟨"infra-read", infraRead.rule.reverse⟩]⟩

/-- The document that also grants reading everything. -/
def extendedDocument : RawConfig :=
  ⟨[⟨"runner", "machine", ["everything", "infra-read", "operators"]⟩, ⟨"guest", "human", []⟩],
    [infraRead, operators, everything]⟩

/-- A list of strings as TOML has it. -/
def tomlList (items : List String) : String :=
  "[" ++ ", ".intercalate (items.map fun item => "\"" ++ item ++ "\"") ++ "]"

def tomlRule (rule : RawRule) : String :=
  "[[policy.rule]]\npath = \"" ++ rule.path ++ "\"\ncapabilities = " ++ tomlList rule.capabilities ++ "\n"

def tomlPolicy (policy : RawPolicy) : String :=
  "[[policy]]\nname = \"" ++ policy.name ++ "\"\n" ++ String.join (policy.rule.map tomlRule)

def tomlIdentity (identity : RawIdentity) : String :=
  "[[identity]]\nname = \"" ++ identity.name ++ "\"\nkind = \"" ++ identity.kind ++ "\"\npolicies = " ++
    tomlList identity.policies ++ "\n"

/-- The text of a document. -/
def tomlText (document : RawConfig) : String :=
  String.join (document.identity.map tomlIdentity ++ document.policy.map tomlPolicy)

/-- TOML on the texts of the three documents, and on nothing else. -/
def policyToml (text : String) : Except Unit RawConfig :=
  match [policyDocument, reorderedDocument, extendedDocument].find? (tomlText · == text) with
  | some document => .ok document
  | none => .error ()

theorem policyToml_texts : policyToml (tomlText policyDocument) = .ok policyDocument ∧
    policyToml (tomlText reorderedDocument) = .ok reorderedDocument ∧
    policyToml (tomlText extendedDocument) = .ok extendedDocument := by
  decide +kernel

theorem policyDocument_rearranged : policyDocument.Rearranged reorderedDocument where
  policies := ⟨[operators, infraRead], by decide,
    .cons ⟨rfl, by decide⟩ (.cons ⟨rfl, by decide⟩ .nil)⟩
  identities := ⟨policyDocument.identity.reverse, by decide,
    .cons ⟨rfl, rfl, by decide⟩ (.cons ⟨rfl, rfl, by decide⟩ .nil)⟩

theorem policyDocument_extends : policyDocument.Extends extendedDocument where
  policies := by simp [policyDocument, extendedDocument]
  identities := by simp [policyDocument, extendedDocument]
  same := by decide

namespace PolicySet

theorem exists_ok {ε α : Type} {ended : Except ε α} (h : ended.toOption.isSome = true) :
    ∃ a, ended = .ok a := by
  cases ended with
  | ok a => exact ⟨a, rfl⟩
  | error e => cases h

theorem policy_files_compose_for_runner :
    ∃ set reordered extended path,
      fromToml asciiUnicode policyToml (tomlText policyDocument) = .ok set ∧
      fromToml asciiUnicode policyToml (tomlText reorderedDocument) = .ok reordered ∧
      fromToml asciiUnicode policyToml (tomlText extendedDocument) = .ok extended ∧
      SecretPath.parse asciiUnicode "infra/ciphr/KEY" = .ok path ∧
      (∀ capability, set.evaluate "runner" path capability =
        reordered.evaluate "runner" path capability) ∧
      extended.evaluate "runner" path .read = set.evaluate "runner" path .read ∧
      (extended.evaluate "runner" path .write).isAllowed = false := by
  obtain ⟨set, hset⟩ : ∃ set, fromToml asciiUnicode policyToml (tomlText policyDocument) = .ok set :=
    exists_ok (by decide +kernel)
  obtain ⟨reordered, hreordered⟩ :
      ∃ set, fromToml asciiUnicode policyToml (tomlText reorderedDocument) = .ok set :=
    exists_ok (by decide +kernel)
  obtain ⟨extended, hextended⟩ :
      ∃ set, fromToml asciiUnicode policyToml (tomlText extendedDocument) = .ok set :=
    exists_ok (by decide +kernel)
  obtain ⟨path, hpath⟩ : ∃ path, SecretPath.parse asciiUnicode "infra/ciphr/KEY" = .ok path :=
    ⟨_, rfl⟩
  have hsets : ((fromToml asciiUnicode policyToml (tomlText policyDocument)).toOption.bind fun set =>
      (fromToml asciiUnicode policyToml (tomlText extendedDocument)).toOption.bind fun extended =>
        (SecretPath.parse asciiUnicode "infra/ciphr/KEY").toOption.bind fun path =>
          (set.identity "runner").bind fun runner =>
            (extended.identity "runner").map fun runner' =>
              (extended.matching runner' path).all (fun candidate =>
                decide (candidate ∈ set.matching runner path) || candidate.specificity == 0) &&
              (set.matching runner path).any (fun candidate => candidate.specificity == 2) &&
              !(set.evaluate "runner" path .write).isAllowed) = some true := by decide +kernel
  rw [hset, hextended, hpath] at hsets
  dsimp only [Except.toOption, Option.bind_some] at hsets
  obtain ⟨runner, hrunner, hsets⟩ := Option.bind_eq_some_iff.mp hsets
  obtain ⟨runner', hrunner', hsets⟩ := Option.map_eq_some_iff.mp hsets
  simp only [Bool.and_eq_true, List.all_eq_true, List.any_eq_true, Bool.or_eq_true,
    decide_eq_true_eq, beq_iff_eq, Bool.not_eq_true'] at hsets
  obtain ⟨⟨hadded, most, hmost, hspecific⟩, hdenied⟩ := hsets
  have hlower : ∀ candidate ∈ extended.Applicable "runner" path,
      candidate ∉ set.Applicable "runner" path →
      ∃ other ∈ set.Applicable "runner" path, candidate.specificity < other.specificity := by
    rw [applicable_eq set hrunner, applicable_eq extended hrunner']
    intro candidate hmem hnew
    have hzero := (hadded candidate hmem).resolve_left hnew
    exact ⟨most, hmost, by omega⟩
  have hsome : (set.Applicable "runner" path).Nonempty := by
    rw [applicable_eq set hrunner]
    exact ⟨most, hmost⟩
  obtain ⟨hsame, -⟩ := policy_files_compose asciiUnicode policyToml (tomlText policyDocument)
    (tomlText reorderedDocument) _ _ set reordered policyToml_texts.1 policyToml_texts.2.1 hset hreordered
  obtain ⟨-, hmore⟩ := policy_files_compose asciiUnicode policyToml (tomlText policyDocument)
    (tomlText extendedDocument) _ _ set extended policyToml_texts.1 policyToml_texts.2.2 hset hextended
  refine ⟨set, reordered, extended, path, hset, hreordered, hextended, hpath, ?_, ?_, ?_⟩
  · exact hsame policyDocument_rearranged "runner" path
  · exact (hmore policyDocument_extends "runner" path .read).1 hlower
  · refine (hmore policyDocument_extends "runner" path .write).2 hsome ?_ hdenied
    intro candidate hmem hnew
    obtain ⟨other, hother, hlt⟩ := hlower candidate hmem hnew
    exact ⟨other, hother, hlt.le⟩

end PolicySet

end Ciphr
