import Ciphr.PolicyFile

/-!
Which policy files load. What a file must say is one list of conditions on the document; loading
checks them one at a time, in the order of the document, and hands out a set only when all of them
hold. The set then says what the document says, entry for entry.
-/

namespace Ciphr

theorem Capability.parse_eq_ok_iff {name : String} {capability : Capability} :
    Capability.parse name = .ok capability ↔ name = capability.asStr := by
  constructor
  · intro h
    unfold Capability.parse at h
    split at h
    · rename_i found hfind
      cases h
      have hname := List.find?_some hfind
      rw [beq_iff_eq] at hname
      exact hname.symm
    · cases h
  · rintro rfl
    cases capability <;> decide

/-- What the load requires of one rule. -/
structure RawRule.Valid (u : Unicode) (raw : RawRule) : Prop where
  pattern : ∃ pattern, PathPattern.parse u raw.path = .ok pattern
  known : ∀ name ∈ raw.capabilities, ∃ capability, Capability.parse name = .ok capability
  once : raw.capabilities.Nodup
  /-- A rule whose first segment is the reserved prefix grants nothing on a secret. -/
  reserved : ∀ pattern, PathPattern.parse u raw.path = .ok pattern →
    pattern.segments.head? = some (.literal reservedPrefix) →
    ∀ name ∈ raw.capabilities, ∀ capability, Capability.parse name = .ok capability →
      capability.isControlPlane = true

structure RawPolicy.Valid (u : Unicode) (raw : RawPolicy) : Prop where
  rules : ∀ rule ∈ raw.rule, rule.Valid u
  /-- No pattern is there twice, however its text is composed. -/
  once : (raw.rule.map fun rule => PathPattern.parse u rule.path).Nodup

structure RawIdentity.Valid (policies : List String) (raw : RawIdentity) : Prop where
  kind : ∃ kind : IdentityKind, raw.kind = kind.asStr
  attached : ∀ name ∈ raw.policies, name ∈ policies
  once : raw.policies.Nodup

structure RawConfig.Valid (u : Unicode) (raw : RawConfig) : Prop where
  policies : ∀ policy ∈ raw.policy, policy.Valid u
  policies_once : (raw.policy.map (·.name)).Nodup
  identities : ∀ identity ∈ raw.identity, identity.Valid (raw.policy.map (·.name))
  identities_once : (raw.identity.map (·.name)).Nodup

/-- The policy a raw policy loads as: the same name, and its rules one for one. -/
def RawPolicy.Loads (u : Unicode) (raw : RawPolicy) (policy : Policy) : Prop :=
  policy.name = raw.name ∧ List.Forall₂ (RawRule.Loads u) raw.rule policy.rules

def RawIdentity.Loads (raw : RawIdentity) (identity : Identity) : Prop :=
  identity.name = raw.name ∧ raw.kind = identity.kind.asStr ∧ identity.policies = raw.policies

/-- The set a document loads as: its policies and its identities, one for one. -/
structure RawConfig.Loads (u : Unicode) (raw : RawConfig) (set : PolicySet) : Prop where
  policies : List.Forall₂ (RawPolicy.Loads u) raw.policy set.policies
  identities : List.Forall₂ RawIdentity.Loads raw.identity set.identities

theorem PathPattern.namesReservedPrefix_iff (pattern : PathPattern) :
    pattern.namesReservedPrefix = true ↔
      pattern.segments.head? = some (.literal reservedPrefix) := by
  unfold PathPattern.namesReservedPrefix
  cases pattern.segments.head? with
  | none => simp
  | some segment => cases segment <;> simp

theorem Capability.asStr_injective : Function.Injective Capability.asStr := by
  intro left right h
  have hleft := Capability.parse_eq_ok_iff.mpr (Eq.refl left.asStr)
  have hright := Capability.parse_eq_ok_iff.mpr h
  exact Except.ok.inj (hleft.symm.trans hright)

section Load

variable {σ : Type} {u : Unicode}

/-- What the load requires of one capability of a rule with this pattern. -/
def GrantValid (pattern : PathPattern) (name : String) : Prop :=
  ∃ capability, Capability.parse name = .ok capability ∧
    (pattern.namesReservedPrefix = true → capability.isControlPlane = true)

theorem capabilities_collector (policy : String) (pattern : PathPattern) :
    Loop.Collector (addCapability (σ := σ) policy pattern)
      (fun capabilities items => ∀ capability, capability ∈ capabilities ↔ capability ∈ items)
      (GrantValid pattern) (fun name capability => Capability.parse name = .ok capability)
      (fun name => name) Capability.asStr where
  sound := by
    intro capabilities items name capabilities' hholds h
    have hcollects := addCapability_collects h
    obtain ⟨capability, hcapability, h⟩ := Loop.bind_eq_ok h
    have hparse := Loop.mapError_eq_ok hcapability
    split at h
    · cases h
    · rename_i hnew
      split at h
      · cases h
      · rename_i hreserved
        refine ⟨⟨capability, hparse, ?_⟩, ?_, capability, hparse, ?_⟩
        · intro hnames
          simpa [hnames] using hreserved
        · rw [Capability.parse_eq_ok_iff.mp hparse, List.mem_map_of_injective
            Capability.asStr_injective, ← hholds]
          exact hnew
        · intro other
          rw [hcollects, hholds, hparse, List.mem_append, List.mem_singleton, Except.ok.injEq]
          exact or_congr_right eq_comm
  complete := by
    rintro capabilities items name hholds ⟨capability, hparse, hreserved⟩ hnew
    rw [Capability.parse_eq_ok_iff.mp hparse, List.mem_map_of_injective
      Capability.asStr_injective, ← hholds] at hnew
    refine ⟨insert capability capabilities, ?_⟩
    have hallowed : ¬(pattern.namesReservedPrefix && !capability.isControlPlane) = true := by
      rw [Bool.and_eq_true, Bool.not_eq_true', not_and, Bool.not_eq_false]
      exact hreserved
    unfold addCapability
    rw [hparse]
    show (if capability ∈ capabilities then _ else _) = _
    rw [if_neg hnew, if_neg hallowed]
  same := by
    intro name capability hparse
    exact (Capability.parse_eq_ok_iff.mp hparse).symm

/-- The loop over a rule's capabilities ends without an error exactly when the rule is valid. -/
theorem foldlM_addCapability_iff {raw : RawRule} {pattern : PathPattern} (policy : String)
    (hpattern : PathPattern.parse u raw.path = .ok pattern) :
    (∃ capabilities, raw.capabilities.foldlM (addCapability (σ := σ) policy pattern) ∅ =
      .ok capabilities) ↔ raw.Valid u := by
  rw [(capabilities_collector policy pattern).run_iff (by simp), List.map_id']
  constructor
  · rintro ⟨hvalid, honce⟩
    refine ⟨⟨pattern, hpattern⟩, ?_, honce, ?_⟩
    · intro name hname
      obtain ⟨capability, hparse, -⟩ := hvalid name hname
      exact ⟨capability, hparse⟩
    · intro pattern' hpattern' hfirst name hname capability hparse
      obtain rfl := Except.ok.inj (hpattern.symm.trans hpattern')
      obtain ⟨capability', hparse', hreserved⟩ := hvalid name hname
      obtain rfl := Except.ok.inj (hparse.symm.trans hparse')
      exact hreserved (pattern.namesReservedPrefix_iff.mpr hfirst)
  · intro hvalid
    refine ⟨?_, hvalid.once⟩
    intro name hname
    obtain ⟨capability, hparse⟩ := hvalid.known name hname
    refine ⟨capability, hparse, ?_⟩
    intro hnames
    exact hvalid.reserved pattern hpattern (pattern.namesReservedPrefix_iff.mp hnames) name hname
      capability hparse

theorem rules_collector (name : String) :
    Loop.Collector (addRule (σ := σ) u)
      (fun policy rules => policy.name = name ∧ policy.rules = rules) (RawRule.Valid u)
      (RawRule.Loads u) (fun raw => PathPattern.parse u raw.path) (fun rule => .ok rule.pattern) where
  sound := by
    rintro policy rules raw policy' ⟨hname, rfl⟩ h
    obtain ⟨pattern, hpattern, h⟩ := Loop.bind_eq_ok h
    have hparse := Loop.mapError_eq_ok hpattern
    split at h
    · cases h
    · rename_i hnew
      obtain ⟨capabilities, hcapabilities, h⟩ := Loop.bind_eq_ok h
      cases h
      refine ⟨(foldlM_addCapability_iff policy.name hparse).mp ⟨capabilities, hcapabilities⟩, ?_,
        ⟨pattern, capabilities⟩, ⟨hparse, ?_⟩, hname, rfl⟩
      · rw [hparse]
        intro hmem
        obtain ⟨rule, hrule, hsame⟩ := List.mem_map.mp hmem
        exact hnew (List.mem_map.mpr ⟨rule, hrule, Except.ok.inj hsame⟩)
      · intro capability
        have hcollects := Loop.foldlM_collects hcapabilities (fun acc c => c ∈ acc)
          (fun name c => Capability.parse name = .ok c) (fun _ _ _ => addCapability_collects)
          capability
        simpa using hcollects
  complete := by
    rintro policy rules raw ⟨-, rfl⟩ hvalid hnew
    obtain ⟨pattern, hparse⟩ := hvalid.pattern
    obtain ⟨capabilities, hcapabilities⟩ :=
      (foldlM_addCapability_iff (σ := σ) policy.name hparse).mpr hvalid
    have hfresh : pattern ∉ policy.rules.map (·.pattern) := by
      intro hmem
      obtain ⟨rule, hrule, hsame⟩ := List.mem_map.mp hmem
      apply hnew
      rw [hparse, ← hsame]
      exact List.mem_map.mpr ⟨rule, hrule, rfl⟩
    unfold addRule
    simp only [hparse, Except.mapError, bind, Except.bind, dif_neg hfresh, hcapabilities]
    exact ⟨_, rfl⟩
  same := by
    intro raw rule hloads
    exact hloads.1.symm

theorem buildPolicy_loads {raw : RawPolicy} {policy : Policy}
    (h : buildPolicy (σ := σ) u raw = .ok policy) : raw.Loads u policy := by
  obtain ⟨rules, hbuilt, hname, rfl⟩ := (rules_collector raw.name).run_gives ⟨rfl, rfl⟩ h
  exact ⟨hname, hbuilt⟩

theorem buildPolicy_iff {raw : RawPolicy} :
    (∃ policy, buildPolicy (σ := σ) u raw = .ok policy) ↔ raw.Valid u := by
  unfold buildPolicy
  rw [(rules_collector raw.name).run_iff ⟨rfl, rfl⟩]
  constructor
  · rintro ⟨hrules, honce⟩
    exact ⟨hrules, honce⟩
  · intro hvalid
    exact ⟨hvalid.rules, hvalid.once⟩

theorem references_collector (identity : String) (policies : List Policy) :
    Loop.Collector (checkReference (σ := σ) identity policies) (fun seen names => seen.1 = names)
      (fun name => name ∈ policies.map (·.name)) (fun name item => item = name)
      (fun name => name) (fun name => name) where
  sound := by
    rintro seen names name seen' rfl h
    have happend := checkReference_append h
    unfold checkReference at h
    split at h
    · rename_i hknown
      split at h
      · cases h
      · rename_i hnew
        rw [List.map_id']
        exact ⟨hknown, hnew, name, rfl, happend⟩
    · cases h
  complete := by
    rintro seen names name rfl hknown hnew
    rw [List.map_id'] at hnew
    unfold checkReference
    rw [dif_pos hknown, dif_neg hnew]
    exact ⟨_, rfl⟩
  same := by
    rintro name item rfl
    rfl

theorem identityKind_eq_ok_iff {identity name : String} {kind : IdentityKind} :
    identityKind (σ := σ) identity name = .ok kind ↔ name = kind.asStr := by
  constructor
  · intro h
    unfold identityKind at h
    split at h
    · cases h
      rfl
    · cases h
      rfl
    · cases h
  · rintro rfl
    cases kind <;> rfl

theorem buildIdentity_loads {raw : RawIdentity} {policies : List Policy}
    {identity : AttachedIdentity policies}
    (h : buildIdentity (σ := σ) raw policies = .ok identity) : raw.Loads identity.1 := by
  obtain ⟨hname, hpolicies⟩ := buildIdentity_spec h
  obtain ⟨kind, hkind, h⟩ := Loop.bind_eq_ok h
  obtain ⟨names, -, h⟩ := Loop.bind_eq_ok h
  refine ⟨hname, ?_, hpolicies⟩
  cases h
  exact identityKind_eq_ok_iff.mp hkind

theorem buildIdentity_iff {raw : RawIdentity} {policies : List Policy} :
    (∃ identity, buildIdentity (σ := σ) raw policies = .ok identity) ↔
      raw.Valid (policies.map (·.name)) := by
  have hreferences : (∃ names, raw.policies.foldlM (checkReference (σ := σ) raw.name policies)
      ⟨[], by simp⟩ = .ok names) ↔
        (∀ name ∈ raw.policies, name ∈ policies.map (·.name)) ∧ raw.policies.Nodup := by
    rw [(references_collector raw.name policies).run_iff rfl, List.map_id']
  constructor
  · rintro ⟨identity, h⟩
    obtain ⟨kind, hkind, h⟩ := Loop.bind_eq_ok h
    obtain ⟨names, hnames, -⟩ := Loop.bind_eq_ok h
    obtain ⟨hknown, honce⟩ := hreferences.mp ⟨names, hnames⟩
    exact ⟨⟨kind, identityKind_eq_ok_iff.mp hkind⟩, hknown, honce⟩
  · rintro ⟨⟨kind, hkind⟩, hknown, honce⟩
    obtain ⟨names, hnames⟩ := hreferences.mpr ⟨hknown, honce⟩
    unfold buildIdentity
    simp only [identityKind_eq_ok_iff.mpr hkind, bind, Except.bind, hnames]
    exact ⟨_, rfl⟩

theorem policies_collector :
    Loop.Collector (addPolicy (σ := σ) u) (fun map policies => map.1 = policies) (RawPolicy.Valid u)
      (RawPolicy.Loads u) (·.name) (·.name) where
  sound := by
    rintro map policies raw map' rfl h
    obtain ⟨policy, hpolicy, h⟩ := Loop.bind_eq_ok h
    have hloads := buildPolicy_loads hpolicy
    split at h
    · cases h
    · rename_i hnew
      cases h
      rw [hloads.1] at hnew
      exact ⟨buildPolicy_iff.mp ⟨policy, hpolicy⟩, hnew, policy, hloads, rfl⟩
  complete := by
    rintro map policies raw rfl hvalid hnew
    obtain ⟨policy, hpolicy⟩ := (buildPolicy_iff (σ := σ)).mpr hvalid
    rw [← (buildPolicy_loads hpolicy).1] at hnew
    unfold addPolicy
    simp only [hpolicy, bind, Except.bind, dif_neg hnew]
    exact ⟨_, rfl⟩
  same := by
    intro raw policy hloads
    exact hloads.1

theorem identities_collector (policies : List Policy) :
    Loop.Collector (addIdentity (σ := σ) policies) (fun map identities => map.1 = identities)
      (RawIdentity.Valid (policies.map (·.name))) RawIdentity.Loads (·.name) (·.name) where
  sound := by
    rintro map identities raw map' rfl h
    obtain ⟨identity, hidentity, h⟩ := Loop.bind_eq_ok h
    have hloads := buildIdentity_loads hidentity
    split at h
    · cases h
    · rename_i hnew
      cases h
      rw [hloads.1] at hnew
      exact ⟨buildIdentity_iff.mp ⟨identity, hidentity⟩, hnew, identity.1, hloads, rfl⟩
  complete := by
    rintro map identities raw rfl hvalid hnew
    obtain ⟨identity, hidentity⟩ := (buildIdentity_iff (σ := σ)).mpr hvalid
    rw [← (buildIdentity_loads hidentity).1] at hnew
    unfold addIdentity
    simp only [hidentity, bind, Except.bind, dif_neg hnew]
    exact ⟨_, rfl⟩
  same := by
    intro raw identity hloads
    exact hloads.1

end Load

namespace PolicySet

variable {σ : Type} {u : Unicode}

theorem map_name_of_loads {raws : List RawPolicy} {policies : List Policy}
    (h : List.Forall₂ (RawPolicy.Loads u) raws policies) :
    policies.map (·.name) = raws.map (·.name) := by
  induction h with
  | nil => rfl
  | cons hfirst _ ih => rw [List.map_cons, List.map_cons, hfirst.1, ih]

theorem fromRaw_loads {raw : RawConfig} {set : PolicySet} (h : fromRaw (σ := σ) u raw = .ok set) :
    raw.Loads u set := by
  obtain ⟨policies, hpolicies, h⟩ := Loop.bind_eq_ok h
  obtain ⟨identities, hidentities, h⟩ := Loop.bind_eq_ok h
  cases h
  obtain ⟨_, hbuilt, rfl⟩ := policies_collector.run_gives rfl hpolicies
  obtain ⟨_, hbuilt', rfl⟩ := (identities_collector policies.1).run_gives rfl hidentities
  exact ⟨hbuilt, hbuilt'⟩

theorem fromRaw_iff {raw : RawConfig} :
    (∃ set, fromRaw (σ := σ) u raw = .ok set) ↔ raw.Valid u := by
  have hloop : (∃ policies, raw.policy.foldlM (addPolicy (σ := σ) u) ⟨[], List.nodup_nil⟩ =
      .ok policies) ↔ (∀ policy ∈ raw.policy, policy.Valid u) ∧
        (raw.policy.map (·.name)).Nodup :=
    policies_collector.run_iff rfl
  constructor
  · rintro ⟨set, h⟩
    obtain ⟨policies, hpolicies, h⟩ := Loop.bind_eq_ok h
    obtain ⟨identities, hidentities, -⟩ := Loop.bind_eq_ok h
    obtain ⟨hvalid, honce⟩ := hloop.mp ⟨policies, hpolicies⟩
    obtain ⟨_, hbuilt, rfl⟩ := policies_collector.run_gives rfl hpolicies
    obtain ⟨hvalid', honce'⟩ := ((identities_collector policies.1).run_iff rfl).mp
      ⟨identities, hidentities⟩
    rw [map_name_of_loads hbuilt] at hvalid'
    exact ⟨hvalid, honce, hvalid', honce'⟩
  · rintro ⟨hvalid, honce, hvalid', honce'⟩
    obtain ⟨policies, hpolicies⟩ := hloop.mpr ⟨hvalid, honce⟩
    obtain ⟨_, hbuilt, rfl⟩ := policies_collector.run_gives rfl hpolicies
    rw [← map_name_of_loads hbuilt] at hvalid'
    obtain ⟨identities, hidentities⟩ : ∃ identities, raw.identity.foldlM
        (addIdentity (σ := σ) policies.1) ⟨[], List.nodup_nil, by simp⟩ = .ok identities :=
      ((identities_collector policies.1).run_iff rfl).mpr ⟨hvalid', honce'⟩
    unfold fromRaw
    simp only [hpolicies, bind, Except.bind, hidentities]
    exact ⟨_, rfl⟩

/-- Loading succeeds on exactly the files that are valid throughout; the set then says what the file
says, entry for entry, and any other file gives an error and no set. -/
theorem fromToml_exact (u : Unicode) (toml : String → Except σ RawConfig) (input : String) :
    ((∃ set, fromToml u toml input = .ok set) ↔ ∃ raw, toml input = .ok raw ∧ raw.Valid u) ∧
      (∀ set, fromToml u toml input = .ok set → ∀ raw, toml input = .ok raw → raw.Loads u set) ∧
      ∀ raw, toml input = .ok raw → ¬raw.Valid u →
        ∃ error, fromToml u toml input = .error error := by
  have hiff : (∃ set, fromToml u toml input = .ok set) ↔
      ∃ raw, toml input = .ok raw ∧ raw.Valid u := by
    constructor
    · rintro ⟨set, h⟩
      obtain ⟨raw, hraw, h⟩ := Loop.bind_eq_ok h
      exact ⟨raw, Loop.mapError_eq_ok hraw, fromRaw_iff.mp ⟨set, h⟩⟩
    · rintro ⟨raw, hraw, hvalid⟩
      obtain ⟨set, hset⟩ := fromRaw_iff.mpr hvalid
      refine ⟨set, ?_⟩
      unfold fromToml
      rw [hraw]
      exact hset
  refine ⟨hiff, ?_, ?_⟩
  · intro set h raw hraw
    exact fromRaw_loads (fromToml_eq_ok hraw h)
  · intro raw hraw hinvalid
    cases hload : fromToml u toml input with
    | error error => exact ⟨error, rfl⟩
    | ok set =>
        obtain ⟨raw', hraw', hvalid⟩ := hiff.mp ⟨set, hload⟩
        obtain rfl := Except.ok.inj (hraw.symm.trans hraw')
        exact absurd hvalid hinvalid

end PolicySet

end Ciphr
