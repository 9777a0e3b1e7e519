import Mathlib.Data.Finset.Basic
import Ciphr.CorePattern
import Ciphr.CoreCapability
import Ciphr.LibFold

/-!
`ciphr-policy/src/model.rs`: the policy model and loading it. The TOML parser is a parameter that
gives the document's shape; what the loader makes of that shape is all here. The loader's two maps
are keyed by the name their entries carry, and are the lists of their entries.
-/

namespace Ciphr

inductive IdentityKind where
  | machine
  | human
  deriving DecidableEq, Repr

def IdentityKind.asStr : IdentityKind → String
  | .machine => "machine"
  | .human => "human"

structure Rule where
  pattern : PathPattern
  capabilities : Finset Capability
  deriving DecidableEq

structure Policy where
  name : String
  rules : List Rule
  patterns_nodup : (rules.map (·.pattern)).Nodup

structure Identity where
  name : String
  kind : IdentityKind
  policies : List String
  policies_nodup : policies.Nodup

/-- Every identity and policy, loaded and validated. -/
structure PolicySet where
  identities : List Identity
  policies : List Policy
  identities_nodup : (identities.map (·.name)).Nodup
  policies_nodup : (policies.map (·.name)).Nodup
  attached : ∀ identity ∈ identities, ∀ name ∈ identity.policies, name ∈ policies.map (·.name)

structure RawRule where
  path : String
  capabilities : List String
  deriving DecidableEq, Repr

structure RawPolicy where
  name : String
  rule : List RawRule
  deriving DecidableEq, Repr

structure RawIdentity where
  name : String
  kind : String
  policies : List String
  deriving DecidableEq, Repr

structure RawConfig where
  identity : List RawIdentity
  policy : List RawPolicy
  deriving DecidableEq, Repr

/-- Why a policy file was rejected; `σ` is what the TOML parser reports. -/
inductive PolicyError (σ : Type) where
  | syntaxError (error : σ)
  | pattern (policy pattern : String) (reason : PatternError)
  | capability (policy pattern : String) (reason : CapabilityError)
  | duplicateCapability (policy pattern capability : String)
  | secretCapabilityOnControlPlane (policy pattern : String) (capability : Capability)
  | duplicatePattern (policy pattern : String)
  | duplicatePolicy (name : String)
  | duplicateIdentity (name : String)
  | unknownPolicy (identity policy : String)
  | duplicatePolicyReference (identity policy : String)
  | unknownIdentityKind (identity found : String)
  deriving DecidableEq, Repr

/-- Looking an entry up by a name that the entries do not share. -/
theorem find?_name_eq_some_iff {α : Type} {name : α → String} {entries : List α}
    (hnodup : (entries.map name).Nodup) {key : String} {entry : α} :
    entries.find? (fun other => name other == key) = some entry ↔
      entry ∈ entries ∧ name entry = key := by
  constructor
  · intro h
    exact ⟨List.mem_of_find?_eq_some h, by simpa using List.find?_some h⟩
  · rintro ⟨hmem, hname⟩
    cases hfind : entries.find? (fun other => name other == key) with
    | none => exact absurd hname (by simpa using List.find?_eq_none.mp hfind entry hmem)
    | some other =>
        have hother : name other = key := by simpa using List.find?_some hfind
        rw [List.inj_on_of_nodup_map hnodup (List.mem_of_find?_eq_some hfind) hmem
          (hother.trans hname.symm)]

namespace PolicySet

def identity (set : PolicySet) (name : String) : Option Identity :=
  set.identities.find? (·.name == name)

def policy (set : PolicySet) (name : String) : Option Policy :=
  set.policies.find? (·.name == name)

theorem identity_eq_some_iff (set : PolicySet) {name : String} {identity : Identity} :
    set.identity name = some identity ↔ identity ∈ set.identities ∧ identity.name = name :=
  find?_name_eq_some_iff set.identities_nodup

theorem policy_eq_some_iff (set : PolicySet) {name : String} {policy : Policy} :
    set.policy name = some policy ↔ policy ∈ set.policies ∧ policy.name = name :=
  find?_name_eq_some_iff set.policies_nodup

end PolicySet

theorem nodup_append_singleton {α : Type} {l : List α} {a : α} (hl : l.Nodup) (ha : a ∉ l) :
    (l ++ [a]).Nodup := by
  rw [List.nodup_append]
  refine ⟨hl, List.nodup_singleton a, ?_⟩
  intro x hx y hy hxy
  rw [List.mem_singleton] at hy
  subst hxy hy
  exact ha hx

section Load

variable {σ : Type} (u : Unicode)

/-- One round of the loop over a rule's capabilities. -/
def addCapability (policy : String) (pattern : PathPattern) (capabilities : Finset Capability)
    (name : String) : Except (PolicyError σ) (Finset Capability) := do
  let capability ← (Capability.parse name).mapError (.capability policy pattern.text ·)
  if capability ∈ capabilities then .error (.duplicateCapability policy pattern.text name)
  else if pattern.namesReservedPrefix && !capability.isControlPlane then
    .error (.secretCapabilityOnControlPlane policy pattern.text capability)
  else .ok (insert capability capabilities)

/-- One round of the loop over a policy's rules. -/
def addRule (policy : Policy) (raw : RawRule) : Except (PolicyError σ) Policy := do
  let pattern ← (PathPattern.parse u raw.path).mapError (.pattern policy.name raw.path ·)
  if h : pattern ∈ policy.rules.map (·.pattern) then
    .error (.duplicatePattern policy.name pattern.text)
  else do
    let capabilities ← raw.capabilities.foldlM (addCapability policy.name pattern) ∅
    .ok ⟨policy.name, policy.rules ++ [⟨pattern, capabilities⟩], by
      rw [List.map_append, List.map_singleton]
      exact nodup_append_singleton policy.patterns_nodup h⟩

def buildPolicy (raw : RawPolicy) : Except (PolicyError σ) Policy :=
  raw.rule.foldlM (addRule u) ⟨raw.name, [], List.nodup_nil⟩

/-- The names checked so far of those an identity refers to. -/
abbrev CheckedNames (policies : List Policy) : Type :=
  {names : List String // names.Nodup ∧ ∀ name ∈ names, name ∈ policies.map (·.name)}

/-- One round of the loop over the policies an identity refers to. -/
def checkReference (identity : String) (policies : List Policy) (seen : CheckedNames policies)
    (policy : String) : Except (PolicyError σ) (CheckedNames policies) :=
  if hknown : policy ∈ policies.map (·.name) then
    if hseen : policy ∈ seen.1 then .error (.duplicatePolicyReference identity policy)
    else .ok ⟨seen.1 ++ [policy], by
      refine ⟨nodup_append_singleton seen.2.1 hseen, ?_⟩
      intro name hname
      rcases List.mem_append.mp hname with h | h
      · exact seen.2.2 name h
      · rw [List.mem_singleton] at h
        exact h ▸ hknown⟩
  else .error (.unknownPolicy identity policy)

/-- An identity that refers to policies which exist. -/
abbrev AttachedIdentity (policies : List Policy) : Type :=
  {identity : Identity // ∀ name ∈ identity.policies, name ∈ policies.map (·.name)}

def identityKind (identity : String) : String → Except (PolicyError σ) IdentityKind
  | "machine" => .ok .machine
  | "human" => .ok .human
  | other => .error (.unknownIdentityKind identity other)

def buildIdentity (raw : RawIdentity) (policies : List Policy) :
    Except (PolicyError σ) (AttachedIdentity policies) := do
  let kind ← identityKind raw.name raw.kind
  let names ← raw.policies.foldlM (checkReference raw.name policies) ⟨[], by simp⟩
  .ok ⟨⟨raw.name, kind, names.1, names.2.1⟩, names.2.2⟩

abbrev PolicyMap : Type := {policies : List Policy // (policies.map (·.name)).Nodup}

abbrev IdentityMap (policies : List Policy) : Type :=
  {identities : List Identity // (identities.map (·.name)).Nodup ∧
    ∀ identity ∈ identities, ∀ name ∈ identity.policies, name ∈ policies.map (·.name)}

def addPolicy (policies : PolicyMap) (raw : RawPolicy) : Except (PolicyError σ) PolicyMap := do
  let policy ← buildPolicy u raw
  if h : policy.name ∈ policies.1.map (·.name) then .error (.duplicatePolicy policy.name)
  else .ok ⟨policies.1 ++ [policy], by
    rw [List.map_append, List.map_singleton]
    exact nodup_append_singleton policies.2 h⟩

def addIdentity (policies : List Policy) (identities : IdentityMap policies) (raw : RawIdentity) :
    Except (PolicyError σ) (IdentityMap policies) := do
  let identity ← buildIdentity raw policies
  if h : identity.1.name ∈ identities.1.map (·.name) then
    .error (.duplicateIdentity identity.1.name)
  else .ok ⟨identities.1 ++ [identity.1], by
    refine ⟨?_, ?_⟩
    · rw [List.map_append, List.map_singleton]
      exact nodup_append_singleton identities.2.1 h
    · intro other hother
      rcases List.mem_append.mp hother with ho | ho
      · exact identities.2.2 other ho
      · rw [List.mem_singleton] at ho
        exact ho ▸ identity.2⟩

/-- What `from_toml` makes of the document. -/
def PolicySet.fromRaw (raw : RawConfig) : Except (PolicyError σ) PolicySet := do
  let policies ← raw.policy.foldlM (addPolicy u) ⟨[], List.nodup_nil⟩
  let identities ← raw.identity.foldlM (addIdentity policies.1) ⟨[], List.nodup_nil, by simp⟩
  .ok ⟨identities.1, policies.1, identities.2.1, policies.2, identities.2.2⟩

def PolicySet.fromToml (toml : String → Except σ RawConfig) (input : String) :
    Except (PolicyError σ) PolicySet := do
  let raw ← (toml input).mapError .syntaxError
  fromRaw u raw

end Load

end Ciphr
