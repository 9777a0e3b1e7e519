import Mathlib.Data.Prod.Lex
import Mathlib.Data.String.Basic
import Ciphr.LibSelection
import Ciphr.PolicyModel

/-!
`ciphr-policy/src/evaluate.rs`: the authorization decision, and what it means. The evaluator
collects, filters, sorts and counts; the meaning speaks of the set of rules that apply to a request,
of those among them that are the most specific, and of the first of these by policy and pattern.
-/

namespace Ciphr

inductive Effect where
  | allow
  | deny
  deriving DecidableEq, Repr

inductive DenyReason where
  | unknownIdentity
  | noMatchingRule
  | notGranted
  | tie
  deriving DecidableEq, Repr

structure MatchedRule where
  policy : String
  pattern : String
  specificity : Nat
  deriving DecidableEq, Repr

structure Decision where
  effect : Effect
  reason : Option DenyReason
  rule : Option MatchedRule
  deriving DecidableEq, Repr

namespace Decision

def isAllowed (decision : Decision) : Bool := decision.effect == .allow

def allow (rule : MatchedRule) : Decision := ⟨.allow, none, some rule⟩

def deny (reason : DenyReason) (rule : Option MatchedRule) : Decision :=
  ⟨.deny, some reason, rule⟩

end Decision

/-- A rule and the name of the policy it belongs to. -/
abbrev Candidate : Type := Rule × String

namespace Candidate

def specificity (candidate : Candidate) : Nat := candidate.1.pattern.specificity

def grants (capability : Capability) (candidate : Candidate) : Bool :=
  decide (capability ∈ candidate.1.capabilities)

/-- The order of reporting: by policy name, then by pattern text. -/
def order (left right : Candidate) : Ordering :=
  (compare left.2 right.2).then (compare left.1.pattern.text right.1.pattern.text)

def describe (candidate : Candidate) : MatchedRule :=
  ⟨candidate.2, candidate.1.pattern.text, candidate.1.pattern.specificity⟩

end Candidate

namespace PolicySet

variable {u : Unicode}

/-- Every matching rule from every attached policy. -/
def matching (set : PolicySet) (identity : Identity) (path : SecretPath u) : List Candidate :=
  identity.policies.flatMap fun policyName =>
    match set.policy policyName with
    | none => []
    | some policy =>
        (policy.rules.filter fun rule => rule.pattern.matchesPath path).map fun rule =>
          (rule, policy.name)

/-- The most specific of the matching rules, in the order of reporting. -/
def winners (candidates : List Candidate) : List Candidate :=
  (candidates.filter fun candidate =>
    candidate.specificity == (candidates.map Candidate.specificity).max?.getD 0).insertionSort
      fun left right => (Candidate.order left right).isLE = true

theorem mem_winners (candidates : List Candidate) (candidate : Candidate) :
    candidate ∈ winners candidates ↔
      candidate ∈ Selection.top Candidate.specificity {other | other ∈ candidates} := by
  unfold winners
  rw [List.mem_insertionSort, Selection.mem_filter_max]

theorem winners_ne_nil {candidates : List Candidate} (h : candidates ≠ []) :
    winners candidates ≠ [] := by
  cases hmax : (candidates.map Candidate.specificity).max? with
  | none =>
      rw [List.max?_eq_none_iff, List.map_eq_nil_iff] at hmax
      exact absurd hmax h
  | some most =>
      obtain ⟨hmem, hle⟩ := List.max?_eq_some_iff.mp hmax
      obtain ⟨candidate, hcandidate, rfl⟩ := List.mem_map.mp hmem
      apply List.ne_nil_of_mem (a := candidate)
      rw [mem_winners]
      exact ⟨hcandidate, fun other hother => hle _ (List.mem_map_of_mem hother)⟩

def evaluate (set : PolicySet) (identity : String) (path : SecretPath u)
    (capability : Capability) : Decision :=
  match set.identity identity with
  | none => .deny .unknownIdentity none
  | some identity =>
      let candidates := set.matching identity path
      if h : candidates = [] then .deny .noMatchingRule none
      else
        let winning := winners candidates
        let granting := (winning.filter (Candidate.grants capability)).length
        if granting = winning.length then
          .allow (winning.head (winners_ne_nil h)).describe
        else
          let refusing := winning.find? fun candidate => !candidate.grants capability
          .deny (if granting = 0 then .notGranted else .tie) (refusing.map Candidate.describe)

end PolicySet

/-! ### The meaning of a decision -/

/-- What a rule is reported by. -/
def Candidate.key (candidate : Candidate) : Lex (String × String) :=
  toLex (candidate.2, candidate.1.pattern.text)

theorem Candidate.order_isLE_iff (left right : Candidate) :
    (Candidate.order left right).isLE = true ↔ left.key ≤ right.key := by
  unfold Candidate.order Candidate.key
  rw [Ordering.isLE_then_iff_or, Prod.Lex.le_iff, compare_lt_iff_lt, compare_eq_iff_eq,
    Ordering.isLE_iff_ne_gt, ← ne_eq, compare_le_iff_le]
  rfl

/-- Rules with the same key are described alike: the text of a pattern is all of it. -/
theorem Candidate.describe_eq_of_key_eq {left right : Candidate} (h : left.key = right.key) :
    left.describe = right.describe := by
  unfold Candidate.key at h
  rw [toLex_inj, Prod.mk.injEq] at h
  unfold Candidate.describe
  rw [PathPattern.eq_of_text_eq h.2, h.1]

namespace PolicySet

variable {u : Unicode}

/-- The identity exists. -/
def Knows (set : PolicySet) (identity : String) : Prop :=
  ∃ known ∈ set.identities, known.name = identity

/-- The rules of the attached policies that match the path. -/
def Applicable (set : PolicySet) (identity : String) (path : SecretPath u) : Set Candidate :=
  {candidate | ∃ known ∈ set.identities, known.name = identity ∧ candidate.2 ∈ known.policies ∧
    ∃ policy ∈ set.policies, policy.name = candidate.2 ∧ candidate.1 ∈ policy.rules ∧
      candidate.1.pattern.matchesPath path = true}

/-- The rules of maximal specificity among those that apply. -/
def MostSpecific (set : PolicySet) (identity : String) (path : SecretPath u) : Set Candidate :=
  Selection.top Candidate.specificity (set.Applicable identity path)

end PolicySet

/-- The decision that a set of applicable rules stands for. -/
inductive Meaning (known : Prop) (applicable : Set Candidate) (capability : Capability) :
    Decision → Prop
  | unknownIdentity (h : ¬ known) : Meaning known applicable capability (.deny .unknownIdentity none)
  | noMatchingRule (hknown : known) (h : ∀ candidate, candidate ∉ applicable) :
      Meaning known applicable capability (.deny .noMatchingRule none)
  | allow (hknown : known) {candidate : Candidate}
      (hall : ∀ other ∈ Selection.top Candidate.specificity applicable,
        other.grants capability = true)
      (hleast : Selection.IsLeast Candidate.key
        (Selection.top Candidate.specificity applicable) candidate) :
      Meaning known applicable capability (.allow candidate.describe)
  | notGranted (hknown : known) {candidate : Candidate}
      (hnone : ∀ other ∈ Selection.top Candidate.specificity applicable,
        other.grants capability = false)
      (hleast : Selection.IsLeast Candidate.key
        {other | other ∈ Selection.top Candidate.specificity applicable ∧
          other.grants capability = false} candidate) :
      Meaning known applicable capability (.deny .notGranted (some candidate.describe))
  | tie (hknown : known) {candidate : Candidate}
      (hsome : ∃ other ∈ Selection.top Candidate.specificity applicable,
        other.grants capability = true)
      (hleast : Selection.IsLeast Candidate.key
        {other | other ∈ Selection.top Candidate.specificity applicable ∧
          other.grants capability = false} candidate) :
      Meaning known applicable capability (.deny .tie (some candidate.describe))

theorem Meaning.isAllowed_iff {known : Prop} {applicable : Set Candidate}
    {capability : Capability} {decision : Decision}
    (h : Meaning known applicable capability decision) :
    decision.isAllowed = true ↔ known ∧ applicable.Nonempty ∧
      ∀ candidate ∈ Selection.top Candidate.specificity applicable,
        candidate.grants capability = true := by
  cases h with
  | unknownIdentity h => simp [Decision.isAllowed, Decision.deny, h]
  | noMatchingRule hknown h => simp [Decision.isAllowed, Decision.deny, Set.Nonempty, h]
  | allow hknown hall hleast =>
      refine ⟨fun _ => ⟨hknown, ⟨_, hleast.1.1⟩, hall⟩, fun _ => rfl⟩
  | notGranted hknown _ hleast | tie hknown _ hleast =>
      refine ⟨fun h => by simp [Decision.isAllowed, Decision.deny] at h, ?_⟩
      rintro ⟨-, -, hall⟩
      have hgrants := hall _ hleast.1.1
      rw [hleast.1.2] at hgrants
      cases hgrants

/-- A set of applicable rules stands for one decision. -/
theorem Meaning.unique {known : Prop} {applicable : Set Candidate} {capability : Capability}
    {left right : Decision} (hl : Meaning known applicable capability left)
    (hr : Meaning known applicable capability right) : left = right := by
  cases hl with
  | unknownIdentity hl =>
      cases hr with
      | unknownIdentity _ => rfl
      | noMatchingRule hknown _ => exact absurd hknown hl
      | allow hknown _ _ => exact absurd hknown hl
      | notGranted hknown _ _ => exact absurd hknown hl
      | tie hknown _ _ => exact absurd hknown hl
  | noMatchingRule hknown hl =>
      cases hr with
      | unknownIdentity hr => exact absurd hknown hr
      | noMatchingRule _ _ => rfl
      | allow _ _ hleast => exact absurd hleast.1.1 (hl _)
      | notGranted _ _ hleast => exact absurd hleast.1.1.1 (hl _)
      | tie _ _ hleast => exact absurd hleast.1.1.1 (hl _)
  | allow hknown hall hleast =>
      cases hr with
      | unknownIdentity hr => exact absurd hknown hr
      | noMatchingRule _ hr => exact absurd hleast.1.1 (hr _)
      | allow _ _ hleast' => rw [Candidate.describe_eq_of_key_eq (hleast.key_eq hleast')]
      | notGranted _ _ hleast' =>
          have hgrants := hall _ hleast'.1.1
          rw [hleast'.1.2] at hgrants
          cases hgrants
      | tie _ _ hleast' =>
          have hgrants := hall _ hleast'.1.1
          rw [hleast'.1.2] at hgrants
          cases hgrants
  | notGranted hknown hnone hleast =>
      cases hr with
      | unknownIdentity hr => exact absurd hknown hr
      | noMatchingRule _ hr => exact absurd hleast.1.1.1 (hr _)
      | allow _ hall _ =>
          have hgrants := hall _ hleast.1.1
          rw [hleast.1.2] at hgrants
          cases hgrants
      | notGranted _ _ hleast' => rw [Candidate.describe_eq_of_key_eq (hleast.key_eq hleast')]
      | tie _ hsome _ =>
          obtain ⟨other, hother, hgrants⟩ := hsome
          rw [hnone other hother] at hgrants
          cases hgrants
  | tie hknown hsome hleast =>
      cases hr with
      | unknownIdentity hr => exact absurd hknown hr
      | noMatchingRule _ hr => exact absurd hleast.1.1.1 (hr _)
      | allow _ hall _ =>
          have hgrants := hall _ hleast.1.1
          rw [hleast.1.2] at hgrants
          cases hgrants
      | notGranted _ hnone _ =>
          obtain ⟨other, hother, hgrants⟩ := hsome
          rw [hnone other hother] at hgrants
          cases hgrants
      | tie _ _ hleast' => rw [Candidate.describe_eq_of_key_eq (hleast.key_eq hleast')]

namespace PolicySet

variable {u : Unicode}

theorem mem_matching (set : PolicySet) (identity : Identity) (path : SecretPath u)
    (candidate : Candidate) :
    candidate ∈ set.matching identity path ↔ candidate.2 ∈ identity.policies ∧
      ∃ policy ∈ set.policies, policy.name = candidate.2 ∧ candidate.1 ∈ policy.rules ∧
        candidate.1.pattern.matchesPath path = true := by
  unfold matching
  rw [List.mem_flatMap]
  constructor
  · rintro ⟨name, hname, hmem⟩
    cases hpolicy : set.policy name with
    | none => simp [hpolicy] at hmem
    | some policy =>
        obtain ⟨hin, rfl⟩ := set.policy_eq_some_iff.mp hpolicy
        simp only [hpolicy, List.mem_map, List.mem_filter] at hmem
        obtain ⟨rule, ⟨hrule, hmatch⟩, rfl⟩ := hmem
        exact ⟨hname, policy, hin, rfl, hrule, hmatch⟩
  · rintro ⟨hname, policy, hin, hpname, hrule, hmatch⟩
    refine ⟨candidate.2, hname, ?_⟩
    rw [set.policy_eq_some_iff.mpr ⟨hin, hpname⟩]
    simp only [List.mem_map, List.mem_filter]
    exact ⟨candidate.1, ⟨hrule, hmatch⟩, by rw [hpname]⟩

theorem applicable_eq (set : PolicySet) {identity : Identity} {name : String}
    (hidentity : set.identity name = some identity) (path : SecretPath u) :
    set.Applicable name path = {candidate | candidate ∈ set.matching identity path} := by
  obtain ⟨hmem, hname⟩ := set.identity_eq_some_iff.mp hidentity
  ext candidate
  rw [Set.mem_ofPred_eq, mem_matching]
  constructor
  · rintro ⟨known, hknown, hkname, hrest⟩
    have hsame := set.identity_eq_some_iff.mpr ⟨hknown, hkname⟩
    rw [hidentity, Option.some.injEq] at hsame
    exact hsame ▸ hrest
  · intro hrest
    exact ⟨identity, hmem, hname, hrest⟩

theorem winners_sorted (candidates : List Candidate) :
    (winners candidates).Pairwise fun left right => left.key ≤ right.key := by
  have htotal : Std.Total fun left right : Candidate => (Candidate.order left right).isLE = true :=
    ⟨fun a b => by simpa only [Candidate.order_isLE_iff] using le_total a.key b.key⟩
  have htrans : IsTrans Candidate fun left right => (Candidate.order left right).isLE = true :=
    ⟨fun a b c => by simpa only [Candidate.order_isLE_iff] using le_trans⟩
  exact (List.pairwise_insertionSort _ _).imp fun h => (Candidate.order_isLE_iff _ _).mp h

theorem isLeast_head_winners {candidates : List Candidate} (h : candidates ≠ []) :
    Selection.IsLeast Candidate.key
      (Selection.top Candidate.specificity {candidate | candidate ∈ candidates})
      ((winners candidates).head (winners_ne_nil h)) := by
  have hleast := Selection.isLeast_head (winners_sorted candidates) (winners_ne_nil h)
  simpa only [Selection.IsLeast, Set.mem_ofPred_eq, mem_winners] using hleast

theorem isLeast_refusing {candidates : List Candidate} {capability : Capability}
    {candidate : Candidate}
    (hfind : (winners candidates).find? (fun other => !other.grants capability) = some candidate) :
    Selection.IsLeast Candidate.key
      {other | other ∈ Selection.top Candidate.specificity {c | c ∈ candidates} ∧
        other.grants capability = false} candidate := by
  have hleast := Selection.isLeast_of_find? (winners_sorted candidates) hfind
  simpa [Selection.IsLeast, mem_winners] using hleast

/-- The evaluator decides as the set of applicable rules says. -/
theorem evaluate_meaning (set : PolicySet) (identity : String) (path : SecretPath u)
    (capability : Capability) :
    Meaning (set.Knows identity) (set.Applicable identity path) capability
      (set.evaluate identity path capability) := by
  unfold evaluate
  cases hidentity : set.identity identity with
  | none =>
      refine .unknownIdentity ?_
      rintro ⟨known, hknown, hname⟩
      rw [set.identity_eq_some_iff.mpr ⟨hknown, hname⟩] at hidentity
      cases hidentity
  | some found =>
      have hknown : set.Knows identity := ⟨found, set.identity_eq_some_iff.mp hidentity⟩
      rw [applicable_eq set hidentity path]
      simp only
      split
      · rename_i hnil
        refine .noMatchingRule hknown ?_
        intro candidate hmem
        rw [hnil] at hmem
        cases hmem
      · rename_i hne
        split
        · rename_i hcount
          refine .allow hknown ?_ (isLeast_head_winners hne)
          intro other hother
          rw [← mem_winners] at hother
          exact List.length_filter_eq_length_iff.mp hcount other hother
        · rename_i hcount
          obtain ⟨refusing, hfind⟩ : ∃ refusing, (winners (set.matching found path)).find?
              (fun other => !other.grants capability) = some refusing := by
            rw [← Option.isSome_iff_exists, List.find?_isSome]
            by_contra hnone
            push Not at hnone
            refine hcount (List.length_filter_eq_length_iff.mpr ?_)
            intro other hother
            simpa using hnone other hother
          rw [hfind, Option.map_some]
          split
          · rename_i hzero
            refine .notGranted hknown ?_ (isLeast_refusing hfind)
            intro other hother
            rw [← mem_winners] at hother
            rw [List.length_eq_zero_iff, List.filter_eq_nil_iff] at hzero
            simpa using hzero other hother
          · rename_i hzero
            refine .tie hknown ?_ (isLeast_refusing hfind)
            obtain ⟨other, hother⟩ := List.exists_mem_of_ne_nil _
              (fun h => hzero (List.length_eq_zero_iff.mpr h))
            rw [List.mem_filter, mem_winners] at hother
            exact ⟨other, hother⟩

theorem evaluate_eq_iff_meaning (set : PolicySet) (identity : String) (path : SecretPath u)
    (capability : Capability) (decision : Decision) :
    set.evaluate identity path capability = decision ↔
      Meaning (set.Knows identity) (set.Applicable identity path) capability decision := by
  constructor
  · rintro rfl
    exact set.evaluate_meaning identity path capability
  · intro h
    exact (set.evaluate_meaning identity path capability).unique h

/-- What a decision is for and what it names, for every request: it allows exactly when the identity
is known, some rule applies and every most specific one grants the capability, and the decision as
a whole is the one the applicable rules stand for. -/
theorem evaluate_is_its_meaning (set : PolicySet) (identity : String) (path : SecretPath u)
    (capability : Capability) :
    ((set.evaluate identity path capability).isAllowed = true ↔
      set.Knows identity ∧ (set.Applicable identity path).Nonempty ∧
        ∀ candidate ∈ set.MostSpecific identity path, candidate.grants capability = true) ∧
    ∀ decision, set.evaluate identity path capability = decision ↔
      Meaning (set.Knows identity) (set.Applicable identity path) capability decision :=
  ⟨(set.evaluate_meaning identity path capability).isAllowed_iff,
    set.evaluate_eq_iff_meaning identity path capability⟩

end PolicySet

end Ciphr
