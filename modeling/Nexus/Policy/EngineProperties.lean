import Nexus.Policy.Engine
import Nexus.Lib.RuleCombining

/-! Laws of `Evaluate` for every stored policy set, every request and every
order of iteration. The engine consults the matching policies one after the
other and answers with the first objection, so the laws are instances of rule
combining by first objection. -/

set_option autoImplicit false
set_option linter.dupNamespace false

namespace Nexus.Policy

open Nexus.Lib RuleCombining

/-- The same request by somebody in another role. -/
def Request.as (req : Request) (role : Users.Role) : Request := { req with role := role }

/-! ## The evaluation as rule combining -/

def Engine.matching (e : Engine) (req : Request) : List Policy :=
  e.policies.values.filter (·.applies req)

theorem Engine.mem_matching {e : Engine} {req : Request} {p : Policy} :
    p ∈ e.matching req ↔ p ∈ e.policies.values ∧ p.applies req = true :=
  List.mem_filter

theorem applies_iff {p : Policy} {req : Request} :
    p.applies req = true ↔ p.enabled = true ∧ (p.role = req.role ∨ p.role = "*") ∧
      (p.application = "*" ∨ p.application = req.application) := by
  unfold Policy.applies
  cases p.enabled <;> simp

theorem applies_congr {req other : Request} (sameRole : other.role = req.role)
    (sameApplication : other.application = req.application) (p : Policy) :
    p.applies other = p.applies req := by
  simp only [Policy.applies, sameRole, sameApplication]

theorem evaluateMatching_eq (req : Request) (rules : List Policy) :
    evaluateMatching req rules =
      (firstObjection (·.objection req) rules).getD granted := by
  induction rules with
  | nil => rfl
  | cons p rest ih =>
      unfold evaluateMatching firstObjection
      rw [List.findSome?_cons]
      cases p.objection req with
      | none => simpa only [firstObjection] using ih
      | some result => rfl

theorem Engine.order_matching {e : Engine} (order : e.policies.Order) (req : Request) :
    (order.values.filter (·.applies req)).Perm (e.matching req) :=
  order.perm.filter _

theorem Engine.evaluate_unmatched {e : Engine} {req : Request}
    (unmatched : e.matching req = []) (order : e.policies.Order) :
    e.evaluate order req = noPolicy req := by
  have permuted := e.order_matching order req
  rw [unmatched] at permuted
  simp only [Engine.evaluate, permuted.eq_nil]

theorem Engine.evaluate_matched {e : Engine} {req : Request}
    (matched : e.matching req ≠ []) (order : e.policies.Order) :
    e.evaluate order req = (firstObjection (·.objection req)
      (order.values.filter (·.applies req))).getD granted := by
  have permuted := e.order_matching order req
  rw [← evaluateMatching_eq]
  unfold Engine.evaluate
  cases consulted : order.values.filter (·.applies req) with
  | nil =>
      rw [consulted] at permuted
      exact absurd permuted.nil_eq.symm matched
  | cons p rest => rfl

/-! ## Objections -/

def Policy.denies (p : Policy) (req : Request) : Bool :=
  p.exceedsRisk req || p.distrustsDevice req || p.decision == decisionDeny

/-- The policy has no complaint about risk or device, but the request still
owes it an MFA verification. -/
def Policy.settlesForMFA (p : Policy) (req : Request) : Bool :=
  !p.exceedsRisk req && !p.distrustsDevice req && p.wantsMFA req

theorem objection_cases {p : Policy} {req : Request} {result : Result}
    (objects : p.objection req = some result) :
    result.policyID = p.id ∧
      ((result.decision = decisionRequireMFA ∧ p.settlesForMFA req = true) ∨
        (result.decision = decisionDeny ∧ p.denies req = true ∧
          p.settlesForMFA req = false)) := by
  unfold Policy.objection at objects
  unfold Policy.settlesForMFA Policy.denies
  cases risky : p.exceedsRisk req with
  | true =>
      rw [if_pos risky] at objects
      cases objects
      simp
  | false =>
      rw [if_neg (by simp [risky])] at objects
      cases distrusted : p.distrustsDevice req with
      | true =>
          rw [if_pos distrusted] at objects
          cases objects
          simp
      | false =>
          rw [if_neg (by simp [distrusted])] at objects
          cases owes : p.wantsMFA req with
          | true =>
              rw [if_pos owes] at objects
              cases objects
              simp
          | false =>
              rw [if_neg (by simp [owes])] at objects
              split at objects
              · rename_i explicitDeny
                cases objects
                simp [explicitDeny]
              · cases objects

theorem objection_policyID {p : Policy} {req : Request} {result : Result}
    (objects : p.objection req = some result) : result.policyID = p.id :=
  (objection_cases objects).1

theorem objection_ne_allow {p : Policy} {req : Request} {result : Result}
    (objects : p.objection req = some result) : result.decision ≠ decisionAllow := by
  rcases (objection_cases objects).2 with ⟨decided, _⟩ | ⟨decided, _⟩ <;>
    rw [decided] <;> decide

theorem objection_eq_none_iff {p : Policy} {req : Request} :
    p.objection req = none ↔ p.exceedsRisk req = false ∧
      p.distrustsDevice req = false ∧ p.wantsMFA req = false ∧
      p.decision ≠ decisionDeny := by
  unfold Policy.objection
  cases p.exceedsRisk req <;> cases p.distrustsDevice req <;>
    cases p.wantsMFA req <;> simp

/-- A policy is silent when it neither denies nor waits for MFA. -/
theorem objection_eq_none_iff_not_denies {p : Policy} {req : Request} :
    p.objection req = none ↔ p.denies req = false ∧ p.wantsMFA req = false := by
  rw [objection_eq_none_iff]
  simp only [Policy.denies, Bool.or_eq_false_iff, beq_eq_false_iff_ne, ne_eq]
  tauto

/-- What the orders of iteration can make of a matched request: a statement
holds of every answer exactly when it holds of each single objection, and of
the grant when nobody objects. -/
theorem Engine.forall_answers_iff {e : Engine} {req : Request}
    (matched : e.matching req ≠ []) (statement : Result → Prop) :
    (∀ order : e.policies.Order, statement (e.evaluate order req)) ↔
      ((∀ p ∈ e.matching req, p.objection req = none) → statement granted) ∧
        ∀ p ∈ e.matching req, ∀ result, p.objection req = some result →
          statement result := by
  have selections := GoMap.Order.forall_filter_iff e.policies (·.applies req)
    (fun consulted => statement
      ((firstObjection (·.objection req) consulted).getD granted))
  have outcomes := forall_orders_iff (·.objection req) (e.matching req)
    (fun outcome => statement (outcome.getD granted))
  simp only [Engine.evaluate_matched matched]
  exact selections.trans outcomes

/-- Allowing is unanimity: some policy matches and none of them objects. -/
theorem Engine.evaluate_allow_iff {e : Engine} (order : e.policies.Order) (req : Request) :
    (e.evaluate order req).decision = decisionAllow ↔
      e.matching req ≠ [] ∧ ∀ p ∈ e.matching req, p.objection req = none := by
  by_cases matched : e.matching req = []
  · rw [Engine.evaluate_unmatched matched order]
    constructor
    · intro allowed
      exact absurd allowed (by simp [noPolicy, decisionDeny, decisionAllow])
    · intro unanimous
      have someMatch := unanimous.1
      exact absurd matched someMatch
  · rw [Engine.evaluate_matched matched order, ← unopposed_iff,
      ← unopposed_perm (e.order_matching order req)]
    cases decided : firstObjection (·.objection req)
        (order.values.filter (·.applies req)) with
    | none => simp [granted, matched]
    | some result =>
        obtain ⟨p, _, objects⟩ := objector decided
        simpa using objection_ne_allow objects

theorem objection_of_settlesForMFA {p : Policy} {req : Request}
    (settles : p.settlesForMFA req = true) :
    ∃ result, p.objection req = some result ∧ result.decision = decisionRequireMFA := by
  simp only [Policy.settlesForMFA, Bool.and_eq_true, Bool.not_eq_true'] at settles
  obtain ⟨⟨safe, trusted⟩, owes⟩ := settles
  exact ⟨_, by simp only [Policy.objection, safe, trusted, owes]; rfl, rfl⟩

theorem objection_of_denies {p : Policy} {req : Request} (denied : p.denies req = true) :
    p.objection req ≠ none := by
  intro silent
  obtain ⟨safe, trusted, _, notDeny⟩ := objection_eq_none_iff.mp silent
  simp [Policy.denies, safe, trusted, notDeny] at denied

/-! ## Deny-overrides -/

/-- The decision that the comment on `Evaluate` prescribes. -/
def Engine.documentedDecision (e : Engine) (req : Request) : Decision :=
  if e.matching req = [] ∨ ∃ p ∈ e.matching req, p.denies req = true then decisionDeny
  else if ∃ p ∈ e.matching req, p.wantsMFA req = true then decisionRequireMFA
  else decisionAllow

theorem documentedDecision_of_denies {e : Engine} {req : Request}
    (denied : ∃ p ∈ e.matching req, p.denies req = true) :
    e.documentedDecision req = decisionDeny :=
  if_pos (.inr denied)

theorem documentedDecision_of_undenied {e : Engine} {req : Request}
    (matched : e.matching req ≠ [])
    (undenied : ¬ ∃ p ∈ e.matching req, p.denies req = true) :
    e.documentedDecision req =
      if ∃ p ∈ e.matching req, p.wantsMFA req = true then decisionRequireMFA
      else decisionAllow :=
  if_neg (by rintro (none | some) <;> contradiction)

private theorem settlesForMFA_of_undenied {p : Policy} {req : Request}
    (undenied : p.denies req = false) : p.settlesForMFA req = p.wantsMFA req := by
  simp only [Policy.denies, Bool.or_eq_false_iff] at undenied
  obtain ⟨⟨safe, trusted⟩, _⟩ := undenied
  simp [Policy.settlesForMFA, safe, trusted]

/-- The engine gives the documented decision under every order of iteration
exactly when the matching policies do not mix: none of them still wants MFA
from a request that one of them denies. A policy that wants MFA and is itself
an explicit DENY rule is such a mixture. -/
theorem evaluate_documented_iff (e : Engine) (req : Request) :
    (∀ order : e.policies.Order,
        (e.evaluate order req).decision = e.documentedDecision req) ↔
      ¬ ((∃ p ∈ e.matching req, p.settlesForMFA req = true) ∧
        ∃ p ∈ e.matching req, p.denies req = true) := by
  by_cases matched : e.matching req = []
  · simp only [Engine.evaluate_unmatched matched, matched, Engine.documentedDecision]
    simp [noPolicy]
  · refine (Engine.forall_answers_iff matched fun result =>
      result.decision = e.documentedDecision req).trans ?_
    constructor
    · intro answers mixed
      have single := answers.2
      obtain ⟨⟨p, member, settles⟩, denied⟩ := mixed
      obtain ⟨result, objects, decided⟩ := objection_of_settlesForMFA settles
      have documented := single p member result objects
      rw [documentedDecision_of_denies denied] at documented
      exact absurd (decided.symm.trans documented) (by decide)
    · intro unmixed
      by_cases denied : ∃ p ∈ e.matching req, p.denies req = true
      · rw [documentedDecision_of_denies denied]
        refine ⟨?_, ?_⟩
        · intro silent
          obtain ⟨p, member, denies⟩ := denied
          exact absurd (silent p member) (objection_of_denies denies)
        · intro p member result objects
          rcases (objection_cases objects).2 with ⟨_, settles⟩ | ⟨decided, _⟩
          · exact absurd ⟨⟨p, member, settles⟩, denied⟩ unmixed
          · exact decided
      · rw [documentedDecision_of_undenied matched denied]
        have undenied : ∀ p ∈ e.matching req, p.denies req = false := by
          intro p member
          by_contra denies
          exact denied ⟨p, member, by simpa using denies⟩
        refine ⟨?_, ?_⟩
        · intro silent
          rw [if_neg]
          · rfl
          · intro wanting
            obtain ⟨p, member, owes⟩ := wanting
            have quiet := (objection_eq_none_iff.mp (silent p member)).2.2.1
            exact absurd owes (by simp [quiet])
        · intro p member result objects
          rcases (objection_cases objects).2 with ⟨decided, settles⟩ | ⟨_, denies, _⟩
          · rw [if_pos ⟨p, member, settlesForMFA_of_undenied (undenied p member) ▸ settles⟩]
            exact decided
          · exact absurd denies (by simp [undenied p member])

/-- Two rules for one application: the first asks developers for MFA, the
second shuts them out. -/
def conflictingEngine : Engine where
  policies := ((∅ : GoMap String Policy).insert "lockdown"
    { id := "lockdown", name := "Freeze", role := "developer", application := "aws-console"
      requireMFA := false, requireTrusted := false, maxRiskScore := 0
      decision := decisionDeny, enabled := true }).insert "console"
    { id := "console", name := "Console", role := "developer", application := "aws-console"
      requireMFA := true, requireTrusted := false, maxRiskScore := 0
      decision := decisionAllow, enabled := true }

def developerRequest : Request where
  role := "developer"
  application := "aws-console"

theorem evaluate_undocumented :
    ¬ ∀ order : conflictingEngine.policies.Order,
      (conflictingEngine.evaluate order developerRequest).decision =
        conflictingEngine.documentedDecision developerRequest := by
  intro everyOrder
  have stored := everyOrder (GoMap.Order.stored _)
  exact absurd stored (by decide)

/-! ## Compositionality and monotonicity -/

/-- An engine that stores nothing but the given policy. -/
def Engine.alone (p : Policy) : Engine where
  policies := AList.singleton p.id p

theorem Engine.matching_alone {p : Policy} {req : Request} (applies : p.applies req = true) :
    (Engine.alone p).matching req = [p] := by
  simp [Engine.matching, Engine.alone, applies]

theorem Engine.evaluate_alone {p : Policy} {req : Request} (applies : p.applies req = true)
    (order : (Engine.alone p).policies.Order) :
    (Engine.alone p).evaluate order req = (p.objection req).getD granted := by
  have matched := Engine.matching_alone applies
  have consulted := (Engine.alone p).order_matching order req
  rw [matched, List.perm_singleton] at consulted
  rw [Engine.evaluate_matched (by simp [matched]) order, consulted,
    firstObjection_singleton]

/-- Evaluation is composed of the evaluations of single policies: a matched
request is allowed exactly when every matching policy stored alone allows it,
a refusal is word for word the refusal of one matching policy stored alone,
and being allowed does not depend on the order of iteration. -/
theorem evaluate_compositional (e : Engine) (req : Request)
    (matched : ∃ p ∈ e.policies.values, p.applies req = true)
    (order : e.policies.Order) :
    ((e.evaluate order req).decision = decisionAllow ↔
        ∀ p ∈ e.policies.values, p.applies req = true →
          ∀ alone : (Engine.alone p).policies.Order,
            ((Engine.alone p).evaluate alone req).decision = decisionAllow) ∧
      ((e.evaluate order req).decision ≠ decisionAllow →
        ∃ p ∈ e.policies.values, p.applies req = true ∧
          (e.evaluate order req).policyID = p.id ∧
          ∀ alone : (Engine.alone p).policies.Order,
            (Engine.alone p).evaluate alone req = e.evaluate order req) ∧
      ∀ other : e.policies.Order,
        (e.evaluate order req).decision = decisionAllow ↔
          (e.evaluate other req).decision = decisionAllow := by
  have nonempty : e.matching req ≠ [] := by
    obtain ⟨p, stored, applies⟩ := matched
    exact List.ne_nil_of_mem (Engine.mem_matching.mpr ⟨stored, applies⟩)
  refine ⟨?_, ?_, ?_⟩
  · rw [Engine.evaluate_allow_iff]
    constructor
    · intro unanimous p stored applies alone
      have silent := unanimous.2
      rw [Engine.evaluate_alone applies, silent p (Engine.mem_matching.mpr ⟨stored, applies⟩)]
      rfl
    · intro eachAllows
      refine ⟨nonempty, ?_⟩
      intro p member
      obtain ⟨stored, applies⟩ := Engine.mem_matching.mp member
      have allowed := eachAllows p stored applies (GoMap.Order.stored _)
      rw [Engine.evaluate_alone applies] at allowed
      cases objects : p.objection req with
      | none => rfl
      | some result =>
          rw [objects] at allowed
          exact absurd allowed (objection_ne_allow objects)
  · intro refused
    rw [Engine.evaluate_matched nonempty order] at refused ⊢
    cases decided : firstObjection (·.objection req)
        (order.values.filter (·.applies req)) with
    | none =>
        rw [decided] at refused
        exact absurd rfl refused
    | some result =>
        obtain ⟨p, consulted, objects⟩ := objector decided
        obtain ⟨listed, applies⟩ := List.mem_filter.mp consulted
        refine ⟨p, order.mem_values.mp listed, applies, objection_policyID objects, ?_⟩
        intro alone
        rw [Engine.evaluate_alone applies, objects]
  · intro other
    rw [Engine.evaluate_allow_iff, Engine.evaluate_allow_iff]

theorem evaluate_compositional_conflict :
    (∃ p ∈ conflictingEngine.policies.values, p.applies developerRequest = true) ∧
      ∃ p ∈ conflictingEngine.policies.values, p.applies developerRequest = true ∧
        (conflictingEngine.evaluate (.stored _) developerRequest).policyID = p.id ∧
        ∀ alone : (Engine.alone p).policies.Order,
          (Engine.alone p).evaluate alone developerRequest =
            conflictingEngine.evaluate (.stored _) developerRequest :=
  ⟨by decide, (evaluate_compositional conflictingEngine developerRequest (by decide)
    (.stored _)).2.1 (by decide)⟩

/-- The same subject asking for the same application in a context that is no
riskier. -/
structure NoRiskier (safer req : Request) : Prop where
  role : safer.role = req.role
  application : safer.application = req.application
  riskScore : safer.riskScore ≤ req.riskScore
  deviceTrusted : req.deviceTrusted = true → safer.deviceTrusted = true
  mfaVerified : req.mfaVerified = true → safer.mfaVerified = true

theorem NoRiskier.objection {safer req : Request} (noRiskier : NoRiskier safer req)
    {p : Policy} (silent : p.objection req = none) : p.objection safer = none := by
  rw [objection_eq_none_iff] at silent ⊢
  obtain ⟨safe, trusted, verified, notDeny⟩ := silent
  refine ⟨?_, ?_, ?_, notDeny⟩
  · have bounded := noRiskier.riskScore
    simp only [Policy.exceedsRisk, Bool.and_eq_false_iff, decide_eq_false_iff_not] at safe ⊢
    omega
  · simp only [Policy.distrustsDevice, Bool.and_eq_false_iff, Bool.not_eq_false'] at trusted ⊢
    exact trusted.imp_right noRiskier.deviceTrusted
  · simp only [Policy.wantsMFA, Bool.and_eq_false_iff, Bool.not_eq_false'] at verified ⊢
    exact verified.imp_right noRiskier.mfaVerified

theorem Engine.allow_mono {e fewer : Engine} {req safer : Request}
    (subset : fewer.policies.values ⊆ e.policies.values)
    (noRiskier : NoRiskier safer req) (stillMatched : fewer.matching safer ≠ [])
    (order : e.policies.Order) (allowed : (e.evaluate order req).decision = decisionAllow)
    (other : fewer.policies.Order) :
    (fewer.evaluate other safer).decision = decisionAllow := by
  rw [Engine.evaluate_allow_iff] at allowed ⊢
  have fewerRules : fewer.matching safer ⊆ e.matching req := by
    intro p member
    obtain ⟨stored, applies⟩ := Engine.mem_matching.mp member
    rw [applies_congr noRiskier.role noRiskier.application] at applies
    exact Engine.mem_matching.mpr ⟨subset stored, applies⟩
  have unopposed := unopposed_mono fewerRules (fun _ _ silent => noRiskier.objection silent)
    (unopposed_iff.mpr allowed.2)
  exact ⟨stillMatched, unopposed_iff.mp unopposed⟩

def Engine.deleteAll (e : Engine) : List String → Engine
  | [] => e
  | id :: ids => (e.deletePolicy id).1.deleteAll ids

theorem Engine.deletePolicy_subset (e : Engine) (id : String) :
    (e.deletePolicy id).1.policies.values ⊆ e.policies.values := by
  unfold Engine.deletePolicy
  cases e.policies.lookup id with
  | none => exact fun _ member => member
  | some p => exact GoMap.values_erase_subset e.policies id

theorem Engine.deleteAll_subset (e : Engine) (ids : List String) :
    (e.deleteAll ids).policies.values ⊆ e.policies.values := by
  induction ids generalizing e with
  | nil => exact fun _ member => member
  | cons id ids ih => exact List.Subset.trans (ih (e.deletePolicy id).1) (e.deletePolicy_subset id)

/-- Granting is monotone: removing policies and making the context safer never
turn an ALLOW into a refusal while some policy still matches, and creating a
policy never turns a refusal of an already matched request into an ALLOW. -/
theorem evaluate_monotone (e : Engine) (req : Request) :
    (∀ (ids : List String) (safer : Request), NoRiskier safer req →
        (∃ p ∈ (e.deleteAll ids).policies.values, p.applies req = true) →
        (∃ order : e.policies.Order, (e.evaluate order req).decision = decisionAllow) →
        ∀ other : (e.deleteAll ids).policies.Order,
          ((e.deleteAll ids).evaluate other safer).decision = decisionAllow) ∧
      ∀ (newID : String) (p : Policy), newID ∉ e.policies →
        (∃ p ∈ e.policies.values, p.applies req = true) →
        ∀ order : e.policies.Order, (e.evaluate order req).decision ≠ decisionAllow →
        ∀ other : (e.createPolicy newID p).1.policies.Order,
          ((e.createPolicy newID p).1.evaluate other req).decision ≠ decisionAllow := by
  refine ⟨?_, ?_⟩
  · intro ids safer noRiskier matched allowing other
    obtain ⟨p, stored, applies⟩ := matched
    obtain ⟨order, allowed⟩ := allowing
    refine Engine.allow_mono (e.deleteAll_subset ids) noRiskier ?_ order allowed other
    rw [← applies_congr noRiskier.role noRiskier.application] at applies
    exact List.ne_nil_of_mem (Engine.mem_matching.mpr ⟨stored, applies⟩)
  · intro newID created fresh matched order refused other allowed
    obtain ⟨p, stored, applies⟩ := matched
    have unchanged : NoRiskier req req := ⟨rfl, rfl, Int.le_refl _, id, id⟩
    have grown : e.policies.values ⊆ (e.createPolicy newID created).1.policies.values := by
      simp only [Engine.createPolicy, GoMap.values_insert_of_notMem _ fresh]
      exact List.subset_cons_self _ _
    exact refused (Engine.allow_mono grown unchanged
      (List.ne_nil_of_mem (Engine.mem_matching.mpr ⟨stored, applies⟩)) other allowed order)

def viewerRequest : Request where
  role := "viewer"
  application := "wiki"

theorem evaluate_monotone_defaults :
    (((newEngine "dev" "adm" "vwr").deleteAll ["dev"]).evaluate
        (.stored _) viewerRequest).decision = decisionAllow ∧
      (((newEngine "dev" "adm" "vwr").createPolicy "new"
          { name := "Audits", role := "*", application := "*", requireMFA := true
            requireTrusted := true, maxRiskScore := 1, decision := decisionAllow
            enabled := true }).1.evaluate (.stored _)
        { viewerRequest with role := "admin", riskScore := 60 }).decision ≠ decisionAllow :=
  ⟨(evaluate_monotone (newEngine "dev" "adm" "vwr") viewerRequest).1 ["dev"] viewerRequest
      ⟨rfl, rfl, Int.le_refl _, id, id⟩ (by decide) ⟨.stored _, by decide⟩ (.stored _),
    (evaluate_monotone (newEngine "dev" "adm" "vwr")
      { viewerRequest with role := "admin", riskScore := 60 }).2 "new" _ (by decide)
      (by decide) (.stored _) (by decide) (.stored _)⟩

end Nexus.Policy
