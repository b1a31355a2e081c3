import Nexus.Lib.Machine
import Nexus.Policy.EngineProperties
import Nexus.Rbac.Permissions

/-! Whether the role `user` is the alias of `viewer` that the role model
declares: in the policy engine, whatever policies are created and deleted, and
in the permission table. -/

set_option autoImplicit false
set_option linter.dupNamespace false

namespace Nexus.Policy

open Nexus.Lib Nexus.Users Nexus.Rbac RuleCombining

/-! ## Administration -/

inductive EngineCall where
  | createPolicy (newID : String) (p : Policy)
  | deletePolicy (id : String)

def EngineCall.names (call : EngineCall) (role : Role) : Prop :=
  match call with
  | .createPolicy _ p => p.role = role
  | .deletePolicy _ => False

def administration : Machine Engine EngineCall (Except String Unit) where
  step e
    | .createPolicy newID p => ((e.createPolicy newID p).1, .ok ())
    | .deletePolicy id => e.deletePolicy id

def Engine.Names (e : Engine) (role : Role) : Prop := ∃ p ∈ e.policies.values, p.role = role

theorem newEngine_not_names_user (first second third : String) :
    ¬ (newEngine first second third).Names roleUser := by
  rintro ⟨p, stored, role⟩
  simp only [newEngine, seedDefaults, List.foldl_cons, List.foldl_nil] at stored
  rcases GoMap.mem_values_insert stored with rfl | stored
  · exact absurd role (show roleViewer ≠ roleUser by decide)
  rcases GoMap.mem_values_insert stored with rfl | stored
  · exact absurd role (show roleAdmin ≠ roleUser by decide)
  rcases GoMap.mem_values_insert stored with rfl | stored
  · exact absurd role (show roleDeveloper ≠ roleUser by decide)
  · cases stored

theorem administration_not_names {e : Engine} {role : Role} (unnamed : ¬ e.Names role)
    {call : EngineCall} (other : ¬ call.names role) :
    ¬ (administration.step e call).1.Names role := by
  rintro ⟨p, stored, named⟩
  cases call with
  | createPolicy newID created =>
      rcases GoMap.mem_values_insert stored with rfl | before
      · exact other named
      · exact unnamed ⟨p, before, named⟩
  | deletePolicy id =>
      simp only [administration, Engine.deletePolicy] at stored
      split at stored
      · exact unnamed ⟨p, stored, named⟩
      · exact unnamed ⟨p, GoMap.values_erase_subset _ _ stored, named⟩

/-! ## Two requests that differ in their role -/

/-- The matching policies that name the role, not any role. -/
def Engine.ownRules (e : Engine) (req : Request) (role : Role) : List Policy :=
  (e.matching (req.as role)).filter fun p => decide (p.role = role)

section
variable {e : Engine} {req : Request}

theorem mem_ownRules {role : Role} {p : Policy} :
    p ∈ e.ownRules req role ↔ p ∈ e.matching (req.as role) ∧ p.role = role := by
  rw [Engine.ownRules, List.mem_filter, decide_eq_true_eq]

/-- A policy that applies to viewers applies to users unless it names viewers. -/
theorem applies_user_iff (unnamed : ¬ e.Names roleUser) {p : Policy}
    (stored : p ∈ e.policies.values) :
    p.applies (req.as roleUser) = true ↔
      p.applies (req.as roleViewer) = true ∧ p.role ≠ roleViewer := by
  have notUser : p.role ≠ roleUser := fun named => unnamed ⟨p, stored, named⟩
  have notAny : roleViewer ≠ "*" := by decide
  simp only [applies_iff, Request.as]
  constructor
  · rintro ⟨enabled, named | any, application⟩
    · exact absurd named notUser
    · exact ⟨⟨enabled, .inr any, application⟩, fun same => notAny (same.symm.trans any)⟩
  · rintro ⟨⟨enabled, named | any, application⟩, different⟩
    · exact absurd named different
    · exact ⟨enabled, .inr any, application⟩

theorem filter_user_eq (unnamed : ¬ e.Names roleUser) (order : e.policies.Order) :
    order.values.filter (·.applies (req.as roleUser)) =
      (order.values.filter (·.applies (req.as roleViewer))).filter
        fun p => decide (p.role ≠ roleViewer) := by
  rw [List.filter_filter]
  refine List.filter_congr fun p listed => ?_
  have same : p.applies (req.as roleUser) = true ↔
      p.applies (req.as roleViewer) = true ∧ p.role ≠ roleViewer :=
    applies_user_iff unnamed (order.mem_values.mp listed)
  rw [Bool.eq_iff_iff, same, Bool.and_eq_true, decide_eq_true_eq, and_comm]

/-- What a policy makes of a request on its own, if it does not let it pass. -/
def Policy.stance (p : Policy) (req : Request) : Option Decision :=
  if p.settlesForMFA req then some decisionRequireMFA
  else if p.denies req then some decisionDeny
  else none

theorem stance_eq (p : Policy) (req : Request) :
    p.stance req = (p.objection req).map Result.decision := by
  unfold Policy.stance
  cases objects : p.objection req with
  | none =>
      obtain ⟨undenied, content⟩ := objection_eq_none_iff_not_denies.mp objects
      simp [Policy.settlesForMFA, undenied, content]
  | some result =>
      rcases (objection_cases objects).2 with ⟨decided, settles⟩ | ⟨decided, denied, unsettled⟩
      · simp [settles, decided]
      · simp [unsettled, denied, decided]

theorem stance_cases {p : Policy} {decision : Decision} (decides : p.stance req = some decision) :
    decision = decisionRequireMFA ∨ decision = decisionDeny := by
  rw [stance_eq] at decides
  obtain ⟨result, objects, rfl⟩ := Option.map_eq_some_iff.mp decides
  rcases (objection_cases objects).2 with ⟨decided, _⟩ | ⟨decided, _⟩
  · exact .inl decided
  · exact .inr decided

theorem stance_eq_none_iff {p : Policy} : p.stance req = none ↔ p.objection req = none := by
  rw [stance_eq, Option.map_eq_none_iff]

theorem stance_ne_allow (p : Policy) : p.stance req ≠ some decisionAllow := by
  intro allowed
  rcases stance_cases allowed with waits | denies
  · exact absurd waits (by decide)
  · exact absurd denies (by decide)

/-- When the answer is the same decision under every order of iteration. -/
theorem forall_decisions_iff {role : Role} (matched : e.matching (req.as role) ≠ [])
    {decision : Decision} :
    (∀ order : e.policies.Order, (e.evaluate order (req.as role)).decision = decision) ↔
      ((∀ p ∈ e.matching (req.as role), p.stance req = none) → decision = decisionAllow) ∧
        ∀ p ∈ e.matching (req.as role), ∀ other, p.stance req = some other →
          other = decision := by
  refine (Engine.forall_answers_iff matched fun result => result.decision = decision).trans ?_
  refine and_congr (imp_congr ?_ eq_comm) (forall₂_congr fun p _ => ?_)
  · exact forall₂_congr fun p _ => stance_eq_none_iff.symm
  · simp only [stance_eq, Option.map_eq_some_iff]
    constructor
    · rintro decides other ⟨result, objects, rfl⟩
      exact decides result objects
    · exact fun decides result objects => decides _ ⟨result, objects, rfl⟩

theorem decision_of_unison {role : Role} {p : Policy} (applied : p ∈ e.matching (req.as role))
    {decision : Decision} (decides : p.stance req = some decision)
    (unison : ∀ q ∈ e.matching (req.as role), ∀ other, q.stance req = some other →
      other = decision) (order : e.policies.Order) :
    (e.evaluate order (req.as role)).decision = decision := by
  refine (forall_decisions_iff (List.ne_nil_of_mem applied)).mpr ⟨fun silent => ?_, unison⟩ order
  rw [silent p applied] at decides
  cases decides

/-- The policies for viewers make no difference: there are none, or they deny
what nobody else grants, or whatever any of them objects is all that the
policies for everyone object. -/
def Engine.AliasHarmless (e : Engine) (req : Request) : Prop :=
  let own := e.ownRules req roleViewer
  let shared := e.matching (req.as roleUser)
  own = [] ∨
    (shared = [] ∧ (∃ p ∈ own, p.stance req = some decisionDeny) ∧
      ∀ p ∈ own, p.stance req ≠ some decisionRequireMFA) ∨
    (shared ≠ [] ∧ ∀ p ∈ own, ∀ decision, p.stance req = some decision →
      (∃ q ∈ shared, q.stance req = some decision) ∧
        ∀ q ∈ shared, q.stance req = some decision ∨ q.stance req = none)

theorem mem_matching_viewer (unnamed : ¬ e.Names roleUser) {p : Policy} :
    p ∈ e.matching (req.as roleViewer) ↔
      p ∈ e.ownRules req roleViewer ∨ p ∈ e.matching (req.as roleUser) := by
  rw [mem_ownRules, Engine.mem_matching, Engine.mem_matching]
  by_cases own : p.role = roleViewer
  · constructor
    · exact fun applied => .inl ⟨applied, own⟩
    · rintro (⟨applied, _⟩ | ⟨stored, applied⟩)
      · exact applied
      · exact ⟨stored, ((applies_user_iff unnamed stored).mp applied).1⟩
  · constructor
    · rintro ⟨stored, applied⟩
      exact .inr ⟨stored, (applies_user_iff unnamed stored).mpr ⟨applied, own⟩⟩
    · rintro (⟨applied, _⟩ | ⟨stored, applied⟩)
      · exact applied
      · exact ⟨stored, ((applies_user_iff unnamed stored).mp applied).1⟩

/-- Where no policy for viewers has a stance, both roles get the first stance of
the policies for everyone. -/
theorem agree_of_silent (unnamed : ¬ e.Names roleUser)
    (shared : e.matching (req.as roleUser) ≠ [])
    (silent : ∀ p ∈ e.ownRules req roleViewer, p.stance req = none) (order : e.policies.Order) :
    (e.evaluate order (req.as roleUser)).decision =
      (e.evaluate order (req.as roleViewer)).decision := by
  have matched : e.matching (req.as roleViewer) ≠ [] := by
    obtain ⟨p, member⟩ := List.exists_mem_of_ne_nil _ shared
    exact List.ne_nil_of_mem ((mem_matching_viewer unnamed).mpr (.inr member))
  rw [Engine.evaluate_matched shared, Engine.evaluate_matched matched, filter_user_eq unnamed,
    firstObjection_filter]
  · rfl
  · intro p consulted dropped
    obtain ⟨listed, applied⟩ := List.mem_filter.mp consulted
    have own : p ∈ e.ownRules req roleViewer :=
      mem_ownRules.mpr ⟨Engine.mem_matching.mpr ⟨order.mem_values.mp listed, applied⟩,
        by simpa using dropped⟩
    exact stance_eq_none_iff.mp (silent p own)

/-- Asking a policy for viewers first settles the answer to a viewer, and leaves
the answer to a user as it was. -/
theorem exists_order_viewer_first (unnamed : ¬ e.Names roleUser) {p : Policy}
    (own : p ∈ e.ownRules req roleViewer) {decision : Decision}
    (decides : p.stance req = some decision) (order : e.policies.Order) :
    ∃ first : e.policies.Order,
      (e.evaluate first (req.as roleViewer)).decision = decision ∧
        e.evaluate first (req.as roleUser) = e.evaluate order (req.as roleUser) := by
  obtain ⟨applied, named⟩ := mem_ownRules.mp own
  obtain ⟨stored, applies⟩ := Engine.mem_matching.mp applied
  have unapplied : p.applies (req.as roleUser) = false := by
    by_contra applies
    exact ((applies_user_iff unnamed stored).mp (by simpa using applies)).2 named
  have listed : p ∈ order.values := order.mem_values.mpr stored
  refine ⟨⟨p :: order.values.erase p, (List.perm_cons_erase listed).symm.trans order.perm⟩,
    ?_, ?_⟩
  · rw [stance_eq] at decides
    obtain ⟨result, objects, rfl⟩ := Option.map_eq_some_iff.mp decides
    have front : (p :: order.values.erase p).filter (·.applies (req.as roleViewer)) =
        p :: (order.values.erase p).filter (·.applies (req.as roleViewer)) :=
      List.filter_cons_of_pos applies
    have objection : p.objection (req.as roleViewer) = some result := objects
    rw [Engine.evaluate_matched (List.ne_nil_of_mem applied), front, firstObjection,
      List.findSome?_cons, objection]
    rfl
  · have kept : (p :: order.values.erase p).filter (·.applies (req.as roleUser)) =
        order.values.filter (·.applies (req.as roleUser)) := by
      rw [List.filter_cons_of_neg (by simp [unapplied]), ← List.erase_filter]
      exact List.erase_of_not_mem fun member => by
        simp [unapplied] at member
    simp only [Engine.evaluate, kept]

/-- Where both roles always get the same decision, an objection of a policy for
viewers is the decision of users too. -/
theorem user_decision_of_agree (unnamed : ¬ e.Names roleUser)
    (agree : ∀ order : e.policies.Order, (e.evaluate order (req.as roleUser)).decision =
      (e.evaluate order (req.as roleViewer)).decision)
    {p : Policy} (own : p ∈ e.ownRules req roleViewer) {decision : Decision}
    (decides : p.stance req = some decision) (order : e.policies.Order) :
    (e.evaluate order (req.as roleUser)).decision = decision := by
  obtain ⟨first, viewer, user⟩ := exists_order_viewer_first unnamed own decides order
  rw [← user, agree first, viewer]

theorem unmatched_decision (unmatched : e.matching (req.as roleUser) = [])
    (order : e.policies.Order) :
    (e.evaluate order (req.as roleUser)).decision = decisionDeny := by
  rw [Engine.evaluate_unmatched unmatched]
  rfl

theorem aliasHarmless_of_agree (unnamed : ¬ e.Names roleUser)
    (agree : ∀ order : e.policies.Order, (e.evaluate order (req.as roleUser)).decision =
      (e.evaluate order (req.as roleViewer)).decision) : e.AliasHarmless req := by
  have settled {p : Policy} (own : p ∈ e.ownRules req roleViewer) {decision : Decision}
      (decides : p.stance req = some decision) (order : e.policies.Order) :=
    user_decision_of_agree unnamed agree own decides order
  by_cases owned : e.ownRules req roleViewer = []
  · exact .inl owned
  right
  by_cases shared : e.matching (req.as roleUser) = []
  · left
    have denied {p : Policy} (own : p ∈ e.ownRules req roleViewer) {decision : Decision}
        (decides : p.stance req = some decision) : decision = decisionDeny :=
      (settled own decides (.stored e.policies)).symm.trans (unmatched_decision shared _)
    refine ⟨shared, ?_, fun p own decides => absurd (denied own decides) (by decide)⟩
    by_contra! undenied
    obtain ⟨p, own⟩ := List.exists_mem_of_ne_nil _ owned
    have matched : e.matching (req.as roleViewer) ≠ [] :=
      List.ne_nil_of_mem (mem_ownRules.mp own).1
    have unanimous := ((forall_decisions_iff matched).mp fun order =>
      (agree order).symm.trans (unmatched_decision shared order)).1
    refine absurd (unanimous fun q applied => ?_) (by decide)
    have named : q ∈ e.ownRules req roleViewer := by
      simpa only [shared, List.not_mem_nil, or_false] using
        (mem_matching_viewer unnamed).mp applied
    cases decides : q.stance req with
    | none => rfl
    | some decision => exact absurd (denied named decides ▸ decides) (undenied q named)
  · right
    refine ⟨shared, fun p own decision decides => ?_⟩
    obtain ⟨unanimous, single⟩ := (forall_decisions_iff shared).mp (settled own decides)
    have agrees : ∀ q ∈ e.matching (req.as roleUser),
        q.stance req = some decision ∨ q.stance req = none := by
      intro q applied
      cases answer : q.stance req with
      | none => exact .inr rfl
      | some other => exact .inl (congrArg some (single q applied other answer))
    refine ⟨?_, agrees⟩
    by_contra! unsaid
    have allowed := unanimous fun q applied => (agrees q applied).resolve_left (unsaid q applied)
    exact stance_ne_allow p (allowed ▸ decides)

theorem agree_of_aliasHarmless (unnamed : ¬ e.Names roleUser) (harmless : e.AliasHarmless req)
    (order : e.policies.Order) :
    (e.evaluate order (req.as roleUser)).decision =
      (e.evaluate order (req.as roleViewer)).decision := by
  have divided {p : Policy} : p ∈ e.matching (req.as roleViewer) ↔
      p ∈ e.ownRules req roleViewer ∨ p ∈ e.matching (req.as roleUser) :=
    mem_matching_viewer unnamed
  rcases harmless with unowned | ⟨shared, ⟨p, own, denies⟩, unwaiting⟩ | ⟨shared, echoed⟩
  · by_cases shared : e.matching (req.as roleUser) = []
    · have unmatched : e.matching (req.as roleViewer) = [] := by
        refine List.eq_nil_iff_forall_not_mem.mpr fun p applied => ?_
        simpa [unowned, shared] using divided.mp applied
      rw [unmatched_decision shared, Engine.evaluate_unmatched unmatched]
      rfl
    · exact agree_of_silent unnamed shared (by simp [unowned]) order
  · rw [unmatched_decision shared]
    refine (decision_of_unison (divided.mpr (.inl own)) denies (fun q applied => ?_) order).symm
    have named : q ∈ e.ownRules req roleViewer := by
      simpa only [shared, List.not_mem_nil, or_false] using divided.mp applied
    intro decision decides
    rcases stance_cases decides with rfl | rfl
    · exact absurd decides (unwaiting q named)
    · rfl
  · by_cases silent : ∀ p ∈ e.ownRules req roleViewer, p.stance req = none
    · exact agree_of_silent unnamed shared silent order
    · push Not at silent
      obtain ⟨p, own, objects⟩ := silent
      obtain ⟨decision, decides⟩ := Option.ne_none_iff_exists'.mp objects
      obtain ⟨⟨echo, applied, echoes⟩, agrees⟩ := echoed p own decision decides
      have everyone : ∀ q ∈ e.matching (req.as roleUser), ∀ other, q.stance req = some other →
          other = decision := by
        intro q applied other answer
        rcases agrees q applied with same | silent
        · exact Option.some.inj (answer.symm.trans same)
        · rw [silent] at answer
          cases answer
      have both : ∀ q ∈ e.matching (req.as roleViewer), ∀ other, q.stance req = some other →
          other = decision := by
        intro q consulted other answer
        rcases divided.mp consulted with named | free
        · obtain ⟨⟨again, free, same⟩, _⟩ := echoed q named other answer
          exact everyone again free other same
        · exact everyone q free other answer
      rw [decision_of_unison applied echoes everyone order,
        decision_of_unison (divided.mpr (.inl own)) decides both order]

end

theorem hasPermission_alias (perm : Permission) :
    hasPermission roleUser perm = hasPermission roleViewer perm := rfl

/-- In every engine that administration reaches without naming users, the two
roles get the same decision under every order of iteration exactly if the
policies for viewers make no difference. The permission table always agrees. -/
theorem alias_agrees_iff (first second third : String) {calls : List EngineCall}
    (others : ∀ call ∈ calls, ¬ call.names roleUser) (req : Request) :
    let e := administration.run (newEngine first second third) calls
    ((∀ order : e.policies.Order, (e.evaluate order (req.as roleUser)).decision =
        (e.evaluate order (req.as roleViewer)).decision) ↔ e.AliasHarmless req) ∧
      ∀ perm, hasPermission roleUser perm = hasPermission roleViewer perm := by
  have maintained : ∀ (e : Engine) (call : EngineCall), ¬ call.names roleUser →
      ¬ e.Names roleUser → ¬ (administration.step e call).1.Names roleUser :=
    fun _ _ other kept => administration_not_names kept other
  have unnamed := Machine.run_invariant administration maintained
    (newEngine_not_names_user first second third) others
  refine ⟨⟨?_, ?_⟩, hasPermission_alias⟩
  · intro agree
    exact aliasHarmless_of_agree unnamed agree
  · intro harmless order
    exact agree_of_aliasHarmless unnamed harmless order

/-- A policy for everyone, beside which the one for viewers makes no difference. -/
def opened : Policy where
  id := ""
  name := "Wiki"
  role := "*"
  application := "*"
  requireMFA := true
  requireTrusted := false
  maxRiskScore := 0
  decision := decisionAllow
  enabled := true

theorem alias_agrees_with_shared_policy :
    let e := administration.run (newEngine "dev" "adm" "vwr") [.createPolicy "any" opened]
    e.matching (viewerRequest.as roleUser) ≠ [] ∧ e.ownRules viewerRequest roleViewer ≠ [] ∧
      (e.evaluate (.stored _) (viewerRequest.as roleUser)).decision =
        (e.evaluate (.stored _) (viewerRequest.as roleViewer)).decision := by
  refine ⟨by decide, by decide, ?_⟩
  have unnamed : ∀ call ∈ [EngineCall.createPolicy "any" opened], ¬ call.names roleUser := by
    simp only [List.forall_mem_cons]
    exact ⟨(by decide : "*" ≠ roleUser), List.forall_mem_nil _⟩
  refine (alias_agrees_iff "dev" "adm" "vwr" unnamed viewerRequest).1.mpr ?_ (.stored _)
  have silent : ∀ p ∈ (administration.run (newEngine "dev" "adm" "vwr")
      [.createPolicy "any" opened]).ownRules viewerRequest roleViewer,
      p.stance viewerRequest = none := by decide
  refine .inr (.inr ⟨by decide, ?_⟩)
  intro p own decision decides
  rw [silent p own] at decides
  cases decides

/-- The default policy for viewers already grants what a user is denied. -/
theorem alias_denied_by_default :
    ¬ ∀ calls : List EngineCall, (∀ call ∈ calls, ¬ call.names roleUser) →
      let e := administration.run (newEngine "dev" "adm" "vwr") calls
      ∀ (req : Request) (order : e.policies.Order),
        (e.evaluate order (req.as roleUser)).decision =
          (e.evaluate order (req.as roleViewer)).decision := by
  intro always
  exact absurd (always [] (by simp) viewerRequest (.stored _)) (by decide)

end Nexus.Policy
