import Mathlib.Data.List.Basic
import Mathlib.Data.List.Perm.Basic

/-! Combining rules by their first objection. A rule either objects to a
request with an outcome or lets it pass. The rules are consulted in some order
and the first objection decides, so the laws below say which outcomes the
order can select and which facts no order can change. -/

set_option autoImplicit false

namespace Nexus.Lib.RuleCombining

universe u v

variable {Rule : Type u} {Outcome : Type v}

def firstObjection (objection : Rule → Option Outcome) (rules : List Rule) :
    Option Outcome :=
  rules.findSome? objection

variable {objection : Rule → Option Outcome} {rules : List Rule}

@[simp] theorem firstObjection_singleton (rule : Rule) :
    firstObjection objection [rule] = objection rule := by
  simp [firstObjection]

theorem unopposed_iff :
    firstObjection objection rules = none ↔ ∀ rule ∈ rules, objection rule = none :=
  List.findSome?_eq_none_iff

theorem objector {outcome : Outcome}
    (decided : firstObjection objection rules = some outcome) :
    ∃ rule ∈ rules, objection rule = some outcome :=
  List.exists_of_findSome?_eq_some decided

/-- Whether anybody objects does not depend on the order of consultation. -/
theorem unopposed_perm {order : List Rule} (permuted : order.Perm rules) :
    firstObjection objection order = none ↔ firstObjection objection rules = none := by
  simp only [unopposed_iff, permuted.mem_iff]

/-- Rules that let the request pass may be left out. -/
theorem firstObjection_filter (kept : Rule → Bool)
    (silent : ∀ rule ∈ rules, kept rule = false → objection rule = none) :
    firstObjection objection (rules.filter kept) = firstObjection objection rules := by
  induction rules with
  | nil => rfl
  | cons rule rules ih =>
      have later := ih fun other member => silent other (List.mem_cons_of_mem rule member)
      unfold firstObjection at later ⊢
      cases chosen : kept rule with
      | true => rw [List.filter_cons_of_pos chosen, List.findSome?_cons, List.findSome?_cons, later]
      | false =>
          rw [List.filter_cons_of_neg (by simp [chosen]), List.findSome?_cons,
            silent rule List.mem_cons_self chosen, later]

/-- Consulting an objecting rule first makes its objection the outcome. -/
theorem attainable {rule : Rule} (member : rule ∈ rules) {outcome : Outcome}
    (objects : objection rule = some outcome) :
    ∃ order : List Rule, order.Perm rules ∧
      firstObjection objection order = some outcome := by
  obtain ⟨front, back, rfl⟩ := List.append_of_mem member
  refine ⟨rule :: (front ++ back), List.perm_middle.symm, ?_⟩
  simp [firstObjection, objects]

/-- A statement about the outcome holds for every order exactly when it holds
of each single objection, and of silence when nobody objects. -/
theorem forall_orders_iff (objection : Rule → Option Outcome) (rules : List Rule)
    (statement : Option Outcome → Prop) :
    (∀ order : List Rule, order.Perm rules →
        statement (firstObjection objection order)) ↔
      ((∀ rule ∈ rules, objection rule = none) → statement none) ∧
        ∀ rule ∈ rules, ∀ outcome, objection rule = some outcome →
          statement (some outcome) := by
  constructor
  · intro everyOrder
    refine ⟨?_, ?_⟩
    · intro silent
      have whole := everyOrder rules (.refl _)
      rwa [unopposed_iff.mpr silent] at whole
    · intro rule member outcome objects
      obtain ⟨order, permuted, decided⟩ := attainable member objects
      have chosen := everyOrder order permuted
      rwa [decided] at chosen
  · intro answers order permuted
    obtain ⟨silence, single⟩ := answers
    cases decided : firstObjection objection order with
    | none =>
        exact silence (unopposed_iff.mp ((unopposed_perm permuted).mp decided))
    | some outcome =>
        obtain ⟨rule, member, objects⟩ := objector decided
        exact single rule (permuted.mem_iff.mp member) outcome objects

/-- Fewer rules that object to less leave an unopposed request unopposed. -/
theorem unopposed_mono {fewer : List Rule} {weaker : Rule → Option Outcome}
    (subset : fewer ⊆ rules)
    (relaxed : ∀ rule ∈ fewer, objection rule = none → weaker rule = none)
    (unopposed : firstObjection objection rules = none) :
    firstObjection weaker fewer = none := by
  rw [unopposed_iff] at unopposed ⊢
  intro rule member
  exact relaxed rule member (unopposed rule (subset member))

end Nexus.Lib.RuleCombining
