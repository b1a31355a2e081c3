import Nexus.Lib.Ledger
import Nexus.Lib.Machine
import Nexus.Policy.Engine

/-! The policy engine over all of its operations: a map from IDs to policies, as its
answers tell it. Callers do not write to the policies they are handed. -/

set_option autoImplicit false
set_option linter.dupNamespace false

namespace Nexus.Policy

open Nexus.Lib Nexus.Go Nexus.Users

inductive Operation where
  | createPolicy (newID : String) (policy : Policy)
  | getPolicy (id : String)
  | updatePolicy (policy : Policy)
  | deletePolicy (id : String)
  | listPolicies (range : (policies : GoMap String Policy) → policies.Order)
  | evaluate (range : (policies : GoMap String Policy) → policies.Order) (req : Request)

inductive Answer where
  | created (policy : Policy)
  | found (result : Except String Policy)
  | deleted (result : Except String Unit)
  | listed (policies : List Policy)
  | decided (result : Result)

def engine : Machine Engine Operation Answer where
  step e
    | .createPolicy newID policy =>
        let (e, policy) := e.createPolicy newID policy
        (e, .created policy)
    | .getPolicy id => (e, .found (e.getPolicy id))
    | .updatePolicy policy =>
        let (e, result) := e.updatePolicy policy
        (e, .found result)
    | .deletePolicy id =>
        let (e, result) := e.deletePolicy id
        (e, .deleted result)
    | .listPolicies range => (e, .listed (e.listPolicies (range e.policies)))
    | .evaluate range req => (e, .decided (e.evaluate (range e.policies) req))

/-! ## The map -/

/-- The decision by these policies, in this order. -/
def judge (policies : List Policy) (req : Request) : Result :=
  match policies.filter (·.applies req) with
  | [] => noPolicy req
  | matching => evaluateMatching req matching

/-- The change that an answer reports. -/
def changed (t : Transition Engine Operation Answer) : Option (Update String Policy) :=
  match t.event, t.output with
  | .createPolicy _ _, .created policy => some (.put policy.id policy)
  | .updatePolicy _, .found (.ok policy) => some (.put policy.id policy)
  | .deletePolicy id, .deleted (.ok _) => some (.remove id)
  | _, _ => none

/-- The answer about an ID: what is known of it, or an error that names it. -/
def Resolves {α : Type} (known : String → Option Policy) (id : String)
    (found : Policy → α) (result : Except String α) : Prop :=
  result = match known id with
    | none => .error s!"policy not found: {id}"
    | some policy => .ok (found policy)

/-- The answers of a map. -/
def Answers (known : String → Option Policy) : Operation → Answer → Prop
  | .createPolicy newID policy, .created stored => stored = { policy with id := newID }
  | .getPolicy id, .found result => Resolves known id (fun stored => stored) result
  | .updatePolicy policy, .found result => Resolves known policy.id (fun _ => policy) result
  | .deletePolicy id, .deleted result => Resolves known id (fun _ => ()) result
  | .listPolicies _, .listed policies => Lists policies Policy.id known
  | .evaluate _ req, .decided result =>
      ∃ policies, Lists policies Policy.id known ∧ result = judge policies req
  | _, _ => False

/-- The policies after all that the answers reported. -/
def policiesAfter (start : Engine) (past : List (Transition Engine Operation Answer)) :
    String → Option Policy :=
  ledger (fun id => start.policies.lookup id) (past.filterMap changed)

/-! ## Its operations -/

/-- The engine holds what is known. -/
abbrev Holding (e : Engine) (known : String → Option Policy) : Prop :=
  Files e.policies Policy.id known

/-- A new engine files its policies under their IDs. -/
theorem newEngine_keyed (first second third : String) {id : String} {policy : Policy}
    (found : (newEngine first second third).policies.lookup id = some policy) :
    policy.id = id := by
  simp only [newEngine, seedDefaults, List.foldl_cons, List.foldl_nil,
    GoMap.lookup_insert_eq] at found
  split at found
  · rename_i same
    cases found
    exact same.symm
  · split at found
    · rename_i same
      cases found
      exact same.symm
    · split at found
      · rename_i same
        cases found
        exact same.symm
      · cases found

section
variable {e : Engine} {known : String → Option Policy}

theorem Holding.createPolicy (holding : Holding e known) (newID : String) (policy : Policy) :
    Holding (e.createPolicy newID policy).1
      ((Update.put newID { policy with id := newID }).apply known) :=
  Files.put holding rfl

theorem getPolicy_resolves (holding : Holding e known) (id : String) :
    Resolves known id (fun stored => stored) (e.getPolicy id) := by
  unfold Resolves Engine.getPolicy
  cases found : known id <;> rw [holding.keeps, found]

/-- What an update leaves, and its answer. -/
theorem Holding.updatePolicy (holding : Holding e known) (policy : Policy) :
    Resolves known policy.id (fun _ => policy) (e.updatePolicy policy).2 ∧
      Holding (e.updatePolicy policy).1 (match known policy.id with
        | none => known
        | some _ => (Update.put policy.id policy).apply known) := by
  unfold Resolves Engine.updatePolicy
  rw [holding.keeps]
  cases known policy.id with
  | none => exact ⟨rfl, holding⟩
  | some replaced => exact ⟨rfl, Files.put holding rfl⟩

theorem deletePolicy_unknown (holding : Holding e known) {id : String} (unknown : known id = none) :
    e.deletePolicy id = (e, .error s!"policy not found: {id}") := by
  unfold Engine.deletePolicy
  rw [holding.keeps, unknown]

theorem Holding.deletePolicy (holding : Holding e known) {id : String} {policy : Policy}
    (found : known id = some policy) :
    e.deletePolicy id = ((e.deletePolicy id).1, .ok ()) ∧
      Holding (e.deletePolicy id).1 ((Update.remove id : Update String Policy).apply known) := by
  unfold Engine.deletePolicy
  rw [holding.keeps, found]
  exact ⟨rfl, Files.remove holding id⟩

/-- An operation answers as the map does and leaves the map its answer reports. -/
theorem engine_step (holding : Holding e known) (operation : Operation) :
    Holding (engine.step e operation).1
        (ledger known (changed (engine.fire e operation)).toList) ∧
      Answers known operation (engine.step e operation).2 := by
  cases operation with
  | createPolicy newID policy => exact ⟨holding.createPolicy newID policy, rfl⟩
  | getPolicy id => exact ⟨holding, getPolicy_resolves holding id⟩
  | listPolicies range => exact ⟨holding, holding.lists (range e.policies)⟩
  | evaluate range req => exact ⟨holding, _, holding.lists (range e.policies), rfl⟩
  | updatePolicy policy =>
      obtain ⟨answers, after⟩ := holding.updatePolicy policy
      refine ⟨?_, answers⟩
      unfold Resolves at answers
      simp only [changed, engine, Machine.fire]
      rw [answers]
      cases found : known policy.id with
      | none =>
          rw [found] at after
          exact after
      | some replaced =>
          rw [found] at after
          exact after
  | deletePolicy id =>
      simp only [changed, engine, Machine.fire, Answers, Resolves]
      cases found : known id with
      | none =>
          rw [deletePolicy_unknown holding found]
          exact ⟨holding, rfl⟩
      | some policy =>
          obtain ⟨deleted, after⟩ := holding.deletePolicy found
          rw [deleted]
          exact ⟨after, rfl⟩

end

/-- Whatever is asked of the engine, it answers as the map of the policies that its
earlier answers put there. -/
theorem engine_is_map {start : Engine}
    (keyed : ∀ {id policy}, start.policies.lookup id = some policy → policy.id = id)
    (operations : List Operation) :
    engine.Always (fun past next => Answers (policiesAfter start past) next.event next.output)
      start operations := by
  have invariant : ∀ past, Holding (engine.run start past)
      (policiesAfter start (engine.trace start past)) := by
    intro past
    refine engine.history_invariant (fun past e => Holding e (policiesAfter start past))
      ⟨fun _ => rfl, keyed⟩ ?_ past
    intro past e operation holding
    rw [policiesAfter, ledger_filterMap_append]
    exact (engine_step holding operation).1
  intro past operation future _
  exact (engine_step (invariant past) operation).2

/-- A seeded policy is replaced and removed, and then it is gone. -/
theorem engine_is_map_removed :
    engine.Always
      (fun past next =>
        Answers (policiesAfter (newEngine "dev" "adm" "vwr") past) next.event next.output)
      (newEngine "dev" "adm" "vwr")
      [.updatePolicy {
          id := "dev"
          name := "Developer Console"
          role := roleDeveloper
          application := "*"
          requireMFA := false
          requireTrusted := false
          maxRiskScore := 30
          decision := decisionDeny
          enabled := true },
        .deletePolicy "dev", .getPolicy "dev", .listPolicies fun _ => .stored _] :=
  engine_is_map (newEngine_keyed "dev" "adm" "vwr") _

end Nexus.Policy
