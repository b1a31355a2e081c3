import Nexus.Policy.EngineLedger
import Nexus.Server.RouteProperties

/-! The policies over HTTP: what the server has answered so far decides what it
answers next, down to every field of a policy. -/

set_option autoImplicit false

namespace Nexus.Server

open Nexus.Lib Nexus.Go Nexus.Users Nexus.Auth Nexus.Audit Nexus.Policy

variable {σ : Type}

/-! ## What answers tell -/

/-- The policy that a body shows. -/
def policyOf : Body → Option Policy
  | .json (.obj [("id", .str id), ("name", .str name), ("role", .str role),
      ("application", .str application), ("require_mfa", .bool requireMFA),
      ("require_trusted_device", .bool requireTrusted), ("max_risk_score", .num maxRiskScore),
      ("decision", .str decision), ("enabled", .bool enabled)]) =>
      some {
        id := id
        name := name
        role := role
        application := application
        requireMFA := requireMFA
        requireTrusted := requireTrusted
        maxRiskScore := maxRiskScore
        decision := decision
        enabled := enabled }
  | _ => none

theorem policyOf_policyJson (policy : Policy) :
    policyOf (.json (policyJson policy)) = some policy := rfl

/-- The change that an answer reports. -/
def reported (t : Transition (World σ) Incoming Reply) : Option (Update String Policy) :=
  match t.event.route, t.output.response with
  | .createPolicy _, some response =>
      if response.status = 201 then
        (policyOf response.body).map fun policy => .put policy.id policy
      else none
  | .deletePolicy id, some response =>
      if response.status = 200 then some (.remove id) else none
  | _, _ => none

/-- The policies after all that the answers reported. -/
def reportedPolicies (start : World σ) (past : List (Transition (World σ) Incoming Reply)) :
    String → Option Policy :=
  ledger (fun id => start.engine.policies.lookup id) (past.filterMap reported)

/-- The answers that go by these policies. -/
structure GoesBy (known : String → Option Policy) (t : Transition (World σ) Incoming Reply) :
    Prop where
  listed : ∀ response, t.event.route = .listPolicies → t.output.entered ≠ none →
    t.output.response = some response →
    ∃ policies, Lists policies Policy.id known ∧
      response = writeJSON 200 (.obj [("count", .num policies.length),
        ("policies", .arr (policies.map policyJson))])
  created : ∀ req response, t.event.route = .createPolicy (some req) →
    t.output.response = some response → response.status = 201 →
    ∃ policy, policyOf response.body = some policy ∧ policy = { req.policy with id := policy.id }
  deleted : ∀ id response, t.event.route = .deletePolicy id → id ≠ "" →
    t.output.entered ≠ none → t.output.response = some response →
    response.status = if known id = none then 404 else 200
  decided : ∀ req claims response, t.event.route = .checkAccess (some req) →
    req.application ≠ "" → t.output.entered = some (some claims) →
    t.output.response = some response →
    ∃ policies, Lists policies Policy.id known ∧
      response = writeJSON 200 (resultJson (judge policies
        (accessRequest claims req t.event.request)))

section
variable {known : String → Option Policy} {t : Transition (World σ) Incoming Reply}

/-- What an answer to a creation has to keep to. -/
theorem goesBy_creation {body : Option CreatePolicyRequest}
    (route : t.event.route = .createPolicy body)
    (created : ∀ req response, body = some req → t.output.response = some response →
      response.status = 201 →
      ∃ policy, policyOf response.body = some policy ∧
        policy = { req.policy with id := policy.id }) :
    GoesBy known t where
  listed := by
    intro response listing
    rw [route] at listing
    cases listing
  created := by
    intro req response creation
    rw [route] at creation
    cases creation
    exact created req response rfl
  deleted := by
    intro id response deletion
    rw [route] at deletion
    cases deletion
  decided := by
    intro req claims response check
    rw [route] at check
    cases check

/-- What an answer to a deletion has to keep to. -/
theorem goesBy_deletion {id : String} (route : t.event.route = .deletePolicy id)
    (deleted : ∀ response, id ≠ "" → t.output.entered ≠ none →
      t.output.response = some response → response.status = if known id = none then 404 else 200) :
    GoesBy known t where
  listed := by
    intro response listing
    rw [route] at listing
    cases listing
  created := by
    intro req response creation
    rw [route] at creation
    cases creation
  deleted := by
    intro other response deletion
    rw [route] at deletion
    cases deletion
    exact deleted response
  decided := by
    intro req claims response check
    rw [route] at check
    cases check

end

/-! ## One request -/

variable [UserStore σ] {p : Platform}

/-- The policies that the answer leaves, and what it goes by. -/
structure Continues (known : String → Option Policy) (t : Transition (World σ) Incoming Reply) :
    Prop where
  holding : Holding t.after.engine (ledger known (reported t).toList)
  answers : GoesBy known t

theorem engine_of_other {w : World σ} {incoming : Incoming}
    (other : incoming.route.changesPolicies = false) :
    ((server p).step w incoming).1.engine = w.engine := by
  have effect := (server_effect (p := p) w incoming).2
  generalize ((server p).step w incoming).1 = after at effect ⊢
  generalize incoming.route = route at effect other
  cases effect with
  | nothing _ engine | registers _ _ engine => exact engine
  | creates | deletes => contradiction

/-- The context with which a handler was entered. -/
theorem entered_step {w : World σ} {incoming : Incoming} {ctx : Context}
    (entered : ((server p).step w incoming).2.entered = some ctx) :
    (server p).step w incoming =
      observed (incoming.route.handler p) incoming.env incoming.request ctx w := by
  cases server_step (p := p) w incoming with
  | refused _ _ _ result =>
      rw [result] at entered
      cases entered
  | limited _ _ result =>
      rw [result] at entered
      cases entered
  | entered other _ _ result =>
      rw [result, observed_entered] at entered
      cases entered
      exact result

section
variable {w : World σ} {known : String → Option Policy} {env : Env} {r : HttpRequest}

theorem listPolicies_goes_by (holding : Holding w.engine known) :
    GoesBy known ((server p).fire w ⟨env, r, .listPolicies⟩) where
  listed := by
    intro response _ entered answered
    simp only [Machine.fire_output] at entered answered
    obtain ⟨ctx, entered⟩ := Option.ne_none_iff_exists'.mp entered
    rw [entered_step entered, observed_response] at answered
    cases answered
    exact ⟨_, holding.lists _, rfl⟩
  created _ _ route := (nomatch route)
  deleted _ _ route := (nomatch route)
  decided _ _ _ route := (nomatch route)

theorem checkAccess_goes_by (holding : Holding w.engine known)
    (body : Option AccessCheckRequest) :
    GoesBy known ((server p).fire w ⟨env, r, .checkAccess body⟩) where
  listed _ route := (nomatch route)
  created _ _ route := (nomatch route)
  deleted _ _ route := (nomatch route)
  decided := by
    intro req claims response route asked entered answered
    cases route
    simp only [Machine.fire_output] at entered answered
    rw [entered_step entered, observed_response] at answered
    simp only [Route.handler, Policy.Handler.checkAccess, if_neg asked] at answered
    cases answered
    exact ⟨_, holding.lists _, rfl⟩

/-- A request that changes no policy reports no change. -/
theorem continues_of_other (holding : Holding w.engine known) {route : Route}
    (other : route.changesPolicies = false) :
    Continues known ((server p).fire w ⟨env, r, route⟩) := by
  have engine : ((server p).step w ⟨env, r, route⟩).1.engine = w.engine := engine_of_other other
  have silent : reported ((server p).fire w ⟨env, r, route⟩) = none := by
    cases route with
    | createPolicy | deletePolicy => contradiction
    | _ => rfl
  constructor
  · rw [silent, Machine.fire_after, engine]
    exact holding
  · cases route with
    | createPolicy | deletePolicy => contradiction
    | listPolicies => exact listPolicies_goes_by holding
    | checkAccess body => exact checkAccess_goes_by holding body
    | _ =>
        exact ⟨fun _ route => (nomatch route), fun _ _ route => (nomatch route),
          fun _ _ route => (nomatch route), fun _ _ _ route => (nomatch route)⟩

omit [UserStore σ] in
/-- A failure reports no change. -/
theorem reported_failure {t : Transition (World σ) Incoming Reply}
    (failed : ∀ response, t.output.response = some response →
      response.status ≠ 200 ∧ response.status ≠ 201) : reported t = none := by
  unfold reported
  cases answered : t.output.response with
  | none => cases t.event.route <;> rfl
  | some response =>
      cases t.event.route with
      | createPolicy => exact if_neg (failed response answered).2
      | deletePolicy => exact if_neg (failed response answered).1
      | _ => rfl

omit [UserStore σ] in
/-- A failure that leaves everything as it was. -/
theorem continues_failure (holding : Holding w.engine known) {incoming : Incoming} {reply : Reply}
    (failed : ∀ response, reply.response = some response →
      response.status ≠ 200 ∧ response.status ≠ 201)
    (answers : GoesBy known ⟨w, incoming, reply, w⟩) :
    Continues known ⟨w, incoming, reply, w⟩ := by
  refine ⟨?_, answers⟩
  rw [reported_failure (t := ⟨w, incoming, reply, w⟩) failed]
  exact holding

omit [UserStore σ] in
theorem continues_uncreated (holding : Holding w.engine known) {body : Option CreatePolicyRequest}
    {reply : Reply} (failed : ∀ response, reply.response = some response →
      response.status ≠ 200 ∧ response.status ≠ 201) :
    Continues known ⟨w, ⟨env, r, .createPolicy body⟩, reply, w⟩ :=
  continues_failure holding failed (goesBy_creation rfl
    fun _ response _ answered created => absurd created (failed response answered).2)

theorem continues_createPolicy (holding : Holding w.engine known)
    (body : Option CreatePolicyRequest) :
    Continues known ((server p).fire w ⟨env, r, .createPolicy body⟩) := by
  have served := server_step (p := p) w ⟨env, r, .createPolicy body⟩
  unfold Machine.fire
  generalize (server p).step w ⟨env, r, .createPolicy body⟩ = outcome at served ⊢
  cases served with
  | refused _ _ status result =>
      rw [result]
      refine continues_uncreated holding ?_
      rintro response ⟨⟩
      omega
  | limited route => cases route
  | entered ctx authorized _ result =>
      cases ctx with
      | none => cases authorized
      | some claims =>
          rw [result]
          cases body with
          | none =>
              refine continues_uncreated holding ?_
              rintro response ⟨⟩
              decide
          | some req =>
              by_cases incomplete : req.name = "" ∨ req.application = ""
              · simp only [observed, Route.handler, Policy.Handler.createPolicy,
                  if_pos incomplete]
                refine continues_uncreated holding ?_
                rintro response ⟨⟩
                decide
              · simp only [observed, Route.handler, Policy.Handler.createPolicy,
                  if_neg incomplete]
                constructor
                · exact holding.createPolicy env.newID req.policy
                · refine goesBy_creation rfl ?_
                  rintro _ response ⟨⟩ ⟨⟩ _
                  exact ⟨_, policyOf_policyJson _, rfl⟩

theorem continues_deletePolicy (holding : Holding w.engine known) (id : String) :
    Continues known ((server p).fire w ⟨env, r, .deletePolicy id⟩) := by
  have served := server_step (p := p) w ⟨env, r, .deletePolicy id⟩
  unfold Machine.fire
  generalize (server p).step w ⟨env, r, .deletePolicy id⟩ = outcome at served ⊢
  cases served with
  | refused _ _ status result =>
      rw [result]
      refine continues_failure holding ?_
        (goesBy_deletion rfl fun _ _ entered => absurd rfl entered)
      rintro response ⟨⟩
      omega
  | limited route => cases route
  | entered ctx authorized _ result =>
      cases ctx with
      | none => cases authorized
      | some claims =>
          rw [result]
          by_cases blank : id = ""
          · simp only [observed, Route.handler, Policy.Handler.deletePolicy, if_pos blank]
            refine continues_failure holding ?_
              (goesBy_deletion rfl fun _ named => absurd blank named)
            rintro response ⟨⟩
            decide
          · simp only [observed, Route.handler, Policy.Handler.deletePolicy, if_neg blank]
            cases found : known id with
            | none =>
                rw [deletePolicy_unknown holding found]
                refine continues_failure holding ?_ (goesBy_deletion rfl ?_)
                · rintro response ⟨⟩
                  decide
                · rintro response _ _ ⟨⟩
                  rw [found]
                  rfl
            | some policy =>
                obtain ⟨deleted, after⟩ := holding.deletePolicy found
                rw [deleted]
                constructor
                · exact after
                · refine goesBy_deletion rfl ?_
                  rintro response _ _ ⟨⟩
                  rw [found]
                  rfl

theorem continues_step (holding : Holding w.engine known) (incoming : Incoming) :
    Continues known ((server p).fire w incoming) := by
  obtain ⟨env, r, route⟩ := incoming
  cases route with
  | createPolicy body => exact continues_createPolicy holding body
  | deletePolicy id => exact continues_deletePolicy holding id
  | _ => exact continues_of_other holding rfl

end

/-- The policies over HTTP are a map that the answers tell: every listing shows it
whole, every deletion finds out whether an ID is in it, and every decision goes by
it. -/
theorem policy_api_is_map (p : Platform) {start : World σ}
    (keyed : ∀ {id policy}, start.engine.policies.lookup id = some policy → policy.id = id)
    (events : List Incoming) :
    (server p).Always (fun past next => GoesBy (reportedPolicies start past) next) start
      events := by
  have invariant : ∀ past, Holding ((server p).run start past).engine
      (reportedPolicies start ((server p).trace start past)) := by
    intro past
    refine (server p).history_invariant
      (fun past w => Holding w.engine (reportedPolicies start past)) ⟨fun _ => rfl, keyed⟩ ?_ past
    intro past w incoming holding
    have step := (continues_step (p := p) holding incoming).holding
    rw [reportedPolicies, ledger_filterMap_append]
    exact step
  intro past incoming future _
  exact (continues_step (invariant past) incoming).answers

/-- Alice creates a policy, is judged, lists the policies and deletes the new one. -/
theorem policy_api_is_map_alice :
    (server plainPlatform).Always (fun past next => GoesBy (reportedPolicies plainWorld past) next)
      plainWorld
      [aliceSends (.createPolicy (some { name := "Payroll", application := "payroll" })),
        aliceSends (.checkAccess (some { application := "payroll" })),
        aliceSends .listPolicies, aliceSends (.deletePolicy "n-1"),
        aliceSends (.deletePolicy "n-1")] :=
  policy_api_is_map plainPlatform (newEngine_keyed "dev" "adm" "vwr") _

end Nexus.Server
