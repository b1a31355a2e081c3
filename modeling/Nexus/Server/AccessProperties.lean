import Nexus.Server.EnrolmentProperties
import Nexus.Policy.EngineProperties

/-! What the access decisions of a running server rest on: which rules grant,
after any sequence of policy changes, and where the evidence of MFA comes
from, over any sequence of requests. -/

set_option autoImplicit false

namespace Nexus.Server

open Nexus.Lib Nexus.Go Nexus.Users Nexus.Auth Nexus.Policy

variable {σ : Type} [UserStore σ] {p : Platform}

/-! ## Which rules grant -/

/-- The rule decides one of the two ways the engine acts on. -/
def Decisive (rule : Policy) : Prop :=
  rule.decision = decisionAllow ∨ rule.decision = decisionDeny

/-- A rule that is off or decisive. -/
def Clear (rule : Policy) : Prop := rule.enabled = true → Decisive rule

def Route.clear : Route → Prop
  | .createPolicy (some req) => Clear req.policy
  | _ => True

def ClearEngine (e : Engine) : Prop := ∀ rule ∈ e.policies.values, Clear rule

theorem newEngine_clear (first second third : String) :
    ClearEngine (newEngine first second third) := by
  have allowing : ∀ rule ∈ seedDefaults first second third,
      rule.decision = decisionAllow := by
    simp [seedDefaults]
  intro rule member _
  left
  apply allowing
  simp only [newEngine, seedDefaults, List.foldl_cons, List.foldl_nil] at member
  rcases GoMap.mem_values_insert member with rfl | member
  · simp [seedDefaults]
  rcases GoMap.mem_values_insert member with rfl | member
  · simp [seedDefaults]
  rcases GoMap.mem_values_insert member with rfl | member
  · simp [seedDefaults]
  · cases member

theorem Effect.clear {env : Env} {w after : World σ} {route : Route}
    (effect : Effect p env w after route) (clearRoute : route.clear)
    (clear : ClearEngine w.engine) : ClearEngine after.engine := by
  cases effect with
  | nothing _ engine | registers _ _ engine =>
      rw [engine]
      exact clear
  | creates _ engine =>
      rw [engine]
      intro rule member
      rcases GoMap.mem_values_insert member with rfl | older
      · exact clearRoute
      · exact clear rule older
  | deletes _ engine =>
      rw [engine]
      intro rule member
      exact clear rule (Engine.deletePolicy_subset _ _ member)

theorem run_clear {w : World σ} (clear : ClearEngine w.engine) {events : List Incoming}
    (clearRoutes : ∀ incoming ∈ events, incoming.route.clear) :
    ClearEngine ((server p).run w events).engine := by
  have maintained : ∀ (state : World σ) (incoming : Incoming), incoming.route.clear →
      ClearEngine state.engine → ClearEngine ((server p).step state incoming).1.engine :=
    fun state incoming clearRoute =>
      (server_effect (p := p) state incoming).2.clear clearRoute
  exact (server p).run_invariant maintained clear clearRoutes

/-- The rule's names admit whatever the other's admit. -/
def Covers (rule other : Policy) : Prop :=
  (rule.role = other.role ∨ rule.role = "*") ∧
    (rule.application = other.application ∨ rule.application = "*")

/-- Every enabled rule is covered by an enabled ALLOW or DENY rule. -/
def CoveredEngine (e : Engine) : Prop :=
  ∀ rule ∈ e.policies.values, rule.enabled = true →
    ∃ other ∈ e.policies.values, other.enabled = true ∧ Decisive other ∧ Covers other rule

theorem ClearEngine.covered {e : Engine} (clear : ClearEngine e) : CoveredEngine e :=
  fun rule stored enabled =>
    ⟨rule, stored, enabled, clear rule stored enabled, .inl rfl, .inl rfl⟩

theorem Covers.applies {rule other : Policy} {req : Request} (covers : Covers other rule)
    (enabled : other.enabled = true) (applies : rule.applies req = true) :
    other.applies req = true := by
  obtain ⟨_, role, application⟩ := applies_iff.mp applies
  obtain ⟨sameRole, sameApplication⟩ := covers
  refine applies_iff.mpr ⟨enabled, ?_, ?_⟩
  · rcases sameRole with same | any
    · exact same ▸ role
    · exact .inr any
  · rcases sameApplication with same | any
    · exact same ▸ application
    · exact .inl any

/-- Some name that the pattern admits is admitted by no other of the patterns but
the wildcard. -/
theorem exists_name_of_pattern (patterns : List String) (pattern : String) :
    ∃ name, (pattern = name ∨ pattern = "*") ∧
      ∀ other ∈ patterns, other = name ∨ other = "*" → other = pattern ∨ other = "*" := by
  by_cases any : pattern = "*"
  · obtain ⟨name, fresh⟩ := Infinite.exists_notMem_finset patterns.toFinset
    refine ⟨name, .inr any, ?_⟩
    rintro other listed (rfl | wildcard)
    · exact absurd (List.mem_toFinset.mpr listed) fresh
    · exact .inr wildcard
  · exact ⟨pattern, .inl rfl, fun _ _ same => same⟩

/-- A careful request on which only rules that cover the given one apply. -/
theorem exists_covering_request (e : Engine) {rule : Policy} (enabled : rule.enabled = true) :
    ∃ req : Request, rule.applies req = true ∧
      (∀ other ∈ e.policies.values, other.applies req = true → Covers other rule) ∧
      ∀ other : Policy, other.decision ≠ decisionDeny → other.objection req = none := by
  obtain ⟨role, admitsRole, onlyRole⟩ :=
    exists_name_of_pattern (e.policies.values.map Policy.role) rule.role
  obtain ⟨application, admitsApplication, onlyApplication⟩ :=
    exists_name_of_pattern (e.policies.values.map Policy.application) rule.application
  refine ⟨{
    role := role, application := application, riskScore := 0, deviceTrusted := true
    mfaVerified := true }, ?_, ?_, ?_⟩
  · exact applies_iff.mpr ⟨enabled, admitsRole, admitsApplication.symm⟩
  · intro other stored applies
    obtain ⟨_, sameRole, sameApplication⟩ := applies_iff.mp applies
    exact ⟨onlyRole _ (List.mem_map_of_mem stored) sameRole,
      onlyApplication _ (List.mem_map_of_mem stored) sameApplication.symm⟩
  · intro other notDeny
    refine objection_eq_none_iff.mpr ⟨?_, ?_, ?_, notDeny⟩
    · unfold Policy.exceedsRisk
      by_cases limit : 0 < other.maxRiskScore
      · simp [Int.le_of_lt limit]
      · simp [limit]
    · simp [Policy.distrustsDevice]
    · simp [Policy.wantsMFA]

/-- ALLOW always rests on a matching ALLOW rule exactly in covered engines. -/
theorem grants_iff_covered (e : Engine) :
    (∀ (order : e.policies.Order) (req : Request),
        (e.evaluate order req).decision = decisionAllow →
        ∃ rule ∈ e.matching req, rule.decision = decisionAllow) ↔ CoveredEngine e := by
  constructor
  · intro rests rule stored enabled
    obtain ⟨req, applies, covering, careful⟩ := exists_covering_request e enabled
    by_cases denied : ∃ other ∈ e.matching req, other.decision = decisionDeny
    · obtain ⟨other, member, denies⟩ := denied
      obtain ⟨listed, matched⟩ := Engine.mem_matching.mp member
      exact ⟨other, listed, (applies_iff.mp matched).1, .inr denies,
        covering other listed matched⟩
    · have allowed : (e.evaluate (.stored _) req).decision = decisionAllow := by
        refine (Engine.evaluate_allow_iff _ req).mpr ⟨?_, ?_⟩
        · exact List.ne_nil_of_mem (Engine.mem_matching.mpr ⟨stored, applies⟩)
        · intro other member
          exact careful other fun denies => denied ⟨other, member, denies⟩
      obtain ⟨other, member, allows⟩ := rests (.stored _) req allowed
      obtain ⟨listed, matched⟩ := Engine.mem_matching.mp member
      exact ⟨other, listed, (applies_iff.mp matched).1, .inl allows,
        covering other listed matched⟩
  · intro covered order req allowed
    obtain ⟨matched, silent⟩ := (Engine.evaluate_allow_iff order req).mp allowed
    obtain ⟨rule, member⟩ := List.exists_mem_of_ne_nil _ matched
    obtain ⟨stored, applies⟩ := Engine.mem_matching.mp member
    obtain ⟨other, listed, enabled, decisive, covers⟩ :=
      covered rule stored (applies_iff.mp applies).1
    have found := Engine.mem_matching.mpr ⟨listed, covers.applies enabled applies⟩
    have notDeny := (objection_eq_none_iff.mp (silent other found)).2.2.2
    exact ⟨other, found, decisive.resolve_right notDeny⟩

/-- After any requests whose new enabled policies are ALLOW or DENY rules, an
ALLOW rests on a matching ALLOW rule. After any requests at all, every ALLOW does
exactly when every enabled policy is covered by an enabled ALLOW or DENY rule. -/
theorem allow_rests_on_rule (p : Platform) (w : World σ) (first second third : String)
    (fresh : w.engine = newEngine first second third) (events : List Incoming) :
    ((∀ incoming ∈ events, incoming.route.clear) →
        ∀ (order : ((server p).run w events).engine.policies.Order) (req : Request),
          (((server p).run w events).engine.evaluate order req).decision = decisionAllow →
          ∃ rule ∈ ((server p).run w events).engine.matching req,
            rule.decision = decisionAllow) ∧
      ((∀ (order : ((server p).run w events).engine.policies.Order) (req : Request),
          (((server p).run w events).engine.evaluate order req).decision = decisionAllow →
          ∃ rule ∈ ((server p).run w events).engine.matching req,
            rule.decision = decisionAllow) ↔
        CoveredEngine ((server p).run w events).engine) := by
  refine ⟨?_, grants_iff_covered _⟩
  intro clearRoutes
  have clear : ClearEngine w.engine := fresh ▸ newEngine_clear first second third
  exact (grants_iff_covered _).mpr (run_clear clear clearRoutes).covered

/-- Alice lets analysts into payroll. -/
def aliceAllows : Incoming :=
  aliceSends (.createPolicy (some {
    name := "Payroll", role := roleAnalyst, application := "payroll"
    decision := "ALLOW", enabled := true }))

/-- Alice shuts everybody out of the vault. -/
def aliceDenies : Incoming :=
  { aliceSends (.createPolicy (some {
      name := "Vault", role := "*", application := "vault"
      decision := "DENY", enabled := true })) with
    env := plainEnv minute "n-2" }

theorem allow_rests_on_rule_payroll :
    ∃ rule ∈ ((server plainPlatform).run plainWorld [aliceAllows, aliceDenies]).engine.matching
        { role := roleAnalyst, application := "payroll" },
      rule.decision = decisionAllow := by
  refine (allow_rests_on_rule plainPlatform plainWorld "dev" "adm" "vwr" rfl
    [aliceAllows, aliceDenies]).1 ?_ (.stored _) _ (by decide +kernel)
  rintro incoming member
  rcases List.mem_cons.mp member with rfl | last
  · exact fun _ => .inl rfl
  · cases List.mem_singleton.mp last
    exact fun _ => .inr rfl

/-- A rule whose decision is spelled in lower case. -/
def payrollRule : CreatePolicyRequest where
  name := "Payroll"
  role := roleAnalyst
  application := "payroll"
  decision := "deny"
  enabled := true

theorem lowercase_deny_grants :
    ¬ ∀ (order : ((server plainPlatform).run plainWorld
          [aliceSends (.createPolicy (some payrollRule))]).engine.policies.Order)
        (req : Request),
      (((server plainPlatform).run plainWorld
          [aliceSends (.createPolicy (some payrollRule))]).engine.evaluate order
            req).decision = decisionAllow →
        ∃ rule ∈ ((server plainPlatform).run plainWorld
            [aliceSends (.createPolicy (some payrollRule))]).engine.matching req,
          rule.decision = decisionAllow := by
  intro rests
  have granting := rests (.stored _) { role := roleAnalyst, application := "payroll" } rfl
  exact absurd granting (by decide)

/-! ## Where MFA evidence comes from -/

/-- Some earlier request of the user's verified an MFA code. -/
def VerifiedMFA (svc : Service) (past : List (Transition (World σ) Incoming Reply))
    (userID : String) : Prop :=
  ∃ earlier ∈ past, ∃ body claims response,
    earlier.event.route = .mfaVerify body ∧
      caller svc earlier.event.env earlier.event.request = some claims ∧
      claims.userID = userID ∧ earlier.output.response = some response ∧
      response.status = 200

/-- Whoever is allowed access by a policy that requires MFA has verified it. -/
def MFAEarned (svc : Service) (past : List (Transition (World σ) Incoming Reply))
    (next : Transition (World σ) Incoming Reply) : Prop :=
  ∀ req claims result, next.event.route = .checkAccess (some req) →
    caller svc next.event.env next.event.request = some claims →
    next.output.response = some (writeJSON 200 (resultJson result)) →
    result.decision = decisionAllow →
    (∃ rule ∈ next.before.engine.matching (accessRequest claims req next.event.request),
      rule.requireMFA = true) →
    VerifiedMFA svc past claims.userID

/-- The request claims to have verified MFA where the answer depends on it:
some matching policy requires it and none denies. -/
structure AssertsMFA (svc : Service) (next : Transition (World σ) Incoming Reply)
    (req : AccessCheckRequest) (claims : Claims) : Prop where
  route : next.event.route = .checkAccess (some req)
  known : caller svc next.event.env next.event.request = some claims
  named : req.application ≠ ""
  asserted : req.mfaVerified = true
  required : ∃ rule ∈ next.before.engine.matching
    (accessRequest claims req next.event.request), rule.requireMFA = true
  undenied : ∀ rule ∈ next.before.engine.matching
    (accessRequest claims req next.event.request),
    rule.denies (accessRequest claims req next.event.request) = false

/-- Whoever claims to have verified MFA, where it alone decides, has done so. -/
def MFAHonest (svc : Service) (past : List (Transition (World σ) Incoming Reply))
    (next : Transition (World σ) Incoming Reply) : Prop :=
  ∀ req claims, AssertsMFA svc next req claims → VerifiedMFA svc past claims.userID

theorem checkAccess_response {w : World σ} {incoming : Incoming} {req : AccessCheckRequest}
    {claims : Claims} (route : incoming.route = .checkAccess (some req))
    (known : caller p.service incoming.env incoming.request = some claims) :
    ((server p).step w incoming).2.response = some
      (if req.application = "" then writeError 400 "application is required"
      else writeJSON 200 (resultJson (w.engine.evaluate
        (incoming.env.range w.engine.policies)
        (accessRequest claims req incoming.request)))) := by
  rw [step_of_caller (by rw [route]; rfl) known, observed_response, route]
  simp only [Route.handler, Policy.Handler.checkAccess]
  split <;> rfl

theorem resultJson_decision {result other : Result}
    (same : resultJson result = resultJson other) : result.decision = other.decision := by
  simp only [resultJson, List.cons_append, Json.obj.injEq, List.cons.injEq, Prod.mk.injEq,
    true_and, Json.str.injEq] at same
  exact same.1

theorem earned_iff_honest (p : Platform) (start : World σ) (events : List Incoming) :
    (server p).Always (MFAEarned p.service) start events ↔
      (server p).Always (MFAHonest p.service) start events := by
  apply Machine.Always.congr
  intro past incoming _
  simp only [MFAEarned, MFAHonest, Machine.fire_event, Machine.fire_output,
    Machine.fire_before]
  constructor
  · intro earned req claims asserts
    have answered := checkAccess_response
      (w := (server p).run start past) asserts.route asserts.known
    rw [if_neg asserts.named] at answered
    refine earned req claims _ asserts.route asserts.known answered ?_ asserts.required
    rw [Engine.evaluate_allow_iff]
    obtain ⟨rule, member, _⟩ := asserts.required
    refine ⟨List.ne_nil_of_mem member, ?_⟩
    intro other matching
    rw [objection_eq_none_iff_not_denies]
    exact ⟨asserts.undenied other matching,
      by simp [Policy.wantsMFA, accessRequest, asserts.asserted]⟩
  · intro honest req claims result route known answered allowed required
    rw [checkAccess_response route known] at answered
    by_cases named : req.application = ""
    · rw [if_pos named] at answered
      exact absurd (congrArg Response.status (Option.some.inj answered)) (by simp)
    · rw [if_neg named] at answered
      have decided := resultJson_decision
        (Body.json.inj (congrArg Response.body (Option.some.inj answered)))
      rw [← decided, Engine.evaluate_allow_iff] at allowed
      obtain ⟨_, silent⟩ := allowed
      simp only [objection_eq_none_iff_not_denies] at silent
      obtain ⟨rule, member, requires⟩ := id required
      have satisfied := (silent rule member).2
      apply honest req claims
      exact {
        route := route
        known := known
        named := named
        asserted := by simpa [Policy.wantsMFA, requires, accessRequest] using satisfied
        required := required
        undenied := fun other matching => (silent other matching).1 }

/-- Where nobody is enrolled at the start, nobody ever verifies a code. -/
theorem nobody_verifies {start : World MemoryUserStore} (nobody : NobodyEnrolled start.store)
    (past : List Incoming) (userID : String) :
    ¬ VerifiedMFA p.service ((server p).trace start past) userID := by
  intro verified
  obtain ⟨t, member, body, claims, response, route, known, _, answered, succeeded⟩ := verified
  obtain ⟨before, incoming, _, _, rfl⟩ := (server p).mem_trace member
  have enrolled := mfaVerify_enrolled route known ⟨response, answered, succeeded⟩
  obtain ⟨u, found, enabled⟩ := enrolled
  have stored := MemoryUserStore.getUserByID_ok_iff.mp found
  have disabled := run_enrols_nobody (p := p) nobody before u
    (GoMap.mem_values_iff.mpr ⟨_, stored⟩)
  rw [disabled] at enabled
  cases enabled

/-- The evidence of MFA is earned throughout a run exactly when clients are
honest about it: the server checks nothing but the flag in the body. Where
nobody is enrolled at the start, honesty means never to set the flag where it
counts. -/
theorem mfa_earned_iff (p : Platform) (events : List Incoming) :
    (∀ start : World σ, (server p).Always (MFAEarned p.service) start events ↔
        (server p).Always (MFAHonest p.service) start events) ∧
      ∀ start : World MemoryUserStore,
        (∀ u ∈ start.store.byID.values, u.mfaEnabled = false) →
        ((server p).Always (MFAEarned p.service) start events ↔
          (server p).Always (fun _ next => ∀ req claims,
            ¬ AssertsMFA p.service next req claims) start events) := by
  refine ⟨fun start => earned_iff_honest p start events, ?_⟩
  intro start nobody
  refine (earned_iff_honest p start events).trans (Machine.Always.congr ?_)
  intro past incoming _
  constructor
  · intro honest req claims asserts
    exact nobody_verifies nobody past claims.userID (honest req claims asserts)
  · intro silent req claims asserts
    exact absurd asserts (silent req claims)

/-- Alice, who never verified a code, says she did. -/
def boast : AccessCheckRequest where
  application := "aws-console"
  mfaVerified := true

theorem mfa_asserted :
    ¬ (server plainPlatform).Always (MFAEarned plainPlatform.service) plainWorld
      [aliceSends (.checkAccess (some boast))] := by
  intro always
  have earned := always [] (aliceSends (.checkAccess (some boast))) [] rfl boast aliceClaims
    granted rfl (by decide) rfl rfl (by decide)
  obtain ⟨earlier, member, _⟩ := earned
  cases member

theorem mfa_earned_silent :
    (server plainPlatform).Always (MFAEarned plainPlatform.service) plainWorld
      [aliceSends (.checkAccess (some { application := "aws-console" }))] := by
  refine ((@mfa_earned_iff MemoryUserStore _ plainPlatform _).2 plainWorld (by decide)).mpr ?_
  rw [Machine.always_cons_iff]
  refine ⟨?_, Machine.always_nil _ _⟩
  intro req claims asserts
  cases asserts.route
  cases asserts.asserted

end Nexus.Server
