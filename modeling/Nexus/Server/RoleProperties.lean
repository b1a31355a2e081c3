import Nexus.Policy.EngineProperties
import Nexus.Rbac.Permissions
import Nexus.Server.RouteProperties

/-! Roles across the three places that decide by them: the guards of the
routes, the permission table and the policy engine. -/

set_option autoImplicit false

namespace Nexus.Server

open Nexus.Lib Nexus.Go Nexus.Users Nexus.Auth Nexus.Policy Nexus.Rbac

variable {σ : Type} [UserStore σ] {p : Platform}

/-! ## Guards and permissions -/

/-- The permission that covers what a route does, where the table has one. -/
def Route.permission : Route → Option Permission
  | .listUsers => some permUsersRead
  | .listPolicies => some permPoliciesRead
  | .createPolicy _ | .deletePolicy _ => some permPoliciesManage
  | .listAudit _ _ => some permAuditRead
  | _ => none

/-- A request with a valid token reaches its handler exactly when the caller's
role has the permission. -/
def FollowsTable (svc : Service) (next : Transition (World σ) Incoming Reply) : Prop :=
  ∀ claims perm, caller svc next.event.env next.event.request = some claims →
    next.event.route.permission = some perm →
    (next.output.entered = some (some claims) ↔ hasPermission claims.role perm = true)

/-- The roles on which the guard of a route and the table agree. -/
def Route.agrees : Route → Role → Prop
  | .listUsers, role => role ∉ [roleSecurityManager, roleDeveloper, roleAnalyst]
  | .listPolicies, role =>
      role ∈ [roleSuperAdmin, roleAdmin, roleSecurityManager, roleDeveloper, roleAnalyst]
  | .listAudit _ _, role => role ≠ roleAnalyst
  | _, _ => True

theorem Route.permission_guarded {route : Route} {perm : Permission}
    (covered : route.permission = some perm) : route.access ≠ .anyone := by
  cases route <;> first | cases covered; done | nofun

theorem entered_iff {w : World σ} {incoming : Incoming} {claims : Claims}
    (guarded : incoming.route.access ≠ .anyone)
    (known : caller p.service incoming.env incoming.request = some claims) :
    ((server p).step w incoming).2.entered = some (some claims) ↔
      incoming.route.access.admits claims.role := by
  constructor
  · intro reached
    cases server_step (p := p) w incoming with
    | refused _ _ _ result =>
        rw [result] at reached
        cases reached
    | limited route => exact absurd (by rw [route]; rfl) guarded
    | entered ctx authorized _ result =>
        rw [result, observed_entered] at reached
        cases reached
        exact authorized.2.2
  · intro admitted
    have unlimited : ∀ body, incoming.route = .login body → ¬ limited w incoming := by
      intro body route
      exact absurd (by rw [route]; rfl) guarded
    have authorized : Authorized p.service incoming (some claims) := ⟨guarded, known, admitted⟩
    rw [step_of_authorized authorized unlimited, observed_entered]

/-- A list of roles exceeds another by the roles that only it has. -/
theorem exceeds_iff {fewer more : List Role} (contained : fewer ⊆ more) (role : Role) :
    (role ∈ fewer ↔ role ∈ more) ↔ role ∉ more.filter (· ∉ fewer) := by
  simp only [List.mem_filter, decide_eq_true_eq, not_and, not_not]
  exact ⟨Iff.mpr, fun within => ⟨fun member => contained member, within⟩⟩

theorem Route.agrees_iff {route : Route} {perm : Permission}
    (covered : route.permission = some perm) (role : Role) :
    (route.access.admits role ↔ hasPermission role perm = true) ↔ route.agrees role := by
  rw [hasPermission_iff]
  cases route with
  | listUsers =>
      cases covered
      exact exceeds_iff (show [roleSuperAdmin, roleAdmin] ⊆ holders permUsersRead by decide) role
  | listPolicies =>
      cases covered
      exact iff_of_eq (true_iff _)
  | createPolicy | deletePolicy =>
      cases covered
      exact iff_of_true Iff.rfl trivial
  | listAudit =>
      cases covered
      have exceeds := exceeds_iff
        (show [roleSuperAdmin, roleAdmin, roleSecurityManager] ⊆ holders permAuditRead by decide)
        role
      exact exceeds.trans (not_congr List.mem_singleton)
  | _ => cases covered

theorem Route.agrees_of_uncovered {route : Route} (uncovered : route.permission = none)
    (role : Role) : route.agrees role := by
  cases route with
  | listUsers | listPolicies | listAudit => cases uncovered
  | _ => trivial

theorem followsTable_iff (w : World σ) (incoming : Incoming) :
    FollowsTable p.service ((server p).fire w incoming) ↔
      ∀ claims, caller p.service incoming.env incoming.request = some claims →
        incoming.route.agrees claims.role := by
  have reaches := fun {claims perm} (known : caller p.service incoming.env incoming.request =
      some claims) (covered : incoming.route.permission = some perm) =>
    entered_iff (w := w) (Route.permission_guarded covered) known
  constructor
  · intro follows claims known
    cases covered : incoming.route.permission with
    | none => exact Route.agrees_of_uncovered covered claims.role
    | some perm =>
        rw [← Route.agrees_iff covered, ← reaches known covered]
        exact follows claims perm known covered
  · intro agrees claims perm known covered
    have guard := (Route.agrees_iff covered claims.role).mpr (agrees claims known)
    exact (reaches known covered).trans guard

/-- The guards follow the permission table throughout a run exactly when nobody
asks for the users as security manager, developer or analyst, for the policies
as anything but the five roles that may read them, or for the audit log as
analyst. -/
theorem guards_follow_table_iff (p : Platform) (start : World σ) (events : List Incoming) :
    (server p).Always (fun _ next => FollowsTable p.service next) start events ↔
      ∀ incoming ∈ events, ∀ claims,
        caller p.service incoming.env incoming.request = some claims →
        incoming.route.agrees claims.role := by
  constructor
  · intro always incoming member
    obtain ⟨past, future, split⟩ := List.append_of_mem member
    exact (followsTable_iff _ incoming).mp (always past incoming future split)
  · intro agree past incoming future split
    apply (followsTable_iff _ incoming).mpr
    apply agree
    rw [split]
    exact List.mem_append_right past List.mem_cons_self

/-- A platform whose one token names a user of the given role. -/
def platformOf (role : Role) : Platform :=
  { plainPlatform with
    service := { plainService with jwt := plainJwt { aliceClaims with role := role } } }

theorem analyst_without_audit :
    hasPermission roleAnalyst permAuditRead = true ∧
      ¬ (server (platformOf roleAnalyst)).Always
        (fun _ next => FollowsTable (platformOf roleAnalyst).service next) plainWorld
        [aliceSends (.listAudit "" "")] := by
  refine ⟨by decide, ?_⟩
  intro always
  have agrees := (followsTable_iff _ _).mp (always [] (aliceSends (.listAudit "" "")) [] rfl)
  exact agrees { aliceClaims with role := roleAnalyst } rfl rfl

/-! ## Dominance of super_admin -/

/-- The guard hands the request on to the handler behind it. -/
def LetsThrough (guard : HandlerFunc σ → HandlerFunc σ) (next : HandlerFunc σ) (env : Env)
    (r : HttpRequest) (w : World σ) (claims : Claims) : Prop :=
  (guard (observed next) env r (some claims) w).2.entered = some (some claims)

def Claims.as (claims : Claims) (role : Role) : Claims := { claims with role := role }

/-- Whatever admin is let through to or allowed, super_admin is too. -/
structure SuperAdminDominates (σ : Type) (e : Engine) (req : Request) : Prop where
  requireRole : ∀ role next env r (w : World σ) (claims : Claims),
    LetsThrough (requireRole role) next env r w (Claims.as claims roleAdmin) →
      LetsThrough (requireRole role) next env r w (Claims.as claims roleSuperAdmin)
  requireAnyRole : ∀ roles next env r (w : World σ) (claims : Claims),
    LetsThrough (requireAnyRole roles) next env r w (Claims.as claims roleAdmin) →
      LetsThrough (requireAnyRole roles) next env r w (Claims.as claims roleSuperAdmin)
  hasPermission : ∀ perm, hasPermission roleAdmin perm = true →
    hasPermission roleSuperAdmin perm = true
  evaluate : ∀ order other : e.policies.Order,
    (e.evaluate order (req.as roleAdmin)).decision = decisionAllow →
      (e.evaluate other (req.as roleSuperAdmin)).decision = decisionAllow

/-- Some policy for admin or for every role covers the application, and none of
them objects to the context. -/
def AdminUnopposed (e : Engine) (req : Request) : Prop :=
  e.matching (req.as roleAdmin) ≠ [] ∧
    ∀ rule ∈ e.matching (req.as roleAdmin), rule.objection req = none

/-- Some policy for super_admin or for every role covers the application, and no
policy for super_admin objects to the context. -/
def SuperAdminCovered (e : Engine) (req : Request) : Prop :=
  e.matching (req.as roleSuperAdmin) ≠ [] ∧
    ∀ rule ∈ e.matching (req.as roleSuperAdmin), rule.role = roleSuperAdmin →
      rule.objection req = none

omit [UserStore σ] in
theorem requireRole_super (role : Role) (next : HandlerFunc σ) (env : Env) (r : HttpRequest)
    (w : World σ) (claims : Claims) :
    LetsThrough (requireRole role) next env r w (Claims.as claims roleSuperAdmin) := by
  rw [LetsThrough, requireRole_admits _ List.mem_cons_self, observed_entered]

omit [UserStore σ] in
theorem requireAnyRole_super (roles : List Role) (next : HandlerFunc σ) (env : Env)
    (r : HttpRequest) (w : World σ) (claims : Claims) :
    LetsThrough (requireAnyRole roles) next env r w (Claims.as claims roleSuperAdmin) := by
  rw [LetsThrough, requireAnyRole_admits _ List.mem_cons_self, observed_entered]

theorem hasPermission_super {perm : Permission} (granted : hasPermission roleAdmin perm = true) :
    hasPermission roleSuperAdmin perm = true :=
  hasPermission_mono rfl rfl (by decide) granted

/-- A policy that applies to one role applies to another as well if it is a
policy for every role. -/
theorem mem_matching_as {e : Engine} {req : Request} {rule : Policy} {role other : Role}
    (member : rule ∈ e.matching (req.as role)) (different : rule.role ≠ role) :
    rule ∈ e.matching (req.as other) := by
  rw [Engine.mem_matching, applies_iff] at member ⊢
  obtain ⟨stored, enabled, named, covers⟩ := member
  exact ⟨stored, enabled, .inr (named.resolve_left different), covers⟩

theorem evaluate_super_iff (e : Engine) (req : Request) :
    (∀ order other : e.policies.Order,
        (e.evaluate order (req.as roleAdmin)).decision = decisionAllow →
          (e.evaluate other (req.as roleSuperAdmin)).decision = decisionAllow) ↔
      (AdminUnopposed e req → SuperAdminCovered e req) := by
  constructor
  · intro dominates unopposed
    have allowed := dominates (.stored _) (.stored _)
      ((Engine.evaluate_allow_iff _ _).mpr unopposed)
    rw [Engine.evaluate_allow_iff] at allowed
    exact ⟨allowed.1, fun rule member _ => allowed.2 rule member⟩
  · intro covered order other allowed
    have unopposed := (Engine.evaluate_allow_iff order _).mp allowed
    obtain ⟨matched, silent⟩ := covered unopposed
    refine (Engine.evaluate_allow_iff other _).mpr ⟨matched, ?_⟩
    intro rule member
    by_cases own : rule.role = roleSuperAdmin
    · exact silent rule member own
    · exact unopposed.2 rule (mem_matching_as member own)

/-- In the guards and in the permission table super_admin dominates admin. In
the engine it does for a set of policies and a context if and only if, where the
policies let admin pass, some policy covers super_admin as well and none that is
for super_admin objects. -/
theorem super_admin_dominates_iff (σ : Type) (e : Engine) (req : Request) :
    SuperAdminDominates σ e req ↔ (AdminUnopposed e req → SuperAdminCovered e req) := by
  constructor
  · intro dominates
    exact (evaluate_super_iff e req).mp dominates.evaluate
  · intro covered
    exact {
      requireRole := fun role next env r w claims _ => requireRole_super role next env r w claims
      requireAnyRole := fun roles next env r w claims _ =>
        requireAnyRole_super roles next env r w claims
      hasPermission := fun _ => hasPermission_super
      evaluate := (evaluate_super_iff e req).mpr covered }

/-- The policies the server starts with say nothing about super_admin. -/
theorem super_admin_denied :
    ¬ SuperAdminDominates MemoryUserStore (newEngine "dev" "adm" "vwr")
      { role := roleViewer, application := "payroll", mfaVerified := true } := by
  intro dominates
  exact absurd (dominates.evaluate (.stored _) (.stored _) (by decide)) (by decide)

end Nexus.Server
