import Nexus.Frontend.ApiCalls
import Nexus.Frontend.AuthProvider

/-! The pages behind `ProtectedRoute`: whom they are shown to, who finds a link to
them, and the calls that they make. -/

set_option autoImplicit false

namespace Nexus.Frontend

open Nexus.Users Nexus.JavaScript

inductive Page where
  | dashboard
  | applications
  | policies
  | security
  | settings
  | users
  | roles
  | audit

/-- `hasRole` of the provider -/
def Session.hasRole (s : Session) (roles : List Role) : Bool :=
  match s.user with
  | none => false
  | some user => if user.role = roleSuperAdmin then true else roles.contains user.role

/-! ## Routes -/

/-- The `allowedRoles` of the route in `App`. -/
def Page.allowedRoles : Page → Option (List Role)
  | .dashboard | .applications | .policies | .security | .settings => none
  | .users => some [roleAdmin, roleSuperAdmin]
  | .roles => some [roleAdmin, roleSecurityManager, roleSuperAdmin]
  | .audit => some [roleAdmin, roleSecurityManager, roleAnalyst, roleSuperAdmin]

inductive Screen where
  | verifying
  | login
  | forbidden
  | outlet
  deriving DecidableEq

/-- `ProtectedRoute` -/
def protectedRoute (s : Session) (allowedRoles : Option (List Role)) : Screen :=
  if s.isLoading then .verifying
  else
    match s.user, allowedRoles with
    | none, _ => .login
    | some _, some roles => if s.hasRole roles then .outlet else .forbidden
    | some _, none => .outlet

/-- The `allowedRoles` of the item in `Sidebar`. -/
def Page.navRoles : Page → Option (List Role)
  | .dashboard | .applications | .security | .settings => none
  | .users => some [roleAdmin, roleSuperAdmin]
  | .roles => some [roleAdmin, roleSecurityManager, roleSuperAdmin]
  | .policies => some [roleAdmin, roleSecurityManager, roleSuperAdmin, roleDeveloper, roleAnalyst,
      roleViewer, roleUser]
  | .audit => some [roleAdmin, roleSecurityManager, roleAnalyst, roleSuperAdmin]

/-- `isAllowed` of `Sidebar` -/
def Page.isAllowed (s : Session) (page : Page) : Bool :=
  match page.navRoles with
  | none => true
  | some allowed => s.hasRole allowed

/-! ## Calls -/

/-- The slugs of `ApplicationsPage`. -/
def apps : List String := ["aws-console", "prod-db", "reporting-dashboard", "secrets-vault"]

/-- The calls in the code of a page. -/
inductive Page.Calls : Page → ApiCall → Prop where
  | recentEvents : Page.Calls .dashboard (.listAuditLogs ⟨1, by decide⟩ ⟨6, by decide⟩)
  | countUsers : Page.Calls .dashboard .listUsers
  | testAdmin : Page.Calls .dashboard .getAdminOnly
  | testUser : Page.Calls .dashboard .getUserOrAdmin
  | launchApp {slug : String} (listed : slug ∈ apps) : Page.Calls .applications (.checkAccess {
      application := ofString slug
      deviceTrusted := true
      mfaVerified := true
      riskScore := ⟨15, by decide⟩ })
  | fetchPolicies : Page.Calls .policies .listPolicies
  | createPolicy (name targetRole targetApp : List ℕ) (requireMFA requireTrusted : Bool)
      (maxRisk : SafeInteger) : Page.Calls .policies (.createPolicy {
        name := name
        role := targetRole
        application := targetApp
        requireMFA := requireMFA
        requireTrustedDevice := requireTrusted
        maxRiskScore := maxRisk
        decision := ofString "ALLOW"
        enabled := true })
  | deletePolicy (id : PolicyID) : Page.Calls .policies (.deletePolicy id)
  | runEvaluation (req : AccessCheck) : Page.Calls .policies (.checkAccess req)
  | setupMFA : Page.Calls .security .setupMFA
  | verifyMFA (code : List ℕ) : Page.Calls .security (.verifyMFA code)
  | refreshProfile : Page.Calls .security .getMe
  | fetchUsers : Page.Calls .users .listUsers
  | fetchLogs (page : SafeInteger) :
      Page.Calls .audit (.listAuditLogs page ⟨20, by decide⟩)

/-- `canManagePolicies` -/
def Session.canManagePolicies (s : Session) : Bool :=
  s.hasRole [roleAdmin, roleSecurityManager, roleSuperAdmin]

/-- The controls that `PoliciesPage` renders for managers only. -/
def ApiCall.managesPolicies : ApiCall → Bool
  | .createPolicy _ | .deletePolicy _ => true
  | _ => false

/-- A page shows what makes the call. -/
def Session.Offers (s : Session) (page : Page) (call : ApiCall) : Prop :=
  protectedRoute s page.allowedRoles = .outlet ∧
    (call.managesPolicies = true → s.canManagePolicies = true)

end Nexus.Frontend
