import Nexus.Frontend.ApiClient
import Nexus.JavaScript.Stringify
import Nexus.Server.FrontDoor

/-! The calls of the API client: what each of them sends, as the server receives
it, and the route it means. Strings are those of JavaScript, and scores are safe
integers, as page numbers are. Proxies pass a request on as it is. -/

set_option autoImplicit false

namespace Nexus.Frontend

open Nexus.Go Nexus.Auth Nexus.Policy Nexus.Server Nexus.JavaScript

/-- The identifier of a policy, as `uuid.New().String()` writes it. -/
structure PolicyID where
  text : String
  nonempty : text ≠ ""
  plain : ∀ c ∈ text.toList, c.isAlphanum ∨ c = '-'

/-- `Omit<Policy, 'id'>` -/
structure PolicyDraft where
  name : List ℕ
  role : List ℕ
  application : List ℕ
  requireMFA : Bool
  requireTrustedDevice : Bool
  maxRiskScore : SafeInteger
  decision : List ℕ
  enabled : Bool

structure AccessCheck where
  application : List ℕ
  deviceTrusted : Bool
  mfaVerified : Bool
  riskScore : SafeInteger

inductive ApiCall where
  | register (username password role : List ℕ)
  | login (username password : List ℕ)
  | getMe
  | getAdminOnly
  | getUserOrAdmin
  | listUsers
  | listPolicies
  | createPolicy (policy : PolicyDraft)
  | deletePolicy (id : PolicyID)
  | checkAccess (req : AccessCheck)
  | setupMFA
  | verifyMFA (code : List ℕ)
  | listAuditLogs (page pageSize : SafeInteger)
  | checkHealth

/-- The options of `fetch`. -/
structure RequestInit where
  method : String := "GET"
  body : Option (List (String × Member)) := none

def apiBase : String := "/api/v1"

/-- The URL of a call up to its query. -/
def ApiCall.path : ApiCall → String
  | .register _ _ _ => apiBase ++ "/auth/register"
  | .login _ _ => apiBase ++ "/auth/login"
  | .getMe => apiBase ++ "/auth/me"
  | .getAdminOnly => apiBase ++ "/admin-only"
  | .getUserOrAdmin => apiBase ++ "/user-or-admin"
  | .listUsers => apiBase ++ "/users"
  | .listPolicies => apiBase ++ "/policies"
  | .createPolicy _ => apiBase ++ "/policies"
  | .deletePolicy id => apiBase ++ ("/policies/" ++ id.text)
  | .checkAccess _ => apiBase ++ "/access/check"
  | .setupMFA => apiBase ++ "/mfa/setup"
  | .verifyMFA _ => apiBase ++ "/mfa/verify"
  | .listAuditLogs _ _ => apiBase ++ "/audit"
  | .checkHealth => "/health"

/-- A number in a template literal. -/
def numeral (number : SafeInteger) : String := String.ofList number.digits

def ApiCall.query : ApiCall → String
  | .listAuditLogs page pageSize =>
      "page=" ++ (numeral page ++ ("&page_size=" ++ numeral pageSize))
  | _ => ""

def PolicyDraft.members (policy : PolicyDraft) : List (String × Member) := [
  ("name", .string policy.name),
  ("role", .string policy.role),
  ("application", .string policy.application),
  ("require_mfa", .boolean policy.requireMFA),
  ("require_trusted_device", .boolean policy.requireTrustedDevice),
  ("max_risk_score", .integer policy.maxRiskScore),
  ("decision", .string policy.decision),
  ("enabled", .boolean policy.enabled)]

def AccessCheck.members (req : AccessCheck) : List (String × Member) := [
  ("application", .string req.application),
  ("device_trusted", .boolean req.deviceTrusted),
  ("mfa_verified", .boolean req.mfaVerified),
  ("risk_score", .integer req.riskScore)]

def ApiCall.options : ApiCall → RequestInit
  | .register username password role => {
      method := "POST"
      body := some [("username", .string username), ("password", .string password),
        ("role", .string role)] }
  | .login username password => {
      method := "POST"
      body := some [("username", .string username), ("password", .string password)] }
  | .createPolicy policy => { method := "POST", body := some policy.members }
  | .deletePolicy _ => { method := "DELETE" }
  | .checkAccess req => { method := "POST", body := some req.members }
  | .setupMFA => { method := "POST" }
  | .verifyMFA code => { method := "POST", body := some [("code", .string code)] }
  | .getMe | .getAdminOnly | .getUserOrAdmin | .listUsers | .listPolicies | .listAuditLogs _ _
  | .checkHealth => {}

/-- The bytes of `JSON.stringify`. -/
def RequestInit.bytes (options : RequestInit) : List UInt8 :=
  match options.body with
  | some members => toBytes (Json.stringify members)
  | none => []

/-- The header of the session, which `checkHealth` does without. -/
def ApiClient.bearer (api : ApiClient) : ApiCall → String
  | .checkHealth => ""
  | _ =>
      match api.authorization with
      | some token => "Bearer " ++ token.text
      | none => ""

/-- What the network adds to a request. -/
structure Network where
  origin : String
  userAgent : String
  remoteAddr : String

/-- `ApiClient.request`, on arrival. -/
def ApiClient.request (api : ApiClient) (network : Network) (call : ApiCall) :
    Middleware.Request where
  method := call.options.method
  requestURI := if call.query = "" then call.path else call.path ++ ("?" ++ call.query)
  path := call.path
  rawQuery := call.query
  origin := network.origin
  authorization := api.bearer call
  userAgent := network.userAgent
  remoteAddr := network.remoteAddr
  body := { content := call.options.bytes }

/-- What a call asks of the server. -/
def ApiCall.route : ApiCall → Route
  | .register username password role => .register (some {
      username := toText username
      password := toText password
      role := toText role })
  | .login username password => .login (some {
      username := toText username
      password := toText password })
  | .getMe => .me
  | .getAdminOnly => .adminOnly
  | .getUserOrAdmin => .userOrAdmin
  | .listUsers => .listUsers
  | .listPolicies => .listPolicies
  | .createPolicy policy => .createPolicy (some {
      name := toText policy.name
      role := toText policy.role
      application := toText policy.application
      requireMFA := policy.requireMFA
      requireTrusted := policy.requireTrustedDevice
      maxRiskScore := policy.maxRiskScore.val
      decision := toText policy.decision
      enabled := policy.enabled })
  | .deletePolicy id => .deletePolicy id.text
  | .checkAccess req => .checkAccess (some {
      application := toText req.application
      deviceTrusted := req.deviceTrusted
      mfaVerified := req.mfaVerified
      riskScore := req.riskScore.val })
  | .setupMFA => .mfaSetup
  | .verifyMFA code => .mfaVerify (some { code := toText code })
  | .listAuditLogs page pageSize => .listAudit (numeral page) (numeral pageSize)
  | .checkHealth => .health

end Nexus.Frontend
