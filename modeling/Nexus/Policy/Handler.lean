import Nexus.Server.World

/-! The policy engine over HTTP. -/

set_option autoImplicit false
set_option linter.dupNamespace false

namespace Nexus.Policy

open Nexus.Go Nexus.Users Nexus.Auth Nexus.Server Nexus.Audit

variable {σ : Type}

def policyJson (p : Policy) : Json :=
  .obj [("id", .str p.id), ("name", .str p.name), ("role", .str p.role),
    ("application", .str p.application), ("require_mfa", .bool p.requireMFA),
    ("require_trusted_device", .bool p.requireTrusted),
    ("max_risk_score", .num p.maxRiskScore), ("decision", .str p.decision),
    ("enabled", .bool p.enabled)]

def resultJson (result : Result) : Json :=
  .obj ([("decision", .str result.decision), ("reason", .str result.reason)] ++
    Json.omitEmpty "policy_id" result.policyID)

structure AccessCheckRequest where
  userID : String := ""
  application : String := ""
  deviceTrusted : Bool := false
  mfaVerified : Bool := false
  riskScore : Int := 0

def accessRequest (claims : Claims) (req : AccessCheckRequest) (r : HttpRequest) : Request where
  userID := claims.userID
  role := claims.role
  application := req.application
  deviceTrusted := req.deviceTrusted
  mfaVerified := req.mfaVerified
  riskScore := req.riskScore
  ipAddress := r.remoteAddr

def accessEvent (claims : Claims) (req : AccessCheckRequest) (r : HttpRequest)
    (result : Result) : Event where
  userID := claims.userID
  action :=
    if result.decision ≠ decisionAllow then actionAccessDenied else actionAccessGranted
  resource := req.application
  ipAddress := r.remoteAddr
  userAgent := r.userAgent
  metadata := [("decision", result.decision), ("reason", result.reason)]

def Handler.checkAccess (body : Option AccessCheckRequest) : HandlerFunc σ :=
  fun env r ctx w =>
    match ctx with
    | none => (w, respond (writeError 401 "unauthorized"))
    | some claims =>
        match body with
        | none => (w, respond (writeError 400 "invalid JSON body"))
        | some req =>
            if req.application = "" then
              (w, respond (writeError 400 "application is required"))
            else
              let result := w.engine.evaluate (env.range w.engine.policies)
                (accessRequest claims req r)
              (w.log env (accessEvent claims req r result),
                respond (writeJSON 200 (resultJson result)))

def Handler.listPolicies : HandlerFunc σ :=
  fun env _ _ w =>
    let policies := w.engine.listPolicies (env.range w.engine.policies)
    (w, respond (writeJSON 200 (.obj [("count", .num policies.length),
      ("policies", .arr (policies.map policyJson))])))

structure CreatePolicyRequest where
  name : String := ""
  role : Role := ""
  application : String := ""
  requireMFA : Bool := false
  requireTrusted : Bool := false
  maxRiskScore : Int := 0
  decision : Decision := ""
  enabled : Bool := false

def CreatePolicyRequest.policy (req : CreatePolicyRequest) : Policy where
  name := req.name
  role := req.role
  application := req.application
  requireMFA := req.requireMFA
  requireTrusted := req.requireTrusted
  maxRiskScore := req.maxRiskScore
  decision := req.decision
  enabled := req.enabled

-- The engine's CreatePolicy returns no error, so the handler's branch for one
-- is dead. The claims are read only after the engine has changed.
def Handler.createPolicy (body : Option CreatePolicyRequest) : HandlerFunc σ :=
  fun env _ ctx w =>
    match body with
    | none => (w, respond (writeError 400 "invalid JSON body"))
    | some req =>
        if req.name = "" ∨ req.application = "" then
          (w, respond (writeError 400 "name and application are required"))
        else
          let (engine, p) := w.engine.createPolicy env.newID req.policy
          let w := { w with engine := engine }
          match ctx with
          | none => (w, panicked)
          | some claims =>
              (w.log env {
                userID := claims.userID
                action := actionPolicyCreated
                resource := p.id
                metadata := [("policy_name", p.name)] },
                respond (writeJSON 201 (policyJson p)))

def Handler.deletePolicy (id : String) : HandlerFunc σ :=
  fun env _ ctx w =>
    if id = "" then (w, respond (writeError 400 "policy id required"))
    else
      let (engine, result) := w.engine.deletePolicy id
      let w := { w with engine := engine }
      match result with
      | .error _ => (w, respond (writeError 404 "policy not found"))
      | .ok () =>
          match ctx with
          | none => (w, panicked)
          | some claims =>
              (w.log env {
                userID := claims.userID
                action := actionPolicyDeleted
                resource := id },
                respond (writeJSON 200 (.obj [("message", .str "policy deleted")])))

end Nexus.Policy
