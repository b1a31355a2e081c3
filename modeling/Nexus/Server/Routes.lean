import Nexus.Auth.MfaHandler
import Nexus.Audit.Handler
import Nexus.Policy.Handler
import Nexus.Lib.Machine

/-! The routes of the server and the machine they make. A route carries the
decoded body, path value or query parameters of its request. The handler
registered for a route is marked, so that a reply tells whether the guards in
front of it let the request through. -/

set_option autoImplicit false

namespace Nexus.Server

open Nexus.Lib Nexus.Go Nexus.Users Nexus.Auth Nexus.Audit Nexus.Policy Nexus.Security

inductive Route where
  | health
  | register (body : Option RegisterRequest)
  | login (body : Option LoginRequest)
  | me
  | mfaSetup
  | mfaVerify (body : Option MFAVerifyRequest)
  | adminOnly
  | userOrAdmin
  | listUsers
  | listPolicies
  | createPolicy (body : Option CreatePolicyRequest)
  | deletePolicy (id : String)
  | checkAccess (body : Option AccessCheckRequest)
  | listAudit (page pageSize : String)

variable {σ : Type} [UserStore σ] (p : Platform)

def health : HandlerFunc σ :=
  fun _ _ _ w =>
    (w, respond {
      status := 200
      headers := [("Content-Type", "application/json")]
      body := .raw "\x7b\"status\":\"ok\",\"service\":\"nexus-identity-platform\"\x7d" })

def rateLimited : Response where
  status := 429
  headers := [("Content-Type", "application/json"), ("Retry-After", "900")]
  body := .raw
    "\x7b\"error\":\"too many failed login attempts; try again in 15 minutes\"\x7d"

def withRateLimit (next : HandlerFunc σ) : HandlerFunc σ :=
  fun env r ctx w =>
    let ip := r.remoteAddr
    -- An error of the limiter is only logged, and the request goes on.
    let limited := match w.limiter.isRateLimited env ip with
      | .ok limited => limited
      | .error _ => false
    if limited then
      (w.log env {
        action := actionRateLimitTriggered
        ipAddress := ip
        userAgent := r.userAgent }, respond rateLimited)
    else next env r ctx w

def registerRoutes : Route → HandlerFunc σ
  | .health => observed health
  | .register body => observed (Auth.Handler.register p body)
  | .login body => withRateLimit (observed (Auth.Handler.login p body))
  | .me => requireAuth p.service (observed Auth.Handler.me)
  | .mfaSetup => requireAuth p.service (observed Auth.Handler.mfaSetup)
  | .mfaVerify body => requireAuth p.service (observed (Auth.Handler.mfaVerify p body))
  | .adminOnly =>
      requireAuth p.service (requireRole roleAdmin (observed Auth.Handler.adminOnly))
  | .userOrAdmin => requireAuth p.service (observed Auth.Handler.userOrAdmin)
  | .listUsers =>
      requireAuth p.service (requireRole roleAdmin (observed Auth.Handler.listUsers))
  | .listPolicies => requireAuth p.service (observed Policy.Handler.listPolicies)
  | .createPolicy body =>
      requireAuth p.service (requireAnyRole [roleAdmin, roleSecurityManager]
        (observed (Policy.Handler.createPolicy body)))
  | .deletePolicy id =>
      requireAuth p.service (requireAnyRole [roleAdmin, roleSecurityManager]
        (observed (Policy.Handler.deletePolicy id)))
  | .checkAccess body =>
      requireAuth p.service (observed (Policy.Handler.checkAccess body))
  | .listAudit page pageSize =>
      requireAuth p.service (requireAnyRole [roleAdmin, roleSecurityManager]
        (observed (Audit.Handler.list page pageSize)))

/-- A request as it reaches the router, with the draws made while serving it. -/
structure Incoming where
  env : Env
  request : HttpRequest
  route : Route

/-- Requests are served one after the other, each with an empty context. -/
def server : Machine (World σ) Incoming Reply where
  step w incoming :=
    registerRoutes p incoming.route incoming.env incoming.request none w

end Nexus.Server
