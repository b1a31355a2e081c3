import Nexus.Server.World

/-! Bearer tokens and the guards in front of protected handlers. -/

set_option autoImplicit false

namespace Nexus.Auth

open Nexus.Go Nexus.Users Nexus.Server

variable {σ : Type}

def extractBearerToken (r : HttpRequest) : Option String :=
  if r.authorization = "" then none
  else
    match splitN r.authorization ' ' 2 with
    | [scheme, rest] =>
        if !equalFold scheme "Bearer" then none
        else
          let token := trimSpace rest
          if token = "" then none else some token
    | _ => none

def requireAuth (svc : Service) (next : HandlerFunc σ) : HandlerFunc σ :=
  fun env r _ w =>
    match extractBearerToken r with
    | none =>
        (w, respond (writeError 401 "authorization header required (Bearer <token>)"))
    | some tokenStr =>
        match svc.validateToken env.now tokenStr with
        | .error _ => (w, respond (writeError 401 "invalid or expired token"))
        | .ok claims => next env r (some claims) w

def requireRole (role : Role) (next : HandlerFunc σ) : HandlerFunc σ :=
  fun env r ctx w =>
    match ctx with
    | none => (w, respond (writeError 401 "unauthorized"))
    | some claims =>
        if claims.role ≠ role ∧ claims.role ≠ roleSuperAdmin then
          (w, respond (writeError 403 ("insufficient role: " ++ role ++ " required")))
        else next env r ctx w

def requireAnyRole (roles : List Role) (next : HandlerFunc σ) : HandlerFunc σ :=
  fun env r ctx w =>
    match ctx with
    | none => (w, respond (writeError 401 "unauthorized"))
    | some claims =>
        if claims.role ∉ roleSuperAdmin :: roles then
          (w, respond (writeError 403 "insufficient permissions"))
        else next env r ctx w

end Nexus.Auth
