import Nexus.Auth.Middleware

/-! HTTP handlers of the auth routes. A body is what decoding the request's
JSON yields, `none` standing for a decoding error. Handlers that use the claims
without a nil check panic when there are none. -/

set_option autoImplicit false

namespace Nexus.Auth

open Nexus.Go Nexus.Users Nexus.Server Nexus.Audit

variable {σ : Type} [UserStore σ] (p : Platform)

def publicUserJson (u : PublicUser) : Json :=
  .obj ([("id", .str u.id), ("username", .str u.username), ("role", .str u.role)] ++
    Json.omitEmpty "organization_id" u.organizationID ++
    [("status", .str u.status), ("mfa_enabled", .bool u.mfaEnabled),
      ("created_at", .time u.createdAt)])

structure RegisterRequest where
  username : String
  password : String
  role : String

def registerError (err : AuthError) : Response :=
  if err.is .userAlreadyExists then writeError 409 "username already taken"
  else if err.is .weakPassword then writeError 400 err.text
  else if err.is .invalidRole then
    writeError 400 ("invalid role; allowed: admin, user, developer, analyst, viewer, " ++
      "security_manager, super_admin")
  else if err.is .invalidInput then writeError 400 err.text
  else writeError 500 "registration failed"

def Handler.register (body : Option RegisterRequest) : HandlerFunc σ :=
  fun env r _ w =>
    match body with
    | none => (w, respond (writeError 400 "invalid JSON body"))
    | some req =>
        let role := toLower p.unicode (trimSpace req.role)
        let (store, result) := p.service.register env w.store
          { username := req.username, password := req.password, role := role }
        let w := { w with store := store }
        match result with
        | .error err =>
            (w.log env {
              action := actionUserRegistered
              ipAddress := r.remoteAddr
              userAgent := r.userAgent
              metadata := [("username", req.username), ("result", "failed")] },
              respond (registerError err))
        | .ok u =>
            (w.log env {
              userID := u.id
              action := actionUserRegistered
              ipAddress := r.remoteAddr
              userAgent := r.userAgent
              metadata := [("username", u.username), ("role", u.role)] },
              respond (writeJSON 201 (.obj
                [("message", .str "user registered successfully"),
                  ("user", publicUserJson u.toPublic)])))

structure LoginRequest where
  username : String
  password : String

def LoginRequest.input (req : LoginRequest) : LoginInput where
  username := req.username
  password := req.password

def Handler.login (body : Option LoginRequest) : HandlerFunc σ :=
  fun env r _ w =>
    match body with
    | none => (w, respond (writeError 400 "invalid JSON body"))
    | some req =>
        match (p.service.login env w.store req.input).result with
        | .error err =>
            if err.is .invalidCredentials then
              (w.log env {
                action := actionLoginFailed
                ipAddress := r.remoteAddr
                userAgent := r.userAgent
                metadata := [("username", req.username)] },
                respond (writeError 401 "invalid credentials"))
            else (w, respond (writeError 500 "login failed"))
        | .ok (token, u) =>
            (w.log env {
              userID := u.id
              action := actionLoginSuccess
              ipAddress := r.remoteAddr
              userAgent := r.userAgent
              metadata := [("username", u.username)] },
              respond (writeJSON 200 (.obj [("token", .str token)])))

def Handler.me : HandlerFunc σ :=
  fun _ _ ctx w =>
    match ctx with
    | none => (w, respond (writeError 401 "unauthorized"))
    | some claims =>
        match getUserByID w.store claims.userID with
        | .error _ => (w, respond (writeError 404 "user not found"))
        | .ok u => (w, respond (writeJSON 200 (publicUserJson u.toPublic)))

def Handler.listUsers : HandlerFunc σ :=
  fun env _ _ w =>
    match Auth.listUsers env w.store with
    | .error _ => (w, respond (writeError 500 "failed to retrieve users"))
    | .ok userList =>
        let public_ := userList.map fun u => publicUserJson u.toPublic
        (w, respond (writeJSON 200 (.obj
          [("count", .num public_.length), ("users", .arr public_)])))

/-- The greeting `AdminOnly` and `UserOrAdmin` answer with. -/
def greeting (message : String) : HandlerFunc σ :=
  fun _ _ ctx w =>
    match ctx with
    | none => (w, panicked)
    | some claims =>
        (w, respond (writeJSON 200 (.obj [("message", .str message),
          ("role", .str claims.role), ("user", .str claims.username)])))

def Handler.adminOnly : HandlerFunc σ := greeting "welcome to the admin zone"

def Handler.userOrAdmin : HandlerFunc σ := greeting "authenticated access granted"

end Nexus.Auth
