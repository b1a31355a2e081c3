import Nexus.Go.JsonText
import Nexus.Middleware.Http
import Nexus.Server.Routes

/-! From a request on the network to a route. Bodies are decoded here although
the handlers do it behind their guards: decoding has no effect. -/

set_option autoImplicit false

namespace Nexus.Server

open Nexus.Lib Nexus.Go Nexus.Users Nexus.Auth Nexus.Policy Nexus.Middleware

/-! ## Bodies -/

def registerRequest (body : Reader) : Option RegisterRequest :=
  decode [
    textField "username" fun value req => { req with username := value },
    textField "password" fun value req => { req with password := value },
    textField "role" fun value req => { req with role := value }]
    { username := "", password := "", role := "" } body

def loginRequest (body : Reader) : Option LoginRequest :=
  decode [
    textField "username" fun value req => { req with username := value },
    textField "password" fun value req => { req with password := value }]
    { username := "", password := "" } body

def mfaVerifyRequest (body : Reader) : Option MFAVerifyRequest :=
  decode [textField "code" fun value _ => { code := value }] { code := "" } body

def createPolicyRequest (body : Reader) : Option CreatePolicyRequest :=
  decode [
    textField "name" fun value req => { req with name := value },
    textField "role" fun value req => { req with role := value },
    textField "application" fun value req => { req with application := value },
    boolField "require_mfa" fun value req => { req with requireMFA := value },
    boolField "require_trusted_device" fun value req => { req with requireTrusted := value },
    intField "max_risk_score" fun value req => { req with maxRiskScore := value },
    textField "decision" fun value req => { req with decision := value },
    boolField "enabled" fun value req => { req with enabled := value }] {} body

def accessCheckRequest (body : Reader) : Option AccessCheckRequest :=
  decode [
    textField "user_id" fun value req => { req with userID := value },
    textField "application" fun value req => { req with application := value },
    boolField "device_trusted" fun value req => { req with deviceTrusted := value },
    boolField "mfa_verified" fun value req => { req with mfaVerified := value },
    intField "risk_score" fun value req => { req with riskScore := value }] {} body

/-! ## Patterns -/

/-- What a handler makes of a request and the wildcards of its path. -/
abbrev Endpoint := Middleware.Request → List (String × String) → Route

/-- `r.PathValue(name)` -/
def pathValue (values : List (String × String)) (name : String) : String :=
  match values.find? fun value => value.1 == name with
  | some value => value.2
  | none => ""

def apiPath (resource : List String) : List Segment :=
  .literal "api" :: .literal "v1" :: resource.map .literal

/-- The patterns in the order in which `registerRoutes` registers them. -/
def endpoints : List (Pattern × Endpoint) := [
  ({ method := "GET", path := [.literal "health"] }, fun _ _ => .health),
  ({ method := "POST", path := apiPath ["auth", "register"] },
    fun r _ => .register (registerRequest r.body)),
  ({ method := "POST", path := apiPath ["auth", "login"] },
    fun r _ => .login (loginRequest r.body)),
  ({ method := "GET", path := apiPath ["auth", "me"] }, fun _ _ => .me),
  ({ method := "POST", path := apiPath ["mfa", "setup"] }, fun _ _ => .mfaSetup),
  ({ method := "POST", path := apiPath ["mfa", "verify"] },
    fun r _ => .mfaVerify (mfaVerifyRequest r.body)),
  ({ method := "GET", path := apiPath ["admin-only"] }, fun _ _ => .adminOnly),
  ({ method := "GET", path := apiPath ["user-or-admin"] }, fun _ _ => .userOrAdmin),
  ({ method := "GET", path := apiPath ["users"] }, fun _ _ => .listUsers),
  ({ method := "GET", path := apiPath ["policies"] }, fun _ _ => .listPolicies),
  ({ method := "POST", path := apiPath ["policies"] },
    fun r _ => .createPolicy (createPolicyRequest r.body)),
  ({ method := "DELETE", path := apiPath ["policies"] ++ [.wildcard "id"] },
    fun _ values => .deletePolicy (pathValue values "id")),
  ({ method := "POST", path := apiPath ["access", "check"] },
    fun r _ => .checkAccess (accessCheckRequest r.body)),
  ({ method := "GET", path := apiPath ["audit"] },
    fun r _ => .listAudit (queryGet r.rawQuery "page") (queryGet r.rawQuery "page_size"))]

/-! ## The router -/

/-- `http.Redirect` with the status 301. -/
def redirect (h : Header) (r : Middleware.Request) (url : String) : Response where
  status := 301
  headers :=
    let h := h.set "Location" (String.ofList (hexEscapeNonASCII url))
    if r.method = "GET" ∨ r.method = "HEAD" then h.set "Content-Type" "text/html; charset=utf-8"
    else h
  body := .raw (
    if r.method = "GET" then
      "<a href=" ++ String.singleton JsonText.quote ++ htmlEscape url ++
        String.singleton JsonText.quote ++ ">Moved Permanently</a>.\n\n"
    else "")

variable {σ : Type} [UserStore σ] (p : Platform)

/-- `mux.ServeHTTP` -/
def serveMux : Middleware.Handler σ :=
  fun h env r w =>
    if r.requestURI = "*" then (w, respond { status := 400, headers := h, body := .raw "" })
    else
      match findHandler endpoints r.method r.path with
      | .redirect path => (w, respond (redirect h r (urlString path r.rawQuery)))
      | .handler endpoint values =>
          let (w, reply) := registerRoutes p (endpoint r values) env r.http none w
          (w, { reply with response := reply.response.map h.under })
      | .methodNotAllowed allowed =>
          (w, respond (httpError (h.set "Allow" (", ".intercalate allowed))
            "Method Not Allowed" 405))
      | .notFound => (w, respond (httpError h "404 page not found" 404))

/-! ## The server of `main` -/

def getEnv (value defaultVal : String) : String := if value ≠ "" then value else defaultVal

def allowedOrigins (corsOrigin : String) : List String :=
  [getEnv corsOrigin "http://localhost:5173", "http://localhost:3000"]

/-- The handler of `main`, with the value of `CORS_ORIGIN`. -/
def mainHandler (corsOrigin : String) : Middleware.Handler σ :=
  CORS p.unicode (allowedOrigins corsOrigin) (securityHeaders (bodyLimit (1 <<< 20) (serveMux p)))

/-- `http.Server` answers `OPTIONS *` by itself. -/
def serveHTTP (corsOrigin : String) : Middleware.Handler σ :=
  fun h env r w =>
    if r.requestURI = "*" ∧ r.method = "OPTIONS" then
      (w, respond { status := 200, headers := h.set "Content-Length" "0", body := .raw "" })
    else
      let (w, reply) := mainHandler p corsOrigin h env r w
      (w, { reply with response := reply.response.map (withoutBody r.method) })

structure Arriving where
  env : Env
  request : Middleware.Request

def frontDoor (corsOrigin : String) : Machine (World σ) Arriving Reply where
  step w arriving := serveHTTP p corsOrigin [] arriving.env arriving.request w

end Nexus.Server
