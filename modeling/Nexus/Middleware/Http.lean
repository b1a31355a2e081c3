import Nexus.Go.JsonDecode
import Nexus.Go.Mux
import Nexus.Server.World

/-! The handlers of `net/http` and the middleware in front of the router. A
handler takes the header that those before it have set for the response. Of the
response only these headers are kept: the server adds a date, a length and what
concerns the connection. -/

set_option autoImplicit false

namespace Nexus.Middleware

open Nexus.Go Nexus.Server

abbrev Header := List (String × String)

/-- The names are written as in the source, where each has one spelling. -/
def Header.set (h : Header) (name value : String) : Header :=
  h.filter (fun field => field.1 ≠ name) ++ [(name, value)]

/-- One call of `Set` for each field. -/
def Header.setAll (h fields : Header) : Header :=
  fields.foldl (fun (h : Header) field => h.set field.1 field.2) h

/-- A request as it comes from the network, with the first value of each header
field that the server reads. -/
structure Request where
  method : String
  requestURI : String
  path : String -- `r.URL.EscapedPath()`
  rawQuery : String := ""
  origin : String := ""
  authorization : String := ""
  userAgent : String := ""
  remoteAddr : String := ""
  body : Reader := { content := [] }

/-- What the routes read of it apart from the path, the query and the body. -/
def Request.http (r : Request) : HttpRequest where
  authorization := r.authorization
  remoteAddr := r.remoteAddr
  userAgent := r.userAgent

abbrev Handler (σ : Type) := Header → Env → Request → World σ → World σ × Reply

variable {σ : Type}

/-- Whether `originSet` admits the origin of a request. -/
def admits (tables : UnicodeTables) (allowedOrigins : List String) (origin : String) : Bool :=
  let originSet := allowedOrigins.map (toLower tables)
  origin ≠ "" ∧ ("*" ∈ originSet ∨ toLower tables origin ∈ originSet)

def corsFields (origin : String) : Header := [
  ("Access-Control-Allow-Origin", origin),
  ("Access-Control-Allow-Methods", "GET, POST, PUT, PATCH, DELETE, OPTIONS"),
  ("Access-Control-Allow-Headers", "Content-Type, Authorization"),
  ("Access-Control-Allow-Credentials", "true"),
  ("Access-Control-Max-Age", "86400")]

def CORS (tables : UnicodeTables) (allowedOrigins : List String) (next : Handler σ) : Handler σ :=
  fun h env r w =>
    let h :=
      if admits tables allowedOrigins r.origin then h.setAll (corsFields r.origin) else h
    if r.method = "OPTIONS" then (w, respond { status := 204, headers := h, body := .raw "" })
    else next h env r w

def securityFields : Header := [
  ("X-Content-Type-Options", "nosniff"),
  ("X-Frame-Options", "DENY"),
  ("X-XSS-Protection", "1; mode=block"),
  ("Referrer-Policy", "strict-origin-when-cross-origin"),
  ("Content-Security-Policy", "default-src 'self'")]

def securityHeaders (next : Handler σ) : Handler σ :=
  fun h env r w => next (h.setAll securityFields) env r w

def bodyLimit (maxBytes : Nat) (next : Handler σ) : Handler σ :=
  fun h env r w => next h env { r with body := r.body.maxBytes maxBytes } w

/-! ## Answers of `net/http` -/

/-- `http.Error` -/
def httpError (h : Header) (message : String) (status : Nat) : Response where
  status := status
  headers := h.setAll [("Content-Type", "text/plain; charset=utf-8"),
    ("X-Content-Type-Options", "nosniff")]
  body := .raw (message ++ "\n")

/-- The headers of a response that a handler writes on top of those set before. -/
def Header.under (h : Header) (response : Response) : Response :=
  { response with headers := h.setAll response.headers }

/-- A request for the head alone is answered without the body. -/
def withoutBody (method : String) (response : Response) : Response :=
  if method = "HEAD" then { response with body := .raw "" } else response

end Nexus.Middleware
