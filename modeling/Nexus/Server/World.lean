import Nexus.Audit.Logger
import Nexus.Auth.Service
import Nexus.Policy.Engine
import Nexus.Security.RateLimit

/-! What the handlers share: the mutable state of the server, the parameters
that stand for cryptographic libraries, and the shape of a handler. -/

set_option autoImplicit false

namespace Nexus.Server

open Nexus.Go Nexus.Auth Nexus.Audit Nexus.Policy Nexus.Security

/-- The state behind the handlers, over any implementation of `UserStore`. -/
structure World (σ : Type) where
  store : σ
  engine : Engine
  audit : MemoryLogger
  limiter : Limiter

def World.log {σ : Type} (w : World σ) (env : Env) (event : Event) : World σ :=
  { w with audit := w.audit.log env event }

@[simp] theorem World.log_store {σ : Type} (w : World σ) (env : Env) (event : Event) :
    (w.log env event).store = w.store := rfl

@[simp] theorem World.log_engine {σ : Type} (w : World σ) (env : Env) (event : Event) :
    (w.log env event).engine = w.engine := rfl

@[simp] theorem World.log_limiter {σ : Type} (w : World σ) (env : Env) (event : Event) :
    (w.log env event).limiter = w.limiter := rfl

structure Platform where
  service : Service
  hmacSHA1 : List UInt8 → List UInt8 → Vector UInt8 20
  unicode : UnicodeTables

/-- The parts of an HTTP request every handler sees. A missing header is empty. -/
structure HttpRequest where
  authorization : String := ""
  remoteAddr : String := ""
  userAgent : String := ""

/-- The claims that `ClaimsFromContext` finds. -/
abbrev Context := Option Claims

/-- How a request ended. A handler that panics sends no response. `entered` is
an observation, not a value of the source: the context with which the handler
registered for the route was entered, if it was. -/
structure Reply where
  response : Option Response
  entered : Option Context := none

abbrev HandlerFunc (σ : Type) := Env → HttpRequest → Context → World σ → World σ × Reply

def respond (response : Response) : Reply where
  response := some response

def panicked : Reply where
  response := none

/-- Marks the handler a route is registered for. -/
def observed {σ : Type} (handler : HandlerFunc σ) : HandlerFunc σ :=
  fun env r ctx w =>
    let (w, reply) := handler env r ctx w
    (w, { reply with entered := some ctx })

end Nexus.Server
