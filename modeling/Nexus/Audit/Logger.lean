import Nexus.Go.Http

/-! Audit events and the in-memory logger. A missing timestamp is Go's zero
time. `list` computes its slice bounds in wrapping 64-bit arithmetic and
returns `none` where slicing panics. -/

set_option autoImplicit false

namespace Nexus.Audit

open Nexus.Go

abbrev Action := String

def actionUserRegistered : Action := "USER_REGISTERED"
def actionLoginSuccess : Action := "LOGIN_SUCCESS"
def actionLoginFailed : Action := "LOGIN_FAILED"
def actionMFASuccess : Action := "MFA_SUCCESS"
def actionMFAFailed : Action := "MFA_FAILED"
def actionAccessGranted : Action := "ACCESS_GRANTED"
def actionAccessDenied : Action := "ACCESS_DENIED"
def actionPolicyCreated : Action := "POLICY_CREATED"
def actionPolicyDeleted : Action := "POLICY_DELETED"
def actionRateLimitTriggered : Action := "RATE_LIMIT_TRIGGERED"

structure Event where
  id : String := ""
  userID : String := ""
  action : Action
  resource : String := ""
  ipAddress : String := ""
  userAgent : String := ""
  metadata : List (String × String) := []
  timestamp : Option Time := none
  deriving DecidableEq

def Event.toJson (event : Event) : Json :=
  .obj ([("id", .str event.id)] ++ Json.omitEmpty "user_id" event.userID ++
    [("action", .str event.action)] ++ Json.omitEmpty "resource" event.resource ++
    Json.omitEmpty "ip_address" event.ipAddress ++
    Json.omitEmpty "user_agent" event.userAgent ++
    (if event.metadata = [] then []
      else [("metadata", .obj (event.metadata.map fun entry => (entry.1, .str entry.2)))]) ++
    [("timestamp", .time (event.timestamp.getD 0))])

structure MemoryLogger where
  events : List Event

def newMemoryLogger : MemoryLogger where
  events := []

def MemoryLogger.log (m : MemoryLogger) (env : Env) (event : Event) : MemoryLogger :=
  let event := if event.id = "" then { event with id := env.eventID } else event
  let event :=
    if event.timestamp = none then { event with timestamp := some env.now } else event
  { m with events := m.events ++ [event] }

def MemoryLogger.list (m : MemoryLogger) (page pageSize : Int64) :
    Option (List Event × Nat) :=
  let count := m.events.length
  let total := Int64.ofNat count
  if count = 0 then some ([], 0)
  else
    let start := (page - 1) * pageSize
    if start ≥ total then some ([], count)
    else
      let stop := start + pageSize
      let stop := if stop > total then total else stop
      if 0 ≤ start ∧ start ≤ stop then
        some ((m.events.reverse.take stop.toNatClampNeg).drop start.toNatClampNeg, count)
      else none

end Nexus.Audit
