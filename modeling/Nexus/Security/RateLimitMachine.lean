import Nexus.Lib.Machine
import Nexus.Security.RateLimit

/-! Calls of the login limiter, and what the failures recorded for an address
say about it. -/

set_option autoImplicit false

namespace Nexus.Security

open Nexus.Lib Nexus.Go

inductive LimiterMethod where
  | recordFailedLogin
  | isRateLimited
  | resetFailedLogins
  deriving DecidableEq

structure LimiterCall where
  env : Env
  method : LimiterMethod
  ip : String

inductive LimiterAnswer where
  | recorded (result : Except String (Int × Bool))
  | checked (result : Except String Bool)
  | reset (result : Except String Unit)

def limiting : Machine Limiter LimiterCall LimiterAnswer where
  step limiter call :=
    match call.method with
    | .recordFailedLogin =>
        let (limiter, result) := limiter.recordFailedLogin call.env call.ip
        (limiter, .recorded result)
    | .isRateLimited => (limiter, .checked (limiter.isRateLimited call.env call.ip))
    | .resetFailedLogins =>
        let (limiter, result) := limiter.resetFailedLogins call.env call.ip
        (limiter, .reset result)

/-- How a call changes the failures of an address. -/
def LimiterCall.tally (ip : String) (failures : List Time) (call : LimiterCall) : List Time :=
  if call.ip = ip then
    match call.method with
    | .recordFailedLogin => call.env.now :: failures
    | .isRateLimited => failures
    | .resetFailedLogins => []
  else failures

/-- When the logins recorded for an address since its last reset failed, latest
first. -/
def failuresOf (ip : String) (calls : List LimiterCall) : List Time :=
  calls.foldl (LimiterCall.tally ip) []

/-- Two failures fewer than 15 minutes apart. -/
def Close (later earlier : Time) : Prop := later - earlier < lockoutDuration

instance : DecidableRel Close := fun later earlier =>
  inferInstanceAs (Decidable (later - earlier < lockoutDuration))

/-- The latest failure is fewer than 15 minutes old and ends a chain of at least
five, each fewer than 15 minutes after the one before. -/
def LockedOut (failures : List Time) (now : Time) : Prop :=
  ∃ chain, chain <+: failures ∧ maxLoginAttempts ≤ chain.length ∧ chain.IsChain Close ∧
    ∀ latest ∈ chain.head?, Close now latest

/-- At least five failures happened within the last 15 minutes. -/
def WindowFull (failures : List Time) (now : Time) : Prop :=
  maxLoginAttempts ≤ (failures.filter (Close now ·)).length

/-- The latest failures, as many as lock an address out. -/
def recent (failures : List Time) : List Time := failures.take maxLoginAttempts.toNat

/-- The five latest failures form a chain up to now, of which a part is older
than 15 minutes. -/
def Stretched (failures : List Time) (now : Time) : Prop :=
  maxLoginAttempts ≤ failures.length ∧ (now :: recent failures).IsChain Close ∧
    ∃ failure ∈ recent failures, ¬ Close now failure

end Nexus.Security
