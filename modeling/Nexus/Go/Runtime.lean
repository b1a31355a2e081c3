import Nexus.Lib.GoMap

/-! What a request takes from its surroundings: the clock, random draws and
the order in which `range` walks a map; and Go's error values.

An instant counts nanoseconds since the Unix epoch; `Time.unix` and
`Time.truncate` round down to whole seconds. An error is its text and the
sentinels `errors.Is` finds in its chain, `Sentinel` being the package's own
set of them. -/

set_option autoImplicit false

namespace Nexus.Go

open Nexus.Lib

abbrev Time := Int

def second : Int := 1000000000

def minute : Int := 60 * second

def hour : Int := 60 * minute

def Time.unix (t : Time) : Int := t / second

def Time.truncate (t : Time) : Time := Time.unix t * second

theorem Time.truncate_le (t : Time) : Time.truncate t ≤ t :=
  Int.ediv_mul_le t (by decide)

structure Error (Sentinel : Type) where
  text : String
  chain : List Sentinel
  deriving DecidableEq

def Error.is {Sentinel : Type} [DecidableEq Sentinel] (err : Error Sentinel)
    (target : Sentinel) : Bool :=
  decide (target ∈ err.chain)

/-- The draws one request makes. Every request has its own, so a run sees any
clock, any identifiers and any iteration orders. -/
structure Env where
  now : Time
  newID : String -- `uuid.New` for the record the request creates
  storeID : String -- `uuid.New` inside a store given a record without ID
  eventID : String -- `uuid.New` for the audit event
  salt : List UInt8 -- drawn by bcrypt
  randRead : (size : Nat) → Option (Vector UInt8 size) -- `none` is an error
  range : {κ ν : Type} → (map : GoMap κ ν) → map.Order
  redisUp : Bool -- whether Redis answers the commands of this request

end Nexus.Go
