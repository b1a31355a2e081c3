import Nexus.Go.Runtime

/-! The login limiter over Redis. A Redis key holds a counter and possibly a
deadline, and exists strictly before that deadline. `Limiter.disabled` is
`NilRateLimiter`. -/

set_option autoImplicit false

namespace Nexus.Security

open Nexus.Lib Nexus.Go

structure Counter where
  value : Int
  deadline : Option Time := none
  deriving DecidableEq

def Counter.live (counter : Counter) (now : Time) : Bool :=
  match counter.deadline with
  | none => true
  | some deadline => decide (now < deadline)

abbrev Redis := GoMap String Counter

namespace Redis

def find (redis : Redis) (now : Time) (key : String) : Option Counter :=
  (redis.lookup key).filter (·.live now)

def get (redis : Redis) (now : Time) (key : String) : Option Int :=
  (redis.find now key).map (·.value)

def incr (redis : Redis) (now : Time) (key : String) : Redis × Int :=
  match redis.find now key with
  | none => (redis.insert key { value := 1 }, 1)
  | some counter =>
      (redis.insert key { counter with value := counter.value + 1 }, counter.value + 1)

def expire (redis : Redis) (now : Time) (key : String) (duration : Int) : Redis :=
  match redis.find now key with
  | none => redis
  | some counter => redis.insert key { counter with deadline := some (now + duration) }

def del (redis : Redis) (key : String) : Redis := redis.erase key

end Redis

def maxLoginAttempts : Int := 5

def lockoutDuration : Int := 15 * minute

def loginKey (ip : String) : String := s!"nexus:rate:login:{ip}"

inductive Limiter where
  | disabled
  | redis (client : Redis)

namespace Limiter

def recordFailedLogin (env : Env) (ip : String) : Limiter → Limiter × Except String (Int × Bool)
  | disabled => (disabled, .ok (0, false))
  | redis client =>
      if env.redisUp then
        let key := loginKey ip
        let (client, count) := client.incr env.now key
        let client := client.expire env.now key lockoutDuration
        (redis client, .ok (count, decide (count ≥ maxLoginAttempts)))
      else (redis client, .error "rate limiter: redis pipeline failed")

def isRateLimited (env : Env) (ip : String) : Limiter → Except String Bool
  | disabled => .ok false
  | redis client =>
      if env.redisUp then
        match client.get env.now (loginKey ip) with
        | none => .ok false
        | some count => .ok (decide (count ≥ maxLoginAttempts))
      else .error "rate limiter: redis get failed"

def resetFailedLogins (env : Env) (ip : String) : Limiter → Limiter × Except String Unit
  | disabled => (disabled, .ok ())
  | redis client =>
      if env.redisUp then (redis (client.del (loginKey ip)), .ok ())
      else (redis client, .error "redis del failed")

end Limiter

end Nexus.Security
