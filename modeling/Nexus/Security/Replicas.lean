import Nexus.Lib.Machine
import Nexus.Security.RateLimit

/-! Server replicas that share one Redis, command by command. The pipeline of
`RecordFailedLogin` is not a transaction: Redis executes its INCR and its EXPIRE
one after the other, with commands of other calls in between, and the connection
may fail after any prefix of it. A call in progress is named by its position. -/

set_option autoImplicit false

namespace Nexus.Security

open Nexus.Lib Nexus.Go

/-- How far Redis has got with a pipeline, and the reply to its INCR. -/
inductive Stage where
  | queued
  | incremented (count : Int)
  | expired (count : Int)
  deriving DecidableEq

structure Recording where
  key : String
  stage : Stage

structure Replicas where
  client : Redis
  clock : Time
  inProgress : List Recording

def Replicas.new (clock : Time) : Replicas where
  client := ∅
  clock := clock
  inProgress := []

inductive ReplicaEvent where
  | pass (elapsed : Nat)
  | recordFailedLogin (ip : String)
  | execute (position : Nat) -- the next command of a pipeline
  | finish (position : Nat)
  | fail (position : Nat) -- the connection of a pipeline fails
  | isRateLimited (ip : String) (answered : Bool)
  | resetFailedLogins (ip : String) (executed answered : Bool)

def Recording.execute (clock : Time) (client : Redis) (recording : Recording) :
    Redis × Recording :=
  match recording.stage with
  | .queued =>
      let (client, count) := client.incr clock recording.key
      (client, { recording with stage := .incremented count })
  | .incremented count =>
      (client.expire clock recording.key lockoutDuration,
        { recording with stage := .expired count })
  | .expired _ => (client, recording)

/-- What a call answers, if it has just returned. -/
inductive ReplicaAnswer where
  | silent
  | recorded (result : Except String (Int × Bool))
  | checked (result : Except String Bool)
  | reset (result : Except String Unit)

def replicas : Machine Replicas ReplicaEvent ReplicaAnswer where
  step s
    | .pass elapsed => ({ s with clock := s.clock + elapsed }, .silent)
    | .recordFailedLogin ip =>
        ({ s with inProgress := s.inProgress ++ [{ key := loginKey ip, stage := .queued }] },
          .silent)
    | .execute position =>
        match s.inProgress[position]? with
        | none => (s, .silent)
        | some recording =>
            let (client, recording) := recording.execute s.clock s.client
            ({ s with client := client, inProgress := s.inProgress.set position recording },
              .silent)
    | .finish position =>
        match s.inProgress[position]? with
        | some ⟨_, .expired count⟩ =>
            ({ s with inProgress := s.inProgress.eraseIdx position },
              .recorded (.ok (count, decide (count ≥ maxLoginAttempts))))
        | _ => (s, .silent)
    | .fail position =>
        match s.inProgress[position]? with
        | none => (s, .silent)
        | some _ =>
            ({ s with inProgress := s.inProgress.eraseIdx position },
              .recorded (.error "rate limiter: redis pipeline failed"))
    | .isRateLimited ip answered =>
        (s, .checked
          (if answered then
            match s.client.get s.clock (loginKey ip) with
            | none => .ok false
            | some count => .ok (decide (count ≥ maxLoginAttempts))
          else .error "rate limiter: redis get failed"))
    | .resetFailedLogins ip executed answered =>
        (if executed then { s with client := s.client.del (loginKey ip) } else s,
          .reset (if executed && answered then .ok () else .error "redis del failed"))

/-- Every counter that exists expires, at most 15 minutes ahead. -/
def Replicas.Bounded (s : Replicas) : Prop :=
  ∀ key counter, s.client.find s.clock key = some counter →
    ∃ deadline, counter.deadline = some deadline ∧ deadline ≤ s.clock + lockoutDuration

def Recording.awaits (recording : Recording) (key : String) : Prop :=
  recording.key = key ∧ ∀ count, recording.stage ≠ .expired count

/-- A counter has no deadline, and no call in progress will still set one. -/
def Replicas.Abandons (s : Replicas) (key : String) : Prop :=
  (∃ counter, s.client.lookup key = some counter ∧ counter.deadline = none) ∧
    ∀ recording ∈ s.inProgress, ¬ recording.awaits key

/-- The connection fails before EXPIRE of a key without a deadline, and no other
call in progress is about to set one. -/
def CutsOff (next : Transition Replicas ReplicaEvent ReplicaAnswer) : Prop :=
  ∃ position recording, next.event = .fail position ∧
    next.before.inProgress[position]? = some recording ∧ recording.awaits recording.key ∧
    (∃ counter, next.before.client.lookup recording.key = some counter ∧
      counter.deadline = none) ∧
    ∀ other ∈ next.before.inProgress.eraseIdx position, ¬ other.awaits recording.key

end Nexus.Security
