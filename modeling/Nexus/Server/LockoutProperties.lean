import Nexus.Server.RouteProperties

/-! The lockout after failed logins, seen from outside: which logins are due to
be turned away, by the history of answers alone, and when the server does turn
them away. A client is an address without its port. -/

set_option autoImplicit false

namespace Nexus.Server

open Nexus.Lib Nexus.Go Nexus.Auth Nexus.Security

variable {σ : Type}

/-! ## The promise -/

/-- The host of a `host:port` address. -/
def clientIP (remoteAddr : String) : String :=
  String.ofList ((remoteAddr.toList.reverse.dropWhile (· != ':')).tail.reverse)

example : clientIP "192.0.2.7:50001" = "192.0.2.7" := by decide

def Route.isLogin : Route → Bool
  | .login _ => true
  | _ => false

/-- The status with which a login request of a client was answered. -/
def loginStatus (ip : String) (t : Transition (World σ) Incoming Reply) : Option Nat :=
  if t.event.route.isLogin && clientIP t.event.request.remoteAddr == ip then
    t.output.response.map (·.status)
  else none

def failedWithin (ip : String) (now : Time) (t : Transition (World σ) Incoming Reply) : Bool :=
  loginStatus ip t == some 401 && decide (now - lockoutDuration < t.event.env.now) &&
    decide (t.event.env.now ≤ now)

/-- Five logins of the client failed within the last 15 minutes, and none has
succeeded since the first of them. -/
def LockedOut (past : List (Transition (World σ) Incoming Reply)) (ip : String)
    (now : Time) : Prop :=
  ∃ older recent, past = older ++ recent ∧
    5 ≤ (recent.filter (failedWithin ip now)).length ∧
    ∀ t ∈ recent, loginStatus ip t ≠ some 200

/-- The next request is a login that the history says to turn away. -/
def Due (past : List (Transition (World σ) Incoming Reply)) (incoming : Incoming) : Prop :=
  incoming.route.isLogin = true ∧
    LockedOut past (clientIP incoming.request.remoteAddr) incoming.env.now

def LockoutEnforced (past : List (Transition (World σ) Incoming Reply))
    (next : Transition (World σ) Incoming Reply) : Prop :=
  Due past next.event →
    next.output.response = some rateLimited ∧ next.output.entered = none

/-! ## What the server does -/

/-- Redis already holds an exhausted counter for the very address, port
included, of the request. -/
def CounterExhausted (client : Redis) (incoming : Incoming) : Prop :=
  ∃ count, client.get incoming.env.now (loginKey incoming.request.remoteAddr) = some count ∧
    maxLoginAttempts ≤ count

theorem limited_iff {w : World σ} {client : Redis} {incoming : Incoming}
    (limiter : w.limiter = .redis client) (up : incoming.env.redisUp = true) :
    limited w incoming ↔ CounterExhausted client incoming := by
  unfold limited CounterExhausted Limiter.isRateLimited
  rw [limiter]
  simp only [up, if_true]
  cases client.get incoming.env.now (loginKey incoming.request.remoteAddr) with
  | none => simp
  | some count => simp

variable [UserStore σ] {p : Platform}

/-- A login is turned away exactly when the limiter says so. -/
theorem turned_away_iff {w : World σ} {incoming : Incoming}
    (login : incoming.route.isLogin = true) :
    (((server p).step w incoming).2.response = some rateLimited ∧
        ((server p).step w incoming).2.entered = none) ↔ limited w incoming := by
  obtain ⟨body, route⟩ : ∃ body, incoming.route = .login body := by
    cases route : incoming.route with
    | login body => exact ⟨body, rfl⟩
    | _ =>
        rw [route] at login
        cases login
  constructor
  · intro turnedAway
    have untouched := turnedAway.2
    by_contra unlimited
    have anyone : Authorized p.service incoming none := by
      change incoming.route.access = .anyone
      rw [route]
      rfl
    rw [step_of_authorized anyone (fun _ _ => unlimited), observed_entered] at untouched
    cases untouched
  · intro exhausted
    rw [step_of_limited route exhausted]
    exact ⟨rfl, rfl⟩

/-- With Redis up, the promise is kept throughout a run exactly when every
login that falls due finds its own address already locked in the Redis of the
start: no request ever counts a failure. From an empty Redis it is kept only
by runs in which no login falls due. -/
theorem lockout_enforced_iff (p : Platform) (start : World σ) (client : Redis)
    (limiter : start.limiter = .redis client) (events : List Incoming)
    (up : ∀ incoming ∈ events, incoming.env.redisUp = true) :
    ((server p).Always LockoutEnforced start events ↔
        (server p).Always (fun past next => Due past next.event →
          CounterExhausted client next.event) start events) ∧
      (client = ∅ → ((server p).Always LockoutEnforced start events ↔
        (server p).Always (fun past next => ¬ Due past next.event) start events)) := by
  have kept : (server p).Always LockoutEnforced start events ↔
      (server p).Always (fun past next => Due past next.event →
        CounterExhausted client next.event) start events := by
    apply Machine.Always.congr
    intro past incoming member
    have unchanged := (run_limiter (p := p) start past).trans limiter
    apply imp_congr_right
    intro due
    exact (turned_away_iff due.1).trans (limited_iff unchanged (up incoming member))
  refine ⟨kept, ?_⟩
  intro empty
  subst empty
  refine kept.trans (Machine.Always.congr ?_)
  intro past incoming _
  constructor
  · intro exhausted due
    obtain ⟨count, found, _⟩ := exhausted due
    cases found
  · intro never due
    exact absurd due never

/-- Somebody guesses a password. -/
def guess (port : String) : Incoming where
  env := plainEnv minute "n-1"
  request := { remoteAddr := "203.0.113.9:" ++ port }
  route := .login (some { username := "alice", password := "letmein!" })

theorem lockout_missed :
    ¬ (server plainPlatform).Always LockoutEnforced plainWorld
      (["40001", "40002", "40003", "40004", "40005", "40006"].map guess) := by
  intro always
  have enforced := always (["40001", "40002", "40003", "40004", "40005"].map guess)
    (guess "40006") [] rfl
  have turnedAway := enforced
    ⟨rfl, [], _, rfl, by decide, by decide⟩
  cases turnedAway.2

theorem lockout_enforced_preloaded :
    (server plainPlatform).Always LockoutEnforced
      { plainWorld with
        limiter := .redis (.singleton (loginKey "203.0.113.9:40001") { value := 5 }) }
      (List.replicate 7 (guess "40001")) := by
  refine (lockout_enforced_iff plainPlatform _
    (.singleton (loginKey "203.0.113.9:40001") { value := 5 }) rfl _ ?_).1.mpr ?_
  · intro incoming member
    rw [List.eq_of_mem_replicate member]
    rfl
  · intro past incoming future split _
    have guessed : incoming = guess "40001" := by
      apply List.eq_of_mem_replicate (n := 7)
      rw [split]
      simp
    rw [guessed, Machine.fire_event]
    exact ⟨5, by decide, by decide⟩

end Nexus.Server
