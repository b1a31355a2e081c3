import Nexus.Server.RouteProperties
import Nexus.Audit.LoggerProperties
import Nexus.Auth.Hashing

/-! What a failed login gives away: nothing in its response and its audit
event, but whether the username exists by the work it causes. -/

set_option autoImplicit false

namespace Nexus.Server

open Nexus.Lib Nexus.Go Nexus.Users Nexus.Auth Nexus.Audit

variable {σ τ : Type} [UserStore σ] [UserStore τ]

/-! ## Responses -/

/-- Signing a token is reached and fails. -/
def TokenFails (svc : Service) (env : Env) (store : σ) (input : LoginInput) : Prop :=
  ∃ u err, UserStore.getUserByUsername store input.username = .ok u ∧
    svc.bcrypt.compareHashAndPassword u.passwordHash input.password = .ok () ∧
    u.status = statusActive ∧ svc.generateJWT env u = .error err

/-- The login fails, and not because of its token. -/
structure Refuses (svc : Service) (env : Env) (store : σ) (input : LoginInput) : Prop where
  failed : ∀ token u, (svc.login env store input).result ≠ .ok (token, u)
  reached : ¬ TokenFails svc env store input

theorem Refuses.invalidCredentials {svc : Service} {env : Env} {store : σ} {input : LoginInput}
    (refuses : Refuses svc env store input) :
    ∃ err, (svc.login env store input).result = .error err ∧
      err.is .invalidCredentials = true := by
  obtain ⟨failed, reached⟩ := refuses
  cases found : UserStore.getUserByUsername store input.username with
  | error err =>
      refine ⟨errInvalidCredentials, ?_, rfl⟩
      simp only [Service.login, found]
  | ok u =>
      cases compared : svc.bcrypt.compareHashAndPassword u.passwordHash input.password with
      | error err =>
          refine ⟨errInvalidCredentials, ?_, rfl⟩
          simp only [Service.login, found, compared]
      | ok _ =>
          by_cases active : u.status = statusActive
          · cases issued : svc.generateJWT env u with
            | error err => exact absurd ⟨u, err, found, compared, active, issued⟩ reached
            | ok token =>
                have succeeded := login_ok_iff.mpr ⟨found, compared, active, issued⟩
                exact absurd succeeded (failed token u)
          · refine ⟨wrapBefore errInvalidCredentials s!"account is {u.status}", ?_, rfl⟩
            simp only [Service.login, found, compared, active, ne_eq, not_false_eq_true,
              if_true]

/-- The audit event of a refused login. -/
def loginFailed (r : HttpRequest) (req : LoginRequest) : Event where
  action := actionLoginFailed
  ipAddress := r.remoteAddr
  userAgent := r.userAgent
  metadata := [("username", req.username)]

theorem login_refused {p : Platform} {req : LoginRequest} {env : Env} {r : HttpRequest}
    {ctx : Context} {w : World σ} (refuses : Refuses p.service env w.store req.input) :
    Auth.Handler.login p (some req) env r ctx w =
      (w.log env (loginFailed r req), respond (writeError 401 "invalid credentials")) := by
  obtain ⟨err, result, invalid⟩ := refuses.invalidCredentials
  simp only [Auth.Handler.login, result, invalid, if_true]
  rfl

/-- Two refused logins with one body get one response, headers included, and
leave the same audit events up to their IDs and timestamps, whatever the two
stores hold and why ever they refuse. -/
theorem failures_indistinguishable (p : Platform) (body : Option LoginRequest)
    (r : HttpRequest) (ctx : Context) (env other : Env) (w : World σ) (v : World τ)
    (refused : ∀ req, body = some req → Refuses p.service env w.store req.input)
    (alsoRefused : ∀ req, body = some req → Refuses p.service other v.store req.input) :
    (Auth.Handler.login p body env r ctx w).2 = (Auth.Handler.login p body other r ctx v).2 ∧
      ∃ events others,
        (Auth.Handler.login p body env r ctx w).1.audit.events = w.audit.events ++ events ∧
        (Auth.Handler.login p body other r ctx v).1.audit.events = v.audit.events ++ others ∧
        events.map Event.anonymous = others.map Event.anonymous := by
  cases body with
  | none => exact ⟨rfl, [], [], (List.append_nil _).symm, (List.append_nil _).symm, rfl⟩
  | some req =>
      rw [login_refused (refused req rfl), login_refused (alsoRefused req rfl)]
      refine ⟨rfl, [(loginFailed r req).filled env], [(loginFailed r req).filled other],
        rfl, rfl, ?_⟩
      rw [List.map_singleton, List.map_singleton, Event.anonymous_filled,
        Event.anonymous_filled]

/-- A store in which the right password of alice does not help her. -/
def suspendedWorld : World MemoryUserStore :=
  let suspended := { alice with status := statusSuspended, passwordHash := "$2a$letmein!" }
  { plainWorld with
    store := { byID := .singleton "u-1" suspended, byUsername := .singleton "alice" suspended } }

def aliceGuesses : LoginRequest where
  username := "alice"
  password := "letmein!"

theorem failures_indistinguishable_suspended :
    (Auth.Handler.login plainPlatform (some aliceGuesses) (plainEnv 0 "n-1") {} none
        plainWorld).2 =
      (Auth.Handler.login plainPlatform (some aliceGuesses) (plainEnv minute "n-2") {} none
        suspendedWorld).2 := by
  refine (failures_indistinguishable plainPlatform (some aliceGuesses) {} none _ _ plainWorld
    suspendedWorld ?_ ?_).1
  · intro req same
    cases same
    refine ⟨?_, ?_⟩
    · intro token u succeeded
      cases succeeded
    · intro fails
      obtain ⟨u, err, found, compared, _⟩ := fails
      cases found
      cases compared
  · intro req same
    cases same
    refine ⟨?_, ?_⟩
    · intro token u succeeded
      cases succeeded
    · intro fails
      obtain ⟨u, err, found, _, active, _⟩ := fails
      cases found
      exact absurd active (by decide)

/-! ## Work -/

/-- Two logins cause the same key derivations exactly when both usernames are
known to their stores or neither is. -/
theorem login_work_iff (derive : List UInt8 → Nat → List UInt8 → Vector UInt8 23)
    (svc : Service) (real : svc.bcrypt = xcrypto derive) (first : σ) (second : τ)
    (hashed : HashedByRegister svc.bcrypt first)
    (alsoHashed : HashedByRegister svc.bcrypt second) (env other : Env)
    (input another : LoginInput) :
    (svc.login env first input).derivations derive =
        (svc.login other second another).derivations derive ↔
      (Known first input.username ↔ Known second another.username) := by
  by_cases known : Known first input.username <;>
    by_cases alsoKnown : Known second another.username
  · rw [derivations_of_known real hashed known, derivations_of_known real alsoHashed alsoKnown]
    exact ⟨fun _ => ⟨fun _ => alsoKnown, fun _ => known⟩, fun _ => rfl⟩
  · rw [derivations_of_known real hashed known, derivations_of_unknown svc alsoKnown]
    exact ⟨fun same => absurd same (by decide), fun same => absurd (same.mp known) alsoKnown⟩
  · rw [derivations_of_unknown svc known, derivations_of_known real alsoHashed alsoKnown]
    exact ⟨fun same => absurd same (by decide), fun same => absurd (same.mpr alsoKnown) known⟩
  · rw [derivations_of_unknown svc known, derivations_of_unknown svc alsoKnown]
    exact ⟨fun _ => ⟨fun some => absurd some known, fun some => absurd some alsoKnown⟩,
      fun _ => rfl⟩

/-- A key derivation that repeats the password. -/
def plainDerive (password : List UInt8) (_ : Nat) (_ : List UInt8) : Vector UInt8 23 :=
  .ofFn fun i => password.getD i 0

def hashingService : Service := { plainService with bcrypt := xcrypto plainDerive }

/-- The store after alice registered. -/
def aliceRegistered : MemoryUserStore :=
  (hashingService.register (plainEnv 0 "u-1") MemoryUserStore.new
    { username := "alice", password := "hunter22", role := roleAdmin }).1

theorem aliceRegistered_hashed : HashedByRegister hashingService.bcrypt aliceRegistered :=
  register_hashedByRegister (new_hashedByRegister _) _ _

theorem unknown_user_costs_nothing :
    ¬ ∀ (first second : MemoryUserStore) (input : LoginInput),
      HashedByRegister hashingService.bcrypt first →
      HashedByRegister hashingService.bcrypt second →
      (hashingService.login (plainEnv 0 "t-1") first input).result.isOk = false →
      (hashingService.login (plainEnv 0 "t-1") second input).result.isOk = false →
      (hashingService.login (plainEnv 0 "t-1") first input).derivations plainDerive =
        (hashingService.login (plainEnv 0 "t-1") second input).derivations plainDerive := by
  intro sameWork
  have same := sameWork .new aliceRegistered aliceGuesses.input (new_hashedByRegister _)
    aliceRegistered_hashed (by decide) (by decide)
  exact absurd same (by decide)

theorem login_work_alice :
    (hashingService.login (plainEnv 0 "t-1") aliceRegistered aliceGuesses.input).derivations
        plainDerive =
      (hashingService.login (plainEnv minute "t-2") aliceRegistered
        { username := "alice", password := "hunter22" }).derivations plainDerive :=
  (login_work_iff plainDerive hashingService rfl aliceRegistered aliceRegistered
    aliceRegistered_hashed aliceRegistered_hashed _ _ _ _).mpr Iff.rfl

end Nexus.Server
