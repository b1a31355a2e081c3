import Nexus.Auth.TokenProperties
import Nexus.Server.RouteProperties

/-! Complete mediation: what stands behind every request that gets past the
guards of a route. Clients may send any header; that they cannot forge an HMAC
means that the text it is valid for is one the server has signed. They may still
spell the HMAC in another way, which the library accepts. -/

set_option autoImplicit false

namespace Nexus.Server

open Nexus.Lib Nexus.Go Nexus.Users Nexus.Auth Nexus.Policy

variable {σ : Type} [UserStore σ]

/-! ## The promise -/

def tokenResponse (token : String) : Response := writeJSON 200 (.obj [("token", .str token)])

/-- The server answered some earlier request with this token. -/
def Issued (past : List (Transition (World σ) Incoming Reply)) (token : String) : Prop :=
  ∃ t ∈ past, t.output.response = some (tokenResponse token)

/-- The text of a token with a valid HMAC under the service's key is that of a
token the server answered with. -/
def NoForgery (p : Platform) (past : List (Transition (World σ) Incoming Reply))
    (next : Transition (World σ) Incoming Reply) : Prop :=
  ∀ method token, method.isHMAC = true →
    extractBearerToken next.event.request = some token →
    p.service.jwt.verify method p.service.signingKey token = true →
    ∃ issued, Issued past issued ∧ SameContent token issued

/-- A login of at most 24 hours before `now` that issued the token, to the user
the claims describe. -/
structure IssuingLogin (p : Platform) (t : Transition (World σ) Incoming Reply)
    (token : String) (claims : Claims) (now : Time) (req : LoginRequest) (u : User) : Prop where
  route : t.event.route = .login (some req)
  answer : t.output.response = some (tokenResponse token)
  stored : UserStore.getUserByUsername t.before.store req.username = .ok u
  password : p.service.bcrypt.compareHashAndPassword u.passwordHash req.password = .ok ()
  active : u.status = statusActive
  userID : claims.userID = u.id
  username : claims.username = u.username
  role : claims.role = u.role
  recent : now - t.event.env.now ≤ 24 * hour

/-- A protected route enters its handler only for a bearer of an issued token, up
to the spelling of its HMAC, whose role the route admits, and otherwise refuses
without a trace. -/
structure Mediated (p : Platform) (past : List (Transition (World σ) Incoming Reply))
    (next : Transition (World σ) Incoming Reply) : Prop where
  entered : ∀ ctx, next.output.entered = some ctx →
    ∃ claims token issued, ctx = some claims ∧
      extractBearerToken next.event.request = some token ∧ SameSegments token issued ∧
      next.event.route.access.admits claims.role ∧
      ∃ t ∈ past, ∃ req u, IssuingLogin p t issued claims next.event.env.now req u
  refused : next.output.entered = none →
    (∃ response, next.output.response = some response ∧
      (response.status = 401 ∨ response.status = 403)) ∧ next.after = next.before

/-! ## Only a login answers with a token -/

variable {p : Platform}

theorem login_token {body : Option LoginRequest} {env : Env} {r : HttpRequest} {ctx : Context}
    {w : World σ} {token : String}
    (answered : (Auth.Handler.login p body env r ctx w).2.response =
      some (tokenResponse token)) :
    ∃ req u, body = some req ∧
      (p.service.login env w.store req.input).result = .ok (token, u) := by
  cases body with
  | none =>
      simp [Auth.Handler.login, respond, tokenResponse, writeError, writeJSON] at answered
  | some req =>
      cases loggedIn : (p.service.login env w.store req.input).result with
      | error err =>
          simp only [Auth.Handler.login, loggedIn] at answered
          split at answered <;>
            simp [respond, tokenResponse, writeError, writeJSON] at answered
      | ok issued =>
          obtain ⟨signed, u⟩ := issued
          simp [Auth.Handler.login, loggedIn, respond, tokenResponse, writeJSON] at answered
          exact ⟨req, u, rfl, by rw [← answered, loggedIn]⟩

theorem handler_token {route : Route} {env : Env} {r : HttpRequest} {ctx : Context}
    {w : World σ} {token : String}
    (answered : (route.handler p env r ctx w).2.response = some (tokenResponse token)) :
    ∃ req u, route = .login (some req) ∧
      (p.service.login env w.store req.input).result = .ok (token, u) := by
  cases route with
  | login body =>
      simp only [Route.handler] at answered
      obtain ⟨req, u, rfl, loggedIn⟩ := login_token answered
      exact ⟨req, u, rfl, loggedIn⟩
  | register body =>
      simp only [Route.handler, Auth.Handler.register, registerError] at answered
      (repeat' split at answered) <;>
        simp [respond, tokenResponse, writeError, writeJSON] at answered
  | mfaVerify body =>
      simp only [Route.handler, Auth.Handler.mfaVerify] at answered
      (repeat' split at answered) <;>
        simp [respond, panicked, tokenResponse, writeError, writeJSON] at answered
  | createPolicy body =>
      simp only [Route.handler, Policy.Handler.createPolicy] at answered
      (repeat' split at answered) <;>
        simp [respond, panicked, tokenResponse, writeError, writeJSON, policyJson] at answered
  | deletePolicy id =>
      simp only [Route.handler, Policy.Handler.deletePolicy] at answered
      (repeat' split at answered) <;>
        simp [respond, panicked, tokenResponse, writeError, writeJSON] at answered
  | checkAccess body =>
      simp only [Route.handler, Policy.Handler.checkAccess] at answered
      (repeat' split at answered) <;>
        simp [respond, tokenResponse, writeError, writeJSON, resultJson] at answered
  | health | me | mfaSetup | adminOnly | userOrAdmin | listUsers | listPolicies | listAudit =>
      simp only [Route.handler, Server.health, Auth.Handler.me, Auth.Handler.mfaSetup,
        Auth.Handler.adminOnly, Auth.Handler.userOrAdmin, Auth.Handler.listUsers,
        Policy.Handler.listPolicies, Audit.Handler.list, greeting] at answered
      (repeat' split at answered) <;>
        simp [respond, panicked, tokenResponse, writeError, writeJSON,
          publicUserJson] at answered

/-- Every token the server answers with was signed by a login that succeeded. -/
theorem step_token {w : World σ} {incoming : Incoming} {token : String}
    (answered : ((server p).step w incoming).2.response = some (tokenResponse token)) :
    ∃ req u, incoming.route = .login (some req) ∧
      (p.service.login incoming.env w.store req.input).result = .ok (token, u) := by
  cases server_step (p := p) w incoming with
  | refused _ _ status result =>
      rw [result] at answered
      have refusal := congrArg Response.status (Option.some.inj answered)
      rw [tokenResponse, writeJSON_status] at refusal
      omega
  | limited _ _ result =>
      rw [result] at answered
      have refusal := congrArg Response.status (Option.some.inj answered)
      cases refusal
  | entered ctx _ _ result =>
      rw [result, observed_response] at answered
      exact handler_token answered

/-- Whoever presents the content of a token that the server answered with has its
HMAC, and the login behind it. -/
theorem issuingLogin_of_content (sound : p.service.jwt.Sound)
    {hmac : SigningMethod → Key → String → List UInt8}
    (segmented : p.service.jwt.Segmented hmac) {w : World σ} {incoming : Incoming}
    {token issued : String} {claims : Claims} {now : Time}
    (answered : ((server p).step w incoming).2.response = some (tokenResponse issued))
    (content : SameContent token issued)
    (valid : p.service.validateToken now token = .ok claims) :
    SameSegments token issued ∧
      ∃ req u, IssuingLogin p ((server p).fire w incoming) issued claims now req u := by
  obtain ⟨req, u, route, loggedIn⟩ := step_token answered
  obtain ⟨stored, password, active, signed⟩ := login_ok_iff.mp loggedIn
  obtain ⟨method, accepts⟩ := validateToken_ok valid
  obtain ⟨same, genuine⟩ := accepts.generated sound segmented signed content
  obtain ⟨rfl, unexpired⟩ := claims_of_generateJWT sound signed genuine.validates
  have recent : now - incoming.env.now ≤ 24 * hour :=
    Int.sub_left_le_of_le_add (Int.le_of_lt unexpired)
  exact ⟨same, req, u, route, answered, stored, password, active, rfl, rfl, rfl, recent⟩

/-! ## The verdict -/

/-- Against clients that cannot forge HMACs every protected route is mediated,
at each moment of every run. -/
theorem complete_mediation (p : Platform) (sound : p.service.jwt.Sound)
    {hmac : SigningMethod → Key → String → List UInt8} (segmented : p.service.jwt.Segmented hmac)
    (start : World σ) (events : List Incoming)
    (noForgery : (server p).Always (NoForgery p) start events) :
    (server p).Always (fun past next => next.event.route.access ≠ .anyone →
      Mediated p past next) start events := by
  intro past incoming future split guarded
  have genuine := noForgery past incoming future split
  cases server_step (p := p) ((server p).run start past) incoming with
  | refused _ _ status result =>
      refine ⟨?_, ?_⟩ <;> rw [Machine.fire_output, result]
      · exact nofun
      · exact fun _ => ⟨⟨_, rfl, status⟩, congrArg Prod.fst result⟩
  | limited route =>
      rw [Machine.fire_event, route] at guarded
      exact absurd rfl guarded
  | entered ctx authorized _ result =>
      refine ⟨?_, ?_⟩ <;> rw [Machine.fire_output, result, observed_entered]
      · intro entered same
        cases same
        cases ctx with
        | none => exact absurd authorized guarded
        | some claims =>
            obtain ⟨_, known, admitted⟩ := authorized
            obtain ⟨token, presented, valid⟩ := caller_eq_some_iff.mp known
            obtain ⟨method, accepts⟩ := validateToken_ok valid
            obtain ⟨issued, ⟨t, member, answered⟩, content⟩ :=
              genuine method token accepts.hmac presented accepts.signed
            obtain ⟨before, login, _, _, rfl⟩ := (server p).mem_trace member
            obtain ⟨same, req, u, issuing⟩ :=
              issuingLogin_of_content sound segmented answered content valid
            exact ⟨claims, token, issued, rfl, presented, same, admitted, _, member, req, u,
              issuing⟩
      · exact nofun

/-- Alice logs in at the start of time. -/
def aliceLogsIn : Incoming where
  env := plainEnv 0 "t-1"
  request := { remoteAddr := "192.0.2.7:50000" }
  route := .login (some { username := "alice", password := "hunter22" })

/-- A server whose tokens have three segments. -/
def segmentedPlatform : Platform :=
  { plainPlatform with service := { plainService with jwt := segmentedJwt aliceClaims } }

/-- Alice's token ends in "AA", which is her HMAC; so is "AB", if the last bits
are ignored. -/
def aliceRespells : Incoming where
  env := plainEnv minute "n-1"
  request := { authorization := "Bearer jwt.claims.AB", remoteAddr := "192.0.2.7:50001" }
  route := .listUsers

theorem sameContent_respelled : SameContent "jwt.claims.AB" "jwt.claims.AA" :=
  ⟨⟨"jwt.claims", [0]⟩, ⟨"jwt.claims", [0]⟩, by decide +kernel, by decide +kernel, rfl⟩

theorem complete_mediation_alice :
    ((server segmentedPlatform).step ((server segmentedPlatform).step plainWorld aliceLogsIn).1
        aliceRespells).2.entered = some (some aliceClaims) ∧
      (server segmentedPlatform).Always (fun past next => next.event.route.access ≠ .anyone →
        Mediated segmentedPlatform past next) plainWorld [aliceLogsIn, aliceRespells] := by
  refine ⟨by decide +kernel, ?_⟩
  refine complete_mediation segmentedPlatform (segmentedJwt_sound aliceClaims)
    (segmentedJwt_segmented aliceClaims) plainWorld _ ?_
  rw [Machine.always_cons_iff, Machine.always_cons_iff]
  refine ⟨?_, ?_, Machine.always_nil _ _⟩
  · intro method token _ presented
    cases presented
  · intro method token _ presented _
    have known : extractBearerToken aliceRespells.request = some "jwt.claims.AB" := by decide
    cases known.symm.trans presented
    have answered : ((server segmentedPlatform).step plainWorld aliceLogsIn).2.response =
        some (tokenResponse "jwt.claims.AA") := rfl
    exact ⟨"jwt.claims.AA", ⟨_, List.mem_cons_self, answered⟩, sameContent_respelled⟩

end Nexus.Server
