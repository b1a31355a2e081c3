import Nexus.Auth.RegistrationProperties
import Nexus.Frontend.ApiCallsProperties
import Nexus.Server.PerimeterProperties

/-! A newcomer's way from the browser through the server and back: registering,
logging in with the same strings and reading the own profile, whatever others
send in between. -/

set_option autoImplicit false

namespace Nexus.Frontend

open Nexus.Lib Nexus.Go Nexus.Users Nexus.Auth Nexus.Policy Nexus.Server Nexus.JavaScript Json
open Nexus.Audit Nexus.Middleware

variable {p : Platform}

/-! ## Users stay -/

/-- The store knows the user under both keys. -/
structure Holds (store : MemoryUserStore) (u : User) : Prop where
  named : store.byUsername.lookup u.username = some u
  numbered : store.byID.lookup u.id = some u

theorem Holds.createUser {store : MemoryUserStore} {u : User} (held : Holds store u) {env : Env}
    {made : User} (fresh : (stamped env made).id ≠ u.id) :
    Holds (MemoryUserStore.createUser env store made).1 u := by
  refine ⟨MemoryUserStore.createUser_keeps held.named made, ?_⟩
  cases taken : store.byUsername.lookup made.username with
  | some owner =>
      rw [MemoryUserStore.createUser_taken taken]
      exact held.numbered
  | none =>
      rw [MemoryUserStore.createUser_free taken, GoMap.lookup_insert_eq, if_neg fresh.symm]
      exact held.numbered

theorem Holds.register {store : MemoryUserStore} {u : User} (held : Holds store u)
    (svc : Service) {env : Env} (named : env.newID ≠ "") (fresh : env.newID ≠ u.id)
    (input : RegisterInput) : Holds (svc.register env store input).1 u := by
  rw [register_eq]
  cases admitted : svc.newUser env input with
  | error err => exact held
  | ok made =>
      have drawn : made.id = env.newID := by rw [(newUser_ok admitted).record]
      refine held.createUser ?_
      rw [stamped, drawn, if_neg named]
      exact fresh

theorem server_step_holds {w : World MemoryUserStore} {u : User} (held : Holds w.store u)
    {incoming : Incoming} (named : incoming.env.newID ≠ "") (fresh : incoming.env.newID ≠ u.id) :
    Holds ((server p).step w incoming).1.store u := by
  have effect := (server_effect (p := p) w incoming).2
  generalize ((server p).step w incoming).1 = after at effect ⊢
  generalize incoming.route = route at effect
  cases effect with
  | nothing store => rwa [store]
  | creates store => rwa [store]
  | deletes store => rwa [store]
  | registers input store =>
      rw [store]
      exact held.register p.service named fresh input

theorem incoming_env {arriving : Arriving} {incoming : Incoming}
    (found : arriving.incoming = some incoming) : incoming.env = arriving.env := by
  simp only [Arriving.incoming] at found
  split at found
  · cases found
  · split at found
    · cases found
      rfl
    · cases found

/-- Whatever is sent, nobody who was registered is lost. -/
theorem frontDoor_run_holds (corsOrigin : String) {w : World MemoryUserStore} {u : User}
    (held : Holds w.store u) {events : List Arriving}
    (fresh : ∀ arriving ∈ events, arriving.env.newID ∉ ["", u.id]) :
    Holds ((frontDoor p corsOrigin).run w events).store u := by
  have maintained : ∀ (w : World MemoryUserStore) (arriving : Arriving),
      arriving.env.newID ∉ ["", u.id] → Holds w.store u →
      Holds ((frontDoor p corsOrigin).step w arriving).1.store u := by
    intro w arriving fresh held
    rw [List.mem_cons, List.mem_singleton, not_or] at fresh
    rw [frontDoor_state]
    cases found : arriving.incoming with
    | none => exact held
    | some incoming =>
        rw [← incoming_env found] at fresh
        exact server_step_holds held fresh.1 fresh.2
  exact (frontDoor p corsOrigin).run_invariant maintained held fresh

theorem frontDoor_run_limiter (corsOrigin : String) (w : World MemoryUserStore)
    (events : List Arriving) : ((frontDoor p corsOrigin).run w events).limiter = w.limiter := by
  rw [frontDoor_run, run_limiter]

/-! ## Single calls -/

/-- The response of a handler with the headers of the middleware. -/
def shown (p : Platform) (corsOrigin : String) (network : Network) (response : Response) :
    Response :=
  let h : Header :=
    if admits p.unicode (allowedOrigins corsOrigin) network.origin then
      Header.setAll [] (corsFields network.origin)
    else []
  (h.setAll securityFields).under response

/-- A call is a request of its route. -/
def ApiCall.incoming (call : ApiCall) (client : ApiClient) (network : Network) (env : Env) :
    Incoming where
  env := env
  request := {
    authorization := client.bearer call
    remoteAddr := network.remoteAddr
    userAgent := network.userAgent }
  route := call.route

/-- The request of a call. -/
def ApiCall.arriving (call : ApiCall) (client : ApiClient) (network : Network) (env : Env) :
    Arriving where
  env := env
  request := client.request network call

theorem call_step {σ : Type} [UserStore σ] {call : ApiCall} (sendable : call.Sendable)
    (corsOrigin : String) {w after : World σ} {client : ApiClient} {network : Network} {env : Env}
    {reply : Reply}
    (stepped : (server p).step w (call.incoming client network env) = (after, reply)) :
    (frontDoor p corsOrigin).step w (call.arriving client network env) =
      (after, {
        response := reply.response.map (shown p corsOrigin network)
        entered := reply.entered }) := by
  have found : (call.arriving client network env).incoming =
      some (call.incoming client network env) := api_call_arrives client network env sendable
  cases frontDoor_step (p := p) corsOrigin w (call.arriving client network env) with
  | serverWide _ unrouted => exact nomatch unrouted.symm.trans found
  | preflight _ _ unrouted => exact nomatch unrouted.symm.trans found
  | unrouted _ unrouted => exact nomatch unrouted.symm.trans found
  | routed _ incoming same result =>
      cases same.symm.trans found
      have whole : ∀ response, withoutBody (call.arriving client network env).request.method
          response = response := by
        intro response
        have method : (call.arriving client network env).request.method ≠ "HEAD" := by
          cases call <;> simp [ApiCall.arriving, ApiClient.request, ApiCall.options]
        exact if_neg method
      simp only [whole, stepped] at result
      exact result

/-- A call that gets past the guards of its route. -/
theorem call_entered {call : ApiCall} (sendable : call.Sendable) (corsOrigin : String)
    {w after : World MemoryUserStore} {client : ApiClient} {network : Network} {env : Env}
    {ctx : Context} {reply : Reply}
    (authorized : Authorized p.service (call.incoming client network env) ctx)
    (admitted : ∀ body, call.route = .login body →
      ¬ limited w (call.incoming client network env))
    (handled : Route.handler p call.route env (call.incoming client network env).request ctx w =
      (after, reply)) :
    (frontDoor p corsOrigin).step w (call.arriving client network env) =
      (after, {
        response := reply.response.map (shown p corsOrigin network)
        entered := some ctx }) := by
  have stepped : (server p).step w (call.incoming client network env) =
      (after, { reply with entered := some ctx }) := by
    rw [step_of_authorized authorized admitted]
    simp only [observed]
    rw [show Route.handler p (call.incoming client network env).route
      (call.incoming client network env).env (call.incoming client network env).request ctx w =
        (after, reply) from handled]
  exact call_step sendable corsOrigin stepped

/-- What the client's three calls of a newcomer come to on the server. -/
theorem register_created {w after : World MemoryUserStore} {reply : Reply} {env : Env}
    {r : HttpRequest} {ctx : Context} {req : RegisterRequest}
    (stepped : Auth.Handler.register p (some req) env r ctx w = (after, reply))
    (created : reply.response.map Response.status = some 201) :
    ∃ u, p.service.register env w.store {
        username := req.username
        password := req.password
        role := toLower p.unicode (trimSpace req.role) } = (after.store, .ok u) := by
  simp only [Auth.Handler.register] at stepped
  cases result : p.service.register env w.store {
      username := req.username
      password := req.password
      role := toLower p.unicode (trimSpace req.role) } with
  | mk store outcome =>
      rw [result] at stepped
      cases outcome with
      | error err =>
          cases stepped
          simp only [respond, registerError, Option.map_some, Option.some.injEq] at created
          (repeat' split at created) <;> cases created
      | ok u =>
          cases stepped
          exact ⟨u, rfl⟩

theorem register_holds {svc : Service} {env : Env} {before after : MemoryUserStore}
    {input : RegisterInput} {u : User}
    (succeeded : svc.register env before input = (after, .ok u)) :
    Holds after u ∧ u.username = trimSpace input.username ∧ u.role = input.role ∧
      (env.newID ≠ "" → u.id = env.newID) := by
  rw [register_eq] at succeeded
  cases admitted : svc.newUser env input with
  | error err =>
      rw [admitted] at succeeded
      cases succeeded
  | ok made =>
      rw [admitted] at succeeded
      have created : MemoryUserStore.createUser env before made = (after, .ok u) := succeeded
      have record := MemoryUserStore.createUser_ok (congrArg Prod.snd created)
      have fields := (newUser_ok admitted).record
      have username : u.username = made.username := by rw [record]; rfl
      refine ⟨?_, ?_, ?_, ?_⟩
      · cases taken : before.byUsername.lookup made.username with
        | some owner =>
            rw [MemoryUserStore.createUser_taken taken] at created
            cases created
        | none =>
            rw [MemoryUserStore.createUser_free taken] at created
            obtain ⟨stored, _⟩ := Prod.mk.inj created
            refine ⟨?_, ?_⟩ <;> rw [← stored, GoMap.lookup_insert_eq]
            · rw [if_pos username, record]
            · rw [if_pos (by rw [record]), record]
      · rw [username, fields]
      · rw [record, stamped, fields]
      · intro drawn
        rw [record, stamped, fields]
        exact if_neg drawn

/-! ## Three calls -/

variable {corsOrigin : String} {w : World MemoryUserStore} {client : ApiClient} {network : Network}
  {env : Env} {username password role : List ℕ} {u : User}

/-- A user who can log in with this password. -/
structure Enters (svc : Service) (u : User) (password : String) : Prop where
  active : u.status = statusActive
  hashed : ∃ salt, svc.bcrypt.generateFromPassword salt password bcryptCost = .ok u.passwordHash

theorem sign_up (sendable : (ApiCall.register username password role).Sendable)
    {after : World MemoryUserStore} {reply : Reply}
    (stepped : (frontDoor p corsOrigin).step w
      ((ApiCall.register username password role).arriving client network env) = (after, reply))
    (created : reply.response.map Response.status = some 201) :
    ∃ u, Holds after.store u ∧ u.username = trimSpace (toText username) ∧
      u.role = toLower p.unicode (trimSpace (toText role)) ∧
      (env.newID ≠ "" → u.id = env.newID) ∧ Enters p.service u (toText password) := by
  have handling : ∃ outcome, Route.handler p (ApiCall.register username password role).route env
      ((ApiCall.register username password role).incoming client network env).request none w =
        outcome := ⟨_, rfl⟩
  obtain ⟨⟨handledWorld, handledReply⟩, handled⟩ := handling
  have authorized : Authorized p.service
      ((ApiCall.register username password role).incoming client network env) none := rfl
  have entered := call_entered sendable corsOrigin authorized nofun handled
  rw [stepped] at entered
  obtain ⟨rfl, rfl⟩ := Prod.mk.inj entered
  have status : handledReply.response.map Response.status = some 201 := by
    rw [← created]
    cases handledReply.response <;> rfl
  simp only [ApiCall.route, Route.handler] at handled
  obtain ⟨u, succeeded⟩ := register_created handled status
  obtain ⟨held, name, given, id⟩ := register_holds succeeded
  have stored := register_ok succeeded
  exact ⟨u, held, name, given, id, stored.active, _, stored.hashed⟩

theorem sign_in (ideal : p.service.bcrypt.Ideal) (sound : p.service.jwt.Sound)
    (sendable : (ApiCall.login username password).Sendable) (held : Holds w.store u)
    (name : u.username = toText username) (enters : Enters p.service u (toText password))
    (unlimited : w.limiter.isRateLimited env network.remoteAddr ≠ .ok true) :
    ∃ token after, p.service.generateJWT env u = .ok token ∧ after.store = w.store ∧
      (frontDoor p corsOrigin).step w ((ApiCall.login username password).arriving client network
        env) = (after, {
          response := some (shown p corsOrigin network (tokenResponse token))
          entered := some none }) := by
  obtain ⟨salt, hashed⟩ := enters.hashed
  have short := (ideal.generates_iff _ _).mp ⟨_, hashed⟩
  have accepted := (ideal.compares_iff _ _ _ _ hashed short).mpr rfl
  obtain ⟨token, issued⟩ := sound.signs (claimsFor env u) p.service.signingKey
  have found : UserStore.getUserByUsername w.store (toText username) = .ok u :=
    MemoryUserStore.getUserByUsername_ok_iff.mpr (name ▸ held.named)
  have succeeds : (p.service.login env w.store {
      username := toText username
      password := toText password }).result = .ok (token, u) :=
    login_ok_iff.mpr ⟨found, accepted, enters.active, issued⟩
  obtain ⟨event, handled⟩ : ∃ event, Auth.Handler.login p (some {
      username := toText username
      password := toText password }) env
        ((ApiCall.login username password).incoming client network env).request none w =
      (w.log env event, respond (tokenResponse token)) := by
    simp only [Auth.Handler.login, LoginRequest.input, succeeds]
    exact ⟨_, rfl⟩
  have authorized : Authorized p.service
      ((ApiCall.login username password).incoming client network env) none := rfl
  exact ⟨token, w.log env event, issued, rfl,
    call_entered sendable corsOrigin authorized (fun _ _ => unlimited) handled⟩

/-- Whose call it is while the token lasts. -/
theorem caller_incoming (sound : p.service.jwt.Sound) {signIn : Env} {token : Token}
    (issued : p.service.generateJWT signIn u = .ok token.text)
    (trimmed : trimSpace token.text = token.text) (carried : client.token = some token)
    (unexpired : env.now < newNumericDate (signIn.now + tokenExpiry)) {call : ApiCall}
    (private_ : call ≠ .checkHealth) :
    caller p.service env (call.incoming client network env).request =
      some (claimsFor signIn u) := by
  have header : client.bearer call = "Bearer " ++ token.text := by
    cases call with
    | checkHealth => exact absurd rfl private_
    | _ => simp only [ApiClient.bearer, ApiClient.authorization, carried]
  exact caller_eq_some_iff.mpr ⟨token.text, extractBearerToken_bearer token.nonempty trimmed header,
    validateToken_generateJWT sound issued unexpired⟩

/-- The guards of a route go by the role in the token. -/
theorem call_entered_iff (sound : p.service.jwt.Sound) {signIn : Env} {token : Token}
    (issued : p.service.generateJWT signIn u = .ok token.text)
    (trimmed : trimSpace token.text = token.text) (carried : client.token = some token)
    (unexpired : env.now < newNumericDate (signIn.now + tokenExpiry)) {call : ApiCall}
    (sendable : call.Sendable) (guarded : call.route.access ≠ .anyone) :
    ((frontDoor p corsOrigin).step w (call.arriving client network env)).2.entered ≠ none ↔
      call.route.access.admits u.role := by
  have private_ : call ≠ .checkHealth := by
    rintro rfl
    exact guarded rfl
  have known : caller p.service env (call.incoming client network env).request =
      some (claimsFor signIn u) :=
    caller_incoming sound issued trimmed carried unexpired private_
  have stepped := call_step (p := p) sendable corsOrigin
    (Prod.mk.eta (p := (server p).step w (call.incoming client network env))).symm
  rw [stepped]
  cases server_step (p := p) w (call.incoming client network env) with
  | refused _ unauthorized _ result =>
      rw [result]
      refine ⟨fun entered => absurd rfl entered, fun admitted => ?_⟩
      exact absurd ⟨guarded, known, admitted⟩ (unauthorized (some (claimsFor signIn u)))
  | limited route =>
      have same : call.route = .login _ := route
      rw [same] at guarded
      exact absurd rfl guarded
  | entered ctx authorized _ result =>
      rw [result, observed_entered]
      refine ⟨fun _ => ?_, fun _ => nofun⟩
      cases ctx with
      | none => exact absurd authorized guarded
      | some claims =>
          obtain ⟨_, same, admitted⟩ := authorized
          cases known.symm.trans same
          exact admitted

theorem read_profile (sound : p.service.jwt.Sound) (held : Holds w.store u) {signIn : Env}
    {token : Token} (issued : p.service.generateJWT signIn u = .ok token.text)
    (trimmed : trimSpace token.text = token.text) (carried : client.token = some token)
    (unexpired : env.now < newNumericDate (signIn.now + tokenExpiry)) :
    ((frontDoor p corsOrigin).step w (ApiCall.getMe.arriving client network env)).2.response =
      some (shown p corsOrigin network (writeJSON 200 (publicUserJson u.toPublic))) := by
  have known : caller p.service env (ApiCall.getMe.incoming client network env).request =
      some (claimsFor signIn u) :=
    caller_incoming sound issued trimmed carried unexpired (by rintro ⟨⟩)
  have found : Auth.getUserByID w.store (claimsFor signIn u).userID = .ok u :=
    MemoryUserStore.getUserByID_ok_iff.mpr held.numbered
  have handled : Auth.Handler.me env (ApiCall.getMe.incoming client network env).request
      (some (claimsFor signIn u)) w = (w, respond (writeJSON 200 (publicUserJson u.toPublic))) := by
    simp only [Auth.Handler.me, found]
  have sendable : ApiCall.getMe.Sendable := by rintro members ⟨⟩
  have authorized : Authorized p.service (ApiCall.getMe.incoming client network env)
      (some (claimsFor signIn u)) := ⟨by rintro ⟨⟩, known, trivial⟩
  rw [call_entered sendable corsOrigin authorized (by rintro body ⟨⟩) handled]
  rfl

/-- A user whom the store holds logs in and reads the own profile as long as the
token lasts, whatever anybody sends in between. -/
theorem stays_signed_in (ideal : p.service.bcrypt.Ideal) (sound : p.service.jwt.Sound)
    (compact : ∀ claims key token, p.service.jwt.signedString .hs256 claims key = .ok token →
      token ≠ "" ∧ trimSpace token = token)
    (sendable : (ApiCall.login username password).Sendable) (held : Holds w.store u)
    (name : u.username = toText username) (enters : Enters p.service u (toText password))
    (between later : List Arriving)
    (fresh : ∀ arriving ∈ between ++ later, arriving.env.newID ∉ ["", u.id])
    (unlimited : w.limiter.isRateLimited env network.remoteAddr ≠ .ok true) :
    ∃ (token : Token) (after : World MemoryUserStore),
      p.service.generateJWT env u = .ok token.text ∧ trimSpace token.text = token.text ∧
      (frontDoor p corsOrigin).step ((frontDoor p corsOrigin).run w between)
        ((ApiCall.login username password).arriving client network env) = (after, {
          response := some (shown p corsOrigin network (tokenResponse token.text))
          entered := some none }) ∧
      ∀ look : Env, look.now < newNumericDate (env.now + tokenExpiry) →
        ((frontDoor p corsOrigin).step ((frontDoor p corsOrigin).run after later)
          (ApiCall.getMe.arriving (client.setToken (some token)) network look)).2.response =
          some (shown p corsOrigin network (writeJSON 200 (publicUserJson u.toPublic))) := by
  have waiting : Holds ((frontDoor p corsOrigin).run w between).store u :=
    frontDoor_run_holds corsOrigin held
      fun arriving member => fresh arriving (List.mem_append_left later member)
  have allowed : ((frontDoor p corsOrigin).run w between).limiter.isRateLimited env
      network.remoteAddr ≠ .ok true := by
    rw [frontDoor_run_limiter]
    exact unlimited
  obtain ⟨text, after, issued, kept, answered⟩ := sign_in ideal sound sendable waiting name
    enters allowed
  obtain ⟨nonempty, trimmed⟩ := compact _ _ _ issued
  obtain ⟨token, rfl⟩ : ∃ token : Token, token.text = text := ⟨⟨text, nonempty⟩, rfl⟩
  refine ⟨token, after, issued, trimmed, answered, ?_⟩
  intro look unexpired
  have stays : Holds after.store u := by
    rw [kept]
    exact waiting
  have still : Holds ((frontDoor p corsOrigin).run after later).store u :=
    frontDoor_run_holds corsOrigin stays
      fun arriving member => fresh arriving (List.mem_append_right between member)
  exact read_profile sound still issued trimmed rfl unexpired

/-- A newcomer who could register logs in with the same strings, and reads the own
profile as long as the token lasts, whatever anybody sends in between. -/
theorem newcomer_reads_profile (p : Platform) (ideal : p.service.bcrypt.Ideal)
    (sound : p.service.jwt.Sound)
    (compact : ∀ claims key token, p.service.jwt.signedString .hs256 claims key = .ok token →
      token ≠ "" ∧ trimSpace token = token)
    (corsOrigin : String) (start : World MemoryUserStore) (client : ApiClient)
    (network : Network) (signUp signIn : Env) {username password role : List ℕ}
    (sendable : (ApiCall.register username password role).Sendable)
    (again : (ApiCall.login username password).Sendable)
    (clean : trimSpace (toText username) = toText username)
    {registered : World MemoryUserStore} {reply : Reply}
    (stepped : (frontDoor p corsOrigin).step start
      ((ApiCall.register username password role).arriving client network signUp) =
        (registered, reply))
    (created : reply.response.map Response.status = some 201)
    (between later : List Arriving) (drawn : signUp.newID ≠ "")
    (fresh : ∀ arriving ∈ between ++ later, arriving.env.newID ∉ ["", signUp.newID])
    (unlimited : start.limiter.isRateLimited signIn network.remoteAddr ≠ .ok true) :
    ∃ (u : User) (token : Token) (after : World MemoryUserStore),
      u.username = toText username ∧ u.role = toLower p.unicode (trimSpace (toText role)) ∧
      (frontDoor p corsOrigin).step ((frontDoor p corsOrigin).run registered between)
        ((ApiCall.login username password).arriving client network signIn) = (after, {
          response := some (shown p corsOrigin network (tokenResponse token.text))
          entered := some none }) ∧
      ∀ look : Env, look.now < newNumericDate (signIn.now + tokenExpiry) →
        ((frontDoor p corsOrigin).step ((frontDoor p corsOrigin).run after later)
          (ApiCall.getMe.arriving (client.setToken (some token)) network look)).2.response =
          some (shown p corsOrigin network (writeJSON 200 (publicUserJson u.toPublic))) := by
  obtain ⟨u, held, name, given, id, enters⟩ := sign_up sendable stepped created
  rw [← id drawn] at fresh
  have first := frontDoor_run_limiter (p := p) corsOrigin start
    [(ApiCall.register username password role).arriving client network signUp]
  rw [Machine.run_cons, Machine.run_nil, stepped] at first
  obtain ⟨token, after, _, _, answered, reads⟩ := stays_signed_in ideal sound compact again held
    (name.trans clean) enters between later fresh (first ▸ unlimited)
  exact ⟨u, token, after, name.trans clean, given, answered, reads⟩

theorem trimSpace_solid {text : String} (solid : ∀ c ∈ text.toList, Go.isSpace c = false) :
    trimSpace text = text := by
  have front : text.toList.dropWhile Go.isSpace = text.toList := by
    cases shape : text.toList with
    | nil => rfl
    | cons c cs =>
        have kept := solid c (shape ▸ List.mem_cons_self)
        rw [List.dropWhile_cons_of_neg (by simp [kept])]
  apply String.toList_inj.mp
  rw [toList_trimSpace, front, List.rdropWhile_eq_self_iff]
  intro nonempty space
  rw [solid _ (List.getLast_mem nonempty)] at space
  cases space

theorem plainJwt_compact (claims : Claims) (key : Key) (token : String)
    (signed : (plainJwt aliceClaims).signedString .hs256 claims key = .ok token) :
    token ≠ "" ∧ trimSpace token = token := by
  simp only [plainJwt, Except.ok.injEq] at signed
  rw [← signed]
  split
  · exact ⟨by decide, by decide⟩
  · refine ⟨?_, trimSpace_solid ?_⟩
    · intro empty
      have length := congrArg String.length empty
      rw [unaryToken_length] at length
      exact absurd length (Nat.succ_ne_zero _)
    · intro c member
      rw [unaryToken, String.toList_ofList] at member
      rw [List.eq_of_mem_replicate member]
      decide

def bobSignsUp : ApiCall :=
  .register (ofString "bob") (ofString "hunter22") (ofString " Viewer")

def bobSignsIn : ApiCall := .login (ofString "bob") (ofString "hunter22")

theorem bob_sendable : bobSignsUp.Sendable ∧ bobSignsIn.Sendable :=
  ⟨ApiCall.sendable_register (by decide +kernel), ApiCall.sendable_login (by decide +kernel)⟩

def bobsNetwork : Network := ⟨"", "", "192.0.2.9:50000"⟩

theorem newcomer_reads_profile_bob :
    ∃ (u : User) (token : Token) (after : World MemoryUserStore),
      u.username = toText (ofString "bob") ∧
      u.role = toLower plainPlatform.unicode (trimSpace (toText (ofString " Viewer"))) ∧
      (frontDoor plainPlatform "").step ((frontDoor plainPlatform "").run
          ((frontDoor plainPlatform "").step plainWorld
            (bobSignsUp.arriving (.constructor none) bobsNetwork (plainEnv 0 "u-8"))).1
          [alicePosts])
        (bobSignsIn.arriving (.constructor none) bobsNetwork (plainEnv minute "t-8")) = (after, {
          response := some (shown plainPlatform "" bobsNetwork (tokenResponse token.text))
          entered := some none }) ∧
      ∀ look : Env, look.now < newNumericDate (minute + tokenExpiry) →
        ((frontDoor plainPlatform "").step ((frontDoor plainPlatform "").run after [aliceFetches])
          (ApiCall.getMe.arriving ((ApiClient.constructor none).setToken (some token)) bobsNetwork
            look)).2.response =
          some (shown plainPlatform "" bobsNetwork
            (writeJSON 200 (publicUserJson u.toPublic))) :=
  newcomer_reads_profile plainPlatform plainBcrypt_ideal (plainJwt_sound aliceClaims)
    plainJwt_compact "" plainWorld (.constructor none) bobsNetwork (plainEnv 0 "u-8")
    (plainEnv minute "t-8") bob_sendable.1 bob_sendable.2 (by decide +kernel) Prod.mk.eta.symm
    (by decide +kernel) [alicePosts] [aliceFetches] (by decide) (by decide) (by decide)

/-- Nobody asks whether a newcomer is due the role: with the token of the first
login, exactly the guards that admit it let the calls through, in whatever state the
server has come to. -/
theorem newcomer_passes_guards (p : Platform) (ideal : p.service.bcrypt.Ideal)
    (sound : p.service.jwt.Sound)
    (compact : ∀ claims key token, p.service.jwt.signedString .hs256 claims key = .ok token →
      token ≠ "" ∧ trimSpace token = token)
    (corsOrigin : String) (start : World MemoryUserStore) (client : ApiClient)
    (network : Network) (signUp signIn : Env) {username password role : List ℕ}
    (sendable : (ApiCall.register username password role).Sendable)
    (again : (ApiCall.login username password).Sendable)
    (clean : trimSpace (toText username) = toText username)
    {registered : World MemoryUserStore} {reply : Reply}
    (stepped : (frontDoor p corsOrigin).step start
      ((ApiCall.register username password role).arriving client network signUp) =
        (registered, reply))
    (created : reply.response.map Response.status = some 201)
    (between : List Arriving) (drawn : signUp.newID ≠ "")
    (fresh : ∀ arriving ∈ between, arriving.env.newID ∉ ["", signUp.newID])
    (unlimited : start.limiter.isRateLimited signIn network.remoteAddr ≠ .ok true) :
    ∃ (token : Token) (after : World MemoryUserStore),
      (frontDoor p corsOrigin).step ((frontDoor p corsOrigin).run registered between)
        ((ApiCall.login username password).arriving client network signIn) = (after, {
          response := some (shown p corsOrigin network (tokenResponse token.text))
          entered := some none }) ∧
      ∀ (look : Env) (w : World MemoryUserStore) (call : ApiCall),
        look.now < newNumericDate (signIn.now + tokenExpiry) → call.Sendable →
        call.route.access ≠ .anyone →
        (((frontDoor p corsOrigin).step w
            (call.arriving (client.setToken (some token)) network look)).2.entered ≠ none ↔
          call.route.access.admits (toLower p.unicode (trimSpace (toText role)))) := by
  obtain ⟨u, held, name, given, id, enters⟩ := sign_up sendable stepped created
  rw [← id drawn] at fresh
  have first := frontDoor_run_limiter (p := p) corsOrigin start
    [(ApiCall.register username password role).arriving client network signUp]
  rw [Machine.run_cons, Machine.run_nil, stepped] at first
  obtain ⟨token, after, issued, trimmed, answered, _⟩ := stays_signed_in ideal sound compact again
    held (name.trans clean) enters between [] (by rwa [List.append_nil]) (first ▸ unlimited)
  refine ⟨token, after, answered, ?_⟩
  intro look w call unexpired sendable guarded
  rw [call_entered_iff sound issued trimmed rfl unexpired sendable guarded, given]

def eveSignsUp : ApiCall :=
  .register (ofString "eve") (ofString "hunter22") (ofString " super_admin")

def eveSignsIn : ApiCall := .login (ofString "eve") (ofString "hunter22")

theorem eve_sendable : eveSignsUp.Sendable ∧ eveSignsIn.Sendable :=
  ⟨ApiCall.sendable_register (by decide +kernel), ApiCall.sendable_login (by decide +kernel)⟩

theorem newcomer_passes_guards_eve :
    ∃ (token : Token) (after : World MemoryUserStore),
      (frontDoor plainPlatform "").step ((frontDoor plainPlatform "").run
          ((frontDoor plainPlatform "").step plainWorld
            (eveSignsUp.arriving (.constructor none) bobsNetwork (plainEnv 0 "u-8"))).1
          [alicePosts])
        (eveSignsIn.arriving (.constructor none) bobsNetwork (plainEnv minute "t-8")) = (after, {
          response := some (shown plainPlatform "" bobsNetwork (tokenResponse token.text))
          entered := some none }) ∧
      ∀ (look : Env) (w : World MemoryUserStore) (call : ApiCall),
        look.now < newNumericDate (minute + tokenExpiry) → call.Sendable →
        call.route.access ≠ .anyone →
        (((frontDoor plainPlatform "").step w (call.arriving
            ((ApiClient.constructor none).setToken (some token)) bobsNetwork look)).2.entered ≠
              none ↔
          call.route.access.admits
            (toLower plainPlatform.unicode (trimSpace (toText (ofString " super_admin"))))) :=
  newcomer_passes_guards plainPlatform plainBcrypt_ideal (plainJwt_sound aliceClaims)
    plainJwt_compact "" plainWorld (.constructor none) bobsNetwork (plainEnv 0 "u-8")
    (plainEnv minute "t-8") eve_sendable.1 eve_sendable.2 (by decide +kernel) Prod.mk.eta.symm
    (by decide +kernel) [alicePosts] (by decide) (by decide) (by decide)

end Nexus.Frontend
