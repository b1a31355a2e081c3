import Nexus.Audit.HandlerProperties
import Nexus.Auth.TotpProperties
import Nexus.Server.FrontDoorProperties

/-! The perimeter of the server: what any bytes from the network can make it do,
and the one request it leaves without an answer. -/

set_option autoImplicit false

namespace Nexus.Server

open Nexus.Lib Nexus.Go Nexus.Users Nexus.Auth Nexus.Audit Nexus.Policy Nexus.Middleware

variable {σ : Type} [UserStore σ]

/-! ## Mediation -/

/-- An earlier response carried this token. -/
def IssuedAtDoor (past : List (Transition (World σ) Arriving Reply)) (token : String) : Prop :=
  ∃ t ∈ past, ∃ response, t.output.response = some response ∧ response.status = 200 ∧
    response.body = .json (.obj [("token", .str token)])

/-- Clients cannot forge an HMAC, whatever else they send: the text it is valid for
is that of a token an earlier response carried. -/
def NoForgeryAtDoor (p : Platform) (past : List (Transition (World σ) Arriving Reply))
    (next : Transition (World σ) Arriving Reply) : Prop :=
  ∀ method token, method.isHMAC = true →
    extractBearerToken next.event.request.http = some token →
    p.service.jwt.verify method p.service.signingKey token = true →
    ∃ issued, IssuedAtDoor past issued ∧ SameContent token issued

/-- The request presents the token of a login at the front door that the claims
describe, up to the spelling of its HMAC, and the route admits their role. -/
structure Credited (p : Platform) (past : List (Transition (World σ) Arriving Reply))
    (next : Transition (World σ) Arriving Reply) (incoming : Incoming) (claims : Claims) :
    Prop where
  admitted : incoming.route.access.admits claims.role
  issued : ∃ token issued, extractBearerToken next.event.request.http = some token ∧
    SameSegments token issued ∧
    ∃ t ∈ past, ∃ login req u, t.event.incoming = some login ∧
      IssuingLogin p ((server p).fire t.before login) issued claims next.event.env.now req u

/-- Nobody's request is entitled to a route that is open to anyone, and a bearer's
to the routes that the token is credited for. -/
def Entitled (p : Platform) (past : List (Transition (World σ) Arriving Reply))
    (next : Transition (World σ) Arriving Reply) (incoming : Incoming) : Context → Prop
  | none => incoming.route.access = .anyone
  | some claims => Credited p past next incoming claims

structure Guarded (p : Platform) (past : List (Transition (World σ) Arriving Reply))
    (next : Transition (World σ) Arriving Reply) : Prop where
  entered : ∀ ctx, next.output.entered = some ctx →
    ∃ incoming, next.event.incoming = some incoming ∧ Entitled p past next incoming ctx
  users : next.after.store ≠ next.before.store →
    ∃ incoming body, next.event.incoming = some incoming ∧ incoming.route = .register body
  policies : next.after.engine ≠ next.before.engine →
    ∃ incoming claims, next.event.incoming = some incoming ∧
      incoming.route.changesPolicies = true ∧ Credited p past next incoming claims
  trail : next.after.audit ≠ next.before.audit →
    ∃ incoming, next.event.incoming = some incoming ∧ (incoming.route.access = .anyone ∨
      ∃ claims, Credited p past next incoming claims)

variable {p : Platform}

/-- A token at the front door is one that a route answered with. -/
theorem routed_of_token {corsOrigin : String} {w : World σ} {arriving : Arriving}
    {response : Response} {token : String}
    (answered : ((frontDoor p corsOrigin).step w arriving).2.response = some response)
    (fine : response.status = 200)
    (carries : response.body = .json (.obj [("token", .str token)])) :
    ∃ incoming, arriving.incoming = some incoming ∧
      ((server p).step w incoming).2.response = some (tokenResponse token) := by
  cases frontDoor_step (p := p) corsOrigin w arriving with
  | serverWide _ _ result =>
      rw [result] at answered
      cases answered
      cases carries
  | preflight _ _ _ result =>
      rw [result] at answered
      cases answered
      cases carries
  | unrouted _ _ answer result =>
      rw [result] at answered
      cases answered
      unfold withoutBody at carries
      split at carries
      · cases carries
      · cases answer <;> cases carries
  | routed _ incoming found result =>
      rw [result] at answered
      obtain ⟨served, replied, rfl⟩ := Option.map_eq_some_iff.mp answered
      refine ⟨incoming, found, ?_⟩
      have kept : served.status = 200 ∧ served.body = .json (.obj [("token", .str token)]) := by
        unfold withoutBody at fine carries
        split at carries
        · cases carries
        · rename_i whole
          rw [if_neg whole] at fine
          exact ⟨fine, carries⟩
      rw [replied, Option.some.injEq]
      cases plain_step replied with
      | granted status value _ written =>
          obtain ⟨sameStatus, sameBody⟩ := kept
          rw [written] at sameStatus sameBody ⊢
          cases sameStatus
          cases sameBody
          rfl
      | refused status _ failed written =>
          rw [written] at kept
          have fine : status = 200 := kept.1
          rw [fine] at failed
          exact absurd rfl failed
      | health written | limited written =>
          rw [written] at kept
          cases kept.2

/-! ### What a step at the front door needs -/

/-- Whatever handler is entered, its route let the request pass. -/
theorem authorized_of_entered {corsOrigin : String} {w : World σ} {arriving : Arriving}
    {ctx : Context} (entered : ((frontDoor p corsOrigin).step w arriving).2.entered = some ctx) :
    ∃ incoming, arriving.incoming = some incoming ∧ Authorized p.service incoming ctx := by
  cases frontDoor_step (p := p) corsOrigin w arriving with
  | serverWide _ _ result | preflight _ _ _ result | unrouted _ _ _ result =>
      rw [result] at entered
      cases entered
  | routed _ incoming found result =>
      rw [result] at entered
      refine ⟨incoming, found, ?_⟩
      cases server_step (p := p) w incoming with
      | refused _ _ _ refusal | limited _ _ refusal =>
          rw [refusal] at entered
          cases entered
      | entered reached authorized _ outcome =>
          rw [outcome, observed_entered] at entered
          cases entered
          exact authorized

/-- Whatever changes at the front door, a route has changed. -/
theorem routed_of_changed {α : Type} (field : World σ → α) {corsOrigin : String} {w : World σ}
    {arriving : Arriving} (changed : field ((frontDoor p corsOrigin).step w arriving).1 ≠ field w) :
    ∃ incoming, arriving.incoming = some incoming ∧
      field ((server p).step w incoming).1 ≠ field w := by
  rw [frontDoor_state] at changed
  cases found : arriving.incoming with
  | none =>
      rw [found] at changed
      exact absurd rfl changed
  | some incoming =>
      rw [found] at changed
      exact ⟨incoming, rfl, changed⟩

theorem authorized_of_changed {w : World σ} {incoming : Incoming}
    (changed : ((server p).step w incoming).1 ≠ w) :
    ∃ ctx, Authorized p.service incoming ctx := by
  cases server_step (p := p) w incoming with
  | refused _ _ _ refusal => exact absurd (congrArg Prod.fst refusal) changed
  | limited route => exact ⟨none, congrArg Route.access route⟩
  | entered ctx authorized => exact ⟨ctx, authorized⟩

theorem register_of_store_changed {w : World σ} {incoming : Incoming}
    (changed : ((server p).step w incoming).1.store ≠ w.store) :
    ∃ body, incoming.route = .register body := by
  have changes := (server_effect (p := p) w incoming).2
  generalize incoming.route = route at changes ⊢
  cases changes with
  | nothing same | creates same | deletes same => exact absurd same changed
  | registers => exact ⟨_, rfl⟩

theorem changesPolicies_of_engine_changed {w : World σ} {incoming : Incoming}
    (changed : ((server p).step w incoming).1.engine ≠ w.engine) :
    incoming.route.changesPolicies = true := by
  have changes := (server_effect (p := p) w incoming).2
  generalize incoming.route = route at changes ⊢
  cases changes with
  | nothing _ same | registers _ _ same => exact absurd same changed
  | creates | deletes => rfl

theorem Route.access_of_changesPolicies {route : Route} (changes : route.changesPolicies = true) :
    route.access ≠ .anyone := by
  cases route <;> cases changes <;> exact nofun

/-! ### The verdict -/

/-- Whoever gets past the guards of a route has logged in at the front door. -/
theorem credited_of_authorized (sound : p.service.jwt.Sound)
    {hmac : SigningMethod → Key → String → List UInt8} (segmented : p.service.jwt.Segmented hmac)
    {corsOrigin : String} {start : World σ} {past : List Arriving} {arriving : Arriving}
    (genuine : NoForgeryAtDoor p ((frontDoor p corsOrigin).trace start past)
      ((frontDoor p corsOrigin).fire ((frontDoor p corsOrigin).run start past) arriving))
    {incoming : Incoming} (found : arriving.incoming = some incoming) {claims : Claims}
    (authorized : Authorized p.service incoming (some claims)) :
    Credited p ((frontDoor p corsOrigin).trace start past)
      ((frontDoor p corsOrigin).fire ((frontDoor p corsOrigin).run start past) arriving)
      incoming claims := by
  obtain ⟨env, r⟩ := arriving
  have carried : incoming.env = env ∧ incoming.request = r.http := by
    simp only [Arriving.incoming] at found
    split at found
    · cases found
    · split at found
      · cases found
        exact ⟨rfl, rfl⟩
      · cases found
  obtain ⟨_, known, admitted⟩ := authorized
  obtain ⟨token, presented, valid⟩ := caller_eq_some_iff.mp known
  rw [carried.2] at presented
  rw [carried.1] at valid
  obtain ⟨method, accepts⟩ := validateToken_ok valid
  obtain ⟨issued, ⟨t, member, response, answered, fine, carries⟩, content⟩ :=
    genuine method token accepts.hmac presented accepts.signed
  obtain ⟨before, login, _, _, rfl⟩ := (frontDoor p corsOrigin).mem_trace member
  obtain ⟨served, routed, replied⟩ := routed_of_token answered fine carries
  obtain ⟨same, req, u, issuing⟩ :=
    issuingLogin_of_content sound segmented replied content valid
  exact ⟨admitted, token, issued, presented, same, _, member, served, req, u, routed, issuing⟩

/-- No method, path, header or body gets around the guards. -/
theorem perimeter_guarded (p : Platform) (sound : p.service.jwt.Sound)
    {hmac : SigningMethod → Key → String → List UInt8} (segmented : p.service.jwt.Segmented hmac)
    (corsOrigin : String) (start : World σ) (events : List Arriving)
    (noForgery : (frontDoor p corsOrigin).Always (NoForgeryAtDoor p) start events) :
    (frontDoor p corsOrigin).Always (Guarded p) start events := by
  intro past arriving future split
  have genuine := noForgery past arriving future split
  refine ⟨?entered, ?users, ?policies, ?trail⟩
  case entered =>
    intro ctx entered
    obtain ⟨incoming, found, authorized⟩ := authorized_of_entered entered
    refine ⟨incoming, found, ?_⟩
    cases ctx with
    | none => exact authorized
    | some claims => exact credited_of_authorized sound segmented genuine found authorized
  case users =>
    intro changed
    obtain ⟨incoming, found, stored⟩ := routed_of_changed World.store changed
    obtain ⟨body, route⟩ := register_of_store_changed stored
    exact ⟨incoming, body, found, route⟩
  case policies =>
    intro changed
    obtain ⟨incoming, found, altered⟩ := routed_of_changed World.engine changed
    have changes := changesPolicies_of_engine_changed altered
    obtain ⟨ctx, authorized⟩ := authorized_of_changed (mt (congrArg World.engine) altered)
    cases ctx with
    | none => exact absurd authorized (Route.access_of_changesPolicies changes)
    | some claims =>
        exact ⟨incoming, claims, found, changes,
          credited_of_authorized sound segmented genuine found authorized⟩
  case trail =>
    intro changed
    obtain ⟨incoming, found, logged⟩ := routed_of_changed World.audit changed
    obtain ⟨ctx, authorized⟩ := authorized_of_changed (mt (congrArg World.audit) logged)
    refine ⟨incoming, found, ?_⟩
    cases ctx with
    | none => exact .inl authorized
    | some claims =>
        exact .inr ⟨claims, credited_of_authorized sound segmented genuine found authorized⟩

/-- Alice's login as the bytes of a request. -/
def alicePosts : Arriving where
  env := plainEnv 0 "t-1"
  request := {
    method := "POST"
    requestURI := "/api/v1/auth/login"
    path := "/api/v1/auth/login"
    remoteAddr := "192.0.2.7:50000"
    body := { content := bytes "\x7b\"username\":\"alice\",\"password\":\"hunter22\"\x7d" } }

def aliceFetches : Arriving where
  env := plainEnv minute "n-1"
  request := {
    method := "GET"
    requestURI := "/api/v1/users"
    path := "/api/v1/users"
    authorization := "Bearer jwt"
    remoteAddr := "192.0.2.7:50001" }

def carriesToken (token : String) (response : Response) : Bool :=
  match response.status, response.body with
  | 200, .json (.obj [("token", .str issued)]) => issued == token
  | _, _ => false

theorem carriesToken_body {token : String} {response : Response}
    (carries : carriesToken token response = true) :
    response.status = 200 ∧ response.body = .json (.obj [("token", .str token)]) := by
  obtain ⟨status, headers, body⟩ := response
  unfold carriesToken at carries
  split at carries
  · rename_i issued fine shape
    exact ⟨fine, shape.trans (by rw [eq_of_beq carries])⟩
  · cases carries

/-- Alice presents her token with its HMAC spelled in another way. -/
def aliceRefetches : Arriving :=
  { aliceFetches with
    request := { aliceFetches.request with authorization := "Bearer jwt.claims.AB" } }

theorem perimeter_guarded_alice :
    ((frontDoor segmentedPlatform "").step ((frontDoor segmentedPlatform "").step plainWorld
        alicePosts).1 aliceRefetches).2.entered = some (some aliceClaims) ∧
      (frontDoor segmentedPlatform "").Always (Guarded segmentedPlatform) plainWorld
        [alicePosts, aliceRefetches] := by
  refine ⟨by decide +kernel, ?_⟩
  refine perimeter_guarded segmentedPlatform (segmentedJwt_sound aliceClaims)
    (segmentedJwt_segmented aliceClaims) "" plainWorld _ ?_
  rw [Machine.always_cons_iff, Machine.always_cons_iff]
  refine ⟨?_, ?_, Machine.always_nil _ _⟩
  · intro method token _ presented
    cases presented
  · intro method token _ presented _
    have known : extractBearerToken aliceRefetches.request.http = some "jwt.claims.AB" := by
      decide
    cases known.symm.trans presented
    have answered : (((frontDoor segmentedPlatform "").step plainWorld
        alicePosts).2.response.map (carriesToken "jwt.claims.AA")) = some true := by
      decide +kernel
    obtain ⟨response, replied, carries⟩ := Option.map_eq_some_iff.mp answered
    refine ⟨"jwt.claims.AA", ⟨_, List.mem_cons_self, response, ?_, carriesToken_body carries⟩,
      sameContent_respelled⟩
    rw [Machine.fire_output]
    exact replied

/-! ## Silence -/

theorem ofNat_negative_iff (offset : Nat) :
    Int64.ofNat offset < 0 ↔ 2 ^ 63 ≤ offset % 2 ^ 64 := by
  rw [Int64.lt_iff_toInt_lt, Int64.toInt_ofNat', Int64.toInt_zero, Int.bmod]
  simp only [Int64.size]
  omega

/-- An offset that does not fit an `int` makes slicing panic when it turns
negative. -/
theorem list_none_iff {m : MemoryLogger} (bounded : m.events.length + 200 < 2 ^ 63)
    {page pageSize : Int64} (admitted : Admitted page pageSize) :
    m.list page pageSize = none ↔ m.events ≠ [] ∧
      2 ^ 63 ≤ (page.toNatClampNeg - 1) * pageSize.toNatClampNeg % 2 ^ 64 := by
  obtain ⟨first, positive, most⟩ := admitted
  have number : Int64.ofNat (page.toNatClampNeg - 1 + 1) = page := by
    rw [Nat.sub_add_cancel ((Int64.toNatClampNeg_pos_iff page).mpr first)]
    exact Int64.ofNat_toNatClampNeg page (Int64.le_of_lt first)
  have offset := pageOffset_eq positive (page.toNatClampNeg - 1)
  rw [number] at offset
  rw [← ofNat_negative_iff, ← offset]
  have total : (Int64.ofNat m.events.length).toInt = m.events.length :=
    Int64.toInt_ofNat_of_lt (by omega)
  unfold MemoryLogger.list
  generalize (page - 1) * pageSize = start
  by_cases empty : m.events.length = 0
  · simp [List.length_eq_zero_iff.mp empty]
  have some_ : m.events ≠ [] := fun nothing => empty (by rw [nothing]; rfl)
  simp only [empty, if_false, ge_iff_le, gt_iff_lt, ne_eq, some_, not_false_eq_true, true_and]
  by_cases negative : start < 0
  · have before : ¬ Int64.ofNat m.events.length ≤ start := by
      rw [Int64.lt_iff_toInt_lt, Int64.toInt_zero] at negative
      rw [Int64.le_iff_toInt_le, total]
      omega
    simp [before, Int64.not_le.mpr negative, negative]
  · have started := Int64.not_lt.mp negative
    have stops : start < Int64.ofNat m.events.length → start ≤ start + pageSize := by
      intro before
      rw [Int64.lt_iff_toInt_lt, total] at before
      rw [Int64.le_iff_toInt_le, Int64.toInt_zero] at started
      rw [Int64.lt_iff_toInt_lt, Int64.toInt_zero] at positive
      have width : pageSize.toInt ≤ 200 := Int64.le_iff_toInt_le.mp most
      rw [Int64.le_iff_toInt_le, Int64.toInt_add, Int.bmod_eq_of_le (by omega) (by omega)]
      omega
    by_cases behind : Int64.ofNat m.events.length ≤ start
    · simp [behind, negative]
    · have before := Int64.not_le.mp behind
      by_cases clipped : Int64.ofNat m.events.length < start + pageSize
      · simp [behind, clipped, started, Int64.le_of_lt before, negative]
      · simp [behind, clipped, started, stops before, negative]

theorem verifyTOTP_returns {hmacSHA1 : List UInt8 → List UInt8 → Vector UInt8 20}
    {unicode : UnicodeTables} {secret code : String} {now : Time} :
    verifyTOTP hmacSHA1 unicode secret code now ≠ .error .panic := by
  unfold verifyTOTP
  cases decoded : base32Decode unicode secret with
  | none => simp
  | some key =>
      obtain ⟨accepted, verified⟩ :=
        verifySteps_ok hmacSHA1 key code (Int64.ofInt (Time.unix now) / 30) [-1, 0, 1]
      simp [verified]

/-- Behind the guards of its route only the listing of the trail may panic. -/
theorem handler_silent_iff {incoming : Incoming} {ctx : Context} {w : World σ}
    (authorized : Authorized p.service incoming ctx) :
    (incoming.route.handler p incoming.env incoming.request ctx w).2.response = none ↔
      ∃ page pageSize, incoming.route = .listAudit page pageSize ∧
        w.audit.list (pageParam page) (pageSizeParam pageSize) = none := by
  obtain ⟨env, request, route⟩ := incoming
  cases ctx with
  | none =>
      have open_ : route.access = .anyone := authorized
      cases route with
      | health => simp [Route.handler, health, respond]
      | register body =>
          simp only [Route.handler, Auth.Handler.register]
          (repeat' split) <;> simp [respond]
      | login body =>
          simp only [Route.handler, Auth.Handler.login]
          (repeat' split) <;> simp [respond]
      | _ => cases open_
  | some claims =>
      cases route with
      | health | register | login => exact absurd rfl authorized.1
      | mfaVerify body =>
          simp only [Route.handler, Auth.Handler.mfaVerify]
          (repeat' split) <;> simp_all [respond, verifyTOTP_returns]
      | listAudit page pageSize =>
          simp only [Route.handler, Audit.Handler.list]
          cases listed : w.audit.list (pageParam page) (pageSizeParam pageSize) with
          | none => simp [panicked, listed]
          | some events => simp [respond, listed]
      | createPolicy body =>
          simp only [Route.handler, Policy.Handler.createPolicy]
          (repeat' split) <;> simp [respond]
      | deletePolicy id =>
          simp only [Route.handler, Policy.Handler.deletePolicy]
          (repeat' split) <;> simp [respond]
      | checkAccess body =>
          simp only [Route.handler, Policy.Handler.checkAccess]
          (repeat' split) <;> simp [respond]
      | me | mfaSetup | adminOnly | userOrAdmin | listUsers | listPolicies =>
          simp only [Route.handler, Auth.Handler.me, Auth.Handler.mfaSetup,
            Auth.Handler.adminOnly, Auth.Handler.userOrAdmin, Auth.Handler.listUsers,
            Policy.Handler.listPolicies, greeting]
          (repeat' split) <;> simp [respond]

/-- A reader of the trail asks for a page whose offset wraps around to a negative
one. -/
def Unanswerable (p : Platform) (w : World σ) (arriving : Arriving) : Prop :=
  ∃ incoming page pageSize claims, arriving.incoming = some incoming ∧
    incoming.route = .listAudit page pageSize ∧
    caller p.service incoming.env incoming.request = some claims ∧
    claims.role ∈ [roleSuperAdmin, roleAdmin, roleSecurityManager] ∧
    w.audit.events ≠ [] ∧
    2 ^ 63 ≤ ((pageParam page).toNatClampNeg - 1) *
      (pageSizeParam pageSize).toNatClampNeg % 2 ^ 64

omit [UserStore σ] in
theorem answerable_of_unrouted {w : World σ} {arriving : Arriving}
    (unrouted : arriving.incoming = none) : ¬ Unanswerable p w arriving := by
  rintro ⟨incoming, _, _, _, found, _⟩
  exact nomatch unrouted.symm.trans found

/-- It is the one request that the server leaves without a response. -/
theorem silent_iff (p : Platform) (corsOrigin : String) (w : World σ)
    (bounded : w.audit.events.length + 200 < 2 ^ 63) (arriving : Arriving) :
    ((frontDoor p corsOrigin).step w arriving).2.response = none ↔
      Unanswerable p w arriving := by
  cases frontDoor_step (p := p) corsOrigin w arriving with
  | serverWide _ unrouted result =>
      rw [result]
      exact iff_of_false nofun (answerable_of_unrouted unrouted)
  | preflight _ _ unrouted result =>
      rw [result]
      exact iff_of_false nofun (answerable_of_unrouted unrouted)
  | unrouted _ unrouted _ result =>
      rw [result]
      exact iff_of_false nofun (answerable_of_unrouted unrouted)
  | routed _ incoming found result =>
      rw [result, Option.map_eq_none_iff]
      cases server_step (p := p) w incoming with
      | refused guarded unauthorized status refusal =>
          rw [refusal]
          refine iff_of_false nofun ?_
          rintro ⟨other, page, pageSize, claims, same, route, known, admitted, _⟩
          cases found.symm.trans same
          refine unauthorized (some claims) ⟨guarded, known, ?_⟩
          rw [route]
          exact admitted
      | limited route exhausted refusal =>
          rw [refusal]
          refine iff_of_false nofun ?_
          rintro ⟨other, page, pageSize, claims, same, listing, _⟩
          cases found.symm.trans same
          cases route.symm.trans listing
      | entered ctx authorized _ outcome =>
          rw [outcome, observed_response, handler_silent_iff authorized]
          constructor
          · rintro ⟨page, pageSize, route, panics⟩
            obtain ⟨listed, wraps⟩ := (list_none_iff bounded (params_admitted _ _)).mp panics
            cases ctx with
            | none =>
                have open_ : incoming.route.access = .anyone := authorized
                rw [route] at open_
                cases open_
            | some claims =>
                obtain ⟨_, known, admitted⟩ := authorized
                rw [route] at admitted
                exact ⟨incoming, page, pageSize, claims, found, route, known, admitted, listed,
                  wraps⟩
          · rintro ⟨other, page, pageSize, claims, same, route, _, _, listed, wraps⟩
            cases found.symm.trans same
            exact ⟨page, pageSize, route,
              (list_none_iff bounded (params_admitted _ _)).mpr ⟨listed, wraps⟩⟩

/-- Alice turns to a page of the trail that does not fit an `int`. -/
def aliceTurnsTooFar : Arriving :=
  { aliceFetches with
    request := { aliceFetches.request with
      requestURI := "/api/v1/audit?page=4611686018427387905&page_size=2"
      path := "/api/v1/audit"
      rawQuery := "page=4611686018427387905&page_size=2" } }

def listing : Route → Option (String × String)
  | .listAudit page pageSize => some (page, pageSize)
  | _ => none

theorem listing_eq {route : Route} {page pageSize : String}
    (listed : listing route = some (page, pageSize)) : route = .listAudit page pageSize := by
  cases route <;> cases listed
  rfl

/-- After her login the trail is not empty, and she gets no answer. -/
theorem silent_alice :
    ((frontDoor plainPlatform "").step ((frontDoor plainPlatform "").run plainWorld [alicePosts])
      aliceTurnsTooFar).2.response = none := by
  have routed : (aliceTurnsTooFar.incoming.map fun incoming =>
      (listing incoming.route, caller plainPlatform.service incoming.env incoming.request)) =
      some (some ("4611686018427387905", "2"), some aliceClaims) := by decide +kernel
  obtain ⟨incoming, found, read⟩ := Option.map_eq_some_iff.mp routed
  rw [Prod.mk.injEq] at read
  refine (silent_iff plainPlatform "" _ (by decide +kernel) aliceTurnsTooFar).mpr ?_
  exact ⟨incoming, _, _, aliceClaims, found, listing_eq read.1, read.2, by decide,
    by decide +kernel, by decide +kernel⟩

end Nexus.Server
