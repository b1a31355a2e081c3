import Nexus.Server.Routes
import Nexus.Auth.ServiceProperties

/-! What one request can do. `Served` lists the outcomes of a request, from
which every invariant of the server is derived; the laws after it say which
part of the state each handler may touch. -/

set_option autoImplicit false

namespace Nexus.Server

open Nexus.Lib Nexus.Go Nexus.Users Nexus.Auth Nexus.Audit Nexus.Policy Nexus.Security

variable {σ : Type}

/-! ## Guards -/

/-- Whose request it is, as the bearer token tells. -/
def caller (svc : Service) (env : Env) (r : HttpRequest) : Option Claims :=
  (extractBearerToken r).bind fun tokenStr => (svc.validateToken env.now tokenStr).toOption

theorem caller_eq_some_iff {svc : Service} {env : Env} {r : HttpRequest} {claims : Claims} :
    caller svc env r = some claims ↔ ∃ tokenStr, extractBearerToken r = some tokenStr ∧
      svc.validateToken env.now tokenStr = .ok claims := by
  simp only [caller, Option.bind_eq_some_iff]
  refine exists_congr fun tokenStr => and_congr_right fun _ => ?_
  cases svc.validateToken env.now tokenStr <;> simp [Except.toOption]

theorem requireAuth_of_caller {svc : Service} {env : Env} {r : HttpRequest} {claims : Claims}
    (known : caller svc env r = some claims) (next : HandlerFunc σ) (ctx : Context)
    (w : World σ) : requireAuth svc next env r ctx w = next env r (some claims) w := by
  obtain ⟨tokenStr, extracted, valid⟩ := caller_eq_some_iff.mp known
  simp only [requireAuth, extracted, valid]

theorem requireAuth_of_unknown {svc : Service} {env : Env} {r : HttpRequest}
    (unknown : caller svc env r = none) (next : HandlerFunc σ) (ctx : Context)
    (w : World σ) :
    ∃ message, requireAuth svc next env r ctx w = (w, respond (writeError 401 message)) := by
  cases extracted : extractBearerToken r with
  | none => exact ⟨_, by simp only [requireAuth, extracted]; rfl⟩
  | some tokenStr =>
      cases valid : svc.validateToken env.now tokenStr with
      | error err => exact ⟨_, by simp only [requireAuth, extracted, valid]; rfl⟩
      | ok claims =>
          rw [caller_eq_some_iff.mpr ⟨tokenStr, extracted, valid⟩] at unknown
          cases unknown

theorem requireRole_admits {role : Role} {claims : Claims} (next : HandlerFunc σ)
    (admitted : claims.role ∈ [roleSuperAdmin, role]) (env : Env) (r : HttpRequest)
    (w : World σ) :
    requireRole role next env r (some claims) w = next env r (some claims) w := by
  have either : ¬ (claims.role ≠ role ∧ claims.role ≠ roleSuperAdmin) := by
    simpa [imp_iff_not_or, or_comm] using admitted
  simp only [requireRole, if_neg either]

theorem requireRole_rejects {role : Role} {claims : Claims} (next : HandlerFunc σ)
    (rejected : claims.role ∉ [roleSuperAdmin, role]) (env : Env) (r : HttpRequest)
    (w : World σ) :
    ∃ message, requireRole role next env r (some claims) w =
      (w, respond (writeError 403 message)) := by
  have neither : claims.role ≠ role ∧ claims.role ≠ roleSuperAdmin := by
    simpa [and_comm] using rejected
  exact ⟨_, by simp only [requireRole, if_pos neither]; rfl⟩

theorem requireAnyRole_admits {roles : List Role} {claims : Claims}
    (next : HandlerFunc σ) (admitted : claims.role ∈ roleSuperAdmin :: roles) (env : Env)
    (r : HttpRequest) (w : World σ) :
    requireAnyRole roles next env r (some claims) w = next env r (some claims) w := by
  simp only [requireAnyRole, if_neg (not_not_intro admitted)]

theorem requireAnyRole_rejects {roles : List Role} {claims : Claims}
    (next : HandlerFunc σ) (rejected : claims.role ∉ roleSuperAdmin :: roles) (env : Env)
    (r : HttpRequest) (w : World σ) :
    ∃ message, requireAnyRole roles next env r (some claims) w =
      (w, respond (writeError 403 message)) :=
  ⟨_, by simp only [requireAnyRole, if_pos rejected]; rfl⟩

def limitedEvent (r : HttpRequest) : Event where
  action := actionRateLimitTriggered
  ipAddress := r.remoteAddr
  userAgent := r.userAgent

theorem withRateLimit_of_limited {w : World σ} {env : Env} {r : HttpRequest}
    (exhausted : w.limiter.isRateLimited env r.remoteAddr = .ok true)
    (next : HandlerFunc σ) (ctx : Context) :
    withRateLimit next env r ctx w = (w.log env (limitedEvent r), respond rateLimited) := by
  simp only [withRateLimit, exhausted, if_true]
  rfl

theorem withRateLimit_of_unlimited {w : World σ} {env : Env} {r : HttpRequest}
    (unlimited : w.limiter.isRateLimited env r.remoteAddr ≠ .ok true)
    (next : HandlerFunc σ) (ctx : Context) :
    withRateLimit next env r ctx w = next env r ctx w := by
  cases checked : w.limiter.isRateLimited env r.remoteAddr with
  | error err => simp only [withRateLimit, checked]; rfl
  | ok exhausted =>
      cases exhausted with
      | true => exact absurd checked unlimited
      | false => simp only [withRateLimit, checked]; rfl

@[simp] theorem observed_state (handler : HandlerFunc σ) (env : Env) (r : HttpRequest)
    (ctx : Context) (w : World σ) :
    (observed handler env r ctx w).1 = (handler env r ctx w).1 := rfl

@[simp] theorem observed_entered (handler : HandlerFunc σ) (env : Env) (r : HttpRequest)
    (ctx : Context) (w : World σ) :
    (observed handler env r ctx w).2.entered = some ctx := rfl

@[simp] theorem observed_response (handler : HandlerFunc σ) (env : Env) (r : HttpRequest)
    (ctx : Context) (w : World σ) :
    (observed handler env r ctx w).2.response = (handler env r ctx w).2.response := rfl

/-- Who a route is for. -/
inductive Access where
  | anyone
  | authenticated
  | roles (allowed : List Role)

def Access.admits : Access → Role → Prop
  | .roles allowed, role => role ∈ roleSuperAdmin :: allowed
  | _, _ => True

def Route.access : Route → Access
  | .health | .register _ | .login _ => .anyone
  | .me | .mfaSetup | .mfaVerify _ | .userOrAdmin | .listPolicies | .checkAccess _ =>
      .authenticated
  | .adminOnly | .listUsers => .roles [roleAdmin]
  | .createPolicy _ | .deletePolicy _ | .listAudit _ _ =>
      .roles [roleAdmin, roleSecurityManager]

variable [UserStore σ] (p : Platform)

/-- The handler behind the guards of a route. -/
def Route.handler : Route → HandlerFunc σ
  | .health => Server.health
  | .register body => Auth.Handler.register p body
  | .login body => Auth.Handler.login p body
  | .me => Auth.Handler.me
  | .mfaSetup => Auth.Handler.mfaSetup
  | .mfaVerify body => Auth.Handler.mfaVerify p body
  | .adminOnly => Auth.Handler.adminOnly
  | .userOrAdmin => Auth.Handler.userOrAdmin
  | .listUsers => Auth.Handler.listUsers
  | .listPolicies => Policy.Handler.listPolicies
  | .createPolicy body => Policy.Handler.createPolicy body
  | .deletePolicy id => Policy.Handler.deletePolicy id
  | .checkAccess body => Policy.Handler.checkAccess body
  | .listAudit page pageSize => Audit.Handler.list page pageSize

/-- The context with which a request may reach its handler. -/
def Authorized (svc : Service) (incoming : Incoming) : Context → Prop
  | none => incoming.route.access = .anyone
  | some claims => incoming.route.access ≠ .anyone ∧
      caller svc incoming.env incoming.request = some claims ∧
      incoming.route.access.admits claims.role

def limited (w : World σ) (incoming : Incoming) : Prop :=
  w.limiter.isRateLimited incoming.env incoming.request.remoteAddr = .ok true

/-- The outcomes of a request. -/
inductive Served (w : World σ) (incoming : Incoming) (outcome : World σ × Reply) : Prop where
  | refused {response : Response} (guarded : incoming.route.access ≠ .anyone)
      (unauthorized : ∀ ctx, ¬ Authorized p.service incoming ctx)
      (status : response.status = 401 ∨ response.status = 403)
      (result : outcome = (w, respond response))
  | limited {body : Option LoginRequest} (route : incoming.route = .login body)
      (exhausted : limited w incoming)
      (result : outcome =
        (w.log incoming.env (limitedEvent incoming.request), respond rateLimited))
  | entered (ctx : Context) (authorized : Authorized p.service incoming ctx)
      (admitted : ∀ body, incoming.route = .login body → ¬ Server.limited w incoming)
      (result : outcome =
        observed (incoming.route.handler p) incoming.env incoming.request ctx w)

variable {p}

/-- Every protected route is its handler behind guards that admit exactly the
authorized contexts. -/
private theorem served_of_guards {w : World σ} {incoming : Incoming}
    (guards : HandlerFunc σ → HandlerFunc σ)
    (guarded : incoming.route.access ≠ .anyone)
    (unlimited : ∀ body, incoming.route ≠ .login body)
    (admits : ∀ claims next, incoming.route.access.admits claims.role →
      guards next incoming.env incoming.request (some claims) w =
        next incoming.env incoming.request (some claims) w)
    (rejects : ∀ claims next, ¬ incoming.route.access.admits claims.role →
      ∃ message, guards next incoming.env incoming.request (some claims) w =
        (w, respond (writeError 403 message))) :
    Served p w incoming (requireAuth p.service (guards (observed (incoming.route.handler p)))
      incoming.env incoming.request none w) := by
  have noOpenDoor : ¬ Authorized p.service incoming none := guarded
  cases known : caller p.service incoming.env incoming.request with
  | none =>
      obtain ⟨message, refusal⟩ := requireAuth_of_unknown known
        (guards (observed (incoming.route.handler p))) none w
      refine .refused guarded ?_ (.inl rfl) refusal
      intro ctx authorized
      cases ctx with
      | none => exact noOpenDoor authorized
      | some claims => exact absurd (known.symm.trans authorized.2.1) nofun
  | some claims =>
      rw [requireAuth_of_caller known]
      by_cases allowed : incoming.route.access.admits claims.role
      · rw [admits claims _ allowed]
        exact .entered (some claims) ⟨guarded, known, allowed⟩
          (fun body isLogin => absurd isLogin (unlimited body)) rfl
      · obtain ⟨message, refusal⟩ := rejects claims
          (observed (incoming.route.handler p)) allowed
        refine .refused guarded ?_ (.inr rfl) refusal
        intro ctx authorized
        cases ctx with
        | none => exact noOpenDoor authorized
        | some other =>
            obtain ⟨_, identified, admitted⟩ := authorized
            rw [known] at identified
            cases identified
            exact allowed admitted

private theorem served_login (w : World σ) (env : Env) (request : HttpRequest)
    (body : Option LoginRequest) :
    Served p w { env := env, request := request, route := .login body }
      (withRateLimit (observed (Auth.Handler.login p body)) env request none w) := by
  by_cases exhausted : w.limiter.isRateLimited env request.remoteAddr = .ok true
  · exact .limited rfl exhausted (withRateLimit_of_limited exhausted _ none)
  · exact .entered none rfl (fun _ _ => exhausted)
      (withRateLimit_of_unlimited exhausted _ none)

/-- The inversion of a step of the server. -/
theorem server_step (w : World σ) (incoming : Incoming) :
    Served p w incoming ((server p).step w incoming) := by
  obtain ⟨env, request, route⟩ := incoming
  cases route with
  | health | register => exact .entered none rfl nofun rfl
  | login body => exact served_login w env request body
  | me | mfaSetup | mfaVerify | userOrAdmin | listPolicies | checkAccess =>
      exact served_of_guards (id) nofun nofun (fun _ _ _ => rfl)
        (fun _ _ rejected => absurd trivial rejected)
  | adminOnly | listUsers =>
      exact served_of_guards (requireRole roleAdmin) nofun nofun
        (fun _ next admitted => requireRole_admits next admitted _ _ _)
        (fun _ next rejected => requireRole_rejects next rejected _ _ _)
  | createPolicy | deletePolicy | listAudit =>
      exact served_of_guards (requireAnyRole [roleAdmin, roleSecurityManager])
        nofun nofun
        (fun _ next admitted => requireAnyRole_admits next admitted _ _ _)
        (fun _ next rejected => requireAnyRole_rejects next rejected _ _ _)

/-! ## What handlers touch -/

/-- A handler that reads the state and at most extends the audit log. -/
def OnlyLogs (handler : HandlerFunc σ) : Prop :=
  ∀ env r ctx w, (handler env r ctx w).1 = w ∨
    ∃ event, (handler env r ctx w).1 = w.log env event

def Route.isRegister : Route → Bool
  | .register _ => true
  | _ => false

def Route.changesPolicies : Route → Bool
  | .createPolicy _ | .deletePolicy _ => true
  | _ => false

def Route.readsOnly : Route → Bool
  | .health | .me | .mfaSetup | .adminOnly | .userOrAdmin | .listUsers | .listPolicies
  | .listAudit _ _ => true
  | _ => false

theorem handler_readsOnly {route : Route} (reads : route.readsOnly = true) (env : Env)
    (r : HttpRequest) (ctx : Context) (w : World σ) : (route.handler p env r ctx w).1 = w := by
  cases route with
  | register | login | mfaVerify | createPolicy | deletePolicy | checkAccess => contradiction
  | health | me | mfaSetup | adminOnly | userOrAdmin | listUsers | listPolicies | listAudit =>
      simp only [Route.handler, Auth.Handler.me, Auth.Handler.mfaSetup, Auth.Handler.adminOnly,
        Auth.Handler.userOrAdmin, Auth.Handler.listUsers, Policy.Handler.listPolicies,
        Audit.Handler.list, greeting, Server.health]
      repeat' split
      all_goals rfl

theorem handler_onlyLogs {route : Route} (noRegister : route.isRegister = false)
    (noPolicies : route.changesPolicies = false) :
    OnlyLogs (route.handler p : HandlerFunc σ) := by
  intro env r ctx w
  cases route with
  | register | createPolicy | deletePolicy => contradiction
  | health | me | mfaSetup | adminOnly | userOrAdmin | listUsers | listPolicies | listAudit =>
      exact .inl (handler_readsOnly rfl env r ctx w)
  | login | mfaVerify | checkAccess =>
      simp only [Route.handler, Auth.Handler.login, Auth.Handler.mfaVerify,
        Policy.Handler.checkAccess]
      repeat' split
      all_goals with_reducible first | exact .inl rfl | exact .inr ⟨_, rfl⟩

/-- What a request may do to the users and the policies. -/
inductive Effect (p : Platform) (env : Env) (w after : World σ) : Route → Prop where
  | nothing {route : Route} (store : after.store = w.store) (engine : after.engine = w.engine) :
      Effect p env w after route
  | registers {body : Option RegisterRequest} (input : RegisterInput)
      (store : after.store = (p.service.register env w.store input).1)
      (engine : after.engine = w.engine) : Effect p env w after (.register body)
  | creates {req : CreatePolicyRequest} (store : after.store = w.store)
      (engine : after.engine = (w.engine.createPolicy env.newID req.policy).1) :
      Effect p env w after (.createPolicy (some req))
  | deletes {id : String} (store : after.store = w.store)
      (engine : after.engine = (w.engine.deletePolicy id).1) :
      Effect p env w after (.deletePolicy id)

/-- No handler touches the limiter. -/
theorem handler_effect (route : Route) (env : Env) (r : HttpRequest) (ctx : Context)
    (w : World σ) :
    (route.handler p env r ctx w).1.limiter = w.limiter ∧
      Effect p env w (route.handler p env r ctx w).1 route := by
  by_cases logging : route.isRegister = false ∧ route.changesPolicies = false
  · rcases handler_onlyLogs (p := p) logging.1 logging.2 env r ctx w with same | ⟨event, logged⟩
    · rw [same]
      exact ⟨rfl, .nothing rfl rfl⟩
    · rw [logged]
      exact ⟨rfl, .nothing rfl rfl⟩
  · cases route with
    | register body =>
        simp only [Route.handler, Auth.Handler.register]
        cases body with
        | none => exact ⟨rfl, .nothing rfl rfl⟩
        | some req =>
            let input : RegisterInput := {
              username := req.username
              password := req.password
              role := toLower p.unicode (trimSpace req.role) }
            dsimp only
            split
            all_goals
              refine ⟨by rw [World.log_limiter], .registers input ?_ ?_⟩
              · rw [World.log_store]
              · rw [World.log_engine]
    | createPolicy body =>
        simp only [Route.handler, Policy.Handler.createPolicy]
        cases body with
        | none => exact ⟨rfl, .nothing rfl rfl⟩
        | some req =>
            dsimp only
            split
            · exact ⟨rfl, .nothing rfl rfl⟩
            · cases ctx <;> exact ⟨rfl, .creates rfl rfl⟩
    | deletePolicy id =>
        simp only [Route.handler, Policy.Handler.deletePolicy]
        split
        · exact ⟨rfl, .nothing rfl rfl⟩
        · split
          · exact ⟨rfl, .deletes rfl rfl⟩
          · cases ctx <;> exact ⟨rfl, .deletes rfl rfl⟩
    | _ => exact absurd ⟨rfl, rfl⟩ logging

theorem server_effect (w : World σ) (incoming : Incoming) :
    ((server p).step w incoming).1.limiter = w.limiter ∧
      Effect p incoming.env w ((server p).step w incoming).1 incoming.route := by
  cases server_step (p := p) w incoming with
  | refused _ _ _ result =>
      rw [result]
      exact ⟨rfl, .nothing rfl rfl⟩
  | limited _ _ result =>
      rw [result]
      exact ⟨rfl, .nothing rfl rfl⟩
  | entered ctx _ _ result =>
      rw [result, observed_state]
      exact handler_effect incoming.route incoming.env incoming.request ctx w

theorem Authorized.unique {svc : Service} {incoming : Incoming} {ctx other : Context}
    (authorized : Authorized svc incoming ctx) (reached : Authorized svc incoming other) :
    ctx = other := by
  cases ctx with
  | none =>
      cases other with
      | none => rfl
      | some claims => exact absurd authorized reached.1
  | some claims =>
      cases other with
      | none => exact absurd reached authorized.1
      | some others => exact authorized.2.1.symm.trans reached.2.1

/-- An authorized request reaches the handler of its route. -/
theorem step_of_authorized {w : World σ} {incoming : Incoming} {ctx : Context}
    (authorized : Authorized p.service incoming ctx)
    (admitted : ∀ body, incoming.route = .login body → ¬ limited w incoming) :
    (server p).step w incoming =
      observed (incoming.route.handler p) incoming.env incoming.request ctx w := by
  cases server_step (p := p) w incoming with
  | refused _ unauthorized => exact absurd authorized (unauthorized ctx)
  | limited route exhausted => exact absurd exhausted (admitted _ route)
  | entered other reached _ result => rw [result, authorized.unique reached]

/-- Authentication is all it takes where a route asks for nothing else. -/
theorem step_of_caller {w : World σ} {incoming : Incoming} {claims : Claims}
    (authenticated : incoming.route.access = .authenticated)
    (known : caller p.service incoming.env incoming.request = some claims) :
    (server p).step w incoming =
      observed (incoming.route.handler p) incoming.env incoming.request (some claims) w := by
  apply step_of_authorized
  · refine ⟨?_, known, ?_⟩ <;> rw [authenticated]
    · exact nofun
    · trivial
  · intro body route
    rw [route] at authenticated
    cases authenticated

theorem step_of_limited {w : World σ} {incoming : Incoming} {body : Option LoginRequest}
    (route : incoming.route = .login body) (exhausted : limited w incoming) :
    (server p).step w incoming =
      (w.log incoming.env (limitedEvent incoming.request), respond rateLimited) := by
  cases server_step (p := p) w incoming with
  | refused guarded => exact absurd (by rw [route]; rfl) guarded
  | limited _ _ result => exact result
  | entered _ _ admitted => exact absurd exhausted (admitted body route)

/-- No request changes the limiter. -/
theorem run_limiter (w : World σ) (events : List Incoming) :
    ((server p).run w events).limiter = w.limiter := by
  induction events generalizing w with
  | nil => rfl
  | cons incoming events ih =>
      rw [Machine.run_cons, ih]
      exact (server_effect w incoming).1

/-! ## A concrete server -/

def plainPlatform : Platform where
  service := plainService
  hmacSHA1 _ _ := .replicate 20 0
  unicode := { toUpper := id, toLower := id }

def plainWorld : World MemoryUserStore where
  store := { byID := .singleton "u-1" alice, byUsername := .singleton "alice" alice }
  engine := newEngine "dev" "adm" "vwr"
  audit := newMemoryLogger
  limiter := .redis ∅

/-- A request of alice's after she logged in. -/
def aliceSends (route : Route) : Incoming where
  env := plainEnv minute "n-1"
  request := { authorization := "Bearer jwt", remoteAddr := "192.0.2.7:50001" }
  route := route

end Nexus.Server
