import Nexus.Auth.StoreProperties
import Nexus.Server.Concurrent

/-! What one request adds to the trail: the event of its answer, if the answer
is about an account, and the change it makes to the policies. -/

set_option autoImplicit false

namespace Nexus.Server

open Nexus.Lib Nexus.Go Nexus.Users Nexus.Auth Nexus.Audit Nexus.Policy

@[simp] theorem filled_action (env : Env) (event : Event) :
    (event.filled env).action = event.action := by
  have same := congrArg Event.action (Event.anonymous_filled env event)
  exact same

@[simp] theorem filled_userID (env : Env) (event : Event) :
    (event.filled env).userID = event.userID := by
  have same := congrArg Event.userID (Event.anonymous_filled env event)
  exact same

@[simp] theorem filled_resource (env : Env) (event : Event) :
    (event.filled env).resource = event.resource := by
  have same := congrArg Event.resource (Event.anonymous_filled env event)
  exact same

@[simp] theorem policyChange_filled (env : Env) (event : Event) :
    policyChange (event.filled env) = policyChange event := by
  simp only [policyChange, filled_action, filled_resource]

theorem changes_append (first second : List Event) :
    changes (first ++ second) = changes first ++ changes second :=
  List.filterMap_append

/-- Users are filed under their IDs. -/
def Keyed (store : MemoryUserStore) : Prop :=
  ∀ id u, store.byID.lookup id = some u → u.id = id

theorem keyed_new : Keyed MemoryUserStore.new := nofun

theorem Account.action_injective : Function.Injective Account.action := by
  intro account other same
  cases account <;> cases other <;> first | rfl | exact absurd same (by decide)

/-- The actions of events that the accounts or the policies are about. -/
def accountedActions : List Action :=
  [actionAccessGranted, actionAccessDenied, actionLoginSuccess, actionMFASuccess,
    actionMFAFailed, actionPolicyCreated, actionPolicyDeleted]

theorem Account.action_mem (account : Account) : account.action ∈ accountedActions := by
  cases account <;> decide

theorem policyChange_of_outside {event : Event} (outside : event.action ∉ accountedActions) :
    policyChange event = none := by
  have created : event.action ≠ actionPolicyCreated :=
    fun same => outside (same ▸ by decide)
  have deleted : event.action ≠ actionPolicyDeleted :=
    fun same => outside (same ▸ by decide)
  rw [policyChange, if_neg created, if_neg deleted]

theorem policyChange_of_account {event : Event} {account : Account}
    (named : event.action = account.action) : policyChange event = none := by
  have created : account.action ≠ actionPolicyCreated := by cases account <;> decide
  have deleted : account.action ≠ actionPolicyDeleted := by cases account <;> decide
  rw [policyChange, named, if_neg created, if_neg deleted]

/-- What a request does to the policies, and what its events say about it. -/
inductive PolicyEffect (incoming : Incoming) (before after : Engine) (added : List Event) :
    Prop where
  | nothing (same : after = before) (silent : changes added = [])
  | creates {body : Option CreatePolicyRequest} (route : incoming.route = .createPolicy body)
      (stored : ∀ id, id ∈ after.policies ↔ id = incoming.env.newID ∨ id ∈ before.policies)
      (recorded : changes added = [.add incoming.env.newID])
  | deletes {id : String} (present : id ∈ before.policies)
      (removed : ∀ other, other ∈ after.policies ↔ other ∈ before.policies ∧ other ≠ id)
      (recorded : changes added = [.remove id])

/-- A request and the events it adds to the trail balance. -/
structure Accounted (svc : Service) (w after : World MemoryUserStore) (answered : Answered)
    (added : List Event) : Prop where
  trail : after.audit.events = w.audit.events ++ added
  balance : ∀ account userID, added.countP (Account.records account userID) =
    if account.recipient svc answered = some userID then 1 else 0
  policies : PolicyEffect answered.incoming w.engine after.engine added
  keyed : Keyed after.store

section
variable {svc : Service} {w after : World MemoryUserStore} {answered : Answered} {env : Env}
  {event : Event}

/-- An event outside the accounts, and an answer to nobody's. -/
theorem balance_outside (nobody : ∀ account, Account.recipient svc account answered = none)
    (different : ∀ account, event.action ≠ Account.action account) (account : Account)
    (userID : String) :
    [event.filled env].countP (Account.records account userID) =
      if account.recipient svc answered = some userID then 1 else 0 := by
  rw [nobody, List.countP_singleton]
  simp [Account.records, different account]

theorem balance_of_change {change : Change String}
    (nobody : ∀ account, Account.recipient svc account answered = none)
    (changed : policyChange event = some change) (account : Account) (userID : String) :
    [event.filled env].countP (Account.records account userID) =
      if account.recipient svc answered = some userID then 1 else 0 := by
  refine balance_outside nobody (fun other named => ?_) account userID
  rw [policyChange_of_account named] at changed
  cases changed

theorem Accounted.silent (keyed : Keyed w.store)
    (nobody : ∀ account, Account.recipient svc account answered = none) :
    Accounted svc w w answered [] where
  trail := (List.append_nil _).symm
  balance account userID := by
    rw [nobody]
    rfl
  policies := .nothing rfl rfl
  keyed := keyed

/-- At most the users change. -/
theorem Accounted.outside {later : World MemoryUserStore} (sameTrail : later.audit = w.audit)
    (sameEngine : later.engine = w.engine) (keyed : Keyed later.store)
    (nobody : ∀ account, Account.recipient svc account answered = none)
    (outside : event.action ∉ accountedActions) :
    Accounted svc w (later.log env event) answered [event.filled env] where
  trail := by
    rw [← sameTrail]
    rfl
  balance := balance_outside nobody fun account same => outside (same ▸ account.action_mem)
  policies := .nothing sameEngine (by simp [changes, policyChange_of_outside outside])
  keyed := keyed

/-- An event and an answer about the same account of the same user. -/
theorem Accounted.tallied (keyed : Keyed w.store) (about : Account)
    (named : event.action = about.action)
    (served : about.recipient svc answered = some event.userID)
    (others : ∀ account ≠ about, Account.recipient svc account answered = none) :
    Accounted svc w (w.log env event) answered [event.filled env] where
  trail := rfl
  balance account userID := by
    rw [List.countP_singleton]
    by_cases same : account = about
    · subst same
      simp [Account.records, named, served]
    · have different : about.action ≠ account.action :=
        fun equal => same (Account.action_injective equal).symm
      simp [Account.records, named, others account same, different]
  policies := .nothing rfl (by simp [changes, policyChange_of_account named])
  keyed := keyed

end

theorem tokenOf_token (token : String) :
    tokenOf (writeJSON 200 (.obj [("token", .str token)])) = some token := rfl

theorem decisionOf_resultJson (result : Result) :
    decisionOf (writeJSON 200 (resultJson result)) = some result.decision := rfl

/-- The answer a handler gives, marked as `observed` marks it. -/
def answeredBy {σ : Type} (incoming : Incoming) (ctx : Context) (outcome : World σ × Reply) :
    Answered where
  incoming := incoming
  reply := { outcome.2 with entered := some ctx }

section
variable {p : Platform} {w : World MemoryUserStore} {incoming : Incoming}

/-- An answer that fails is about no account, unless it rejects a code. -/
theorem nobody_of_failure {reply : Reply} {response : Response}
    (answer : reply.response = some response) (failed : response.status ≠ 200)
    (unrejected : ∀ body, incoming.route = .mfaVerify body → response.status = 401 →
      caller p.service incoming.env incoming.request = none) (account : Account) :
    account.recipient p.service { incoming := incoming, reply := reply } = none := by
  unfold Account.recipient
  rw [answer]
  cases route : incoming.route with
  | mfaVerify body =>
      cases account <;> simp only [if_neg failed]
      split
      · rename_i rejected
        rw [unrejected body route rejected]
        rfl
      · rfl
  | checkAccess body => cases account <;> simp [decisionOf, failed]
  | login body => cases account <;> simp [tokenOf, failed]
  | _ => cases account <;> rfl

theorem token_userID {svc : Service} (sound : svc.jwt.Sound) {env : Env} {u : User}
    {token : String} (issued : svc.generateJWT env u = .ok token) :
    (svc.jwt.parseUnverified token).toOption.map (fun parsed => parsed.2.userID) =
      some u.id := by
  rw [sound.parses _ _ _ (claimsFor_wholeSeconds env u) issued]
  rfl

theorem login_accounted (sound : p.service.jwt.Sound) (keyed : Keyed w.store)
    {body : Option LoginRequest} (route : incoming.route = .login body) (ctx : Context) :
    ∃ added, Accounted p.service w
      (Auth.Handler.login p body incoming.env incoming.request ctx w).1
      (answeredBy incoming ctx (Auth.Handler.login p body incoming.env incoming.request ctx w))
      added := by
  have nobody : ∀ response : Response, response.status ≠ 200 →
      ∀ (after : World MemoryUserStore) account, Account.recipient p.service account
        (answeredBy incoming ctx (after, respond response)) = none :=
    fun _ failed _ => nobody_of_failure rfl failed (by simp [route])
  simp only [Auth.Handler.login]
  split
  · exact ⟨[], .silent keyed (nobody _ (by simp) w)⟩
  split
  · split
    · have outside : actionLoginFailed ∉ accountedActions := by decide
      exact ⟨_, .outside rfl rfl keyed (nobody _ (by simp) _) outside⟩
    · exact ⟨[], .silent keyed (nobody _ (by simp) w)⟩
  · rename_i token u logged
    refine ⟨_, .tallied keyed .loginSuccess rfl ?_ fun account another => ?_⟩
    · have owner := token_userID sound (login_ok_iff.mp logged).2.2.2
      simp only [Account.recipient, answeredBy, respond, route, tokenOf_token, Option.bind_some]
      exact owner
    · cases account <;> simp_all [Account.recipient, answeredBy, respond]

theorem mfaVerify_accounted (keyed : Keyed w.store) {body : Option MFAVerifyRequest}
    (route : incoming.route = .mfaVerify body) {claims : Claims}
    (known : caller p.service incoming.env incoming.request = some claims) :
    ∃ added, Accounted p.service w
      (Auth.Handler.mfaVerify p body incoming.env incoming.request (some claims) w).1
      (answeredBy incoming (some claims)
        (Auth.Handler.mfaVerify p body incoming.env incoming.request (some claims) w))
      added := by
  have nobody : ∀ response : Response, response.status ≠ 200 → response.status ≠ 401 →
      ∃ added, Accounted p.service w w (answeredBy incoming (some claims) (w, respond response))
        added := by
    intro response failed unrejected
    exact ⟨[], .silent keyed (nobody_of_failure rfl failed fun _ _ rejected =>
      absurd rejected unrejected)⟩
  simp only [Auth.Handler.mfaVerify]
  split
  · exact nobody _ (by simp) (by simp)
  split
  · exact nobody _ (by simp) (by simp)
  split
  · exact nobody _ (by simp) (by simp)
  rename_i u found
  have own : u.id = claims.userID := keyed _ _ (MemoryUserStore.getUserByID_ok_iff.mp found)
  split
  · exact nobody _ (by simp) (by simp)
  split
  · refine ⟨[], .silent keyed fun account => ?_⟩
    cases account <;> simp [Account.recipient, answeredBy, panicked, route]
  · exact nobody _ (by simp) (by simp)
  · refine ⟨_, .tallied keyed .mfaFailed rfl ?_ fun account another => ?_⟩
    · simp [Account.recipient, answeredBy, respond, route, known, own]
    · cases account <;> simp_all [Account.recipient, answeredBy, respond]
  · refine ⟨_, .tallied keyed .mfaSuccess rfl ?_ fun account another => ?_⟩
    · simp [Account.recipient, answeredBy, respond, route, known, own]
    · cases account <;> simp_all [Account.recipient, answeredBy, respond]

theorem checkAccess_accounted (keyed : Keyed w.store) {body : Option AccessCheckRequest}
    (route : incoming.route = .checkAccess body) {claims : Claims}
    (known : caller p.service incoming.env incoming.request = some claims) :
    ∃ added, Accounted p.service w
      (Policy.Handler.checkAccess body incoming.env incoming.request (some claims) w).1
      (answeredBy incoming (some claims)
        (Policy.Handler.checkAccess body incoming.env incoming.request (some claims) w))
      added := by
  have refused : ∀ response : Response, response.status ≠ 200 →
      ∃ added, Accounted p.service w w (answeredBy incoming (some claims) (w, respond response))
        added := fun _ failed =>
    ⟨[], .silent keyed (nobody_of_failure rfl failed (by simp [route]))⟩
  simp only [Policy.Handler.checkAccess]
  split
  · exact refused _ (by simp)
  rename_i req
  split
  · exact refused _ (by simp)
  · by_cases allowed : (w.engine.evaluate (incoming.env.range w.engine.policies)
        (accessRequest claims req incoming.request)).decision = decisionAllow
    · refine ⟨_, .tallied keyed .accessGranted (if_neg (not_not_intro allowed)) ?_
        fun account another => ?_⟩
      · simp [Account.recipient, answeredBy, respond, route, known, decisionOf_resultJson, allowed,
          accessEvent]
      · cases account <;> simp_all [Account.recipient, answeredBy, respond, decisionOf_resultJson]
    · refine ⟨_, .tallied keyed .accessDenied (if_pos allowed) ?_ fun account another => ?_⟩
      · simp [Account.recipient, answeredBy, respond, route, known, decisionOf_resultJson, allowed,
          accessEvent]
      · cases account <;> simp_all [Account.recipient, answeredBy, respond, decisionOf_resultJson]

/-- The routes whose answers the accounts are about. -/
def Route.accounted : Route → Bool
  | .checkAccess _ | .login _ | .mfaVerify _ => true
  | _ => false

theorem nobody_of_route {reply : Reply} (unaccounted : incoming.route.accounted = false)
    (account : Account) :
    account.recipient p.service { incoming := incoming, reply := reply } = none := by
  unfold Account.recipient
  cases route : incoming.route with
  | checkAccess body | login body | mfaVerify body =>
      rw [route] at unaccounted
      cases unaccounted
  | _ => cases account <;> rfl

theorem unaccounted_of_readsOnly {route : Route} (reads : route.readsOnly = true) :
    route.accounted = false := by
  cases route <;> first | rfl | cases reads

theorem keyed_createUser {store : MemoryUserStore} (keyed : Keyed store) (env : Env) (u : User) :
    Keyed (MemoryUserStore.createUser env store u).1 := by
  cases taken : store.byUsername.lookup u.username with
  | some owner =>
      rw [MemoryUserStore.createUser_taken taken]
      exact keyed
  | none =>
      rw [MemoryUserStore.createUser_free taken]
      intro id v stored
      rw [GoMap.lookup_insert_eq] at stored
      split at stored
      · rename_i same
        cases stored
        exact same.symm
      · exact keyed id v stored

theorem keyed_register {store : MemoryUserStore} (keyed : Keyed store) (svc : Service) (env : Env)
    (input : RegisterInput) : Keyed (svc.register env store input).1 := by
  unfold Service.register
  cases svc.newUser env input with
  | error err => exact keyed
  | ok u => exact keyed_createUser keyed env u

theorem register_accounted (keyed : Keyed w.store) {body : Option RegisterRequest}
    (route : incoming.route = .register body) (ctx : Context) :
    ∃ added, Accounted p.service w
      (Auth.Handler.register p body incoming.env incoming.request ctx w).1
      (answeredBy incoming ctx
        (Auth.Handler.register p body incoming.env incoming.request ctx w)) added := by
  have nobody : ∀ reply account, Account.recipient p.service account
      { incoming := incoming, reply := reply } = none :=
    fun _ => nobody_of_route (by rw [route]; rfl)
  have outside : actionUserRegistered ∉ accountedActions := by decide
  simp only [Auth.Handler.register]
  split
  · exact ⟨[], .silent keyed (nobody _)⟩
  · rename_i req
    have kept := keyed_register keyed p.service incoming.env {
      username := req.username
      password := req.password
      role := toLower p.unicode (trimSpace req.role) }
    generalize p.service.register incoming.env w.store _ = outcome at kept ⊢
    obtain ⟨store, result⟩ := outcome
    cases result with
    | error err => exact ⟨_, .outside rfl rfl kept (nobody _) outside⟩
    | ok u => exact ⟨_, .outside rfl rfl kept (nobody _) outside⟩

theorem createPolicy_accounted (keyed : Keyed w.store) {body : Option CreatePolicyRequest}
    (route : incoming.route = .createPolicy body) (claims : Claims) :
    ∃ added, Accounted p.service w
      (Policy.Handler.createPolicy body incoming.env incoming.request (some claims) w).1
      (answeredBy incoming (some claims)
        (Policy.Handler.createPolicy body incoming.env incoming.request (some claims) w))
      added := by
  have nobody : ∀ reply account, Account.recipient p.service account
      { incoming := incoming, reply := reply } = none :=
    fun _ => nobody_of_route (by rw [route]; rfl)
  simp only [Policy.Handler.createPolicy]
  split
  · exact ⟨[], .silent keyed (nobody _)⟩
  split
  · exact ⟨[], .silent keyed (nobody _)⟩
  · exact ⟨_, {
      trail := rfl
      balance := balance_of_change (nobody _) rfl
      policies := .creates route (fun id => AList.mem_insert _) rfl
      keyed := keyed }⟩

theorem deletePolicy_accounted (keyed : Keyed w.store) {id : String}
    (route : incoming.route = .deletePolicy id) (claims : Claims) :
    ∃ added, Accounted p.service w
      (Policy.Handler.deletePolicy id incoming.env incoming.request (some claims) w).1
      (answeredBy incoming (some claims)
        (Policy.Handler.deletePolicy id incoming.env incoming.request (some claims) w))
      added := by
  have nobody : ∀ reply account, Account.recipient p.service account
      { incoming := incoming, reply := reply } = none :=
    fun _ => nobody_of_route (by rw [route]; rfl)
  simp only [Policy.Handler.deletePolicy]
  split
  · exact ⟨[], .silent keyed (nobody _)⟩
  cases stored : w.engine.policies.lookup id with
  | none =>
      simp only [Engine.deletePolicy, stored]
      exact ⟨[], .silent keyed (nobody _)⟩
  | some policy =>
      have present : id ∈ w.engine.policies := AList.lookup_isSome.mp (by rw [stored]; rfl)
      simp only [Engine.deletePolicy, stored]
      exact ⟨_, {
        trail := rfl
        balance := balance_of_change (nobody _) rfl
        policies := .deletes present (fun other => AList.mem_erase.trans and_comm) rfl
        keyed := keyed }⟩

theorem Authorized.claims {ctx : Context} (authorized : Authorized p.service incoming ctx)
    (guarded : incoming.route.access ≠ .anyone) :
    ∃ claims, ctx = some claims ∧
      caller p.service incoming.env incoming.request = some claims := by
  cases ctx with
  | none => exact absurd authorized guarded
  | some claims => exact ⟨claims, rfl, authorized.2.1⟩

/-- Behind the guards of a route. -/
theorem handler_accounted (sound : p.service.jwt.Sound) (keyed : Keyed w.store) {ctx : Context}
    (authorized : Authorized p.service incoming ctx) :
    ∃ added, Accounted p.service w
      (incoming.route.handler p incoming.env incoming.request ctx w).1
      (answeredBy incoming ctx (incoming.route.handler p incoming.env incoming.request ctx w))
      added := by
  have quiet : incoming.route.readsOnly = true → ∃ added, Accounted p.service w
      (incoming.route.handler p incoming.env incoming.request ctx w).1
      (answeredBy incoming ctx (incoming.route.handler p incoming.env incoming.request ctx w))
      added := by
    intro reads
    rw [handler_readsOnly reads]
    exact ⟨[], .silent keyed (nobody_of_route (unaccounted_of_readsOnly reads))⟩
  cases route : incoming.route with
  | register body => exact register_accounted keyed route ctx
  | login body => exact login_accounted sound keyed route ctx
  | mfaVerify body =>
      obtain ⟨claims, rfl, known⟩ := authorized.claims (by rw [route]; exact nofun)
      exact mfaVerify_accounted keyed route known
  | createPolicy body =>
      obtain ⟨claims, rfl, known⟩ := authorized.claims (by rw [route]; exact nofun)
      exact createPolicy_accounted keyed route claims
  | deletePolicy id =>
      obtain ⟨claims, rfl, known⟩ := authorized.claims (by rw [route]; exact nofun)
      exact deletePolicy_accounted keyed route claims
  | checkAccess body =>
      obtain ⟨claims, rfl, known⟩ := authorized.claims (by rw [route]; exact nofun)
      exact checkAccess_accounted keyed route known
  | _ =>
      rw [route] at quiet
      exact quiet rfl

theorem step_accounted (sound : p.service.jwt.Sound) (keyed : Keyed w.store)
    (incoming : Incoming) :
    ∃ added, Accounted p.service w ((server p).step w incoming).1
      { incoming := incoming, reply := ((server p).step w incoming).2 } added := by
  cases server_step (p := p) w incoming with
  | @refused response guarded unauthorized status result =>
      rw [result]
      have notOk : response.status ≠ 200 := by
        rcases status with code | code <;> rw [code] <;> decide
      have unknown : ∀ body, incoming.route = .mfaVerify body →
          caller p.service incoming.env incoming.request = none := by
        intro body route
        by_contra someone
        obtain ⟨claims, known⟩ := Option.ne_none_iff_exists'.mp someone
        exact unauthorized (some claims) ⟨guarded, known, by rw [route]; trivial⟩
      exact ⟨[], .silent keyed (nobody_of_failure rfl notOk fun body route _ =>
        unknown body route)⟩
  | limited route exhausted result =>
      rw [result]
      have outside : actionRateLimitTriggered ∉ accountedActions := by decide
      have nobody : ∀ account, Account.recipient p.service account
          { incoming := incoming, reply := respond rateLimited } = none :=
        nobody_of_failure rfl (by decide) (by simp [route])
      exact ⟨_, .outside rfl rfl keyed nobody outside⟩
  | entered ctx authorized admitted result =>
      rw [result]
      exact handler_accounted sound keyed authorized

end

end Nexus.Server
