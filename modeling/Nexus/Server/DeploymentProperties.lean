import Mathlib.Data.Bool.AllAny
import Nexus.Auth.StorePostgresProperties
import Nexus.Server.AdmissionProperties

/-! The server in memory and the server over a database. The same requests meet the
same surroundings in both deployments, which share nothing else. The database
comes with a logger of its own, which inserts events late and keeps microseconds.
No handler but the listing of the trail reads a logger, so it is left open what
that one holds. -/

set_option autoImplicit false

namespace Nexus.Server

open Nexus.Lib Nexus.Go Nexus.Users Nexus.Auth Nexus.Audit Nexus.Policy

variable {p : Platform}

/-- A request to both deployments, and the trail in the database when it comes. -/
structure Arrival where
  incoming : Incoming
  trail : MemoryLogger

def deployments (p : Platform) :
    Machine (World MemoryUserStore × World PostgresUserStore) Arrival (Reply × Reply) where
  step worlds arrival :=
    let (memory, first) := (server p).step worlds.1 arrival.incoming
    let (postgres, second) :=
      (server p).step { worlds.2 with audit := arrival.trail } arrival.incoming
    ((memory, postgres), (first, second))

/-! ## The promise -/

def registeredJson (u : User) : Json :=
  .obj [("message", .str "user registered successfully"), ("user", publicUserJson u.toPublic)]

def usersJson (userList : List User) : Json :=
  let public_ := userList.map fun u => publicUserJson u.toPublic
  .obj [("count", .num public_.length), ("users", .arr public_)]

/-- The same body, up to the timestamps of users and the order of their list. -/
inductive SameBody : Body → Body → Prop where
  | equal (body : Body) : SameBody body body
  | profile {u v : User} (same : SameUser u v) :
      SameBody (.json (publicUserJson u.toPublic)) (.json (publicUserJson v.toPublic))
  | registered {u v : User} (same : SameUser u v) :
      SameBody (.json (registeredJson u)) (.json (registeredJson v))
  | listed {us vs : List User} (same : (us.map timeless).Perm (vs.map timeless)) :
      SameBody (.json (usersJson us)) (.json (usersJson vs))

structure SameResponse (first second : Response) : Prop where
  status : first.status = second.status
  headers : first.headers = second.headers
  body : SameBody first.body second.body

structure SameReply (first second : Reply) : Prop where
  entered : first.entered = second.entered
  response : Option.Rel SameResponse first.response second.response

/-- The same reply, unless the handler behind the guards gave it. -/
structure SameVerdict (first second : Reply) : Prop where
  entered : first.entered = second.entered
  refused : first.entered = none → SameReply first second

/-- Each deployment fills the pages of the trail from its own logger. -/
def Promised : Route → Reply → Reply → Prop
  | .listAudit _ _ => SameVerdict
  | _ => SameReply

/-- The table mirrors the maps, and nothing else differs but what the loggers hold.
No name or ID that the database could not have taken is in the maps. -/
structure SameWorld (memory : World MemoryUserStore) (postgres : World PostgresUserStore) :
    Prop where
  store : Alike memory.store postgres.store
  noNul : ∀ u ∈ memory.store.byID.values, hasNul u.id = false ∧ hasNul u.username = false
  engine : postgres.engine = memory.engine
  limiter : postgres.limiter = memory.limiter

/-! ## Replies -/

theorem SameReply.refl (reply : Reply) : SameReply reply reply where
  entered := rfl
  response := by
    cases reply.response with
    | none => exact .none
    | some response => exact .some ⟨rfl, rfl, .equal _⟩

instance : Std.Refl SameReply := ⟨SameReply.refl⟩

instance (route : Route) : Std.Refl (Promised route) where
  refl reply := by
    cases route with
    | listAudit => exact ⟨rfl, fun _ => .refl reply⟩
    | _ => exact .refl reply

theorem sameReply_respond {status : Nat} {first second : Json}
    (same : SameBody (.json first) (.json second)) :
    SameReply (respond (writeJSON status first)) (respond (writeJSON status second)) where
  entered := rfl
  response := .some ⟨rfl, rfl, same⟩

theorem SameWorld.log {memory : World MemoryUserStore} {postgres : World PostgresUserStore}
    (same : SameWorld memory postgres) (env : Env) (event : Event) :
    SameWorld (memory.log env event) (postgres.log env event) where
  store := same.store
  noNul := same.noNul
  engine := same.engine
  limiter := same.limiter

/-! ## Lookups -/

/-- Both found the same user, or neither found one. -/
inductive SameLookup : Except AuthError User → Except AuthError User → Prop where
  | found {u v : User} (same : SameUser u v) : SameLookup (.ok u) (.ok v)
  | missing (err other : AuthError) : SameLookup (.error err) (.error other)

theorem sameUser_iff {u v : User} :
    SameUser u v ↔
      ∃ created updated, v = { u with createdAt := created, updatedAt := updated } := by
  constructor
  · intro same
    refine ⟨v.createdAt, v.updatedAt, ?_⟩
    cases u
    cases v
    simp only [SameUser, timeless, User.mk.injEq] at same
    simpa [eq_comm] using same
  · rintro ⟨created, updated, rfl⟩
    rfl

theorem sameLookup_of_result {first second : Except AuthError User}
    (same : SameResult SameUser first second) : SameLookup first second := by
  cases first with
  | error err =>
      cases second with
      | error other => exact .missing err other
      | ok v => exact same.elim
  | ok u =>
      cases second with
      | error other => exact same.elim
      | ok v => exact .found same

section
variable {memory : World MemoryUserStore} {postgres : World PostgresUserStore}
  (same : SameWorld memory postgres)
include same

theorem SameWorld.getUserByID (env : Env) (id_ : String) :
    SameLookup (UserStore.getUserByID memory.store id_)
      (UserStore.getUserByID postgres.store id_) := by
  cases clean : hasNul id_ with
  | false =>
      have decided : Decided ⟨env, env, .getUserByID id_⟩ memory.store postgres.store :=
        getUserByID_decided same.store clean
      rcases decided with clashing | alike
      · exact clashing.1.elim
      · exact sameLookup_of_result alike.2.1
  | true =>
      have unknown : memory.store.byID.lookup id_ = none := by
        cases known : memory.store.byID.lookup id_ with
        | none => rfl
        | some u =>
            obtain ⟨filed, _⟩ := same.store.coherent.fromLeft known
            have stored := (same.noNul u (GoMap.mem_values_iff.mpr ⟨id_, known⟩)).1
            rw [filed, clean] at stored
            cases stored
      simp only [UserStore.getUserByID, MemoryUserStore.getUserByID,
        PostgresUserStore.getUserByID, PostgresUserStore.selectUser, clean, if_true, unknown]
      exact .missing _ _

theorem SameWorld.getUserByUsername (env : Env) (username : String) :
    SameLookup (UserStore.getUserByUsername memory.store username)
      (UserStore.getUserByUsername postgres.store username) := by
  cases clean : hasNul username with
  | false =>
      have decided : Decided ⟨env, env, .getUserByUsername username⟩ memory.store
          postgres.store := getUserByUsername_decided same.store clean
      rcases decided with clashing | alike
      · exact clashing.1.elim
      · exact sameLookup_of_result alike.2.1
  | true =>
      have unknown : memory.store.byUsername.lookup username = none := by
        cases known : memory.store.byUsername.lookup username with
        | none => rfl
        | some u =>
            obtain ⟨filed, stored⟩ := same.store.coherent.fromRight known
            have named := (same.noNul u (GoMap.mem_values_iff.mpr ⟨u.id, stored⟩)).2
            rw [filed, clean] at named
            cases named
      simp only [UserStore.getUserByUsername, MemoryUserStore.getUserByUsername,
        PostgresUserStore.getUserByUsername, PostgresUserStore.selectUser, clean, if_true,
        unknown]
      exact .missing _ _

/-- The lists have the same users, each of them once. -/
theorem SameWorld.listUsers (env : Env) :
    ∃ us vs, UserStore.listUsers env memory.store = .ok us ∧
      UserStore.listUsers env postgres.store = .ok vs ∧
      (us.map timeless).Perm (vs.map timeless) := by
  refine ⟨_, _, rfl, rfl, ?_⟩
  have decided : Decided ⟨env, env, .listUsers⟩ memory.store postgres.store :=
    listUsers_decided same.store
  rcases decided with clashing | alike
  · exact clashing.1.elim
  · have members := alike.2.1
    have ids : ∀ us : List User, (us.map timeless).map User.id = us.map User.id := by
      intro us
      rw [List.map_map]
      rfl
    refine (List.perm_ext_iff_of_nodup ?_ ?_).mpr members
    · apply List.Nodup.of_map User.id
      rw [ids]
      exact ((env.range memory.store.byID).perm.map User.id).nodup_iff.mpr
        (GoMap.nodup_values_of_keyed fun found => (same.store.coherent.fromLeft found).1)
    · apply List.Nodup.of_map User.id
      rw [ids, List.map_map]
      exact (((List.mergeSort_perm _ _).trans
        (env.range postgres.store.users.rows).perm).map UserRow.id).nodup_iff.mpr
        (GoMap.nodup_values_of_keyed postgres.store.users.keyed)

end

/-! ## Handlers -/

structure SameStep (alike : Reply → Reply → Prop) (first : World MemoryUserStore × Reply)
    (second : World PostgresUserStore × Reply) : Prop where
  reply : alike first.2 second.2
  world : SameWorld first.1 second.1

/-- The handlers do the same in both deployments, and reply alike. -/
def Twins (alike : Reply → Reply → Prop) (first : HandlerFunc MemoryUserStore)
    (second : HandlerFunc PostgresUserStore) : Prop :=
  ∀ env r ctx memory postgres, SameWorld memory postgres →
    SameStep alike (first env r ctx memory) (second env r ctx postgres)

section
variable {alike : Reply → Reply → Prop} [Std.Refl alike]

theorem SameStep.unchanged {memory : World MemoryUserStore} {postgres : World PostgresUserStore}
    (same : SameWorld memory postgres) (reply : Reply) :
    SameStep alike (memory, reply) (postgres, reply) := ⟨Std.Refl.refl reply, same⟩

theorem SameStep.logged {memory : World MemoryUserStore} {postgres : World PostgresUserStore}
    (same : SameWorld memory postgres) (env : Env) (event : Event) (reply : Reply) :
    SameStep alike (memory.log env event, reply) (postgres.log env event, reply) :=
  ⟨Std.Refl.refl reply, same.log env event⟩

variable {first : HandlerFunc MemoryUserStore} {second : HandlerFunc PostgresUserStore}

theorem twins_requireAuth {svc : Service} (twins : Twins alike first second) :
    Twins alike (requireAuth svc first) (requireAuth svc second) := by
  intro env r ctx memory postgres same
  unfold requireAuth
  cases extractBearerToken r with
  | none => exact .unchanged same _
  | some tokenStr =>
      dsimp only
      cases svc.validateToken env.now tokenStr with
      | error err => exact .unchanged same _
      | ok claims => exact twins env r (some claims) memory postgres same

theorem twins_requireRole {role : Role} (twins : Twins alike first second) :
    Twins alike (requireRole role first) (requireRole role second) := by
  intro env r ctx memory postgres same
  unfold requireRole
  cases ctx with
  | none => exact .unchanged same _
  | some claims =>
      dsimp only
      split
      · exact .unchanged same _
      · exact twins env r (some claims) memory postgres same

theorem twins_requireAnyRole {roles : List Role} (twins : Twins alike first second) :
    Twins alike (requireAnyRole roles first) (requireAnyRole roles second) := by
  intro env r ctx memory postgres same
  unfold requireAnyRole
  cases ctx with
  | none => exact .unchanged same _
  | some claims =>
      dsimp only
      split
      · exact .unchanged same _
      · exact twins env r (some claims) memory postgres same

theorem twins_withRateLimit (twins : Twins alike first second) :
    Twins alike (withRateLimit first) (withRateLimit second) := by
  intro env r ctx memory postgres same
  by_cases exhausted : memory.limiter.isRateLimited env r.remoteAddr = .ok true
  · have also := same.limiter ▸ exhausted
    rw [withRateLimit_of_limited exhausted, withRateLimit_of_limited also]
    exact .logged same env _ _
  · have also := same.limiter ▸ exhausted
    rw [withRateLimit_of_unlimited exhausted, withRateLimit_of_unlimited also]
    exact twins env r ctx memory postgres same

end

section
variable {first : HandlerFunc MemoryUserStore} {second : HandlerFunc PostgresUserStore}

theorem SameStep.observed {env : Env} {r : HttpRequest} {ctx : Context}
    {memory : World MemoryUserStore} {postgres : World PostgresUserStore}
    (step : SameStep SameReply (first env r ctx memory) (second env r ctx postgres)) :
    SameStep SameReply (observed first env r ctx memory) (observed second env r ctx postgres) :=
  ⟨⟨rfl, step.reply.response⟩, step.world⟩

theorem twins_observed (twins : Twins SameReply first second) :
    Twins SameReply (observed first) (observed second) :=
  fun env r ctx memory postgres same => (twins env r ctx memory postgres same).observed

end

theorem twins_login (body : Option LoginRequest) :
    Twins SameReply (Auth.Handler.login p body) (Auth.Handler.login p body) := by
  intro env r ctx memory postgres same
  unfold Auth.Handler.login
  cases body with
  | none => exact .unchanged same _
  | some req =>
      simp only [Service.login]
      have lookup := same.getUserByUsername env req.input.username
      generalize UserStore.getUserByUsername memory.store req.input.username = first at lookup ⊢
      generalize UserStore.getUserByUsername postgres.store req.input.username = second
        at lookup ⊢
      cases lookup with
      | missing => exact .logged same env _ _
      | @found u v sameUser =>
          obtain ⟨created, updated, rfl⟩ := sameUser_iff.mp sameUser
          have token : p.service.generateJWT env
              { u with createdAt := created, updatedAt := updated } =
                p.service.generateJWT env u := rfl
          simp only [token]
          cases p.service.bcrypt.compareHashAndPassword u.passwordHash req.input.password with
          | error err => exact .logged same env _ _
          | ok _ =>
              by_cases active : u.status = statusActive
              · simp only [active, ne_eq, not_true_eq_false, if_false]
                cases p.service.generateJWT env u with
                | error err =>
                    dsimp only
                    split
                    · exact .logged same env _ _
                    · exact .unchanged same _
                | ok token => exact .logged same env _ _
              · simp only [ne_eq, active, not_false_eq_true, if_true]
                exact .logged same env _ _

theorem twins_me : Twins SameReply Auth.Handler.me Auth.Handler.me := by
  intro env r ctx memory postgres same
  unfold Auth.Handler.me
  cases ctx with
  | none => exact .unchanged same _
  | some claims =>
      simp only [Auth.getUserByID]
      have lookup := same.getUserByID env claims.userID
      generalize UserStore.getUserByID memory.store claims.userID = first at lookup ⊢
      generalize UserStore.getUserByID postgres.store claims.userID = second at lookup ⊢
      cases lookup with
      | missing => exact .unchanged same _
      | found sameUser => exact ⟨sameReply_respond (.profile sameUser), same⟩

theorem twins_listUsers : Twins SameReply Auth.Handler.listUsers Auth.Handler.listUsers := by
  intro env r ctx memory postgres same
  obtain ⟨us, vs, first, second, permuted⟩ := same.listUsers env
  simp only [Auth.Handler.listUsers, Auth.listUsers, first, second]
  exact ⟨sameReply_respond (.listed permuted), same⟩

theorem twins_mfaVerify (body : Option MFAVerifyRequest) :
    Twins SameReply (Auth.Handler.mfaVerify p body) (Auth.Handler.mfaVerify p body) := by
  intro env r ctx memory postgres same
  unfold Auth.Handler.mfaVerify
  cases ctx with
  | none => exact .unchanged same _
  | some claims =>
      cases body with
      | none => exact .unchanged same _
      | some req =>
          dsimp only
          split
          · exact .unchanged same _
          · simp only [Auth.getUserByID]
            have lookup := same.getUserByID env claims.userID
            generalize UserStore.getUserByID memory.store claims.userID = first at lookup ⊢
            generalize UserStore.getUserByID postgres.store claims.userID = second at lookup ⊢
            cases lookup with
            | missing => exact .unchanged same _
            | @found u v sameUser =>
                obtain ⟨created, updated, rfl⟩ := sameUser_iff.mp sameUser
                dsimp only
                repeat' split
                all_goals first | exact .unchanged same _ | exact .logged same env _ _

theorem twins_checkAccess (body : Option AccessCheckRequest) :
    Twins SameReply (Policy.Handler.checkAccess body) (Policy.Handler.checkAccess body) := by
  intro env r ctx memory postgres same
  unfold Policy.Handler.checkAccess
  rw [same.engine]
  repeat' split
  all_goals first | exact .unchanged same _ | exact .logged same env _ _

theorem SameWorld.withEngine {memory : World MemoryUserStore} {postgres : World PostgresUserStore}
    (same : SameWorld memory postgres) (engine : Engine) :
    SameWorld { memory with engine := engine } { postgres with engine := engine } where
  store := same.store
  noNul := same.noNul
  engine := rfl
  limiter := same.limiter

theorem twins_createPolicy (body : Option CreatePolicyRequest) :
    Twins SameReply (Policy.Handler.createPolicy body) (Policy.Handler.createPolicy body) := by
  intro env r ctx memory postgres same
  unfold Policy.Handler.createPolicy
  rw [same.engine]
  cases body with
  | none => exact .unchanged same _
  | some req =>
      have changed := same.withEngine (memory.engine.createPolicy env.newID req.policy).1
      dsimp only
      repeat' split
      all_goals first
        | exact .unchanged same _
        | exact .unchanged changed _
        | exact .logged changed env _ _

theorem twins_deletePolicy (id : String) :
    Twins SameReply (Policy.Handler.deletePolicy id) (Policy.Handler.deletePolicy id) := by
  intro env r ctx memory postgres same
  unfold Policy.Handler.deletePolicy
  rw [same.engine]
  have changed := same.withEngine (memory.engine.deletePolicy id).1
  dsimp only
  repeat' split
  all_goals first
    | exact .unchanged same _
    | exact .unchanged changed _
    | exact .logged changed env _ _

def Route.listsTrail : Route → Bool
  | .listAudit _ _ => true
  | _ => false

/-- Every handler but those for registration and for the trail does the same
everywhere. -/
theorem twins_handler {route : Route} (other : route.isRegister = false)
    (apart : route.listsTrail = false) :
    Twins SameReply (route.handler p) (route.handler p) := by
  cases route with
  | register | listAudit => contradiction
  | login body => exact twins_login (p := p) body
  | me => exact twins_me
  | mfaVerify body => exact twins_mfaVerify (p := p) body
  | listUsers => exact twins_listUsers
  | checkAccess body => exact twins_checkAccess body
  | createPolicy body => exact twins_createPolicy body
  | deletePolicy id => exact twins_deletePolicy id
  | health | mfaSetup | adminOnly | userOrAdmin | listPolicies =>
      intro env r ctx memory postgres same
      simp only [Route.handler, Auth.Handler.mfaSetup, Auth.Handler.adminOnly,
        Auth.Handler.userOrAdmin, greeting, Policy.Handler.listPolicies]
      try rw [same.engine]
      repeat' split
      all_goals exact .unchanged same _

/-- The listing is entered for the same callers, and changes nothing. -/
theorem twins_list (page pageSize : String) :
    Twins SameVerdict (observed (Audit.Handler.list page pageSize))
      (observed (Audit.Handler.list page pageSize)) := by
  intro env r ctx memory postgres same
  refine ⟨⟨rfl, nofun⟩, ?_⟩
  have reads : ∀ {σ : Type} (w : World σ),
      (observed (Audit.Handler.list page pageSize) env r ctx w).1 = w := by
    intro σ w
    rw [observed_state, Audit.Handler.list]
    split <;> rfl
  rw [reads, reads]
  exact same

theorem twins_route {route : Route} (other : route.isRegister = false) :
    Twins (Promised route) (registerRoutes p route) (registerRoutes p route) := by
  have handler : route.listsTrail = false → Twins SameReply _ _ :=
    fun apart => twins_observed (twins_handler (p := p) other apart)
  cases route with
  | register => contradiction
  | health => exact handler rfl
  | login => exact twins_withRateLimit (handler rfl)
  | me | mfaSetup | mfaVerify | userOrAdmin | listPolicies | checkAccess =>
      exact twins_requireAuth (handler rfl)
  | adminOnly | listUsers => exact twins_requireAuth (twins_requireRole (handler rfl))
  | createPolicy | deletePolicy => exact twins_requireAuth (twins_requireAnyRole (handler rfl))
  | listAudit page pageSize =>
      exact twins_requireAuth (twins_requireAnyRole (twins_list page pageSize))

/-! ## Registration -/

/-- What registration draws and hashes fits its columns. -/
structure Storable (svc : Service) (incoming : Incoming) : Prop where
  named : incoming.env.newID ≠ ""
  short : incoming.env.newID.length ≤ 64
  clean : hasNul incoming.env.newID = false
  hashed : ∀ req hash, incoming.route = .register (some req) →
    svc.bcrypt.generateFromPassword incoming.env.salt req.password bcryptCost = .ok hash →
      hash.length ≤ 255 ∧ hasNul hash = false

/-- A registration that the maps take and the database does not: the name is free,
but it contains a NUL, or the drawn ID is taken. -/
def Diverges (p : Platform) (memory : World MemoryUserStore) (incoming : Incoming) : Prop :=
  ∃ req u, incoming.route = .register (some req) ∧
    p.service.newUser incoming.env (RegisterRequest.input p.unicode req) = .ok u ∧
    memory.store.byUsername.lookup u.username = none ∧
    (hasNul u.username = true ∨ ∃ holder, memory.store.byID.lookup u.id = some holder)

theorem validRoles_fit : ∀ role ∈ validRoles, role.length ≤ 32 ∧ hasNul role = false :=
  List.all_iff_forall_prop.mp (by decide)

theorem newUser_fits {svc : Service} {incoming : Incoming} (storable : Storable svc incoming)
    {req : RegisterRequest} (route : incoming.route = .register (some req))
    {unicode : UnicodeTables} {u : User}
    (admitted : svc.newUser incoming.env (RegisterRequest.input unicode req) = .ok u)
    (clean : hasNul u.username = false) : FitsColumns u := by
  have admits := newUser_ok admitted
  have record := admits.record
  obtain ⟨hashShort, hashClean⟩ := storable.hashed req u.passwordHash route admits.hashed
  obtain ⟨roleShort, roleClean⟩ := validRoles_fit _ admits.role
  have username : u.username = trimSpace req.username := by rw [record]; rfl
  have name := (length_le_len (trimSpace req.username)).trans admits.shortEnough
  rw [username] at clean
  rw [record]
  exact {
    named := storable.named
    organization := rfl
    noNul := by
      intro text listed
      simp only [userParameters, List.mem_cons, List.not_mem_nil, or_false] at listed
      rcases listed with rfl | rfl | rfl | rfl | rfl | rfl | rfl
      · exact storable.clean
      · exact clean
      · exact hashClean
      · exact roleClean
      · decide
      · decide
      · decide
    id := storable.short
    username := name.trans (by decide)
    passwordHash := hashShort
    role := roleShort
    status := (by decide : statusActive.length ≤ 32)
    mfaSecret := Nat.zero_le 64 }

theorem registerError_status_ne (err : AuthError) : (registerError err).status ≠ 201 := by
  unfold registerError
  repeat' split
  all_goals exact Nat.ne_of_beq_eq_false rfl

section
variable {memory : World MemoryUserStore} {postgres : World PostgresUserStore} {env : Env}
  {u : User}

/-- A name with a NUL is new to the maps, and the database refuses it. -/
theorem createUser_nul (same : SameWorld memory postgres) (nul : hasNul u.username = true) :
    memory.store.byUsername.lookup u.username = none ∧
      ∃ err, UserStore.createUser env postgres.store u = (postgres.store, .error err) := by
  constructor
  · cases known : memory.store.byUsername.lookup u.username with
    | none => rfl
    | some owner =>
        obtain ⟨filed, stored⟩ := same.store.coherent.fromRight known
        have clean := (same.noNul owner (GoMap.mem_values_iff.mpr ⟨owner.id, stored⟩)).2
        rw [filed, nul] at clean
        cases clean
  · have dirty : ∀ v : User, v.username = u.username →
        postgres.store.insertUser v = .error .characterNotInRepertoire := by
      intro v named
      have listed : (userParameters v).any hasNul = true := by
        rw [List.any_eq_true]
        exact ⟨v.username, by simp [userParameters], by rw [named, nul]⟩
      simp only [PostgresUserStore.insertUser, listed, if_true]
    refine ⟨wrapAfter "postgres create user" SqlError.characterNotInRepertoire.toError, ?_⟩
    simp only [UserStore.createUser, PostgresUserStore.createUser]
    rw [dirty _ (by split <;> rfl)]
    rfl

theorem SameWorld.createUser (same : SameWorld memory postgres) (clean : hasNul u.id = false)
    (cleanName : hasNul u.username = false) (named : u.id ≠ "")
    {first : MemoryUserStore} {second : PostgresUserStore}
    (stores : first = (UserStore.createUser env memory.store u).1) (alike : Alike first second) :
    SameWorld { memory with store := first } { postgres with store := second } where
  store := alike
  noNul := by
    subst stores
    have whole : (UserStore.createUser env memory.store u).1 =
        (MemoryUserStore.createUser env memory.store u).1 := rfl
    rw [whole]
    intro v listed
    cases held : memory.store.byUsername.lookup u.username with
    | some owner =>
        rw [MemoryUserStore.createUser_taken held] at listed
        exact same.noNul v listed
    | none =>
        rw [MemoryUserStore.createUser_free held] at listed
        rcases GoMap.mem_values_insert listed with rfl | before
        · simp only [stamped, if_neg named]
          exact ⟨clean, cleanName⟩
        · exact same.noNul v before
  engine := same.engine
  limiter := same.limiter

theorem postgres_createUser_ok (named : u.id ≠ "") {store : PostgresUserStore} {v : User}
    (created : (UserStore.createUser env store u).2 = .ok v) : v = stamped env u := by
  have unfolded := createUser_eq env store named
  have whole : UserStore.createUser env store u = PostgresUserStore.createUser env store u := rfl
  rw [whole, unfolded] at created
  split at created
  · split at created <;> cases created
  · cases created
    rfl

section
variable {req : RegisterRequest} {one : MemoryUserStore} {two : PostgresUserStore}
  {r : HttpRequest} {ctx : Context}

theorem told_apart {made : User} {err : AuthError}
    (created : p.service.register env memory.store (RegisterRequest.input p.unicode req) =
      (one, .ok made))
    (refused : p.service.register env postgres.store (RegisterRequest.input p.unicode req) =
      (two, .error err)) :
    ¬ Option.Rel SameResponse
      (Auth.Handler.register p (some req) env r ctx memory).2.response
      (Auth.Handler.register p (some req) env r ctx postgres).2.response := by
  intro alike
  unfold RegisterRequest.input at created refused
  simp only [Auth.Handler.register, created, refused] at alike
  cases alike with
  | some shown => exact registerError_status_ne err shown.status.symm

theorem sameStep_register {first second : Except AuthError User}
    (memorized : p.service.register env memory.store (RegisterRequest.input p.unicode req) =
      (one, first))
    (recorded : p.service.register env postgres.store (RegisterRequest.input p.unicode req) =
      (two, second))
    (results : SameResult SameUser first second)
    (duplicate : ∀ err, first = .error err → err = errUserAlreadyExists)
    (world : SameWorld { memory with store := one } { postgres with store := two }) :
    SameStep SameReply (Auth.Handler.register p (some req) env r ctx memory)
      (Auth.Handler.register p (some req) env r ctx postgres) := by
  unfold RegisterRequest.input at memorized recorded
  simp only [Auth.Handler.register, memorized, recorded]
  cases first with
  | error err =>
      cases second with
      | ok v => exact results.elim
      | error other =>
          cases duplicate err rfl
          have known : other.is .userAlreadyExists = true := results.1.symm
          have answer : registerError other = registerError errUserAlreadyExists := if_pos known
          dsimp only
          rw [answer]
          exact .logged world _ _ _
  | ok made =>
      cases second with
      | error err => exact results.elim
      | ok v =>
          obtain ⟨created, updated, rfl⟩ := sameUser_iff.mp results
          exact ⟨sameReply_respond (.registered results), world.log _ _⟩

/-- What validation turns away never gets to the stores. -/
theorem sameStep_rejected (same : SameWorld memory postgres) {err : AuthError}
    (rejected : p.service.newUser env (RegisterRequest.input p.unicode req) = .error err) :
    SameStep SameReply (Auth.Handler.register p (some req) env r ctx memory)
      (Auth.Handler.register p (some req) env r ctx postgres) := by
  have refused : ∀ {σ : Type} [UserStore σ] (store : σ),
      p.service.register env store (RegisterRequest.input p.unicode req) =
        (store, .error err) := by
    intro σ _ store
    rw [register_eq, rejected]
  have memorized := refused memory.store
  have recorded := refused postgres.store
  unfold RegisterRequest.input at memorized recorded
  simp only [Auth.Handler.register, memorized, recorded]
  exact .logged same _ _ _

end

theorem createUser_duplicate {store : MemoryUserStore} {err : AuthError}
    (failed : (UserStore.createUser env store u).2 = .error err) : err = errUserAlreadyExists := by
  have whole : UserStore.createUser env store u = MemoryUserStore.createUser env store u := rfl
  rw [whole] at failed
  cases held : store.byUsername.lookup u.username with
  | none =>
      rw [MemoryUserStore.createUser_free held] at failed
      cases failed
  | some owner =>
      rw [MemoryUserStore.createUser_taken held] at failed
      cases failed
      rfl

theorem diverges_iff {incoming : Incoming} {req : RegisterRequest}
    (route : incoming.route = .register (some req))
    (admitted : p.service.newUser incoming.env (RegisterRequest.input p.unicode req) = .ok u) :
    Diverges p memory incoming ↔ memory.store.byUsername.lookup u.username = none ∧
      (hasNul u.username = true ∨ ∃ holder, memory.store.byID.lookup u.id = some holder) := by
  constructor
  · rintro ⟨other, v, same, made, rest⟩
    cases route.symm.trans same
    cases admitted.symm.trans made
    exact rest
  · exact fun rest => ⟨req, u, route, admitted, rest⟩

/-- A registration diverges and is told, or it does the same in both
deployments. -/
theorem register_decided (same : SameWorld memory postgres) {incoming : Incoming}
    (storable : Storable p.service incoming) {req : RegisterRequest}
    (route : incoming.route = .register (some req)) (r : HttpRequest) (ctx : Context) :
    (Diverges p memory incoming ∧ ¬ Option.Rel SameResponse
      (Auth.Handler.register p (some req) incoming.env r ctx memory).2.response
      (Auth.Handler.register p (some req) incoming.env r ctx postgres).2.response) ∨
    (¬ Diverges p memory incoming ∧ SameStep SameReply
      (Auth.Handler.register p (some req) incoming.env r ctx memory)
      (Auth.Handler.register p (some req) incoming.env r ctx postgres)) := by
  cases admitted : p.service.newUser incoming.env (RegisterRequest.input p.unicode req) with
  | error err =>
      refine .inr ⟨?_, sameStep_rejected same admitted⟩
      rintro ⟨other, u, again, made, _⟩
      cases route.symm.trans again
      cases admitted.symm.trans made
  | ok u =>
      have diverges : Diverges p memory incoming ↔ _ := diverges_iff route admitted
      have drawn : u.id = incoming.env.newID := by rw [(newUser_ok admitted).record]
      have named : u.id ≠ "" := drawn ▸ storable.named
      have ids : (stamped incoming.env u).id = u.id := if_neg named
      have memorized : p.service.register incoming.env memory.store
          (RegisterRequest.input p.unicode req) =
            UserStore.createUser incoming.env memory.store u := by rw [register_eq, admitted]
      have recorded : p.service.register incoming.env postgres.store
          (RegisterRequest.input p.unicode req) =
            UserStore.createUser incoming.env postgres.store u := by rw [register_eq, admitted]
      have free : memory.store.byUsername.lookup u.username = none →
          UserStore.createUser incoming.env memory.store u = (_, .ok (stamped incoming.env u)) :=
        MemoryUserStore.createUser_free
      cases clean : hasNul u.username with
      | true =>
          have nul : _ ∧ ∃ err, UserStore.createUser incoming.env postgres.store u =
              (postgres.store, .error err) := createUser_nul same clean
          obtain ⟨unknown, err, refused⟩ := nul
          exact .inl ⟨diverges.mpr ⟨unknown, .inl clean⟩,
            told_apart (memorized.trans (free unknown)) (recorded.trans refused)⟩
      | false =>
          have fits : FitsColumns u := newUser_fits storable route admitted clean
          have decided : Decided ⟨incoming.env, incoming.env, .createUser u⟩ memory.store
              postgres.store := createUser_decided same.store fits
          rcases decided with ⟨⟨unknown, holder, held⟩, different⟩ | ⟨harmless, agrees, alike⟩
          · rw [ids] at held
            refine .inl ⟨diverges.mpr ⟨unknown, .inr ⟨holder, held⟩⟩, ?_⟩
            have results : ¬ SameResult SameUser
                (UserStore.createUser incoming.env memory.store u).2
                (UserStore.createUser incoming.env postgres.store u).2 := different
            cases stored : UserStore.createUser incoming.env postgres.store u with
            | mk after result =>
                cases result with
                | error err =>
                    exact told_apart (memorized.trans (free unknown)) (recorded.trans stored)
                | ok v =>
                    cases postgres_createUser_ok named (congrArg Prod.snd stored)
                    rw [free unknown, stored] at results
                    exact absurd rfl results
          · refine .inr ⟨?_, sameStep_register memorized recorded agrees
              (fun _ => createUser_duplicate)
              (same.createUser (drawn ▸ storable.clean) clean named rfl alike)⟩
            intro diverging
            obtain ⟨unknown, nul | ⟨holder, held⟩⟩ := diverges.mp diverging
            · exact absurd (nul.symm.trans clean) nofun
            · exact harmless ⟨unknown, holder, by rw [ids]; exact held⟩

end

/-! ## Over every run -/

theorem step_decided {memory : World MemoryUserStore} {postgres : World PostgresUserStore}
    (same : SameWorld memory postgres) {incoming : Incoming}
    (storable : Storable p.service incoming) :
    (Diverges p memory incoming ∧ ¬ Promised incoming.route
      ((server p).step memory incoming).2 ((server p).step postgres incoming).2) ∨
    (¬ Diverges p memory incoming ∧ SameStep (Promised incoming.route)
      ((server p).step memory incoming) ((server p).step postgres incoming)) := by
  have others : incoming.route.isRegister = false → SameStep (Promised incoming.route)
      ((server p).step memory incoming) ((server p).step postgres incoming) :=
    fun other => twins_route other incoming.env incoming.request none memory postgres same
  obtain ⟨env, r, route⟩ := incoming
  cases route with
  | register body =>
      have authorized : Authorized p.service ⟨env, r, .register body⟩ none := rfl
      rw [step_of_authorized authorized nofun, step_of_authorized authorized nofun]
      simp only [Route.handler]
      cases body with
      | none =>
          refine .inr ⟨?_, ⟨.refl _, same⟩⟩
          rintro ⟨req, u, registering, _⟩
          cases registering
      | some req =>
          rcases register_decided same storable rfl r none with
            ⟨diverges, told⟩ | ⟨harmless, step⟩
          · refine .inl ⟨diverges, ?_⟩
            intro alike
            have shown := alike.response
            rw [observed_response, observed_response] at shown
            dsimp only at told
            exact told shown
          · dsimp only at step
            exact .inr ⟨harmless, step.observed⟩
  | _ =>
      refine .inr ⟨?_, others rfl⟩
      rintro ⟨req, u, registering, _⟩
      cases registering

theorem SameWorld.withTrail {memory : World MemoryUserStore} {postgres : World PostgresUserStore}
    (same : SameWorld memory postgres) (trail : MemoryLogger) :
    SameWorld memory { postgres with audit := trail } where
  store := same.store
  noNul := same.noNul
  engine := same.engine
  limiter := same.limiter

def emptyWorld {σ : Type} (store : σ) : World σ where
  store := store
  engine := newEngine "dev" "adm" "vwr"
  audit := newMemoryLogger
  limiter := .disabled

theorem emptyWorlds_same : SameWorld (emptyWorld .new) (emptyWorld .new) :=
  ⟨.empty, nofun, rfl, rfl⟩

/-- A registration for a name, which draws an ID. -/
def registers (username newID : String) : Incoming where
  env := plainEnv 0 newID
  request := {}
  route := .register (some { username := username, password := "hunter22", role := "viewer" })

theorem registers_storable {username newID : String} (named : newID ≠ "")
    (short : newID.length ≤ 64) (clean : hasNul newID = false) :
    Storable plainService (registers username newID) := by
  refine ⟨named, short, clean, ?_⟩
  rintro req hash ⟨⟩ generated
  cases generated
  have short : ("$2a$" ++ "hunter22").length ≤ 255 := by decide
  have clean : hasNul ("$2a$" ++ "hunter22") = false := by decide
  exact ⟨short, clean⟩

/-- A name that ends in a NUL. -/
def nulName : String := "eve" ++ String.singleton (Char.ofNat 0)

/-- Bob is registered in both deployments, and alice finds the trails that each of
them keeps. -/
def bobIsRegistered : List Arrival := [
  ⟨registers "bob" "u-8", newMemoryLogger⟩,
  ⟨aliceSends (.listAudit "1" "20"), newMemoryLogger⟩]

end Nexus.Server
