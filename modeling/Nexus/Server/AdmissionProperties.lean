import Nexus.Server.LoginProperties

/-! Which registrations are admitted and with which status the others are
turned away, against the rules as they are documented. -/

set_option autoImplicit false

namespace Nexus.Server

open Nexus.Lib Nexus.Go Nexus.Users Nexus.Auth

/-- The rules for a registration, with lengths as counted by `size`. -/
structure Admissible (unicode : UnicodeTables) (size : String → Nat) (req : RegisterRequest) :
    Prop where
  longEnough : 3 ≤ size (trimSpace req.username)
  shortEnough : size (trimSpace req.username) ≤ 50
  password : minPasswordLength ≤ size req.password
  role : toLower unicode (trimSpace req.role) ∈ validRoles

instance (unicode : UnicodeTables) (size : String → Nat) (req : RegisterRequest) :
    Decidable (Admissible unicode size req) :=
  decidable_of_iff
    (3 ≤ size (trimSpace req.username) ∧ size (trimSpace req.username) ≤ 50 ∧
      minPasswordLength ≤ size req.password ∧ toLower unicode (trimSpace req.role) ∈ validRoles)
    ⟨fun ⟨longEnough, shortEnough, password, role⟩ => ⟨longEnough, shortEnough, password, role⟩,
      fun admissible => ⟨admissible.longEnough, admissible.shortEnough, admissible.password,
        admissible.role⟩⟩

variable {σ : Type} [UserStore σ]

/-- Creating a user fails if the username is taken, without touching the store,
and for no other reason. -/
structure FailsOnlyOnDuplicates (store : σ) : Prop where
  taken : ∀ env u owner, UserStore.getUserByUsername store u.username = .ok owner →
    UserStore.createUser env store u = (store, .error errUserAlreadyExists)
  free : ∀ env u err, UserStore.getUserByUsername store u.username = .error err →
    ∃ after v, UserStore.createUser env store u = (after, .ok v)

theorem memory_failsOnlyOnDuplicates (store : MemoryUserStore) : FailsOnlyOnDuplicates store where
  taken env u owner found :=
    MemoryUserStore.createUser_taken (MemoryUserStore.getUserByUsername_ok_iff.mp found)
  free env u err missing := by
    cases held : store.byUsername.lookup u.username with
    | some owner =>
        have found := MemoryUserStore.getUserByUsername_ok_iff.mpr held
        exact absurd (missing.symm.trans found) (by simp)
    | none => exact ⟨_, _, MemoryUserStore.createUser_free held⟩

/-- Whether the username of a registration is free decides its status. -/
def nameStatus (store : σ) (req : RegisterRequest) : Nat :=
  match UserStore.getUserByUsername store (trimSpace req.username) with
  | .error _ => 201
  | .ok _ => 409

/-- The status of a registration as it is documented: lengths are characters. -/
def documentedStatus (unicode : UnicodeTables) (store : σ) (req : RegisterRequest) : Nat :=
  if Admissible unicode String.length req then nameStatus store req else 400

def RegisterRequest.input (unicode : UnicodeTables) (req : RegisterRequest) : RegisterInput where
  username := req.username
  password := req.password
  role := toLower unicode (trimSpace req.role)

section
variable {derive : List UInt8 → Nat → List UInt8 → Vector UInt8 23} {p : Platform}
  {req : RegisterRequest}

/-- The service counts bytes. -/
theorem newUser_refused (svc : Service) (env : Env)
    (inadmissible : ¬Admissible p.unicode len req) :
    ∃ err, svc.newUser env (RegisterRequest.input p.unicode req) = .error err ∧
      (registerError err).status = 400 := by
  unfold Service.newUser RegisterRequest.input
  dsimp only
  by_cases longEnough : len (trimSpace req.username) < 3
  · exact ⟨_, if_pos longEnough, rfl⟩
  by_cases shortEnough : len (trimSpace req.username) > 50
  · exact ⟨_, by rw [if_neg longEnough, if_pos shortEnough], rfl⟩
  by_cases password : len req.password < minPasswordLength
  · exact ⟨_, by rw [if_neg longEnough, if_neg shortEnough, if_pos password], rfl⟩
  by_cases role : toLower p.unicode (trimSpace req.role) ∉ validRoles
  · exact ⟨_, by rw [if_neg longEnough, if_neg shortEnough, if_neg password, if_pos role], rfl⟩
  · exact absurd ⟨by omega, by omega, by omega, not_not.mp role⟩ inadmissible

theorem newUser_unhashable {svc : Service} (real : svc.bcrypt = xcrypto derive) (env : Env)
    (admissible : Admissible p.unicode len req) (long : 72 < len req.password) :
    ∃ err, svc.newUser env (RegisterRequest.input p.unicode req) = .error err ∧
      (registerError err).status = 500 := by
  obtain ⟨longEnough, shortEnough, password, role⟩ := admissible
  unfold Service.newUser RegisterRequest.input
  dsimp only
  rw [if_neg (by omega), if_neg (by omega), if_neg (by omega), if_neg (not_not.mpr role), real,
    xcrypto_long long]
  exact ⟨_, rfl, rfl⟩

theorem newUser_admitted {svc : Service} (real : svc.bcrypt = xcrypto derive) (env : Env)
    (admissible : Admissible p.unicode len req) (short : len req.password ≤ 72) :
    ∃ u, svc.newUser env (RegisterRequest.input p.unicode req) = .ok u ∧
      u.username = trimSpace req.username := by
  obtain ⟨longEnough, shortEnough, password, role⟩ := admissible
  have hashes : ∃ hash, (xcrypto derive).generateFromPassword env.salt req.password bcryptCost =
      .ok hash := xcrypto_short short
  obtain ⟨hash, generated⟩ := hashes
  unfold Service.newUser RegisterRequest.input
  dsimp only
  rw [if_neg (by omega), if_neg (by omega), if_neg (by omega), if_neg (not_not.mpr role), real,
    generated]
  exact ⟨_, rfl, rfl⟩

/-- The answer has the status, and unless it is 201 the store stays as it was. -/
def RespondsWith (w : World σ) (outcome : World σ × Reply) (status : Nat) : Prop :=
  ∃ response, outcome.2.response = some response ∧ response.status = status ∧
    (status ≠ 201 → outcome.1.store = w.store)

variable {w : World σ} {env : Env} {r : HttpRequest} {ctx : Context}

theorem register_refused {err : AuthError}
    (refused : p.service.register env w.store (RegisterRequest.input p.unicode req) =
      (w.store, .error err)) :
    RespondsWith w (Auth.Handler.register p (some req) env r ctx w) (registerError err).status := by
  unfold RegisterRequest.input at refused
  simp only [Auth.Handler.register, refused]
  exact ⟨_, rfl, rfl, fun _ => rfl⟩

theorem register_created {after : σ} {u : User}
    (created : p.service.register env w.store (RegisterRequest.input p.unicode req) =
      (after, .ok u)) :
    RespondsWith w (Auth.Handler.register p (some req) env r ctx w) 201 := by
  unfold RegisterRequest.input at created
  simp only [Auth.Handler.register, created]
  exact ⟨_, rfl, rfl, fun other => absurd rfl other⟩

/-- The status the handler gives: lengths are bytes, and a password that bcrypt
does not take is the server's error. -/
def registerStatus (unicode : UnicodeTables) (store : σ) (req : RegisterRequest) : Nat :=
  if Admissible unicode len req then
    if 72 < len req.password then 500 else nameStatus store req
  else 400

theorem register_answered (real : p.service.bcrypt = xcrypto derive)
    (only : FailsOnlyOnDuplicates w.store) :
    RespondsWith w (Auth.Handler.register p (some req) env r ctx w)
      (registerStatus p.unicode w.store req) := by
  unfold registerStatus
  by_cases admissible : Admissible p.unicode len req
  · rw [if_pos admissible]
    by_cases long : 72 < len req.password
    · obtain ⟨err, refused, status⟩ := newUser_unhashable real env admissible long
      rw [if_pos long, ← status]
      exact register_refused (by rw [register_eq, refused])
    · obtain ⟨u, admitted, name⟩ := newUser_admitted real env admissible (by omega)
      have stored : p.service.register env w.store (RegisterRequest.input p.unicode req) =
          UserStore.createUser env w.store u := by
        rw [register_eq, admitted]
      rw [if_neg long, nameStatus, ← name]
      cases found : UserStore.getUserByUsername w.store u.username with
      | error err =>
          obtain ⟨after, v, created⟩ := only.free env u err found
          exact register_created (stored.trans created)
      | ok owner =>
          exact register_refused (stored.trans (only.taken env u owner found))
  · obtain ⟨err, refused, status⟩ := newUser_refused p.service env admissible
    have failed : p.service.register env w.store (RegisterRequest.input p.unicode req) =
        (w.store, .error err) := by
      rw [register_eq, refused]
    rw [if_neg admissible, ← status]
    exact register_refused failed

theorem nameStatus_cases (store : σ) (req : RegisterRequest) :
    nameStatus store req = 201 ∨ nameStatus store req = 409 := by
  unfold nameStatus
  cases UserStore.getUserByUsername store (trimSpace req.username) with
  | error err => exact .inl rfl
  | ok owner => exact .inr rfl

omit [UserStore σ] in
theorem RespondsWith.status_unique {outcome : World σ × Reply} {status other : Nat}
    (answered : RespondsWith w outcome status) (again : RespondsWith w outcome other) :
    status = other := by
  obtain ⟨response, replied, rfl, _⟩ := answered
  obtain ⟨same, alsoReplied, rfl, _⟩ := again
  rw [replied] at alsoReplied
  cases alsoReplied
  rfl

/-- Registration answers as documented, and leaves the store alone unless it
answers 201, exactly if its checks come to the same verdict counting bytes as
counting characters, and an admissible password has at most 72 bytes. -/
theorem register_documented_iff (real : p.service.bcrypt = xcrypto derive)
    (only : FailsOnlyOnDuplicates w.store) (req : RegisterRequest) (env : Env) (r : HttpRequest)
    (ctx : Context) :
    RespondsWith w (Auth.Handler.register p (some req) env r ctx w)
        (documentedStatus p.unicode w.store req) ↔
      (Admissible p.unicode len req ↔ Admissible p.unicode String.length req) ∧
        (Admissible p.unicode String.length req → len req.password ≤ 72) := by
  have actual : RespondsWith w (Auth.Handler.register p (some req) env r ctx w)
      (registerStatus p.unicode w.store req) :=
    register_answered real only
  have agree : RespondsWith w (Auth.Handler.register p (some req) env r ctx w)
      (documentedStatus p.unicode w.store req) ↔
        registerStatus p.unicode w.store req = documentedStatus p.unicode w.store req :=
    ⟨fun documented => actual.status_unique documented, fun same => same ▸ actual⟩
  rw [agree]
  have name := nameStatus_cases w.store req
  unfold registerStatus documentedStatus
  by_cases bytes : Admissible p.unicode len req
  · rw [if_pos bytes]
    by_cases characters : Admissible p.unicode String.length req
    · rw [if_pos characters]
      simp only [bytes, characters, true_and, true_imp_iff]
      by_cases long : 72 < len req.password
      · rw [if_pos long]
        omega
      · rw [if_neg long]
        omega
    · rw [if_neg characters]
      simp only [bytes, characters, iff_false, not_true_eq_false, false_and]
      by_cases long : 72 < len req.password
      · rw [if_pos long]
        decide
      · rw [if_neg long]
        omega
  · rw [if_neg bytes]
    by_cases characters : Admissible p.unicode String.length req
    · rw [if_pos characters]
      simp only [bytes, characters, false_iff, not_true_eq_false, false_and, iff_false]
      omega
    · simp only [bytes, characters, if_false, false_imp_iff, and_self]

end

/-- The server with the real bcrypt package. -/
def hashingPlatform : Platform := { plainPlatform with service := hashingService }

theorem register_documented_ascii :
    RespondsWith plainWorld (Auth.Handler.register hashingPlatform
        (some { username := " bobby", password := "hunter22", role := "Developer " })
        (plainEnv 0 "u-2") {} none plainWorld)
      (documentedStatus hashingPlatform.unicode plainWorld.store
        { username := " bobby", password := "hunter22", role := "Developer " }) :=
  (register_documented_iff (p := hashingPlatform) rfl (memory_failsOnlyOnDuplicates _) _ _ _
    _).mpr (by decide)

/-- Two characters of two bytes each pass for three characters. -/
theorem register_short_name :
    ¬ ∀ req : RegisterRequest, RespondsWith plainWorld
      (Auth.Handler.register hashingPlatform (some req) (plainEnv 0 "u-2") {} none plainWorld)
      (documentedStatus hashingPlatform.unicode plainWorld.store req) := by
  intro always
  obtain ⟨response, replied, status, _⟩ :=
    always { username := "éé", password := "hunter22", role := "developer" }
  have refused : documentedStatus hashingPlatform.unicode plainWorld.store
      { username := "éé", password := "hunter22", role := "developer" } = 400 := by decide
  have created : ((Auth.Handler.register hashingPlatform
      (some { username := "éé", password := "hunter22", role := "developer" })
      (plainEnv 0 "u-2") {} none plainWorld).2.response.map Response.status) = some 201 := by
    decide
  rw [replied, Option.map_some, status, refused] at created
  cases created

end Nexus.Server
