import Nexus.Auth.DirectoryProperties

/-! Registration followed by login, with any calls before, between and after
them. Registering trims the username and logging in does not. -/

set_option autoImplicit false

namespace Nexus.Auth

open Nexus.Lib Nexus.Go Nexus.Users

variable {svc : Service}

/-! ## Usernames are kept trimmed -/

structure Trimmed (d : Directory) : Prop where
  stored : ∀ username u, d.store.byUsername.lookup username = some u →
    trimSpace username = username
  pending : ∀ u ∈ d.pending, trimSpace u.username = u.username

theorem trimmed_new : Trimmed .new where
  stored username u found := by cases found
  pending u member := absurd member List.not_mem_nil

theorem Trimmed.createUser {d : Directory} (trimmed : Trimmed d) {u : User}
    (name : trimSpace u.username = u.username) (env : Env) {rest : List User}
    (fewer : rest ⊆ d.pending) :
    Trimmed { store := (MemoryUserStore.createUser env d.store u).1, pending := rest } := by
  refine ⟨?_, fun v member => trimmed.pending v (fewer member)⟩
  intro username owner found
  cases held : d.store.byUsername.lookup u.username with
  | some other =>
      rw [MemoryUserStore.createUser_taken held] at found
      exact trimmed.stored username owner found
  | none =>
      rw [MemoryUserStore.createUser_free held, GoMap.lookup_insert_eq] at found
      split at found
      · rename_i same
        rw [same]
        exact name
      · exact trimmed.stored username owner found

theorem run_trimmed (svc : Service) {d : Directory} (trimmed : Trimmed d) (calls : List Call) :
    Trimmed ((directory svc).run d calls) := by
  have maintained : ∀ (state : Directory) (call : Call), True → Trimmed state →
      Trimmed ((directory svc).fire state call).after := by
    intro state call _ trimmed
    cases directory_step svc state call with
    | unchanged after =>
        rw [after]
        exact trimmed
    | hashed event admitted after =>
        rw [after]
        refine ⟨trimmed.stored, ?_⟩
        intro v member
        rcases List.mem_append.mp member with old | added
        · exact trimmed.pending v old
        · rw [List.mem_singleton.mp added]
          exact (newUser_ok admitted).registrable.trimmed
    | created chosen after =>
        rw [after]
        have member := List.mem_of_getElem? chosen
        exact trimmed.createUser (trimmed.pending _ member) _ (List.eraseIdx_sublist _ _).subset
  exact (directory svc).run_invariant maintained trimmed (fun _ _ => trivial)

/-- Once a username is taken it stays with its owner. -/
theorem run_keeps (svc : Service) {d : Directory} {username : String} {owner : User}
    (held : d.store.byUsername.lookup username = some owner) (calls : List Call) :
    ((directory svc).run d calls).store.byUsername.lookup username = some owner := by
  have maintained : ∀ (state : Directory) (call : Call), True →
      state.store.byUsername.lookup username = some owner →
      ((directory svc).fire state call).after.store.byUsername.lookup username =
        some owner := by
    intro state call _ held
    cases directory_step svc state call with
    | unchanged after =>
        rw [after]
        exact held
    | hashed event admitted after =>
        rw [after]
        exact held
    | created chosen after =>
        rw [after]
        exact MemoryUserStore.createUser_keeps held _
  exact (directory svc).run_invariant maintained held (fun _ _ => trivial)

/-! ## Registration followed by login -/

/-- What a successful registration leaves: its record, under the trimmed name. -/
structure Registered (svc : Service) (env : Env) (input : RegisterInput)
    (before after : MemoryUserStore) (u : User) : Prop where
  held : after.byUsername.lookup (trimSpace input.username) = some u
  active : u.status = statusActive
  hashed : svc.bcrypt.generateFromPassword env.salt input.password bcryptCost =
    .ok u.passwordHash
  stepped : ∃ made, trimSpace made.username = made.username ∧
    after = (MemoryUserStore.createUser env before made).1

theorem register_ok {env : Env} {before after : MemoryUserStore} {input : RegisterInput}
    {u : User} (succeeded : svc.register env before input = (after, .ok u)) :
    Registered svc env input before after u := by
  rw [register_eq] at succeeded
  cases admitted : svc.newUser env input with
  | error err =>
      rw [admitted] at succeeded
      cases succeeded
  | ok made =>
      rw [admitted] at succeeded
      have admits := newUser_ok admitted
      have name : made.username = trimSpace input.username := by rw [admits.record]
      have active : made.status = statusActive := by rw [admits.record]
      have created : MemoryUserStore.createUser env before made = (after, .ok u) := succeeded
      have record := MemoryUserStore.createUser_ok (congrArg Prod.snd created)
      refine ⟨?_, ?_, ?_, made, admits.registrable.trimmed, (congrArg Prod.fst created).symm⟩
      · cases held : before.byUsername.lookup made.username with
        | some owner =>
            rw [MemoryUserStore.createUser_taken held] at created
            cases created
        | none =>
            rw [MemoryUserStore.createUser_free held] at created
            rw [← (Prod.mk.inj created).1, GoMap.lookup_insert_eq, if_pos name.symm, record]
      · rw [record]
        exact active
      · rw [record]
        exact admits.hashed

/-- After a registration and any further calls, logging in with the very
strings of the registration succeeds, with a token that is valid until it
expires and names the registered user, exactly when the username had no space
around it. -/
theorem login_after_register_iff (svc : Service) (ideal : svc.bcrypt.Ideal)
    (sound : svc.jwt.Sound) (before after : List Call) (env : Env) (input : RegisterInput)
    (store : MemoryUserStore) (u : User)
    (succeeded : svc.register env ((directory svc).run .new before).store input =
      (store, .ok u)) (loginEnv : Env) :
    (∃ token v, (svc.login loginEnv ((directory svc).run
          { (directory svc).run .new before with store := store } after).store
          { username := input.username, password := input.password }).result =
          .ok (token, v) ∧
        ∀ now < newNumericDate (loginEnv.now + tokenExpiry), ∃ claims,
          svc.validateToken now token = .ok claims ∧ claims.userID = u.id ∧
          claims.username = u.username ∧ claims.role = u.role) ↔
      trimSpace input.username = input.username := by
  have registered := register_ok succeeded
  have trimmedBefore := run_trimmed svc trimmed_new before
  constructor
  · intro succeeds
    obtain ⟨token, v, loggedIn, _⟩ := succeeds
    obtain ⟨found, _⟩ := login_ok_iff.mp loggedIn
    obtain ⟨made, name, stepped⟩ := registered.stepped
    have trimmedAfter := run_trimmed svc
      (trimmedBefore.createUser name env (List.Subset.refl _)) after
    rw [← stepped] at trimmedAfter
    exact trimmedAfter.stored _ v (MemoryUserStore.getUserByUsername_ok_iff.mp found)
  · intro clean
    have held := registered.held
    rw [clean] at held
    have found := MemoryUserStore.getUserByUsername_ok_iff.mpr
      (run_keeps svc (d := { (directory svc).run .new before with store := store }) held after)
    have short := (ideal.generates_iff _ _).mp ⟨_, registered.hashed⟩
    have matches_ := (ideal.compares_iff _ _ _ _ registered.hashed short).mpr rfl
    obtain ⟨token, issued⟩ := sound.signs (claimsFor loginEnv u) svc.signingKey
    refine ⟨token, u, login_ok_iff.mpr ⟨found, matches_, registered.active, issued⟩, ?_⟩
    intro now unexpired
    exact ⟨_, validateToken_generateJWT sound issued unexpired, rfl, rfl, rfl⟩

def padded : RegisterInput where
  username := " alice"
  password := "hunter22"
  role := "viewer"

theorem padded_login_fails :
    (plainService.register (plainEnv 0 "u-7") MemoryUserStore.new padded).2.isOk = true ∧
      ¬ ∃ token v, (plainService.login (plainEnv minute "t-7")
        (plainService.register (plainEnv 0 "u-7") MemoryUserStore.new padded).1
        { username := padded.username, password := padded.password }).result =
          .ok (token, v) := by
  refine ⟨by decide, ?_⟩
  intro succeeds
  obtain ⟨token, v, loggedIn⟩ := succeeds
  have refused : (plainService.login (plainEnv minute "t-7")
      (plainService.register (plainEnv 0 "u-7") MemoryUserStore.new padded).1
      { username := padded.username, password := padded.password }).result =
        .error errInvalidCredentials := by decide
  rw [refused] at loggedIn
  cases loggedIn

def bob : User where
  id := "u-8"
  username := "bob"
  passwordHash := "$2a$hunter22"
  role := "viewer"
  status := statusActive

theorem login_after_register_bob :
    ∃ token v, (plainService.login (plainEnv minute "t-8")
        ((directory plainService).run
          { store := (plainService.register (plainEnv 0 "u-8") MemoryUserStore.new
              { username := "bob", password := "hunter22", role := "viewer" }).1
            pending := [] } race).store
        { username := "bob", password := "hunter22" }).result = .ok (token, v) ∧
      ∀ now < newNumericDate (minute + tokenExpiry), ∃ claims,
        plainService.validateToken now token = .ok claims ∧ claims.userID = "u-8" ∧
        claims.username = "bob" ∧ claims.role = "viewer" :=
  (login_after_register_iff plainService plainBcrypt_ideal (plainJwt_sound aliceClaims) [] race
    (plainEnv 0 "u-8") { username := "bob", password := "hunter22", role := "viewer" } _ bob
    (Prod.ext rfl (by decide)) (plainEnv minute "t-8")).mpr (by decide)

end Nexus.Auth
