import Nexus.Frontend.JourneyProperties
import Nexus.Frontend.LoginPage
import Nexus.Server.Startup

/-! The demo accounts of the login page are the seed users of a server that keeps
its users in memory. -/

set_option autoImplicit false

namespace Nexus.Frontend

open Nexus.Lib Nexus.Go Nexus.Users Nexus.Auth Nexus.Server Nexus.JavaScript
open Nexus.JavaScript.Json

/-! ## Seeding -/

section
variable {bcrypt : Bcrypt} {draws : String → Env} {store : MemoryUserStore} {u : User}

/-- The ID that a seed user draws. -/
def seedID (draws : String → Env) (seed : SeedUser) : String := (draws seed.username).storeID

theorem Holds.seedUser (held : Holds store u) {seed : SeedUser}
    (fresh : seedID draws seed ≠ u.id) : Holds (Server.seedUser bcrypt draws store seed) u := by
  unfold Server.seedUser
  dsimp only
  split
  · exact held
  · refine held.createUser ?_
    rw [stamped, SeedUser.user, if_pos rfl]
    exact fresh

theorem Holds.seedUsers (held : Holds store u) {seeds : List SeedUser}
    (fresh : ∀ seed ∈ seeds, seedID draws seed ≠ u.id) :
    Holds (seeds.foldl (Server.seedUser bcrypt draws) store) u := by
  induction seeds generalizing store with
  | nil => exact held
  | cons seed seeds ih =>
      rw [List.forall_mem_cons] at fresh
      exact ih (held.seedUser fresh.1) fresh.2

/-- The record of a seed user. -/
structure Seeded (bcrypt : Bcrypt) (draws : String → Env) (seed : SeedUser) (u : User) :
    Prop where
  id : u.id = seedID draws seed
  username : u.username = seed.username
  role : u.role = seed.role
  active : u.status = statusActive
  hashed : ∃ salt, bcrypt.generateFromPassword salt seed.password bcryptCost = .ok u.passwordHash

theorem seedUser_holds {seed : SeedUser} (free : store.byUsername.lookup seed.username = none)
    (hashable : ∃ hash, bcrypt.generateFromPassword (draws seed.username).salt seed.password
      bcryptCost = .ok hash) :
    ∃ u, Seeded bcrypt draws seed u ∧ Holds (Server.seedUser bcrypt draws store seed) u ∧
      ∀ name, (Server.seedUser bcrypt draws store seed).byUsername.lookup name =
        if name = seed.username then some u else store.byUsername.lookup name := by
  obtain ⟨hash, hashed⟩ := hashable
  have created : Server.seedUser bcrypt draws store seed =
      (MemoryUserStore.createUser (draws seed.username) store (seed.user hash)).1 := by
    have cost : bcrypt.generateFromPassword (draws seed.username).salt seed.password 12 =
        .ok hash := hashed
    simp only [Server.seedUser, cost]
    rfl
  have unused : store.byUsername.lookup (seed.user hash).username = none := free
  rw [created, MemoryUserStore.createUser_free unused]
  refine ⟨stamped (draws seed.username) (seed.user hash), ?_, ?_, ?_⟩
  · refine ⟨?_, rfl, rfl, rfl, _, hashed⟩
    rw [stamped, SeedUser.user, if_pos rfl]
    rfl
  · refine ⟨?_, ?_⟩ <;> rw [GoMap.lookup_insert_eq] <;> exact if_pos rfl
  · exact fun name => GoMap.lookup_insert_eq _ _ _ _

theorem seedUsers_hold {seeds : List SeedUser}
    (names : (seeds.map SeedUser.username).Nodup) (ids : (seeds.map (seedID draws)).Nodup)
    (free : ∀ seed ∈ seeds, store.byUsername.lookup seed.username = none)
    (hashable : ∀ seed ∈ seeds, ∃ hash, bcrypt.generateFromPassword (draws seed.username).salt
      seed.password bcryptCost = .ok hash) :
    ∀ seed ∈ seeds, ∃ u, Seeded bcrypt draws seed u ∧
      Holds (seeds.foldl (Server.seedUser bcrypt draws) store) u := by
  induction seeds generalizing store with
  | nil => exact List.forall_mem_nil _
  | cons first seeds ih =>
      rw [List.map_cons, List.nodup_cons, List.mem_map] at names ids
      rw [List.forall_mem_cons] at free hashable
      obtain ⟨u, seeded, held, names_⟩ := seedUser_holds free.1 hashable.1
      rw [List.forall_mem_cons]
      refine ⟨⟨u, seeded, held.seedUsers ?_⟩, ih names.2 ids.2 ?_ hashable.2⟩
      · intro seed listed same
        exact ids.1 ⟨seed, listed, same.trans seeded.id⟩
      · intro seed listed
        have other : seed.username ≠ first.username :=
          fun same => names.1 ⟨seed, listed, same⟩
        rw [names_, if_neg other]
        exact free.2 seed listed

end

/-! ## Demo accounts -/

/-- Every demo account is a seed user with the same strings. -/
theorem demoAccounts_seeded : ∀ account ∈ demoAccounts, ∃ seed ∈ seeds,
    seed.username = account.username ∧ seed.password = account.password := by
  simp only [demoAccounts, List.forall_mem_cons]
  exact ⟨by decide, by decide, by decide, by decide, List.forall_mem_nil _⟩

theorem demoAccounts_sendable : ∀ account ∈ demoAccounts, ∀ form : LoginForm,
    (form.quickLogin account).submit.Sendable := by
  intro account listed form
  refine ApiCall.sendable_login ?_
  revert account
  simp only [demoAccounts, List.forall_mem_cons]
  exact ⟨by decide +kernel, by decide +kernel, by decide +kernel, by decide +kernel,
    List.forall_mem_nil _⟩

theorem seeds_short : ∀ seed ∈ seeds, len seed.password ≤ 72 := by decide

theorem main_ok {bcrypt : Bcrypt} {jwt : Jwt}
    {hmacSHA1 : List UInt8 → List UInt8 → Vector UInt8 20} {unicode : UnicodeTables}
    {out : Surroundings} {p : Platform} {start : World MemoryUserStore}
    (started : main bcrypt jwt hmacSHA1 unicode out = .ok (p, start)) :
    p.service.bcrypt = bcrypt ∧ p.service.jwt = jwt ∧
      start.store = seedDevUsers bcrypt out.draws MemoryUserStore.new ∧
      start.limiter = initRateLimiter out := by
  unfold main at started
  dsimp only at started
  split at started
  · cases started
  · rename_i signingKey _
    unfold newService at started
    split at started
    · cases started
    · rename_i service made
      split at made
      · cases made
        cases started
        exact ⟨rfl, rfl, rfl, rfl⟩
      · cases made

/-- On a server without a database, every demo account of the login page logs in
with one click and a submission and reads the profile of its seed user, whatever
anybody sends before and in between. -/
theorem demo_account_enters {bcrypt : Bcrypt} (ideal : bcrypt.Ideal) {jwt : Jwt}
    (sound : jwt.Sound)
    (compact : ∀ claims key token, jwt.signedString .hs256 claims key = .ok token →
      token ≠ "" ∧ trimSpace token = token)
    (hmacSHA1 : List UInt8 → List UInt8 → Vector UInt8 20) (unicode : UnicodeTables)
    {out : Surroundings} (drawn : (seeds.map (seedID out.draws)).Nodup) {p : Platform}
    {start : World MemoryUserStore}
    (started : main bcrypt jwt hmacSHA1 unicode out = .ok (p, start))
    {account : DemoAccount} (offered : account ∈ demoAccounts) (form : LoginForm)
    (corsOrigin : String) (client : ApiClient) (network : Network) (signIn : Env)
    (before later : List Arriving)
    (fresh : ∀ arriving ∈ before ++ later,
      arriving.env.newID ∉ "" :: seeds.map (seedID out.draws))
    (unlimited : (initRateLimiter out).isRateLimited signIn network.remoteAddr ≠ .ok true) :
    ∃ seed ∈ seeds, seed.username = account.username ∧
      ∃ (u : User) (token : Token) (after : World MemoryUserStore),
        u.username = seed.username ∧ u.role = seed.role ∧
        (frontDoor p corsOrigin).step ((frontDoor p corsOrigin).run start before)
          ((form.quickLogin account).submit.arriving client network signIn) = (after, {
            response := some (shown p corsOrigin network (tokenResponse token.text))
            entered := some none }) ∧
        ∀ look : Env, look.now < newNumericDate (signIn.now + tokenExpiry) →
          ((frontDoor p corsOrigin).step ((frontDoor p corsOrigin).run after later)
            (ApiCall.getMe.arriving (client.setToken (some token)) network look)).2.response =
            some (shown p corsOrigin network (writeJSON 200 (publicUserJson u.toPublic))) := by
  obtain ⟨hashes, signs, store, limiter⟩ := main_ok started
  obtain ⟨seed, listed, sameName, samePassword⟩ := demoAccounts_seeded account offered
  have hashable : ∀ seed ∈ seeds, ∃ hash, bcrypt.generateFromPassword
      (out.draws seed.username).salt seed.password bcryptCost = .ok hash :=
    fun seed listed => (ideal.generates_iff _ _).mpr (seeds_short seed listed)
  have free : ∀ seed ∈ seeds, MemoryUserStore.new.byUsername.lookup seed.username = none :=
    fun _ _ => rfl
  obtain ⟨u, seeded, held⟩ := seedUsers_hold (by decide) drawn free hashable seed listed
  obtain ⟨salt, hashed⟩ := seeded.hashed
  have typed : toText (form.quickLogin account).password = seed.password := by
    rw [samePassword]
    exact toText_ofString _
  have enters : Enters p.service u (toText (form.quickLogin account).password) := by
    refine ⟨seeded.active, salt, ?_⟩
    rw [hashes, typed]
    exact hashed
  have name : u.username = toText (form.quickLogin account).username := by
    rw [seeded.username, sameName]
    exact (toText_ofString _).symm
  have apart : ∀ arriving ∈ before ++ later, arriving.env.newID ∉ ["", u.id] := by
    intro arriving member
    have other := fresh arriving member
    rw [List.mem_cons, not_or] at other
    rw [List.mem_cons, List.mem_singleton, not_or]
    refine ⟨other.1, ?_⟩
    intro same
    exact other.2 (List.mem_map.mpr ⟨seed, listed, seeded.id.symm.trans same.symm⟩)
  have stored : Holds start.store u := by
    rw [store]
    exact held
  subst hashes signs
  obtain ⟨token, after, _, _, answered, reads⟩ := stays_signed_in ideal sound compact
    (demoAccounts_sendable account offered form) stored name enters before later apart
    (limiter ▸ unlimited)
  exact ⟨seed, listed, sameName, u, token, after, seeded.username, seeded.role, answered, reads⟩

/-- A process that finds a signing key in its environment and nothing else. -/
def bareSurroundings : Surroundings where
  getenv name := if name = "JWT_SIGNING_KEY" then "0123456789abcdef" else ""
  secret _ := none
  redis _ := none
  draws name := { plainEnv 0 "" with storeID := "seed-" ++ name }
  newID position := ["dev", "adm", "vwr"].get position

theorem bare_starts : ∃ p start, main plainBcrypt (plainJwt aliceClaims)
    (fun _ _ => .replicate 20 0) { toUpper := id, toLower := id } bareSurroundings =
      .ok (p, start) := ⟨_, _, rfl⟩

def viewerAccount : DemoAccount where
  username := "viewer"
  password := "ViewerPassword123!"

theorem demo_account_enters_viewer :
    ∃ (p : Platform) (start : World MemoryUserStore),
      main plainBcrypt (plainJwt aliceClaims) (fun _ _ => .replicate 20 0)
        { toUpper := id, toLower := id } bareSurroundings = .ok (p, start) ∧
      ∃ seed ∈ seeds, seed.username = "viewer" ∧
        ∃ (u : User) (token : Token) (after : World MemoryUserStore),
          u.username = seed.username ∧ u.role = seed.role ∧
          (frontDoor p "").step ((frontDoor p "").run start [alicePosts])
            (((LoginForm.quickLogin {} viewerAccount).submit).arriving (.constructor none)
              bobsNetwork (plainEnv minute "t-8")) = (after, {
              response := some (shown p "" bobsNetwork (tokenResponse token.text))
              entered := some none }) ∧
          ∀ look : Env, look.now < newNumericDate (minute + tokenExpiry) →
            ((frontDoor p "").step ((frontDoor p "").run after [aliceFetches])
              (ApiCall.getMe.arriving ((ApiClient.constructor none).setToken (some token))
                bobsNetwork look)).2.response =
              some (shown p "" bobsNetwork (writeJSON 200 (publicUserJson u.toPublic))) := by
  obtain ⟨p, start, started⟩ := bare_starts
  have offered : viewerAccount ∈ demoAccounts := by simp [demoAccounts, viewerAccount]
  exact ⟨p, start, started, demo_account_enters plainBcrypt_ideal (plainJwt_sound aliceClaims)
    plainJwt_compact _ _ (by decide) started offered {} "" (.constructor none) bobsNetwork
    (plainEnv minute "t-8") [alicePosts] [aliceFetches] (by decide) nofun⟩

end Nexus.Frontend
