import Nexus.Auth.ServiceProperties
import Nexus.Auth.StoreProperties
import Nexus.Go.Bcrypt

/-! The service over the real bcrypt package: passwords and hashes as byte
strings, and the key derivations a login performs. -/

set_option autoImplicit false

namespace Nexus.Auth

open Nexus.Lib Nexus.Go Nexus.Users

variable (derive : List UInt8 → Nat → List UInt8 → Vector UInt8 23)

def bcryptError (failure : Go.Bcrypt.Failure) : AuthError := ⟨failure.text, []⟩

def xcrypto : Bcrypt where
  generateFromPassword random password cost :=
    match Go.Bcrypt.generateFromPassword derive random (bytes password) cost with
    | .error failure => .error (bcryptError failure)
    | .ok hash => .ok (stringOfBytes hash)
  compareHashAndPassword hash password :=
    match (Go.Bcrypt.compareHashAndPassword derive (bytes hash) (bytes password)).result with
    | .error failure => .error (bcryptError failure)
    | .ok () => .ok ()

/-- The costs of the key derivations of a login, in order. -/
def LoginOutcome.derivations (outcome : LoginOutcome) : List Nat :=
  outcome.compared.flatMap fun comparison =>
    (Go.Bcrypt.compareHashAndPassword derive (bytes comparison.1)
      (bytes comparison.2)).derivations

variable {derive}

theorem xcrypto_short {random : List UInt8} {password : String} (short : len password ≤ 72) :
    ∃ hash, (xcrypto derive).generateFromPassword random password bcryptCost = .ok hash := by
  have hashes : ∃ hashed,
      Go.Bcrypt.generateFromPassword derive random (bytes password) bcryptCost = .ok hashed :=
    Go.Bcrypt.generateFromPassword_short (by decide) (by decide) short
  obtain ⟨hashed, generated⟩ := hashes
  exact ⟨stringOfBytes hashed, by simp only [xcrypto, generated]⟩

theorem xcrypto_long {random : List UInt8} {password : String} (long : 72 < len password) :
    (xcrypto derive).generateFromPassword random password bcryptCost =
      .error (bcryptError .passwordTooLong) := by
  have refused : Go.Bcrypt.generateFromPassword derive random (bytes password) bcryptCost =
      .error .passwordTooLong := Go.Bcrypt.generateFromPassword_long long
  simp only [xcrypto, refused]

/-- A hash `Register` stores costs one derivation to compare with. -/
theorem derivations_of_registered {random : List UInt8} {password hash : String}
    (generated : (xcrypto derive).generateFromPassword random password bcryptCost = .ok hash)
    (candidate : String) :
    (Go.Bcrypt.compareHashAndPassword derive (bytes hash) (bytes candidate)).derivations =
      [bcryptCost] := by
  cases produced : Go.Bcrypt.generateFromPassword derive random (bytes password) bcryptCost with
  | error failure =>
      simp only [xcrypto, produced] at generated
      cases generated
  | ok hashed =>
      simp only [xcrypto, produced] at generated
      cases generated
      rw [bytes_stringOfBytes
        (Go.Bcrypt.generated_ascii (by decide) (by decide) produced)]
      exact Go.Bcrypt.derivations_of_generated (by decide) (by decide) produced _

/-- The dummy hash is 46 bytes long, which is too short to be a hash. -/
theorem derivations_of_dummy (candidate : String) :
    (Go.Bcrypt.compareHashAndPassword derive (bytes dummyHash) (bytes candidate)).derivations =
      [] := by
  have short : Go.Bcrypt.newFromHash (bytes dummyHash) = .error .hashTooShort :=
    if_pos (by decide)
  simp only [Go.Bcrypt.compareHashAndPassword, short]

section
variable {σ : Type} [UserStore σ]

/-- Every hash in the store was produced by `Register`. -/
def HashedByRegister (bcrypt : Bcrypt) (store : σ) : Prop :=
  ∀ username u, UserStore.getUserByUsername store username = .ok u →
    ∃ random password,
      bcrypt.generateFromPassword random password bcryptCost = .ok u.passwordHash

def Known (store : σ) (username : String) : Prop :=
  ∃ u, UserStore.getUserByUsername store username = .ok u

theorem derivations_of_known {svc : Service} (real : svc.bcrypt = xcrypto derive) {store : σ}
    (hashed : HashedByRegister svc.bcrypt store) {input : LoginInput}
    (known : Known store input.username) (env : Env) :
    (svc.login env store input).derivations derive = [bcryptCost] := by
  obtain ⟨u, found⟩ := known
  obtain ⟨random, password, generated⟩ := hashed _ u found
  rw [real] at generated
  simp only [LoginOutcome.derivations, Service.login, found, List.flatMap_cons,
    List.flatMap_nil, List.append_nil]
  exact derivations_of_registered generated input.password

theorem derivations_of_unknown (svc : Service) {store : σ} {input : LoginInput}
    (unknown : ¬ Known store input.username) (env : Env) :
    (svc.login env store input).derivations derive = [] := by
  cases found : UserStore.getUserByUsername store input.username with
  | ok u => exact absurd ⟨u, found⟩ unknown
  | error err =>
      simp only [LoginOutcome.derivations, Service.login, found, List.flatMap_cons,
        List.flatMap_nil, List.append_nil]
      exact derivations_of_dummy input.password

end

theorem new_hashedByRegister (bcrypt : Bcrypt) :
    HashedByRegister bcrypt MemoryUserStore.new := by
  intro username u found
  cases found

/-- Registering keeps a store in which every hash was produced by `Register`
one. -/
theorem register_hashedByRegister {svc : Service} {store : MemoryUserStore}
    (hashed : HashedByRegister svc.bcrypt store) (env : Env) (input : RegisterInput) :
    HashedByRegister svc.bcrypt (svc.register env store input).1 := by
  rw [register_eq]
  cases admitted : svc.newUser env input with
  | error err => exact hashed
  | ok made =>
      intro username u found
      have held := MemoryUserStore.getUserByUsername_ok_iff.mp found
      cases taken : store.byUsername.lookup made.username with
      | some owner =>
          have kept : (UserStore.createUser env store made).1 = store :=
            congrArg Prod.fst (MemoryUserStore.createUser_taken taken)
          rw [kept] at found
          exact hashed username u found
      | none =>
          have stored : (UserStore.createUser env store made).1 = _ :=
            congrArg Prod.fst (MemoryUserStore.createUser_free taken)
          rw [stored, GoMap.lookup_insert_eq] at held
          split at held
          · cases held
            exact ⟨env.salt, input.password, (newUser_ok admitted).hashed⟩
          · exact hashed username u (MemoryUserStore.getUserByUsername_ok_iff.mpr held)

end Nexus.Auth
