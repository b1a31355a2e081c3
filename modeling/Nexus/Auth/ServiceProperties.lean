import Nexus.Auth.Service
import Mathlib.Logic.Encodable.Basic
import Mathlib.Logic.Equiv.List

/-! What the operations of the service return, one law for each, so that no
later proof looks into them again; and a concrete instance of the libraries,
which shows that their laws can be met. -/

set_option autoImplicit false

namespace Nexus.Auth

open Nexus.Lib Nexus.Go Nexus.Users

variable {σ : Type} [UserStore σ] {svc : Service}

/-! ## Registration -/

/-- What validation and hashing let through. -/
structure Service.Admits (svc : Service) (env : Env) (input : RegisterInput) (u : User) :
    Prop where
  longEnough : 3 ≤ len (trimSpace input.username)
  shortEnough : len (trimSpace input.username) ≤ 50
  password : minPasswordLength ≤ len input.password
  role : input.role ∈ validRoles
  hashed : svc.bcrypt.generateFromPassword env.salt input.password bcryptCost =
    .ok u.passwordHash
  record : u = {
    id := env.newID
    username := trimSpace input.username
    passwordHash := u.passwordHash
    role := input.role
    status := statusActive }

theorem newUser_ok {env : Env} {input : RegisterInput} {u : User}
    (admitted : svc.newUser env input = .ok u) : svc.Admits env input u := by
  unfold Service.newUser at admitted
  dsimp only at admitted
  split at admitted
  · cases admitted
  rename_i longEnough
  split at admitted
  · cases admitted
  rename_i shortEnough
  split at admitted
  · cases admitted
  rename_i password
  split at admitted
  · cases admitted
  rename_i role
  cases hashed : svc.bcrypt.generateFromPassword env.salt input.password bcryptCost with
  | error err =>
      rw [hashed] at admitted
      cases admitted
  | ok hash =>
      rw [hashed] at admitted
      cases admitted
      exact ⟨by omega, by omega, by omega, not_not.mp role, hashed, rfl⟩

theorem register_eq {env : Env} {store : σ} {input : RegisterInput} :
    svc.register env store input = match svc.newUser env input with
      | .error err => (store, .error err)
      | .ok u => UserStore.createUser env store u := by
  unfold Service.register
  rfl

/-! ## Login -/

/-- The four ways a login can go, by what it takes for it to succeed. -/
theorem login_ok_iff {env : Env} {store : σ} {input : LoginInput} {token : String}
    {u : User} :
    (svc.login env store input).result = .ok (token, u) ↔
      UserStore.getUserByUsername store input.username = .ok u ∧
        svc.bcrypt.compareHashAndPassword u.passwordHash input.password = .ok () ∧
        u.status = statusActive ∧ svc.generateJWT env u = .ok token := by
  unfold Service.login
  cases UserStore.getUserByUsername store input.username with
  | error err => simp
  | ok found =>
      simp only [Except.ok.injEq]
      cases compared : svc.bcrypt.compareHashAndPassword found.passwordHash
          input.password with
      | error err =>
          constructor
          · intro succeeded
            cases succeeded
          · intro conditions
            obtain ⟨rfl, matched, _⟩ := conditions
            rw [compared] at matched
            cases matched
      | ok _ =>
          by_cases active : found.status = statusActive
          · simp only [active, ne_eq, not_true_eq_false, if_false]
            cases generated : svc.generateJWT env found with
            | error err =>
                constructor
                · intro succeeded
                  cases succeeded
                · intro conditions
                  obtain ⟨rfl, _, _, issued⟩ := conditions
                  rw [generated] at issued
                  cases issued
            | ok signed =>
                constructor
                · intro succeeded
                  cases succeeded
                  exact ⟨rfl, compared, active, generated⟩
                · intro conditions
                  obtain ⟨rfl, _, _, issued⟩ := conditions
                  rw [generated] at issued
                  cases issued
                  rfl
          · simp only [ne_eq, active, not_false_eq_true, if_true]
            constructor
            · intro succeeded
              cases succeeded
            · intro conditions
              obtain ⟨rfl, _, status, _⟩ := conditions
              exact absurd status active

/-! ## Tokens -/

@[simp] theorem truncate_truncate (t : Time) :
    Time.truncate (Time.truncate t) = Time.truncate t := by
  simp [Time.truncate, Time.unix, second]

theorem claimsFor_wholeSeconds (env : Env) (u : User) : (claimsFor env u).WholeSeconds := by
  intro date listed t present
  simp only [claimsFor, List.mem_cons, List.not_mem_nil, or_false] at listed
  rcases listed with rfl | rfl | rfl
  · cases present
    exact truncate_truncate env.now
  · cases present
    exact truncate_truncate (env.now + tokenExpiry)
  · cases present

/-- A token is accepted when it decodes, is signed by an HMAC method under the
service's key, lies within its dates and names the issuer. -/
structure Service.Accepts (svc : Service) (now : Time) (tokenStr : String)
    (method : SigningMethod) (claims : Claims) : Prop where
  decodes : svc.jwt.parseUnverified tokenStr = .ok (method, claims)
  hmac : method.isHMAC = true
  signed : svc.jwt.verify method svc.signingKey tokenStr = true
  unexpired : ∀ expiry ∈ claims.expiresAt, now < expiry
  started : ∀ start ∈ claims.notBefore, start ≤ now
  issuer : claims.issuer = jwtIssuer

private theorem any_eq_false_iff {date : Option Time} {late : Time → Bool} :
    date.any late = false ↔ ∀ t ∈ date, late t = false := by
  cases date <;> simp

theorem Service.Accepts.validates {now : Time} {tokenStr : String} {method : SigningMethod}
    {claims : Claims} (accepts : svc.Accepts now tokenStr method claims) :
    svc.validateToken now tokenStr = .ok claims := by
  have unexpired : claims.expiresAt.any (fun expiry => decide (expiry ≤ now)) = false := by
    simpa [any_eq_false_iff] using accepts.unexpired
  have started : claims.notBefore.any (fun start => decide (now < start)) = false := by
    simpa [any_eq_false_iff] using accepts.started
  simp only [Service.validateToken, Jwt.parseWithClaims, accepts.decodes, accepts.hmac,
    if_true, accepts.signed, unexpired, started, accepts.issuer, Bool.not_true,
    Bool.false_eq_true, if_false, ne_eq, not_true_eq_false]

theorem validateToken_ok {now : Time} {tokenStr : String} {claims : Claims}
    (valid : svc.validateToken now tokenStr = .ok claims) :
    ∃ method, svc.Accepts now tokenStr method claims := by
  unfold Service.validateToken Jwt.parseWithClaims at valid
  cases decoded : svc.jwt.parseUnverified tokenStr with
  | error err =>
      rw [decoded] at valid
      cases valid
  | ok payload =>
      obtain ⟨method, found⟩ := payload
      rw [decoded] at valid
      dsimp only at valid
      cases hmac : method.isHMAC with
      | false => simp [hmac] at valid
      | true =>
          cases signed : svc.jwt.verify method svc.signingKey tokenStr with
          | false => simp [hmac, signed] at valid
          | true =>
              cases expired : found.expiresAt.any (fun expiry => decide (expiry ≤ now)) with
              | true => simp [hmac, signed, expired] at valid
              | false =>
                  cases early : found.notBefore.any (fun start => decide (now < start)) with
                  | true => simp [hmac, signed, expired, early] at valid
                  | false =>
                      by_cases issuer : found.issuer = jwtIssuer
                      · simp [hmac, signed, expired, early, issuer] at valid
                        cases valid
                        refine ⟨method, decoded, hmac, signed, ?_, ?_, issuer⟩
                        · simpa [any_eq_false_iff] using expired
                        · simpa [any_eq_false_iff] using early
                      · simp [hmac, signed, expired, early, issuer] at valid

/-- A token the service generated is accepted until it expires. -/
theorem validateToken_generateJWT (sound : svc.jwt.Sound) {env : Env} {u : User}
    {token : String} (issued : svc.generateJWT env u = .ok token) {now : Time}
    (unexpired : now < newNumericDate (env.now + tokenExpiry)) :
    svc.validateToken now token = .ok (claimsFor env u) := by
  have accepts : svc.Accepts now token .hs256 (claimsFor env u) := {
    decodes := sound.parses _ _ _ (claimsFor_wholeSeconds env u) issued
    hmac := rfl
    signed := sound.verifies _ _ _ issued
    unexpired := by
      intro expiry present
      cases present
      exact unexpired
    started := by
      intro start present
      cases present
    issuer := rfl }
  exact accepts.validates

/-- Whoever presents a generated token is taken for the user it was generated
for, at most 24 hours later. -/
theorem claims_of_generateJWT (sound : svc.jwt.Sound) {env : Env} {u : User}
    {token : String} (issued : svc.generateJWT env u = .ok token) {now : Time}
    {claims : Claims} (valid : svc.validateToken now token = .ok claims) :
    claims = claimsFor env u ∧ now < env.now + tokenExpiry := by
  obtain ⟨method, accepts⟩ := validateToken_ok valid
  have decoded := sound.parses _ _ _ (claimsFor_wholeSeconds env u) issued
  rw [accepts.decodes] at decoded
  cases decoded
  refine ⟨rfl, ?_⟩
  have unexpired := accepts.unexpired _ rfl
  exact lt_of_lt_of_le unexpired (Time.truncate_le _)

/-! ## A concrete instance

Passwords are hashed by a prefix. One chosen claims value has the token "jwt";
every other one has its number in unary as its token. -/

def plainBcrypt : Bcrypt where
  generateFromPassword _ password _ :=
    if len password ≤ 72 then .ok ("$2a$" ++ password)
    else .error ⟨"bcrypt: password length exceeds 72 bytes", []⟩
  compareHashAndPassword hash password :=
    if hash = "$2a$" ++ password then .ok ()
    else .error ⟨"crypto/bcrypt: hashedPassword is not the hash of the given password", []⟩

theorem plainBcrypt_ideal : plainBcrypt.Ideal where
  generates_iff salt password := by
    by_cases short : len password ≤ 72 <;> simp [plainBcrypt, short]
  compares_iff salt password hash candidate hashed _ := by
    simp only [plainBcrypt] at hashed ⊢
    split at hashed
    · cases hashed
      simp [eq_comm]
    · cases hashed

def Claims.code (claims : Claims) : List (List Nat) × List (Option Int) :=
  ([claims.userID, claims.username, claims.role, claims.issuer, claims.id].map
      fun text => text.toList.map Char.toNat,
    [claims.issuedAt, claims.expiresAt, claims.notBefore])

def Claims.ofCode (code : List (List Nat) × List (Option Int)) : Option Claims :=
  match code.1.map fun text => String.ofList (text.map Char.ofNat), code.2 with
  | [userID, username, role, issuer, id], [issuedAt, expiresAt, notBefore] =>
      some { userID, username, role, issuer, issuedAt, expiresAt, notBefore, id }
  | _, _ => none

theorem Claims.ofCode_code (claims : Claims) : Claims.ofCode claims.code = some claims := by
  simp [Claims.ofCode, Claims.code, Function.comp_def, Char.ofNat_toNat]

instance : Encodable Claims := .ofLeftInjection Claims.code Claims.ofCode Claims.ofCode_code

def unaryToken (claims : Claims) : String :=
  String.ofList (List.replicate (Encodable.encode claims + 4) 'x')

theorem unaryToken_length (claims : Claims) :
    (unaryToken claims).length = Encodable.encode claims + 4 := by
  simp [unaryToken]

def plainJwt (named : Claims) : Jwt where
  signedString _ claims _ := .ok (if claims = named then "jwt" else unaryToken claims)
  parseUnverified token :=
    if token = "jwt" then .ok (.hs256, named)
    else
      match (Encodable.decode (token.length - 4) : Option Claims) with
      | none => .error ⟨"token is malformed", []⟩
      | some claims => .ok (.hs256, claims)
  verify _ _ _ := true

theorem plainJwt_sound (named : Claims) : (plainJwt named).Sound where
  signs claims key := ⟨_, rfl⟩
  parses claims key token _ signed := by
    simp only [plainJwt] at signed ⊢
    cases signed
    by_cases same : claims = named
    · simp [same]
    · have different : unaryToken claims ≠ "jwt" := by
        intro equal
        have lengths : (unaryToken claims).length = 3 := congrArg String.length equal
        rw [unaryToken_length] at lengths
        omega
      simp [same, different, unaryToken_length]
  verifies _ _ _ _ := rfl

/-- Surroundings without surprises: maps deliver their stored order. -/
def plainEnv (now : Time) (newID : String) : Env where
  now := now
  newID := newID
  storeID := ""
  eventID := "event"
  salt := []
  randRead size := some (.replicate size 0)
  range := .stored
  redisUp := true

def alice : User where
  id := "u-1"
  username := "alice"
  passwordHash := "$2a$hunter22"
  role := roleAdmin
  status := statusActive

/-- The claims alice gets by logging in at the start of time. -/
def aliceClaims : Claims := claimsFor (plainEnv 0 "t-1") alice

def plainService : Service where
  bcrypt := plainBcrypt
  jwt := plainJwt aliceClaims
  signingKey := [1]
  keyNonempty := nofun

end Nexus.Auth
