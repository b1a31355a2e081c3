import Nexus.Auth.Store
import Nexus.Go.Strings

/-! The authentication service. Package bcrypt and the JWT library are
parameters. `Bcrypt.Ideal` and `Jwt.Sound` state what their documentation
promises and the service relies on. `Jwt.parseWithClaims` is the library's
documented order of checks: decode, ask for the key, verify the signature,
validate the time claims. -/

set_option autoImplicit false

namespace Nexus.Auth

open Nexus.Lib Nexus.Go Nexus.Users

def minPasswordLength : Nat := 8

def bcryptCost : Nat := 12

def tokenExpiry : Int := 24 * hour

def jwtIssuer : String := "nexus-identity-platform"

/-! ## Libraries -/

structure Bcrypt where
  generateFromPassword : List UInt8 → String → Nat → Except AuthError String
  compareHashAndPassword : String → String → Except AuthError Unit

/-- Passwords of at most 72 bytes can be hashed, longer ones are an error, and
among them exactly the hashed password matches its hash. -/
structure Bcrypt.Ideal (bcrypt : Bcrypt) : Prop where
  generates_iff : ∀ salt password,
    (∃ hash, bcrypt.generateFromPassword salt password bcryptCost = .ok hash) ↔
      len password ≤ 72
  compares_iff : ∀ salt password hash candidate,
    bcrypt.generateFromPassword salt password bcryptCost = .ok hash →
    len candidate ≤ 72 →
    (bcrypt.compareHashAndPassword hash candidate = .ok () ↔ candidate = password)

inductive SigningMethod where
  | hs256
  | hs384
  | hs512
  | other (alg : String)
  deriving DecidableEq

def SigningMethod.isHMAC : SigningMethod → Bool
  | hs256 | hs384 | hs512 => true
  | other _ => false

def SigningMethod.alg : SigningMethod → String
  | hs256 => "HS256"
  | hs384 => "HS384"
  | hs512 => "HS512"
  | other alg => alg

abbrev Key := List UInt8

structure Claims where
  userID : String
  username : String
  role : Role
  issuer : String
  issuedAt : Option Time
  expiresAt : Option Time
  notBefore : Option Time
  id : String
  deriving DecidableEq

/-- A JSON Web Token carries its dates as whole seconds. -/
def Claims.WholeSeconds (claims : Claims) : Prop :=
  ∀ date ∈ [claims.issuedAt, claims.expiresAt, claims.notBefore],
    ∀ t ∈ date, Time.truncate t = t

structure Jwt where
  signedString : SigningMethod → Claims → Key → Except AuthError String
  parseUnverified : String → Except AuthError (SigningMethod × Claims)
  verify : SigningMethod → Key → String → Bool

structure Jwt.Sound (jwt : Jwt) : Prop where
  signs : ∀ claims key, ∃ token, jwt.signedString .hs256 claims key = .ok token
  parses : ∀ claims key token, claims.WholeSeconds →
    jwt.signedString .hs256 claims key = .ok token →
    jwt.parseUnverified token = .ok (.hs256, claims)
  verifies : ∀ claims key token, jwt.signedString .hs256 claims key = .ok token →
    jwt.verify .hs256 key token = true

def errTokenSignatureInvalid : AuthError := ⟨"token signature is invalid", []⟩
def errTokenExpired : AuthError := ⟨"token has invalid claims: token is expired", []⟩
def errTokenNotValidYet : AuthError := ⟨"token has invalid claims: token is not valid yet", []⟩

def Jwt.parseWithClaims (jwt : Jwt) (now : Time) (tokenStr : String)
    (keyfunc : SigningMethod → Except AuthError Key) : Except AuthError Claims :=
  match jwt.parseUnverified tokenStr with
  | .error err => .error err
  | .ok (method, claims) =>
      match keyfunc method with
      | .error err => .error err
      | .ok key =>
          if !jwt.verify method key tokenStr then .error errTokenSignatureInvalid
          else if claims.expiresAt.any (fun expiry => decide (expiry ≤ now)) then
            .error errTokenExpired
          else if claims.notBefore.any (fun start => decide (now < start)) then
            .error errTokenNotValidYet
          else .ok claims

/-! ## Service -/

structure Service where
  bcrypt : Bcrypt
  jwt : Jwt
  signingKey : Key
  keyNonempty : signingKey ≠ []

def newService (bcrypt : Bcrypt) (jwt : Jwt) (signingKey : Key) : Except AuthError Service :=
  if keyNonempty : signingKey ≠ [] then .ok { bcrypt, jwt, signingKey, keyNonempty }
  else .error ⟨"auth service: signing key must not be empty", []⟩

structure RegisterInput where
  username : String
  password : String
  role : Role

structure LoginInput where
  username : String
  password : String

variable {σ : Type} [UserStore σ] (svc : Service)

/-- `Register` up to its call of the store: validation, hashing and the new
record. -/
def Service.newUser (env : Env) (input : RegisterInput) : Except AuthError User :=
  let username := trimSpace input.username
  if len username < 3 then
    .error (wrapBefore errInvalidInput "username must be at least 3 characters")
  else if len username > 50 then
    .error (wrapBefore errInvalidInput "username must be at most 50 characters")
  else if len input.password < minPasswordLength then .error errWeakPassword
  else if input.role ∉ validRoles then .error errInvalidRole
  else
    match svc.bcrypt.generateFromPassword env.salt input.password bcryptCost with
    | .error err => .error (wrapAfter "password hashing failed" err)
    | .ok hash =>
        .ok {
          id := env.newID
          username := username
          passwordHash := hash
          role := input.role
          status := statusActive }

def Service.register (env : Env) (store : σ) (input : RegisterInput) :
    σ × Except AuthError User :=
  match svc.newUser env input with
  | .error err => (store, .error err)
  | .ok u => UserStore.createUser env store u

def newNumericDate (t : Time) : Time := Time.truncate t

def claimsFor (env : Env) (u : User) : Claims where
  userID := u.id
  username := u.username
  role := u.role
  issuer := jwtIssuer
  issuedAt := some (newNumericDate env.now)
  expiresAt := some (newNumericDate (env.now + tokenExpiry))
  notBefore := none
  id := env.newID

def Service.generateJWT (env : Env) (u : User) : Except AuthError String :=
  svc.jwt.signedString .hs256 (claimsFor env u) svc.signingKey

def dummyHash : String := "$2a$12$dummydummydummydummydummydummydummydumm"

/-- What `Login` returns, and the hash and password of each call it makes to
`CompareHashAndPassword`. -/
structure LoginOutcome where
  compared : List (String × String)
  result : Except AuthError (String × User)

def Service.login (env : Env) (store : σ) (input : LoginInput) : LoginOutcome :=
  match UserStore.getUserByUsername store input.username with
  | .error _ => ⟨[(dummyHash, input.password)], .error errInvalidCredentials⟩
  | .ok u =>
      { compared := [(u.passwordHash, input.password)]
        result :=
          match svc.bcrypt.compareHashAndPassword u.passwordHash input.password with
          | .error _ => .error errInvalidCredentials
          | .ok () =>
              if u.status ≠ statusActive then
                .error (wrapBefore errInvalidCredentials s!"account is {u.status}")
              else
                match svc.generateJWT env u with
                | .error err => .error (wrapAfter "token generation failed" err)
                | .ok token => .ok (token, u) }

def Service.validateToken (now : Time) (tokenStr : String) : Except AuthError Claims :=
  let keyfunc : SigningMethod → Except AuthError Key := fun method =>
    if method.isHMAC then .ok svc.signingKey
    else .error ⟨s!"unexpected signing method: {method.alg}", []⟩
  match svc.jwt.parseWithClaims now tokenStr keyfunc with
  | .error err => .error err
  | .ok claims =>
      if claims.issuer ≠ jwtIssuer then .error ⟨"invalid token issuer", []⟩
      else .ok claims

def getUserByID (store : σ) (id : String) : Except AuthError User :=
  UserStore.getUserByID store id

def listUsers (env : Env) (store : σ) : Except AuthError (List User) :=
  UserStore.listUsers env store

end Nexus.Auth
