import Nexus.Go.Bytes
import Nexus.Server.FrontDoor

/-! What `main` sets up before the first request, without `DATABASE_URL`. What it
finds outside is a parameter: the environment variables, the answers of AWS
Secrets Manager and of Redis, and the draws it makes. -/

set_option autoImplicit false

namespace Nexus.Server

open Nexus.Lib Nexus.Go Nexus.Users Nexus.Auth Nexus.Audit Nexus.Policy Nexus.Security

structure Surroundings where
  getenv : String → String -- "" stands for a variable that is not set
  secret : String → Option String -- `GetSecretValue`, a failure being `none`
  redis : String → Option Redis -- what answers `Ping` behind a URL that parses
  draws : String → Env -- the draws while a seed user of this name is created
  newID : Fin 3 → String -- `uuid.New` for the default policies

/-! ## Signing key -/

def loadSigningKey (out : Surroundings) : Except AuthError Key :=
  let secretName := getEnv (out.getenv "AWS_SECRET_NAME") "nexus/jwt-signing-key"
  let fallback : Except AuthError Key :=
    let envKey := out.getenv "JWT_SIGNING_KEY"
    if envKey = "" then
      .error ⟨"JWT_SIGNING_KEY environment variable is not set and AWS Secrets Manager " ++
        "is unavailable", []⟩
    else .ok (bytes envKey)
  match out.secret secretName with
  | some secret => if secret ≠ "" then .ok (bytes secret) else fallback
  | none => fallback

/-! ## Seed users -/

structure SeedUser where
  username : String
  password : String
  role : Role

def seeds : List SeedUser := [
  { username := "admin", password := "AdminPassword123!", role := roleAdmin },
  { username := "developer", password := "DevPassword123!", role := roleDeveloper },
  { username := "viewer", password := "ViewerPassword123!", role := roleViewer },
  { username := "secmgr", password := "SecPassword123!", role := roleSecurityManager }]

def SeedUser.user (seed : SeedUser) (hash : String) : User where
  id := ""
  username := seed.username
  passwordHash := hash
  role := seed.role
  status := statusActive

section
variable {σ : Type} [UserStore σ]

/-- One round of the loop. Errors are only logged. -/
def seedUser (bcrypt : Bcrypt) (draws : String → Env) (store : σ) (seed : SeedUser) : σ :=
  let env := draws seed.username
  match bcrypt.generateFromPassword env.salt seed.password 12 with
  | .error _ => store
  | .ok hash => (UserStore.createUser env store (seed.user hash)).1

def seedDevUsers (bcrypt : Bcrypt) (draws : String → Env) (store : σ) : σ :=
  seeds.foldl (seedUser bcrypt draws) store

end

/-! ## The server -/

def initRateLimiter (out : Surroundings) : Limiter :=
  match out.redis (getEnv (out.getenv "REDIS_URL") "redis://localhost:6379") with
  | none => .disabled
  | some client => .redis client

/-- `main` up to the routes. An error ends the process. -/
def main (bcrypt : Bcrypt) (jwt : Jwt)
    (hmacSHA1 : List UInt8 → List UInt8 → Vector UInt8 20) (unicode : UnicodeTables)
    (out : Surroundings) : Except AuthError (Platform × World MemoryUserStore) :=
  let userStore := seedDevUsers bcrypt out.draws MemoryUserStore.new
  match loadSigningKey out with
  | .error err => .error err
  | .ok signingKey =>
      match newService bcrypt jwt signingKey with
      | .error err => .error err
      | .ok service => .ok (
          { service := service, hmacSHA1 := hmacSHA1, unicode := unicode },
          { store := userStore
            engine := newEngine (out.newID 0) (out.newID 1) (out.newID 2)
            audit := newMemoryLogger
            limiter := initRateLimiter out })

end Nexus.Server
