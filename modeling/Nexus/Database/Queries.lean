import Nexus.Audit.LoggerPostgres
import Nexus.Database.Types

/-! The statements that the stores send to the database. One that fails changes
nothing. -/

set_option autoImplicit false

namespace Nexus.Database

open Nexus.Audit Nexus.Auth Nexus.Go Nexus.Go.JsonText Nexus.Lib Nexus.Users

/-- `NULLIF(text, '')` as a cell. -/
def textOrNull (text : String) : Option ColumnValue := (nullIfEmpty text).map .text

def createUser (env : Env) (u : User) : Statement :=
  let id := if u.id = "" then env.storeID else u.id
  .insert "users" ["id", "username", "password_hash", "role", "organization_id", "status",
      "mfa_secret", "mfa_enabled", "created_at", "updated_at"]
    [[some (.text id), some (.text u.username), some (.text u.passwordHash), some (.text u.role),
      textOrNull u.organizationID, some (.text u.status), some (.text u.mfaSecret),
      some (.boolean u.mfaEnabled), some (.timestamp env.now), some (.timestamp env.now)]] none

def updateUser (env : Env) (u : User) : Statement :=
  .update "users" [("username", some (.text u.username)),
    ("password_hash", some (.text u.passwordHash)), ("role", some (.text u.role)),
    ("organization_id", textOrNull u.organizationID), ("status", some (.text u.status)),
    ("mfa_secret", some (.text u.mfaSecret)), ("mfa_enabled", some (.boolean u.mfaEnabled)),
    ("updated_at", some (.timestamp env.now))] "id" (.text u.id)

def log (env : Env) (event : Event) : Statement :=
  let event := PostgresLogger.log env event
  .insert "audit_logs" ["id", "user_id", "action", "resource", "ip_address", "user_agent",
      "metadata", "timestamp"]
    [[some (.text event.id), textOrNull event.userID, some (.text event.action),
      some (.text event.resource), some (.text event.ipAddress), some (.text event.userAgent),
      some (.text (marshal event.metadata)), some (.timestamp (event.timestamp.getD 0))]] none

inductive Operation where
  | createUser (u : User)
  | updateUser (u : User)
  | log (event : Event)

def Operation.statement (env : Env) : Operation → Statement
  | createUser u => Database.createUser env u
  | updateUser u => Database.updateUser env u
  | log event => Database.log env event

def Operation.apply (env : Env) (db : Schema) (operation : Operation) : Schema :=
  match Sql.exec dialect env.now db (operation.statement env) with
  | .ok after => after
  | .error _ => db

/-- Operations one after the other, each in its own surroundings. -/
def applyAll (db : Schema) : List (Env × Operation) → Schema
  | [] => db
  | (env, operation) :: operations => applyAll (operation.apply env db) operations

end Nexus.Database
