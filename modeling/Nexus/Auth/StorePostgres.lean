import Nexus.Auth.Store
import Nexus.Lib.Table

/-! The PostgreSQL implementation of user stores over the table of migration
002, `Table` holding its two uniqueness constraints. A text parameter may not
contain NUL, and a `VARCHAR` column takes a longer text only if what it cuts
off is spaces. The texts of database errors are reduced to their codes. -/

set_option autoImplicit false

namespace Nexus.Auth

open Nexus.Lib Nexus.Go Nexus.Users

/-! ## Database -/

inductive SqlError where
  | uniqueViolation
  | foreignKeyViolation
  | stringDataRightTruncation
  | characterNotInRepertoire
  deriving DecidableEq

def SqlError.code : SqlError → String
  | uniqueViolation => "23505"
  | foreignKeyViolation => "23503"
  | stringDataRightTruncation => "22001"
  | characterNotInRepertoire => "22021"

def SqlError.toError (err : SqlError) : AuthError := ⟨"pq: " ++ err.code, []⟩

def hasNul (text : String) : Bool := text.toList.contains (Char.ofNat 0)

def varchar (width : Nat) (text : String) : Except SqlError String :=
  if text.length ≤ width then .ok text
  else if (text.toList.drop width).all (· == ' ') then
    .ok (String.ofList (text.toList.take width))
  else .error .stringDataRightTruncation

/-- `NULLIF(text, '')`. -/
def nullIfEmpty (text : String) : Option String := if text = "" then none else some text

/-- A timestamp keeps microseconds, rounded to the nearest, ties to even. -/
def timestamptz (t : Time) : Time :=
  let micros := t / 1000
  let rest := t % 1000
  (if rest < 500 ∨ (rest = 500 ∧ micros % 2 = 0) then micros else micros + 1) * 1000

structure UserRow where
  id : String
  username : String
  passwordHash : String
  role : String
  organizationID : Option String
  status : String
  mfaSecret : Option String
  mfaEnabled : Bool
  createdAt : Time
  updatedAt : Time

abbrev UsersTable := Table UserRow.id UserRow.username

/-- What `Scan` reads from a row, `COALESCE` replacing NULL by ''. -/
def UserRow.user (row : UserRow) : User where
  id := row.id
  username := row.username
  passwordHash := row.passwordHash
  role := row.role
  organizationID := row.organizationID.getD ""
  status := row.status
  mfaSecret := row.mfaSecret.getD ""
  mfaEnabled := row.mfaEnabled
  createdAt := row.createdAt
  updatedAt := row.updatedAt

/-- The row a user becomes in the columns of the table. -/
def userRow (u : User) : Except SqlError UserRow := do
  let id ← varchar 64 u.id
  let username ← varchar 64 u.username
  let passwordHash ← varchar 255 u.passwordHash
  let role ← varchar 32 u.role
  let organizationID ← varchar 64 u.organizationID
  let status ← varchar 32 u.status
  let mfaSecret ← varchar 64 u.mfaSecret
  return {
    id := id
    username := username
    passwordHash := passwordHash
    role := role
    organizationID := nullIfEmpty organizationID
    status := status
    mfaSecret := some mfaSecret
    mfaEnabled := u.mfaEnabled
    createdAt := timestamptz u.createdAt
    updatedAt := timestamptz u.updatedAt }

/-- The `SET` list of `UpdateUser`. -/
def UserRow.setOn (row old : UserRow) : UserRow :=
  { row with id := old.id, createdAt := old.createdAt }

def userParameters (u : User) : List String :=
  [u.id, u.username, u.passwordHash, u.role, u.organizationID, u.status, u.mfaSecret]

/-! ## Store -/

structure PostgresUserStore where
  users : UsersTable
  organizations : List String

namespace PostgresUserStore

/-- The database right after the migrations. -/
def new : PostgresUserStore where
  users := .empty
  organizations := ["org-default"]

/-- Foreign keys are checked once the row has passed the unique constraints. -/
def references (s : PostgresUserStore) (users : UsersTable) (organizationID : Option String) :
    Except SqlError PostgresUserStore :=
  if ∀ id ∈ organizationID, id ∈ s.organizations then .ok { s with users := users }
  else .error .foreignKeyViolation

def insertUser (s : PostgresUserStore) (u : User) : Except SqlError PostgresUserStore :=
  if (userParameters u).any hasNul then .error .characterNotInRepertoire
  else
    match userRow u with
    | .error err => .error err
    | .ok row =>
        match s.users.insert row with
        | none => .error .uniqueViolation
        | some users => s.references users row.organizationID

/-- The store after the `UPDATE` and the number of rows it affected. Values
are cut to their columns only when there is a row to put them in. -/
def setUser (s : PostgresUserStore) (u : User) : Except SqlError (PostgresUserStore × Nat) :=
  if (userParameters u).any hasNul then .error .characterNotInRepertoire
  else
    match s.users.findKey u.id with
    | none => .ok (s, 0)
    | some _ =>
        match userRow u with
        | .error err => .error err
        | .ok row =>
            match s.users.update u.id row.setOn (fun _ => rfl) with
            | none => .error .uniqueViolation
            | some (users, rows) =>
                match s.references users row.organizationID with
                | .error err => .error err
                | .ok s => .ok (s, rows)

def selectUser (parameter : String) (row : Option UserRow) : Except SqlError (Option User) :=
  if hasNul parameter then .error .characterNotInRepertoire
  else .ok (row.map UserRow.user)

def createUser (env : Env) (s : PostgresUserStore) (u : User) :
    PostgresUserStore × Except AuthError User :=
  let u := if u.id = "" then { u with id := env.storeID } else u
  let u := { u with createdAt := env.now, updatedAt := env.now }
  match s.insertUser u with
  | .error err =>
      if err = .uniqueViolation then (s, .error errUserAlreadyExists)
      else (s, .error (wrapAfter "postgres create user" err.toError))
  | .ok s => (s, .ok u)

def getUserByUsername (s : PostgresUserStore) (username : String) : Except AuthError User :=
  match selectUser username (s.users.findColumn username) with
  | .ok none => .error errUserNotFound
  | .error err => .error (wrapAfter "postgres get user by username" err.toError)
  | .ok (some u) => .ok u

def getUserByID (s : PostgresUserStore) (id : String) : Except AuthError User :=
  match selectUser id (s.users.findKey id) with
  | .ok none => .error errUserNotFound
  | .error err => .error (wrapAfter "postgres get user by id" err.toError)
  | .ok (some u) => .ok u

/-- `ORDER BY created_at DESC`, in any order among equal timestamps. -/
def listUsers (env : Env) (s : PostgresUserStore) : Except AuthError (List User) :=
  let rows := (env.range s.users.rows).values.mergeSort fun row other =>
    decide (other.createdAt ≤ row.createdAt)
  .ok (rows.map UserRow.user)

def updateUser (env : Env) (s : PostgresUserStore) (u : User) :
    PostgresUserStore × Except AuthError User :=
  let u := { u with updatedAt := env.now }
  match s.setUser u with
  | .error err => (s, .error (wrapAfter "postgres update user" err.toError))
  | .ok (s, rows) => if rows = 0 then (s, .error errUserNotFound) else (s, .ok u)

instance : UserStore PostgresUserStore where
  createUser := createUser
  getUserByUsername := getUserByUsername
  getUserByID := getUserByID
  listUsers := listUsers
  updateUser := updateUser

end PostgresUserStore

end Nexus.Auth
