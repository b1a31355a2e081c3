import Nexus.Auth.Errors
import Nexus.Users.Model

/-! The interface of user stores and the in-memory implementation, two maps
over one set of records. -/

set_option autoImplicit false

namespace Nexus.Auth

open Nexus.Lib Nexus.Go Nexus.Users

/-- The methods of `UserStore`. `createUser` and `updateUser` return the record
with the fields they set in place. -/
class UserStore (σ : Type) where
  createUser : Env → σ → User → σ × Except AuthError User
  getUserByUsername : σ → String → Except AuthError User
  getUserByID : σ → String → Except AuthError User
  listUsers : Env → σ → Except AuthError (List User)
  updateUser : Env → σ → User → σ × Except AuthError User

structure MemoryUserStore where
  byID : GoMap String User
  byUsername : GoMap String User

namespace MemoryUserStore

def new : MemoryUserStore where
  byID := ∅
  byUsername := ∅

def createUser (env : Env) (s : MemoryUserStore) (u : User) :
    MemoryUserStore × Except AuthError User :=
  match s.byUsername.lookup u.username with
  | some _ => (s, .error errUserAlreadyExists)
  | none =>
      let u := if u.id = "" then { u with id := env.storeID } else u
      let u := { u with createdAt := env.now, updatedAt := env.now }
      ({ byID := s.byID.insert u.id u
         byUsername := s.byUsername.insert u.username u }, .ok u)

def getUserByUsername (s : MemoryUserStore) (username : String) : Except AuthError User :=
  match s.byUsername.lookup username with
  | none => .error errUserNotFound
  | some u => .ok u

def getUserByID (s : MemoryUserStore) (id : String) : Except AuthError User :=
  match s.byID.lookup id with
  | none => .error errUserNotFound
  | some u => .ok u

def listUsers (env : Env) (s : MemoryUserStore) : Except AuthError (List User) :=
  .ok (env.range s.byID).values

def updateUser (env : Env) (s : MemoryUserStore) (u : User) :
    MemoryUserStore × Except AuthError User :=
  match s.byID.lookup u.id with
  | none => (s, .error errUserNotFound)
  | some existing =>
      let u := { u with updatedAt := env.now }
      let byUsername := s.byUsername.insert u.username u
      ({ byID := s.byID.insert u.id u
         byUsername :=
          if existing.username ≠ u.username then byUsername.erase existing.username
          else byUsername }, .ok u)

instance : UserStore MemoryUserStore where
  createUser := createUser
  getUserByUsername := getUserByUsername
  getUserByID := getUserByID
  listUsers := listUsers
  updateUser := updateUser

end MemoryUserStore

end Nexus.Auth
