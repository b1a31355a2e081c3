import Nexus.Auth.Service
import Nexus.Lib.Machine

/-! Calls of the service over the in-memory store, in any interleaving. The
store locks itself for one operation at a time, so `Register` takes two steps:
it validates and hashes on its own, and reaches the store later, with other
calls in between. A pending registration is named by its position. -/

set_option autoImplicit false

namespace Nexus.Auth

open Nexus.Lib Nexus.Go Nexus.Users

structure Directory where
  store : MemoryUserStore
  pending : List User

def Directory.new : Directory where
  store := .new
  pending := []

inductive Call where
  | register (env : Env) (input : RegisterInput)
  | createUser (env : Env) (position : Nat)
  | login (env : Env) (input : LoginInput)
  | getUserByID (id : String)
  | listUsers (env : Env)

inductive Answer where
  | rejected (err : AuthError) -- a registration failed before the store
  | hashed (u : User)
  | created (u : User) (result : Except AuthError User)
  | absent -- no registration is pending at the position
  | loggedIn (outcome : LoginOutcome)
  | found (result : Except AuthError User)
  | listed (result : Except AuthError (List User))

def directory (svc : Service) : Machine Directory Call Answer where
  step d
    | .register env input =>
        match svc.newUser env input with
        | .error err => (d, .rejected err)
        | .ok u => ({ d with pending := d.pending ++ [u] }, .hashed u)
    | .createUser env position =>
        match d.pending[position]? with
        | none => (d, .absent)
        | some u =>
            let (store, result) := MemoryUserStore.createUser env d.store u
            ({ store := store, pending := d.pending.eraseIdx position }, .created u result)
    | .login env input => (d, .loggedIn (svc.login env d.store input))
    | .getUserByID id => (d, .found (Auth.getUserByID d.store id))
    | .listUsers env => (d, .listed (Auth.listUsers env d.store))

end Nexus.Auth
