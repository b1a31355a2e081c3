import Nexus.Auth.Store
import Nexus.Lib.Machine

/-! The whole interface of a user store as a machine. A call is a step, with
the clock and the random draws it meets. -/

set_option autoImplicit false

namespace Nexus.Auth

open Nexus.Lib Nexus.Go Nexus.Users

inductive StoreCall where
  | createUser (u : User)
  | updateUser (u : User)
  | getUserByUsername (username : String)
  | getUserByID (id : String)
  | listUsers

inductive StoreAnswer where
  | created (result : Except AuthError User)
  | updated (result : Except AuthError User)
  | found (result : Except AuthError User)
  | listed (result : Except AuthError (List User))

def answer {σ : Type} [UserStore σ] (env : Env) (s : σ) : StoreCall → σ × StoreAnswer
  | .createUser u =>
      let (s, result) := UserStore.createUser env s u
      (s, .created result)
  | .updateUser u =>
      let (s, result) := UserStore.updateUser env s u
      (s, .updated result)
  | .getUserByUsername username => (s, .found (UserStore.getUserByUsername s username))
  | .getUserByID id => (s, .found (UserStore.getUserByID s id))
  | .listUsers => (s, .listed (UserStore.listUsers env s))

def storeMachine (σ : Type) [UserStore σ] : Machine σ (Env × StoreCall) StoreAnswer where
  step s call := answer call.1 s call.2

end Nexus.Auth
