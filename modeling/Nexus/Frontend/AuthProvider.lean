import Nexus.Frontend.ApiClient
import Nexus.Lib.Machine

/-! The state of `AuthProvider` and of the client it shares, and the operations
on it between their awaits. An operation that awaits is in `pending`, where any
later event may find it. The server answers `getMe` with the profile of the
token that the request carried, which is `owner`, or with an error, and a
request without a token with an error. What the requests for login and
registration carry has no effect here. -/

set_option autoImplicit false

namespace Nexus.Frontend

open Nexus.Lib Nexus.Users

structure Session where
  user : Option PublicUser
  token : Option Token
  isLoading : Bool
  api : ApiClient
  deriving DecidableEq

/-- What a started operation awaits. -/
inductive Operation where
  | fetchProfile (carried : Token) -- the response to its `getMe`
  | register -- the response to its registration
  | login -- the response to `api.login`
  | loggedIn (token : Token) -- to resume, `api.login` having returned
  | getMe (carried : Option Token) -- of `login`: the response to its `getMe`
  deriving DecidableEq

structure Browser where
  session : Session
  pending : List Operation
  deriving DecidableEq

inductive Event where
  | refreshProfile -- or the effect of mounting
  | login
  | register
  | logout
  | registered (position : Nat)
  | issued (position : Nat) (token : Token)
  | resumed (position : Nat)
  | profile (position : Nat)
  | failed (position : Nat) -- a network error or an error status

/-- How the promise of an operation ends. -/
inductive Settlement where
  | resolved
  | rejected
  deriving DecidableEq

namespace AuthProvider

/-- The provider before its effect runs. -/
def initial (sessionStorage : Option Token) : Browser where
  session := {
    user := none
    token := (ApiClient.constructor sessionStorage).getToken
    isLoading := true
    api := .constructor sessionStorage }
  pending := []

def logout (s : Session) : Session :=
  { s with api := s.api.setToken none, token := none, user := none }

def fetchProfile (b : Browser) : Browser × Option Settlement :=
  match b.session.api.getToken with
  | none => ({ b with session := { b.session with user := none, isLoading := false } },
      some .resolved)
  | some carried => ({ b with pending := b.pending ++ [.fetchProfile carried] }, none)

/-- The `catch` and `finally` of `fetchProfile`, which does not rethrow. -/
def fetchProfileFailed (s : Session) : Session :=
  { s with
    api := s.api.setToken none
    token := none
    user := none
    isLoading := false }

/-- `register` goes on to log in. -/
def registered (b : Browser) (position : Nat) : Browser :=
  match b.pending[position]? with
  | some .register => { b with pending := b.pending.set position .login }
  | _ => b

/-- The rest of `api.login`. -/
def issued (b : Browser) (position : Nat) (token : Token) : Browser :=
  match b.pending[position]? with
  | some .login =>
      { session := { b.session with api := b.session.api.setToken (some token) }
        pending := b.pending.set position (.loggedIn token) }
  | _ => b

/-- `login` up to its `getMe`. -/
def resumed (b : Browser) (position : Nat) : Browser :=
  match b.pending[position]? with
  | some (.loggedIn token) =>
      { session := { b.session with token := some token }
        pending := b.pending.set position (.getMe b.session.api.authorization) }
  | _ => b

def profile (owner : Token → PublicUser) (b : Browser) (position : Nat) :
    Browser × Option Settlement :=
  match b.pending[position]? with
  | some (.fetchProfile carried) =>
      ({ session := { b.session with user := some (owner carried), isLoading := false }
         pending := b.pending.eraseIdx position }, some .resolved)
  | some (.getMe (some carried)) =>
      ({ session := { b.session with user := some (owner carried) }
         pending := b.pending.eraseIdx position }, some .resolved)
  | _ => (b, none)

/-- Only `fetchProfile` catches the error. -/
def failed (b : Browser) (position : Nat) : Browser × Option Settlement :=
  match b.pending[position]? with
  | some (.fetchProfile _) =>
      ({ session := fetchProfileFailed b.session
         pending := b.pending.eraseIdx position }, some .resolved)
  | some .register | some .login | some (.getMe _) =>
      ({ b with pending := b.pending.eraseIdx position }, some .rejected)
  | _ => (b, none)

variable (owner : Token → PublicUser)

def step (b : Browser) : Event → Browser × Option Settlement
  | .refreshProfile => fetchProfile b
  | .login => ({ b with pending := b.pending ++ [.login] }, none)
  | .register => ({ b with pending := b.pending ++ [.register] }, none)
  | .logout => ({ b with session := logout b.session }, none)
  | .registered position => (registered b position, none)
  | .issued position token => (issued b position token, none)
  | .resumed position => (resumed b position, none)
  | .profile position => profile owner b position
  | .failed position => failed b position

def machine : Machine Browser Event (Option Settlement) where
  step := step owner

/-- The provider once its effect has started `fetchProfile`. -/
def mounted (sessionStorage : Option Token) : Browser := (fetchProfile (initial sessionStorage)).1

end AuthProvider

end Nexus.Frontend
