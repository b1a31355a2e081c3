import Nexus.Go.Runtime

/-! Sentinel errors of the auth domain, those that something returns. -/

set_option autoImplicit false

namespace Nexus.Auth

open Nexus.Go

inductive Sentinel where
  | userNotFound
  | userAlreadyExists
  | invalidCredentials
  | invalidInput
  | weakPassword
  | invalidRole
  | invalidMFACode
  deriving DecidableEq

abbrev AuthError := Error Sentinel

def errUserNotFound : AuthError := ⟨"user not found", [.userNotFound]⟩
def errUserAlreadyExists : AuthError := ⟨"username already taken", [.userAlreadyExists]⟩
def errInvalidCredentials : AuthError := ⟨"invalid credentials", [.invalidCredentials]⟩
def errInvalidInput : AuthError := ⟨"invalid input", [.invalidInput]⟩
def errWeakPassword : AuthError := ⟨"password must be at least 8 characters", [.weakPassword]⟩
def errInvalidRole : AuthError := ⟨"invalid role", [.invalidRole]⟩
def errInvalidMFACode : AuthError := ⟨"invalid or expired MFA code", [.invalidMFACode]⟩

/-- `fmt.Errorf("%w: detail", err)`. -/
def wrapBefore (err : AuthError) (detail : String) : AuthError :=
  { err with text := err.text ++ ": " ++ detail }

/-- `fmt.Errorf("context: %w", err)`. -/
def wrapAfter (context : String) (err : AuthError) : AuthError :=
  { err with text := context ++ ": " ++ err.text }

end Nexus.Auth
