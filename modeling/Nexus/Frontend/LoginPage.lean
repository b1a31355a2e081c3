import Nexus.Frontend.ApiCalls

/-! The form of the login page and the demo accounts that fill it. -/

set_option autoImplicit false

namespace Nexus.Frontend

open Nexus.JavaScript

structure DemoAccount where
  username : String
  password : String

def demoAccounts : List DemoAccount := [
  { username := "admin", password := "AdminPassword123!" },
  { username := "developer", password := "DevPassword123!" },
  { username := "secmgr", password := "SecPassword123!" },
  { username := "viewer", password := "ViewerPassword123!" }]

structure LoginForm where
  username : List ℕ := []
  password : List ℕ := []

def LoginForm.quickLogin (_ : LoginForm) (account : DemoAccount) : LoginForm where
  username := ofString account.username
  password := ofString account.password

/-- The first request of `handleSubmit`. -/
def LoginForm.submit (form : LoginForm) : ApiCall := .login form.username form.password

end Nexus.Frontend
