import Nexus.Go.Runtime

/-! Users, their roles and their status. Roles and statuses are arbitrary
strings, as in the source; only registration restricts the role. `roleUser` is
an alias for viewer, and `PublicUser` is what API consumers see. -/

set_option autoImplicit false

namespace Nexus.Users

open Nexus.Go

abbrev Role := String

def roleSuperAdmin : Role := "super_admin"
def roleAdmin : Role := "admin"
def roleSecurityManager : Role := "security_manager"
def roleDeveloper : Role := "developer"
def roleAnalyst : Role := "analyst"
def roleViewer : Role := "viewer"

def roleUser : Role := "user"

def validRoles : List Role :=
  [roleSuperAdmin, roleAdmin, roleSecurityManager, roleDeveloper, roleAnalyst,
    roleViewer, roleUser]

abbrev Status := String

def statusActive : Status := "active"
def statusSuspended : Status := "suspended"

structure User where
  id : String
  username : String
  passwordHash : String
  role : Role
  organizationID : String := ""
  status : Status
  mfaSecret : String := ""
  mfaEnabled : Bool := false
  createdAt : Time := 0
  updatedAt : Time := 0
  deriving DecidableEq

structure PublicUser where
  id : String
  username : String
  role : Role
  organizationID : String
  status : Status
  mfaEnabled : Bool
  createdAt : Time
  deriving DecidableEq

def User.toPublic (u : User) : PublicUser where
  id := u.id
  username := u.username
  role := u.role
  organizationID := u.organizationID
  status := u.status
  mfaEnabled := u.mfaEnabled
  createdAt := u.createdAt

end Nexus.Users
