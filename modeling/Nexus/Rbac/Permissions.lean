import Nexus.Users.Model

/-! The permission table of package rbac, declared as the single source of
truth for what a role may do, and its lookup. -/

set_option autoImplicit false

namespace Nexus.Rbac

open Nexus.Lib Nexus.Users

abbrev Permission := String

def permUsersRead : Permission := "users.read"
def permUsersCreate : Permission := "users.create"
def permUsersUpdate : Permission := "users.update"
def permUsersDelete : Permission := "users.delete"

def permApplicationsRead : Permission := "applications.read"
def permApplicationsManage : Permission := "applications.manage"

def permPoliciesRead : Permission := "policies.read"
def permPoliciesManage : Permission := "policies.manage"

def permAuditRead : Permission := "audit.read"

def permSecurityManage : Permission := "security.manage"

def permOrgsRead : Permission := "organizations.read"
def permOrgsManage : Permission := "organizations.manage"

def permRolesRead : Permission := "roles.read"
def permRolesManage : Permission := "roles.manage"

def rolePermissions : GoMap Role (List Permission) where
  entries :=
    [ ⟨roleSuperAdmin,
        [permUsersRead, permUsersCreate, permUsersUpdate, permUsersDelete,
          permApplicationsRead, permApplicationsManage,
          permPoliciesRead, permPoliciesManage,
          permAuditRead,
          permSecurityManage,
          permOrgsRead, permOrgsManage,
          permRolesRead, permRolesManage]⟩,
      ⟨roleAdmin,
        [permUsersRead, permUsersCreate, permUsersUpdate,
          permApplicationsRead, permApplicationsManage,
          permPoliciesRead, permPoliciesManage,
          permAuditRead,
          permOrgsRead,
          permRolesRead]⟩,
      ⟨roleSecurityManager,
        [permUsersRead,
          permApplicationsRead,
          permPoliciesRead, permPoliciesManage,
          permAuditRead,
          permSecurityManage,
          permRolesRead]⟩,
      ⟨roleDeveloper,
        [permUsersRead,
          permApplicationsRead, permApplicationsManage,
          permPoliciesRead]⟩,
      ⟨roleAnalyst,
        [permUsersRead,
          permApplicationsRead,
          permPoliciesRead,
          permAuditRead]⟩,
      ⟨roleViewer, [permApplicationsRead]⟩,
      ⟨roleUser, [permApplicationsRead]⟩ ]
  nodupKeys := show List.Nodup _ by decide

def hasPermission (role : Role) (perm : Permission) : Bool :=
  match rolePermissions.lookup role with
  | none => false
  | some perms => perms.any (· == perm)

/-- The roles a permission is granted to. -/
def holders (perm : Permission) : List Role :=
  (rolePermissions.entries.filter fun entry => entry.2.any (· == perm)).map Sigma.fst

theorem hasPermission_iff {role : Role} {perm : Permission} :
    hasPermission role perm = true ↔ role ∈ holders perm := by
  simp only [holders, List.mem_map, List.mem_filter]
  unfold hasPermission
  constructor
  · intro granted
    cases found : rolePermissions.lookup role with
    | none =>
        rw [found] at granted
        cases granted
    | some perms =>
        rw [found] at granted
        exact ⟨⟨role, perms⟩, ⟨AList.mem_lookup_iff.mp found, granted⟩, rfl⟩
  · rintro ⟨⟨_, perms⟩, ⟨listed, granted⟩, rfl⟩
    rw [AList.mem_lookup_iff.mpr listed]
    exact granted

theorem hasPermission_mono {role other : Role} {perms more : List Permission}
    (found : rolePermissions.lookup role = some perms)
    (alsoFound : rolePermissions.lookup other = some more) (contained : perms ⊆ more)
    {perm : Permission} (granted : hasPermission role perm = true) :
    hasPermission other perm = true := by
  simp only [hasPermission, found, alsoFound, List.any_eq_true, beq_iff_eq] at granted ⊢
  obtain ⟨same, listed, rfl⟩ := granted
  exact ⟨same, contained listed, rfl⟩

example : holders permPoliciesManage = [roleSuperAdmin, roleAdmin, roleSecurityManager] := by
  decide

end Nexus.Rbac
