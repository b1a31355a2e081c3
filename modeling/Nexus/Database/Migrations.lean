import Nexus.Database.Types
import Nexus.Go.Strings

/-! The migrations, statement by statement, and `RunMigrations`. Each file is
executed as one script, at the time its transaction starts. What happens to a
reference when its target is deleted is left out, as nothing is. -/

set_option autoImplicit false

namespace Nexus.Database

open Nexus.Go Nexus.Lib.Sql

/-! ## Files -/

def required (c : Column) : Column := { c with notNull := true }

def withDefault (c : Column) (value : ColumnValue) : Column :=
  { c with default := .constant value }

def referring (c : Column) (table key : String) : Column :=
  { c with references := some (table, key) }

/-- `TIMESTAMP WITH TIME ZONE NOT NULL DEFAULT CURRENT_TIMESTAMP`. -/
def stamped (name : String) : Column :=
  { required (column name .timestamptz) with default := .now }

def createTable (name : String) (keys : List (List String)) (columns : List Column) : Statement :=
  .createTable true ⟨name, columns, keys⟩

def createIndex (name table : String) (columns : List String) : Statement :=
  .createIndex true ⟨name, table, columns⟩

/-- `INSERT … ON CONFLICT (key) DO NOTHING` of texts. -/
def seed (table key : String) (columns : List String) (rows : List (List String)) : Statement :=
  .insert table columns (rows.map fun row => row.map fun text => some (.text text)) (some [key])

def createOrganizations : List Statement := [
  createTable "organizations" [["id"], ["name"]] [
    required (column "id" (.varchar 64)),
    required (column "name" (.varchar 255)),
    stamped "created_at",
    stamped "updated_at"],
  seed "organizations" "id" ["id", "name"] [["org-default", "Default Organization"]]]

def usersColumns : List Column := [
  required (column "id" (.varchar 64)),
  required (column "username" (.varchar 64)),
  required (column "password_hash" (.varchar 255)),
  withDefault (required (column "role" (.varchar 32))) (.text "viewer"),
  referring (column "organization_id" (.varchar 64)) "organizations" "id",
  withDefault (required (column "status" (.varchar 32))) (.text "active"),
  withDefault (column "mfa_secret" (.varchar 64)) (.text ""),
  withDefault (required (column "mfa_enabled" .boolean)) (.boolean false),
  stamped "created_at",
  stamped "updated_at"]

def createUsers : List Statement := [
  createTable "users" [["id"], ["username"]] usersColumns,
  createIndex "idx_users_username" "users" ["username"],
  createIndex "idx_users_role" "users" ["role"],
  createIndex "idx_users_org" "users" ["organization_id"]]

def createRolesAndPermissions : List Statement := [
  createTable "roles" [["name"]] [
    required (column "name" (.varchar 32)),
    withDefault (required (column "description" .text)) (.text ""),
    stamped "created_at"],
  createTable "permissions" [["name"]] [
    required (column "name" (.varchar 64)),
    withDefault (required (column "description" .text)) (.text ""),
    stamped "created_at"],
  createTable "role_permissions" [["role_name", "permission_name"]] [
    required (referring (column "role_name" (.varchar 32)) "roles" "name"),
    required (referring (column "permission_name" (.varchar 64)) "permissions" "name")],
  seed "roles" "name" ["name", "description"] [
    ["super_admin", "Full system access across all tenants and subsystems"],
    ["admin", "Organization administrator with user and app management"],
    ["security_manager", "Security officer managing policies, audits, and security controls"],
    ["developer", "Software engineer with application manage and deployment rights"],
    ["analyst", "Security and data analyst with read permissions and audit view"],
    ["viewer", "Read-only access to assigned resources"],
    ["user", "Standard user with basic viewer access"]],
  seed "permissions" "name" ["name", "description"] [
    ["users.read", "Read user profiles and lists"],
    ["users.create", "Create new user accounts"],
    ["users.update", "Update existing user profiles and status"],
    ["users.delete", "Permanently delete user accounts"],
    ["applications.read", "View registered applications"],
    ["applications.manage", "Create, update, and delete applications"],
    ["policies.read", "View access control policies"],
    ["policies.manage", "Create, modify, and delete access policies"],
    ["audit.read", "View security audit logs and events"],
    ["security.manage", "Manage security settings, rate limits, and MFA"],
    ["organizations.read", "View organization details"],
    ["organizations.manage", "Manage organization settings"],
    ["roles.read", "View roles and permission matrices"],
    ["roles.manage", "Assign and customize role permissions"]]]

def createApplications : List Statement := [
  createTable "applications" [["id"], ["name"], ["slug"]] [
    required (column "id" (.varchar 64)),
    required (column "name" (.varchar 128)),
    required (column "slug" (.varchar 64)),
    withDefault (required (column "description" .text)) (.text ""),
    withDefault (required (column "icon" (.varchar 64))) (.text "cloud"),
    withDefault (required (column "status" (.varchar 32))) (.text "active"),
    stamped "created_at",
    stamped "updated_at"],
  seed "applications" "id" ["id", "name", "slug", "description", "icon"] [
    ["app-aws-console", "AWS Management Console", "aws-console",
      "Core cloud infrastructure console", "aws"],
    ["app-prod-db", "Production PostgreSQL Database", "prod-db",
      "Customer data & transaction storage", "database"],
    ["app-reporting", "Executive Reporting Dashboard", "reporting-dashboard",
      "Business analytics & intelligence portal", "chart"],
    ["app-vault", "Cloud Secrets Vault", "secrets-vault",
      "Production secrets & encryption keys", "key"]]]

def policyRow (id name role application : String) (requireMFA requireTrustedDevice : Bool)
    (maxRiskScore : Int) (decision : String) (enabled : Bool) : List (Option ColumnValue) :=
  [some (.text id), some (.text name), some (.text role), some (.text application),
    some (.boolean requireMFA), some (.boolean requireTrustedDevice), some (.int maxRiskScore),
    some (.text decision), some (.boolean enabled)]

def createPolicies : List Statement := [
  createTable "policies" [["id"]] [
    required (column "id" (.varchar 64)),
    required (column "name" (.varchar 128)),
    required (column "role" (.varchar 32)),
    required (column "application" (.varchar 64)),
    withDefault (required (column "require_mfa" .boolean)) (.boolean false),
    withDefault (required (column "require_trusted_device" .boolean)) (.boolean false),
    withDefault (required (column "max_risk_score" .int)) (.int 0),
    withDefault (required (column "decision" (.varchar 32))) (.text "ALLOW"),
    withDefault (required (column "enabled" .boolean)) (.boolean true),
    stamped "created_at",
    stamped "updated_at"],
  .insert "policies" ["id", "name", "role", "application", "require_mfa",
      "require_trusted_device", "max_risk_score", "decision", "enabled"] [
    policyRow "pol-dev-aws" "Developer AWS Console Access" "developer" "aws-console"
      true true 70 "ALLOW" true,
    policyRow "pol-admin-all" "Admin Full Access" "admin" "*" true false 50 "ALLOW" true,
    policyRow "pol-viewer-read" "Viewer Read-Only" "viewer" "*" false false 0 "ALLOW" true,
    policyRow "pol-sec-vault" "Security Manager Vault Access" "security_manager" "secrets-vault"
      true true 40 "ALLOW" true] (some ["id"])]

def createAuditLogs : List Statement := [
  createTable "audit_logs" [["id"]] [
    required (column "id" (.varchar 64)),
    column "user_id" (.varchar 64),
    required (column "action" (.varchar 64)),
    withDefault (column "resource" (.varchar 128)) (.text ""),
    withDefault (column "ip_address" (.varchar 64)) (.text ""),
    withDefault (column "user_agent" .text) (.text ""),
    withDefault (column "metadata" .jsonb) (.jsonb (.object [])),
    stamped "timestamp"],
  createIndex "idx_audit_timestamp" "audit_logs" ["timestamp"],
  createIndex "idx_audit_user" "audit_logs" ["user_id"],
  createIndex "idx_audit_action" "audit_logs" ["action"]]

/-- The embedded directory `migrations`. -/
def migrationFiles : List (String × List Statement) := [
  ("001_create_organizations.sql", createOrganizations),
  ("002_create_users.sql", createUsers),
  ("003_create_roles_and_permissions.sql", createRolesAndPermissions),
  ("004_create_applications.sql", createApplications),
  ("005_create_policies.sql", createPolicies),
  ("006_create_audit_logs.sql", createAuditLogs)]

/-! ## Running them -/

def isMigration (name : String) : Bool :=
  decide (4 < len name) && ".sql".toList.isSuffixOf name.toList

def migrationNames : List String :=
  ((migrationFiles.map Prod.fst).filter isMigration).mergeSort fun name other =>
    decide (name ≤ other)

inductive MigrationError where
  | read (name : String)
  | execute (name : String) (fault : Fault)

/-- Files run one after the other, each at the time the clock shows for it, up to
the first that fails. A file that fails changes nothing. -/
def runFiles (clock : String → Time) (db : Schema) :
    List String → Except MigrationError Schema
  | [] => .ok db
  | name :: names =>
      match migrationFiles.lookup name with
      | none => .error (.read name)
      | some content =>
          match run dialect (clock name) db content with
          | .error fault => .error (.execute name fault)
          | .ok db => runFiles clock db names

def runMigrations (clock : String → Time) (db : Schema) : Except MigrationError Schema :=
  runFiles clock db migrationNames

/-- Starts that stop, each after so many files. -/
def stoppedStarts (db : Schema) : List (Nat × (String → Time)) → Except MigrationError Schema
  | [] => .ok db
  | (files, clock) :: starts =>
      match runFiles clock db (migrationNames.take files) with
      | .error err => .error err
      | .ok db => stoppedStarts db starts

end Nexus.Database
