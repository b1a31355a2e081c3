import Mathlib.Data.Int.Order.Basic
import Nexus.Audit.LoggerProperties
import Nexus.Auth.StorePostgres
import Nexus.Lib.SortedPages
import Nexus.Postgres.Jsonb

/-! The PostgreSQL logger over the table of migration 006. `log` is the event
that the goroutine `Log` starts will insert. `json.Marshal` does not fail on a
map of strings, so the source's `{}` in place of such metadata never occurs. -/

set_option autoImplicit false

namespace Nexus.Audit

open Nexus.Lib Nexus.Go Nexus.Go.JsonText Nexus.Auth Nexus.Postgres

structure AuditRow where
  id : String
  userID : Option String
  action : String
  resource : String
  ipAddress : String
  userAgent : String
  metadata : Jsonb
  timestamp : Time

inductive InsertError where
  | column (err : SqlError)
  | metadata (err : JsonbError)
  deriving DecidableEq

def insertParameters (event : Event) : List String :=
  [event.id, event.userID, event.action, event.resource, event.ipAddress, event.userAgent]

def auditRow (event : Event) (metadata : Jsonb) : Except SqlError AuditRow := do
  let id ← varchar 64 event.id
  let userID ← varchar 64 event.userID
  let action ← varchar 64 event.action
  let resource ← varchar 128 event.resource
  let ipAddress ← varchar 64 event.ipAddress
  return {
    id := id
    userID := nullIfEmpty userID
    action := action
    resource := resource
    ipAddress := ipAddress
    userAgent := event.userAgent
    metadata := metadata
    timestamp := timestamptz (event.timestamp.getD 0) }

/-- What `Scan` reads from a row, with `metadata` unmarshalled. -/
def AuditRow.event (row : AuditRow) : Event where
  id := row.id
  userID := row.userID.getD ""
  action := row.action
  resource := row.resource
  ipAddress := row.ipAddress
  userAgent := row.userAgent
  metadata :=
    match row.metadata with
    | .null => []
    | .object members => members
  timestamp := some row.timestamp

/-- The table `audit_logs` with its primary key. -/
structure AuditLogs where
  rows : List AuditRow
  keyed : (rows.map AuditRow.id).Nodup

namespace AuditLogs

def empty : AuditLogs where
  rows := []
  keyed := List.nodup_nil

def insertRow (logs : AuditLogs) (row : AuditRow) : Except SqlError AuditLogs :=
  if taken : row.id ∈ logs.rows.map AuditRow.id then .error .uniqueViolation
  else
    .ok {
      rows := row :: logs.rows
      keyed := List.nodup_cons.mpr ⟨taken, logs.keyed⟩ }

/-- `INSERT`. The parameters are read before any is cut to its column. -/
def insert (logs : AuditLogs) (event : Event) : Except InsertError AuditLogs :=
  if (insertParameters event).any hasNul then .error (.column .characterNotInRepertoire)
  else
    match jsonb (marshal event.metadata) with
    | .error err => .error (.metadata err)
    | .ok metadata =>
        match auditRow event metadata with
        | .error err => .error (.column err)
        | .ok row => (logs.insertRow row).mapError .column

/-- The table holds the row of an event. -/
def Records (logs : AuditLogs) (event : Event) : Prop :=
  ∃ metadata row, jsonb (marshal event.metadata) = .ok metadata ∧
    auditRow event metadata = .ok row ∧ row ∈ logs.rows

/-- `ORDER BY timestamp DESC`. -/
abbrev NewestFirst (logs : AuditLogs) := Latest AuditRow.timestamp logs.rows

inductive RowCountError where
  | invalidInOffsetClause
  | invalidInLimitClause
  deriving DecidableEq

/-- `LIMIT pageSize OFFSET offset` of the rows in the given order. -/
def select (logs : AuditLogs) (order : logs.NewestFirst) (pageSize offset : Int64) :
    Except RowCountError (List AuditRow) :=
  if offset < 0 then .error .invalidInOffsetClause
  else if pageSize < 0 then .error .invalidInLimitClause
  else .ok ((order.values.drop offset.toNatClampNeg).take pageSize.toNatClampNeg)

end AuditLogs

namespace PostgresLogger

def log (env : Env) (event : Event) : Event :=
  let event := if event.id = "" then { event with id := env.eventID } else event
  if event.timestamp = none then { event with timestamp := some env.now } else event

def list (logs : AuditLogs) (order : logs.NewestFirst) (page pageSize : Int64) :
    Except AuditLogs.RowCountError (List Event × Nat) :=
  let total := logs.rows.length
  let offset := (page - 1) * pageSize
  (logs.select order pageSize offset).map fun rows => (rows.map AuditRow.event, total)

end PostgresLogger

end Nexus.Audit
