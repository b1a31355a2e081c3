import Nexus.Auth.StorePostgres
import Nexus.Lib.Sql
import Nexus.Postgres.Jsonb

/-! The column types of the schema and what an assignment to such a column makes
of a value. Parameters arrive as text, a document as its JSON. -/

set_option autoImplicit false

namespace Nexus.Database

open Nexus.Auth Nexus.Go Nexus.Lib Nexus.Postgres

inductive ColumnType where
  | varchar (width : Nat)
  | text
  | boolean
  | int
  | timestamptz
  | jsonb
  deriving DecidableEq

inductive ColumnValue where
  | text (value : String)
  | boolean (value : Bool)
  | int (value : Int)
  | timestamp (value : Time)
  | jsonb (value : Jsonb)
  deriving DecidableEq

inductive CastError where
  | character (err : SqlError)
  | document (err : JsonbError)
  | numericValueOutOfRange
  | datatypeMismatch

def readText (text : String) : Except CastError String :=
  if hasNul text then .error (.character .characterNotInRepertoire) else .ok text

def castText (type : ColumnType) (text : String) : Except CastError ColumnValue :=
  match type with
  | .varchar width => ((varchar width text).mapError .character).map .text
  | .text => .ok (.text text)
  | .jsonb => ((Postgres.jsonb text).mapError .document).map .jsonb
  | .boolean | .int | .timestamptz => .error .datatypeMismatch

def cast (type : ColumnType) (value : ColumnValue) : Except CastError ColumnValue :=
  match type, value with
  | type, .text text =>
      match readText text with
      | .error err => .error err
      | .ok text => castText type text
  | .boolean, .boolean value => .ok (.boolean value)
  | .int, .int value =>
      if -2147483648 ≤ value ∧ value ≤ 2147483647 then .ok (.int value)
      else .error .numericValueOutOfRange
  | .timestamptz, .timestamp value => .ok (.timestamp (Auth.timestamptz value))
  | .jsonb, .jsonb value => .ok (.jsonb value)
  | _, _ => .error .datatypeMismatch

def dialect : Sql.Dialect ColumnType ColumnValue CastError where
  cast := cast
  timestamp now := .timestamp (Auth.timestamptz now)

abbrev Column := Sql.Column ColumnType ColumnValue
abbrev Statement := Sql.Statement ColumnType ColumnValue
abbrev Schema := Sql.Database ColumnType ColumnValue
abbrev Fault := Sql.Fault CastError

/-- A column that may be NULL and is so by default. -/
def column (name : String) (type : ColumnType) : Column where
  name := name
  type := type
  notNull := false
  default := .null
  references := none

end Nexus.Database
