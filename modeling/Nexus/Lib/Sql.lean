import Mathlib.Data.Int.Notation
import Mathlib.Data.List.Basic

/-! A relational database, as far as scripts of definitions and insertions and
updates by key need it: tables with typed columns, keys and references, indexes,
and the statements on them. What the types admit and how an instant becomes a
value is a parameter. A row lists its cells under the names of their columns. A
primary key is a key whose columns are not null. The indexes behind keys have no
names here, and nothing is ever deleted. -/

set_option autoImplicit false

namespace Nexus.Lib.Sql

inductive Default (ν : Type) where
  | null
  | constant (value : ν)
  | now
  deriving DecidableEq

structure Column (τ ν : Type) where
  name : String
  type : τ
  notNull : Bool
  default : Default ν
  references : Option (String × String)
  deriving DecidableEq

structure Definition (τ ν : Type) where
  name : String
  columns : List (Column τ ν)
  keys : List (List String)
  deriving DecidableEq

abbrev Row (ν : Type) := List (String × Option ν)

structure Table (τ ν : Type) where
  definition : Definition τ ν
  rows : List (Row ν)
  deriving DecidableEq

structure Index where
  name : String
  table : String
  columns : List String

structure Database (τ ν : Type) where
  tables : List (Table τ ν)
  indexes : List Index

/-- An insertion may skip rows that agree with a present one on a key, and an
update changes the rows that hold a value in a column. -/
inductive Statement (τ ν : Type) where
  | createTable (ifNotExists : Bool) (definition : Definition τ ν)
  | createIndex (ifNotExists : Bool) (index : Index)
  | insert (table : String) (columns : List String) (rows : List (List (Option ν)))
      (onConflictDoNothing : Option (List String))
  | update (table : String) (assignments : Row ν) (key : String) (value : ν)

inductive Fault (ε : Type) where
  | duplicateRelation
  | undefinedTable
  | undefinedColumn
  | columnCount
  | invalidReference
  | invalidConflictTarget
  | notNullViolation
  | uniqueViolation
  | foreignKeyViolation
  | cast (err : ε)

structure Dialect (τ ν ε : Type) where
  cast : τ → ν → Except ε ν
  timestamp : ℤ → ν

variable {τ ν ε : Type}

/-! ## Rows -/

def Row.cell (row : Row ν) (name : String) : Option ν := (row.lookup name).join

/-- Equal values in all these columns. NULL equals nothing. -/
def Row.agrees [DecidableEq ν] (names : List String) (row other : Row ν) : Bool :=
  names.all fun name => (row.cell name).isSome && decide (row.cell name = other.cell name)

def Default.value (dialect : Dialect τ ν ε) (now : ℤ) : Default ν → Option ν
  | null => none
  | constant value => some value
  | .now => some (dialect.timestamp now)

def castCell (dialect : Dialect τ ν ε) (type : τ) : Option ν → Except (Fault ε) (Option ν)
  | none => .ok none
  | some value =>
      match dialect.cast type value with
      | .error err => .error (.cast err)
      | .ok value => .ok (some value)

/-- The cell of a new row, a default where none is given. -/
def fill (dialect : Dialect τ ν ε) (now : ℤ) (given : Row ν) (column : Column τ ν) :
    Except (Fault ε) (Option ν) :=
  match given.lookup column.name with
  | some cell => castCell dialect column.type cell
  | none => .ok (column.default.value dialect now)

/-- The cell of a changed row, the old one where none is given. -/
def assign (dialect : Dialect τ ν ε) (given old : Row ν) (column : Column τ ν) :
    Except (Fault ε) (Option ν) :=
  match given.lookup column.name with
  | some cell => castCell dialect column.type cell
  | none => .ok (old.cell column.name)

/-- A row from a way to find the cell of each column. -/
def buildRow (cellOf : Column τ ν → Except (Fault ε) (Option ν)) :
    List (Column τ ν) → Except (Fault ε) (Row ν)
  | [] => .ok []
  | column :: columns =>
      match cellOf column with
      | .error fault => .error fault
      | .ok cell =>
          if column.notNull && cell.isNone then .error .notNullViolation
          else
            match buildRow cellOf columns with
            | .error fault => .error fault
            | .ok row => .ok ((column.name, cell) :: row)

/-! ## Tables -/

namespace Table

def hasColumns (table : Table τ ν) (names : List String) : Bool :=
  names.all fun name => table.definition.columns.any fun column => decide (column.name = name)

def hasKey (table : Table τ ν) (key : List String) : Bool := table.definition.keys.contains key

variable [DecidableEq ν]

def holds (table : Table τ ν) (names : List String) (row : Row ν) : Bool :=
  table.rows.any (row.agrees names)

def insertRow (table : Table τ ν) (target : Option (List String)) (row : Row ν) :
    Except (Fault ε) (Table τ ν) :=
  if target.any (table.holds · row) then .ok table
  else if table.definition.keys.any (table.holds · row) then .error .uniqueViolation
  else .ok { table with rows := table.rows ++ [row] }

def insertRows (dialect : Dialect τ ν ε) (now : ℤ) (columns : List String)
    (target : Option (List String)) :
    Table τ ν → List (List (Option ν)) → Except (Fault ε) (Table τ ν)
  | table, [] => .ok table
  | table, values :: rest =>
      match buildRow (fill dialect now (columns.zip values)) table.definition.columns with
      | .error fault => .error fault
      | .ok row =>
          match table.insertRow target row with
          | .error fault => .error fault
          | .ok table => insertRows dialect now columns target table rest

def updateRows (dialect : Dialect τ ν ε) (columns : List (Column τ ν)) (assignments : Row ν)
    (key : String) (value : ν) : List (Row ν) → Except (Fault ε) (List (Row ν))
  | [] => .ok []
  | row :: rest =>
      match if row.cell key = some value then buildRow (assign dialect assignments row) columns
        else .ok row with
      | .error fault => .error fault
      | .ok row =>
          match updateRows dialect columns assignments key value rest with
          | .error fault => .error fault
          | .ok rest => .ok (row :: rest)

def unique (table : Table τ ν) : Bool :=
  table.definition.keys.all fun key =>
    decide (table.rows.Pairwise fun row other => row.agrees key other = false)

end Table

/-! ## Databases -/

namespace Database

def empty : Database τ ν where
  tables := []
  indexes := []

def find (db : Database τ ν) (name : String) : Option (Table τ ν) :=
  db.tables.find? fun table => decide (table.definition.name = name)

/-- Tables and indexes share their names. -/
def hasRelation (db : Database τ ν) (name : String) : Bool :=
  db.tables.any (fun table => decide (table.definition.name = name)) ||
    db.indexes.any fun index => decide (index.name = name)

def putTable (table : Table τ ν) : List (Table τ ν) → List (Table τ ν)
  | [] => []
  | other :: rest =>
      if other.definition.name = table.definition.name then table :: rest
      else other :: putTable table rest

def put (db : Database τ ν) (table : Table τ ν) : Database τ ν :=
  { db with tables := putTable table db.tables }

/-- The table a reference points into, which must have that column as a key. -/
def target (db : Database τ ν) (reference : String × String) : Option (Table τ ν) :=
  (db.find reference.1).filter (·.hasKey [reference.2])

def providesKeys (db : Database τ ν) (columns : List (Column τ ν)) : Bool :=
  columns.all fun column => column.references.all fun reference => (db.target reference).isSome

/-- Every value that is a reference is found where it points to. -/
def satisfiesReferences [DecidableEq ν] (db : Database τ ν) (columns : List (Column τ ν))
    (row : Row ν) : Bool :=
  columns.all fun column => column.references.all fun reference =>
    (row.cell column.name).all fun value => (db.target reference).any fun table =>
      table.rows.any fun other => decide (other.cell reference.2 = some value)

def createTable (db : Database τ ν) (ifNotExists : Bool) (definition : Definition τ ν) :
    Except (Fault ε) (Database τ ν) :=
  if db.hasRelation definition.name then
    if ifNotExists then .ok db else .error .duplicateRelation
  else if db.providesKeys definition.columns then
    .ok { db with tables := db.tables ++ [⟨definition, []⟩] }
  else .error .invalidReference

def createIndex (db : Database τ ν) (ifNotExists : Bool) (index : Index) :
    Except (Fault ε) (Database τ ν) :=
  match db.find index.table with
  | none => .error .undefinedTable
  | some table =>
      if !table.hasColumns index.columns then .error .undefinedColumn
      else if db.hasRelation index.name then
        if ifNotExists then .ok db else .error .duplicateRelation
      else .ok { db with indexes := db.indexes ++ [index] }

variable [DecidableEq ν]

/-- References are checked at the end, when all rows are in. -/
def insert (dialect : Dialect τ ν ε) (now : ℤ) (db : Database τ ν) (name : String)
    (columns : List String) (rows : List (List (Option ν))) (target : Option (List String)) :
    Except (Fault ε) (Database τ ν) :=
  match db.find name with
  | none => .error .undefinedTable
  | some table =>
      if !table.hasColumns columns then .error .undefinedColumn
      else if !rows.all (fun row => decide (row.length = columns.length)) then .error .columnCount
      else if !target.all table.hasKey then .error .invalidConflictTarget
      else
        match table.insertRows dialect now columns target rows with
        | .error fault => .error fault
        | .ok filled =>
            if (filled.rows.drop table.rows.length).all
                ((db.put filled).satisfiesReferences table.definition.columns) then
              .ok (db.put filled)
            else .error .foreignKeyViolation

/-- Keys are compared once all rows have changed, which for one row is when the
row changes. -/
def update (dialect : Dialect τ ν ε) (db : Database τ ν) (name : String) (assignments : Row ν)
    (key : String) (value : ν) : Except (Fault ε) (Database τ ν) :=
  match db.find name with
  | none => .error .undefinedTable
  | some table =>
      if !table.hasColumns (key :: assignments.map Prod.fst) then .error .undefinedColumn
      else
        match Table.updateRows dialect table.definition.columns assignments key value
            table.rows with
        | .error fault => .error fault
        | .ok rows =>
            if !({ table with rows := rows } : Table τ ν).unique then .error .uniqueViolation
            else if (table.rows.zip rows).all fun change =>
                decide (change.1.cell key ≠ some value) ||
                  (db.put { table with rows := rows }).satisfiesReferences
                    table.definition.columns change.2 then
              .ok (db.put { table with rows := rows })
            else .error .foreignKeyViolation

end Database

/-! ## Scripts -/

variable [DecidableEq ν] (dialect : Dialect τ ν ε) (now : ℤ)

def exec (db : Database τ ν) : Statement τ ν → Except (Fault ε) (Database τ ν)
  | .createTable ifNotExists definition => db.createTable ifNotExists definition
  | .createIndex ifNotExists index => db.createIndex ifNotExists index
  | .insert table columns rows target => db.insert dialect now table columns rows target
  | .update table assignments key value => db.update dialect table assignments key value

/-- The statements of a script make one transaction, and have its time. -/
def run (db : Database τ ν) : List (Statement τ ν) → Except (Fault ε) (Database τ ν)
  | [] => .ok db
  | statement :: script =>
      match exec dialect now db statement with
      | .error fault => .error fault
      | .ok db => run db script

end Nexus.Lib.Sql
