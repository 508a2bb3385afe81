import PocketSql.Query.Join
import PocketSql.Query.Result
import PocketSql.Store.Database

/-!
# Execution of statements

A statement answers with a result or an error and leaves a database. An INSERT of several rows that
fails in the middle takes back the rows that it has added.
-/

namespace PocketSql

open Store (Column Database FieldPolicy Schema Table)
open Sql (ColumnDef Condition JoinClause Statement)

/-- An answer and the database afterwards. -/
abbrev Answer := Except Store.Error QueryResult × Database

namespace Execution

/-- The column that a definition declares. -/
def columnOf (d : ColumnDef) : Column :=
  Column.withPrimaryKey ⟨d.name, d.type, !d.notNull, false, d.unique, d.default⟩ d.primaryKey

def createTable (db : Database) (table : String) (ifNotExists : Bool) (columns : List ColumnDef) :
    Answer :=
  if ifNotExists && db.hasTable table then
    (.ok (.ofMessage s!"Table '{table}' already exists, skipped"), db)
  else
    match db.create (.ofColumns table (columns.map columnOf)) with
    | .ok db => (.ok (.ofMessage s!"Table '{table}' created"), db)
    | .error e => (.error e, db)

def dropTable (db : Database) (table : String) (ifExists : Bool) : Answer :=
  if ifExists && !db.hasTable table then
    (.ok (.ofMessage s!"Table '{table}' does not exist, skipped"), db)
  else
    match db.drop table with
    | .ok db => (.ok (.ofMessage s!"Table '{table}' dropped"), db)
    | .error e => (.error e, db)

/-- Insert rows of values one after the other; after a failure only the first `start` rows stay. -/
def insertRows (start : Nat) (columns : List String) :
    Table → List (List Value) → Except Store.Error Unit × Table
  | t, [] => (.ok (), t)
  | t, values :: rest =>
    match t.insert (Row.ofCells (columns.zip values)) with
    | .ok t => insertRows start columns t rest
    | .error e => (.error e, t.truncate start)

def insert (db : Database) (table : String) (columns : Option (List String))
    (rows : List (List Value)) : Answer :=
  match db.table table with
  | .error e => (.error e, db)
  | .ok t =>
    match insertRows t.rows.length (columns.getD t.schema.columnNames) t rows with
    | (.error e, t) => (.error e, db.replace t)
    | (.ok (), t) =>
      let message := if rows.length = 1 then "1 row inserted" else s!"{rows.length} rows inserted"
      (.ok (.ofAffected rows.length message), db.replace t)

/-- The value that a reference finds first, in a row of any of the tables; NULL if none does. -/
def resolve (tables : List String) (row : Row) (reference : String) : Value :=
  (tables.findSome? fun table => row.lookup table reference).getD .null

/-- The selected columns of a row of the tables; `*` stands for all. -/
def project (columns : List String) (tables : List String) (row : Row) : Row :=
  if columns.contains "*" then row else Row.tabulate columns (resolve tables row)

/-- The joined rows of a table, if both join columns exist. -/
def joinTables (db : Database) (t : Table) (table : String) (clause : JoinClause)
    (rows : List Row) : Except Store.Error (List Row) :=
  match db.table clause.table with
  | .error e => .error e
  | .ok right =>
    if !t.schema.hasColumn clause.left then .error (.columnNotFound clause.left table)
    else if !right.schema.hasColumn clause.right then
      .error (.columnNotFound clause.right clause.table)
    else .ok (clause.joined table rows right.rows)

/-- The rows of a SELECT. Conditions are asked of the rows of the first table, before the join. -/
def selectRows (db : Database) (columns : List String) (table : String) (join : Option JoinClause)
    (conditions : List Condition) : Except Store.Error (List Row) :=
  match db.table table with
  | .error e => .error e
  | .ok t =>
    let rows := t.rows.filter (Sql.holdAll conditions table)
    match join with
    | none => .ok (rows.map (project columns [table]))
    | some clause =>
      match joinTables db t table clause rows with
      | .error e => .error e
      | .ok rows => .ok (rows.map (project columns [table, clause.table]))

/-- How an update reports an assignment that it left out. -/
def warning (field : Store.IgnoredField) : String :=
  s!"; WARN: ignored field '{field.column}' ({field.reason.message})"

def update (policy : FieldPolicy) (db : Database) (table : String)
    (assignments : List (String × Value)) (conditions : List Condition) : Answer :=
  match db.table table with
  | .error e => (.error e, db)
  | .ok t =>
    match t.update assignments (Sql.holdAll conditions table) policy with
    | .error e => (.error e, db)
    | .ok (outcome, t) =>
      let warnings := if policy = .warn then outcome.ignored.map warning else []
      let message := s!"{outcome.matched} row(s) updated" ++ String.join warnings
      (.ok (.ofAffected outcome.matched message), db.replace t)

def delete (db : Database) (table : String) (conditions : List Condition) : Answer :=
  match db.table table with
  | .error e => (.error e, db)
  | .ok t =>
    let (count, t) := t.delete (Sql.holdAll conditions table)
    (.ok (.ofAffected count s!"{count} row(s) deleted"), db.replace t)

/-- A row for each table. -/
def tableRows (db : Database) : List Row := db.names.map fun n => [("table_name", .string n)]

/-- A row that tells about a column. -/
def columnRow (c : Column) : Row :=
  [("Field", .string c.name), ("Type", .string c.type.name),
   ("Null", .string (if c.nullable then "YES" else "NO")), ("Key", .string c.marker),
   ("Default", c.default.getD .null)]

def describe (db : Database) (table : String) : Except Store.Error QueryResult :=
  match db.table table with
  | .error e => .error e
  | .ok t => .ok (.ofRows (t.schema.columns.map columnRow))

end Execution

open Execution in
/-- Execute a statement. -/
def Store.Database.execute (policy : FieldPolicy) (db : Database) : Statement → Answer
  | .createTable table ifNotExists columns => createTable db table ifNotExists columns
  | .dropTable table ifExists => dropTable db table ifExists
  | .insert table columns rows => insert db table columns rows
  | .select columns table join conditions =>
    ((selectRows db columns table join conditions).map .ofRows, db)
  | .update table assignments conditions => update policy db table assignments conditions
  | .delete table conditions => delete db table conditions
  | .showTables => (.ok (.ofRows (tableRows db)), db)
  | .describe table => (describe db table, db)

end PocketSql
