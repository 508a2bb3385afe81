import PocketSql.Store.Table

/-!
# Databases

A database is a list of tables in the order of their creation, found by the names of their schemas.
-/

namespace PocketSql
namespace Store

/-- Tables in the order of their creation. -/
structure Database where
  tables : List Table
  deriving DecidableEq, Repr

namespace Database

def empty : Database := ⟨[]⟩

/-- The table of a name. -/
def table? (db : Database) (name : String) : Option Table := db.tables.find? (·.name = name)

/-- The table of a name, or the error that there is none. -/
def table (db : Database) (name : String) : Except Error Table :=
  match db.table? name with
  | some t => .ok t
  | none => .error (.tableNotFound name)

def hasTable (db : Database) (name : String) : Bool := (db.table? name).isSome

/-- The names of the tables, oldest first. -/
def names (db : Database) : List String := db.tables.map (·.name)

/-- Add an empty table. -/
def create (db : Database) (schema : Schema) : Except Error Database :=
  if db.hasTable schema.name then .error (.tableAlreadyExists schema.name)
  else
    match schema.checked with
    | .error e => .error e
    | .ok schema => .ok ⟨db.tables ++ [.ofSchema schema]⟩

/-- Remove a table. -/
def drop (db : Database) (name : String) : Except Error Database :=
  if db.hasTable name then .ok ⟨db.tables.filter (·.name ≠ name)⟩
  else .error (.tableNotFound name)

/-- Put a table in the place of the one with its name. -/
def replace (db : Database) (t : Table) : Database :=
  ⟨db.tables.map fun old => if old.name = t.name then t else old⟩

end Database
end Store
end PocketSql
