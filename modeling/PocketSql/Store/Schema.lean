import PocketSql.Store.Error

/-!
# Columns and schemas

A column says which values it takes, and a schema is a named list of columns. A schema may be built
from any columns; `Schema.checked` refuses repeated names, a second primary key and defaults that
their own column would not take.
-/

namespace PocketSql
namespace Store

/-- A column of a table. -/
structure Column where
  name : String
  type : DataType
  nullable : Bool
  primaryKey : Bool
  unique : Bool
  default : Option Value
  deriving DecidableEq, Repr

namespace Column

/-- A nullable column without constraints. -/
def plain (name : String) (type : DataType) : Column := ⟨name, type, true, false, false, none⟩

/-- Make a column a primary key, which is not nullable, or no primary key. -/
def withPrimaryKey (c : Column) (primaryKey : Bool) : Column :=
  { c with primaryKey, nullable := c.nullable && !primaryKey }

/-- Primary keys and unique columns are indexed. -/
def indexed (c : Column) : Bool := c.primaryKey || c.unique

/-- Check that a column takes a value. -/
def validate (c : Column) (v : Value) : Except Error Unit :=
  match v.dataType? with
  | none => if c.nullable && !c.primaryKey then .ok () else .error (.nullNotAllowed c.name)
  | some t => if t = c.type then .ok () else .error (.typeMismatch c.name c.type t)

/-- How a column's key is reported. -/
def marker (c : Column) : String :=
  if c.primaryKey then "PRI" else if c.unique then "UNI" else ""

end Column

/-- A named list of columns. The primary key is recorded once the schema has been checked. -/
structure Schema where
  name : String
  columns : List Column
  primaryKey : Option String
  deriving DecidableEq, Repr

/-- The first element that occurred before. -/
def firstRepeated (seen : List String) : List String → Option String
  | [] => none
  | n :: rest => if seen.contains n then some n else firstRepeated (n :: seen) rest

namespace Schema

/-- A schema that has not been checked. -/
def ofColumns (name : String) (columns : List Column) : Schema := ⟨name, columns, none⟩

def columnNames (s : Schema) : List String := s.columns.map (·.name)

/-- The first column of a name. -/
def column? (s : Schema) (name : String) : Option Column := s.columns.find? (·.name = name)

def hasColumn (s : Schema) (name : String) : Bool := (s.column? name).isSome

/-- Check that every default is taken by its column. -/
def checkDefaults : List Column → Except Error Unit
  | [] => .ok ()
  | c :: rest =>
    match c.default with
    | none => checkDefaults rest
    | some v =>
      match c.validate v with
      | .ok () => checkDefaults rest
      | .error e => .error e

/-- The schema with its primary key recorded, or what is wrong with it. -/
def checked (s : Schema) : Except Error Schema :=
  match firstRepeated [] s.columnNames with
  | some column => .error (.duplicateColumn column s.name)
  | none =>
    match s.columns.filter (·.primaryKey) with
    | _ :: _ :: _ => .error (.multiplePrimaryKeys s.name)
    | keys =>
      match checkDefaults s.columns with
      | .error e => .error e
      | .ok () => .ok { s with primaryKey := keys.head?.map (·.name) }

end Schema
end Store
end PocketSql
