import PocketSql.Sql.Token
import PocketSql.Store.TypeName

/-!
# Statements

What a query asks for. Column references are names, `name` or `table.name`; the list of selected
columns is `*` alone where all are asked for.
-/

namespace PocketSql
namespace Sql

/-- A column compared with a value. -/
structure Condition where
  column : String
  op : Comparison
  value : Value
  deriving DecidableEq, Repr

/-- Whether a join keeps left rows without partner. -/
inductive JoinKind where
  | inner
  | left
  deriving DecidableEq, Repr

/-- A joined table, and the columns of both tables whose values are to be equal. -/
structure JoinClause where
  kind : JoinKind
  table : String
  left : String
  right : String
  deriving DecidableEq, Repr

/-- A column as CREATE TABLE declares it. -/
structure ColumnDef where
  name : String
  typeName : String
  primaryKey : Bool
  unique : Bool
  notNull : Bool
  default : Option Value
  deriving DecidableEq, Repr

/-- The type that the declared name stands for. -/
def ColumnDef.type (d : ColumnDef) : DataType := .ofTypeName d.typeName

/-- A statement. Conditions hold together; there are none where WHERE is missing. -/
inductive Statement where
  | createTable (table : String) (ifNotExists : Bool) (columns : List ColumnDef)
  | dropTable (table : String) (ifExists : Bool)
  | insert (table : String) (columns : Option (List String)) (rows : List (List Value))
  | select (columns : List String) (table : String) (join : Option JoinClause)
      (conditions : List Condition)
  | update (table : String) (assignments : List (String × Value)) (conditions : List Condition)
  | delete (table : String) (conditions : List Condition)
  | showTables
  | describe (table : String)
  deriving DecidableEq, Repr

end Sql
end PocketSql
