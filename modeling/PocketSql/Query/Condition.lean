import PocketSql.Sql.Statement
import PocketSql.Store.Row

/-!
# Conditions on rows

A column reference finds its cell in a plain row, whose names are those of one table, and in a
joined row, whose names carry their tables.
-/

namespace PocketSql

/-- What stands before the first dot of a reference, and what stands behind it. -/
def splitDot (s : List Char) : Option (List Char × List Char) :=
  match s.dropWhile (· ≠ '.') with
  | _ :: rest => some (s.takeWhile (· ≠ '.'), rest)
  | [] => none

/-- The name of a column together with its table. -/
def qualifiedName (table column : String) : String := table ++ "." ++ column

/-- The cell that a reference finds in a row of `table`: the cell of just that name, else the cell
named behind the table, else the cell of the name with the table put in front. -/
def Row.lookup (row : Row) (table reference : String) : Option Value :=
  match row.get? reference with
  | some v => some v
  | none =>
    match splitDot reference.toList with
    | some (qualifier, column) =>
      if qualifier = table.toList then row.get? (String.ofList column) else none
    | none => row.get? (qualifiedName table reference)

namespace Sql

/-- Whether a comparison holds between two values. Any values may be equal or not; only numbers are
less or greater. -/
def Comparison.holds (op : Comparison) (v w : Value) : Bool :=
  match op with
  | .eq => v.same w
  | .ne => !v.same w
  | .lt => (v.compare? w).any (·.isLT)
  | .gt => (v.compare? w).any (·.isGT)
  | .le => (v.compare? w).any (·.isLE)
  | .ge => (v.compare? w).any (·.isGE)

/-- Whether a condition holds of a row of `table`. A missing cell reads as NULL. -/
def Condition.holds (c : Condition) (table : String) (row : Row) : Bool :=
  c.op.holds ((row.lookup table c.column).getD .null) c.value

/-- Whether all conditions hold of a row of `table`. -/
def holdAll (conditions : List Condition) (table : String) (row : Row) : Bool :=
  conditions.all (·.holds table row)

end Sql
end PocketSql
