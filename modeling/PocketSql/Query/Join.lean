import PocketSql.Query.Condition

/-!
# Joins

Each left row meets the right rows that agree with it in the join columns, in their order. The names
of a joined row carry their tables.
-/

namespace PocketSql

/-- Add the cells of a row of `table`, under their qualified names. -/
def Row.addQualified (joined : Row) (table : String) (row : Row) : Row :=
  row.foldl (fun out (column, v) => out.set (qualifiedName table column) v) joined

namespace Sql.JoinClause

/-- The right rows that agree with a left row; a missing cell reads as NULL, and NULL agrees with
NULL. -/
def partners (clause : JoinClause) (right : List Row) (row : Row) : List Row :=
  right.filter fun other => (row.get clause.left).same (other.get clause.right)

/-- The joined rows of one left row of `table`. A left join keeps a row without partner. -/
def joinedRow (clause : JoinClause) (table : String) (right : List Row) (row : Row) : List Row :=
  let alone := Row.addQualified [] table row
  match clause.partners right row with
  | [] => if clause.kind = .left then [alone] else []
  | others => others.map (alone.addQualified clause.table)

/-- The joined rows of the rows of `table`. -/
def joined (clause : JoinClause) (table : String) (left right : List Row) : List Row :=
  left.flatMap (clause.joinedRow table right)

end Sql.JoinClause
end PocketSql
