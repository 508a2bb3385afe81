import PocketSql.Store.Index
import PocketSql.Store.Row
import PocketSql.Store.Schema

/-!
# Tables

A table keeps its rows in order and an index for each column that is a primary key or unique. A
row's place in that order is its position, so that deleting rows builds the indexes anew.
-/

namespace PocketSql
namespace Store

/-- What becomes of an assignment whose value the column does not take. -/
inductive FieldPolicy where
  /-- Leave the cell as it is. -/
  | skip
  /-- Leave the cell as it is and report it. -/
  | warn
  /-- Refuse the whole update. -/
  | reject
  deriving DecidableEq, Repr

/-- An assignment that an update left out. -/
structure IgnoredField where
  column : String
  reason : Error
  deriving DecidableEq, Repr

/-- How many rows an update matched, and the assignments it left out. -/
structure UpdateOutcome where
  matched : Nat
  ignored : List IgnoredField
  deriving DecidableEq, Repr

/-- Rows of one schema. -/
structure Table where
  schema : Schema
  rows : List Row
  indexes : List (String × Index)
  deriving DecidableEq, Repr

namespace Table

/-- A table without rows. -/
def ofSchema (schema : Schema) : Table :=
  ⟨schema, [], (schema.columns.filter (·.indexed)).map fun c => (c.name, Index.empty)⟩

def name (t : Table) : String := t.schema.name

/-- The index of a column. -/
def index? (t : Table) (column : String) : Option Index := t.indexes.lookup column

def isIndexed (t : Table) (column : String) : Bool := (t.index? column).isSome

/-- The positions of the rows that fulfil a predicate. -/
def positions (t : Table) (p : Row → Bool) : List Nat :=
  (t.rows.zipIdx.filter fun (row, _) => p row).map (·.2)

/-- Build every index anew from the rows. -/
def reindexed (t : Table) : Table :=
  { t with indexes := t.indexes.map fun (column, _) =>
      (column, Index.ofValues 0 Index.empty (t.rows.map (·.get column))) }

/-- The cell of a column in a row to be inserted: the given value, else the default, else NULL. -/
def cell (given : Row) (c : Column) : Except Error (String × Value) :=
  let v := ((given.get? c.name).or c.default).getD .null
  match c.validate v with
  | .ok () => .ok (c.name, v)
  | .error e => .error e

/-- The row that is stored for given cells. Cells of no column are left out. -/
def complete (given : Row) : List Column → Except Error Row
  | [] => .ok []
  | c :: rest => do return (← cell given c) :: (← complete given rest)

/-- Append a row, if its columns take its values and its keys are new. Where several keys are taken,
it is a choice made here that the error names the one whose column comes first: a table that keeps
its indexes in a hash map leaves open which one it names. -/
def insert (t : Table) (given : Row) : Except Error Table := do
  let row ← complete given t.schema.columns
  match t.indexes.find? fun (column, ix) => ix.contains (row.get column) with
  | some (column, _) => .error (.duplicateKey column (row.get column))
  | none =>
    .ok { t with
      rows := t.rows ++ [row]
      indexes := t.indexes.map fun (column, ix) =>
        (column, ix.add (row.get column) t.rows.length) }

/-- Insert a row and answer its position. A row that is refused leaves the table as it is. -/
def append (t : Table) (given : Row) : Except Error Nat × Table :=
  match t.insert given with
  | .ok after => (.ok t.rows.length, after)
  | .error e => (.error e, t)

/-- Split assignments into those to carry out and those to leave out. Columns that the schema does
not have are dropped. -/
def accepted (schema : Schema) (policy : FieldPolicy) :
    List (String × Value) → Except Error (List (String × Value) × List IgnoredField)
  | [] => .ok ([], [])
  | (name, v) :: rest =>
    match schema.column? name with
    | none => accepted schema policy rest
    | some column =>
      match column.validate v with
      | .ok () => do
        let (effective, ignored) ← accepted schema policy rest
        return ((name, v) :: effective, ignored)
      | .error e =>
        if policy = .reject then .error e
        else do
          let (effective, ignored) ← accepted schema policy rest
          return (effective, ⟨name, e⟩ :: ignored)

/-- Whether writing a value into the rows at some positions would repeat a key. -/
def clashes (t : Table) (matched : List Nat) (assignment : String × Value) : Bool :=
  match t.index? assignment.1 with
  | none => false
  | some ix =>
    !assignment.2.isNull
      && (1 < matched.length || (ix.find assignment.2).any fun p => some p ≠ matched.head?)

/-- Write one cell and keep its index in step. A cell that holds the same value stays as it is. -/
def write (position : Nat) (t : Table) (assignment : String × Value) : Table :=
  match t.rows[position]? with
  | none => t
  | some row =>
    let (column, v) := assignment
    let old := row.get column
    if old.same v then t
    else
      { t with
        rows := t.rows.set position (row.set column v)
        indexes := t.indexes.map fun (c, ix) =>
          if c = column then (c, (ix.remove old position).add v position) else (c, ix) }

/-- Write several cells into the row at a position. -/
def writeAll (assignments : List (String × Value)) (t : Table) (position : Nat) : Table :=
  assignments.foldl (write position) t

/-- Assign values in every row that fulfils a predicate. Values are looked at only if some row
does. -/
def update (t : Table) (assignments : List (String × Value)) (p : Row → Bool)
    (policy : FieldPolicy) : Except Error (UpdateOutcome × Table) := do
  let matched := t.positions p
  if matched.isEmpty then return (⟨0, []⟩, t)
  let (effective, ignored) ← accepted t.schema policy assignments
  match effective.find? (t.clashes matched) with
  | some (column, v) => .error (.duplicateKey column v)
  | none => return (⟨matched.length, ignored⟩, matched.foldl (writeAll effective) t)

/-- Take the row at a position out of the indexes and remove it. -/
def removeAt (t : Table) (position : Nat) : Table :=
  match t.rows[position]? with
  | none => t
  | some row =>
    { t with
      rows := t.rows.eraseIdx position
      indexes := t.indexes.map fun (column, ix) =>
        (column, ix.remove (row.get column) position) }

/-- Delete the rows that fulfil a predicate, and count them. The last row goes first, so that the
positions of those still to be removed stay what they are. -/
def delete (t : Table) (p : Row → Bool) : Nat × Table :=
  let matched := t.positions p
  if matched.isEmpty then (0, t)
  else (matched.length, reindexed (matched.reverse.foldl removeAt t))

/-- Keep the first rows only. -/
def truncate (t : Table) (length : Nat) : Table :=
  if t.rows.length ≤ length then t else reindexed { t with rows := t.rows.take length }

/-- The rows in which an indexed column holds a value, by the index. -/
def findByIndex (t : Table) (column : String) (v : Value) : List Row :=
  match t.index? column with
  | some ix => (ix.find v).filterMap (t.rows[·]?)
  | none => []

/-- Every row, projected. -/
def select (t : Table) (columns : List String) : List Row := t.rows.map (Row.project columns)

end Table
end Store
end PocketSql
