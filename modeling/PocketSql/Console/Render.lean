import PocketSql.Json
import PocketSql.Query.Result

/-!
# Rendering of results

A result is shown as a bordered table or as JSON. A table has a column for every name that occurs in
some row, in the order of first occurrence, and each column is as wide as its longest text.
-/

namespace PocketSql

/-- How results are shown. -/
inductive OutputMode where
  | table
  | json
  deriving DecidableEq, Repr

namespace OutputMode

def name : OutputMode → String
  | table => "table"
  | json => "json"

/-- The mode of a name, in any letter case. -/
def ofName? (name : String) : Option OutputMode :=
  [table, json].find? fun m => m.name.toList = name.toList.map Char.toLower

end OutputMode

namespace Grid

/-- The names that occur in some row. -/
def columns (rows : List Row) : List String := (rows.flatMap Row.names).eraseDups

/-- The text of a cell; a missing cell reads as NULL. -/
def cellText (row : Row) (column : String) : String := (row.get column).display

/-- The width of a column, in characters. -/
def width (rows : List Row) (column : String) : Nat :=
  (rows.map fun row => (cellText row column).length).foldl max column.length

/-- A text between blanks, filled up to a width. -/
def padded (width : Nat) (text : String) : String :=
  " " ++ text ++ String.ofList (List.replicate (width - text.length) ' ') ++ " "

/-- A line of texts, one for each width. -/
def line (widths : List Nat) (texts : List String) : String :=
  "|" ++ "|".intercalate (List.zipWith padded widths texts) ++ "|"

/-- The border above, below and between the parts of a table. -/
def border (widths : List Nat) : String :=
  "+" ++ "+".intercalate (widths.map fun w => String.ofList (List.replicate (w + 2) '-')) ++ "+"

/-- The lines of a table: the header, a line for each row, and the number of rows. -/
def lines (rows : List Row) : List String :=
  let names := columns rows
  let widths := names.map (width rows)
  [border widths, line widths names, border widths]
    ++ rows.map (fun row => line widths (names.map (cellText row)))
    ++ [border widths, s!"{rows.length} row(s)"]

end Grid

/-- A value in JSON. -/
def Value.toJson : Value → Json
  | null => .null
  | boolean b => .boolean b
  | number x => .number x
  | string s => .string s

/-- A row in JSON. -/
def Row.toJson (row : Row) : Json := .object (row.map fun (name, v) => (name, v.toJson))

namespace QueryResult

/-- A result in JSON. Only what the result has is there. -/
def toJson (r : QueryResult) : Json :=
  .object <| [("success", .boolean r.success)]
    ++ (r.rows.map fun rows => ("rows", Json.array (rows.map Row.toJson))).toList
    ++ (r.rowCount.map fun n => ("rowCount", Json.natural n)).toList
    ++ (r.message.map fun m => ("message", Json.string m)).toList
    ++ (r.error.map fun e => ("error", Json.string e)).toList

/-- A result as a table, as its message where there are no rows, or as what went wrong. -/
def toTable (r : QueryResult) : String :=
  if !r.success then "ERROR: " ++ r.error.getD "unknown error"
  else
    match r.rows with
    | some [] => "Empty result set"
    | some rows => "\n".intercalate (Grid.lines rows)
    | none => r.message.getD ""

/-- The text that shows a result. -/
def render (mode : OutputMode) (r : QueryResult) : String :=
  match mode with
  | .table => r.toTable
  | .json => r.toJson.text

end QueryResult
end PocketSql
