import PocketSql.Value

/-!
# Rows

A row names its cells and keeps them in the order in which their names first arrived.
-/

namespace PocketSql

/-- Named cells, in order. -/
abbrev Row := List (String × Value)

namespace Row

/-- The cell of a name. -/
def get? : Row → String → Option Value
  | [], _ => none
  | (n, v) :: row, name => if n = name then some v else get? row name

/-- The cell of a name; a missing cell reads as NULL. -/
def get (row : Row) (name : String) : Value := (row.get? name).getD .null

/-- The names of the cells. -/
def names (row : Row) : List String := row.map (·.1)

/-- A present name keeps its place and takes the new value; a new name goes to the end. -/
def set : Row → String → Value → Row
  | [], name, value => [(name, value)]
  | (n, v) :: row, name, value =>
    if n = name then (n, value) :: row else (n, v) :: set row name value

/-- The row of a list of cells: a repeated name has its first place and its last value. -/
def ofCells (cells : List (String × Value)) : Row :=
  cells.foldl (fun row (name, value) => row.set name value) []

/-- The row of the named columns, with the value of each. -/
def tabulate (columns : List String) (value : String → Value) : Row :=
  ofCells (columns.map fun c => (c, value c))

/-- The named columns of a row. The whole row stands for an empty list and for a list with `*`. -/
def project (columns : List String) (row : Row) : Row :=
  if columns.isEmpty || columns.contains "*" then row else tabulate columns row.get

@[simp] theorem get?_nil (name : String) : get? [] name = none := rfl

@[simp] theorem get?_cons (n : String) (v : Value) (row : Row) (name : String) :
    get? ((n, v) :: row) name = if n = name then some v else get? row name := rfl

/-- A cell that is found is there. -/
theorem mem_of_get? {row : Row} {name : String} {v : Value} (h : row.get? name = some v) :
    (name, v) ∈ row := by
  induction row with
  | nil => cases h
  | cons cell row ih =>
    obtain ⟨n, w⟩ := cell
    rw [get?_cons] at h
    split at h
    · next same => simp [same, Option.some.inj h]
    · exact List.mem_cons_of_mem _ (ih h)

/-- The value written is there afterwards, and other cells stay. -/
theorem get?_set (row : Row) (name : String) (value : Value) (other : String) :
    (row.set name value).get? other = if name = other then some value else row.get? other := by
  induction row with
  | nil => rfl
  | cons cell row ih =>
    obtain ⟨n, v⟩ := cell
    simp only [set]
    split
    · next h =>
      subst h
      by_cases h : n = other <;> simp [h]
    · next h =>
      by_cases h' : n = other
      · have : name ≠ other := fun e => h (h'.trans e.symm)
        simp [h', this]
      · simp [h', ih]

end Row
end PocketSql
