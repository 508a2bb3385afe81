import PocketSql.Value

/-!
# Failures of the store

Why the store refuses an operation, and how each refusal is worded. Every error of the program
belongs to one of four kinds; three of them arise here.
-/

namespace PocketSql

/-- The four kinds of error. -/
inductive ErrorKind where
  | grammar
  | schema
  | constraint
  | type
  deriving DecidableEq, Repr

namespace Store

/-- Why the store refuses an operation. -/
inductive Error where
  | tableNotFound (table : String)
  | tableAlreadyExists (table : String)
  | multiplePrimaryKeys (table : String)
  | duplicateColumn (column table : String)
  | columnNotFound (column table : String)
  | nullNotAllowed (column : String)
  | duplicateKey (column : String) (value : Value)
  | typeMismatch (column : String) (expected found : DataType)
  deriving DecidableEq, Repr

namespace Error

def kind : Error → ErrorKind
  | tableNotFound _ => .schema
  | tableAlreadyExists _ => .schema
  | multiplePrimaryKeys _ => .schema
  | duplicateColumn _ _ => .schema
  | columnNotFound _ _ => .schema
  | nullNotAllowed _ => .constraint
  | duplicateKey _ _ => .constraint
  | typeMismatch _ _ _ => .type

/-- The wording of an error. -/
def message : Error → String
  | tableNotFound table => s!"Schema error: table '{table}' does not exist"
  | tableAlreadyExists table => s!"Schema error: table '{table}' already exists"
  | multiplePrimaryKeys table =>
    s!"Schema error: table '{table}' declares more than one primary key"
  | duplicateColumn column table =>
    s!"Schema error: column '{column}' is declared more than once in table '{table}'"
  | columnNotFound column table =>
    s!"Schema error: column '{column}' does not exist in table '{table}'"
  | nullNotAllowed column => s!"Constraint error: column '{column}' cannot be null"
  | duplicateKey column value =>
    s!"Constraint error: duplicate value {value.display} for column '{column}'"
  | typeMismatch column expected found =>
    s!"Type error: column '{column}' expects {expected.name}, got {found.name}"

/-- Two steps succeed if the first one does and the second one does on its result. -/
theorem bind_eq_ok {α β : Type} {x : Except Error α} {f : α → Except Error β} {b : β} :
    (x >>= f) = .ok b ↔ ∃ a, x = .ok a ∧ f a = .ok b := by
  cases x <;> simp [bind, Except.bind]

end Error
end Store
end PocketSql
