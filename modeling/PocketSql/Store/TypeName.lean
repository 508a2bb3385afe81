import PocketSql.Text.Blank
import PocketSql.Value

/-!
# Names of types

A declared type may have any name. A table of rules, tried in order, folds it onto one of the three
types; only its first word counts, up to an opening parenthesis, and its case does not.
-/

namespace PocketSql

/-- Which words a rule applies to. -/
inductive TypePattern where
  | exact (word : String)
  | leading (start : String)
  deriving DecidableEq, Repr

/-- Whether a lower-case word fits the pattern. -/
def TypePattern.fits : TypePattern → List Char → Bool
  | exact w, word => word = w.toList
  | leading w, word => w.toList.isPrefixOf word

/-- A rule for the names of a type. -/
structure TypeRule where
  pattern : TypePattern
  type : DataType
  deriving DecidableEq, Repr

namespace DataType

/-- The rules for names of types; the first that fits decides. -/
def rules : List TypeRule :=
  [⟨.exact "string", .string⟩, ⟨.leading "varchar", .string⟩, ⟨.leading "char", .string⟩,
   ⟨.exact "text", .string⟩, ⟨.leading "timestamp", .string⟩, ⟨.leading "date", .string⟩,
   ⟨.exact "uuid", .string⟩, ⟨.exact "number", .number⟩, ⟨.exact "serial", .number⟩,
   ⟨.exact "bigserial", .number⟩, ⟨.exact "int", .number⟩, ⟨.exact "integer", .number⟩,
   ⟨.exact "smallint", .number⟩, ⟨.leading "bigint", .number⟩, ⟨.leading "numeric", .number⟩,
   ⟨.leading "decimal", .number⟩, ⟨.leading "float", .number⟩, ⟨.leading "double", .number⟩,
   ⟨.exact "real", .number⟩, ⟨.exact "bool", .boolean⟩, ⟨.exact "boolean", .boolean⟩]

/-- The type of a name that fits no rule. -/
def fallback : DataType := .string

/-- The first word of a declared type, in lower case. -/
def firstWord (name : List Char) : List Char :=
  ((Text.trimmed name).map Char.toLower).takeWhile fun c => c ≠ '(' && !Text.isBlank c

/-- The type that a declared name stands for. -/
def ofTypeName (name : String) : DataType :=
  match rules.find? (·.pattern.fits (firstWord name.toList)) with
  | some rule => rule.type
  | none => fallback

end DataType
end PocketSql
