import PocketSql.Sql.Token

/-!
# Errors of grammar

Why a text is not a query, and how that is worded. Positions count characters from 0.
-/

namespace PocketSql
namespace Sql

/-- What could have stood in the place of an unexpected token. -/
inductive Expected where
  | token (t : Token)
  | name
  | value
  | comparison
  | columnType
  | statement
  | endOfStatement
  | endOfScript
  deriving DecidableEq, Repr

def Expected.text : Expected → String
  | token t => t.text
  | name => "identifier"
  | value => "value"
  | comparison => "comparison operator"
  | columnType => "column type"
  | statement => "a statement"
  | endOfStatement => "end of statement"
  | endOfScript => "; or end of script"

/-- Why a text is not a query. -/
inductive Error where
  | unexpectedCharacter (c : Char) (position : Nat)
  | unterminatedString (position : Nat)
  | invalidNumber (position : Nat)
  | unexpectedToken (found : Token) (expected : Expected)
  /-- No statement starts with `found`, or with the keyword `leading` and then `found`. -/
  | unsupported (leading : Option Keyword) (found : Token)
  | secondJoin
  /-- A join condition names other tables than the two that are joined. -/
  | foreignCondition (table joined : String)
  deriving DecidableEq, Repr

namespace Error

/-- What is wrong, without the kind of error. -/
def reason : Error → String
  | unexpectedCharacter c position => s!"unexpected character '{c}' at position {position}"
  | unterminatedString position => s!"unterminated string literal starting at position {position}"
  | invalidNumber position => s!"invalid number format at position {position}"
  | unexpectedToken found expected =>
    s!"unexpected token '{found.text}', expected {expected.text}"
  | unsupported none found => s!"unsupported statement '{found.text}'"
  | unsupported (some k) found => s!"unsupported statement '{k.text} {found.text}'"
  | secondJoin => "only one JOIN per SELECT is supported"
  | foreignCondition table joined =>
    s!"join condition must compare a column of '{table}' with a column of '{joined}'"

/-- The wording of an error. -/
def message (e : Error) : String := "Syntax error: " ++ e.reason

end Error
end Sql
end PocketSql
