import PocketSql.Number.Shortest
import PocketSql.Sql.Keyword

/-!
# Tokens

The words, literals and signs that a query consists of.
-/

namespace PocketSql
namespace Sql

/-- How a column is compared with a value. -/
inductive Comparison where
  | eq | ne | lt | gt | le | ge
  deriving DecidableEq, Repr

/-- The sign of a comparison. -/
def Comparison.text : Comparison → String
  | eq => "="
  | ne => "!="
  | lt => "<"
  | gt => ">"
  | le => "<="
  | ge => ">="

/-- A token of a query. -/
inductive Token where
  | keyword (k : Keyword)
  | number (x : Number)
  | string (s : String)
  | name (s : String)
  | comparison (op : Comparison)
  | star
  | openParen
  | closeParen
  | comma
  | semicolon
  | dot
  | endOfInput
  deriving DecidableEq, Repr

namespace Token

/-- A token as error messages show it. -/
def text : Token → String
  | keyword k => k.text
  | number x => x.text
  | string s => s!"'{s}'"
  | name s => s
  | comparison op => op.text
  | star => "*"
  | openParen => "("
  | closeParen => ")"
  | comma => ","
  | semicolon => ";"
  | dot => "."
  | endOfInput => "end of input"

/-- The name that a token stands for where a name is asked for. -/
def name? : Token → Option String
  | name s => some s
  | keyword k => k.name?
  | _ => none

end Token
end Sql
end PocketSql
