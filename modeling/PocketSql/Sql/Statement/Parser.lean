import PocketSql.Sql.Statement
import PocketSql.Sql.Tokens

/-!
# From tokens to statements

A parser takes tokens from the front of a list. It commits to what the next token starts, and after
an error it has taken the tokens before the one that was not expected.
-/

namespace PocketSql
namespace Sql

/-- A reader of tokens, with the tokens still to be read. -/
abbrev Parser (α : Type) := ExceptT Error (StateM (List Token)) α

namespace Parser

/-- The next token; the end of the input follows the last one. -/
def current : Parser Token := return (← get).headD .endOfInput

/-- Take the next token. -/
def advance : Parser Unit := modify List.tail

/-- Refuse the next token. -/
def unexpected {α : Type} (expected : Expected) : Parser α := do
  throw (.unexpectedToken (← current) expected)

/-- Whether the next token is a given one. -/
def at? (t : Token) : Parser Bool := return (← current) = t

/-- Take the next token if it is a given one, and tell whether it was. -/
def accept (t : Token) : Parser Bool := do
  if (← current) = t then
    advance
    return true
  else return false

/-- Take a given token. -/
def expect (t : Token) : Parser Unit := do
  if (← current) = t then advance else unexpected (.token t)

/-- Take the keyword that makes the keyword `leading` a supported statement. -/
def expectAfter (leading : Keyword) (k : Keyword) : Parser Unit := do
  let t ← current
  if t = .keyword k then advance else throw (.unsupported (some leading) t)

/-- At most `n` items with a separator between them. -/
def separatedUpTo {α : Type} (separator : Token) (item : Parser α) : Nat → Parser (List α)
  | 0 => return []
  | n + 1 => do
    let a ← item
    if ← accept separator then return a :: (← separatedUpTo separator item n) else return [a]

/-- Items with a separator between them. Each separator takes a token, so the tokens bound their
number. -/
def separated {α : Type} (separator : Token) (item : Parser α) : Parser (List α) := do
  separatedUpTo separator item ((← get).length + 1)

/-- The name of a table or a column. -/
def name : Parser String := do
  match (← current).name? with
  | some s =>
    advance
    return s
  | none => unexpected .name

/-- A value. An unquoted word is a string. -/
def value : Parser Value := do
  let v ← match ← current with
    | .number x => pure (.number x)
    | .string s => pure (.string s)
    | .name s => pure (.string s)
    | .keyword .trueWord => pure (.boolean true)
    | .keyword .falseWord => pure (.boolean false)
    | .keyword .null => pure .null
    | _ => unexpected .value
  advance
  return v

/-- A column, with or without its table. -/
def columnRef : Parser String := do
  let first ← name
  if ← accept .dot then return first ++ "." ++ (← name) else return first

/-- A column with its table. -/
def qualifiedColumn : Parser (String × String) := do
  let table ← name
  expect .dot
  return (table, ← name)

def comparison : Parser Comparison := do
  match ← current with
  | .comparison op =>
    advance
    return op
  | _ => unexpected .comparison

def condition : Parser Condition := do
  let column ← columnRef
  let op ← comparison
  return ⟨column, op, ← value⟩

/-- The conditions of a WHERE clause, or none. -/
def conditions : Parser (List Condition) := do
  if ← accept (.keyword .whereWord) then separated (.keyword .andWord) condition else return []

/-- The tokens up to a closing parenthesis, as text and without commas. -/
def arguments : List Token → Except Error (List String) × List Token
  | [] => (.error (.unexpectedToken .endOfInput (.token .closeParen)), [])
  | t :: ts =>
    if t = .closeParen then (.ok [], ts)
    else if t = .endOfInput then (.error (.unexpectedToken t (.token .closeParen)), t :: ts)
    else
      match arguments ts with
      | (.ok texts, rest) => (.ok (if t = .comma then texts else t.text :: texts), rest)
      | (.error e, rest) => (.error e, rest)

/-- The words of a type, each with its arguments in parentheses if it has any; at most `n` words. -/
def typeWords : Nat → Parser (List String)
  | 0 => return []
  | n + 1 => do
    match ← current with
    | .name word =>
      advance
      if ← accept .openParen then
        let texts ← (arguments : Parser (List String))
        return (word ++ "(" ++ ",".intercalate texts ++ ")") :: (← typeWords n)
      else return word :: (← typeWords n)
    | _ => return []

/-- The declared name of a type. -/
def typeName : Parser String := do
  let words ← typeWords ((← get).length + 1)
  if words.isEmpty then unexpected .columnType else return " ".intercalate words

/-- The constraints that follow a column's type, at most `n` of them. -/
def constraints : Nat → ColumnDef → Parser ColumnDef
  | 0, d => return d
  | n + 1, d => do
    match ← current with
    | .keyword .primary =>
      advance
      expect (.keyword .key)
      constraints n { d with primaryKey := true, notNull := true }
    | .keyword .unique =>
      advance
      constraints n { d with unique := true }
    | .keyword .notWord =>
      advance
      expect (.keyword .null)
      constraints n { d with notNull := true }
    | .keyword .null =>
      advance
      constraints n d
    | .keyword .default =>
      advance
      constraints n { d with default := some (← value) }
    | _ => return d

def columnDef : Parser ColumnDef := do
  let column ← name
  let type ← typeName
  constraints ((← get).length + 1) ⟨column, type, false, false, false, none⟩

/-- Items in parentheses, with commas between them. -/
def parenthesized {α : Type} (item : Parser α) : Parser (List α) := do
  expect .openParen
  let items ← separated .comma item
  expect .closeParen
  return items

/-- The name of a table, and whether IF and the tokens of `guard` stand in front of it. -/
def guardedName (guard : List Token) : Parser (String × Bool) := do
  if ← accept (.keyword .ifWord) then
    guard.forM expect
    return (← name, true)
  else return (← name, false)

def createTable : Parser Statement := do
  expect (.keyword .create)
  expectAfter .create .table
  let (table, ifNotExists) ← guardedName [.keyword .notWord, .keyword .existsWord]
  return .createTable table ifNotExists (← parenthesized columnDef)

def dropTable : Parser Statement := do
  expect (.keyword .drop)
  expectAfter .drop .table
  let (table, ifExists) ← guardedName [.keyword .existsWord]
  return .dropTable table ifExists

/-- The columns that an insertion names, if it names any. -/
def target : Parser (Option (List String)) := do
  if ← at? .openParen then return some (← parenthesized name) else return none

def insert : Parser Statement := do
  expect (.keyword .insert)
  expectAfter .insert .into
  let table ← name
  let columns ← target
  expect (.keyword .values)
  return .insert table columns (← separated .comma (parenthesized value))

/-- Whether a join follows. -/
def atJoin : Parser Bool := do
  match ← current with
  | .keyword .join | .keyword .inner | .keyword .left => return true
  | _ => return false

/-- What stands before JOIN. -/
def joinKind : Parser JoinKind := do
  match ← current with
  | .keyword .inner =>
    advance
    return .inner
  | .keyword .left =>
    advance
    let _ ← accept (.keyword .outer)
    return .left
  | _ => return .inner

/-- A join to `table`. The condition may name the two tables in either order. -/
def join (table : String) : Parser JoinClause := do
  let kind ← joinKind
  expect (.keyword .join)
  let joined ← name
  expect (.keyword .on)
  let (firstTable, firstColumn) ← qualifiedColumn
  expect (.comparison .eq)
  let (secondTable, secondColumn) ← qualifiedColumn
  if firstTable = table ∧ secondTable = joined then
    return ⟨kind, joined, firstColumn, secondColumn⟩
  else if firstTable = joined ∧ secondTable = table then
    return ⟨kind, joined, secondColumn, firstColumn⟩
  else throw (.foreignCondition table joined)

/-- At most one join. -/
def joins (table : String) : Parser (Option JoinClause) := do
  if ← atJoin then
    let clause ← join table
    if ← atJoin then throw .secondJoin
    return some clause
  else return none

/-- The selected columns. -/
def selection : Parser (List String) := do
  if ← accept .star then return ["*"] else separated .comma columnRef

def select : Parser Statement := do
  expect (.keyword .select)
  let columns ← selection
  expect (.keyword .fromWord)
  let table ← name
  let clause ← joins table
  return .select columns table clause (← conditions)

def assignment : Parser (String × Value) := do
  let column ← name
  expect (.comparison .eq)
  return (column, ← value)

def update : Parser Statement := do
  expect (.keyword .update)
  let table ← name
  expect (.keyword .set)
  let assignments ← separated .comma assignment
  return .update table assignments (← conditions)

def delete : Parser Statement := do
  expect (.keyword .delete)
  expectAfter .delete .fromWord
  let table ← name
  return .delete table (← conditions)

def showTables : Parser Statement := do
  expect (.keyword .showWord)
  expectAfter .showWord .tables
  return .showTables

def describe : Parser Statement := do
  advance
  return .describe (← name)

/-- One statement, without what ends it. -/
def statement : Parser Statement := do
  match ← current with
  | .keyword .create => createTable
  | .keyword .drop => dropTable
  | .keyword .insert => insert
  | .keyword .select => select
  | .keyword .update => update
  | .keyword .delete => delete
  | .keyword .showWord => showTables
  | .keyword .describe => describe
  | .keyword .desc => describe
  | .endOfInput => unexpected .statement
  | t => throw (.unsupported none t)

/-- One statement and nothing else but a semicolon. -/
def single : Parser Statement := do
  let s ← statement
  let _ ← accept .semicolon
  if ← at? .endOfInput then return s else unexpected .endOfStatement

/-- At most `n` statements, each ended by a semicolon or the end of the input. -/
def statementsUpTo : Nat → Parser (List Statement)
  | 0 => return []
  | n + 1 => do
    modify (List.dropWhile (· = .semicolon))
    if ← at? .endOfInput then return []
    let s ← statement
    if (← at? .semicolon) || (← at? .endOfInput) then return s :: (← statementsUpTo n)
    else unexpected .endOfScript

/-- The statements of a script. Each takes a token, so the tokens bound their number. -/
def script : Parser (List Statement) := do statementsUpTo ((← get).length + 1)

/-- The result of a parser and the tokens that it leaves. -/
def runOn {α : Type} (p : Parser α) (ts : List Token) : Except Error α × List Token := p ts

/-- The result of a parser on the tokens of a text. -/
def runText {α : Type} (p : Parser α) (text : String) : Except Error α :=
  match tokenize text with
  | .ok ts => (p.runOn ts).1
  | .error e => .error e

end Parser

/-- The statement that a text is. -/
def parse (text : String) : Except Error Statement := Parser.single.runText text

/-- The statements that a script consists of. -/
def parseScript (text : String) : Except Error (List Statement) := Parser.script.runText text

end Sql
end PocketSql
