import PocketSql.Number.Decimal
import PocketSql.Text.Blank

/-!
# Commands of the console

A line that starts with a dot is a command: a word and, behind white space, an argument.
-/

namespace PocketSql

/-- A command of the console. A missing argument is `none`. -/
inductive Command where
  | help
  | quit
  | tables
  | schema (table : Option String)
  | history (count : Option String)
  | search (text : Option String)
  | clearHistory
  | mode (name : Option String)
  | read (path : Option String)
  | unknown (word : String)
  deriving DecidableEq, Repr

namespace Command

/-- The command of a word with an argument. -/
def ofWord (argument : Option String) : String → Command
  | ".help" => help
  | ".quit" => quit
  | ".exit" => quit
  | ".tables" => tables
  | ".schema" => schema argument
  | ".history" => history argument
  | ".search" => search argument
  | ".clear-history" => clearHistory
  | ".mode" => mode argument
  | ".read" => read argument
  | word => unknown word

/-- The command that a trimmed line is. A blank argument is none. -/
def ofLine (line : List Char) : Command :=
  let (word, behind) := Text.splitBlank line
  let argument := Text.trimmed (behind.getD [])
  ofWord (if argument.isEmpty then none else some (String.ofList argument)) (String.ofList word)

end Command

/-- What the console is asked for by one input. -/
inductive Request where
  | nothing
  | command (c : Command)
  | script (text : String)
  deriving DecidableEq, Repr

namespace Request

/-- What an input asks for. -/
def ofInput (input : String) : Request :=
  match Text.trimmed input.toList with
  | [] => nothing
  | '.' :: line => command (.ofLine ('.' :: line))
  | text => script (String.ofList text)

/-- The file that a request reads. -/
def file? : Request → Option String
  | command (.read path) => path
  | _ => none

end Request

/-- Whether an input asks for something as it stands: it is blank, a command, or ends with a
semicolon. -/
def isComplete (input : String) : Bool :=
  match Text.trimmed input.toList with
  | [] => true
  | '.' :: _ => true
  | text => text.getLast? = some ';'

/-- A count is below this number. -/
def countLimit : Nat := UInt64.size

/-- A count as it is typed: decimal digits, with an optional plus in front. -/
def count? (typed : String) : Option Nat :=
  let digits := match typed.toList with
    | '+' :: rest => rest
    | all => all
  if digits.isEmpty || !digits.all Char.isDigit then none
  else if Decimal.ofDigits digits < countLimit then some (Decimal.ofDigits digits) else none

end PocketSql
