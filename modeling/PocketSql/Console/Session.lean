import PocketSql.Console.Command
import PocketSql.Console.Folder
import PocketSql.Console.History
import PocketSql.Console.Render
import PocketSql.Query.Engine

/-!
# Sessions of the console

A session answers one input after the other: it performs commands, hands everything else to its
engine as a script, and keeps a history of what was entered.
-/

namespace PocketSql

open Store (FieldPolicy)

/-- How a console is set up. -/
structure Settings where
  prompt : String
  /-- The prompt while a statement spans several lines. -/
  continuation : String
  historyCapacity : Nat
  /-- The file in which the history is kept. -/
  historyFile : Option String
  mode : OutputMode
  policy : FieldPolicy
  deriving DecidableEq, Repr

namespace Settings

def initial : Settings := ⟨"minidb> ", "   ...> ", History.defaultCapacity, none, .table, .warn⟩

/-- Settings with another capacity of the history, which holds at least one entry. -/
def withCapacity (s : Settings) (capacity : Nat) : Settings :=
  { s with historyCapacity := max capacity 1 }

end Settings

/-- What an input brings forth. -/
inductive Output where
  | text (text : String) (success : Bool)
  | nothing
  | quit
  deriving DecidableEq, Repr

namespace Output

def ofText (text : String) : Output := .text text true

/-- A text that tells what went wrong. -/
def ofError (message : String) : Output := .text ("ERROR: " ++ message) false

/-- Only a text can tell of a failure. -/
def success : Output → Bool
  | .text _ success => success
  | _ => true

end Output

/-- A console at work. -/
structure Session where
  settings : Settings
  engine : Engine
  history : History
  deriving DecidableEq, Repr

/-- The answer to `.help`. -/
def helpText : String := "\n".intercalate
  ["Commands:",
   "  .help              Show this help message",
   "  .quit, .exit       Exit minidb",
   "  .tables            List all tables",
   "  .schema [table]    Show table schema",
   "  .history [n]       Show the last n queries (all by default)",
   "  .search <text>     Find queries in the history",
   "  .clear-history     Forget the query history",
   "  .mode table|json   Set the output format",
   "  .read <file>       Run the statements in a file",
   "",
   "SQL Commands:",
   "  CREATE TABLE [IF NOT EXISTS] ...   Create a new table",
   "  DROP TABLE [IF EXISTS] ...         Drop a table",
   "  INSERT INTO ...                    Insert rows",
   "  SELECT ... [JOIN ...] [WHERE ...]  Query data",
   "  UPDATE ... SET ...                 Update rows",
   "  DELETE FROM ...                    Delete rows",
   "  SHOW TABLES, DESCRIBE <table>      Inspect the schema",
   "",
   "Examples:",
   "  CREATE TABLE users (id INTEGER PRIMARY KEY, name VARCHAR(100) NOT NULL);",
   "  INSERT INTO users VALUES (1, 'Alice'), (2, 'Bob');",
   "  SELECT * FROM users WHERE id = 1;"]

/-- An entry of the history as it is listed. -/
def HistoryEntry.line (e : HistoryEntry) : String :=
  let number := toString e.id
  String.ofList (List.replicate (4 - number.length) ' ') ++ number ++ "  " ++ e.query
    ++ (if e.success then "" else "  [failed]")

/-- A list of entries. -/
def HistoryEntry.listing (entries : List HistoryEntry) : String :=
  if entries.isEmpty then "No history." else "\n".intercalate (entries.map line)

/-- Add the history stored in a file, and count its queries. A missing file is an empty history. -/
def History.loadFile (files : String → Except FileError String) (h : History) (path : String) :
    Except FileError (Nat × History) :=
  match files path with
  | .ok stored => .ok ((storedQueries stored).length, h.load stored)
  | .error .notFound => .ok (0, h)
  | .error e => .error e

namespace Session

/-- A session without tables and without history. -/
def ofSettings (settings : Settings) : Session :=
  ⟨settings, .ofPolicy settings.policy, .ofCapacity settings.historyCapacity⟩

def mode (s : Session) : OutputMode := s.settings.mode

/-- The prompt for a new statement, or for one that goes on. -/
def prompt (s : Session) (continuation : Bool) : String :=
  if continuation then s.settings.continuation else s.settings.prompt

/-- Hand a script to the engine. -/
def answer (s : Session) (script : String) : List QueryResult × Session :=
  let (results, engine) := s.engine.runScript script
  (results, { s with engine })

/-- What is shown of results: each of them, or nothing where there are none. -/
def shown (s : Session) (results : List QueryResult) : Output :=
  if results.isEmpty then .nothing
  else .text ("\n".intercalate (results.map (·.render s.mode))) (results.all (·.success))

/-- Record what was entered, as a success if all of its results are. -/
def record (s : Session) (entered : String) (results : List QueryResult) : Session :=
  { s with history := s.history.push entered (results.all (·.success)) }

/-- The list of the tables. -/
def tablesText (s : Session) : String :=
  match s.engine.database.names with
  | [] => "No tables found."
  | names => "Tables:" ++ String.join (names.map ("\n  " ++ ·))

/-- What DESCRIBE answers for a table. -/
def describe (s : Session) (table : String) : QueryResult := (s.engine.execute (.describe table)).1

/-- The descriptions of all tables. -/
def schemaText (s : Session) : String :=
  match s.engine.database.names with
  | [] => "No tables found."
  | names => "\n\n".intercalate (names.map fun n => n ++ ":\n" ++ (s.describe n).render s.mode)

/-- Perform a command. `files` tells the text of each file. -/
def perform (files : String → Except FileError String) (s : Session) : Command → Output × Session
  | .help => (.ofText helpText, s)
  | .quit => (.quit, s)
  | .tables => (.ofText s.tablesText, s)
  | .schema none => (.ofText s.schemaText, s)
  | .schema (some table) =>
    let result := s.describe table
    (.text (result.render s.mode) result.success, s)
  | .history none => (.ofText (HistoryEntry.listing s.history.entries), s)
  | .history (some typed) =>
    match count? typed with
    | some n => (.ofText (HistoryEntry.listing (s.history.recent n)), s)
    | none => (.ofError s!"invalid history count '{typed}'", s)
  | .search none => (.ofError "usage: .search <text>", s)
  | .search (some text) => (.ofText (HistoryEntry.listing (s.history.search text)), s)
  | .clearHistory => (.ofText "History cleared", { s with history := s.history.clear })
  | .mode none => (.ofText s!"Output mode: {s.mode.name}", s)
  | .mode (some name) =>
    match OutputMode.ofName? name with
    | some mode =>
      (.ofText s!"Output mode set to {mode.name}", { s with settings := { s.settings with mode } })
    | none => (.ofError s!"unknown mode '{name}', expected table or json", s)
  | .read none => (.ofError "usage: .read <file>", s)
  | .read (some path) =>
    match files path with
    | .ok script =>
      let (results, s) := s.answer script
      (s.shown results, s.record (".read " ++ path) results)
    | .error e => (.ofError s!"cannot read '{path}': {e.message}", s)
  | .unknown word =>
    (.ofError s!"unknown command '{word}', type '.help' for available commands", s)

/-- Answer an input. A script without statements is not recorded. -/
def execute (files : String → Except FileError String) (s : Session) (input : String) :
    Output × Session :=
  match Request.ofInput input with
  | .nothing => (.nothing, s)
  | .command c => s.perform files c
  | .script text =>
    let (results, s) := s.answer text
    (s.shown results, if results.isEmpty then s else s.record text results)

/-- Add the stored history, if one is kept, and count its queries. -/
def loadHistory (files : String → Except FileError String) (s : Session) :
    Except FileError (Nat × Session) :=
  match s.settings.historyFile with
  | none => .ok (0, s)
  | some path => do
    let (count, history) ← s.history.loadFile files path
    return (count, { s with history })

/-- Store the history, if it is kept. -/
def saveHistory (f : Folder) (s : Session) : Except FileError Folder :=
  match s.settings.historyFile with
  | none => .ok f
  | some path => f.write path s.history.stored

end Session
end PocketSql
