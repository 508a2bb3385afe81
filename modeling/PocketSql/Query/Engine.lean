import PocketSql.Query.Execution
import PocketSql.Sql.Statement.Parser

/-!
# Engine

An engine holds a database and answers texts. Whatever goes wrong becomes a failed result.
-/

namespace PocketSql

/-- A database and what its updates do with values that a column does not take. -/
structure Engine where
  policy : Store.FieldPolicy
  database : Store.Database
  deriving DecidableEq, Repr

namespace Engine

/-- An engine without tables. -/
def ofPolicy (policy : Store.FieldPolicy) : Engine := ⟨policy, .empty⟩

/-- Answer a statement. -/
def execute (e : Engine) (s : Sql.Statement) : QueryResult × Engine :=
  match e.database.execute e.policy s with
  | (.ok result, db) => (result, { e with database := db })
  | (.error error, db) => (.ofStoreError error, { e with database := db })

/-- Answer statements one after the other, also after a failure. -/
def executeAll : Engine → List Sql.Statement → List QueryResult × Engine
  | e, [] => ([], e)
  | e, s :: rest =>
    let (result, e) := e.execute s
    let (results, e) := e.executeAll rest
    (result :: results, e)

/-- Answer a text that is one statement. -/
def run (e : Engine) (text : String) : QueryResult × Engine :=
  match Sql.parse text with
  | .ok s => e.execute s
  | .error error => (.ofGrammarError error, e)

/-- Answer the statements of a script. A text that is no script has one failed result. -/
def runScript (e : Engine) (text : String) : List QueryResult × Engine :=
  match Sql.parseScript text with
  | .ok statements => e.executeAll statements
  | .error error => ([.ofGrammarError error], e)

end Engine
end PocketSql
