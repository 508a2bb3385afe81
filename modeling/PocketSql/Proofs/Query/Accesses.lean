import PocketSql.Proofs.Query.Atomicity
import PocketSql.Proofs.Sql.Cursor
import PocketSql.Proofs.Store.Accesses

/-!
# No access fails

An engine that answers texts reads characters at positions, columns at places and rows at positions.
Here it answers with accesses that may fail, and has no answer if one of them does. Characters are
read inside the text whatever it is; the others find what they look for as long as tables are
consistent, which they are after every statement, whether it fails or not.

## Main definitions

* `Execution.insertRows?`, `Database.execute?` — statements without an answer where an access fails.
* `Engine.run?`, `Engine.runScript?`, `Engine.after?` — texts without an answer where an access
  fails.

## Main results

* `Engine.execute?_eq` — a statement is answered if tables are consistent.
* `Engine.answered_requests` — no access fails, whatever texts are answered.
-/

namespace PocketSql

open Store (Database FieldPolicy Table)
open Sql (Condition Statement)

namespace Sql

/-- Read the text of a phrase, by a lexer whose accesses may fail. -/
def Parser.runText? {α : Type} (p : Parser α) (text : String) : Option (Except Error α) := do
  match ← Cursor.tokenize? text with
  | .ok ts => return (p.runOn ts).1
  | .error e => return .error e

theorem Parser.runText?_eq {α : Type} (p : Parser α) (text : String) :
    p.runText? text = some (p.runText text) := by
  rw [runText?, Cursor.tokenize?_eq, runText]
  cases tokenize text <;> rfl

end Sql

/-! ## Statements -/

namespace Execution

/-- Insert rows one after the other; after a failure only the first `start` rows stay. -/
def insertRows? (start : Nat) (columns : List String) :
    Table → List (List Value) → Option (Except Store.Error Unit × Table)
  | t, [] => some (.ok (), t)
  | t, values :: rest => do
    match ← t.insert? (Row.ofCells (columns.zip values)) with
    | .ok t => insertRows? start columns t rest
    | .error e => return (.error e, t.truncate start)

def insert? (db : Database) (table : String) (columns : Option (List String))
    (rows : List (List Value)) : Option Answer :=
  match db.table table with
  | .error e => some (.error e, db)
  | .ok t => do
    match ← insertRows? t.rows.length (columns.getD t.schema.columnNames) t rows with
    | (.error e, t) => return (.error e, db.replace t)
    | (.ok (), t) =>
      let message := if rows.length = 1 then "1 row inserted" else s!"{rows.length} rows inserted"
      return (.ok (.ofAffected rows.length message), db.replace t)

def update? (policy : FieldPolicy) (db : Database) (table : String)
    (assignments : List (String × Value)) (conditions : List Condition) : Option Answer :=
  match db.table table with
  | .error e => some (.error e, db)
  | .ok t => do
    match ← t.update? assignments (Sql.holdAll conditions table) policy with
    | .error e => return (.error e, db)
    | .ok (outcome, t) =>
      let warnings := if policy = .warn then outcome.ignored.map warning else []
      let message := s!"{outcome.matched} row(s) updated" ++ String.join warnings
      return (.ok (.ofAffected outcome.matched message), db.replace t)

def delete? (db : Database) (table : String) (conditions : List Condition) : Option Answer :=
  match db.table table with
  | .error e => some (.error e, db)
  | .ok t => do
    let (count, t) ← t.delete? (Sql.holdAll conditions table)
    return (.ok (.ofAffected count s!"{count} row(s) deleted"), db.replace t)

/-- Rows are inserted one after the other, and the table is consistent each time. -/
theorem insertRows?_eq (start : Nat) (columns : List String) {t : Table} (h : t.Consistent)
    (rows : List (List Value)) :
    insertRows? start columns t rows = some (insertRows start columns t rows) := by
  induction rows generalizing t with
  | nil => rfl
  | cons values rows ih =>
    rw [insertRows?, insertRows, h.insert?_eq]
    cases inserted : t.insert (Row.ofCells (columns.zip values)) with
    | error e => rfl
    | ok u => exact ih (h.insert inserted)

variable {db : Database}

theorem insert?_eq (h : db.Consistent) (table : String) (columns : Option (List String))
    (rows : List (List Value)) :
    insert? db table columns rows = some (insert db table columns rows) := by
  rw [insert?, insert]
  cases found : db.table table with
  | error e => rfl
  | ok t =>
    have consistent := h.tables_consistent t (Database.mem_of_table found).1
    simp only [insertRows?_eq _ _ consistent, Option.bind_eq_bind, Option.bind_some]
    cases insertRows t.rows.length (columns.getD t.schema.columnNames) t rows with
    | mk result u => cases result <;> rfl

theorem update?_eq (policy : FieldPolicy) (table : String) (assignments : List (String × Value))
    (conditions : List Condition) :
    update? policy db table assignments conditions =
      some (update policy db table assignments conditions) := by
  rw [update?, update]
  cases db.table table with
  | error e => rfl
  | ok t =>
    simp only [Table.update?_eq, Option.bind_eq_bind, Option.bind_some]
    cases t.update assignments (Sql.holdAll conditions table) policy <;> rfl

theorem delete?_eq (table : String) (conditions : List Condition) :
    delete? db table conditions = some (delete db table conditions) := by
  rw [delete?, delete]
  cases db.table table with
  | error e => rfl
  | ok t =>
    simp only [Table.delete?_eq, Option.bind_eq_bind, Option.bind_some]
    rfl

end Execution

/-- Execute a statement. Those that change rows have no answer where an access fails; the others
look for nothing at a position. -/
def Store.Database.execute? (policy : FieldPolicy) (db : Database) : Statement → Option Answer
  | .insert table columns rows => Execution.insert? db table columns rows
  | .update table assignments conditions =>
    Execution.update? policy db table assignments conditions
  | .delete table conditions => Execution.delete? db table conditions
  | s => some (db.execute policy s)

/-! ## Texts -/

namespace Engine

/-- Answer a statement. -/
def execute? (e : Engine) (s : Statement) : Option (QueryResult × Engine) := do
  match ← e.database.execute? e.policy s with
  | (.ok result, db) => return (result, { e with database := db })
  | (.error error, db) => return (.ofStoreError error, { e with database := db })

/-- Answer statements one after the other. -/
def executeAll? : Engine → List Statement → Option (List QueryResult × Engine)
  | e, [] => some ([], e)
  | e, s :: rest => do
    let (result, e) ← e.execute? s
    let (results, e) ← e.executeAll? rest
    return (result :: results, e)

/-- Answer a text that is one statement. -/
def run? (e : Engine) (text : String) : Option (QueryResult × Engine) := do
  match ← Sql.Parser.single.runText? text with
  | .ok s => e.execute? s
  | .error error => return (.ofGrammarError error, e)

/-- Answer the statements of a script. -/
def runScript? (e : Engine) (text : String) : Option (List QueryResult × Engine) := do
  match ← Sql.Parser.script.runText? text with
  | .ok statements => e.executeAll? statements
  | .error error => return ([.ofGrammarError error], e)

/-- The engine after it has answered. -/
def after? (e : Engine) : Request → Option Engine
  | .query text => (e.run? text).map (·.2)
  | .script text => (e.runScript? text).map (·.2)

variable {e : Engine}

/-- No access of a statement fails. -/
theorem execute?_eq (h : e.database.Consistent) (s : Statement) :
    e.execute? s = some (e.execute s) := by
  have answer : e.database.execute? e.policy s = some (e.database.execute e.policy s) := by
    cases s with
    | insert table columns rows => exact Execution.insert?_eq h table columns rows
    | update table assignments conditions =>
      exact Execution.update?_eq _ table assignments conditions
    | delete table conditions => exact Execution.delete?_eq table conditions
    | _ => rfl
  rw [execute?, execute, answer]
  cases e.database.execute e.policy s with
  | mk result db => cases result <;> rfl

theorem executeAll?_eq (h : e.database.Consistent) (statements : List Statement) :
    e.executeAll? statements = some (e.executeAll statements) := by
  induction statements generalizing e with
  | nil => rfl
  | cons s statements ih =>
    rw [executeAll?, execute?_eq h]
    simp only [Option.bind_eq_bind, Option.bind_some, ih (consistent_execute h s)]
    rfl

theorem run?_eq (h : e.database.Consistent) (text : String) : e.run? text = some (e.run text) := by
  rw [run?, Sql.Parser.runText?_eq, run, Sql.parse]
  cases Sql.Parser.single.runText text with
  | error error => rfl
  | ok s => exact execute?_eq h s

theorem runScript?_eq (h : e.database.Consistent) (text : String) :
    e.runScript? text = some (e.runScript text) := by
  rw [runScript?, Sql.Parser.runText?_eq, runScript, Sql.parseScript]
  cases Sql.Parser.script.runText text with
  | error error => rfl
  | ok statements => exact executeAll?_eq h statements

theorem after?_eq (h : e.database.Consistent) (request : Request) :
    e.after? request = some (e.after request) := by
  cases request with
  | query text => rw [after?, run?_eq h]; rfl
  | script text => rw [after?, runScript?_eq h]; rfl

theorem foldlM_after? (h : e.database.Consistent) (requests : List Request) :
    requests.foldlM after? e = some (requests.foldl after e) := by
  induction requests generalizing e with
  | nil => rfl
  | cons request requests ih =>
    rw [List.foldlM_cons, after?_eq h, List.foldl_cons]
    exact ih (consistent_after h request)

/-- **No access fails.** Whatever texts are answered, in whatever order, with accesses that may fail
there is always an answer, and it is the same: no character is read outside a text, no column
outside the columns, no cell that a new row does not have and no row outside the rows. And no index
lists a position without a row. -/
theorem answered_requests (policy : FieldPolicy) (requests : List Request) :
    let e := requests.foldl after (ofPolicy policy)
    requests.foldlM after? (ofPolicy policy) = some e ∧
      (∀ text, e.run? text = some (e.run text) ∧ e.runScript? text = some (e.runScript text)) ∧
      ∀ t ∈ e.database.tables, ∀ column v,
        t.schema.access? column = some (t.schema.column? column) ∧
          t.findByIndex? column v = some (t.findByIndex column v) := by
  intro e
  have consistent : e.database.Consistent := Reached.consistent ⟨policy, requests, rfl⟩
  refine ⟨foldlM_after? Database.consistent_empty requests, ?_, ?_⟩
  · intro text
    exact ⟨run?_eq consistent text, runScript?_eq consistent text⟩
  · intro t ht column v
    exact ⟨t.schema.access?_eq column,
      (consistent.tables_consistent t ht).findByIndex?_eq column v⟩

end Engine
end PocketSql
