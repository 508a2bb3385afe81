import PocketSql.Proofs.Query.Effects

/-!
# Rows that are inserted together

An INSERT of several rows does what the INSERTs of the single rows do one after the other, if all of
them succeed. If one of them fails, it takes back the rows before that one and answers as that one
does.

## Main definitions

* `insertsOf` — the INSERTs of single rows.

## Main results

* `Engine.executeAll_of_insertRows_ok`, `Engine.find?_of_insertRows_error` — what the INSERTs of the
  single rows do, where inserting the rows into the table succeeds and where it fails.
* `Engine.execute_insert_rows` — an INSERT of several rows against those of the single rows.
-/

namespace PocketSql

open Store (Database Table)
open Sql (Statement)

/-- The INSERTs of single rows. -/
def insertsOf (table : String) (columns : Option (List String)) (rows : List (List Value)) :
    List Statement :=
  rows.map fun values => .insert table columns [values]

namespace Engine

variable {e : Engine} {table : String} {t u : Table} {columns : Option (List String)}
  {error : Store.Error}

/-! ## One row -/

section
variable {values : List Value}

theorem execute_insert_ok (ht : e.database.table table = .ok t)
    (hi : t.insert (Row.ofCells ((columns.getD t.schema.columnNames).zip values)) = .ok u) :
    e.execute (.insert table columns [values]) =
      (.ofAffected 1 "1 row inserted", { e with database := e.database.replace u }) := by
  simp only [execute, Database.execute, Execution.insert, Execution.insertRows, ht, hi,
    List.length_singleton, if_true]

theorem execute_insert_error (ht : e.database.table table = .ok t)
    (hi : t.insert (Row.ofCells ((columns.getD t.schema.columnNames).zip values)) =
      .error error) :
    (e.execute (.insert table columns [values])).1 = .ofStoreError error := by
  simp only [execute, Database.execute, Execution.insert, Execution.insertRows, ht, hi]

end

/-- A table is found again when a row has been inserted. -/
theorem table_of_insert {given : Row} (ht : e.database.table table = .ok t)
    (hi : t.insert given = .ok u) :
    u.name = table ∧ (e.database.replace u).table table = .ok u := by
  have named : u.name = table := by
    rw [Table.name, Table.schema_insert hi]
    exact (Database.mem_of_table ht).2
  subst named
  exact ⟨rfl, Database.table_replace ht⟩

/-! ## One row after the other -/

variable {rows : List (List Value)} {start : Nat}

/-- The INSERTs of the single rows begin with that of the first row. -/
theorem executeAll_insertsOf_cons (e : Engine) (values : List Value) (rows : List (List Value)) :
    e.executeAll (insertsOf table columns (values :: rows)) =
      ((e.execute (.insert table columns [values])).1 ::
          ((e.execute (.insert table columns [values])).2.executeAll
            (insertsOf table columns rows)).1,
        ((e.execute (.insert table columns [values])).2.executeAll
          (insertsOf table columns rows)).2) := rfl

/-- Where the rows can be inserted into the table, the INSERTs of the single rows do so. -/
theorem executeAll_of_insertRows_ok (consistent : e.database.Consistent)
    (ht : e.database.table table = .ok t)
    (hi : Execution.insertRows start (columns.getD t.schema.columnNames) t rows = (.ok (), u)) :
    u.name = table ∧
      (∀ result ∈ (e.executeAll (insertsOf table columns rows)).1, result.success = true) ∧
      (e.executeAll (insertsOf table columns rows)).2 =
        { e with database := e.database.replace u } := by
  induction rows generalizing e t with
  | nil =>
    obtain ⟨-, rfl⟩ := Prod.mk.inj hi
    obtain ⟨mem, named⟩ := Database.mem_of_table ht
    refine ⟨named, fun _ none => (nomatch none), ?_⟩
    rw [consistent.replace_self mem]
    rfl
  | cons values rows ih =>
    rw [Execution.insertRows] at hi
    split at hi
    · next t' ht' =>
      have first := execute_insert_ok ht ht'
      have kept := consistent_execute consistent (.insert table columns [values])
      obtain ⟨named, found⟩ := table_of_insert ht ht'
      rw [first] at kept
      rw [← Table.schema_insert ht'] at hi
      obtain ⟨last, successes, final⟩ := ih kept found hi
      rw [executeAll_insertsOf_cons, first]
      refine ⟨last, List.forall_mem_cons.2 ⟨rfl, successes⟩, final.trans ?_⟩
      rw [Database.replace_replace e.database (named.trans last.symm)]
    · cases hi

/-- Where some row cannot be inserted, the INSERT of that row is the first one that fails. -/
theorem find?_of_insertRows_error (ht : e.database.table table = .ok t)
    (hi : Execution.insertRows start (columns.getD t.schema.columnNames) t rows =
      (.error error, u)) :
    (e.executeAll (insertsOf table columns rows)).1.find? (fun result => !result.success) =
      some (.ofStoreError error) := by
  induction rows generalizing e t with
  | nil => cases hi
  | cons values rows ih =>
    rw [Execution.insertRows] at hi
    rw [executeAll_insertsOf_cons]
    split at hi
    · next t' ht' =>
      rw [← Table.schema_insert ht'] at hi
      rw [execute_insert_ok ht ht']
      exact ih (table_of_insert ht ht').2 hi
    · next error' ht' =>
      obtain ⟨same, -⟩ := Prod.mk.inj hi
      obtain rfl := Except.error.inj same
      rw [execute_insert_error ht ht']
      rfl

/-- Without a table of the name, no row can be inserted. -/
theorem execute_insert_missing (ht : e.database.table table = .error error)
    (rows : List (List Value)) :
    e.execute (.insert table columns rows) = (.ofStoreError error, e) := by
  simp only [execute, Database.execute, Execution.insert, ht]

/-! ## All rows at once -/

/-- An INSERT of several rows leaves what those of the single rows leave, or it fails as the first
of them that fails. Without a table and without rows it fails where there is nothing else to fail.
-/
theorem execute_insert_cases (consistent : e.database.Consistent) (columns : Option (List String))
    (asked : rows ≠ [] ∨ e.database.hasTable table = true) :
    let each := e.executeAll (insertsOf table columns rows)
    (∃ message,
        e.execute (.insert table columns rows) = (.ofAffected rows.length message, each.2) ∧
          ∀ result ∈ each.1, result.success = true) ∨
      ∃ error, (e.execute (.insert table columns rows)).1 = .ofStoreError error ∧
        each.1.find? (fun result => !result.success) = some (.ofStoreError error) := by
  intro each
  cases ht : e.database.table table with
  | error error =>
    refine .inr ⟨error, by rw [execute_insert_missing ht], ?_⟩
    have absent : e.database.hasTable table = false := by
      rw [Database.table] at ht
      split at ht
      · cases ht
      · next none => rw [Database.hasTable, none]; rfl
    cases rows with
    | nil => simp [absent] at asked
    | cons values rows =>
      show (e.executeAll (insertsOf table columns (values :: rows))).1.find? _ = _
      rw [executeAll_insertsOf_cons, execute_insert_missing ht]
      rfl
  | ok t =>
    rcases hi : Execution.insertRows t.rows.length (columns.getD t.schema.columnNames) t rows with
      ⟨error | ⟨⟩, u⟩
    · refine .inr ⟨error, ?_, find?_of_insertRows_error ht hi⟩
      simp only [execute, Database.execute, Execution.insert, ht, hi]
    · obtain ⟨-, successes, final⟩ := executeAll_of_insertRows_ok consistent ht hi
      refine .inl
        ⟨if rows.length = 1 then "1 row inserted" else s!"{rows.length} rows inserted", ?_,
          successes⟩
      rw [final]
      simp only [execute, Database.execute, Execution.insert, ht, hi]

/-- **An INSERT of several rows is all or nothing.** It succeeds just if the INSERTs of the single
rows do, one after the other, and then counts the rows and leaves the engine that they leave.
Otherwise nothing is seen to have changed, and it answers as the first of them that fails. There is
to be a row, or else at least the table. -/
theorem execute_insert_rows (reachable : e.Reachable)
    (asked : rows ≠ [] ∨ e.database.hasTable table = true) :
    let whole := e.execute (.insert table columns rows)
    let each := e.executeAll (insertsOf table columns rows)
    (whole.1.success = true ↔ ∀ result ∈ each.1, result.success = true) ∧
      (whole.1.success = true → whole.1.rowCount = some rows.length ∧ whole.2 = each.2) ∧
      (whole.1.success = false → e.database.Alike whole.2.database ∧
        each.1.find? (fun result => !result.success) = some whole.1) := by
  intro whole each
  obtain ⟨message, answer, successes⟩ | ⟨error, failure, first⟩ :=
    execute_insert_cases reachable.consistent columns asked
  · have success : whole.1.success = true := by
      simp only [whole, answer, QueryResult.ofAffected]
    refine ⟨iff_of_true success successes, fun _ => ?_, fun failed => ?_⟩
    · simp only [whole, each, answer, QueryResult.ofAffected, and_self]
    · rw [success] at failed
      cases failed
  · have failed : whole.1.success = false := by
      simp only [whole, failure, QueryResult.ofStoreError]
    have fails : ¬ ∀ result ∈ each.1, result.success = true := by
      intro successes
      have success := successes _ (List.mem_of_find?_eq_some first)
      cases success
    refine ⟨iff_of_false (by simp [failed]) fails, fun success => ?_, fun _ => ⟨?_, ?_⟩⟩
    · rw [failed] at success
      cases success
    · exact alike_execute reachable.consistent failed
    · rw [first, ← failure]

/-- An engine with a table of keys, one of which has a default, and with a row that has neither. -/
def keyed : Engine :=
  ((ofPolicy .warn).executeAll
    [.createTable "t" false
       [⟨"a", "int", false, true, false, none⟩,
        ⟨"b", "text", false, true, false, some (.string "z")⟩],
     .insert "t" none [[.null, .null]]]).2

/-- A column is named twice and one does not exist; the first row is shorter than the list of
columns and takes the default, and so does the last one, which is longer. -/
theorem execute_insert_rows_keyed :
    let columns : Option (List String) := some ["a", "c", "a"]
    let rows : List (List Value) :=
      [[.number ⟨0⟩, .null], [.number ⟨0⟩, .null, .number ⟨1⟩, .string "z"]]
    keyed.Reachable ∧ rows ≠ [] ∧
      keyed.database.Alike (keyed.execute (.insert "t" columns rows)).2.database ∧
      (keyed.executeAll (insertsOf "t" columns rows)).1.map (·.success) = [true, false] ∧
      (keyed.executeAll (insertsOf "t" columns rows)).1.find? (fun result => !result.success) =
        some (.ofStoreError (.duplicateKey "b" (.string "z"))) := by
  intro columns rows
  have reachable : keyed.Reachable := ⟨.warn, _, rfl⟩
  have some_ : rows ≠ [] := by decide
  have failure : keyed.execute (.insert "t" columns rows) =
      (.ofStoreError (.duplicateKey "b" (.string "z")), keyed) := by
    decide
  have failed : (keyed.execute (.insert "t" columns rows)).1.success = false := by
    rw [failure]
    rfl
  obtain ⟨-, -, trace⟩ := execute_insert_rows reachable (.inl some_)
  obtain ⟨alike, first⟩ := trace failed
  rw [failure] at first
  exact ⟨reachable, some_, alike, by decide, first⟩

end Engine
end PocketSql
