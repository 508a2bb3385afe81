import PocketSql.Proofs.Query.Effects
import PocketSql.Proofs.Store.Deletion

/-!
# The rows that a WHERE names

SELECT, UPDATE and DELETE ask the same conditions of the rows of a table. So they count the same
rows, and what a DELETE leaves is what the SELECT does not show.

## Main definitions

* `Store.Table.named` — the rows of a table that conditions name.

## Main results

* `Engine.execute_select_all`, `Engine.execute_delete`, `Engine.rowCount_update` — the three
  statements on the named rows.
* `Engine.execute_where` — they agree, and a deleted row can be inserted again.
-/

namespace PocketSql

open Store (Database Table)
open Sql (Condition)

/-- The rows that conditions name. -/
def Store.Table.named (t : Table) (conditions : List Condition) : List Row :=
  t.rows.filter (Sql.holdAll conditions t.name)

namespace Engine

variable {e : Engine} {t : Table} {conditions : List Condition}

/-- A SELECT of all columns shows the named rows as they are. -/
theorem execute_select_all (consistent : e.database.Consistent) (ht : t ∈ e.database.tables)
    (conditions : List Condition) :
    e.execute (.select ["*"] t.name none conditions) = (.ofRows (t.named conditions), e) := by
  have found := consistent.table_eq_ok_iff.2 ⟨ht, rfl⟩
  have whole : Execution.project ["*"] [t.name] = id := by
    funext row
    rfl
  simp only [execute, Database.execute, Execution.selectRows, found, whole, List.map_id,
    Except.map]
  rfl

theorem execute_delete (consistent : e.database.Consistent) (ht : t ∈ e.database.tables)
    (conditions : List Condition) :
    e.execute (.delete t.name conditions) =
      (.ofAffected (t.named conditions).length s!"{(t.named conditions).length} row(s) deleted",
        { e with
          database := e.database.replace (t.delete (Sql.holdAll conditions t.name)).2 }) := by
  have found := consistent.table_eq_ok_iff.2 ⟨ht, rfl⟩
  simp only [execute, Database.execute, Execution.delete, found, Table.delete_count, Table.named]

/-- An UPDATE that succeeds counts the named rows. -/
theorem rowCount_update (consistent : e.database.Consistent) (ht : t ∈ e.database.tables)
    {assignments : List (String × Value)}
    (success : (e.execute (.update t.name assignments conditions)).1.success = true) :
    (e.execute (.update t.name assignments conditions)).1.rowCount =
      some (t.named conditions).length := by
  have found := consistent.table_eq_ok_iff.2 ⟨ht, rfl⟩
  simp only [execute, Database.execute, Execution.update, found] at success ⊢
  cases updated : t.update assignments (Sql.holdAll conditions t.name) e.policy with
  | error error => simp [updated, QueryResult.ofStoreError] at success
  | ok result =>
    obtain ⟨outcome, t'⟩ := result
    exact congrArg some (Table.update_matched updated)

/-- A DELETE that names no row changes nothing. -/
theorem execute_delete_none (consistent : e.database.Consistent) (ht : t ∈ e.database.tables)
    (none : t.named conditions = []) :
    e.execute (.delete t.name conditions) = (.ofAffected 0 "0 row(s) deleted", e) := by
  rw [execute_delete consistent ht, Table.delete_of_none none, none, consistent.replace_self ht]
  rfl

/-- The table is found again when rows have been deleted, and then they are named no more. -/
theorem table_of_delete (consistent : e.database.Consistent) (ht : t ∈ e.database.tables)
    (conditions : List Condition) :
    let left := (t.delete (Sql.holdAll conditions t.name)).2
    left.name = t.name ∧ (e.database.replace left).table t.name = .ok left ∧
      left.named conditions = [] := by
  intro left
  have name : left.name = t.name := by
    rw [Table.name, Table.schema_delete, Table.name]
  refine ⟨name, ?_, ?_⟩
  · rw [← name]
    apply Database.table_replace (t := t)
    rw [name]
    exact consistent.table_eq_ok_iff.2 ⟨ht, rfl⟩
  · rw [Table.named, name]
    exact Table.filter_rows_delete t _

/-- What a deletion leaves is what is not named. -/
theorem rows_delete_named (t : Table) (conditions : List Condition) :
    (t.delete (Sql.holdAll conditions t.name)).2.rows =
      t.rows.filter (· ∉ t.named conditions) := by
  rw [Table.rows_delete]
  apply List.filter_congr
  intro row hrow
  simp [Table.named, hrow]

/-- **SELECT, UPDATE and DELETE agree** on the rows that a WHERE names: they count the same rows. A
DELETE leaves the rows that the SELECT does not show, in their order; a second one finds nothing and
changes nothing; and each of the deleted rows can be inserted again. -/
theorem execute_where (reachable : e.Reachable) (ht : t ∈ e.database.tables)
    (conditions : List Condition) :
    let selected := e.execute (.select ["*"] t.name none conditions)
    let deleted := e.execute (.delete t.name conditions)
    ∃ rows left,
      selected = (.ofRows rows, e) ∧
        (deleted.1.success = true ∧ deleted.1.rowCount = selected.1.rowCount) ∧
        (∀ assignments, let updated := e.execute (.update t.name assignments conditions)
          updated.1.success = true → updated.1.rowCount = selected.1.rowCount) ∧
        deleted.2.database.table? t.name = some left ∧
        left.rows = t.rows.filter (· ∉ rows) ∧
        deleted.2.execute (.delete t.name conditions) =
          (.ofAffected 0 "0 row(s) deleted", deleted.2) ∧
        ∀ row ∈ rows, ∃ again, left.insert row = .ok again ∧ again.rows = left.rows ++ [row] := by
  intro selected deleted
  have consistent := reachable.consistent
  have whole : selected = (.ofRows (t.named conditions), e) :=
    execute_select_all consistent ht conditions
  have answer := execute_delete consistent ht conditions
  obtain ⟨name, found, none⟩ := table_of_delete consistent ht conditions
  refine ⟨t.named conditions, (t.delete (Sql.holdAll conditions t.name)).2, whole, ?_, ?_, ?_,
    rows_delete_named t conditions, ?_, ?_⟩
  · simp only [deleted, answer, whole, QueryResult.ofAffected, QueryResult.ofRows, and_self]
  · intro assignments updated success
    rw [whole]
    exact rowCount_update consistent ht success
  · simp only [deleted, answer]
    exact Database.table_eq_ok_iff.1 found
  · have kept := consistent_execute consistent (.delete t.name conditions)
    have again := execute_delete_none (e := deleted.2) kept
      (t := (t.delete (Sql.holdAll conditions t.name)).2) ?_ none
    · rwa [name] at again
    · simp only [deleted, answer]
      exact (Database.mem_of_table found).1
  · intro row hrow
    obtain ⟨hrow, named⟩ := List.mem_filter.1 hrow
    exact (consistent.tables_consistent t ht).insert_deleted hrow named

/-- The first two persons have one boss, and the third one has none. -/
def bosses : Engine :=
  ((ofPolicy .warn).executeAll
    [.createTable "people" false
       [⟨"id", "int", true, false, true, none⟩, ⟨"boss", "int", false, false, false, none⟩],
     .insert "people" none
       [[.number ⟨0⟩, .number ⟨1⟩], [.number ⟨2⟩, .null], [.number ⟨1⟩, .number ⟨1⟩],
        [.number ⟨3⟩, .number ⟨2⟩]]]).2

/-- The two persons of one boss are shown and deleted. An UPDATE counts both of them, although it
leaves the cells as they are, since a key is not a text. -/
theorem execute_where_bosses :
    let conditions : List Condition := [⟨"boss", .eq, .number ⟨1⟩⟩]
    let shown : List Row :=
      [[("id", .number ⟨0⟩), ("boss", .number ⟨1⟩)], [("id", .number ⟨1⟩), ("boss", .number ⟨1⟩)]]
    let deleted := bosses.execute (.delete "people" conditions)
    let updated := bosses.execute (.update "people" [("id", .string "x")] conditions)
    bosses.Reachable ∧
      bosses.execute (.select ["*"] "people" none conditions) = (.ofRows shown, bosses) ∧
      deleted.1.rowCount = some 2 ∧
      (updated.1.success = true ∧ updated.1.rowCount = some 2) ∧
      ∃ left, deleted.2.database.table? "people" = some left ∧
        ∀ row ∈ shown, ∃ again, left.insert row = .ok again ∧ again.rows = left.rows ++ [row] := by
  intro conditions shown deleted updated
  have reachable : bosses.Reachable := ⟨.warn, _, rfl⟩
  have whole : bosses.execute (.select ["*"] "people" none conditions) =
      (.ofRows shown, bosses) := by
    decide
  have success : updated.1.success = true := by decide
  obtain ⟨t, ht⟩ : ∃ t, bosses.database.table "people" = .ok t := ⟨_, rfl⟩
  obtain ⟨mem, name⟩ := Database.mem_of_table ht
  have agree := execute_where reachable mem conditions
  rw [name, whole] at agree
  obtain ⟨rows, left, selected, ⟨-, count⟩, counts, found, -, -, again⟩ := agree
  obtain rfl : shown = rows := Option.some.inj (congrArg (·.1.rows) selected)
  exact ⟨reachable, whole, count, ⟨success, counts _ success⟩, left, found, again⟩

end Engine
end PocketSql
