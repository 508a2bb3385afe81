import Mathlib.Data.List.Induction
import PocketSql.Proofs.Query.Effects
import PocketSql.Proofs.Query.Succession

/-!
# The tables that stand

Which tables there are can be told from the statements and their answers: each table that was created
and has not been dropped since, in the order of creation. Each of them is found under the name of its
schema, the schema is valid, and just its keys are indexed.

## Main definitions

* `standing` — the tables that were created and not dropped since.
* `Store.Database.Sound` — the tables are found by their names, and their schemas are valid.

## Main results

* `Engine.sound_executeAll` — whatever is executed, the database is sound and has the tables that
  stand; and a table is empty when it has been created.
-/

namespace PocketSql

open Store (Column Database FieldPolicy Schema Table)
open Sql (ColumnDef Statement)
open Execution (columnOf)

/-! ## Statements and their answers -/

/-- The tables that statements were answered to have created, but for those that a later one was
answered to have dropped, in the order of their creation. -/
def standing : List (Statement × QueryResult) → List String
  | [] => []
  | answered :: later =>
    match created? answered.1 answered.2 with
    | none => standing later
    | some table =>
      if later.any fun answered => dropped? answered.1 answered.2 = some table then standing later
      else table :: standing later

/-- With one more statement, a table that it drops stands no longer, and one that it creates is the
last. -/
theorem standing_append (history : List (Statement × QueryResult)) (s : Statement)
    (result : QueryResult) :
    standing (history ++ [(s, result)]) =
      ((standing history).filter fun table => dropped? s result ≠ some table) ++
        (created? s result).toList := by
  induction history with
  | nil => cases h : created? s result <;> simp [standing, h]
  | cons answered history ih =>
    rw [List.cons_append, standing, standing]
    cases created? answered.1 answered.2 with
    | none => exact ih
    | some table =>
      simp only [ih, List.any_append, List.any_cons, List.any_nil, Bool.or_false]
      -- the table stands if neither a statement in between drops it nor the last one
      by_cases before : (history.any fun answered => dropped? answered.1 answered.2 = some table)
      · simp [before]
      · by_cases now : dropped? s result = some table <;> simp [before, now]

/-! ## Sound databases -/

/-- No two tables have one name. Tables are found by the names of their schemas and columns by their
own names; schemas are valid, and primary keys and unique columns are indexed. -/
structure Store.Database.Sound (db : Database) : Prop where
  names_nodup : db.names.Nodup
  table?_eq_some_iff : ∀ name t, db.table? name = some t ↔ t ∈ db.tables ∧ t.schema.name = name
  schema_valid : ∀ t ∈ db.tables, t.schema.Valid
  column?_eq_some_iff : ∀ t ∈ db.tables, ∀ name c,
    t.schema.column? name = some c ↔ c ∈ t.schema.columns ∧ c.name = name
  isIndexed_iff : ∀ t ∈ db.tables, ∀ name,
    t.isIndexed name = true ↔
      ∃ c ∈ t.schema.columns, (c.primaryKey = true ∨ c.unique = true) ∧ c.name = name

theorem Store.Database.Consistent.sound {db : Database} (h : db.Consistent)
    (valid : ∀ t ∈ db.tables, t.schema.Valid) : db.Sound where
  names_nodup := h.names_nodup
  table?_eq_some_iff := fun _ _ => h.table?_eq_some_iff
  schema_valid := valid
  column?_eq_some_iff := fun t ht _ _ => (valid t ht).column?_eq_some_iff
  isIndexed_iff := by
    intro t ht name
    simp only [(h.tables_consistent t ht).isIndexed_iff, Column.indexed, Bool.or_eq_true]

theorem valid_of_declared {table : String} {columns : List ColumnDef} {schema : Schema}
    (h : (Schema.ofColumns table (columns.map columnOf)).checked = .ok schema) : schema.Valid := by
  apply Schema.valid_of_checked h
  intro c hc key
  obtain ⟨d, -, rfl⟩ := List.mem_map.1 hc
  exact Column.withPrimaryKey_nullable key

/-- A table that has been created is empty. -/
theorem Effect.empty_of_created {db db' : Database} {s : Statement} {result : QueryResult}
    (h : Effect db s result db') (consistent : db'.Consistent) {table : String}
    (created : created? s result = some table) :
    ∃ t, db'.table? table = some t ∧ t.rows = [] ∧ ∀ column v, t.findByIndex column v = [] := by
  cases h with
  | @created name _ columns schema new checked =>
    obtain rfl : name = table := by simpa [created?] using created
    refine ⟨.ofSchema schema, ?_, rfl, ?_⟩
    · rw [consistent.table?_eq_some_iff]
      exact ⟨by simp, (Schema.checked_ok checked).1⟩
    · intro column v
      rw [Table.findByIndex]
      split
      · exact List.filterMap_eq_nil_iff.2 fun _ _ => rfl
      · rfl
  | dropped => cases created
  | kept nothing _ =>
    rw [nothing.1] at created
    cases created

/-! ## Engines -/

namespace Engine

theorem Reachable.schema_valid {e : Engine} (h : e.Reachable) :
    ∀ t ∈ e.database.tables, t.schema.Valid := by
  obtain ⟨policy, statements, rfl⟩ := h
  have none (t : Table) (ht : t ∈ (ofPolicy policy).database.tables) : t.schema.Valid := nomatch ht
  apply schemas_executeAll Database.consistent_empty none
  intro _ _ _ _ _ checked
  exact valid_of_declared checked

theorem length_executeAll (e : Engine) (statements : List Statement) :
    (e.executeAll statements).1.length = statements.length := by
  induction statements generalizing e with
  | nil => rfl
  | cons s statements ih => exact congrArg (· + 1) (ih _)

/-- The names of the tables are those of the tables that stand. -/
theorem names_executeAll (policy : FieldPolicy) (statements : List Statement) :
    ((ofPolicy policy).executeAll statements).2.database.names =
      standing (statements.zip ((ofPolicy policy).executeAll statements).1) := by
  -- from the end, as a statement may drop what an earlier one created
  induction statements using List.reverseRecOn with
  | nil => rfl
  | append_singleton statements s ih =>
    have consistent := Reachable.consistent ⟨policy, statements, rfl⟩
    have length := length_executeAll (ofPolicy policy) statements
    rw [executeAll_append, List.zip_append length.symm]
    refine ((effect_execute consistent s).names_eq).trans ?_
    rw [ih]
    exact (standing_append _ s _).symm

/-- **Whatever statements are executed**, tables are found under the names of their schemas, schemas
are valid and just the keys are indexed; the tables are those that were created and not dropped
since, in the order of their creation; and a table that is created next is empty. -/
theorem sound_executeAll {policy : FieldPolicy} {statements : List Statement}
    {results : List QueryResult} {e : Engine}
    (h : (ofPolicy policy).executeAll statements = (results, e)) :
    e.database.Sound ∧ e.database.names = standing (statements.zip results) ∧
      ∀ s table, created? s (e.execute s).1 = some table →
        ∃ t, (e.execute s).2.database.table? table = some t ∧ t.rows = [] ∧
          ∀ column v, t.findByIndex column v = [] := by
  have names := names_executeAll policy statements
  rw [h] at names
  have reachable : e.Reachable := ⟨policy, statements, (congrArg Prod.snd h).symm⟩
  have consistent := reachable.consistent
  refine ⟨consistent.sound reachable.schema_valid, names, ?_⟩
  intro s table created
  exact (effect_execute consistent s).empty_of_created (consistent_execute consistent s) created

/-- Two tables, of which the first one is filled, dropped and created again with other columns; in
between, statements that fail or pass over what they ask for. -/
def recreated : List Statement :=
  [.createTable "a" false [⟨"x", "int", true, false, true, none⟩],
   .createTable "b" false [⟨"y", "text", false, true, false, none⟩],
   .createTable "a" true [⟨"z", "text", false, false, false, none⟩],
   .insert "a" none [[.number ⟨0⟩]],
   .createTable "a" false [⟨"z", "text", false, false, false, none⟩],
   .dropTable "c" true,
   .dropTable "a" false,
   .createTable "a" false [⟨"z", "text", false, false, false, some (.number ⟨0⟩)⟩],
   .createTable "a" true
     [⟨"z", "text", false, true, false, some (.string "-")⟩, ⟨"x", "int", true, false, true, none⟩]]

theorem sound_recreated :
    ∃ results e, (ofPolicy .skip).executeAll recreated = (results, e) ∧ e.database.Sound ∧
      standing (recreated.zip results) = ["b", "a"] ∧ e.database.names = ["b", "a"] := by
  obtain ⟨results, e, run⟩ :
      ∃ results e, (ofPolicy .skip).executeAll recreated = (results, e) := ⟨_, _, rfl⟩
  have names : standing (recreated.zip ((ofPolicy .skip).executeAll recreated).1) =
      ["b", "a"] := by
    decide
  rw [run] at names
  obtain ⟨sound, listed, -⟩ := sound_executeAll run
  exact ⟨results, e, run, sound, names, listed.trans names⟩

end Engine
end PocketSql
