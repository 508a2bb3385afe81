import PocketSql.Proofs.Query.Atomicity
import PocketSql.Proofs.Store.Validity

/-!
# What statements do to the tables

A statement creates a table, or drops one, or leaves all tables there with their schemas. Which of
the three it was can be told from the answer. So everything that holds of names and schemas is
settled where tables are created, and is carried from statement to statement.

## Main definitions

* `created?`, `dropped?` — the table that a statement is answered to have created or dropped.
* `Effect` — what a statement does to the tables.
* `Engine.Reachable` — an engine that comes about by executing statements.

## Main results

* `Engine.effect_execute` — every statement has such an effect.
* `Engine.schemas_executeAll` — what holds of the schemas of created tables holds of all tables.
-/

namespace PocketSql

open Store (Column Database FieldPolicy Schema Table)
open Sql (ColumnDef Statement)
open Execution (columnOf)

/-- The table that a statement is answered to have created. -/
def created? : Statement → QueryResult → Option String
  | .createTable table _ _, result =>
    if result = .ofMessage s!"Table '{table}' created" then some table else none
  | _, _ => none

/-- The table that a statement is answered to have dropped. -/
def dropped? : Statement → QueryResult → Option String
  | .dropTable table _, result =>
    if result = .ofMessage s!"Table '{table}' dropped" then some table else none
  | _, _ => none

/-- What a statement does to the tables: it puts an empty one at the end, under a name that there
was not, or takes one away, or leaves all of them there with their schemas. -/
inductive Effect (db : Database) : Statement → QueryResult → Database → Prop where
  | created {table : String} {ifNotExists : Bool} {columns : List ColumnDef} {schema : Schema}
      (new : table ∉ db.names)
      (checked : (Schema.ofColumns table (columns.map columnOf)).checked = .ok schema) :
      Effect db (.createTable table ifNotExists columns)
        (.ofMessage s!"Table '{table}' created") ⟨db.tables ++ [.ofSchema schema]⟩
  | dropped {table : String} {ifExists : Bool} :
      Effect db (.dropTable table ifExists) (.ofMessage s!"Table '{table}' dropped")
        ⟨db.tables.filter (·.name ≠ table)⟩
  | kept {s : Statement} {result : QueryResult} {db' : Database}
      (nothing : created? s result = none ∧ dropped? s result = none)
      (schemas : db'.tables.map (·.schema) = db.tables.map (·.schema)) : Effect db s result db'

namespace Effect

variable {db db' : Database} {s : Statement} {result : QueryResult}

/-- The names afterwards are those that were not dropped, and the one that was created. -/
theorem names_eq (h : Effect db s result db') :
    db'.names =
      (db.names.filter fun table => dropped? s result ≠ some table) ++
        (created? s result).toList := by
  cases h with
  | created new checked =>
    simp [Database.names, created?, dropped?, Table.name, Table.ofSchema,
      (Schema.checked_ok checked).1, Schema.ofColumns]
  | dropped => simp [Database.names, created?, dropped?, List.filter_map, Function.comp_def, eq_comm]
  | kept nothing schemas =>
    have names (db : Database) : db.names = (db.tables.map (·.schema)).map (·.name) := by
      rw [List.map_map]
      rfl
    simp [nothing, names, schemas]

/-- A schema afterwards was there before, or is the one of a table that was created. -/
theorem schema_cases (h : Effect db s result db') {t : Table} (ht : t ∈ db'.tables) :
    (∃ u ∈ db.tables, u.schema = t.schema) ∨
      ∃ table ifNotExists columns, s = .createTable table ifNotExists columns ∧
        (Schema.ofColumns table (columns.map columnOf)).checked = .ok t.schema := by
  cases h with
  | created new checked =>
    obtain old | new := List.mem_append.1 ht
    · exact .inl ⟨t, old, rfl⟩
    · rw [List.mem_singleton.1 new]
      exact .inr ⟨_, _, _, rfl, checked⟩
  | dropped => exact .inl ⟨t, (List.mem_filter.1 ht).1, rfl⟩
  | kept nothing schemas =>
    have mem := List.mem_map_of_mem (f := Table.schema) ht
    rw [schemas] at mem
    exact .inl (List.mem_map.1 mem)

end Effect

/-! ## Answers that tell of nothing -/

theorem ofStoreError_ne (e : Store.Error) (message : String) :
    QueryResult.ofStoreError e ≠ .ofMessage message := by
  intro same
  cases congrArg QueryResult.success same

theorem nothing_of_storeError (s : Statement) (e : Store.Error) :
    created? s (.ofStoreError e) = none ∧ dropped? s (.ofStoreError e) = none := by
  cases s <;> simp [created?, dropped?, ofStoreError_ne]

/-- Messages about a table that differ behind its name. -/
theorem message_ne {table a b : String} (h : a ≠ b) :
    QueryResult.ofMessage ("Table '" ++ table ++ a) ≠ .ofMessage ("Table '" ++ table ++ b) := by
  intro same
  apply h
  simpa [QueryResult.ofMessage, ← String.toList_inj] using congrArg QueryResult.message same

/-! ## The effect of a statement -/

/-- A table that takes the place of another one of its schema. -/
theorem schemas_replace {db : Database} (h : db.Consistent) {t u : Table} (ht : t ∈ db.tables)
    (hu : u.schema = t.schema) :
    (db.replace u).tables.map (·.schema) = db.tables.map (·.schema) := by
  rw [Database.replace, List.map_map]
  apply List.map_congr_left
  intro old hold
  rw [Function.comp_apply]
  split
  · next named =>
    have same : old = t := by
      apply List.inj_on_of_nodup_map h.names_nodup hold ht
      rw [named, Table.name, hu, Table.name]
    rw [hu, same]
  · rfl

namespace Execution

variable {db : Database} {s : Statement}

/-- The result of an answer, in which an error becomes a failure. -/
def resultOf : Answer → QueryResult
  | (.ok result, _) => result
  | (.error e, _) => .ofStoreError e

theorem effect_error {e : Store.Error} {db' : Database}
    (schemas : db'.tables.map (·.schema) = db.tables.map (·.schema)) :
    Effect db s (.ofStoreError e) db' :=
  .kept (nothing_of_storeError s e) schemas

theorem effect_createTable (table : String) (ifNotExists : Bool) (columns : List ColumnDef) :
    let answer := createTable db table ifNotExists columns
    Effect db (.createTable table ifNotExists columns) (resultOf answer) answer.2 := by
  dsimp only
  rw [createTable]
  split
  · refine .kept ⟨if_neg ?_, rfl⟩ rfl
    exact message_ne (by decide)
  · split
    · next db' hc =>
      obtain ⟨schema, checked, new, rfl⟩ := Database.create_ok hc
      exact .created new checked
    · exact effect_error rfl

theorem effect_dropTable (table : String) (ifExists : Bool) :
    let answer := dropTable db table ifExists
    Effect db (.dropTable table ifExists) (resultOf answer) answer.2 := by
  dsimp only
  rw [dropTable]
  split
  · refine .kept ⟨rfl, if_neg ?_⟩ rfl
    exact message_ne (by decide)
  · split
    · next db' hd =>
      obtain rfl := Database.drop_ok hd
      exact .dropped
    · exact effect_error rfl

theorem schemas_insert (h : db.Consistent) (table : String) (columns : Option (List String))
    (rows : List (List Value)) :
    (insert db table columns rows).2.tables.map (·.schema) = db.tables.map (·.schema) := by
  rw [insert]
  split
  · rfl
  · next t ht =>
    have mem := (Database.mem_of_table ht).1
    have keeps {result : Except Store.Error Unit} {u : Table}
        (hu : insertRows t.rows.length (columns.getD t.schema.columnNames) t rows = (result, u)) :
        u.schema = t.schema :=
      (insertRows_keeps (h.tables_consistent t mem) (Nat.le_refl _) hu).2.1
    split <;> next hu => exact schemas_replace h mem (keeps hu)

theorem schemas_update (h : db.Consistent) (policy : FieldPolicy) (table : String)
    (assignments : List (String × Value)) (conditions : List Sql.Condition) :
    (update policy db table assignments conditions).2.tables.map (·.schema) =
      db.tables.map (·.schema) := by
  rw [update]
  split
  · rfl
  · next t ht =>
    split
    · rfl
    · next hu => exact schemas_replace h (Database.mem_of_table ht).1 (Table.schema_update hu)

theorem schemas_delete (h : db.Consistent) (table : String) (conditions : List Sql.Condition) :
    (delete db table conditions).2.tables.map (·.schema) = db.tables.map (·.schema) := by
  rw [delete]
  split
  · rfl
  · next t ht =>
    exact schemas_replace h (Database.mem_of_table ht).1 (Table.schema_delete t _)

/-- Every statement creates a table, drops one or leaves all tables there. -/
theorem effect_execute (h : db.Consistent) (policy : FieldPolicy) (s : Statement) :
    Effect db s (resultOf (db.execute policy s)) (db.execute policy s).2 := by
  cases s with
  | createTable table ifNotExists columns => exact effect_createTable table ifNotExists columns
  | dropTable table ifExists => exact effect_dropTable table ifExists
  | insert table columns rows => exact .kept ⟨rfl, rfl⟩ (schemas_insert h table columns rows)
  | select columns table join conditions => exact .kept ⟨rfl, rfl⟩ rfl
  | update table assignments conditions =>
    exact .kept ⟨rfl, rfl⟩ (schemas_update h policy table assignments conditions)
  | delete table conditions => exact .kept ⟨rfl, rfl⟩ (schemas_delete h table conditions)
  | showTables => exact .kept ⟨rfl, rfl⟩ rfl
  | describe table => exact .kept ⟨rfl, rfl⟩ rfl

end Execution

/-! ## Engines -/

namespace Engine

variable {e : Engine}

theorem effect_execute (h : e.database.Consistent) (s : Statement) :
    Effect e.database s (e.execute s).1 (e.execute s).2.database := by
  have effect := Execution.effect_execute h e.policy s
  rw [execute]
  split <;> next answer =>
    rw [answer] at effect
    exact effect

/-- An engine that comes about by executing statements, from one without tables. -/
def Reachable (e : Engine) : Prop :=
  ∃ (policy : FieldPolicy) (statements : List Statement),
    e = ((ofPolicy policy).executeAll statements).2

/-- What each of some statements keeps is kept by them in a row. -/
theorem executeAll_keeps {P : Engine → Prop} {statements : List Statement} (h : P e)
    (step : ∀ e, ∀ s ∈ statements, P e → P (e.execute s).2) : P (e.executeAll statements).2 := by
  induction statements generalizing e with
  | nil => exact h
  | cons s statements ih =>
    apply ih (step e s List.mem_cons_self h)
    intro e' s' hs'
    exact step e' s' (List.mem_cons_of_mem s hs')

/-- What holds of the schemas of created tables holds of all tables, if it did before. -/
theorem schemas_executeAll {P : Schema → Prop} {statements : List Statement}
    (h : e.database.Consistent) (old : ∀ t ∈ e.database.tables, P t.schema)
    (new : ∀ table ifNotExists columns, .createTable table ifNotExists columns ∈ statements →
      ∀ schema, (Schema.ofColumns table (columns.map columnOf)).checked = .ok schema → P schema) :
    ∀ t ∈ (e.executeAll statements).2.database.tables, P t.schema := by
  refine (executeAll_keeps
    (P := fun e => e.database.Consistent ∧ ∀ t ∈ e.database.tables, P t.schema) ⟨h, old⟩ ?_).2
  rintro e s hs ⟨consistent, schemas⟩
  refine ⟨consistent_execute consistent s, fun t ht => ?_⟩
  obtain ⟨u, hu, same⟩ | ⟨table, ifNotExists, columns, rfl, checked⟩ :=
    (effect_execute consistent s).schema_cases ht
  · rw [← same]
    exact schemas u hu
  · exact new table ifNotExists columns hs t.schema checked

theorem Reachable.consistent (h : e.Reachable) : e.database.Consistent := by
  obtain ⟨policy, statements, rfl⟩ := h
  exact consistent_executeAll Database.consistent_empty statements

end Engine
end PocketSql
