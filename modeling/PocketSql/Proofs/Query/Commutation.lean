import PocketSql.Proofs.Query.Effects

/-!
# Statements on different tables

What a statement answers is decided by the tables that it names, and it changes one of them at most.
So statements that name different tables do not see each other. In either order they answer the same
and leave the same tables; only where both of them create a table does the order of the tables tell
which one came first.

## Main definitions

* `Sql.Statement.tables` — the tables that a statement names.
* `Edit` — a change of one table of a database.
* `Makes` — a statement makes an edit, whatever other tables there are.

## Main results

* `Edit.apply_comm` — edits of different tables commute, unless both add a table.
* `Execution.exists_makes` — every statement but SHOW TABLES makes an edit.
* `Engine.execute_comm` — statements on different tables in either order.
-/

namespace PocketSql

open Store (Database FieldPolicy Schema Table)
open Sql (ColumnDef Condition JoinClause Statement)

/-- The tables that a statement names: the one that it is about, and the one that is joined to it.
SHOW TABLES is about all tables and names none. -/
def Sql.Statement.tables : Statement → List String
  | .createTable table _ _ => [table]
  | .dropTable table _ => [table]
  | .insert table _ _ => [table]
  | .select _ table join _ => table :: (join.map (·.table)).toList
  | .update table _ _ => [table]
  | .delete table _ => [table]
  | .showTables => []
  | .describe table => [table]

/-! ## Edits -/

theorem Store.Database.table?_replace_of_ne (db : Database) {t : Table} {name : String}
    (h : t.name ≠ name) : (db.replace t).table? name = db.table? name := by
  obtain ⟨tables⟩ := db
  induction tables with
  | nil => rfl
  | cons old tables ih =>
    simp only [Database.table?, Database.replace, List.map_cons, List.find?_cons] at ih ⊢
    rw [ih]
    by_cases named : old.name = t.name
    · rw [if_pos named, named]
      simp [h]
    · rw [if_neg named]

/-- A change of one table of a database. -/
inductive Edit where
  | keep
  /-- Put a table at the end. -/
  | append (t : Table)
  | remove (name : String)
  /-- Put a table in the place of the one with its name. -/
  | put (t : Table)

namespace Edit

/-- The table that is changed. -/
def name? : Edit → Option String
  | keep => none
  | append t => some t.name
  | remove name => some name
  | put t => some t.name

/-- The database with the change. -/
def apply (db : Database) : Edit → Database
  | keep => db
  | append t => ⟨db.tables ++ [t]⟩
  | remove name => ⟨db.tables.filter (·.name ≠ name)⟩
  | put t => db.replace t

/-- What is found under a name after the change, if `found` was found there before. -/
def seen (name : String) (found : Option Table) : Edit → Option Table
  | keep => found
  | append t => found.or (if t.name = name then some t else none)
  | remove other => if other = name then none else found
  | put t => if t.name = name then found.map fun _ => t else found

variable {db : Database} {a b : Edit} {name : String}

/-- What is found under a name depends on what was found there, and not on other tables. -/
theorem table?_apply (a : Edit) (db : Database) (name : String) :
    (a.apply db).table? name = a.seen name (db.table? name) := by
  cases a with
  | keep => rfl
  | append t =>
    rw [apply, Database.table?, List.find?_append, seen, Database.table?]
    by_cases h : t.name = name <;> simp [h]
  | remove other =>
    rw [apply, Database.table?, List.find?_filter, seen, Database.table?]
    by_cases h : other = name
    · simp [h]
    · rw [if_neg h]
      congr 1
      funext t
      by_cases named : t.name = name
      · simp [named, Ne.symm h]
      · simp [named]
  | put t =>
    rw [apply, seen]
    by_cases h : t.name = name
    · rw [if_pos h, ← h]
      exact Database.table?_replace db t
    · rw [if_neg h]
      exact Database.table?_replace_of_ne db h

/-- Edits of other tables are not seen. -/
theorem seen_of_ne (h : a.name? ≠ some name) (found : Option Table) :
    a.seen name found = found := by
  cases a with
  | keep => rfl
  | append t =>
    have other : t.name ≠ name := fun same => h (congrArg some same)
    simp [seen, other]
  | remove other =>
    have other : other ≠ name := fun same => h (congrArg some same)
    simp [seen, other]
  | put t =>
    have other : t.name ≠ name := fun same => h (congrArg some same)
    simp [seen, other]

theorem table?_apply_of_ne (h : a.name? ≠ some name) (db : Database) :
    (a.apply db).table? name = db.table? name := by
  rw [table?_apply, seen_of_ne h]

/-- After edits of different tables, each table is the same in either order. -/
theorem table?_apply_comm (apart : ∀ name, a.name? = some name → b.name? ≠ some name)
    (db : Database) (name : String) :
    (b.apply (a.apply db)).table? name = (a.apply (b.apply db)).table? name := by
  simp only [table?_apply]
  by_cases h : a.name? = some name
  · rw [seen_of_ne (apart name h), seen_of_ne (apart name h)]
  · rw [seen_of_ne h, seen_of_ne h]

/-! ### Two edits -/

theorem append_remove {t : Table} (h : t.name ≠ name) (db : Database) :
    (remove name).apply ((append t).apply db) = (append t).apply ((remove name).apply db) := by
  simp [apply, h]

theorem append_put {t u : Table} (h : t.name ≠ u.name) (db : Database) :
    (put u).apply ((append t).apply db) = (append t).apply ((put u).apply db) := by
  simp [apply, Database.replace, h]

theorem remove_remove (name other : String) (db : Database) :
    (remove other).apply ((remove name).apply db) =
      (remove name).apply ((remove other).apply db) := by
  simp only [apply, List.filter_filter, Bool.and_comm]

/-- A table in the place of another one has its name, so it is removed as that one is. -/
theorem remove_put (name : String) (u : Table) (db : Database) :
    (put u).apply ((remove name).apply db) = (remove name).apply ((put u).apply db) := by
  have same : (fun old : Table => decide (old.name ≠ name)) ∘
      (fun old => if old.name = u.name then u else old) = fun old => decide (old.name ≠ name) := by
    funext old
    by_cases named : old.name = u.name <;> simp [named]
  simp only [apply, Database.replace, List.filter_map, same]

theorem put_put {t u : Table} (h : t.name ≠ u.name) (db : Database) :
    (put u).apply ((put t).apply db) = (put t).apply ((put u).apply db) := by
  simp only [apply, Database.replace, List.map_map, Database.mk.injEq]
  apply List.map_congr_left
  intro old _
  by_cases named : old.name = t.name
  · simp [named, h]
  · by_cases named' : old.name = u.name <;> simp [named, named', Ne.symm h]

/-- Whether an edit adds a table. -/
def appends : Edit → Bool
  | append _ => true
  | _ => false

/-- **Edits of different tables commute**, unless both of them add a table. -/
theorem apply_comm (apart : ∀ name, a.name? = some name → b.name? ≠ some name)
    (one : a.appends = false ∨ b.appends = false) (db : Database) :
    b.apply (a.apply db) = a.apply (b.apply db) := by
  cases a with
  | keep => rfl
  | append t =>
    cases b with
    | keep => rfl
    | append u => simp [appends] at one
    | remove name => exact append_remove (fun h => apart _ rfl (congrArg some h.symm)) db
    | put u => exact append_put (fun h => apart _ rfl (congrArg some h.symm)) db
  | remove name =>
    cases b with
    | keep => rfl
    | append u => exact (append_remove (fun h => apart _ rfl (congrArg some h)) db).symm
    | remove other => exact remove_remove name other db
    | put u => exact remove_put name u db
  | put t =>
    cases b with
    | keep => rfl
    | append u => exact (append_put (fun h => apart _ rfl (congrArg some h)) db).symm
    | remove name => exact (remove_put name t db).symm
    | put u => exact put_put (fun h => apart _ rfl (congrArg some h.symm)) db

end Edit

/-! ## The edit that a statement makes -/

/-- A statement makes an edit: it changes a table that it names, and in every database where the
tables that it names are the same it answers the same and makes the same edit. -/
structure Makes (policy : FieldPolicy) (db : Database) (s : Statement) (edit : Edit) : Prop where
  named : ∀ name, edit.name? = some name → name ∈ s.tables
  created : edit.appends = true →
    created? s (Execution.resultOf (db.execute policy s)) ≠ none
  execute : ∀ db' : Database, (∀ name ∈ s.tables, db'.table? name = db.table? name) →
    db'.execute policy s = ((db.execute policy s).1, edit.apply db')

namespace Execution

variable {db : Database} {policy : FieldPolicy} {s : Statement}

theorem table_congr {db' : Database} {name : String} (h : db'.table? name = db.table? name) :
    db'.table name = db.table name := by
  rw [Database.table, Database.table, h]

theorem hasTable_congr {db' : Database} {name : String} (h : db'.table? name = db.table? name) :
    db'.hasTable name = db.hasTable name := by
  rw [Database.hasTable, Database.hasTable, h]

/-- A statement that leaves each database as it is makes no edit. -/
theorem makes_keep (h : ∀ db' : Database, (∀ name ∈ s.tables, db'.table? name = db.table? name) →
    db'.execute policy s = ((db.execute policy s).1, db')) : Makes policy db s .keep where
  named := fun _ h => nomatch h
  created := fun h => nomatch h
  execute := h

/-- Without a table of that name, only the columns decide. -/
theorem createTable_of_untaken {table : String} (h : db.hasTable table = false)
    (ifNotExists : Bool) (columns : List ColumnDef) :
    db.execute policy (.createTable table ifNotExists columns) =
      match (Schema.ofColumns table (columns.map columnOf)).checked with
      | .ok schema =>
        (.ok (.ofMessage s!"Table '{table}' created"), ⟨db.tables ++ [.ofSchema schema]⟩)
      | .error e => (.error e, db) := by
  have name : (Schema.ofColumns table (columns.map columnOf)).name = table := rfl
  cases checked : (Schema.ofColumns table (columns.map columnOf)).checked <;>
    simp [Database.execute, createTable, Database.create, name, h, checked]

theorem exists_makes_createTable (table : String) (ifNotExists : Bool) (columns : List ColumnDef) :
    ∃ edit, Makes policy db (.createTable table ifNotExists columns) edit := by
  have name : (Schema.ofColumns table (columns.map columnOf)).name = table := rfl
  by_cases taken : db.hasTable table = true
  · refine ⟨.keep, makes_keep fun db' agree => ?_⟩
    have taken' := (hasTable_congr (agree table List.mem_cons_self)).trans taken
    cases ifNotExists <;>
      simp [Database.execute, createTable, Database.create, name, taken, taken']
  rw [Bool.not_eq_true] at taken
  have untaken' (db' : Database) (agree : db'.table? table = db.table? table) :=
    have here := (hasTable_congr agree).trans taken
    @createTable_of_untaken db' policy table here ifNotExists columns
  cases checked : (Schema.ofColumns table (columns.map columnOf)).checked with
  | error e =>
    refine ⟨.keep, makes_keep fun db' agree => ?_⟩
    rw [createTable_of_untaken taken, untaken' db' (agree table List.mem_cons_self), checked]
  | ok schema =>
    refine ⟨.append (.ofSchema schema), ?_, ?_, ?_⟩
    · intro other h
      have named := (Schema.checked_ok checked).1
      simp only [Edit.name?, Option.some.injEq] at h
      rw [← h, Table.name, Table.ofSchema, named]
      exact List.mem_cons_self
    · intro _
      rw [createTable_of_untaken taken, checked]
      simp [created?, resultOf]
    · intro db' agree
      rw [createTable_of_untaken taken, untaken' db' (agree table List.mem_cons_self), checked]
      rfl

theorem exists_makes_dropTable (table : String) (ifExists : Bool) :
    ∃ edit, Makes policy db (.dropTable table ifExists) edit := by
  by_cases known : db.hasTable table = true
  · refine ⟨.remove table, ?_, ?_, ?_⟩
    · intro other h
      simp only [Edit.name?, Option.some.injEq] at h
      exact h ▸ List.mem_cons_self
    · intro h
      cases h
    · intro db' agree
      have known' := (hasTable_congr (agree table List.mem_cons_self)).trans known
      simp [Database.execute, dropTable, Database.drop, known, known', Edit.apply]
  · refine ⟨.keep, makes_keep fun db' agree => ?_⟩
    rw [Bool.not_eq_true] at known
    have known' := (hasTable_congr (agree table List.mem_cons_self)).trans known
    cases ifExists <;> simp [Database.execute, dropTable, Database.drop, known, known']

/-- A statement that changes the rows of a table puts the changed table in its place. -/
theorem makes_put {table : String} {t u : Table} (ht : db.table table = .ok t)
    (schema : u.schema = t.schema) (tables : s.tables = [table])
    (answer : ∀ db' : Database, db'.table table = .ok t →
      db'.execute policy s = ((db.execute policy s).1, db'.replace u)) :
    Makes policy db s (.put u) where
  named := by
    intro name h
    have named := (Database.mem_of_table ht).2
    simp only [Edit.name?, Option.some.injEq] at h
    rw [tables, ← h, Table.name, schema, ← Table.name, named]
    exact List.mem_cons_self
  created := fun h => nomatch h
  execute := by
    intro db' agree
    apply answer
    rw [← ht]
    exact table_congr (agree table (by simp [tables]))

/-- Without the table that it is about, a statement fails and changes nothing. -/
theorem makes_missing {table : String} {e : Store.Error} (ht : db.table table = .error e)
    (named : table ∈ s.tables)
    (answer : ∀ db' : Database, db'.table table = .error e →
      db'.execute policy s = (.error e, db')) :
    Makes policy db s .keep := by
  apply makes_keep
  intro db' agree
  have missing := (table_congr (agree table named)).trans ht
  rw [answer db ht, answer db' missing]

theorem exists_makes_insert (h : db.Consistent) (table : String) (columns : Option (List String))
    (rows : List (List Value)) : ∃ edit, Makes policy db (.insert table columns rows) edit := by
  cases ht : db.table table with
  | error e =>
    refine ⟨.keep, makes_missing ht List.mem_cons_self fun db' ht' => ?_⟩
    simp only [Database.execute, insert, ht']
  | ok t =>
    rcases hi : insertRows t.rows.length (columns.getD t.schema.columnNames) t rows with
      ⟨result, u⟩
    have consistent := h.tables_consistent t (Database.mem_of_table ht).1
    have schema := (insertRows_keeps consistent (Nat.le_refl _) hi).2.1
    refine ⟨.put u, makes_put ht schema rfl fun db' ht' => ?_⟩
    cases result <;> simp only [Database.execute, insert, ht, ht', hi]

theorem exists_makes_update (table : String) (assignments : List (String × Value))
    (conditions : List Condition) :
    ∃ edit, Makes policy db (.update table assignments conditions) edit := by
  cases ht : db.table table with
  | error e =>
    refine ⟨.keep, makes_missing ht List.mem_cons_self fun db' ht' => ?_⟩
    simp only [Database.execute, update, ht']
  | ok t =>
    cases hu : t.update assignments (Sql.holdAll conditions table) policy with
    | error e =>
      refine ⟨.keep, makes_keep fun db' agree => ?_⟩
      have ht' := (table_congr (agree table List.mem_cons_self)).trans ht
      simp only [Database.execute, update, ht, ht', hu]
    | ok result =>
      obtain ⟨outcome, u⟩ := result
      refine ⟨.put u, makes_put ht (Table.schema_update hu) rfl fun db' ht' => ?_⟩
      simp only [Database.execute, update, ht, ht', hu]

theorem exists_makes_delete (table : String) (conditions : List Condition) :
    ∃ edit, Makes policy db (.delete table conditions) edit := by
  cases ht : db.table table with
  | error e =>
    refine ⟨.keep, makes_missing ht List.mem_cons_self fun db' ht' => ?_⟩
    simp only [Database.execute, delete, ht']
  | ok t =>
    refine ⟨.put (t.delete (Sql.holdAll conditions table)).2,
      makes_put ht (Table.schema_delete t _) rfl fun db' ht' => ?_⟩
    simp only [Database.execute, delete, ht, ht']

/-- A SELECT looks at the table that it is about, and at the one that is joined to it. -/
theorem makes_select (columns : List String) (table : String) (join : Option JoinClause)
    (conditions : List Condition) :
    Makes policy db (.select columns table join conditions) .keep := by
  apply makes_keep
  intro db' agree
  have same := table_congr (agree table List.mem_cons_self)
  have joined : ∀ clause ∈ join, db'.table clause.table = db.table clause.table := by
    intro clause hclause
    rw [Option.mem_def] at hclause
    exact table_congr (agree clause.table (by simp [Statement.tables, hclause]))
  cases join with
  | none => simp only [Database.execute, selectRows, same]
  | some clause => simp only [Database.execute, selectRows, joinTables, same, joined clause rfl]

theorem makes_describe (table : String) : Makes policy db (.describe table) .keep := by
  apply makes_keep
  intro db' agree
  simp only [Database.execute, describe, table_congr (agree table List.mem_cons_self)]

/-- **Every statement but SHOW TABLES makes an edit** of a table that it names, and what it answers
is decided by those tables. -/
theorem exists_makes (h : db.Consistent) (policy : FieldPolicy) {s : Statement}
    (other : s ≠ .showTables) : ∃ edit, Makes policy db s edit := by
  cases s with
  | createTable table ifNotExists columns =>
    exact exists_makes_createTable table ifNotExists columns
  | dropTable table ifExists => exact exists_makes_dropTable table ifExists
  | insert table columns rows => exact exists_makes_insert h table columns rows
  | select columns table join conditions =>
    exact ⟨.keep, makes_select columns table join conditions⟩
  | update table assignments conditions => exact exists_makes_update table assignments conditions
  | delete table conditions => exact exists_makes_delete table conditions
  | showTables => exact absurd rfl other
  | describe table => exact ⟨.keep, makes_describe table⟩

end Execution

/-! ## Engines -/

namespace Engine

variable {e : Engine} {s s' : Statement}

theorem fst_execute (e : Engine) (s : Statement) :
    (e.execute s).1 = Execution.resultOf (e.database.execute e.policy s) := by
  rw [execute]
  split <;> next answer => rw [answer, Execution.resultOf]

/-- In every database where the tables that a statement names are the same, an engine answers the
same and makes the same edit. -/
theorem execute_of_makes {edit : Edit} (h : Makes e.policy e.database s edit) {db : Database}
    (agree : ∀ name ∈ s.tables, db.table? name = e.database.table? name) :
    (Engine.mk e.policy db).execute s = ((e.execute s).1, ⟨e.policy, edit.apply db⟩) := by
  have answer := h.execute db agree
  have here := h.execute e.database fun _ _ => rfl
  simp only [execute, answer]
  rw [here]
  cases (e.database.execute e.policy s).1 <;> rfl

theorem execute_eq_of_makes {edit : Edit} (h : Makes e.policy e.database s edit) :
    e.execute s = ((e.execute s).1, ⟨e.policy, edit.apply e.database⟩) :=
  execute_of_makes h fun _ _ => rfl

/-- A statement leaves each table alone that it does not name. -/
theorem table?_execute_of_not_mem (consistent : e.database.Consistent) {name : String}
    (h : name ∉ s.tables) : (e.execute s).2.database.table? name = e.database.table? name := by
  by_cases other : s = .showTables
  · rw [other]
    rfl
  · obtain ⟨edit, makes⟩ := Execution.exists_makes consistent e.policy other
    rw [execute_eq_of_makes makes]
    exact Edit.table?_apply_of_ne (fun named => h (makes.named name named)) e.database

/-- A statement does not see the edit of a table that it does not name. -/
theorem execute_behind {a b : Edit} (ha : Makes e.policy e.database s a)
    (hb : Makes e.policy e.database s' b) (disjoint : ∀ name ∈ s.tables, name ∉ s'.tables) :
    (e.execute s).2.execute s' =
      ((e.execute s').1, ⟨e.policy, b.apply (a.apply e.database)⟩) := by
  rw [execute_eq_of_makes ha]
  apply execute_of_makes hb
  intro name mem
  refine Edit.table?_apply_of_ne (fun named => ?_) e.database
  exact disjoint name (ha.named name named) mem

/-- **Statements on different tables do not interfere.** In either order each of them answers the
same, and every table is left with the same schema, rows and indexes. The order of the tables is the
same as well, unless both statements create a table. No statement touches a table that it does not
name. -/
theorem execute_comm (reachable : e.Reachable) (other : s ≠ .showTables)
    (other' : s' ≠ .showTables) (disjoint : ∀ name ∈ s.tables, name ∉ s'.tables) :
    let first := (e.execute s).2.execute s'
    let second := (e.execute s').2.execute s
    (second.1 = (e.execute s).1 ∧ first.1 = (e.execute s').1) ∧
      (∀ name, first.2.database.table? name = second.2.database.table? name) ∧
      (created? s (e.execute s).1 = none ∨ created? s' (e.execute s').1 = none →
        first.2 = second.2) ∧
      ∀ (statement : Statement) (name : String), name ∉ statement.tables →
        (e.execute statement).2.database.table? name = e.database.table? name := by
  intro first second
  have consistent := reachable.consistent
  obtain ⟨a, ha⟩ := Execution.exists_makes consistent e.policy other
  obtain ⟨b, hb⟩ := Execution.exists_makes consistent e.policy other'
  have apart : ∀ name, a.name? = some name → b.name? ≠ some name := by
    intro name named named'
    exact disjoint name (ha.named name named) (hb.named name named')
  have behind : first = ((e.execute s').1, ⟨e.policy, b.apply (a.apply e.database)⟩) :=
    execute_behind ha hb disjoint
  have behind' : second = ((e.execute s).1, ⟨e.policy, a.apply (b.apply e.database)⟩) :=
    execute_behind hb ha fun name mem mem' => disjoint name mem' mem
  rw [behind, behind']
  refine ⟨⟨rfl, rfl⟩, Edit.table?_apply_comm apart e.database, ?_, ?_⟩
  · intro created
    rw [fst_execute, fst_execute] at created
    have one : a.appends = false ∨ b.appends = false := by
      by_contra both
      simp only [not_or, Bool.not_eq_false] at both
      exact created.elim (ha.created both.1) (hb.created both.2)
    rw [Edit.apply_comm apart one]
  · intro statement name h
    exact table?_execute_of_not_mem consistent h

/-- A table of keys with one row, and a table without rows. -/
def stocked : Engine :=
  ((ofPolicy .warn).executeAll
    [.createTable "a" false [⟨"x", "int", false, true, false, none⟩],
     .createTable "b" false [⟨"y", "text", false, false, false, none⟩],
     .insert "a" none [[.number ⟨1⟩]]]).2

/-- Rows that are taken back, as the second one repeats a key, and the other table dropped. -/
theorem execute_comm_stocked :
    let insertion : Statement := .insert "a" none [[.number ⟨2⟩], [.number ⟨1⟩]]
    let deletion : Statement := .dropTable "b" false
    stocked.Reachable ∧ insertion ≠ .showTables ∧ deletion ≠ .showTables ∧
      (∀ name ∈ insertion.tables, name ∉ deletion.tables) ∧
      ((stocked.execute deletion).2.execute insertion).1 =
        .ofStoreError (.duplicateKey "x" (.number ⟨1⟩)) ∧
      ((stocked.execute insertion).2.execute deletion).1 = .ofMessage "Table 'b' dropped" ∧
      ((stocked.execute insertion).2.execute deletion).2 =
        ((stocked.execute deletion).2.execute insertion).2 := by
  intro insertion deletion
  have reachable : stocked.Reachable := ⟨.warn, _, rfl⟩
  have other : insertion ≠ .showTables := by decide
  have other' : deletion ≠ .showTables := by decide
  have disjoint : ∀ name ∈ insertion.tables, name ∉ deletion.tables := by decide
  have failure : (stocked.execute insertion).1 =
      .ofStoreError (.duplicateKey "x" (.number ⟨1⟩)) := by
    decide +kernel
  have success : (stocked.execute deletion).1 = .ofMessage "Table 'b' dropped" := by
    decide +kernel
  obtain ⟨⟨first, second⟩, -, same, -⟩ := execute_comm reachable other other' disjoint
  exact ⟨reachable, other, other', disjoint, first.trans failure, second.trans success,
    same (.inl rfl)⟩

end Engine
end PocketSql
