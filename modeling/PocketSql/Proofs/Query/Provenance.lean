import PocketSql.Proofs.Query.Naming
import PocketSql.Proofs.Sql.Literals

/-!
# Where stored values come from

The store makes up no values but NULL. Each cell of a table is NULL or was given in a statement, as
a value to be stored or as the default of a column. So what holds of NULL and of all literals holds
of all that is stored.

## Main definitions

* `Store.Database.Holds` — what holds of all cells and defaults of a database.

## Main results

* `Execution.holds_execute` — a statement stores nothing but its literals and NULL.
* `Engine.Reached.holds_not_nan` — where texts lead to, no NaN is stored.
-/

namespace PocketSql

open Store (Column Database FieldPolicy IgnoredField Schema Table UpdateOutcome)
open Sql (Statement)

variable {P : Value → Prop}

/-! ## Rows -/

namespace Row

/-- A property of all cells of a row. -/
def Holds (P : Value → Prop) (row : Row) : Prop := ∀ cell ∈ row, P cell.2

variable {row : Row}

theorem Holds.get? (h : row.Holds P) {name : String} {v : Value} (there : row.get? name = some v) :
    P v :=
  h (name, v) (mem_of_get? there)

theorem Holds.set (h : row.Holds P) {v : Value} (hv : P v) (name : String) :
    (row.set name v).Holds P := by
  induction row with
  | nil => exact List.forall_mem_singleton.2 hv
  | cons cell row ih =>
    obtain ⟨first, rest⟩ := List.forall_mem_cons.1 h
    rw [Row.set]
    split
    · exact List.forall_mem_cons.2 ⟨hv, rest⟩
    · exact List.forall_mem_cons.2 ⟨first, ih rest⟩

theorem holds_ofCells {cells : List (String × Value)} (h : ∀ cell ∈ cells, P cell.2) :
    (ofCells cells).Holds P := by
  refine List.foldlRecOn cells _ (motive := Holds P) (fun _ hcell => nomatch hcell) ?_
  intro row holds cell hcell
  exact holds.set (h cell hcell) cell.1

end Row

/-! ## Tables -/

namespace Store.Table

/-- A property of all cells of a table and of the defaults of its columns. -/
structure Holds (P : Value → Prop) (t : Table) : Prop where
  cells : ∀ row ∈ t.rows, row.Holds P
  defaults : ∀ c ∈ t.schema.columns, ∀ v, c.default = some v → P v

variable {t u : Table}

theorem Holds.of_subset (h : t.Holds P) (schema : u.schema = t.schema) (rows : u.rows ⊆ t.rows) :
    u.Holds P where
  cells := fun row hrow => h.cells row (rows hrow)
  defaults := schema ▸ h.defaults

/-- The row that is stored has the cells that are given, defaults and NULL. -/
theorem holds_complete (null : P .null) {given row : Row} (holds : given.Holds P)
    {columns : List Column} (defaults : ∀ c ∈ columns, ∀ v, c.default = some v → P v)
    (h : complete given columns = .ok row) : row.Holds P := by
  induction columns generalizing row with
  | nil =>
    cases h
    exact fun _ hcell => nomatch hcell
  | cons c columns ih =>
    rw [List.forall_mem_cons] at defaults
    simp only [complete, Error.bind_eq_ok] at h
    obtain ⟨first, hfirst, rest, hrest, h⟩ := h
    obtain rfl := Except.ok.inj h
    refine List.forall_mem_cons.2 ⟨?_, ih defaults.2 hrest⟩
    simp only [Table.cell] at hfirst
    split at hfirst
    · obtain rfl := Except.ok.inj hfirst
      dsimp only
      cases there : given.get? c.name with
      | some v => exact holds.get? there
      | none =>
        cases default : c.default with
        | some v => exact defaults.1 v default
        | none => exact null
    · cases hfirst

theorem Holds.insert (h : t.Holds P) (null : P .null) {given : Row} (holds : given.Holds P)
    (hi : t.insert given = .ok u) : u.Holds P := by
  rw [Table.insert, Error.bind_eq_ok] at hi
  obtain ⟨row, complete, hi⟩ := hi
  dsimp only at hi
  split at hi
  · cases hi
  · obtain rfl := Except.ok.inj hi
    refine ⟨List.forall_mem_append.2 ⟨h.cells, List.forall_mem_singleton.2 ?_⟩, h.defaults⟩
    exact holds_complete null holds h.defaults complete

theorem Holds.write (h : t.Holds P) (position : Nat) {assignment : String × Value}
    (hv : P assignment.2) : (t.write position assignment).Holds P := by
  obtain same | ⟨row, hrow, changed⟩ := write_eq position t assignment
  · rwa [same]
  · rw [changed]
    refine ⟨fun other hother => ?_, h.defaults⟩
    obtain old | rfl := List.mem_or_eq_of_mem_set hother
    · exact h.cells other old
    · exact (h.cells row (List.mem_of_getElem? hrow)).set hv _

/-- An update writes nothing but what is assigned. -/
theorem Holds.update (h : t.Holds P) {assignments : List (String × Value)} {p : Row → Bool}
    {policy : FieldPolicy} {outcome : UpdateOutcome} (given : ∀ a ∈ assignments, P a.2)
    (hu : t.update assignments p policy = .ok (outcome, u)) : u.Holds P := by
  obtain ⟨-, -, rfl⟩ | ⟨-, -, -, -, rfl⟩ := update_ok hu
  · exact h
  · refine List.foldlRecOn _ (Table.writeAll _) (motive := Table.Holds P) h ?_
    intro u hu position _
    refine List.foldlRecOn _ (Table.write position) (motive := Table.Holds P) hu ?_
    intro u hu a ha
    exact hu.write position (given a (List.mem_filter.1 ha).1)

theorem Holds.delete (h : t.Holds P) (p : Row → Bool) : (t.delete p).2.Holds P :=
  h.of_subset (schema_delete t p) (rows_delete t p ▸ List.filter_subset_self _)

theorem Holds.truncate (h : t.Holds P) (length : Nat) : (t.truncate length).Holds P :=
  h.of_subset (schema_truncate t length) (rows_truncate t length ▸ List.take_subset _ _)

end Store.Table

/-! ## Databases -/

/-- A property of all cells and defaults of a database. -/
def Store.Database.Holds (P : Value → Prop) (db : Database) : Prop := ∀ t ∈ db.tables, t.Holds P

theorem Store.Database.Holds.replace {db : Database} (h : db.Holds P) {t : Table} (ht : t.Holds P) :
    (db.replace t).Holds P := by
  intro u hu
  obtain ⟨old, hold, rfl⟩ := List.mem_map.1 hu
  split
  · exact ht
  · exact h old hold

namespace Execution

variable {db : Database}

theorem holds_createTable (h : db.Holds P) (table : String) (ifNotExists : Bool)
    {columns : List Sql.ColumnDef} (given : ∀ v ∈ columns.filterMap (·.default), P v) :
    (createTable db table ifNotExists columns).2.Holds P := by
  rw [createTable]
  split
  · exact h
  · split
    · next hc =>
      obtain ⟨schema, checked, -, rfl⟩ := Database.create_ok hc
      have none : ∀ row ∈ (Table.ofSchema schema).rows, row.Holds P := by
        intro row hrow
        cases hrow
      refine List.forall_mem_append.2 ⟨h, List.forall_mem_singleton.2 ⟨none, ?_⟩⟩
      intro c hc v default
      rw [Table.ofSchema, (Schema.checked_ok checked).2.1] at hc
      obtain ⟨d, hd, rfl⟩ := List.mem_map.1 hc
      exact given v (List.mem_filterMap.2 ⟨d, hd, default⟩)
    · exact h

theorem holds_dropTable (h : db.Holds P) (table : String) (ifExists : Bool) :
    (dropTable db table ifExists).2.Holds P := by
  rw [dropTable]
  split
  · exact h
  · split
    · next hd =>
      rw [Database.drop_ok hd]
      exact fun t ht => h t (List.mem_filter.1 ht).1
    · exact h

theorem holds_insertRows (null : P .null) (start : Nat) (columns : List String) {t : Table}
    (h : t.Holds P) {rows : List (List Value)} (given : ∀ v ∈ rows.flatten, P v) :
    (insertRows start columns t rows).2.Holds P := by
  induction rows generalizing t with
  | nil => exact h
  | cons values rows ih =>
    rw [List.flatten_cons, List.forall_mem_append] at given
    rw [insertRows]
    split
    · next u hu =>
      refine ih (h.insert null (Row.holds_ofCells ?_) hu) given.2
      intro cell hcell
      exact given.1 cell.2 (List.of_mem_zip hcell).2
    · exact h.truncate start

theorem holds_insert (null : P .null) (h : db.Holds P) (table : String)
    (columns : Option (List String)) {rows : List (List Value)}
    (given : ∀ v ∈ rows.flatten, P v) : (insert db table columns rows).2.Holds P := by
  rw [insert]
  split
  · exact h
  · next t ht =>
    have inserted := holds_insertRows null t.rows.length (columns.getD t.schema.columnNames)
      (h t (Database.mem_of_table ht).1) given
    split <;> next hu =>
      rw [hu] at inserted
      exact h.replace inserted

theorem holds_update (h : db.Holds P) (policy : FieldPolicy) (table : String)
    {assignments : List (String × Value)} (given : ∀ v ∈ assignments.map (·.2), P v)
    (conditions : List Sql.Condition) :
    (update policy db table assignments conditions).2.Holds P := by
  rw [update]
  split
  · exact h
  · next t ht =>
    split
    · exact h
    · next hu =>
      refine h.replace ((h t (Database.mem_of_table ht).1).update ?_ hu)
      intro a ha
      exact given a.2 (List.mem_map_of_mem ha)

theorem holds_delete (h : db.Holds P) (table : String) (conditions : List Sql.Condition) :
    (delete db table conditions).2.Holds P := by
  rw [delete]
  split
  · exact h
  · next t ht => exact h.replace ((h t (Database.mem_of_table ht).1).delete _)

/-- A statement stores nothing but its literals and NULL. -/
theorem holds_execute (null : P .null) (h : db.Holds P) (policy : FieldPolicy) {s : Statement}
    (given : ∀ v ∈ s.literals, P v) : (db.execute policy s).2.Holds P := by
  cases s with
  | createTable table ifNotExists columns => exact holds_createTable h table ifNotExists given
  | dropTable table ifExists => exact holds_dropTable h table ifExists
  | insert table columns rows => exact holds_insert null h table columns given
  | update table assignments conditions =>
    exact holds_update h policy table (List.forall_mem_append.1 given).1 conditions
  | delete table conditions => exact holds_delete h table conditions
  | select | showTables | describe => exact h

end Execution

/-! ## Engines -/

namespace Engine

variable {e : Engine}

theorem holds_execute (null : P .null) (h : e.database.Holds P) {s : Statement}
    (given : ∀ v ∈ s.literals, P v) : (e.execute s).2.database.Holds P := by
  have holds := Execution.holds_execute null h e.policy given
  rw [execute]
  split <;> next answer =>
    rw [answer] at holds
    exact holds

/-- What holds of NULL and of all literals of texts holds of all that texts store. -/
theorem Reached.holds (h : e.Reached) (null : P .null)
    (given : ∀ s text, Sql.StandsIn s text → ∀ v ∈ s.literals, P v) : e.database.Holds P := by
  apply h.induction (P := fun e => e.database.Holds P)
  · exact fun _ _ ht => nomatch ht
  · rintro e s ⟨text, read⟩ holds
    exact holds_execute null holds (given s text read)

/-- Where texts lead to, no NaN is stored. -/
theorem Reached.holds_not_nan (h : e.Reached) : e.database.Holds fun v => v.isNaN = false :=
  h.holds rfl fun _ _ read => read.literal_not_nan

end Engine
end PocketSql
