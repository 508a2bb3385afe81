import PocketSql.Proofs.Query.References
import PocketSql.Proofs.Store.Exactness

/-!
# Conditions before and after a join

Conditions on the columns of a table hold of a joined row just where they hold of the row of that
table from which it comes. So the rows may be chosen before they are joined, which is what a SELECT
does.

## Main definitions

* `Store.Table.Plain` — a table whose names have no dots.
* `Store.Table.PlainRow` — a row of such a table.

## Main results

* `Sql.JoinClause.joined_filter` — rows that are joined after they were chosen.
* `Store.Table.joined_filter_arises` — the same for the rows of two tables.
-/

namespace PocketSql

open Store (Mutation Schema)

namespace Sql

variable {clause : JoinClause} {table : String}

/-- A joined row of a left row is the row itself, put together with one of the other table or with
none. -/
theorem JoinClause.eq_together_of_mem {right : List Row} {row joined : Row}
    (h : joined ∈ clause.joinedRow table right row) :
    ∃ partner, joined = Row.together table row clause.table partner := by
  rw [joinedRow] at h
  split at h
  · split at h
    · exact ⟨[], List.mem_singleton.1 h⟩
    · cases h
  · obtain ⟨partner, -, rfl⟩ := List.mem_map.1 h
    exact ⟨partner, rfl⟩

/-- Conditions on columns of a table, which are named with or without the table in front. -/
def AreAbout (conditions : List Condition) (table : String) : Prop :=
  ∀ c ∈ conditions, ∃ column, Dotless column ∧
    (c.column = column ∨ c.column = qualifiedName table column)

variable {conditions : List Condition} (about : AreAbout conditions table)
  (hOther : Dotless clause.table) (different : clause.table ≠ table)
include about hOther different

/-- Conditions on columns of a table hold of a joined row if they hold of the row of the table. -/
theorem holdAll_together {row : Row} (plain : row.Plain table) (partner : Row) :
    holdAll conditions table (Row.together table row clause.table partner) =
      holdAll conditions table row := by
  rw [Bool.eq_iff_iff, holdAll, holdAll, List.all_eq_true, List.all_eq_true]
  apply forall₂_congr
  intro c hc
  obtain ⟨column, hColumn, named⟩ := about c hc
  rw [Condition.holds, Condition.holds, plain.lookup_together hOther different hColumn named,
    plain.lookup_eq_get? hColumn named]

/-- Of the joined rows of one row all fulfil the conditions, or none. -/
theorem JoinClause.filter_joinedRow (right : List Row) {row : Row} (plain : row.Plain table) :
    (clause.joinedRow table right row).filter (holdAll conditions table) =
      if holdAll conditions table row then clause.joinedRow table right row else [] := by
  have same : ∀ joined ∈ clause.joinedRow table right row,
      holdAll conditions table joined = holdAll conditions table row := by
    intro joined h
    obtain ⟨partner, rfl⟩ := eq_together_of_mem h
    exact holdAll_together about hOther different plain partner
  split
  · next holds =>
    apply List.filter_eq_self.2
    intro joined h
    rw [same joined h, holds]
  · next holds =>
    apply List.filter_eq_nil_iff.2
    intro joined h
    rwa [same joined h]

/-- Rows that are joined after they were chosen are those that are chosen after they were joined. -/
theorem JoinClause.joined_filter (right : List Row) {left : List Row}
    (plain : ∀ row ∈ left, row.Plain table) :
    clause.joined table (left.filter (holdAll conditions table)) right =
      (clause.joined table left right).filter (holdAll conditions table) := by
  induction left with
  | nil => rfl
  | cons row left ih =>
    rw [List.forall_mem_cons] at plain
    have ofRow := filter_joinedRow about hOther different right plain.1
    have ofOthers := ih plain.2
    rw [joined, joined] at ofOthers
    rw [joined, joined, List.flatMap_cons, List.filter_append, ofRow, ← ofOthers, List.filter_cons]
    split <;> rfl

end Sql

namespace Store.Table

/-- Neither the name of a table nor those of its columns have dots. -/
def Plain (t : Table) : Prop := Dotless t.name ∧ ∀ n ∈ t.schema.columnNames, Dotless n

instance (t : Table) : Decidable t.Plain :=
  inferInstanceAs (Decidable (Dotless t.name ∧ ∀ n ∈ t.schema.columnNames, Dotless n))

/-- A row of a table: a plain row of its columns. -/
structure PlainRow (t : Table) (row : Row) : Prop extends row.Plain t.name where
  names_eq : row.names = t.schema.columnNames

theorem Consistent.plainRow {t : Table} (h : t.Consistent) (plain : t.Plain) {row : Row}
    (hrow : row ∈ t.rows) : t.PlainRow row :=
  have names := h.names_eq hrow
  ⟨⟨plain.1, h.names_nodup hrow, names ▸ plain.2⟩, names⟩

/-- In a row of a consistent table, each column has its cell. -/
theorem Consistent.get?_eq_get {t : Table} (h : t.Consistent) {row : Row} (hrow : row ∈ t.rows)
    {column : String} (hc : column ∈ t.schema.columnNames) :
    row.get? column = some (row.get column) :=
  Row.get?_eq_get (h.names_eq hrow ▸ hc)

/-- **Filtering before a join is filtering after it.** The rows of a table that fulfil conditions on
its columns, joined with those of another table, are the joined rows that fulfil these conditions.
-/
theorem joined_filter_arises {L R : Table} (left : L.Arises) (plain : L.Plain) (right : R.Plain)
    (different : R.name ≠ L.name) {clause : Sql.JoinClause} (joins : clause.table = R.name)
    {conditions : List Sql.Condition} (about : Sql.AreAbout conditions L.name) :
    clause.joined L.name (L.rows.filter (Sql.holdAll conditions L.name)) R.rows =
      (clause.joined L.name L.rows R.rows).filter (Sql.holdAll conditions L.name) := by
  apply Sql.JoinClause.joined_filter about
  · rw [joins]
    exact right.1
  · rwa [joins]
  · intro row h
    exact (left.consistent.plainRow plain h).toPlain

/-- People, of whom some have a boss. -/
def people : Schema :=
  .ofColumns "people" [⟨"id", .number, false, true, false, none⟩, .plain "boss" .number]

/-- Notes on people. -/
def notes : Schema := .ofColumns "notes" [.plain "id" .number, .plain "note" .string]

/-- The first person has no boss, and nobody is the boss of the second one. -/
def peopleHistory : List Mutation :=
  [.insert [("id", .number ⟨0x3FF0000000000000⟩)],
   .insert [("id", .number ⟨0x4000000000000000⟩), ("boss", .number ⟨0x3FF0000000000000⟩)],
   .insert [("id", .number ⟨0x4008000000000000⟩), ("boss", .number ⟨0x4000000000000000⟩)]]

/-- Two notes are on nobody. -/
def notesHistory : List Mutation :=
  [.insert [("note", .string "a")],
   .insert [("id", .number ⟨0x3FF0000000000000⟩), ("note", .string "b")],
   .insert [("note", .string "c")]]

/-- A left join in which NULL agrees with NULL. One condition is on a column that only the other
table has, and reads NULL there as before the join. -/
theorem joined_filter_people :
    let L := (ofSchema { people with primaryKey := some "id" }).afterAll peopleHistory
    let R := (ofSchema notes).afterAll notesHistory
    let clause : Sql.JoinClause := ⟨.left, "notes", "boss", "id"⟩
    let conditions : List Sql.Condition :=
      [⟨"note", .eq, .null⟩, ⟨"people.boss", .ne, .number ⟨0x3FF0000000000000⟩⟩]
    L.Arises ∧ Sql.AreAbout conditions "people" ∧
      clause.joined "people" (L.rows.filter (Sql.holdAll conditions "people")) R.rows =
        (clause.joined "people" L.rows R.rows).filter (Sql.holdAll conditions "people") ∧
      (clause.joined "people" L.rows R.rows).length = 4 ∧
      (clause.joined "people" (L.rows.filter (Sql.holdAll conditions "people")) R.rows).map
        (·.get "notes.note") = [.string "a", .string "c", .null] := by
  intro L R clause conditions
  have arises : L.Arises := ⟨people, _, peopleHistory, by decide, rfl⟩
  have about : Sql.AreAbout conditions "people" := by
    intro c hc
    simp only [conditions, List.mem_cons, List.not_mem_nil, or_false] at hc
    obtain rfl | rfl := hc
    · exact ⟨"note", by decide, .inl rfl⟩
    · exact ⟨"boss", by decide, .inr rfl⟩
  have dots : L.Plain ∧ R.Plain := by decide
  refine ⟨arises, about, ?_, by decide, by decide⟩
  exact joined_filter_arises arises dots.1 dots.2 (by decide) rfl about

end Store.Table
end PocketSql
