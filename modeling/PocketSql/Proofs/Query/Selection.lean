import PocketSql.Proofs.Query.Effects
import PocketSql.Proofs.Query.Resolution
import PocketSql.Proofs.Sql.Words

/-!
# The meaning of a SELECT

A SELECT shows rows of a table, or rows of two tables that agree in the columns of a JOIN. Which rows
it shows is told by their places: the position of a row of the first table, and that of the row of
the joined table which it is shown with. What it shows of them is told by the schemas.

## Main definitions

* `Source` — a table, and maybe another one that is joined to it.
* `Source.ShownWith` — whether a row of the first table is shown with one of the other table.
* `Source.rowAt` — what is shown at a place.

## Main results

* `Engine.execute_select` — a SELECT answers with the rows at its places, in their order.
-/

namespace PocketSql

open Store (Database Table)
open Sql (Condition JoinClause Statement)

/-- Whether two rows agree in the columns of a join; NULL agrees with NULL. -/
def Sql.JoinClause.agrees (clause : JoinClause) (l r : Row) : Bool :=
  (l.get clause.left).same (r.get clause.right)

namespace Store.Table

/-- The row at a position; there are no cells where there is no row. -/
def rowAt (t : Table) (i : Nat) : Row := t.rows[i]?.getD []

/-- A row fulfils conditions, where each of them is about the column that the schema knows by the
reference, and about NULL if there is none. -/
def Fulfils (t : Table) (conditions : List Condition) (row : Row) : Prop :=
  ∀ c ∈ conditions, c.op.holds ((t.read? row c.column).getD .null) c.value = true

variable {t : Table} {p : Row → Bool}

theorem map_rowAt_positions (t : Table) (p : Row → Bool) :
    (t.positions p).map t.rowAt = t.rows.filter p := by
  have there : ∀ i ∈ t.positions p, t.rows[i]? = some (t.rowAt i) := by
    intro i hi
    obtain ⟨row, hrow, -⟩ := mem_positions.1 hi
    rw [rowAt, hrow, Option.getD_some]
  rw [← filterMap_positions, List.filterMap_congr there, List.filterMap_eq_map']

theorem positions_sorted (t : Table) (p : Row → Bool) : (t.positions p).Pairwise (· < ·) := by
  have sorted : (t.rows.zipIdx.map (·.2)).Pairwise (· < ·) := by
    rw [List.zipIdx_map_snd]
    exact List.pairwise_lt_range'
  exact sorted.sublist (List.filter_sublist.map _)

theorem Consistent.plainRow_rowAt (h : t.Consistent) (plain : t.Plain) {i : Nat} {row : Row}
    (hi : t.rows[i]? = some row) : t.PlainRow (t.rowAt i) := by
  rw [rowAt, hi]
  exact h.plainRow plain (List.mem_of_getElem? hi)

theorem PlainRow.holdAll_iff_fulfils {row : Row} (h : t.PlainRow row)
    (conditions : List Condition) :
    Sql.holdAll conditions t.name row = true ↔ t.Fulfils conditions row := by
  rw [Sql.holdAll, List.all_eq_true]
  apply forall₂_congr
  intro c _
  rw [Condition.holds, h.lookup_eq_read?]

end Store.Table

/-! ## Places -/

/-- What a SELECT takes its rows from: a table, and the clause and the other table of a JOIN if
there is one. -/
structure Source where
  table : Table
  join : Option (JoinClause × Table)

/-- The places of rows that are shown: a position in the first table, and one in the joined table if
the row is not shown alone. -/
abbrev Place := Nat × Option Nat

/-- The order of places: by the first position, and by the second one where the first is the same.
-/
def Precedes (a b : Place) : Prop :=
  a.1 < b.1 ∨ a.1 = b.1 ∧ ∃ j k, a.2 = some j ∧ b.2 = some k ∧ j < k

namespace Source

variable {src : Source}

/-- Whether a row of the first table is shown with the row at a position of the joined table: with
each that agrees with it. It is shown alone in a left join if none agrees, and if there is no JOIN.
-/
def ShownWith (src : Source) (l : Row) (other : Option Nat) : Prop :=
  match src.join, other with
  | none, other => other = none
  | some (clause, R), some j => ∃ r, R.rows[j]? = some r ∧ clause.agrees l r = true
  | some (clause, R), none => clause.kind = .left ∧ ∀ r ∈ R.rows, clause.agrees l r = false

/-- What is shown at a place. The whole row has the plain names of a table that stands alone in the
SELECT; in a JOIN, the names of all columns come with their tables. -/
def rowAt (src : Source) (columns : List String) (place : Place) : Row :=
  let l := src.table.rowAt place.1
  match src.join with
  | none => shown columns l (valueOf src.table l none)
  | some (_, R) =>
    let other := place.2.map R.rowAt
    shown columns (src.table.qualified l ++ other.elim [] R.qualified)
      (valueOf src.table l (other.map fun r => (R, r)))

/-- The positions in the joined table that a row is shown with. -/
def others (src : Source) (l : Row) : List (Option Nat) :=
  match src.join with
  | none => [none]
  | some (clause, R) =>
    if clause.kind = .left ∧ R.positions (clause.agrees l) = [] then [none]
    else (R.positions (clause.agrees l)).map some

/-- The places of the rows that fulfil a predicate. -/
def places (src : Source) (p : Row → Bool) : List Place :=
  (src.table.positions p).flatMap fun i =>
    (src.others (src.table.rowAt i)).map fun other => (i, other)

theorem others_joined (table : Table) (clause : JoinClause) (R : Table) (l : Row) :
    (Source.mk table (some (clause, R))).others l =
      if clause.kind = .left ∧ R.positions (clause.agrees l) = [] then [none]
      else (R.positions (clause.agrees l)).map some := rfl

theorem mem_others {l : Row} {other : Option Nat} :
    other ∈ src.others l ↔ src.ShownWith l other := by
  obtain ⟨table, _ | ⟨clause, R⟩⟩ := src
  · exact List.mem_singleton
  · rw [others_joined]
    split
    · next alone =>
      cases other with
      | none => simpa [ShownWith, alone.1] using Table.positions_eq_nil_iff.1 alone.2
      | some j => simp [ShownWith, ← Table.mem_positions, alone.2]
    · next alone =>
      cases other with
      | none => simpa [ShownWith, Table.positions_eq_nil_iff] using alone
      | some j => simp [ShownWith, ← Table.mem_positions]

theorem pairwise_others (src : Source) (l : Row) :
    (src.others l).Pairwise fun a b => ∃ j k, a = some j ∧ b = some k ∧ j < k := by
  obtain ⟨table, _ | ⟨clause, R⟩⟩ := src
  · exact List.pairwise_singleton _ _
  · rw [others_joined]
    split
    · exact List.pairwise_singleton _ _
    · rw [List.pairwise_map]
      apply (R.positions_sorted _).imp
      intro j k h
      exact ⟨j, k, rfl, rfl, h⟩

/-- The places are in order. -/
theorem pairwise_places (src : Source) (p : Row → Bool) : (src.places p).Pairwise Precedes := by
  rw [places, List.pairwise_flatMap]
  constructor
  · intro i _
    rw [List.pairwise_map]
    apply (pairwise_others src _).imp
    intro a b h
    exact .inr ⟨rfl, h⟩
  · apply (src.table.positions_sorted p).imp
    intro i k h a ha b hb
    obtain ⟨_, -, rfl⟩ := List.mem_map.1 ha
    obtain ⟨_, -, rfl⟩ := List.mem_map.1 hb
    exact .inl h

theorem mem_places {p : Row → Bool} {i : Nat} {other : Option Nat} :
    (i, other) ∈ src.places p ↔
      ∃ l, src.table.rows[i]? = some l ∧ p l = true ∧ src.ShownWith l other := by
  have here (k : Nat) :
      (i, other) ∈ (src.others (src.table.rowAt k)).map (fun other => (k, other)) ↔
        k = i ∧ src.ShownWith (src.table.rowAt k) other := by
    rw [← mem_others]
    simp [and_comm]
  simp only [places, List.mem_flatMap, here, Table.mem_positions]
  constructor
  · rintro ⟨k, ⟨l, hl, hp⟩, rfl, shown⟩
    rw [Table.rowAt, hl] at shown
    exact ⟨l, hl, hp, shown⟩
  · rintro ⟨l, hl, hp, shown⟩
    refine ⟨i, ⟨l, hl, hp⟩, rfl, ?_⟩
    rwa [Table.rowAt, hl]

end Source

/-! ## The rows of a SELECT -/

namespace Source

/-- A JOIN between two different tables of a database, by columns that they have. -/
structure Joinable (db : Database) (L : Table) (clause : JoinClause) (R : Table) : Prop where
  mem : R ∈ db.tables
  plain : R.Plain
  named : clause.table = R.name
  different : R.name ≠ L.name
  left_column : clause.left ∈ L.schema.columnNames
  right_column : clause.right ∈ R.schema.columnNames

/-- The tables of a SELECT are those of a database, and no name has dots. -/
structure Within (src : Source) (db : Database) : Prop where
  mem : src.table ∈ db.tables
  plain : src.table.Plain
  joinable : ∀ clause R, src.join = some (clause, R) → Joinable db src.table clause R

/-- The joined rows of a row are those of the positions that it is shown with. -/
theorem joinedRow_eq_map (table : Table) (clause : JoinClause) (R : Table) (l : Row) :
    clause.joinedRow table.name R.rows l =
      ((Source.mk table (some (clause, R))).others l).map fun other =>
        Row.together table.name l clause.table ((other.map R.rowAt).getD []) := by
  have partners : clause.partners R.rows l = (R.positions (clause.agrees l)).map R.rowAt :=
    (R.map_rowAt_positions _).symm
  rw [others_joined, JoinClause.joinedRow, partners]
  cases R.positions (clause.agrees l) with
  | nil => cases clause.kind <;> rfl
  | cons j js => simp [Row.together]

variable {db : Database} {src : Source} {columns : List String}

/-- The rows that are shown for one row of the first table. -/
theorem map_others (consistent : db.Consistent) (within : src.Within db)
    (selectable : AreSelectable columns) {clause : JoinClause} {R : Table}
    (joins : src.join = some (clause, R)) {p : Row → Bool} {i : Nat}
    (hi : i ∈ src.table.positions p) :
    (clause.joinedRow src.table.name R.rows (src.table.rowAt i)).map
        (Execution.project columns [src.table.name, clause.table]) =
      (src.others (src.table.rowAt i)).map fun other => src.rowAt columns (i, other) := by
  obtain ⟨table, join⟩ := src
  obtain rfl : join = some (clause, R) := joins
  obtain ⟨mem, plain, named, different, -, -⟩ := within.joinable clause R rfl
  obtain ⟨l, hl, -⟩ := Table.mem_positions.1 hi
  rw [joinedRow_eq_map, List.map_map]
  apply List.map_congr_left
  intro other hother
  rw [Function.comp_apply, named]
  have left := (consistent.tables_consistent table within.mem).plainRow_rowAt within.plain hl
  refine Execution.project_together selectable left plain.1 different ?_
  intro r hr
  obtain ⟨j, rfl, rfl⟩ := Option.map_eq_some_iff.1 hr
  obtain ⟨partner, hpartner, -⟩ := mem_others.1 hother
  exact (consistent.tables_consistent R mem).plainRow_rowAt plain hpartner

theorem map_places (src : Source) (p : Row → Bool) (columns : List String) :
    (src.places p).map (src.rowAt columns) =
      (src.table.positions p).flatMap fun i =>
        (src.others (src.table.rowAt i)).map fun other => src.rowAt columns (i, other) := by
  rw [places, List.map_flatMap]
  simp only [List.map_map, Function.comp_def]

/-- A SELECT computes the rows at its places. -/
theorem selectRows_eq (consistent : db.Consistent) (within : src.Within db)
    (selectable : AreSelectable columns) (conditions : List Condition) :
    Execution.selectRows db columns src.table.name (src.join.map (·.1)) conditions =
      .ok ((src.places (Sql.holdAll conditions src.table.name)).map (src.rowAt columns)) := by
  have table {t : Table} (h : t ∈ db.tables) : db.table t.name = .ok t :=
    consistent.table_eq_ok_iff.2 ⟨h, rfl⟩
  rw [Execution.selectRows, table within.mem, map_places]
  dsimp only
  rw [← Table.map_rowAt_positions]
  cases joins : src.join with
  | none =>
    dsimp only [Option.map_none]
    rw [List.map_map, List.map_eq_flatMap]
    refine congrArg Except.ok (List.flatMap_congr fun i hi => ?_)
    obtain ⟨row, hrow, -⟩ := Table.mem_positions.1 hi
    have plain := (consistent.tables_consistent _ within.mem).plainRow_rowAt within.plain hrow
    simp [others, rowAt, joins, Execution.project_plain plain]
  | some joined =>
    obtain ⟨clause, R⟩ := joined
    obtain ⟨mem, plain, named, different, left, right⟩ := within.joinable clause R joins
    dsimp only [Option.map_some]
    rw [Execution.joinTables, named, table mem]
    simp only [Store.Schema.hasColumn_iff.2 left, Store.Schema.hasColumn_iff.2 right, Bool.not_true,
      Bool.false_eq_true, if_false]
    rw [JoinClause.joined, List.flatMap_map, List.map_flatMap, ← named]
    refine congrArg Except.ok (List.flatMap_congr fun i hi => ?_)
    exact map_others consistent within selectable joins hi

/-- The SELECT of some columns of the rows that fulfil conditions. -/
def select (src : Source) (columns : List String) (conditions : List Condition) : Statement :=
  .select columns src.table.name (src.join.map (·.1)) conditions

end Source

namespace Sql

/-- A statement that a text is, or that is one of the statements of a script. -/
def IsWritten (s : Statement) : Prop :=
  ∃ text, parse text = .ok s ∨ ∃ ss, parseScript text = .ok ss ∧ s ∈ ss

theorem IsWritten.standsIn {s : Statement} (h : IsWritten s) : ∃ text, StandsIn s text := by
  obtain ⟨text, whole | ⟨ss, script, mem⟩⟩ := h
  · exact ⟨text, standsIn_of_parse whole⟩
  · exact ⟨text, standsIn_of_parseScript script mem⟩

theorem OfWords.properReference {r : String} (h : OfWords r) : ProperReference r := by
  obtain word | ⟨table, column, first, second, rfl⟩ := h
  · exact .inl word.dot_not_mem
  · exact .inr ⟨table, column, first.dot_not_mem, second.dot_not_mem, rfl⟩

/-- Whatever columns a text asks for, they are selectable. -/
theorem IsWritten.selectable {columns : List String} {table : String} {join : Option JoinClause}
    {conditions : List Condition} (h : IsWritten (.select columns table join conditions)) :
    AreSelectable columns := by
  obtain ⟨text, standsIn⟩ := h.standsIn
  obtain rfl | each := standsIn.columns_of_select
  · exact .inl rfl
  · exact .inr fun r hr => (each r hr).properReference

end Sql

namespace Engine

variable {e : Engine} {src : Source} {columns : List String} {conditions : List Condition}

/-- **The meaning of a SELECT.** It answers with the rows at its places, in their order, and counts
them. A place is one of a row of the first table that fulfils the conditions, together with one that
the row is shown with. This holds for whatever columns a text can ask for. -/
theorem execute_select (reachable : e.Reachable) (within : src.Within e.database)
    (asked : AreSelectable columns ∨ Sql.IsWritten (src.select columns conditions)) :
    ∃ places : List Place,
      e.execute (src.select columns conditions) =
          (.ofRows (places.map (src.rowAt columns)), e) ∧
        (e.execute (src.select columns conditions)).1.rowCount = some places.length ∧
        places.Pairwise Precedes ∧
        ∀ i other, (i, other) ∈ places ↔
          ∃ l, src.table.rows[i]? = some l ∧ src.table.Fulfils conditions l ∧
            src.ShownWith l other := by
  have consistent := reachable.consistent
  have selectable : AreSelectable columns := asked.elim id Sql.IsWritten.selectable
  have answer : e.execute (src.select columns conditions) =
      (.ofRows ((src.places (Sql.holdAll conditions src.table.name)).map (src.rowAt columns)),
        e) := by
    rw [execute, Source.select, Database.execute,
      Source.selectRows_eq consistent within selectable conditions]
    rfl
  refine ⟨_, answer, ?_, src.pairwise_places _, fun i other => ?_⟩
  · rw [answer, QueryResult.ofRows, List.length_map]
  · rw [Source.mem_places]
    apply exists_congr
    intro l
    apply and_congr_right
    intro hl
    have table := consistent.tables_consistent src.table within.mem
    rw [(table.plainRow within.plain (List.mem_of_getElem? hl)).holdAll_iff_fulfils]

/-- An engine with people, of whom the first one has no boss, and with notes, of which two are on
nobody. -/
def peopleEngine : Engine :=
  ((ofPolicy .warn).executeAll
    [.createTable "people" false
       [⟨"id", "int", true, false, true, none⟩, ⟨"boss", "int", false, false, false, none⟩],
     .createTable "notes" false
       [⟨"id", "int", false, false, false, none⟩, ⟨"note", "text", false, false, false, none⟩],
     .insert "people" none
       [[.number ⟨0x3FF0000000000000⟩, .null],
        [.number ⟨0x4000000000000000⟩, .number ⟨0x3FF0000000000000⟩],
        [.number ⟨0x4008000000000000⟩, .number ⟨0x4000000000000000⟩]],
     .insert "notes" none
       [[.null, .string "a"], [.number ⟨0x3FF0000000000000⟩, .string "b"],
        [.null, .string "c"]]]).2

/-- People with the notes on their bosses. -/
def peopleSource : Source where
  table := (Table.ofSchema { Table.people with primaryKey := some "id" }).afterAll
    Table.peopleHistory
  join := some (⟨.left, "notes", "boss", "id"⟩,
    (Table.ofSchema Table.notes).afterAll Table.notesHistory)

/-- The columns `id` are in both tables, `note` in the joined one only, and `x.y` in none. -/
def peopleColumns : List String := ["id", "notes.id", "note", "x.y"]

/-- The first condition is on a column that the first table does not have. -/
def peopleConditions : List Condition :=
  [⟨"note", .eq, .null⟩, ⟨"people.boss", .ne, .number ⟨0x3FF0000000000000⟩⟩]

/-- The first person is shown with two notes, as NULL agrees with NULL, and the third one alone. -/
theorem execute_select_people :
    peopleEngine.Reachable ∧ peopleSource.Within peopleEngine.database ∧
      Sql.IsWritten (peopleSource.select peopleColumns peopleConditions) ∧
      (∃ places : List Place,
        peopleEngine.execute (peopleSource.select peopleColumns peopleConditions) =
            (.ofRows (places.map (peopleSource.rowAt peopleColumns)), peopleEngine) ∧
          places.Pairwise Precedes) ∧
      (peopleEngine.execute (peopleSource.select peopleColumns peopleConditions)).1.rows = some
        [[("id", .number ⟨0x3FF0000000000000⟩), ("notes.id", .null), ("note", .string "a"),
          ("x.y", .null)],
         [("id", .number ⟨0x3FF0000000000000⟩), ("notes.id", .null), ("note", .string "c"),
          ("x.y", .null)],
         [("id", .number ⟨0x4008000000000000⟩), ("notes.id", .null), ("note", .null),
          ("x.y", .null)]] := by
  have reachable : peopleEngine.Reachable := ⟨.warn, _, rfl⟩
  have tables : peopleSource.table ∈ peopleEngine.database.tables ∧
      ∀ joined ∈ peopleSource.join, joined.2 ∈ peopleEngine.database.tables ∧
        peopleSource.table.Plain ∧ joined.2.Plain := by
    decide +kernel
  have within : peopleSource.Within peopleEngine.database := by
    refine ⟨tables.1, (tables.2 _ rfl).2.1, ?_⟩
    rintro clause R joined
    obtain ⟨rfl, rfl⟩ := Prod.mk.inj (Option.some.inj joined)
    exact ⟨(tables.2 _ rfl).1, (tables.2 _ rfl).2.2, rfl, by decide, by decide, by decide⟩
  have written : Sql.IsWritten (peopleSource.select peopleColumns peopleConditions) := by
    refine ⟨"SELECT id, notes.id, note, x.y FROM people LEFT JOIN notes ON " ++
      "notes.id = people.boss WHERE note = NULL AND people.boss != 1", .inl ?_⟩
    decide +kernel
  obtain ⟨places, answer, -, ordered, -⟩ := execute_select reachable within (.inr written)
  exact ⟨reachable, within, written, ⟨places, answer, ordered⟩, by decide +kernel⟩

end Engine
end PocketSql
