import PocketSql.Proofs.Query.Naming
import PocketSql.Proofs.Query.Selection

/-!
# The columns of a join

Each cell of a joined row is under the name of its table and its column. Where texts lead to, tables
have words for names, so these names tell the columns of two different tables apart, whatever the
columns are named. A table that is joined with itself has one name on both sides: then the cells of
the row from the right are written over those of the row from the left.

## Main definitions

* `Store.Table.Carried` — a row has the cells of a row of a table, under the names of its columns.
* `Sql.JoinClause.Keeps` — a joined row has the cells of both rows, and a row without partner is
  seen to be one.
* `Engine.Joins` — what a join shows, and how.

## Main results

* `Row.together_self` — what is left of two rows of one table.
* `Engine.execute_join` — a join of two tables keeps all cells, and a join of a table with itself
  keeps those of one side.
* `Engine.execute_join_self` — it does not keep those of both.
-/

namespace PocketSql

open Store (Database Table)
open Sql (Condition JoinClause)

namespace Row

variable {table : String} {row other joined : Row}

/-! ## Names that are there -/

/-- Cells under names that are there add no names. -/
theorem names_addQualified_of_mem (h : ∀ c ∈ row.names, qualifiedName table c ∈ joined.names) :
    (joined.addQualified table row).names = joined.names := by
  induction row generalizing joined with
  | nil => rfl
  | cons cell row ih =>
    rw [names, List.map_cons, List.forall_mem_cons] at h
    have first := names_set_of_mem h.1 cell.2
    refine Eq.trans (ih ?_) first
    rw [first]
    exact h.2

/-- Of two rows with the same names that are put together under the name of one table, the second
one is left. -/
theorem together_self (same : other.names = row.names) (nodup : row.names.Nodup) (table : String) :
    together table row table other = addQualified [] table other := by
  have cells (r : Row) (h : r.names.Nodup) : (addQualified [] table r).names =
      r.names.map (qualifiedName table) := by
    rw [addQualified_nil_eq_map h, names, names, List.map_map, List.map_map]
    rfl
  have nodup' : other.names.Nodup := same ▸ nodup
  have first := cells row nodup
  have second := cells other nodup'
  have whole : (together table row table other).names = row.names.map (qualifiedName table) := by
    rw [together, names_addQualified_of_mem, first]
    intro c hc
    rw [first, ← same]
    exact List.mem_map_of_mem hc
  apply ext_get?
  · rw [whole, second, same]
  · rw [whole]
    exact nodup.map fun c d => qualifiedName_right_inj.1
  · intro n hn
    rw [whole] at hn
    obtain ⟨c, hc, rfl⟩ := List.mem_map.1 hn
    rw [← same] at hc
    rw [together, get?_addQualified nodup', get?_addQualified nodup', get?_eq_get hc,
      Option.some_or, Option.some_or]

end Row

/-! ## What is kept -/

namespace Store.Table

/-- A row has the cells of a row of the table, each under the name of its column together with that
of the table. -/
def Carried (t : Table) (row joined : Row) : Prop :=
  ∀ c ∈ t.schema.columns, joined.get? (qualifiedName t.name c.name) = some (row.get c.name)

variable {t : Table} {row : Row}

theorem rowAt_mem {j : Nat} (hrow : t.rows[j]? = some row) : t.rowAt j ∈ t.rows := by
  rw [rowAt, hrow]
  exact List.mem_of_getElem? hrow

end Store.Table

/-- A row that a join shows at a place keeps the cells of both rows, of as many columns as there are
in the tables, or those of the left row alone. The column of the join that is in the right table
tells which of them it is. -/
structure Sql.JoinClause.Keeps (clause : JoinClause) (L R : Table) (place : Place) (row : Row) :
    Prop where
  left : L.Carried (L.rowAt place.1) row
  right : ∀ j, place.2 = some j → R.Carried (R.rowAt j) row
  length_eq : row.length =
    L.schema.columns.length + if place.2.isSome then R.schema.columns.length else 0
  told_apart : (row.get? (qualifiedName R.name clause.right)).isSome = place.2.isSome

namespace Source

variable {L R : Table} {clause : JoinClause} {p : Row → Bool}

/-- The row of the right table at a place; there are no cells where a row is shown alone. -/
def partnerAt (R : Table) (place : Place) : Row := (place.2.map R.rowAt).getD []

/-- What is joined at a place. -/
def joinedAt (L R : Table) (place : Place) : Row :=
  Row.together L.name (L.rowAt place.1) R.name (partnerAt R place)

/-- A join shows what is joined at its places. -/
theorem joined_eq_map (named : R.name = clause.table) :
    clause.joined L.name (L.rows.filter p) R.rows =
      ((Source.mk L (some (clause, R))).places p).map (joinedAt L R) := by
  rw [JoinClause.joined, places, ← Table.map_rowAt_positions, List.flatMap_map, List.map_flatMap]
  apply List.flatMap_congr
  intro i _
  rw [joinedRow_eq_map, List.map_map, ← named]
  rfl

variable {place : Place}

/-- Where a table is joined, there are rows of both tables, or one without a partner. -/
theorem rowAt_mem_of_places (h : place ∈ (Source.mk L (some (clause, R))).places p) :
    L.rowAt place.1 ∈ L.rows ∧ ∀ j, place.2 = some j → R.rowAt j ∈ R.rows := by
  obtain ⟨l, hl, -, shown⟩ := mem_places.1 h
  refine ⟨Table.rowAt_mem hl, fun j there => ?_⟩
  rw [there] at shown
  obtain ⟨r, hr, -⟩ := shown
  exact Table.rowAt_mem hr

/-- What is known of the row of the right table, if there is one. -/
theorem partnerAt_spec (right : R.Consistent)
    (there : ∀ j, place.2 = some j → R.rowAt j ∈ R.rows) :
    (partnerAt R place).names.Nodup ∧
      (partnerAt R place).length = (if place.2.isSome then R.schema.columns.length else 0) ∧
      ∀ c ∈ R.schema.columnNames,
        (partnerAt R place).get? c = place.2.map fun j => (R.rowAt j).get c := by
  obtain ⟨i, _ | j⟩ := place
  · exact ⟨List.nodup_nil, rfl, fun _ _ => rfl⟩
  · have partner := there j rfl
    refine ⟨right.names_nodup partner, (right.rows_fit _ partner).length_eq, fun c hc => ?_⟩
    exact right.get?_eq_get partner hc

section
variable (left : L.Consistent)
  (there : L.rowAt place.1 ∈ L.rows ∧ ∀ j, place.2 = some j → R.rowAt j ∈ R.rows)
include left there

/-- A join of a table with itself keeps the cells of one row. -/
theorem joinedAt_self (same : R = L) :
    joinedAt L R place = L.qualified (L.rowAt (place.2.getD place.1)) := by
  subst same
  obtain ⟨hl, hr⟩ := there
  have alone {row : Row} (h : row ∈ R.rows) : Row.addQualified [] R.name row = R.qualified row := by
    rw [Row.addQualified_nil_eq_map (left.names_nodup h),
      R.map_qualifiedName (left.names_eq h) (left.names_nodup h)]
  obtain ⟨i, _ | j⟩ := place
  · exact alone hl
  · have partner := hr j rfl
    have same := (left.names_eq partner).trans (left.names_eq hl).symm
    exact (Row.together_self same (left.names_nodup hl) _).trans (alone partner)

variable (right : R.Consistent)
include right

/-- A join of two tables keeps the cells. -/
theorem keeps_joinedAt (hLeft : Dotless L.name) (hRight : Dotless R.name)
    (different : R.name ≠ L.name) (column : clause.right ∈ R.schema.columnNames) :
    clause.Keeps L R place (joinedAt L R place) := by
  have nodup := left.names_nodup there.1
  obtain ⟨nodup', length, cells⟩ := partnerAt_spec right there.2
  have second (c : String) (hc : c ∈ R.schema.columnNames) :
      (joinedAt L R place).get? (qualifiedName R.name c) =
        place.2.map fun j => (R.rowAt j).get c := by
    rw [joinedAt, Row.get?_together_right hLeft hRight different nodup', cells c hc]
  constructor
  case left =>
    intro c hc
    rw [joinedAt, Row.get?_together_left hLeft hRight different nodup]
    exact left.get?_eq_get there.1 (List.mem_map_of_mem hc)
  case right =>
    intro j partner c hc
    rw [second c.name (List.mem_map_of_mem hc), partner, Option.map_some]
  case length_eq =>
    rw [joinedAt, Row.together_eq_append hLeft hRight different nodup nodup', List.length_append,
      List.length_map, List.length_map, (left.rows_fit _ there.1).length_eq, length]
  case told_apart =>
    rw [second clause.right column, Option.isSome_map]

end

end Source

/-- A join that is computed is one with a table that has the column of the join. -/
theorem Execution.joinTables_ok {db : Database} {t : Table} {table : String} {clause : JoinClause}
    {rows joined : List Row} (h : joinTables db t table clause rows = .ok joined) :
    ∃ R, db.table clause.table = .ok R ∧ clause.right ∈ R.schema.columnNames ∧
      joined = clause.joined table rows R.rows := by
  rw [joinTables] at h
  split at h
  · cases h
  · next R hR =>
    split at h
    · cases h
    · split at h
      · cases h
      · next column =>
        rw [Bool.not_eq_true, Bool.not_eq_false'] at column
        exact ⟨R, hR, Store.Schema.hasColumn_iff.1 column, (Except.ok.inj h).symm⟩

namespace Engine

/-- A join shows rows at the places of the rows that fulfil the conditions, in their order; what it
shows there is told by a relation. -/
def Joins (e : Engine) (table : String) (clause : JoinClause) (conditions : List Condition)
    (Shows : Table → Table → Place → Row → Prop) : Prop :=
  ∃ L ∈ e.database.tables, ∃ R ∈ e.database.tables, L.name = table ∧ R.name = clause.table ∧
    ∃ places rows, e.execute (.select ["*"] table (some clause) conditions) = (.ofRows rows, e) ∧
      places.Pairwise Precedes ∧
      (∀ i other, (i, other) ∈ places ↔ ∃ l, L.rows[i]? = some l ∧
        Sql.holdAll conditions L.name l = true ∧
        (Source.mk L (some (clause, R))).ShownWith l other) ∧
      List.Forall₂ (Shows L R) places rows

variable {e : Engine} {table : String} {clause : JoinClause} {conditions : List Condition}

/-- A join that is answered is one of tables that are there, and shows all that is joined. -/
theorem tables_of_join
    (success : (e.execute (.select ["*"] table (some clause) conditions)).1.success = true) :
    ∃ L R, e.database.table table = .ok L ∧ e.database.table clause.table = .ok R ∧
      clause.right ∈ R.schema.columnNames ∧
      e.execute (.select ["*"] table (some clause) conditions) =
        (.ofRows (clause.joined table (L.rows.filter (Sql.holdAll conditions table)) R.rows),
          e) := by
  have whole : Execution.project ["*"] [table, clause.table] = id := by
    funext row
    rfl
  cases hL : e.database.table table with
  | error error =>
    simp [execute, Database.execute, Execution.selectRows, hL, Except.map,
      QueryResult.ofStoreError] at success
  | ok L =>
    cases joined : Execution.joinTables e.database L table clause
        (L.rows.filter (Sql.holdAll conditions table)) with
    | error error =>
      simp [execute, Database.execute, Execution.selectRows, hL, joined, Except.map,
        QueryResult.ofStoreError] at success
    | ok rows =>
      have answer : e.execute (.select ["*"] table (some clause) conditions) =
          (.ofRows rows, e) := by
        simp only [execute, Database.execute, Execution.selectRows, hL, joined, whole, List.map_id,
          Except.map]
      obtain ⟨R, hR, column, rfl⟩ := Execution.joinTables_ok joined
      exact ⟨L, R, rfl, hR, column, answer⟩

/-- A join that is answered shows what is joined at its places. -/
theorem joins_of_success
    (success : (e.execute (.select ["*"] table (some clause) conditions)).1.success = true)
    {Shows : Table → Table → Place → Row → Prop}
    (shows : ∀ L ∈ e.database.tables, ∀ R ∈ e.database.tables, ∀ place, L.name = table →
      R.name = clause.table → clause.right ∈ R.schema.columnNames →
      (L.rowAt place.1 ∈ L.rows ∧ ∀ j, place.2 = some j → R.rowAt j ∈ R.rows) →
      Shows L R place (Source.joinedAt L R place)) :
    e.Joins table clause conditions Shows := by
  obtain ⟨L, R, hL, hR, column, answer⟩ := tables_of_join success
  obtain ⟨memL, rfl⟩ := Database.mem_of_table hL
  obtain ⟨memR, named⟩ := Database.mem_of_table hR
  rw [Source.joined_eq_map named] at answer
  refine ⟨L, memL, R, memR, rfl, named,
    (Source.mk L (some (clause, R))).places (Sql.holdAll conditions L.name), _, answer,
    Source.pairwise_places _ _, fun _ _ => Source.mem_places, ?_⟩
  rw [List.forall₂_map_right_iff, List.forall₂_same]
  intro place hplace
  exact shows L memL R memR place rfl named column (Source.rowAt_mem_of_places hplace)

/-- **The columns of a join.** A join of two different tables shows the cells of both rows, each
under the name of its table and its column, and a row that has no partner is seen to be one. A join
of a table with itself shows of two rows the one from the right only, as it shows a row without
partner. -/
theorem execute_join (reached : e.Reached)
    (success : (e.execute (.select ["*"] table (some clause) conditions)).1.success = true) :
    (clause.table ≠ table → e.Joins table clause conditions clause.Keeps) ∧
      (clause.table = table → e.Joins table clause conditions fun L _ place row =>
        row = L.qualified (L.rowAt (place.2.getD place.1))) := by
  have consistent := reached.consistent
  have tables := consistent.tables_consistent
  have words := reached.isWord_name
  constructor
  · intro different
    apply joins_of_success success
    rintro L hL R hR place rfl named column there
    rw [← named] at different
    exact Source.keeps_joinedAt (tables L hL) there (tables R hR) (words L hL).dot_not_mem
      (words R hR).dot_not_mem different column
  · intro same
    apply joins_of_success success
    rintro L hL R hR place rfl named column there
    have one : R = L := List.inj_on_of_nodup_map consistent.names_nodup hR hL (named.trans same)
    exact Source.joinedAt_self (tables L hL) there one

/-- Two people, of whom the second one is the boss of the first one. -/
def employees : Table where
  schema := .ofColumns "t" [.plain "id" .number, .plain "boss" .number]
  rows :=
    [[("id", .number ⟨0x3FF0000000000000⟩), ("boss", .number ⟨0x4000000000000000⟩)],
      [("id", .number ⟨0x4000000000000000⟩), ("boss", .null)]]
  indexes := []

/-- The people who are away. -/
def away : Table where
  schema := .ofColumns "away" [.plain "id" .number]
  rows := [[("id", .number ⟨0x4000000000000000⟩)]]
  indexes := []

def staff : Engine := ⟨.warn, ⟨[employees, away]⟩⟩

theorem reached_staff : staff.Reached :=
  ⟨.warn,
    [.script "CREATE TABLE t (id int, boss int); INSERT INTO t VALUES (1, 2), (2, NULL)",
      .script "CREATE TABLE away (id int); INSERT INTO away VALUES (2)"],
    by decide +kernel⟩

/-- People with their bosses who are away. One row has a partner and the other one has none. -/
theorem execute_join_staff :
    let clause : JoinClause := ⟨.left, "away", "boss", "id"⟩
    let answer := staff.execute (.select ["*"] "t" (some clause) [])
    staff.Reached ∧ answer.1.success = true ∧ staff.Joins "t" clause [] clause.Keeps ∧
      answer.1.rows = some
        [[("t.id", .number ⟨0x3FF0000000000000⟩), ("t.boss", .number ⟨0x4000000000000000⟩),
            ("away.id", .number ⟨0x4000000000000000⟩)],
          [("t.id", .number ⟨0x4000000000000000⟩), ("t.boss", .null)]] := by
  intro clause answer
  have success : answer.1.success = true := by decide +kernel
  have different : clause.table ≠ "t" := by decide
  have keeps := (execute_join reached_staff success).1 different
  exact ⟨reached_staff, success, keeps, by decide +kernel⟩

/-- Not every join keeps the cells of both rows: in a join of people with their bosses, the row of a
person with a boss has only as many cells as one of the two. -/
theorem execute_join_self :
    ¬ ∀ (e : Engine) (table : String) (clause : JoinClause) (conditions : List Condition),
      e.Reached → (e.execute (.select ["*"] table (some clause) conditions)).1.success = true →
        e.Joins table clause conditions clause.Keeps := by
  intro all
  have answered : staff.execute (.select ["*"] "t" (some ⟨.left, "t", "boss", "id"⟩) []) =
      (.ofRows
        [[("t.id", .number ⟨0x4000000000000000⟩), ("t.boss", .null)],
          [("t.id", .number ⟨0x4000000000000000⟩), ("t.boss", .null)]], staff) := by
    decide +kernel
  have only : ∀ t ∈ staff.database.tables, t.name = "t" → t = employees := by decide +kernel
  obtain ⟨L, hL, R, hR, left, right, places, rows, answer, -, mem, keeps⟩ :=
    all staff "t" ⟨.left, "t", "boss", "id"⟩ [] reached_staff (by rw [answered]; rfl)
  obtain rfl := only L hL left
  obtain rfl := only R hR right
  rw [answered] at answer
  obtain rfl := Option.some.inj (congrArg (·.1.rows) answer)
  have pair : (0, some 1) ∈ places := (mem 0 (some 1)).2 ⟨_, rfl, rfl, _, rfl, by decide⟩
  -- there are two places, and one of them is that of the pair; but no row has cells for two people
  cases keeps with
  | cons first keeps =>
    cases keeps with
    | cons second keeps =>
      cases keeps
      obtain rfl | mem := List.mem_cons.1 pair
      · exact absurd first.length_eq (by decide)
      · obtain rfl := List.mem_singleton.1 mem
        exact absurd second.length_eq (by decide)

end Engine
end PocketSql
