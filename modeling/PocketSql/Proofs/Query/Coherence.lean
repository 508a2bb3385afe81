import PocketSql.Proofs.Query.Agreement
import PocketSql.Proofs.Query.Provenance
import PocketSql.Proofs.Query.Selection

/-!
# Conditions on numbers

A condition compares a number with others for equality by its bits, and for order by its place. As
no NaN is stored or written, both come from one order of the numbers: of two numbers the first one is
less, equal or greater, and NULL is none of these.

## Main definitions

* `Sql.Comparison.ofPlaces` — a comparison of places.
* `Sql.Comparison.Trichotomy` — what the six comparisons say of one value.
* `Coherent` — what the six comparisons with one value select, against each other.

## Main results

* `Sql.Comparison.holds_number` — numbers are compared by their places.
* `Engine.coherent_where` — whatever texts are answered, conditions on a column of numbers are
  coherent.
-/

namespace PocketSql

open Store (Column Table)
open Sql (Comparison Condition)

/-! ## Comparisons -/

namespace Sql.Comparison

/-- Compare places in the order of numbers. -/
def ofPlaces (op : Comparison) (i j : Int) : Bool :=
  match op with
  | .eq => i = j
  | .ne => i ≠ j
  | .lt => i < j
  | .gt => j < i
  | .le => i ≤ j
  | .ge => j ≤ i

/-- Numbers are compared by their places, unless one of them is a NaN. -/
theorem holds_number {x y : Number} (hx : x.isNaN = false) (hy : y.isNaN = false)
    (op : Comparison) : op.holds (.number x) (.number y) = op.ofPlaces x.place y.place := by
  have order : (Value.number x).compare? (.number y) = some (compare x.place y.place) :=
    Number.compare?_of_not_nan hx hy
  rw [Bool.eq_iff_iff]
  cases op with
  | eq | ne => simp [holds, ofPlaces, Value.same, ← Number.same_iff_place_eq]
  | lt => simp [holds, order, ofPlaces, Ordering.isLT_iff_eq_lt, Std.compare_eq_lt]
  | gt => simp [holds, order, ofPlaces, Ordering.isGT_iff_eq_gt, Std.compare_eq_gt]
  | le => simp [holds, order, ofPlaces, Std.isLE_compare]
  | ge => simp [holds, order, ofPlaces, Std.isGE_compare]

/-- NULL is not equal to a number, and there is no order between them. -/
theorem holds_null (op : Comparison) (x : Number) :
    op.holds .null (.number x) = decide (op = .ne) := by
  cases op <;> rfl

/-- What the six comparisons say of a value, which may be NULL: one of `<`, `=` and `>` holds just
if it is not, and the others are told by these. -/
structure Trichotomy (null : Prop) (holds : Comparison → Bool) : Prop where
  lt_eq : ¬ (holds .lt ∧ holds .eq)
  lt_gt : ¬ (holds .lt ∧ holds .gt)
  eq_gt : ¬ (holds .eq ∧ holds .gt)
  not_null_iff : ¬ null ↔ holds .lt ∨ holds .eq ∨ holds .gt
  le_iff : holds .le ↔ holds .lt ∨ holds .eq
  ge_iff : holds .ge ↔ holds .eq ∨ holds .gt
  ne_iff : holds .ne ↔ ¬ holds .eq

theorem trichotomy_null (x : Number) : Trichotomy True fun op => op.holds .null (.number x) := by
  constructor <;> simp [holds_null]

theorem trichotomy_number {x y : Number} (hx : x.isNaN = false) (hy : y.isNaN = false) :
    Trichotomy False fun op => op.holds (.number y) (.number x) := by
  constructor <;>
    simp only [holds_number hy hx, ofPlaces, decide_eq_true_eq, not_false_eq_true, true_iff] <;>
    omega

end Sql.Comparison

/-! ## Coherent selections -/

/-- What the six comparisons of a column with a value select from rows. Each selects rows by what is
in them. A row is selected by one of `<`, `=` and `>` if the column is not NULL, and by none of them
otherwise; `<=` and `>=` select what two of them do, and `!=` what `=` does not. -/
structure Coherent (rows : List Row) (column : String) (select : Comparison → List Row) : Prop where
  rows_eq : ∀ op, select op = rows.filter (· ∈ select op)
  lt_eq : (select .lt).Disjoint (select .eq)
  lt_gt : (select .lt).Disjoint (select .gt)
  eq_gt : (select .eq).Disjoint (select .gt)
  not_null : rows.filter (fun row => row.get column ≠ .null) =
    rows.filter fun row => row ∈ select .lt ∨ row ∈ select .eq ∨ row ∈ select .gt
  le_eq : select .le = rows.filter fun row => row ∈ select .lt ∨ row ∈ select .eq
  ge_eq : select .ge = rows.filter fun row => row ∈ select .eq ∨ row ∈ select .gt
  ne_eq : select .ne = rows.filter (· ∉ select .eq)

/-- Comparisons of numbers with a number are coherent. -/
theorem coherent_of_numbers {rows : List Row} {column : String} {x : Number} (hx : x.isNaN = false)
    (numbers : ∀ row ∈ rows, row.get column = .null ∨
      ∃ y : Number, row.get column = .number y ∧ y.isNaN = false) :
    Coherent rows column fun op => rows.filter fun row =>
      op.holds (row.get column) (.number x) := by
  have facts : ∀ row ∈ rows, Comparison.Trichotomy (row.get column = .null)
      fun op => op.holds (row.get column) (.number x) := by
    intro row hrow
    obtain null | ⟨y, number, hy⟩ := numbers row hrow
    · simpa [null] using Comparison.trichotomy_null x
    · simpa [number] using Comparison.trichotomy_number hx hy
  have congr {p q : Row → Bool} (h : ∀ row ∈ rows, (p row = true ↔ q row = true)) :
      rows.filter p = rows.filter q :=
    List.filter_congr fun row hrow => Bool.eq_iff_iff.2 (h row hrow)
  constructor
  case rows_eq =>
    intro op
    apply congr
    intro row hrow
    simp [hrow]
  case lt_eq =>
    intro row lt eq
    obtain ⟨hrow, lt⟩ := List.mem_filter.1 lt
    exact (facts row hrow).lt_eq ⟨lt, (List.mem_filter.1 eq).2⟩
  case lt_gt =>
    intro row lt gt
    obtain ⟨hrow, lt⟩ := List.mem_filter.1 lt
    exact (facts row hrow).lt_gt ⟨lt, (List.mem_filter.1 gt).2⟩
  case eq_gt =>
    intro row eq gt
    obtain ⟨hrow, eq⟩ := List.mem_filter.1 eq
    exact (facts row hrow).eq_gt ⟨eq, (List.mem_filter.1 gt).2⟩
  case not_null =>
    apply congr
    intro row hrow
    simpa [hrow] using (facts row hrow).not_null_iff
  case le_eq =>
    apply congr
    intro row hrow
    simpa [hrow] using (facts row hrow).le_iff
  case ge_eq =>
    apply congr
    intro row hrow
    simpa [hrow] using (facts row hrow).ge_iff
  case ne_eq =>
    apply congr
    intro row hrow
    simpa [hrow] using (facts row hrow).ne_iff

/-! ## Columns of numbers -/

/-- A column of numbers takes numbers, and NULL maybe. -/
theorem Store.Column.number_of_validate {c : Column} {v : Value} (h : c.validate v = .ok ())
    (type : c.type = .number) : v = .null ∨ ∃ y : Number, v = .number y := by
  cases v with
  | null => exact .inl rfl
  | number y => exact .inr ⟨y, rfl⟩
  | boolean | string => simp [validate, Value.dataType?, type] at h

namespace Store.Table

variable {t : Table} {c : Column}

/-- What a column of numbers holds, if nothing in the table is a NaN. -/
theorem Consistent.numbers (h : t.Consistent) (hc : c ∈ t.schema.columns) (type : c.type = .number)
    (ordinary : t.Holds fun v => v.isNaN = false) :
    ∀ row ∈ t.rows, row.get c.name = .null ∨
      ∃ y : Number, row.get c.name = .number y ∧ y.isNaN = false := by
  intro row hrow
  have valid := (h.rows_fit row hrow).validate_get h.columnNames_nodup hc
  obtain null | ⟨y, number⟩ := Column.number_of_validate valid type
  · exact .inl null
  · have there := h.get?_eq_get hrow (List.mem_map_of_mem hc)
    rw [number] at there
    exact .inr ⟨y, number, (ordinary.cells row hrow).get? there⟩

/-- A condition on a column looks at its cell, whatever the name of the column is. -/
theorem Consistent.named_column (h : t.Consistent) (hc : c ∈ t.schema.columns) (op : Comparison)
    (v : Value) :
    t.named [⟨c.name, op, v⟩] = t.rows.filter fun row => op.holds (row.get c.name) v := by
  apply List.filter_congr
  intro row hrow
  have found : row.lookup t.name c.name = some (row.get c.name) := by
    rw [Row.lookup, h.get?_eq_get hrow (List.mem_map_of_mem hc)]
  rw [Sql.holdAll, List.all_cons, List.all_nil, Bool.and_true, Condition.holds, found,
    Option.getD_some]

end Store.Table

namespace Engine

variable {e : Engine}

/-- **Conditions on numbers are coherent.** Whatever texts are answered, no cell and no default of a
column is a NaN, and no literal that is read is one. So in each column of numbers, what is less than
a number, equal to it and greater are apart from each other and together what is not NULL; and the
other three comparisons select what they should, in terms of these. -/
theorem coherent_where (reached : e.Reached) :
    (e.database.Holds fun v => v.isNaN = false) ∧
      (∀ s, Sql.IsWritten s → ∀ v ∈ s.literals, v.isNaN = false) ∧
      ∀ t ∈ e.database.tables, ∀ c ∈ t.schema.columns, c.type = .number →
        ∀ x : Number, x.isNaN = false → ∃ select : Comparison → List Row,
          (∀ op, e.execute (.select ["*"] t.name none [⟨c.name, op, .number x⟩]) =
            (.ofRows (select op), e)) ∧
          Coherent t.rows c.name select := by
  have consistent := reached.consistent
  have ordinary := reached.holds_not_nan
  refine ⟨ordinary, ?_, ?_⟩
  · intro s written
    obtain ⟨text, read⟩ := written.standsIn
    exact read.literal_not_nan
  · intro t ht c hc type x hx
    have table := consistent.tables_consistent t ht
    refine ⟨_, ?_, coherent_of_numbers hx (table.numbers hc type (ordinary t ht))⟩
    intro op
    rw [execute_select_all consistent ht, table.named_column hc]

/-- Both zeros, an infinity and NULL, and a default that is an infinity. -/
def extremes : Engine where
  policy := .warn
  database := ⟨[
    { schema := .ofColumns "t"
        [.plain "x" .number,
          { Column.plain "y" .number with default := some (.number ⟨0xFFF0000000000000⟩) }]
      rows :=
        [[("x", .number ⟨0x8000000000000000⟩), ("y", .number ⟨0xFFF0000000000000⟩)],
          [("x", .number ⟨0x7FF0000000000000⟩), ("y", .number ⟨0xFFF0000000000000⟩)],
          [("x", .null), ("y", .null)],
          [("x", .number ⟨0xBFF0000000000000⟩), ("y", .null)],
          [("x", .number ⟨0⟩), ("y", .null)]]
      indexes := [] }]⟩

theorem reached_extremes : extremes.Reached :=
  ⟨.warn,
    [.query "CREATE TABLE t (x int, y float DEFAULT -1e999)",
      .script "INSERT INTO t (x) VALUES (-0.0), (1e999); INSERT INTO t VALUES (NULL, NULL)",
      .query "INSERT INTO t VALUES (-1, NULL), (0, NULL)"],
    by decide +kernel⟩

/-- The two zeros are equal to zero, and NULL is not. -/
theorem coherent_where_extremes :
    let answer (op : Comparison) :=
      extremes.execute (.select ["*"] "t" none [⟨"x", op, .number .zero⟩])
    extremes.Reached ∧ Number.zero.isNaN = false ∧
      (∃ t ∈ extremes.database.tables, t.name = "t" ∧
        (∃ c ∈ t.schema.columns, c.name = "x" ∧ c.type = .number) ∧
        ∃ select : Comparison → List Row,
          (∀ op, answer op = (.ofRows (select op), extremes)) ∧ Coherent t.rows "x" select) ∧
      (answer .lt).1.rows = some [[("x", .number ⟨0xBFF0000000000000⟩), ("y", .null)]] ∧
      (answer .eq).1.rows = some
        [[("x", .number ⟨0x8000000000000000⟩), ("y", .number ⟨0xFFF0000000000000⟩)],
          [("x", .number ⟨0⟩), ("y", .null)]] ∧
      (answer .gt).1.rows = some
        [[("x", .number ⟨0x7FF0000000000000⟩), ("y", .number ⟨0xFFF0000000000000⟩)]] := by
  intro answer
  have zero : Number.zero.isNaN = false := by decide
  obtain ⟨t, ht, name, c, hc, column, type⟩ : ∃ t ∈ extremes.database.tables, t.name = "t" ∧
      ∃ c ∈ t.schema.columns, c.name = "x" ∧ c.type = .number := by
    decide +kernel
  have coherent := (coherent_where reached_extremes).2.2 t ht c hc type .zero zero
  rw [name, column] at coherent
  refine ⟨reached_extremes, zero, ⟨t, ht, name, ⟨c, hc, column, type⟩, coherent⟩, ?_⟩
  decide +kernel

end Engine
end PocketSql
