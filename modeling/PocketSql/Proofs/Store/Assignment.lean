import Mathlib.Data.List.Induction
import PocketSql.Proofs.Store.Deletion

/-!
# Rows that are updated

An update writes cell by cell and passes over the cells that hold the value already, be it zero with
the other sign. What a column holds at the end is told column by column: each value that is assigned
to it settles there, unless the column holds the same value.

## Main definitions

* `Row.assigned` — assignments one after the other, whatever the row holds.
* `Row.written` — assignments that pass over the values that are there.
* `Table.Updated` — what an update makes of a row that it matches.

## Main results

* `Row.get_written` — the value of a column after an update of the row.
* `Table.rows_writeAll_positions` — the rows after an update.
* `Table.update_exact` — what a successful update does.
-/

namespace PocketSql

/-! ## Assignments to a row -/

/-- A value comes in place of another one, unless that is the same. -/
def Value.settle (old new : Value) : Value := if old.same new then old else new

theorem Value.same_settle (old new : Value) : (old.settle new).same new = true := by
  rw [settle]
  split
  · assumption
  · exact same_self new

/-- The values that assignments give to a column, in their order. -/
def valuesFor (assignments : List (String × Value)) (column : String) : List Value :=
  (assignments.filter (·.1 = column)).map (·.2)

theorem valuesFor_append (before after : List (String × Value)) (column : String) :
    valuesFor (before ++ after) column = valuesFor before column ++ valuesFor after column := by
  rw [valuesFor, List.filter_append, List.map_append]
  rfl

theorem valuesFor_cons (a : String × Value) (assignments : List (String × Value))
    (column : String) :
    valuesFor (a :: assignments) column =
      if a.1 = column then a.2 :: valuesFor assignments column
      else valuesFor assignments column := by
  rw [valuesFor, List.filter_cons]
  by_cases h : a.1 = column
  · simp [h, valuesFor]
  · simp [h, valuesFor]

theorem valuesFor_eq_nil_iff {assignments : List (String × Value)} {column : String} :
    valuesFor assignments column = [] ↔ ∀ a ∈ assignments, a.1 ≠ column := by
  simp [valuesFor, List.filter_eq_nil_iff]

namespace Row

/-- Assign values one after the other. -/
def assigned (row : Row) (assignments : List (String × Value)) : Row :=
  assignments.foldl (fun row a => row.set a.1 a.2) row

/-- Write one cell, unless it holds the same value. -/
def put (row : Row) (a : String × Value) : Row :=
  if (row.get a.1).same a.2 then row else row.set a.1 a.2

/-- Write cells one after the other. -/
def written (row : Row) (assignments : List (String × Value)) : Row := assignments.foldl put row

theorem get_put (row : Row) (a : String × Value) (column : String) :
    (row.put a).get column =
      if a.1 = column then (row.get column).settle a.2 else row.get column := by
  rw [put, Value.settle]
  by_cases same : (row.get a.1).same a.2 = true
  · rw [if_pos same]
    by_cases named : a.1 = column
    · rw [← named, if_pos rfl, if_pos same]
    · rw [if_neg named]
  · rw [if_neg same, get_set]
    by_cases named : a.1 = column
    · rw [if_pos named, if_pos named, ← named, if_neg same]
    · rw [if_neg named, if_neg named]

theorem names_put {row : Row} {a : String × Value} (h : a.1 ∈ row.names) :
    (row.put a).names = row.names := by
  rw [put]
  split
  · rfl
  · exact names_set_of_mem h a.2

/-- Values that are assigned to a column settle there one after the other. -/
theorem get_written (row : Row) (assignments : List (String × Value)) (column : String) :
    (row.written assignments).get column =
      (valuesFor assignments column).foldl Value.settle (row.get column) := by
  induction assignments generalizing row with
  | nil => rfl
  | cons a assignments ih =>
    rw [written, List.foldl_cons]
    refine (ih (row.put a)).trans ?_
    rw [get_put, valuesFor_cons]
    by_cases named : a.1 = column
    · rw [if_pos named, if_pos named, List.foldl_cons]
    · rw [if_neg named, if_neg named]

/-- The last value that is assigned to a column is there afterwards. -/
theorem get_assigned (row : Row) (assignments : List (String × Value)) (column : String) :
    (row.assigned assignments).get column =
      (valuesFor assignments column).getLastD (row.get column) := by
  induction assignments generalizing row with
  | nil => rfl
  | cons a assignments ih =>
    rw [assigned, List.foldl_cons]
    refine (ih (row.set a.1 a.2)).trans ?_
    rw [get_set, valuesFor_cons]
    by_cases named : a.1 = column
    · rw [if_pos named, if_pos named, List.getLastD_cons]
    · rw [if_neg named, if_neg named]

theorem names_written {row : Row} {assignments : List (String × Value)}
    (known : ∀ a ∈ assignments, a.1 ∈ row.names) : (row.written assignments).names = row.names := by
  induction assignments generalizing row with
  | nil => rfl
  | cons a assignments ih =>
    rw [List.forall_mem_cons] at known
    have kept := names_put known.1
    rw [written, List.foldl_cons]
    refine (ih ?_).trans kept
    rw [kept]
    exact known.2

/-- What has settled is the last of the values, up to the sign of a zero. -/
theorem same_foldl_settle (values : List Value) (old : Value) :
    (values.foldl Value.settle old).same (values.getLastD old) = true := by
  induction values using List.reverseRecOn with
  | nil => exact Value.same_self old
  | append_singleton values v _ =>
    rw [List.foldl_append, List.getLastD_concat]
    exact Value.same_settle _ v

/-- Written and assigned values are the same. -/
theorem same_get_written (row : Row) (assignments : List (String × Value)) (column : String) :
    ((row.written assignments).get column).same ((row.assigned assignments).get column) = true := by
  rw [get_written, get_assigned]
  exact same_foldl_settle _ _

end Row

namespace Store
namespace Table

/-! ## The rows after an update -/

theorem rows_write (q : Nat) (t : Table) (a : String × Value) :
    (write q t a).rows = t.rows.modify q (·.put a) := by
  rw [write, List.modify_eq_set_getElem?]
  cases there : t.rows[q]? with
  | none => rfl
  | some row =>
    obtain ⟨column, v⟩ := a
    dsimp only [Option.map_eq_map, Option.map_some, Option.getD_some]
    rw [Row.put]
    by_cases same : (row.get column).same v = true
    · obtain ⟨inside, rfl⟩ := List.getElem?_eq_some_iff.1 there
      rw [if_pos same, if_pos same, List.set_getElem_self]
    · rw [if_neg same, if_neg same]

theorem rows_writeAll (assignments : List (String × Value)) (t : Table) (q : Nat) :
    (writeAll assignments t q).rows = t.rows.modify q (·.written assignments) := by
  induction assignments generalizing t with
  | nil => exact (List.modify_id q t.rows).symm
  | cons a assignments ih =>
    rw [writeAll, List.foldl_cons]
    refine (ih (write q t a)).trans ?_
    rw [rows_write, List.modify_modify_eq]
    rfl

/-- Where writing goes from row to row, each row is written at its turn. -/
theorem getElem?_rows_foldl {assignments : List (String × Value)} {positions : List Nat}
    (nodup : positions.Nodup) (t : Table) (i : Nat) :
    (positions.foldl (writeAll assignments) t).rows[i]? =
      if i ∈ positions then t.rows[i]?.map (·.written assignments) else t.rows[i]? := by
  induction positions generalizing t with
  | nil => rfl
  | cons q positions ih =>
    rw [List.nodup_cons] at nodup
    rw [List.foldl_cons, ih nodup.2, rows_writeAll, List.getElem?_modify]
    by_cases here : q = i
    · subst here
      simp [nodup.1]
    · simp [here, Ne.symm here]

/-- Of the rows, those are written that fulfil the predicate. -/
theorem rows_writeAll_positions (assignments : List (String × Value)) (t : Table)
    (p : Row → Bool) :
    ((t.positions p).foldl (writeAll assignments) t).rows =
      t.rows.map fun row => if p row then row.written assignments else row := by
  apply List.ext_getElem?
  intro i
  rw [getElem?_rows_foldl (nodup_positions t p), List.getElem?_map]
  cases there : t.rows[i]? with
  | none => simp
  | some row =>
    have matched : i ∈ t.positions p ↔ p row = true := by
      rw [mem_positions, there]
      simp
    by_cases fulfilled : p row = true
    · simp [matched.2 fulfilled, fulfilled]
    · simp [mt matched.1 fulfilled, fulfilled]

variable {t u : Table} {assignments : List (String × Value)} {p : Row → Bool}
  {policy : FieldPolicy} {outcome : UpdateOutcome}

/-- The rows after a successful update. -/
theorem rows_update (h : t.update assignments p policy = .ok (outcome, u)) :
    u.rows = t.rows.map fun row =>
      if p row then row.written (assignments.filter t.schema.takes) else row := by
  obtain ⟨nowhere, -, rfl⟩ | ⟨-, -, -, -, rfl⟩ := update_ok h
  · conv_lhs => rw [← List.map_id u.rows]
    apply List.map_congr_left
    intro row hrow
    simp [positions_eq_nil_iff.1 nowhere row hrow]
  · exact rows_writeAll_positions _ t p

/-- The assignments that a successful update leaves out and reports. -/
theorem ignored_update (h : t.update assignments p policy = .ok (outcome, u)) :
    outcome.ignored = (if t.rows.any p then assignments.filterMap t.schema.refusal? else []) ∧
      (policy = .reject → outcome.ignored = []) := by
  have somewhere : t.positions p = [] ↔ t.rows.any p = false := by
    rw [positions_eq_nil_iff, List.any_eq_false]
    simp
  obtain ⟨nowhere, rfl, -⟩ | ⟨there, strict, -, rfl, -⟩ := update_ok h
  · rw [somewhere.1 nowhere]
    exact ⟨rfl, fun _ => rfl⟩
  · have some : t.rows.any p = true := by simpa [somewhere] using there
    rw [some]
    exact ⟨rfl, strict⟩

/-- What an update makes of a row that it matches: the columns and their order stay, each column
holds what the assignments that are taken would leave there if they were carried out from left to
right, which is the last value for the column, and a column without such an assignment stays. -/
structure Updated (schema : Schema) (assignments : List (String × Value)) (old new : Row) :
    Prop where
  names_eq : new.names = old.names
  same_assigned : ∀ column, (new.get column).same
    ((old.assigned (assignments.filter schema.takes)).get column) = true
  last_wins : ∀ before a after, assignments = before ++ a :: after → schema.takes a = true →
    (∀ b ∈ after, b.1 = a.1 → schema.takes b = false) → (new.get a.1).same a.2 = true
  others_stay : ∀ column, (∀ a ∈ assignments, schema.takes a = true → a.1 ≠ column) →
    new.get column = old.get column

/-- Rows have cells for the assignments that columns take. -/
theorem Consistent.mem_names_of_taken (h : t.Consistent) {row : Row} (hrow : row ∈ t.rows) :
    ∀ a ∈ assignments.filter t.schema.takes, a.1 ∈ row.names := by
  intro a ha
  rw [h.names_eq hrow]
  exact Schema.mem_columnNames_of_takes (List.mem_filter.1 ha).2

theorem Consistent.updated_written (h : t.Consistent) {row : Row} (hrow : row ∈ t.rows)
    (assignments : List (String × Value)) :
    Updated t.schema assignments row (row.written (assignments.filter t.schema.takes)) where
  names_eq := Row.names_written (h.mem_names_of_taken hrow)
  same_assigned := Row.same_get_written row _
  last_wins := by
    rintro before a after rfl taken last
    have none : valuesFor (after.filter t.schema.takes) a.1 = [] := by
      apply valuesFor_eq_nil_iff.2
      intro b hb named
      obtain ⟨hb, taken⟩ := List.mem_filter.1 hb
      rw [last b hb named] at taken
      cases taken
    rw [Row.get_written, List.filter_append, List.filter_cons_of_pos taken, valuesFor_append,
      valuesFor_cons, if_pos rfl, none, List.foldl_append]
    exact Value.same_settle _ a.2
  others_stay := by
    intro column others
    have none : valuesFor (assignments.filter t.schema.takes) column = [] := by
      apply valuesFor_eq_nil_iff.2
      intro a ha
      obtain ⟨ha, taken⟩ := List.mem_filter.1 ha
      exact others a ha taken
    rw [Row.get_written, none]
    rfl

/-- **What a successful update does.** It counts the rows that fulfil the predicate and carries the
assignments out in these rows; the others stay, and all keep their places. It reports the
assignments to columns that do not take the value, and the indexes tell what a scan of the new rows
tells. -/
theorem update_exact (arises : t.Arises)
    (h : t.update assignments p policy = .ok (outcome, u)) :
    outcome.matched = (t.rows.filter p).length ∧
      List.Forall₂ (fun old new =>
        if p old = true then Updated t.schema assignments old new else new = old) t.rows u.rows ∧
      outcome.ignored = (if t.rows.any p then assignments.filterMap t.schema.refusal? else []) ∧
      (policy = .reject → outcome.ignored = []) ∧
      u.Exact t.schema := by
  have consistent := arises.consistent
  obtain ⟨ignored, strict⟩ := ignored_update h
  refine ⟨update_matched h, ?_, ignored, strict, schema_update h ▸ (consistent.update h).exact⟩
  rw [rows_update h, List.forall₂_map_right_iff, List.forall₂_same]
  intro row hrow
  by_cases fulfilled : p row = true
  · rw [if_pos fulfilled, if_pos fulfilled]
    exact consistent.updated_written hrow assignments
  · rw [if_neg fulfilled, if_neg fulfilled]

/-- Things on a shelf, some of which have a slot of their own. -/
def shelf : Schema := .ofColumns "shelf"
  [⟨"slot", .number, true, false, true, none⟩, ⟨"weight", .number, false, false, false, none⟩,
    ⟨"label", .string, true, false, false, none⟩]

/-- Two things with a slot and one without. -/
def shelfHistory : List Mutation :=
  [.insert [("slot", .number ⟨0x3FF0000000000000⟩), ("weight", .number ⟨0⟩)],
    .insert [("slot", .number ⟨0x4000000000000000⟩), ("weight", .number ⟨0x3FF0000000000000⟩)],
    .insert [("weight", .number ⟨0x3FF0000000000000⟩)]]

/-- Two things leave their slots. The weight that is zero already keeps its sign, the second label
wins, the weight that is a text is reported, and the color is passed over. -/
theorem update_exact_shelf :
    let t := (ofSchema shelf).afterAll shelfHistory
    let assignments := [("weight", .number ⟨0x8000000000000000⟩), ("color", .string "red"),
      ("slot", .null), ("weight", .string "heavy"), ("label", .string "a"), ("label", .string "b")]
    let p := fun row : Row => !(row.get "slot").isNull
    t.Arises ∧ ∃ outcome u, t.update assignments p .warn = .ok (outcome, u) ∧
      outcome = ⟨2, [⟨"weight", .typeMismatch "weight" .number .string⟩]⟩ ∧
      u.rows = [
        [("slot", .null), ("weight", .number ⟨0⟩), ("label", .string "b")],
        [("slot", .null), ("weight", .number ⟨0x8000000000000000⟩), ("label", .string "b")],
        [("slot", .null), ("weight", .number ⟨0x3FF0000000000000⟩), ("label", .null)]] ∧
      List.Forall₂ (fun old new =>
        if p old = true then Updated t.schema assignments old new else new = old) t.rows u.rows ∧
      u.Exact t.schema := by
  intro t assignments p
  have arises : t.Arises := ⟨shelf, _, shelfHistory, by decide, rfl⟩
  have h : ∃ outcome u, t.update assignments p .warn = .ok (outcome, u) ∧
      outcome = ⟨2, [⟨"weight", .typeMismatch "weight" .number .string⟩]⟩ ∧
      u.rows = [
        [("slot", .null), ("weight", .number ⟨0⟩), ("label", .string "b")],
        [("slot", .null), ("weight", .number ⟨0x8000000000000000⟩), ("label", .string "b")],
        [("slot", .null), ("weight", .number ⟨0x3FF0000000000000⟩), ("label", .null)]] := by
    refine ⟨_, _, rfl, ?_⟩
    decide
  obtain ⟨outcome, u, updated, reported, rows⟩ := h
  obtain ⟨-, each, -, -, exact_⟩ := update_exact arises updated
  exact ⟨arises, outcome, u, updated, reported, rows, each, exact_⟩

end Table
end Store
end PocketSql
