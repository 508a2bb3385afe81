import PocketSql.Proofs.Store.Exactness

/-!
# Rows that are deleted

A deletion takes away the rows that fulfil a predicate, and with them their keys: each of them could
be inserted again, as it was.

## Main results

* `Table.delete_of_none`, `Table.filter_rows_delete` — a second deletion finds and changes nothing.
* `Table.Consistent.insert_of_new` — a row that fits is inserted as it is, if it repeats no key.
* `Table.Consistent.insert_deleted` — a deleted row can be inserted again.
-/

namespace PocketSql
namespace Store
namespace Table

variable {t : Table} {p : Row → Bool}

/-! ## What is deleted -/

theorem length_positions (t : Table) (p : Row → Bool) :
    (t.positions p).length = (t.rows.filter p).length :=
  calc
    (t.positions p).length
      = (t.rows.zipIdx.filter (p ∘ Prod.fst)).length := by
        rw [positions, List.length_map]
        rfl
    _ = ((t.rows.zipIdx.filter (p ∘ Prod.fst)).map Prod.fst).length := (List.length_map _).symm
    _ = (t.rows.filter p).length := by rw [← List.filter_map, List.zipIdx_map_fst]

/-- A deletion counts the rows that fulfil the predicate. -/
theorem delete_count (t : Table) (p : Row → Bool) :
    (t.delete p).1 = (t.rows.filter p).length := by
  rw [← length_positions, delete]
  split
  · next none => rw [List.isEmpty_iff.1 none]; rfl
  · rfl

/-- A successful update counts them as well. -/
theorem update_matched {t' : Table} {assignments : List (String × Value)} {policy : FieldPolicy}
    {outcome : UpdateOutcome} (h : t.update assignments p policy = .ok (outcome, t')) :
    outcome.matched = (t.rows.filter p).length := by
  rw [← length_positions]
  obtain ⟨none, rfl, -⟩ | ⟨-, -, -, rfl, -⟩ := update_ok h
  · rw [none]; rfl
  · rfl

/-- Where no row fulfils the predicate, a deletion changes nothing. -/
theorem delete_of_none (none : t.rows.filter p = []) : t.delete p = (0, t) := by
  have nowhere : t.positions p = [] := by
    rw [← List.length_eq_zero_iff, length_positions, none]
    rfl
  rw [delete, nowhere]
  rfl

/-- Deleting again finds nothing. -/
theorem filter_rows_delete (t : Table) (p : Row → Bool) : (t.delete p).2.rows.filter p = [] := by
  rw [rows_delete, List.filter_filter]
  simp

/-! ## Insertion of a row as it is -/

/-- The cells of a row that fits are completed by nothing. -/
theorem complete_of_fits {given row : Row} {columns : List Column} (fits : row.Fits columns)
    (cells : ∀ cell ∈ row, given.get? cell.1 = some cell.2) :
    complete given columns = .ok row := by
  induction fits with
  | nil => rfl
  | @cons first c row columns h _ ih =>
    obtain ⟨n, v⟩ := first
    obtain ⟨named, valid⟩ := h
    dsimp only at named valid
    rw [List.forall_mem_cons] at cells
    subst named
    have taken : Table.cell given c = .ok (c.name, v) := by
      rw [Table.cell, cells.1, Option.some_or, Option.getD_some, valid]
    rw [complete, taken, ih cells.2]
    rfl

/-- A row that fits is inserted as it is, if no index knows one of its keys. -/
theorem insert_of_unknown (nodup : t.schema.columnNames.Nodup) {row : Row}
    (fits : row.Fits t.schema.columns)
    (unknown : ∀ entry ∈ t.indexes, entry.2.contains (row.get entry.1) = false) :
    ∃ u, t.insert row = .ok u ∧ u.rows = t.rows ++ [row] := by
  have names : row.names.Nodup := by
    rw [fits.names_eq]
    exact nodup
  have whole : complete row t.schema.columns = .ok row :=
    complete_of_fits fits fun _ hcell => (Row.get?_eq_some_iff names).2 hcell
  simp only [insert, whole, bind, Except.bind]
  split
  · next column ix found =>
    have known : ix.contains (row.get column) = true := by
      simpa using List.find?_some found
    rw [unknown (column, ix) (List.mem_of_find?_eq_some found)] at known
    cases known
  · exact ⟨_, rfl, rfl⟩

/-- It is inserted, if none of its keys is there. -/
theorem Consistent.insert_of_new (h : t.Consistent) {row : Row} (fits : row.Fits t.schema.columns)
    (new : ∀ c ∈ t.schema.columns, c.indexed = true →
      ∀ other ∈ t.rows, Row.repeats c.name row other = false) :
    ∃ u, t.insert row = .ok u ∧ u.rows = t.rows ++ [row] := by
  apply insert_of_unknown h.columnNames_nodup fits
  intro entry he
  obtain ⟨c, hc, indexed, named⟩ := h.exists_column he
  rw [Bool.eq_false_iff, ne_eq, (h.indexes_list entry he).contains_iff, ← named]
  intro known
  obtain ⟨notNull, other, hother, same⟩ := known
  have repeated : Row.repeats c.name row other = true := by
    rw [Row.repeats_iff, Value.same_comm]
    exact ⟨notNull, same⟩
  rw [new c hc indexed other hother] at repeated
  cases repeated

/-- **A deleted row can be inserted again**, and is then the last one. -/
theorem Consistent.insert_deleted (h : t.Consistent) {row : Row} (hrow : row ∈ t.rows)
    (deleted : p row = true) :
    ∃ u, (t.delete p).2.insert row = .ok u ∧ u.rows = (t.delete p).2.rows ++ [row] := by
  apply (h.delete p).insert_of_new
  · rw [schema_delete]
    exact h.rows_fit row hrow
  · rw [schema_delete, rows_delete]
    intro c hc indexed other hother
    obtain ⟨hother, kept⟩ := List.mem_filter.1 hother
    obtain ⟨i, hi⟩ := List.mem_iff_getElem?.1 hrow
    obtain ⟨j, hj⟩ := List.mem_iff_getElem?.1 hother
    rw [Bool.eq_false_iff]
    intro repeated
    obtain rfl := pairwise_repeats_iff.1 (h.keys_distinct c hc indexed) i j row other hi hj repeated
    obtain rfl := Option.some.inj (hi.symm.trans hj)
    simp [deleted] at kept

end Table
end Store
end PocketSql
