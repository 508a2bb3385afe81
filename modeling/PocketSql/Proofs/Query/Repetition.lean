import PocketSql.Proofs.Query.Effects
import PocketSql.Proofs.Query.Filtering
import PocketSql.Proofs.Store.Clash

/-!
# An UPDATE that is repeated

An UPDATE whose conditions do not look at the assigned columns finds the same rows when it comes a
second time. Each of them is written as before and stays what it is, even where a column is assigned
several times, and a key that it was given is its own by now, so that nothing clashes.

## Main results

* `Row.written_written` — a row that is written twice.
* `Row.Plain.lookup_written` — what a reference finds in a row that was written.
* `Table.Consistent.update_again` — a second update of a table.
* `Engine.execute_update_again` — a second UPDATE answers as the first one and changes nothing.
-/

namespace PocketSql

open Store (Database FieldPolicy Schema Table UpdateOutcome)
open Sql (Condition)

/-! ## Rows -/

/-- Values that settle twice in a row settle where they did at first. -/
theorem Value.settle_twice (values : List Value) (v : Value) :
    values.foldl settle (values.foldl settle v) = values.foldl settle v := by
  induction values using List.reverseRecOn with
  | nil => rfl
  | append_singleton values last ih =>
    simp only [List.foldl_append, List.foldl_cons, List.foldl_nil]
    by_cases same : (values.foldl settle v).same last = true
    · rw [show (values.foldl settle v).settle last = values.foldl settle v from if_pos same, ih]
      exact if_pos same
    · rw [show (values.foldl settle v).settle last = last from if_neg same, settle]
      split
      · next again =>
        -- After any value at all, what has settled does not depend on what was there before.
        cases values with
        | nil => rfl
        | cons first rest =>
          have settled := Row.same_foldl_settle (first :: rest) v
          have settled' := Row.same_foldl_settle (first :: rest) last
          rw [List.getLastD_cons] at settled settled'
          rw [same_comm] at settled'
          exact absurd (same_trans settled (same_trans settled' again)) same
      · rfl

namespace Row

variable {row : Row} {assignments : List (String × Value)}

theorem get?_written (known : ∀ a ∈ assignments, a.1 ∈ row.names) {column : String}
    (none : valuesFor assignments column = []) :
    (row.written assignments).get? column = row.get? column := by
  have names := names_written known
  by_cases there : column ∈ row.names
  · rw [get?_eq_get there, get?_eq_get (names ▸ there), get_written, none]
    rfl
  · rw [get?_eq_none_iff.2 there, get?_eq_none_iff.2 (names ▸ there)]

/-- A reference that means none of the assigned columns finds in a row that was written what it
found before. -/
theorem Plain.lookup_written {table reference : String} (plain : row.Plain table)
    (known : ∀ a ∈ assignments, a.1 ∈ row.names)
    (apart : ∀ a ∈ assignments, reference ≠ a.1 ∧ reference ≠ qualifiedName table a.1) :
    (row.written assignments).lookup table reference = row.lookup table reference := by
  have unassigned {column : String} (h : ∀ a ∈ assignments, a.1 ≠ column) :
      (row.written assignments).get? column = row.get? column :=
    get?_written known (valuesFor_eq_nil_iff.2 h)
  have exactly : (row.written assignments).get? reference = row.get? reference :=
    unassigned fun a ha => (apart a ha).1.symm
  rw [lookup, lookup, exactly]
  cases row.get? reference with
  | some v => rfl
  | none =>
    cases split : splitDot reference.toList with
    | none =>
      -- No column has a qualified name, so nothing is assigned to one.
      apply unassigned
      rintro a ha named
      exact not_dotless_qualifiedName table reference (named ▸ plain.names_dotless _ (known a ha))
    | some parts =>
      obtain ⟨qualifier, column⟩ := parts
      have whole := eq_of_splitDot split
      by_cases own : qualifier = table.toList
      · simp only [if_pos own]
        apply unassigned
        intro a ha named
        apply (apart a ha).2
        rw [← String.toList_inj, whole, own, toList_qualifiedName, named, String.toList_ofList]
      · simp only [if_neg own]

/-- A row that was written stays as it is when it is written again. -/
theorem written_written (nodup : row.names.Nodup) (known : ∀ a ∈ assignments, a.1 ∈ row.names) :
    (row.written assignments).written assignments = row.written assignments := by
  have names := names_written known
  have names' : ((row.written assignments).written assignments).names = row.names :=
    (names_written (names ▸ known)).trans names
  apply ext_get? (names'.trans names.symm) (names' ▸ nodup)
  intro n hn
  rw [get?_eq_get hn, get?_eq_get (by rwa [names, ← names']), get_written, get_written,
    Value.settle_twice]

end Row

/-! ## Tables -/

namespace Store.Table

variable {t u : Table} {assignments : List (String × Value)} {p : Row → Bool}
  {policy : FieldPolicy} {outcome : UpdateOutcome}

/-- Rows that change without changing what they fulfil are found where they were. -/
theorem positions_map {f : Row → Row} (rows : u.rows = t.rows.map f)
    (same : ∀ row ∈ t.rows, p (f row) = p row) : u.positions p = t.positions p := by
  rw [positions, positions, rows, List.zipIdx_map, List.filter_map, List.map_map]
  congr 1
  apply List.filter_congr
  rintro ⟨row, i⟩ entry
  exact same row (List.mem_of_getElem? (List.mk_mem_zipIdx_iff_getElem?.1 entry))

/-- Rows that were found and written are found again. -/
theorem positions_written
    (rows : u.rows = t.rows.map fun row => if p row then row.written assignments else row)
    (found : ∀ row ∈ t.rows, p row = true → p (row.written assignments) = true) :
    u.positions p = t.positions p := by
  apply positions_map rows
  intro row hrow
  by_cases fulfilled : p row = true
  · rw [if_pos fulfilled, found row hrow fulfilled, fulfilled]
  · rw [if_neg fulfilled]

/-- What did not clash before rows were written does not clash afterwards. -/
theorem Consistent.clashes_written (h : t.Consistent) (kept : u.Consistent)
    (schema : u.schema = t.schema) (there : t.positions p ≠ [])
    (rows : u.rows = t.rows.map fun row => if p row then row.written assignments else row)
    (places : u.positions p = t.positions p) {a : String × Value}
    (cleared : t.clashes (t.positions p) a = false) : u.clashes (u.positions p) a = false := by
  have nodup := nodup_positions t p
  rw [places, Bool.eq_false_iff, ne_eq, kept.clashes_iff there nodup, schema]
  rintro ⟨keyed, key, i, hi, j, apart, second⟩
  apply Bool.eq_false_iff.1 cleared
  refine (h.clashes_iff there nodup).2 ⟨keyed, key, i, hi, j, apart, ?_⟩
  by_cases hj : j ∈ t.positions p
  · exact .inl hj
  -- A row that is not matched holds what it held before.
  · obtain ⟨other, hother, same⟩ := second.resolve_left hj
    rw [rows, List.getElem?_map, Option.map_eq_some_iff] at hother
    obtain ⟨old, hold, rfl⟩ := hother
    rw [if_neg fun fulfilled => hj (mem_positions.2 ⟨old, hold, fulfilled⟩)] at same
    exact .inr ⟨old, hold, same⟩

/-- A second update does nothing, if the rows that were found are still found. It succeeds as the
first one did. -/
theorem Consistent.update_again (h : t.Consistent)
    (updated : t.update assignments p policy = .ok (outcome, u))
    (found : ∀ row ∈ t.rows, p row = true →
      p (row.written (assignments.filter t.schema.takes)) = true) :
    ∃ w, u.update assignments p policy = .ok (outcome, w) ∧ u.Alike w := by
  have kept := h.update updated
  have schema := schema_update updated
  have rows := rows_update updated
  have places := positions_written rows found
  obtain ⟨nowhere, rfl, rfl⟩ | ⟨there, strict, cleared, rfl, -⟩ := update_ok updated
  · exact ⟨u, updated, .refl u⟩
  have free : (assignments.filter t.schema.takes).find? (u.clashes (u.positions p)) = none := by
    apply List.find?_eq_none.2
    intro a ha
    rw [h.clashes_written kept schema there rows places (cleared a ha)]
    exact Bool.false_ne_true
  have again := update_eq (t := u) (places ▸ there) (schema ▸ strict)
  rw [schema, free, places] at again
  refine ⟨_, again, kept.alike (kept.update again) (schema_update again).symm ?_⟩
  rw [rows_update again, schema, rows, List.map_map]
  apply List.map_congr_left
  intro row hrow
  by_cases fulfilled : p row = true
  · simp only [Function.comp, if_pos fulfilled, if_pos (found row hrow fulfilled)]
    exact (Row.written_written (h.names_nodup hrow) (h.mem_names_of_taken hrow)).symm
  · simp only [Function.comp, if_neg fulfilled]

end Store.Table

/-! ## Statements -/

namespace Sql

variable {conditions : List Condition} {table : String} {assignments : List (String × Value)}

/-- Nothing is assigned to a column that a condition names, with or without the table in front. An
assigned name with a dot of its own is that of no column. -/
def AreApart (conditions : List Condition) (table : String)
    (assignments : List (String × Value)) : Prop :=
  ∀ c ∈ conditions, ∀ a ∈ assignments, Dotless a.1 →
    c.column ≠ a.1 ∧ c.column ≠ qualifiedName table a.1

/-- Conditions that are apart from the assignments hold of a row that was written if they held
before. -/
theorem AreApart.holdAll_written (h : AreApart conditions table assignments) {row : Row}
    (plain : row.Plain table) {written : List (String × Value)}
    (assigned : ∀ a ∈ written, a ∈ assignments) (known : ∀ a ∈ written, a.1 ∈ row.names) :
    holdAll conditions table (row.written written) = holdAll conditions table row := by
  rw [Bool.eq_iff_iff, holdAll, holdAll, List.all_eq_true, List.all_eq_true]
  apply forall₂_congr
  intro c hc
  have unread : (row.written written).lookup table c.column = row.lookup table c.column := by
    apply plain.lookup_written known
    intro a ha
    exact h c hc a (assigned a ha) (plain.names_dotless _ (known a ha))
  rw [Condition.holds, Condition.holds, unread]

end Sql

namespace Engine

variable {e : Engine} {table : String} {assignments : List (String × Value)}
  {conditions : List Condition}

/-- An UPDATE answers with what the update of its table tells. -/
theorem execute_update {t u : Table} {outcome : UpdateOutcome}
    (found : e.database.table table = .ok t)
    (updated : t.update assignments (Sql.holdAll conditions table) e.policy = .ok (outcome, u)) :
    e.execute (.update table assignments conditions) =
      (.ofAffected outcome.matched (s!"{outcome.matched} row(s) updated" ++ String.join
        (if e.policy = .warn then outcome.ignored.map Execution.warning else [])),
        { e with database := e.database.replace u }) := by
  simp only [execute, Database.execute, Execution.update, found, updated]

/-- An UPDATE that succeeds has found its table and updated it. -/
theorem exists_of_execute_update
    (success : (e.execute (.update table assignments conditions)).1.success = true) :
    ∃ t outcome u, e.database.table table = .ok t ∧
      t.update assignments (Sql.holdAll conditions table) e.policy = .ok (outcome, u) := by
  simp only [execute, Database.execute, Execution.update] at success
  cases found : e.database.table table with
  | error error => simp [found, QueryResult.ofStoreError] at success
  | ok t =>
    cases updated : t.update assignments (Sql.holdAll conditions table) e.policy with
    | error error => simp [found, updated, QueryResult.ofStoreError] at success
    | ok result => exact ⟨t, result.1, result.2, rfl, updated⟩

/-- **An UPDATE that is repeated changes nothing** and has the same answer, if it assigns nothing to
the columns of its conditions. -/
theorem execute_update_again (reachable : e.Reachable)
    (plain : ∀ t ∈ e.database.tables, t.Plain) (policy : FieldPolicy)
    (apart : Sql.AreApart conditions table assignments)
    (success : (Engine.execute ⟨policy, e.database⟩
      (.update table assignments conditions)).1.success = true) :
    let first := Engine.execute ⟨policy, e.database⟩ (.update table assignments conditions)
    let second := first.2.execute (.update table assignments conditions)
    second.1 = first.1 ∧ first.2.database.Alike second.2.database := by
  intro first second
  obtain ⟨t, outcome, u, found, updated⟩ := exists_of_execute_update success
  obtain ⟨ht, rfl⟩ := Database.mem_of_table found
  have consistent := reachable.consistent.tables_consistent t ht
  have again : ∃ w, u.update assignments (Sql.holdAll conditions t.name) policy =
      .ok (outcome, w) ∧ u.Alike w := by
    apply consistent.update_again updated
    intro row hrow fulfilled
    have plainRow := consistent.plainRow (plain t ht) hrow
    rwa [apart.holdAll_written plainRow.toPlain (fun _ ha => (List.mem_filter.1 ha).1)
      (consistent.mem_names_of_taken hrow)]
  obtain ⟨w, updated', alike⟩ := again
  have name : u.name = t.name := congrArg Schema.name (Table.schema_update updated)
  have first_eq : first = _ := execute_update found updated
  have found' : first.2.database.table t.name = .ok u := by
    rw [first_eq, ← name]
    exact Database.table_replace (name ▸ found)
  have second_eq : second = _ := execute_update found' (by rwa [first_eq])
  refine ⟨by rw [second_eq, first_eq], ?_⟩
  have kept : first.2.database.Consistent :=
    consistent_execute (e := ⟨policy, e.database⟩) reachable.consistent _
  rw [second_eq]
  exact kept.alike_replace (Database.mem_of_table found').1 alike

/-- Things on a shelf. -/
def shelved : Engine :=
  ((ofPolicy .warn).executeAll
    [.createTable "shelf" false
       [⟨"slot", "int", false, true, false, none⟩, ⟨"weight", "int", false, false, true, none⟩,
         ⟨"label", "char", false, false, false, none⟩],
     .insert "shelf" none
       [[.number ⟨0x3FF0000000000000⟩, .number ⟨0⟩, .string "a"],
        [.number ⟨0x4000000000000000⟩, .number ⟨0x3FF0000000000000⟩, .string "b"],
        [.null, .number ⟨0x4000000000000000⟩, .null]]]).2

/-- One thing goes to a slot by way of another one, twice. A slot that is a text is reported each
time. The slot of another table, which reads as NULL, is no column that is assigned. -/
theorem execute_update_again_shelved :
    let assignments := [("slot", .number ⟨0x4008000000000000⟩), ("color", .string "red"),
      ("slot", .number ⟨0x4010000000000000⟩), ("slot", .string "x")]
    let conditions : List Condition :=
      [⟨"shelf.weight", .gt, .number ⟨0⟩⟩, ⟨"label", .ne, .null⟩, ⟨"rack.slot", .eq, .null⟩]
    let first := shelved.execute (.update "shelf" assignments conditions)
    let second := first.2.execute (.update "shelf" assignments conditions)
    let slots := fun e : Engine =>
      e.database.tables.flatMap fun t => t.rows.map fun row => row.get "slot"
    shelved.Reachable ∧ (∀ t ∈ shelved.database.tables, t.Plain) ∧
      Sql.AreApart conditions "shelf" assignments ∧
      first.1.success = true ∧ first.1.rowCount = some 1 ∧
      first.1.message = some ("1 row(s) updated; WARN: ignored field 'slot' " ++
        "(Type error: column 'slot' expects number, got string)") ∧
      slots shelved = [.number ⟨0x3FF0000000000000⟩, .number ⟨0x4000000000000000⟩, .null] ∧
      slots first.2 = [.number ⟨0x3FF0000000000000⟩, .number ⟨0x4010000000000000⟩, .null] ∧
      second.1 = first.1 ∧ first.2.database.Alike second.2.database := by
  intro assignments conditions first second slots
  have reachable : shelved.Reachable := ⟨.warn, _, rfl⟩
  have apart : Sql.AreApart conditions "shelf" assignments := by
    unfold Sql.AreApart
    decide
  have facts : (∀ t ∈ shelved.database.tables, t.Plain) ∧ first.1.success = true ∧
      first.1.rowCount = some 1 ∧
      first.1.message = some ("1 row(s) updated; WARN: ignored field 'slot' " ++
        "(Type error: column 'slot' expects number, got string)") ∧
      slots shelved = [.number ⟨0x3FF0000000000000⟩, .number ⟨0x4000000000000000⟩, .null] ∧
      slots first.2 = [.number ⟨0x3FF0000000000000⟩, .number ⟨0x4010000000000000⟩, .null] := by
    decide
  obtain ⟨plain, success, count, message, old, new⟩ := facts
  obtain ⟨same, alike⟩ := execute_update_again reachable plain .warn apart success
  exact ⟨reachable, plain, apart, success, count, message, old, new, same, alike⟩

end Engine
end PocketSql
