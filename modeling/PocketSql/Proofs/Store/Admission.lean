import PocketSql.Proofs.Store.Deletion

/-!
# Rows that a table takes

An insertion first finds a value for each column and then looks for the keys of the row in the
indexes. It does not look at the rows. As the indexes are in step with them, it takes a row just if
its columns take its values and no row has one of its keys.

## Main definitions

* `Row.valueFor`, `Row.completed` — the row that is stored for the values that are supplied.
* `Table.Admits` — a table takes a row, told by a scan.
* `Table.Refuses` — the error that a refused row meets.

## Main results

* `Table.complete_ok_iff`, `Table.refusal_of_complete` — completing a row, and the first column that
  does not take its value.
* `Table.Consistent.append_of_admits`, `Table.Consistent.append_of_not_admits` — what becomes of a
  row that is admitted or is not.
* `Table.append_exact` — insertion against a scan.
-/

namespace PocketSql

open Store (Column)

namespace Row

/-- The value of a column in a row to be inserted: the one that is supplied, be it NULL, else the
default, else NULL. -/
def valueFor (given : Row) (c : Column) : Value :=
  if c.name ∈ given.names then given.get c.name else c.default.getD .null

/-- The row that is stored for the values that are supplied. -/
def completed (given : Row) (columns : List Column) : Row :=
  columns.map fun c => (c.name, given.valueFor c)

theorem valueFor_eq (given : Row) (c : Column) :
    ((given.get? c.name).or c.default).getD .null = given.valueFor c := by
  rw [valueFor]
  by_cases supplied : c.name ∈ given.names
  · rw [if_pos supplied, get?_eq_get supplied, Option.some_or, Option.getD_some]
  · rw [if_neg supplied, get?_eq_none_iff.2 supplied, Option.none_or]

/-- Columns that are told apart by their names have the values that were found for them. -/
theorem get_completed {columns : List Column} (nodup : (columns.map (·.name)).Nodup) (given : Row)
    {c : Column} (hc : c ∈ columns) : (given.completed columns).get c.name = given.valueFor c := by
  have names : (given.completed columns).names = columns.map (·.name) := by
    rw [names, completed, List.map_map]
    rfl
  have cell : (c.name, given.valueFor c) ∈ given.completed columns :=
    List.mem_map.2 ⟨c, hc, rfl⟩
  rw [get, (get?_eq_some_iff (names ▸ nodup)).2 cell, Option.getD_some]

/-- A row may name its cells in any order, and further cells besides. -/
theorem get?_congr {given other : Row} {known : String → Bool} (nodup : given.names.Nodup)
    (nodup' : other.names.Nodup)
    (same : (given.filter fun cell => known cell.1).Perm (other.filter fun cell => known cell.1))
    {name : String} (h : known name = true) : given.get? name = other.get? name := by
  have cells (v : Value) : given.get? name = some v ↔ other.get? name = some v := by
    have kept (row : Row) :
        (name, v) ∈ row ↔ (name, v) ∈ row.filter fun cell => known cell.1 := by
      simp [List.mem_filter, h]
    rw [get?_eq_some_iff nodup, get?_eq_some_iff nodup', kept given, kept other, same.mem_iff]
  exact Option.ext cells

end Row

namespace Store
namespace Table

variable {given row : Row}

/-! ## Completing a row -/

/-- All columns take the values that are found for them. -/
def Valid (given : Row) (columns : List Column) : Prop :=
  ∀ c ∈ columns, c.validate (given.valueFor c) = .ok ()

theorem cell_eq (given : Row) (c : Column) :
    cell given c = (c.validate (given.valueFor c)).map fun _ => (c.name, given.valueFor c) := by
  simp only [cell, Row.valueFor_eq]
  cases c.validate (given.valueFor c) <;> rfl

theorem complete_ok_iff {columns : List Column} :
    complete given columns = .ok row ↔ Valid given columns ∧ row = given.completed columns := by
  induction columns generalizing row with
  | nil => simp [complete, Valid, Row.completed, eq_comm]
  | cons c columns ih =>
    simp only [complete, Error.bind_eq_ok, cell_eq, ih, Valid, List.forall_mem_cons]
    cases c.validate (given.valueFor c) with
    | error e => simp [Except.map]
    | ok => simp [Except.map, Row.completed, pure, Except.pure, eq_comm]

/-- The first column that does not take its value tells the error. -/
theorem refusal_of_complete {columns : List Column} {e : Error}
    (h : complete given columns = .error e) :
    ∃ before c after, columns = before ++ c :: after ∧ Valid given before ∧
      c.validate (given.valueFor c) = .error e := by
  induction columns with
  | nil => cases h
  | cons c columns ih =>
    rw [complete, cell_eq] at h
    cases hc : c.validate (given.valueFor c) with
    | error e' =>
      rw [hc] at h
      obtain rfl := Except.error.inj h
      exact ⟨[], c, columns, rfl, fun _ hd => absurd hd List.not_mem_nil, hc⟩
    | ok =>
      rw [hc] at h
      have later : complete given columns = .error e := by
        cases completed : complete given columns with
        | error e' =>
          rw [completed] at h
          exact h
        | ok row =>
          rw [completed] at h
          cases h
      obtain ⟨before, d, after, split, valid, error⟩ := ih later
      exact ⟨c :: before, d, after, by rw [split]; rfl, List.forall_mem_cons.2 ⟨hc, valid⟩, error⟩

/-! ## Rows that are taken, and rows that are refused -/

variable {t : Table}

/-- A table takes a row if its columns take the values that are found for them and none of its rows
holds one of the keys. NULL is no key. -/
structure Admits (t : Table) (given : Row) : Prop where
  valid : Valid given t.schema.columns
  new : ∀ c ∈ t.schema.columns, c.indexed = true → (given.valueFor c).isNull = false →
    ∀ row ∈ t.rows, (row.get c.name).same (given.valueFor c) = false

/-- The errors that a refused row may meet: that of the first column that does not take its value,
or else one for a key that some row holds. -/
inductive Refuses (t : Table) (given : Row) : Error → Prop where
  | invalid {before after : List Column} {c : Column} {e : Error}
      (columns : t.schema.columns = before ++ c :: after) (first : Valid given before)
      (error : c.validate (given.valueFor c) = .error e) : Refuses t given e
  | repeated {c : Column} {row : Row} (valid : Valid given t.schema.columns)
      (hc : c ∈ t.schema.columns) (indexed : c.indexed = true)
      (key : (given.valueFor c).isNull = false) (hrow : row ∈ t.rows)
      (same : (row.get c.name).same (given.valueFor c) = true) :
      Refuses t given (.duplicateKey c.name (given.valueFor c))

/-- The index of a keyed column knows the value that is found for it just if some row holds it. -/
theorem Consistent.knows_iff (h : t.Consistent) {entry : String × Index} (he : entry ∈ t.indexes)
    {c : Column} (hc : c ∈ t.schema.columns) (named : c.name = entry.1) (given : Row) :
    entry.2.contains ((given.completed t.schema.columns).get entry.1) = true ↔
      (given.valueFor c).isNull = false ∧
        ∃ row ∈ t.rows, (row.get c.name).same (given.valueFor c) = true := by
  rw [(h.indexes_list entry he).contains_iff, ← named,
    Row.get_completed h.columnNames_nodup given hc]

/-- A row that is admitted is put behind the others. -/
theorem Consistent.append_of_admits (h : t.Consistent) (admits : t.Admits given) :
    ∃ u, t.append given = (.ok t.rows.length, u) ∧ t.insert given = .ok u ∧
      u.rows = t.rows ++ [given.completed t.schema.columns] := by
  have completed := complete_ok_iff.2 ⟨admits.valid, rfl⟩
  have unknown : t.indexes.find? (fun entry =>
      entry.2.contains ((given.completed t.schema.columns).get entry.1)) = none := by
    apply List.find?_eq_none.2
    intro entry he known
    obtain ⟨c, hc, indexed, named⟩ := h.exists_column he
    obtain ⟨key, row, hrow, same⟩ := (h.knows_iff he hc named given).1 known
    rw [admits.new c hc indexed key row hrow] at same
    cases same
  have inserted : ∃ u, t.insert given = .ok u ∧
      u.rows = t.rows ++ [given.completed t.schema.columns] := by
    simp only [Table.insert, completed, unknown, bind, Except.bind]
    exact ⟨_, rfl, rfl⟩
  obtain ⟨u, hu, rows⟩ := inserted
  exact ⟨u, by rw [append, hu], hu, rows⟩

/-- A row that is not admitted is refused with one of its errors. -/
theorem Consistent.append_of_not_admits (h : t.Consistent) (refused : ¬ t.Admits given) :
    ∃ e, t.append given = (.error e, t) ∧ t.Refuses given e := by
  have fails (e : Error) (he : t.insert given = .error e) : t.append given = (.error e, t) := by
    rw [append, he]
  cases completed : complete given t.schema.columns with
  | error e =>
    obtain ⟨before, c, after, columns, first, error⟩ := refusal_of_complete completed
    refine ⟨e, fails e ?_, .invalid columns first error⟩
    rw [Table.insert, completed]
    rfl
  | ok row =>
    obtain ⟨valid, rfl⟩ := complete_ok_iff.1 completed
    cases found : t.indexes.find? (fun entry =>
        entry.2.contains ((given.completed t.schema.columns).get entry.1)) with
    | none =>
      refine absurd ⟨valid, ?_⟩ refused
      intro c hc indexed key row hrow
      rw [Bool.eq_false_iff]
      intro same
      obtain ⟨ix, hix, -⟩ := h.exists_index hc indexed
      have he : (c.name, ix) ∈ t.indexes := mem_indexes hix
      have known := (h.knows_iff he hc rfl given).2 ⟨key, row, hrow, same⟩
      exact List.find?_eq_none.1 found _ he known
    | some entry =>
      have he := List.mem_of_find?_eq_some found
      obtain ⟨c, hc, indexed, named⟩ := h.exists_column he
      have known := List.find?_some found
      obtain ⟨key, row, hrow, same⟩ := (h.knows_iff he hc named given).1 known
      refine ⟨_, fails _ ?_, .repeated valid hc indexed key hrow same⟩
      simp only [Table.insert, completed, found, bind, Except.bind]
      rw [← named, Row.get_completed h.columnNames_nodup given hc]

/-- Nothing but the cells of the columns is looked at. -/
theorem complete_congr {other : Row} {columns : List Column}
    (same : ∀ c ∈ columns, given.get? c.name = other.get? c.name) :
    complete given columns = complete other columns := by
  induction columns with
  | nil => rfl
  | cons c columns ih =>
    rw [List.forall_mem_cons] at same
    rw [complete, complete, cell, cell, same.1, ih same.2]

/-- **Insertion against a scan.** Whatever came before, a table takes a row just if its columns take
the values that are found for them and no row holds one of the keys. Then the row is the last one,
and its position is answered; otherwise the table stays as it is, and the first column that fails
tells the error, or else a key that is there. Neither the order of the cells counts nor what is
supplied for columns that the table does not have. -/
theorem append_exact (arises : t.Arises) (given : Row) :
    (t.Admits given → ∃ u, t.append given = (.ok t.rows.length, u) ∧
      u.rows = t.rows ++ [given.completed t.schema.columns] ∧ u.Exact t.schema ∧
      u.indexes.map (·.1) = t.indexes.map (·.1)) ∧
    (¬ t.Admits given → ∃ e, t.append given = (.error e, t) ∧ t.Refuses given e) ∧
    ∀ other : Row, given.names.Nodup → other.names.Nodup →
      (given.filter fun cell => t.schema.hasColumn cell.1).Perm
        (other.filter fun cell => t.schema.hasColumn cell.1) →
      t.append other = t.append given := by
  have consistent := arises.consistent
  refine ⟨?_, consistent.append_of_not_admits, ?_⟩
  · intro admits
    obtain ⟨u, appended, inserted, rows⟩ := consistent.append_of_admits admits
    have schema := schema_insert inserted
    have kept := consistent.insert inserted
    refine ⟨u, appended, rows, schema ▸ kept.exact, ?_⟩
    rw [kept.indexes_names, consistent.indexes_names, schema]
  · intro other nodup nodup' same
    have cells : ∀ c ∈ t.schema.columns, given.get? c.name = other.get? c.name := by
      intro c hc
      apply Row.get?_congr nodup nodup' same
      rw [Schema.hasColumn, Schema.column?, List.find?_isSome]
      exact ⟨c, hc, decide_eq_true rfl⟩
    rw [append, append, Table.insert, Table.insert, complete_congr cells]

/-- Accounts with a number, an address that may be missing, and a plan. -/
def accounts : Schema := .ofColumns "accounts"
  [⟨"id", .number, false, true, false, none⟩, ⟨"mail", .string, true, false, true, none⟩,
    ⟨"plan", .string, false, false, false, some (.string "free")⟩]

/-- Two accounts, of which the second one has no address. -/
def accountHistory : List Mutation :=
  [.insert [("id", .number ⟨0⟩), ("mail", .string "a")],
    .insert [("id", .number ⟨0x3FF0000000000000⟩), ("plan", .string "paid")]]

/-- A third account has no address either and takes the default plan. Another account has the number
of the first one, although with a minus. -/
theorem append_exact_accounts :
    let t := (ofSchema { accounts with primaryKey := some "id" }).afterAll accountHistory
    let given : Row := [("mail", .null), ("age", .null), ("id", .number ⟨0x4000000000000000⟩)]
    let other : Row := [("id", .number ⟨0x4000000000000000⟩), ("mail", .null), ("name", .null)]
    let again : Row := [("id", .number ⟨0x8000000000000000⟩)]
    t.Arises ∧ t.Admits given ∧ ¬ t.Admits again ∧
      (∃ u, t.append given = (.ok 2, u) ∧ u.rows = t.rows ++
        [[("id", .number ⟨0x4000000000000000⟩), ("mail", .null), ("plan", .string "free")]]) ∧
      (∃ e, t.append again = (.error e, t) ∧ t.Refuses again e) ∧
      t.append other = t.append given := by
  intro t given other again
  have arises : t.Arises := ⟨accounts, _, accountHistory, by decide, rfl⟩
  have facts : (Valid given t.schema.columns ∧ ∀ c ∈ t.schema.columns, c.indexed = true →
        (given.valueFor c).isNull = false →
          ∀ row ∈ t.rows, (row.get c.name).same (given.valueFor c) = false) ∧
      (¬ ∀ c ∈ t.schema.columns, c.indexed = true → (again.valueFor c).isNull = false →
        ∀ row ∈ t.rows, (row.get c.name).same (again.valueFor c) = false) ∧
      (given.filter fun cell => t.schema.hasColumn cell.1).Perm
        (other.filter fun cell => t.schema.hasColumn cell.1) := by
    unfold Valid
    decide
  obtain ⟨⟨valid, new⟩, known, cells⟩ := facts
  have admits : t.Admits given := ⟨valid, new⟩
  have refused : ¬ t.Admits again := fun admits => known admits.new
  obtain ⟨u, appended, rows, -⟩ := (append_exact arises given).1 admits
  have same := (append_exact arises given).2.2 other (by decide) (by decide) cells
  have error := (append_exact arises again).2.1 refused
  exact ⟨arises, admits, refused, ⟨u, appended, rows⟩, error, same⟩

end Table
end Store
end PocketSql
