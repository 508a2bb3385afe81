import Mathlib.Data.List.Induction
import PocketSql.Proofs.Query.Filtering
import PocketSql.Query.Execution

/-!
# What references stand for

A reference names a column of a table if it is the name of the column, with or without the table in
front. The executor knows no schemas: it looks for cells by their names, in plain rows and in joined
ones. Where names have no dots, both come to the same.

## Main definitions

* `Store.Table.read?` — the value of a reference in a row of a table.
* `ProperReference` — a name, or two names with a dot between them.
* `valueOf` — the value of a reference where rows of two tables stand together.

## Main results

* `Store.Table.PlainRow.lookup_eq_read?` — what is found in a plain row.
* `Row.Plain.lookup_together_or` — what is found in a joined row.
* `tabulate_eq` — the cells of a row of selected columns.
-/

namespace PocketSql

open Store (Column Table)

namespace Store.Table

/-- The column that a reference names: by its name, or by its name behind the table. -/
def named? (t : Table) (reference : String) : Option Column :=
  t.schema.columns.find? fun c => c.name = reference || qualifiedName t.name c.name = reference

/-- The value of the column that a reference names, in a row of the table. -/
def read? (t : Table) (row : Row) (reference : String) : Option Value :=
  (t.named? reference).map fun c => row.get c.name

variable {t : Table} {row : Row} {reference : String}

theorem named?_eq_some {c : Column} (h : t.named? reference = some c) :
    c ∈ t.schema.columns ∧ (reference = c.name ∨ reference = qualifiedName t.name c.name) := by
  refine ⟨List.mem_of_find?_eq_some h, ?_⟩
  have named := List.find?_some h
  rw [Bool.or_eq_true, decide_eq_true_eq, decide_eq_true_eq] at named
  exact named.imp Eq.symm Eq.symm

theorem ne_of_named?_eq_none (h : t.named? reference = none) {column : String}
    (mem : column ∈ t.schema.columnNames) :
    column ≠ reference ∧ qualifiedName t.name column ≠ reference := by
  obtain ⟨c, hc, rfl⟩ := List.mem_map.1 mem
  simpa using List.find?_eq_none.1 h c hc

/-- In a plain row, the executor finds what the schema says. -/
theorem PlainRow.lookup_eq_read? (h : t.PlainRow row) (reference : String) :
    row.lookup t.name reference = t.read? row reference := by
  rw [read?]
  cases known : t.named? reference with
  | some c =>
    obtain ⟨mem, named⟩ := named?_eq_some known
    have inRow : c.name ∈ row.names := h.names_eq ▸ List.mem_map_of_mem mem
    rw [h.lookup_eq_get? (h.names_dotless _ inRow) named, Row.get?_eq_get inRow]
    rfl
  | none =>
    have other : ∀ n ∈ row.names, n ≠ reference ∧ qualifiedName t.name n ≠ reference := by
      intro n hn
      exact ne_of_named?_eq_none known (h.names_eq ▸ hn)
    have bare : row.get? reference = none :=
      Row.get?_eq_none_iff.2 fun mem => (other _ mem).1 rfl
    rw [Row.lookup, bare]
    cases split : splitDot reference.toList with
    | none => exact h.get?_qualifiedName t.name reference
    | some parts =>
      obtain ⟨q, c⟩ := parts
      dsimp only
      split
      · next same =>
        -- the reference is the table, a dot and a name, which is none of the row's
        have whole : qualifiedName t.name (String.ofList c) = reference := by
          rw [← String.toList_inj, toList_qualifiedName, String.toList_ofList, ← same]
          exact (eq_of_splitDot split).symm
        exact Row.get?_eq_none_iff.2 fun mem => (other _ mem).2 whole
      · rfl

end Store.Table

/-! ## Two tables -/

/-- A name without dots, or two of them with a dot between. -/
def ProperReference (reference : String) : Prop :=
  Dotless reference ∨
    ∃ table column, Dotless table ∧ Dotless column ∧ reference = qualifiedName table column

/-- The value of a reference where a row of a table stands alone or together with a row of another
table: the first table comes first, and what neither of them has is NULL. -/
def valueOf (table : Table) (row : Row) (other : Option (Table × Row)) (reference : String) :
    Value :=
  ((table.read? row reference).or
    (other.bind fun other => other.1.read? other.2 reference)).getD .null

namespace Row

variable {table other : String} {row partner : Row}

/-- What is found in a joined row by way of either table is what is found in the two rows. -/
theorem Plain.lookup_together_or (left : Plain table row) (right : Plain other partner)
    (different : other ≠ table) {reference : String} (h : ProperReference reference) :
    ((together table row other partner).lookup table reference).or
        ((together table row other partner).lookup other reference) =
      (row.lookup table reference).or (partner.lookup other reference) := by
  have first (c : String) : (together table row other partner).get? (qualifiedName table c) =
      row.get? c :=
    get?_together_left left.table_dotless right.table_dotless different left.names_nodup partner c
  have second (c : String) : (together table row other partner).get? (qualifiedName other c) =
      partner.get? c :=
    get?_together_right left.table_dotless right.table_dotless different right.names_nodup row c
  have bare {name : String} (h : Dotless name) :
      (together table row other partner).get? name = none := get?_together_bare h
  obtain h | ⟨q, c, hq, hc, rfl⟩ := h
  · simp only [lookup_bare h, bare h, first, second, left.get?_qualifiedName,
      right.get?_qualifiedName, Option.none_or, Option.or_none]
  · simp only [lookup_qualified hq, bare hc, ite_self, Option.or_none, Option.or_self,
      left.get?_qualifiedName, right.get?_qualifiedName, Option.none_or]
    -- the table in front is the first one, the other one or none of them
    by_cases ofTable : q = table
    · have apart : table ≠ other := different.symm
      simp [ofTable, apart, first]
    · by_cases ofOther : q = other
      · simp [ofOther, different, second]
      · rw [get?_together_of_ne, if_neg ofTable, if_neg ofOther]
        · rfl
        · intro d same
          exact ofTable ((qualifiedName_inj left.table_dotless hq).1 same).1.symm
        · intro d same
          exact ofOther ((qualifiedName_inj right.table_dotless hq).1 same).1.symm

theorem lookup_nil (table reference : String) : lookup [] table reference = none := by
  rw [lookup]
  cases splitDot reference.toList <;> simp

/-! ## Whole rows -/

theorem addQualified_nil_eq_map (nodup : row.names.Nodup) (table : String) :
    addQualified [] table row = row.map fun cell => (qualifiedName table cell.1, cell.2) :=
  addQualified_eq_append nodup fun _ _ h => nomatch h

/-- A joined row has the cells of the one row, followed by those of the other one. -/
theorem together_eq_append (hTable : Dotless table) (hOther : Dotless other)
    (different : other ≠ table) (left : row.names.Nodup) (right : partner.names.Nodup) :
    together table row other partner =
      (row.map fun cell => (qualifiedName table cell.1, cell.2)) ++
        partner.map fun cell => (qualifiedName other cell.1, cell.2) := by
  rw [together, addQualified_nil_eq_map left, addQualified_eq_append right]
  intro c _ mem
  rw [names, List.map_map, List.mem_map] at mem
  obtain ⟨cell, -, same⟩ := mem
  exact different ((qualifiedName_inj hTable hOther).1 same).1.symm

/-! ## Selected columns -/

theorem set_map (columns : List String) (value : String → Value) (c : String) :
    Row.set (columns.map fun n => (n, value n)) c (value c) =
      (columns ++ if c ∈ columns then [] else [c]).map fun n => (n, value n) := by
  induction columns with
  | nil => rfl
  | cons n columns ih =>
    rw [List.map_cons, set]
    by_cases same : n = c
    · simp [same]
    · simp [same, Ne.symm same, ih]

/-- A row of selected columns has a cell for each of them, where it was named first. -/
theorem tabulate_eq (columns : List String) (value : String → Value) :
    tabulate columns value = columns.eraseDups.map fun n => (n, value n) := by
  induction columns using List.reverseRecOn with
  | nil => rfl
  | append_singleton columns c ih =>
    have step : tabulate (columns ++ [c]) value = (tabulate columns value).set c (value c) := by
      simp [tabulate, ofCells]
    rw [step, ih, set_map, List.eraseDups_append, List.removeAll]
    by_cases mem : c ∈ columns <;> simp [mem, List.eraseDups_cons]

end Row

namespace Store.Table

variable {L R : Table} {l r : Row}

/-- The cells of a row under the names of the columns together with the table, in the order of the
schema. -/
def qualified (t : Table) (row : Row) : Row :=
  t.schema.columns.map fun c => (qualifiedName t.name c.name, row.get c.name)

theorem map_qualifiedName (names : l.names = L.schema.columnNames) (nodup : l.names.Nodup) :
    (l.map fun cell => (qualifiedName L.name cell.1, cell.2)) = L.qualified l := by
  have cells : (L.schema.columnNames.map fun n => (n, l.get n)) = l := by
    rw [← names]
    exact Row.eq_map_get nodup
  calc
    l.map (fun cell => (qualifiedName L.name cell.1, cell.2))
      = (L.schema.columnNames.map fun n => (n, l.get n)).map
          fun cell => (qualifiedName L.name cell.1, cell.2) := by rw [cells]
    _ = L.qualified l := by rw [Schema.columnNames, List.map_map, List.map_map]; rfl

theorem PlainRow.map_qualifiedName (h : L.PlainRow l) :
    (l.map fun cell => (qualifiedName L.name cell.1, cell.2)) = L.qualified l :=
  Table.map_qualifiedName h.names_eq h.names_nodup

end Store.Table

/-! ## Rows that are shown -/

/-- A row that a SELECT shows: the whole of it for `*`, otherwise the value of each column where it
was named first. -/
def shown (columns : List String) (whole : Row) (value : String → Value) : Row :=
  if columns.contains "*" then whole else columns.eraseDups.map fun n => (n, value n)

/-- Columns that a SELECT may ask for: `*` is one of them, or they are references. -/
def AreSelectable (columns : List String) : Prop :=
  columns.contains "*" = true ∨ ∀ n ∈ columns, ProperReference n

namespace Execution

variable {columns : List String}

theorem project_eq_shown {tables : List String} {row : Row} {value : String → Value}
    (each : columns.contains "*" = false → ∀ n ∈ columns, resolve tables row n = value n) :
    project columns tables row = shown columns row value := by
  rw [project, shown, Row.tabulate_eq]
  split
  · rfl
  · next listed =>
    apply List.map_congr_left
    intro n hn
    rw [each (Bool.eq_false_iff.2 listed) n (List.mem_eraseDups.1 hn)]

variable {L R : Table} {l r : Row}

theorem project_plain (h : L.PlainRow l) :
    project columns [L.name] l = shown columns l (valueOf L l none) := by
  apply project_eq_shown
  intro _ n _
  rw [valueOf, ← h.lookup_eq_read?]
  cases h : l.lookup L.name n <;> simp [resolve, h]

/-- A row of a joined table: its cells in order, and what is found in it. There may be no row, which
then has no cells. -/
theorem cells_partner (hTable : Dotless R.name) {other : Option Row}
    (partner : ∀ r ∈ other, R.PlainRow r) :
    let r : Row := other.getD []
    r.Plain R.name ∧
      (r.map fun cell => (qualifiedName R.name cell.1, cell.2)) = other.elim [] R.qualified ∧
      ∀ n, r.lookup R.name n =
        (other.map fun r => (R, r)).bind fun other => other.1.read? other.2 n := by
  intro r
  cases other with
  | none => exact ⟨.nil hTable, rfl, fun n => Row.lookup_nil R.name n⟩
  | some r =>
    have row := partner r rfl
    exact ⟨row.toPlain, row.map_qualifiedName, row.lookup_eq_read?⟩

/-- What is shown of a joined row, for any columns that may be asked for. -/
theorem project_together (selectable : AreSelectable columns) (left : L.PlainRow l)
    (hTable : Dotless R.name) (different : R.name ≠ L.name) {other : Option Row}
    (partner : ∀ r ∈ other, R.PlainRow r) :
    project columns [L.name, R.name] (Row.together L.name l R.name (other.getD [])) =
      shown columns (L.qualified l ++ other.elim [] R.qualified)
        (valueOf L l (other.map fun r => (R, r))) := by
  obtain ⟨right, cells, foundRight⟩ := cells_partner hTable partner
  rw [← cells, ← left.map_qualifiedName, ← Row.together_eq_append left.table_dotless hTable
    different left.names_nodup right.names_nodup]
  apply project_eq_shown
  intro listed n hn
  have reference : ProperReference n := by
    obtain all | each := selectable
    · rw [all] at listed
      cases listed
    · exact each n hn
  have found := left.toPlain.lookup_together_or right different reference
  rw [left.lookup_eq_read?, foundRight] at found
  rw [valueOf, ← found, resolve]
  cases h : (Row.together L.name l R.name (other.getD [])).lookup L.name n <;>
    cases h' : (Row.together L.name l R.name (other.getD [])).lookup R.name n <;> simp [h, h']

end Execution
end PocketSql
