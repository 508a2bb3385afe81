import Mathlib.Data.List.TakeWhile
import PocketSql.Proofs.Store.Fit
import PocketSql.Query.Join

/-!
# References to columns

A reference is a name, or two names with a dot between them. In a plain row it finds the cell of the
column, with or without the table in front; in a joined row, the cell whose name carries the table.
Where names have no dots of their own, the two ways of looking never meet: a qualified name can be
taken apart in one way only, and no plain name is a qualified one.

## Main definitions

* `Dotless` — a name without dots.
* `Row.Plain` — a row of a table, without dots in names and without a name that is there twice.
* `Row.together` — the joined row of two rows.

## Main results

* `qualifiedName_inj` — a qualified name tells its table and its column.
* `Row.lookup_bare`, `Row.lookup_qualified` — where a reference is looked for.
* `Row.Plain.get?_together_left`, `Row.Plain.get?_together_right` — the cells of a joined row.
-/

namespace PocketSql

/-- A name without dots. -/
def Dotless (s : String) : Prop := '.' ∉ s.toList

instance : DecidablePred Dotless := fun s => inferInstanceAs (Decidable ('.' ∉ s.toList))

/-! ## Qualified names -/

theorem splitDot_of_not_mem {s : List Char} (h : '.' ∉ s) : splitDot s = none := by
  have all : s.dropWhile (· ≠ '.') = [] := by
    rw [List.dropWhile_eq_nil_iff]
    intro c hc
    simpa using ne_of_mem_of_not_mem hc h
  rw [splitDot, all]

theorem splitDot_append {q : List Char} (h : '.' ∉ q) (c : List Char) :
    splitDot (q ++ '.' :: c) = some (q, c) := by
  have front : ∀ a ∈ q, decide (a ≠ '.') = true := by
    intro a ha
    simpa using ne_of_mem_of_not_mem ha h
  rw [splitDot, List.dropWhile_append_of_pos front, List.takeWhile_append_of_pos front]
  simp

theorem eq_of_splitDot {s q c : List Char} (h : splitDot s = some (q, c)) : s = q ++ '.' :: c := by
  have whole := List.takeWhile_append_dropWhile (p := (· ≠ '.')) (l := s)
  have first := List.head?_dropWhile_not (· ≠ '.') s
  unfold splitDot at h
  split at h
  · next d rest hs =>
    simp only [Option.some.injEq, Prod.mk.injEq] at h
    obtain ⟨rfl, rfl⟩ := h
    rw [hs] at whole first
    obtain rfl : d = '.' := by simpa using first
    exact whole.symm
  · cases h

@[simp] theorem toList_qualifiedName (table column : String) :
    (qualifiedName table column).toList = table.toList ++ '.' :: column.toList := by
  simp [qualifiedName]

theorem not_dotless_qualifiedName (table column : String) :
    ¬ Dotless (qualifiedName table column) := by
  simp [Dotless]

theorem splitDot_qualifiedName {table : String} (h : Dotless table) (column : String) :
    splitDot (qualifiedName table column).toList = some (table.toList, column.toList) := by
  rw [toList_qualifiedName]
  exact splitDot_append h _

theorem qualifiedName_right_inj {table c d : String} :
    qualifiedName table c = qualifiedName table d ↔ c = d := by
  rw [← String.toList_inj, toList_qualifiedName, toList_qualifiedName, List.append_cancel_left_eq,
    List.cons.injEq, String.toList_inj]
  simp

/-- A qualified name can be taken apart in one way only. -/
theorem qualifiedName_inj {t u c d : String} (ht : Dotless t) (hu : Dotless u) :
    qualifiedName t c = qualifiedName u d ↔ t = u ∧ c = d := by
  constructor
  · intro h
    have split := splitDot_qualifiedName ht c
    rw [h, splitDot_qualifiedName hu d] at split
    simp only [Option.some.injEq, Prod.mk.injEq, String.toList_inj] at split
    exact ⟨split.1.symm, split.2.symm⟩
  · rintro ⟨rfl, rfl⟩
    rfl

namespace Row

/-! ## Cells -/

theorem set_of_not_mem {row : Row} {name : String} (h : name ∉ row.names) (v : Value) :
    row.set name v = row ++ [(name, v)] := by
  induction row with
  | nil => rfl
  | cons cell row ih =>
    simp only [names, List.map_cons, List.mem_cons, not_or] at h
    rw [set, if_neg (Ne.symm h.1), ih h.2]
    rfl

/-! ## Where a reference is looked for -/

variable {row : Row} {table reference : String}

theorem lookup_bare (h : Dotless reference) :
    row.lookup table reference =
      (row.get? reference).or (row.get? (qualifiedName table reference)) := by
  rw [lookup, splitDot_of_not_mem h]
  cases row.get? reference <;> rfl

theorem lookup_qualified {q : String} (h : Dotless q) (column : String) :
    row.lookup table (qualifiedName q column) =
      (row.get? (qualifiedName q column)).or (if q = table then row.get? column else none) := by
  rw [lookup, splitDot_qualifiedName h]
  cases row.get? (qualifiedName q column) <;> simp [String.toList_inj]

/-! ## Plain rows -/

/-- A row of a table: no name is there twice, and there are no dots in the names, nor in the table's
own. -/
structure Plain (table : String) (row : Row) : Prop where
  table_dotless : Dotless table
  names_nodup : row.names.Nodup
  names_dotless : ∀ n ∈ row.names, Dotless n

theorem Plain.nil (h : Dotless table) : Plain table [] where
  table_dotless := h
  names_nodup := List.nodup_nil
  names_dotless := fun _ hn => nomatch hn

/-- In a plain row nothing has a qualified name. -/
theorem Plain.get?_qualifiedName (h : Plain table row) (other column : String) :
    row.get? (qualifiedName other column) = none :=
  get?_eq_none_iff.2 fun mem => not_dotless_qualifiedName other column (h.names_dotless _ mem)

/-- A reference to a column of the table, with or without the table in front, finds its cell in a
plain row. -/
theorem Plain.lookup_eq_get? (h : Plain table row) {column : String} (hColumn : Dotless column)
    (named : reference = column ∨ reference = qualifiedName table column) :
    row.lookup table reference = row.get? column := by
  obtain rfl | rfl := named
  · rw [lookup_bare hColumn, h.get?_qualifiedName, Option.or_none]
  · rw [lookup_qualified h.table_dotless, h.get?_qualifiedName, if_pos rfl, Option.none_or]

/-! ## Joined rows -/

variable {joined : Row}

/-- The cells of a joined row that are there before a table's cells are added stay, but for those of
the names that are added. -/
theorem get?_addQualified_of_ne {name : String} (h : ∀ c, qualifiedName table c ≠ name) :
    (joined.addQualified table row).get? name = joined.get? name := by
  induction row generalizing joined with
  | nil => rfl
  | cons cell row ih =>
    refine ih.trans ?_
    rw [get?_set, if_neg (h cell.1)]

theorem get?_addQualified (nodup : row.names.Nodup) (column : String) :
    (joined.addQualified table row).get? (qualifiedName table column) =
      (row.get? column).or (joined.get? (qualifiedName table column)) := by
  induction row generalizing joined with
  | nil => rfl
  | cons cell row ih =>
    obtain ⟨n, v⟩ := cell
    rw [names, List.map_cons, List.nodup_cons] at nodup
    refine (ih nodup.2).trans ?_
    rw [get?_set, get?_cons]
    by_cases h : n = column
    · -- no later cell has this name, so the one that is written here stays
      have absent : get? row column = none := get?_eq_none_iff.2 (h ▸ nodup.1)
      simp [h, absent]
    · have other : qualifiedName table n ≠ qualifiedName table column :=
        fun e => h (qualifiedName_right_inj.1 e)
      simp [h, other]

/-- Cells under new names come behind those that are there. -/
theorem addQualified_eq_append (nodup : row.names.Nodup)
    (new : ∀ c ∈ row.names, qualifiedName table c ∉ joined.names) :
    joined.addQualified table row =
      joined ++ row.map fun cell => (qualifiedName table cell.1, cell.2) := by
  induction row generalizing joined with
  | nil => simp [addQualified]
  | cons cell row ih =>
    obtain ⟨n, v⟩ := cell
    rw [names, List.map_cons, List.nodup_cons] at nodup
    rw [names, List.map_cons, List.forall_mem_cons] at new
    have step : joined.addQualified table ((n, v) :: row) =
        addQualified (joined ++ [(qualifiedName table n, v)]) table row := by
      rw [← set_of_not_mem new.1]
      rfl
    rw [step, ih nodup.2]
    · simp
    · intro c hc mem
      simp only [names, List.map_append, List.map_cons, List.map_nil, List.mem_append,
        List.mem_singleton] at mem
      obtain mem | same := mem
      · exact new.2 c hc mem
      · rw [qualifiedName_right_inj.1 same] at hc
        exact nodup.1 hc

/-- The joined row of a row of one table and a row of another one. The joined row of a row without
partner is the one with the row without cells. -/
def together (table : String) (row : Row) (other : String) (partner : Row) : Row :=
  (addQualified [] table row).addQualified other partner

section
variable {other : String} {partner : Row}

section
variable (hTable : Dotless table) (hOther : Dotless other) (different : other ≠ table)
include hTable hOther different

theorem get?_together_left (nodup : row.names.Nodup) (partner : Row) (column : String) :
    (together table row other partner).get? (qualifiedName table column) = row.get? column := by
  rw [together, get?_addQualified_of_ne, get?_addQualified nodup, get?_nil, Option.or_none]
  intro c same
  exact different ((qualifiedName_inj hOther hTable).1 same).1

theorem get?_together_right (nodup : partner.names.Nodup) (row : Row) (column : String) :
    (together table row other partner).get? (qualifiedName other column) =
      partner.get? column := by
  rw [together, get?_addQualified nodup, get?_addQualified_of_ne, get?_nil, Option.or_none]
  intro c same
  exact different ((qualifiedName_inj hTable hOther).1 same).1.symm

end

/-- A joined row has no cells but those of the two tables. -/
theorem get?_together_of_ne {name : String} (first : ∀ c, qualifiedName table c ≠ name)
    (second : ∀ c, qualifiedName other c ≠ name) :
    (together table row other partner).get? name = none := by
  rw [together, get?_addQualified_of_ne second, get?_addQualified_of_ne first, get?_nil]

theorem get?_together_bare {name : String} (h : Dotless name) :
    (together table row other partner).get? name = none := by
  apply get?_together_of_ne <;>
  · rintro c rfl
    exact not_dotless_qualifiedName _ c h

/-- A reference to a column of the first table finds the same cell in a joined row. -/
theorem Plain.lookup_together (h : Plain table row) (hOther : Dotless other)
    (different : other ≠ table) {column : String} (hColumn : Dotless column)
    (named : reference = column ∨ reference = qualifiedName table column) :
    (together table row other partner).lookup table reference = row.get? column := by
  have cell : (together table row other partner).get? (qualifiedName table column) =
      row.get? column :=
    get?_together_left h.table_dotless hOther different h.names_nodup partner column
  obtain rfl | rfl := named
  · rw [lookup_bare hColumn, get?_together_bare hColumn, Option.none_or, cell]
  · rw [lookup_qualified h.table_dotless, get?_together_bare hColumn, ite_self, Option.or_none,
      cell]

end

end Row
end PocketSql
