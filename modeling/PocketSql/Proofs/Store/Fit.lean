import Mathlib.Data.List.Forall2
import PocketSql.Store.Table

/-!
# Rows that fit their columns

A row fits columns if it has a cell for each of them, in their order, that the column takes. The
rows that `Table.complete` builds fit, and a row still fits after a value that its column takes was
written into it. In a checked schema no two columns have one name.
-/

namespace PocketSql

namespace Row

/-- A cell for each column, in the order of the columns, that the column takes. -/
def Fits (row : Row) (columns : List Store.Column) : Prop :=
  List.Forall₂ (fun cell c => cell.1 = c.name ∧ c.validate cell.2 = .ok ()) row columns

/-- Whether two rows hold the same value in a column. NULL repeats nothing. -/
def repeats (column : String) (row other : Row) : Bool :=
  !(row.get column).isNull && (row.get column).same (other.get column)

theorem get?_eq_none_iff {row : Row} {name : String} : row.get? name = none ↔ name ∉ row.names := by
  induction row with
  | nil => simp [names]
  | cons cell row ih =>
    obtain ⟨n, v⟩ := cell
    rw [get?_cons, names, List.map_cons, List.mem_cons]
    by_cases h : n = name
    · simp [h]
    · rw [if_neg h, ih]
      simp [names, Ne.symm h]

/-- A name that a row has tells its cell. -/
theorem get?_eq_get {row : Row} {name : String} (h : name ∈ row.names) :
    row.get? name = some (row.get name) := by
  cases hv : row.get? name with
  | none => exact absurd h (get?_eq_none_iff.1 hv)
  | some v => rw [get, hv, Option.getD_some]

/-- Names that are not repeated tell the cells. -/
theorem get?_eq_some_iff {row : Row} (nodup : row.names.Nodup) {name : String} {v : Value} :
    row.get? name = some v ↔ (name, v) ∈ row := by
  induction row with
  | nil => simp
  | cons cell row ih =>
    obtain ⟨n, w⟩ := cell
    rw [names, List.map_cons, List.nodup_cons] at nodup
    rw [get?_cons, List.mem_cons]
    by_cases h : n = name
    · subst h
      have other : (n, v) ∉ row := fun mem => nodup.1 (List.mem_map.2 ⟨(n, v), mem, rfl⟩)
      simp [other, eq_comm]
    · rw [if_neg h, ih nodup.2]
      simp [Ne.symm h]

theorem get_set (row : Row) (name : String) (value : Value) (other : String) :
    (row.set name value).get other = if name = other then value else row.get other := by
  rw [get, get?_set]
  split <;> rfl

/-- A value that is written under a name that is there adds no name. -/
theorem names_set_of_mem {row : Row} {name : String} (h : name ∈ row.names) (v : Value) :
    (row.set name v).names = row.names := by
  induction row with
  | nil => cases h
  | cons cell row ih =>
    obtain ⟨n, w⟩ := cell
    rw [set]
    split
    · rfl
    · next apart =>
      obtain same | mem := List.mem_cons.1 h
      · exact absurd same.symm apart
      · exact congrArg (n :: ·) (ih mem)

/-- A row is told by its names and their cells. -/
theorem eq_map_get {row : Row} (nodup : row.names.Nodup) :
    row.names.map (fun n => (n, row.get n)) = row := by
  induction row with
  | nil => rfl
  | cons cell row ih =>
    obtain ⟨n, v⟩ := cell
    rw [names, List.map_cons, List.nodup_cons] at nodup
    have others : ∀ m ∈ names row, (m, get ((n, v) :: row) m) = (m, get row m) := by
      intro m hm
      have apart : n ≠ m := fun same => nodup.1 (same ▸ hm)
      rw [get, get?_cons, if_neg apart, get]
    rw [names, List.map_cons, List.map_cons]
    refine congrArg₂ List.cons ?_ ((List.map_congr_left others).trans (ih nodup.2))
    simp [get]

/-- Rows with the same names and the same cells are the same. -/
theorem ext_get? {row other : Row} (names_eq : row.names = other.names) (nodup : row.names.Nodup)
    (cells : ∀ n ∈ row.names, row.get? n = other.get? n) : row = other := by
  have same : ∀ n ∈ row.names, (n, row.get n) = (n, other.get n) := by
    intro n hn
    rw [get, get, cells n hn]
  calc
    row = row.names.map fun n => (n, row.get n) := (eq_map_get nodup).symm
    _ = row.names.map fun n => (n, other.get n) := List.map_congr_left same
    _ = other.names.map fun n => (n, other.get n) := by rw [names_eq]
    _ = other := eq_map_get (names_eq ▸ nodup)

theorem repeats_iff {column : String} {row other : Row} :
    repeats column row other = true ↔
      (row.get column).isNull = false ∧ (row.get column).same (other.get column) = true := by
  simp [repeats]

theorem repeats_comm (column : String) (row other : Row) :
    repeats column row other = repeats column other row := by
  rw [Bool.eq_iff_iff, repeats_iff, repeats_iff, Value.same_comm]
  constructor
  · rintro ⟨hn, hs⟩
    exact ⟨by rw [Value.isNull_eq_of_same hs]; exact hn, hs⟩
  · rintro ⟨hn, hs⟩
    exact ⟨by rw [← Value.isNull_eq_of_same hs]; exact hn, hs⟩

variable {row : Row} {columns : List Store.Column}

theorem Fits.names_eq (h : row.Fits columns) : row.names = columns.map (·.name) := by
  induction h with
  | nil => rfl
  | cons hc _ ih =>
    simp only [names, List.map_cons, hc.1] at ih ⊢
    rw [ih]

/-- The columns of a row that fits take its cells. -/
theorem Fits.validate_get (h : row.Fits columns) (hd : (columns.map (·.name)).Nodup)
    {c : Store.Column} (hc : c ∈ columns) : c.validate (row.get c.name) = .ok () := by
  induction h with
  | nil => exact nomatch hc
  | @cons cell d row columns hd' hrest ih =>
    rcases cell with ⟨name, v⟩
    obtain ⟨rfl, hv⟩ : name = d.name ∧ d.validate v = .ok () := hd'
    rw [List.map_cons, List.nodup_cons] at hd
    rcases List.mem_cons.1 hc with rfl | hc
    · simpa [get] using hv
    · have hne : d.name ≠ c.name := fun e => hd.1 (e ▸ List.mem_map.2 ⟨c, hc, rfl⟩)
      have := ih hd.2 hc
      simpa [get, hne] using this

/-- Writing a value that the named column takes keeps a row fitting. -/
theorem Fits.set (h : row.Fits columns) {name : String} {c : Store.Column}
    (hc : columns.find? (·.name = name) = some c) {v : Value} (hv : c.validate v = .ok ()) :
    (row.set name v).Fits columns := by
  induction h with
  | nil => exact nomatch hc
  | @cons cell d row columns hd hrest ih =>
    rcases cell with ⟨n, w⟩
    obtain ⟨rfl, hw⟩ : n = d.name ∧ d.validate w = .ok () := hd
    by_cases hn : d.name = name
    · obtain rfl : d = c := by simpa [hn] using hc
      simp only [Row.set, hn, if_true]
      exact List.Forall₂.cons ⟨hn.symm, hv⟩ hrest
    · simp only [Row.set, hn, if_false]
      exact List.Forall₂.cons ⟨rfl, hw⟩ (ih (by simpa [hn] using hc))

end Row

namespace Store

/-- The row built for an insertion fits the columns it was built for. -/
theorem Table.fits_of_complete {given row : Row} {columns : List Column}
    (h : Table.complete given columns = .ok row) : row.Fits columns := by
  induction columns generalizing row with
  | nil =>
    obtain rfl : [] = row := by simpa [Table.complete] using h
    exact List.Forall₂.nil
  | cons c columns ih =>
    simp only [Table.complete, Error.bind_eq_ok] at h
    obtain ⟨cell, hcell, rest, hrest, h⟩ := h
    simp only [Table.cell] at hcell
    split at hcell
    · next hv =>
      obtain rfl := Except.ok.inj hcell
      obtain rfl := Except.ok.inj h
      exact List.Forall₂.cons ⟨rfl, hv⟩ (ih hrest)
    · exact nomatch hcell

theorem nodup_of_firstRepeated {seen names : List String}
    (h : firstRepeated seen names = none) : names.Nodup ∧ ∀ n ∈ names, n ∉ seen := by
  induction names generalizing seen with
  | nil => simp
  | cons n names ih =>
    rw [firstRepeated] at h
    split at h
    · exact nomatch h
    · next hn =>
      obtain ⟨hd, hs⟩ := ih h
      have hmem : n ∉ names := fun hmem => hs n hmem List.mem_cons_self
      refine ⟨List.nodup_cons.2 ⟨hmem, hd⟩, ?_⟩
      intro m hm
      rcases List.mem_cons.1 hm with rfl | hm
      · simpa using hn
      · exact fun hseen => hs m hm (List.mem_cons_of_mem n hseen)

namespace Schema

/-- Checking a schema finds fault with it or records its primary key, and changes nothing else. -/
theorem checked_ok {s schema : Schema} (h : s.checked = .ok schema) :
    schema.name = s.name ∧ schema.columns = s.columns ∧ s.columnNames.Nodup := by
  rw [checked] at h
  split at h
  · exact nomatch h
  · next hnone =>
    split at h
    · exact nomatch h
    · split at h
      · exact nomatch h
      · obtain rfl := Except.ok.inj h
        exact ⟨rfl, rfl, (nodup_of_firstRepeated hnone).1⟩

theorem columnNames_nodup {s schema : Schema} (h : s.checked = .ok schema) :
    schema.columnNames.Nodup := by
  obtain ⟨-, hc, hd⟩ := checked_ok h
  rw [columnNames, hc]
  exact hd

end Schema
end Store
end PocketSql
