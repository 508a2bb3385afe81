import PocketSql.Proofs.Store.Entries
import PocketSql.Proofs.Store.Fit

/-!
# Tables whose indexes agree with their rows

A table is consistent if its rows fit its columns, its keys are not repeated and the index of each
keyed column lists the positions that a scan of the rows finds. Each operation keeps a table
consistent: an insertion and an update touch the indexes only where a row changes, whereas a
deletion and a truncation build them anew, as positions shift.
-/

namespace PocketSql
namespace Store

/-- An index lists the positions of the rows that hold a value in a column. -/
structure Index.Lists (ix : Index) (rows : List Row) (column : String) : Prop where
  wellFormed : ix.WellFormed
  mem_find : ∀ v p, p ∈ ix.find v ↔
    v.isNull = false ∧ ∃ row, rows[p]? = some row ∧ (row.get column).same v = true

namespace Index.Lists

variable {ix : Index} {rows : List Row} {column : String}

/-- A value has an entry if some row holds it; NULL has none. -/
theorem contains_iff (h : ix.Lists rows column) (v : Value) :
    ix.contains v = true ↔ v.isNull = false ∧ ∃ row ∈ rows, (row.get column).same v = true := by
  rw [h.wellFormed.contains_iff]
  constructor
  · intro hfind
    obtain ⟨p, hp⟩ := List.exists_mem_of_ne_nil _ hfind
    obtain ⟨hv, row, hrow, hs⟩ := (h.mem_find v p).1 hp
    exact ⟨hv, row, List.mem_of_getElem? hrow, hs⟩
  · intro hheld
    obtain ⟨hv, row, hmem, hs⟩ := hheld
    obtain ⟨p, hp⟩ := List.mem_iff_getElem?.1 hmem
    exact List.ne_nil_of_mem ((h.mem_find v p).2 ⟨hv, row, hp, hs⟩)

/-- The index of a longer list of rows has the position of the last row added. -/
theorem append (h : ix.Lists rows column) (row : Row) :
    (ix.add (row.get column) rows.length).Lists (rows ++ [row]) column := by
  refine ⟨h.wellFormed.add _ _, fun v p => ?_⟩
  rw [Index.mem_find_add, h.mem_find]
  constructor
  · rintro (⟨hv, other, hp, hs⟩ | ⟨hn, hs, rfl⟩)
    · have hlt := (List.getElem?_eq_some_iff.1 hp).1
      exact ⟨hv, other, by rw [List.getElem?_append_left hlt]; exact hp, hs⟩
    · exact ⟨by rw [← Value.isNull_eq_of_same hs]; exact hn, row, by simp, hs⟩
  · rintro ⟨hv, other, hp, hs⟩
    by_cases hlt : p < rows.length
    · rw [List.getElem?_append_left hlt] at hp
      exact .inl ⟨hv, other, hp, hs⟩
    · have hlen := (List.getElem?_eq_some_iff.1 hp).1
      rw [List.length_append, List.length_singleton] at hlen
      obtain rfl : p = rows.length := by omega
      obtain rfl : row = other := by simpa using hp
      exact .inr ⟨by rw [Value.isNull_eq_of_same hs]; exact hv, hs, rfl⟩

/-- A row that changes elsewhere changes nothing for the index. -/
theorem set_of_get_eq (h : ix.Lists rows column) {q : Nat} {row : Row} (row' : Row)
    (hq : rows[q]? = some row) (hr : row'.get column = row.get column) :
    ix.Lists (rows.set q row') column := by
  refine ⟨h.wellFormed, fun v p => ?_⟩
  rw [h.mem_find]
  by_cases hp : q = p
  · subst hp
    obtain ⟨hlt, rfl⟩ := List.getElem?_eq_some_iff.1 hq
    simp [hr, hlt]
  · rw [List.getElem?_set_ne hp]

/-- A row that changes leaves the entry of its old value and comes into that of the new one. -/
theorem set_get (h : ix.Lists rows column) {q : Nat} {row : Row} (row' : Row)
    (hq : rows[q]? = some row) :
    ((ix.remove (row.get column) q).add (row'.get column) q).Lists (rows.set q row') column := by
  refine ⟨(h.wellFormed.remove _ _).add _ _, fun v p => ?_⟩
  rw [Index.mem_find_add, Index.mem_find_remove h.wellFormed, h.mem_find]
  by_cases hp : q = p
  · subst hp
    have hlt := (List.getElem?_eq_some_iff.1 hq).1
    rw [List.getElem?_set_self hlt]
    constructor
    · rintro (⟨⟨hv, other, hother, hs⟩, hne⟩ | ⟨hn, hs, -⟩)
      · obtain rfl : row = other := Option.some.inj (hq.symm.trans hother)
        exact absurd ⟨by rw [Value.isNull_eq_of_same hs]; exact hv, hs, rfl⟩ hne
      · exact ⟨by rw [← Value.isNull_eq_of_same hs]; exact hn, row', rfl, hs⟩
    · rintro ⟨hv, other, hother, hs⟩
      obtain rfl := Option.some.inj hother
      exact .inr ⟨by rw [Value.isNull_eq_of_same hs]; exact hv, hs, rfl⟩
  · rw [List.getElem?_set_ne hp]
    constructor
    · rintro (⟨hl, -⟩ | ⟨-, -, rfl⟩)
      · exact hl
      · exact absurd rfl hp
    · exact fun hl => .inl ⟨hl, fun ⟨_, _, he⟩ => hp he.symm⟩

/-- An index that is built from the rows lists them. -/
theorem ofValues (rows : List Row) (column : String) :
    (Index.ofValues 0 Index.empty (rows.map (·.get column))).Lists rows column := by
  refine ⟨Index.wellFormed_empty.ofValues _ _, fun v p => ?_⟩
  rw [Index.mem_find_ofValues]
  constructor
  · rintro (hp | ⟨i, w, hi, hn, hs, rfl⟩)
    · simp at hp
    · rw [List.getElem?_map, Option.map_eq_some_iff] at hi
      obtain ⟨row, hrow, rfl⟩ := hi
      exact ⟨by rw [← Value.isNull_eq_of_same hs]; exact hn, row, by simpa using hrow, hs⟩
  · rintro ⟨hv, row, hrow, hs⟩
    refine .inr ⟨p, row.get column, ?_, ?_, hs, by simp⟩
    · rw [List.getElem?_map, hrow]
      rfl
    · rw [Value.isNull_eq_of_same hs]
      exact hv

end Index.Lists

namespace Table

/-- Rows, keys and indexes of a table are in step. -/
structure Consistent (t : Table) : Prop where
  columnNames_nodup : t.schema.columnNames.Nodup
  rows_fit : ∀ row ∈ t.rows, row.Fits t.schema.columns
  keys_distinct : ∀ c ∈ t.schema.columns, c.indexed = true →
    t.rows.Pairwise fun row other => Row.repeats c.name row other = false
  indexes_names : t.indexes.map (·.1) = (t.schema.columns.filter (·.indexed)).map (·.name)
  indexes_list : ∀ entry ∈ t.indexes, entry.2.Lists t.rows entry.1

theorem Consistent.names_eq {t : Table} (h : t.Consistent) {row : Row} (hrow : row ∈ t.rows) :
    row.names = t.schema.columnNames := (h.rows_fit row hrow).names_eq

theorem Consistent.names_nodup {t : Table} (h : t.Consistent) {row : Row} (hrow : row ∈ t.rows) :
    row.names.Nodup := h.names_eq hrow ▸ h.columnNames_nodup

/-- Rows that repeat no key are told apart by each key. -/
theorem pairwise_repeats_iff {rows : List Row} {column : String} :
    rows.Pairwise (fun row other => Row.repeats column row other = false) ↔
      ∀ (p q : Nat) (row other : Row), rows[p]? = some row → rows[q]? = some other →
        Row.repeats column row other = true → p = q := by
  rw [List.pairwise_iff_getElem]
  constructor
  · intro h p q row other hp hq hr
    obtain ⟨hp', rfl⟩ := List.getElem?_eq_some_iff.1 hp
    obtain ⟨hq', rfl⟩ := List.getElem?_eq_some_iff.1 hq
    rcases Nat.lt_trichotomy p q with hlt | heq | hlt
    · rw [h p q hp' hq' hlt] at hr
      exact Bool.noConfusion hr
    · exact heq
    · rw [Row.repeats_comm, h q p hq' hp' hlt] at hr
      exact Bool.noConfusion hr
  · intro h p q hp hq hlt
    refine Bool.eq_false_iff.2 fun hr => ?_
    have := h p q _ _ (List.getElem?_eq_getElem hp) (List.getElem?_eq_getElem hq) hr
    omega

theorem consistent_ofSchema {schema : Schema} (h : schema.columnNames.Nodup) :
    (ofSchema schema).Consistent where
  columnNames_nodup := h
  rows_fit := fun _ hrow => nomatch hrow
  keys_distinct := fun _ _ _ => List.Pairwise.nil
  indexes_names := by simp [ofSchema]
  indexes_list := by
    intro entry he
    obtain ⟨c, -, rfl⟩ := List.mem_map.1 he
    exact ⟨Index.wellFormed_empty, by simp [ofSchema]⟩

/-- An index that is found is one of the table's. -/
theorem mem_indexes {t : Table} {column : String} {ix : Index} (h : t.index? column = some ix) :
    (column, ix) ∈ t.indexes := by
  obtain ⟨before, after, heq, -⟩ := List.lookup_eq_some_iff.1 h
  rw [heq]
  exact List.mem_append_right before List.mem_cons_self

namespace Consistent

variable {t : Table}

/-- Each keyed column has an index, which lists its values. -/
theorem exists_index (h : t.Consistent) {c : Column} (hc : c ∈ t.schema.columns)
    (hi : c.indexed = true) :
    ∃ ix, t.index? c.name = some ix ∧ ix.Lists t.rows c.name := by
  have hmem : c.name ∈ t.indexes.map (·.1) := by
    rw [h.indexes_names]
    exact List.mem_map.2 ⟨c, List.mem_filter.2 ⟨hc, hi⟩, rfl⟩
  obtain ⟨entry, he, hn⟩ := List.mem_map.1 hmem
  cases hl : t.index? c.name with
  | none =>
    rw [index?, List.lookup_eq_none_iff] at hl
    exact absurd (hl entry he) (by simp [hn])
  | some ix => exact ⟨ix, rfl, h.indexes_list _ (mem_indexes hl)⟩

/-- Each index is that of a keyed column. -/
theorem exists_column (h : t.Consistent) {entry : String × Index} (he : entry ∈ t.indexes) :
    ∃ c ∈ t.schema.columns, c.indexed = true ∧ c.name = entry.1 := by
  have keyed : entry.1 ∈ (t.schema.columns.filter (·.indexed)).map (·.name) := by
    rw [← h.indexes_names]
    exact List.mem_map_of_mem he
  obtain ⟨c, hc, named⟩ := List.mem_map.1 keyed
  exact ⟨c, (List.mem_filter.1 hc).1, (List.mem_filter.1 hc).2, named⟩

/-- Two rows with the same key are one row. -/
theorem position_unique (h : t.Consistent) {c : Column} (hc : c ∈ t.schema.columns)
    (hi : c.indexed = true) {v : Value} (hv : v.isNull = false) {p q : Nat} {row other : Row}
    (hp : t.rows[p]? = some row) (hps : (row.get c.name).same v = true)
    (hq : t.rows[q]? = some other) (hqs : (other.get c.name).same v = true) : p = q := by
  refine pairwise_repeats_iff.1 (h.keys_distinct c hc hi) p q row other hp hq ?_
  refine Row.repeats_iff.2 ⟨by rw [Value.isNull_eq_of_same hps]; exact hv, ?_⟩
  exact Value.same_trans hps (by rw [Value.same_comm]; exact hqs)

end Consistent

/-! ## Insertion -/

/-- A successful insertion appends one row, which fits and has no key that an index knows. -/
theorem insert_ok {t t' : Table} {given : Row} (h : t.insert given = .ok t') :
    ∃ row, row.Fits t.schema.columns ∧
      (∀ entry ∈ t.indexes, entry.2.contains (row.get entry.1) = false) ∧
      t' = { t with
        rows := t.rows ++ [row]
        indexes := t.indexes.map fun (column, ix) =>
          (column, ix.add (row.get column) t.rows.length) } := by
  simp only [insert, Error.bind_eq_ok] at h
  obtain ⟨row, hrow, h⟩ := h
  refine ⟨row, fits_of_complete hrow, ?_⟩
  split at h
  · exact nomatch h
  · next hnone =>
    refine ⟨fun entry he => ?_, (Except.ok.inj h).symm⟩
    simpa using List.find?_eq_none.1 hnone entry he

theorem schema_insert {t t' : Table} {given : Row} (h : t.insert given = .ok t') :
    t'.schema = t.schema := by
  obtain ⟨row, -, -, rfl⟩ := insert_ok h
  rfl

theorem Consistent.insert {t t' : Table} (h : t.Consistent) {given : Row}
    (hi : t.insert given = .ok t') : t'.Consistent := by
  obtain ⟨row, hfit, hnew, rfl⟩ := insert_ok hi
  refine ⟨h.columnNames_nodup, ?_, ?_, ?_, ?_⟩
  · intro other hother
    rcases List.mem_append.1 hother with hother | hother
    · exact h.rows_fit other hother
    · rw [List.mem_singleton.1 hother]
      exact hfit
  · intro c hc hind
    refine List.pairwise_append.2
      ⟨h.keys_distinct c hc hind, List.pairwise_singleton _ _, fun other hother last hlast => ?_⟩
    rw [List.mem_singleton.1 hlast]
    refine Bool.eq_false_iff.2 fun hr => ?_
    obtain ⟨hn, hs⟩ := Row.repeats_iff.1 hr
    obtain ⟨ix, hix, hl⟩ := h.exists_index hc hind
    -- The other row holds the value of the new one, so the index knows the key.
    have hcontains : ix.contains (row.get c.name) = true :=
      (hl.contains_iff _).2 ⟨by rw [← Value.isNull_eq_of_same hs]; exact hn, other, hother, hs⟩
    rw [hnew _ (mem_indexes hix)] at hcontains
    exact Bool.noConfusion hcontains
  · rw [← h.indexes_names, List.map_map]
    rfl
  · intro entry he
    obtain ⟨old, hold, rfl⟩ := List.mem_map.1 he
    exact (h.indexes_list old hold).append row

/-! ## Update -/

/-- An assignment that may be written into the rows at some positions: its column takes the value,
and a key comes into one row at most, which is then the only one that may hold it already. -/
structure Assignable (t : Table) (positions : List Nat) (a : String × Value) : Prop where
  takes : ∃ c, t.schema.column? a.1 = some c ∧ c.validate a.2 = .ok ()
  one_row : ∀ c ∈ t.schema.columns, c.name = a.1 → c.indexed = true → a.2.isNull = false →
    ∀ p ∈ positions, ∀ q ∈ positions, p = q
  no_other : ∀ c ∈ t.schema.columns, c.name = a.1 → c.indexed = true → a.2.isNull = false →
    ∀ (p : Nat) (row : Row), t.rows[p]? = some row → (row.get c.name).same a.2 = true →
      p ∈ positions

/-- Writing a cell changes one row and the index of one column, or nothing. -/
theorem write_eq (q : Nat) (t : Table) (a : String × Value) :
    write q t a = t ∨ ∃ row, t.rows[q]? = some row ∧
      write q t a = { t with
        rows := t.rows.set q (row.set a.1 a.2)
        indexes := t.indexes.map fun (c, ix) =>
          if c = a.1 then (c, (ix.remove (row.get a.1) q).add a.2 q) else (c, ix) } := by
  rw [write]
  split
  · exact .inl rfl
  · next row hrow =>
    by_cases hs : (row.get a.1).same a.2 = true
    · exact .inl (by simp [hs])
    · exact .inr ⟨row, hrow, by simp [hs]⟩

@[simp] theorem schema_write (q : Nat) (t : Table) (a : String × Value) :
    (write q t a).schema = t.schema := by
  rcases write_eq q t a with h | ⟨row, -, h⟩ <;> rw [h]

/-- Writing into one row leaves the others alone. -/
theorem rows_write_ne {q p : Nat} (h : q ≠ p) (t : Table) (a : String × Value) :
    (write q t a).rows[p]? = t.rows[p]? := by
  rcases write_eq q t a with hw | ⟨row, -, hw⟩
  · rw [hw]
  · rw [hw]
    exact List.getElem?_set_ne h

/-- What may be written into some rows may still be written after writing into one of them. -/
theorem Assignable.write {t : Table} {positions : List Nat} {a : String × Value}
    (h : t.Assignable positions a) {q : Nat} (hq : q ∈ positions) (b : String × Value) :
    (write q t b).Assignable positions a := by
  refine ⟨?_, ?_, ?_⟩
  · rw [schema_write]
    exact h.takes
  · rw [schema_write]
    exact h.one_row
  · rw [schema_write]
    intro c hc hn hi hv p row hp hs
    by_cases hqp : q = p
    · exact hqp ▸ hq
    · rw [rows_write_ne hqp] at hp
      exact h.no_other c hc hn hi hv p row hp hs

/-- A row of a changed list is the changed one or an old one. -/
theorem getElem?_set_cases {rows : List Row} {q p : Nat} {row' row : Row}
    (h : (rows.set q row')[p]? = some row) :
    (q = p ∧ row = row') ∨ (q ≠ p ∧ rows[p]? = some row) := by
  rw [List.getElem?_set] at h
  split at h
  · next hqp =>
    split at h
    · exact .inl ⟨hqp, (Option.some.inj h).symm⟩
    · exact nomatch h
  · next hqp => exact .inr ⟨hqp, h⟩

section
variable {t : Table} {positions : List Nat} {q : Nat} {a : String × Value} {row : Row} {c : Column}
  {p r : Nat} {left right : Row}

/-- A key that is written into a row stands in no other row. -/
theorem Consistent.distinct_written (h : t.Consistent) (hq : q ∈ positions)
    (ha : t.Assignable positions a) (hc : c ∈ t.schema.columns) (hind : c.indexed = true)
    (hca : a.1 = c.name) (hp : (t.rows.set q (row.set a.1 a.2))[p]? = some left)
    (hr : (t.rows.set q (row.set a.1 a.2))[r]? = some right)
    (hn : (left.get c.name).isNull = false)
    (hs : (left.get c.name).same (right.get c.name) = true) : p = r := by
  have hnew : (row.set a.1 a.2).get c.name = a.2 := by rw [Row.get_set, if_pos hca]
  have hother : a.2.isNull = false → ∀ (p : Nat) (other : Row), q ≠ p →
      t.rows[p]? = some other → ¬(other.get c.name).same a.2 = true :=
    fun hv p other hqp hp hs => hqp (ha.one_row c hc hca.symm hind hv q hq p
      (ha.no_other c hc hca.symm hind hv p other hp hs))
  rcases getElem?_set_cases hp with ⟨rfl, rfl⟩ | ⟨hqp, hp⟩ <;>
    rcases getElem?_set_cases hr with ⟨hqr, rfl⟩ | ⟨hqr, hr⟩
  · exact hqr
  · rw [hnew] at hn hs
    rw [Value.same_comm] at hs
    exact absurd hs (hother hn r right hqr hr)
  · rw [hnew] at hs
    exact absurd hs (hother (by rw [← Value.isNull_eq_of_same hs]; exact hn) p left hqp hp)
  · exact h.position_unique hc hind (by rw [← Value.isNull_eq_of_same hs]; exact hn) hp hs hr
      (Value.same_self _)

/-- Writing into another column leaves the keys of a column where they are. -/
theorem Consistent.distinct_beside (h : t.Consistent) (hrow : t.rows[q]? = some row)
    (hc : c ∈ t.schema.columns) (hind : c.indexed = true) (hca : a.1 ≠ c.name)
    (hp : (t.rows.set q (row.set a.1 a.2))[p]? = some left)
    (hr : (t.rows.set q (row.set a.1 a.2))[r]? = some right)
    (hn : (left.get c.name).isNull = false)
    (hs : (left.get c.name).same (right.get c.name) = true) : p = r := by
  have hold : ∀ (p : Nat) (other : Row), (t.rows.set q (row.set a.1 a.2))[p]? = some other →
      ∃ old, t.rows[p]? = some old ∧ old.get c.name = other.get c.name := by
    intro p other hp
    rcases getElem?_set_cases hp with ⟨rfl, rfl⟩ | ⟨-, hp⟩
    · exact ⟨row, hrow, by rw [Row.get_set, if_neg hca]⟩
    · exact ⟨other, hp, rfl⟩
  obtain ⟨left', hp', hl⟩ := hold p left hp
  obtain ⟨right', hr', hr⟩ := hold r right hr
  rw [← hl, ← hr] at hs
  rw [← hl] at hn
  exact h.position_unique hc hind (by rw [← Value.isNull_eq_of_same hs]; exact hn) hp' hs hr'
    (Value.same_self _)

theorem Consistent.write (h : t.Consistent) (hq : q ∈ positions) (ha : t.Assignable positions a) :
    (write q t a).Consistent := by
  rcases write_eq q t a with hw | ⟨row, hrow, hw⟩
  · rw [hw]
    exact h
  rw [hw]
  obtain ⟨d, hd, hvalid⟩ := ha.takes
  refine ⟨h.columnNames_nodup, ?_, ?_, ?_, ?_⟩
  · intro other hother
    rcases List.mem_or_eq_of_mem_set hother with hother | rfl
    · exact h.rows_fit other hother
    · exact (h.rows_fit row (List.mem_of_getElem? hrow)).set hd hvalid
  · intro c hc hind
    refine pairwise_repeats_iff.2 fun p r left right hp hr hrep => ?_
    obtain ⟨hn, hs⟩ := Row.repeats_iff.1 hrep
    by_cases hca : a.1 = c.name
    · exact h.distinct_written hq ha hc hind hca hp hr hn hs
    · exact h.distinct_beside hrow hc hind hca hp hr hn hs
  · rw [← h.indexes_names, List.map_map]
    refine List.map_congr_left fun entry _ => ?_
    rcases entry with ⟨c, ix⟩
    by_cases hc : c = a.1 <;> simp [hc]
  · intro entry he
    obtain ⟨⟨c, ix⟩, hold, rfl⟩ := List.mem_map.1 he
    by_cases hc : c = a.1
    · subst hc
      have hset := (h.indexes_list _ hold).set_get (row.set a.1 a.2) hrow
      rw [Row.get_set, if_pos rfl] at hset
      simpa using hset
    · have hset := (h.indexes_list _ hold).set_of_get_eq (row.set a.1 a.2) hrow
        (by rw [Row.get_set, if_neg (Ne.symm hc)])
      simpa [hc] using hset

end

end Table
end Store
end PocketSql
