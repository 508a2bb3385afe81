import Mathlib.Data.Finset.Card
import PocketSql.Proofs.Store.Consistency

/-!
# Updates, deletions and truncations keep tables consistent

An update carries out the assignments that their columns take and leaves out the others. It writes
only values that its check has cleared, cell by cell, and each cell keeps the table consistent. A
deletion and a truncation keep some of the rows and build the indexes anew.
-/

namespace PocketSql
namespace Store
namespace Schema

/-- Whether an assignment names a column that takes its value. -/
def takes (s : Schema) (a : String × Value) : Bool :=
  match s.column? a.1 with
  | none => false
  | some c => (c.validate a.2).isOk

/-- Why an assignment is left out and reported: its column does not take the value. An assignment to
an unknown column is not reported. -/
def refusal? (s : Schema) (a : String × Value) : Option IgnoredField :=
  match s.column? a.1 with
  | none => none
  | some c =>
    match c.validate a.2 with
    | .ok () => none
    | .error e => some ⟨a.1, e⟩

theorem takes_iff {s : Schema} {a : String × Value} :
    s.takes a = true ↔ ∃ c, s.column? a.1 = some c ∧ c.validate a.2 = .ok () := by
  rw [takes]
  cases s.column? a.1 with
  | none => simp
  | some c =>
    cases valid : c.validate a.2 with
    | error e => simp [valid, Except.isOk, Except.toBool]
    | ok => simp [valid, Except.isOk, Except.toBool]

/-- An assignment is reported if its column does not take the value. -/
theorem refusal?_eq_some_iff {s : Schema} {a : String × Value} {field : IgnoredField} :
    s.refusal? a = some field ↔
      ∃ c e, s.column? a.1 = some c ∧ c.validate a.2 = .error e ∧ field = ⟨a.1, e⟩ := by
  rw [refusal?]
  cases s.column? a.1 with
  | none => simp
  | some c =>
    cases valid : c.validate a.2 with
    | error e => simp [valid, eq_comm]
    | ok => simp [valid]

/-- A column that takes a value is a column of the schema. -/
theorem mem_columnNames_of_takes {s : Schema} {a : String × Value} (h : s.takes a = true) :
    a.1 ∈ s.columnNames := by
  obtain ⟨c, found, -⟩ := takes_iff.1 h
  have named : c.name = a.1 := by simpa using List.find?_some found
  exact named ▸ List.mem_map_of_mem (List.mem_of_find?_eq_some found)

end Schema

namespace Table

/-! ## Positions -/

theorem mem_positions {t : Table} {p : Row → Bool} {q : Nat} :
    q ∈ t.positions p ↔ ∃ row, t.rows[q]? = some row ∧ p row = true := by
  rw [positions, List.mem_map]
  constructor
  · rintro ⟨⟨row, r⟩, hmem, rfl⟩
    obtain ⟨hmem, hp⟩ := List.mem_filter.1 hmem
    exact ⟨row, List.mk_mem_zipIdx_iff_getElem?.1 hmem, hp⟩
  · rintro ⟨row, hq, hp⟩
    exact ⟨(row, q), List.mem_filter.2 ⟨List.mk_mem_zipIdx_iff_getElem?.2 hq, hp⟩, rfl⟩

theorem nodup_positions (t : Table) (p : Row → Bool) : (t.positions p).Nodup := by
  have hsub : (t.positions p).Sublist (t.rows.zipIdx.map (·.2)) := List.filter_sublist.map _
  rw [List.zipIdx_map_snd] at hsub
  exact hsub.nodup List.nodup_range'

theorem positions_eq_nil_iff {t : Table} {p : Row → Bool} :
    t.positions p = [] ↔ ∀ row ∈ t.rows, p row = false := by
  rw [List.eq_nil_iff_forall_not_mem]
  constructor
  · intro h row hrow
    obtain ⟨q, hq⟩ := List.mem_iff_getElem?.1 hrow
    exact Bool.eq_false_iff.2 fun hp => h q (mem_positions.2 ⟨row, hq, hp⟩)
  · intro h q hq
    obtain ⟨row, hrow, hp⟩ := mem_positions.1 hq
    rw [h row (List.mem_of_getElem? hrow)] at hp
    exact Bool.noConfusion hp

/-! ## Update -/

/-- Assignments are split into those that their columns take and those that they do not; under the
strictest policy there are none of the latter. -/
theorem accepted_ok_iff {schema : Schema} {policy : FieldPolicy}
    {assignments effective : List (String × Value)} {ignored : List IgnoredField} :
    accepted schema policy assignments = .ok (effective, ignored) ↔
      (policy = .reject → assignments.filterMap schema.refusal? = []) ∧
        effective = assignments.filter schema.takes ∧
        ignored = assignments.filterMap schema.refusal? := by
  induction assignments generalizing effective ignored with
  | nil => simp [accepted, eq_comm]
  | cons a assignments ih =>
    rw [accepted]
    cases found : schema.column? a.1 with
    | none =>
      have taken : schema.takes a = false := by simp [Schema.takes, found]
      have refused : schema.refusal? a = none := by simp [Schema.refusal?, found]
      rw [List.filter_cons_of_neg (by simp [taken]), List.filterMap_cons_none refused]
      exact ih
    | some c =>
      cases valid : c.validate a.2 with
      | ok =>
        have taken : schema.takes a = true := Schema.takes_iff.2 ⟨c, found, valid⟩
        have refused : schema.refusal? a = none := by simp [Schema.refusal?, found, valid]
        rw [List.filter_cons_of_pos taken, List.filterMap_cons_none refused]
        simp only [valid, Error.bind_eq_ok, Prod.exists, ih]
        constructor
        · rintro ⟨_, _, ⟨strict, rfl, rfl⟩, same⟩
          obtain ⟨rfl, rfl⟩ := Prod.mk.inj (Except.ok.inj same)
          exact ⟨strict, rfl, rfl⟩
        · rintro ⟨strict, rfl, rfl⟩
          exact ⟨_, _, ⟨strict, rfl, rfl⟩, rfl⟩
      | error e =>
        have taken : schema.takes a = false := by
          simp [Schema.takes, found, valid, Except.isOk, Except.toBool]
        have refused := Schema.refusal?_eq_some_iff.2 ⟨c, e, found, valid, rfl⟩
        rw [List.filter_cons_of_neg (by simp [taken]), List.filterMap_cons_some refused]
        simp only [valid]
        by_cases reject : policy = .reject
        · simp [reject]
        · simp only [if_neg reject, Error.bind_eq_ok, Prod.exists, ih]
          constructor
          · rintro ⟨_, _, ⟨-, rfl, rfl⟩, same⟩
            obtain ⟨rfl, rfl⟩ := Prod.mk.inj (Except.ok.inj same)
            exact ⟨fun h => absurd h reject, rfl, rfl⟩
          · rintro ⟨-, rfl, rfl⟩
            exact ⟨_, _, ⟨fun h => absurd h reject, rfl, rfl⟩, rfl⟩

/-- A successful update matches no row and changes nothing, or it writes the assignments that their
columns take, none of which clashes, into every row that it matches, and reports the others. -/
theorem update_ok {t t' : Table} {assignments : List (String × Value)} {p : Row → Bool}
    {policy : FieldPolicy} {outcome : UpdateOutcome}
    (h : t.update assignments p policy = .ok (outcome, t')) :
    (t.positions p = [] ∧ outcome = ⟨0, []⟩ ∧ t' = t) ∨
      (t.positions p ≠ [] ∧
        (policy = .reject → assignments.filterMap t.schema.refusal? = []) ∧
        (∀ a ∈ assignments.filter t.schema.takes, t.clashes (t.positions p) a = false) ∧
        outcome = ⟨(t.positions p).length, assignments.filterMap t.schema.refusal?⟩ ∧
        t' = (t.positions p).foldl (writeAll (assignments.filter t.schema.takes)) t) := by
  rw [update] at h
  split at h
  · next hnil =>
    obtain ⟨rfl, rfl⟩ := Prod.mk.inj (Except.ok.inj h)
    exact .inl ⟨List.isEmpty_iff.1 hnil, rfl, rfl⟩
  · next hne =>
    obtain ⟨⟨effective, ignored⟩, hacc, h⟩ := Error.bind_eq_ok.1 h
    obtain ⟨strict, rfl, rfl⟩ := accepted_ok_iff.1 hacc
    dsimp only at h
    split at h
    · exact nomatch h
    · next hnone =>
      obtain ⟨rfl, rfl⟩ := Prod.mk.inj (Except.ok.inj h)
      refine .inr ⟨fun he => hne (by rw [he]; rfl), strict, ?_, rfl, rfl⟩
      intro a ha
      simpa using List.find?_eq_none.1 hnone a ha

theorem schema_writeAll (assignments : List (String × Value)) (t : Table) (q : Nat) :
    (writeAll assignments t q).schema = t.schema :=
  List.foldlRecOn assignments (write q) (motive := fun u : Table => u.schema = t.schema) rfl
    fun u hu a _ => (schema_write q u a).trans hu

theorem schema_foldl_writeAll (assignments : List (String × Value)) (t : Table)
    (positions : List Nat) : (positions.foldl (writeAll assignments) t).schema = t.schema :=
  List.foldlRecOn positions (writeAll assignments) (motive := fun u : Table => u.schema = t.schema)
    rfl fun u hu q _ => (schema_writeAll assignments u q).trans hu

theorem schema_update {t t' : Table} {assignments : List (String × Value)} {p : Row → Bool}
    {policy : FieldPolicy} {outcome : UpdateOutcome}
    (h : t.update assignments p policy = .ok (outcome, t')) : t'.schema = t.schema := by
  rcases update_ok h with ⟨-, -, rfl⟩ | ⟨-, -, -, -, rfl⟩
  · rfl
  · exact schema_foldl_writeAll _ t (t.positions p)

/-- An assignment clashes if it is one of a key to a matched row, and there is another row that is
matched as well or that holds the key. -/
theorem Consistent.clashes_iff {t : Table} (h : t.Consistent) {matched : List Nat}
    (there : matched ≠ []) (nodup : matched.Nodup) {a : String × Value} :
    t.clashes matched a = true ↔
      (∃ c ∈ t.schema.columns, c.indexed = true ∧ c.name = a.1) ∧ a.2.isNull = false ∧
        ∃ i ∈ matched, ∃ j, i ≠ j ∧
          (j ∈ matched ∨ ∃ row, t.rows[j]? = some row ∧ (row.get a.1).same a.2 = true) := by
  rw [clashes]
  cases index : t.index? a.1 with
  | none =>
    constructor
    · intro clash
      cases clash
    · rintro ⟨⟨c, hc, indexed, named⟩, -⟩
      obtain ⟨ix, hix, -⟩ := h.exists_index hc indexed
      rw [named, index] at hix
      cases hix
  | some ix =>
    have lists := h.indexes_list _ (mem_indexes index)
    obtain ⟨first, head⟩ : ∃ first, matched.head? = some first :=
      Option.isSome_iff_exists.1 (List.isSome_head?.2 there)
    have several_iff : 1 < matched.length ↔ ∃ i ∈ matched, ∃ j ∈ matched, i ≠ j := by
      rw [← List.toFinset_card_of_nodup nodup, Finset.one_lt_card]
      simp only [List.mem_toFinset]
    simp only [Bool.and_eq_true, Bool.not_eq_eq_eq_not, Bool.not_true, Bool.or_eq_true,
      decide_eq_true_eq, List.any_eq_true, head]
    constructor
    · rintro ⟨key, several | ⟨j, hj, apart⟩⟩
      · obtain ⟨i, hi, j, hj, apart⟩ := several_iff.1 several
        exact ⟨h.exists_column (mem_indexes index), key, i, hi, j, apart, .inl hj⟩
      · have holder := ((lists.mem_find a.2 j).1 hj).2
        refine ⟨h.exists_column (mem_indexes index), key, first, List.mem_of_head? head, j, ?_,
          .inr holder⟩
        rintro rfl
        exact apart rfl
    · rintro ⟨-, key, i, hi, j, apart, second⟩
      refine ⟨key, ?_⟩
      by_cases hj : j ∈ matched
      · exact .inl (several_iff.2 ⟨i, hi, j, hj, apart⟩)
      · refine .inr ⟨j, (lists.mem_find a.2 j).2 ⟨key, second.resolve_left hj⟩, ?_⟩
        intro same
        exact hj (List.mem_of_head? (head.trans same.symm))

/-- An assignment that does not clash may be written into every matched row. -/
theorem Consistent.assignable {t : Table} (h : t.Consistent) {matched : List Nat}
    (there : matched ≠ []) (nodup : matched.Nodup) {a : String × Value}
    (taken : t.schema.takes a = true) (cleared : t.clashes matched a = false) :
    t.Assignable matched a := by
  have alone : ∀ c ∈ t.schema.columns, c.name = a.1 → c.indexed = true → a.2.isNull = false →
      ∀ i ∈ matched, ∀ j, i ≠ j →
        ¬(j ∈ matched ∨ ∃ row, t.rows[j]? = some row ∧ (row.get a.1).same a.2 = true) := by
    intro c hc named indexed key i hi j apart second
    exact Bool.eq_false_iff.1 cleared
      ((h.clashes_iff there nodup).2 ⟨⟨c, hc, indexed, named⟩, key, i, hi, j, apart, second⟩)
  refine ⟨Schema.takes_iff.1 taken, ?_, ?_⟩
  · intro c hc named indexed key p hp q hq
    by_contra apart
    exact alone c hc named indexed key p hp q apart (.inl hq)
  · intro c hc named indexed key q row hrow same
    by_contra unmatched
    obtain ⟨first, hfirst⟩ := List.exists_mem_of_ne_nil matched there
    have apart : first ≠ q := fun same => unmatched (same ▸ hfirst)
    exact alone c hc named indexed key first hfirst q apart (.inr ⟨row, hrow, named ▸ same⟩)

/-- Writing assignable values into a row keeps the table consistent and the values assignable. -/
theorem Consistent.writeAll {t : Table} {positions : List Nat}
    {assignments : List (String × Value)} {q : Nat} (hq : q ∈ positions)
    (h : t.Consistent ∧ ∀ a ∈ assignments, t.Assignable positions a) :
    (writeAll assignments t q).Consistent ∧
      ∀ a ∈ assignments, (Table.writeAll assignments t q).Assignable positions a := by
  refine List.foldlRecOn assignments (Table.write q)
    (motive := fun u : Table => u.Consistent ∧ ∀ a ∈ assignments, u.Assignable positions a) h ?_
  rintro u ⟨hu, ha⟩ a hmem
  exact ⟨hu.write hq (ha a hmem), fun b hb => (ha b hb).write hq a⟩

/-- So does writing them into all the rows. -/
theorem Consistent.foldl_writeAll {t : Table} {positions : List Nat}
    {assignments : List (String × Value)} (h : t.Consistent)
    (assignable : ∀ a ∈ assignments, t.Assignable positions a) :
    (positions.foldl (Table.writeAll assignments) t).Consistent :=
  (List.foldlRecOn positions (Table.writeAll assignments)
    (motive := fun u : Table => u.Consistent ∧ ∀ a ∈ assignments, u.Assignable positions a)
    ⟨h, assignable⟩ fun _ hu _ hq => Consistent.writeAll hq hu).1

theorem Consistent.update {t t' : Table} (h : t.Consistent)
    {assignments : List (String × Value)} {p : Row → Bool} {policy : FieldPolicy}
    {outcome : UpdateOutcome} (hu : t.update assignments p policy = .ok (outcome, t')) :
    t'.Consistent := by
  rcases update_ok hu with ⟨-, -, rfl⟩ | ⟨there, -, hclash, -, rfl⟩
  · exact h
  · exact h.foldl_writeAll fun a ha =>
      h.assignable there (nodup_positions t p) (List.mem_filter.1 ha).2 (hclash a ha)

/-! ## Deletion and truncation -/

/-- Building the indexes anew makes a table of some of the rows consistent. -/
theorem Consistent.reindexed {t u : Table} (h : t.Consistent) (hs : u.schema = t.schema)
    (hi : u.indexes.map (·.1) = t.indexes.map (·.1)) (hr : u.rows.Sublist t.rows) :
    u.reindexed.Consistent where
  columnNames_nodup := by
    show u.schema.columnNames.Nodup
    rw [hs]
    exact h.columnNames_nodup
  rows_fit := by
    intro row hrow
    show row.Fits u.schema.columns
    rw [hs]
    exact h.rows_fit row (hr.subset hrow)
  keys_distinct := by
    show ∀ c ∈ u.schema.columns, _
    rw [hs]
    exact fun c hc hind => (h.keys_distinct c hc hind).sublist hr
  indexes_names := by
    show _ = (u.schema.columns.filter _).map _
    rw [hs, ← h.indexes_names, ← hi]
    simp [Table.reindexed]
  indexes_list := by
    intro entry he
    obtain ⟨old, -, rfl⟩ := List.mem_map.1 he
    exact Index.Lists.ofValues u.rows old.1

theorem removeAt_keeps (t : Table) (q : Nat) :
    (t.removeAt q).schema = t.schema ∧
      (t.removeAt q).indexes.map (·.1) = t.indexes.map (·.1) ∧
      (t.removeAt q).rows = t.rows.eraseIdx q := by
  rw [removeAt]
  split
  · next hnone =>
    exact ⟨rfl, rfl, (List.eraseIdx_of_length_le (List.getElem?_eq_none_iff.1 hnone)).symm⟩
  · exact ⟨rfl, by rw [List.map_map]; rfl, rfl⟩

/-- Removing rows at several positions changes neither the schema nor which columns are indexed. -/
theorem foldr_removeAt_keeps (t : Table) (positions : List Nat) :
    let u := positions.foldr (fun q u => u.removeAt q) t
    u.schema = t.schema ∧ u.indexes.map (·.1) = t.indexes.map (·.1) ∧
      u.rows = positions.foldr (fun q rows => rows.eraseIdx q) t.rows := by
  induction positions with
  | nil => exact ⟨rfl, rfl, rfl⟩
  | cons q positions ih =>
    obtain ⟨hs, hi, hr⟩ := removeAt_keeps (positions.foldr (fun q u => u.removeAt q) t) q
    exact ⟨hs.trans ih.1, hi.trans ih.2.1, hr.trans (by rw [ih.2.2]; rfl)⟩

/-- Erasing the matched positions, the last one first, leaves the rows that do not match. The rows
in front are those that have been looked at. -/
theorem foldr_eraseIdx_positions (p : Row → Bool) (front rows : List Row) :
    (((rows.zipIdx front.length).filter fun (row, _) => p row).map (·.2)).foldr
        (fun q rows => rows.eraseIdx q) (front ++ rows) =
      front ++ rows.filter fun row => !p row := by
  induction rows generalizing front with
  | nil => simp
  | cons row rows ih =>
    have hih := ih (front ++ [row])
    rw [List.length_append, List.length_singleton, List.append_assoc, List.singleton_append,
      List.append_assoc, List.singleton_append] at hih
    by_cases hp : p row = true
    · simp only [List.zipIdx_cons, List.filter_cons, hp, if_true, List.map_cons, List.foldr_cons,
        hih, Bool.not_true, Bool.false_eq_true, if_false]
      rw [List.eraseIdx_append_of_length_le (Nat.le_refl _), Nat.sub_self, List.eraseIdx_cons_zero]
    · simp only [List.zipIdx_cons, List.filter_cons, hp, hih, Bool.not_false, if_true,
        Bool.false_eq_true, if_false]

/-- A deletion keeps just the rows that do not match. -/
theorem rows_delete (t : Table) (p : Row → Bool) :
    (t.delete p).2.rows = t.rows.filter fun row => !p row := by
  rw [delete]
  split
  · next hnil =>
    refine (List.filter_eq_self.2 fun row hrow => ?_).symm
    rw [positions_eq_nil_iff.1 (List.isEmpty_iff.1 hnil) row hrow]
    rfl
  · rw [List.foldl_reverse]
    refine (foldr_removeAt_keeps t (t.positions p)).2.2.trans ?_
    exact foldr_eraseIdx_positions p [] t.rows

@[simp] theorem schema_delete (t : Table) (p : Row → Bool) :
    (t.delete p).2.schema = t.schema := by
  rw [delete]
  split
  · rfl
  · rw [List.foldl_reverse]
    exact (foldr_removeAt_keeps t (t.positions p)).1

theorem Consistent.delete {t : Table} (h : t.Consistent) (p : Row → Bool) :
    (t.delete p).2.Consistent := by
  have hrows := rows_delete t p
  rw [Table.delete] at hrows ⊢
  split at hrows
  · next hnil =>
    rw [if_pos hnil]
    exact h
  · next hne =>
    rw [if_neg hne]
    rw [List.foldl_reverse] at hrows ⊢
    obtain ⟨hs, hi, -⟩ := foldr_removeAt_keeps t (t.positions p)
    refine h.reindexed hs hi ?_
    have hsub : (t.rows.filter fun row => !p row).Sublist t.rows := List.filter_sublist
    rw [← hrows] at hsub
    exact hsub

theorem rows_truncate (t : Table) (length : Nat) :
    (t.truncate length).rows = t.rows.take length := by
  rw [truncate]
  split
  · next h => exact (List.take_of_length_le h).symm
  · rfl

@[simp] theorem schema_truncate (t : Table) (length : Nat) :
    (t.truncate length).schema = t.schema := by
  rw [truncate]
  split <;> rfl

theorem Consistent.truncate {t : Table} (h : t.Consistent) (length : Nat) :
    (t.truncate length).Consistent := by
  rw [Table.truncate]
  split
  · exact h
  · exact h.reindexed rfl rfl (List.take_sublist _ _)

end Table
end Store
end PocketSql
