import PocketSql.Proofs.Store.Assignment

/-!
# Updates that would repeat a key

An update looks at its assignments one by one before it writes any of them: an assignment of a key
clashes if it goes to two rows, or if a row that is not matched holds the key. That is how the rows
would stand once the update has come to this assignment, so that an update is refused for a key that
is repeated on the way, even if a later assignment would take it back.

## Main definitions

* `assignedRows` — the rows that assignments lead to.
* `RepeatsKey` — two rows hold the same key.

## Main results

* `Table.Consistent.repeatsKey_of_clashes`, `Table.Consistent.not_repeatsKey` — a clash tells a
  repeated key, and without a clash no key is repeated.
* `Table.update_duplicate_iff` — an update is refused just if it repeats a key on its way.
-/

namespace PocketSql

theorem Row.repeats_congr {row other row' other' : Row} {column : String}
    (same : (row.get column).same (row'.get column) = true)
    (same' : (other.get column).same (other'.get column) = true) :
    repeats column row other = repeats column row' other' := by
  rw [Bool.eq_iff_iff, repeats_iff, repeats_iff, Value.isNull_eq_of_same same]
  constructor
  · rintro ⟨key, h⟩
    exact ⟨key, Value.same_trans (Value.same_trans (Value.same_comm _ _ ▸ same) h) same'⟩
  · rintro ⟨key, h⟩
    exact ⟨key, Value.same_trans (Value.same_trans same h) (Value.same_comm _ _ ▸ same')⟩

namespace Store

/-- The rows after assignments to those that fulfil a predicate. -/
def assignedRows (rows : List Row) (p : Row → Bool) (assignments : List (String × Value)) :
    List Row :=
  rows.map fun row => if p row then row.assigned assignments else row

/-- Two rows hold the same value in a column that is a primary key or unique. NULL is no key. -/
def RepeatsKey (schema : Schema) (rows : List Row) : Prop :=
  ∃ c ∈ schema.columns, c.indexed = true ∧
    ¬ rows.Pairwise fun row other => Row.repeats c.name row other = false

/-- Changes that give a column the same values repeat the same keys. -/
theorem pairwise_repeats_congr {rows : List Row} {p : Row → Bool} {f g : Row → Row}
    {column : String} (same : ∀ row, ((f row).get column).same ((g row).get column) = true) :
    (rows.map fun row => if p row then f row else row).Pairwise
        (fun row other => Row.repeats column row other = false) ↔
      (rows.map fun row => if p row then g row else row).Pairwise
        fun row other => Row.repeats column row other = false := by
  have each (row : Row) : ((if p row then f row else row).get column).same
      ((if p row then g row else row).get column) = true := by
    by_cases fulfilled : p row = true
    · rw [if_pos fulfilled, if_pos fulfilled]
      exact same row
    · rw [if_neg fulfilled, if_neg fulfilled]
      exact Value.same_self _
  rw [List.pairwise_map, List.pairwise_map]
  simp only [Row.repeats_congr (each _) (each _)]

namespace Table

variable {t : Table} {p : Row → Bool} {a : String × Value} {assignments : List (String × Value)}

/-- Where an assignment clashes, the rows that it leads to repeat its key. -/
theorem Consistent.repeatsKey_of_clashes (h : t.Consistent) (there : t.positions p ≠ [])
    (clash : t.clashes (t.positions p) a = true) :
    RepeatsKey t.schema (assignedRows t.rows p (assignments ++ [a])) := by
  obtain ⟨⟨c, hc, indexed, named⟩, key, i, hi, j, apart, second⟩ :=
    (h.clashes_iff there (nodup_positions t p)).1 clash
  refine ⟨c, hc, indexed, fun distinct => apart ?_⟩
  have matched_get {q : Nat} (hq : q ∈ t.positions p) :
      ∃ row, (assignedRows t.rows p (assignments ++ [a]))[q]? = some row ∧
        row.get c.name = a.2 := by
    obtain ⟨row, hrow, fulfilled⟩ := mem_positions.1 hq
    refine ⟨row.assigned (assignments ++ [a]), ?_, ?_⟩
    · rw [assignedRows, List.getElem?_map, hrow, Option.map_some, if_pos fulfilled]
    · rw [Row.get_assigned, valuesFor_append, valuesFor_cons, if_pos named.symm]
      exact List.getLastD_concat
  have other_get : ∃ other, (assignedRows t.rows p (assignments ++ [a]))[j]? = some other ∧
      (other.get c.name).same a.2 = true := by
    by_cases hj : j ∈ t.positions p
    · obtain ⟨other, hother, value⟩ := matched_get hj
      exact ⟨other, hother, value ▸ Value.same_self a.2⟩
    · obtain ⟨other, hother, same⟩ := second.resolve_left hj
      have unmatched : ¬ p other = true := fun fulfilled =>
        hj (mem_positions.2 ⟨other, hother, fulfilled⟩)
      refine ⟨other, ?_, named ▸ same⟩
      rw [assignedRows, List.getElem?_map, hother, Option.map_some, if_neg unmatched]
  obtain ⟨row, hrow, value⟩ := matched_get hi
  obtain ⟨other, hother, same⟩ := other_get
  refine pairwise_repeats_iff.1 distinct i j row other hrow hother ?_
  rw [Row.repeats_iff, value, Value.same_comm]
  exact ⟨key, same⟩

/-- Where no assignment clashes, the rows that they lead to repeat no key. -/
theorem Consistent.not_repeatsKey (h : t.Consistent)
    (taken : ∀ a ∈ assignments, t.schema.takes a = true)
    (cleared : t.positions p ≠ [] → ∀ a ∈ assignments, t.clashes (t.positions p) a = false) :
    ¬ RepeatsKey t.schema (assignedRows t.rows p assignments) := by
  rintro ⟨c, hc, indexed, repeated⟩
  have distinct : (t.rows.map fun row => if p row then row.written assignments else row).Pairwise
      fun row other => Row.repeats c.name row other = false := by
    rw [← rows_writeAll_positions]
    by_cases nowhere : t.positions p = []
    · rw [nowhere]
      exact h.keys_distinct c hc indexed
    · have written : ((t.positions p).foldl (Table.writeAll assignments) t).Consistent :=
        h.foldl_writeAll fun a ha =>
          h.assignable nowhere (nodup_positions t p) (taken a ha) (cleared nowhere a ha)
      exact written.keys_distinct c (by rwa [schema_foldl_writeAll]) indexed
  exact repeated ((pairwise_repeats_congr fun row =>
    Row.same_get_written row assignments c.name).1 distinct)

/-- Assignments to other columns repeat no key of a column and take none back. -/
theorem pairwise_append_iff {column : String} {rows : List Row} {after : List (String × Value)}
    (none : valuesFor after column = []) :
    (assignedRows rows p (assignments ++ after)).Pairwise
        (fun row other => Row.repeats column row other = false) ↔
      (assignedRows rows p assignments).Pairwise
        fun row other => Row.repeats column row other = false := by
  apply pairwise_repeats_congr
  intro row
  rw [Row.get_assigned, Row.get_assigned, valuesFor_append, none, List.append_nil]
  exact Value.same_self _

theorem assignedRows_nil (rows : List Row) (p : Row → Bool) : assignedRows rows p [] = rows := by
  simp [assignedRows, Row.assigned]

variable {policy : FieldPolicy}

/-- An update that matches some row and is not refused for a value looks for a clash. -/
theorem update_eq (there : t.positions p ≠ [])
    (strict : policy = .reject → assignments.filterMap t.schema.refusal? = []) :
    t.update assignments p policy =
      match (assignments.filter t.schema.takes).find? (t.clashes (t.positions p)) with
      | some (column, v) => .error (.duplicateKey column v)
      | none => .ok (⟨(t.positions p).length, assignments.filterMap t.schema.refusal?⟩,
          (t.positions p).foldl (writeAll (assignments.filter t.schema.takes)) t) := by
  have split := accepted_ok_iff.2 ⟨strict, rfl, rfl⟩
  rw [update, if_neg (by simpa using there), split]
  rfl

/-- An update that is not refused for a value is refused for a key just if it matches some row and
an assignment clashes. -/
theorem update_duplicate_iff_clashes
    (strict : policy = .reject → assignments.filterMap t.schema.refusal? = []) :
    (∃ column v, t.update assignments p policy = .error (.duplicateKey column v)) ↔
      t.positions p ≠ [] ∧
        ∃ a ∈ assignments, t.schema.takes a = true ∧ t.clashes (t.positions p) a = true := by
  by_cases nowhere : t.positions p = []
  · simp [update, nowhere, pure, Except.pure]
  · rw [update_eq nowhere strict]
    cases found : (assignments.filter t.schema.takes).find? (t.clashes (t.positions p)) with
    | none =>
      have cleared := List.find?_eq_none.1 found
      simp only [List.mem_filter, and_imp] at cleared
      constructor
      · rintro ⟨_, _, error⟩
        cases error
      · rintro ⟨-, a, ha, taken, clash⟩
        exact absurd clash (cleared a ha taken)
    | some a =>
      obtain ⟨ha, taken⟩ := List.mem_filter.1 (List.mem_of_find?_eq_some found)
      exact ⟨fun _ => ⟨nowhere, a, ha, taken, List.find?_some found⟩, fun _ => ⟨a.1, a.2, rfl⟩⟩

/-- **An update is refused for a key just if it repeats one on its way**: carried out from left to
right, the assignments that their columns take come to rows of which two hold the same key. So it is
refused whenever the rows at the end repeat a key, and for no other reason if no key is assigned
twice. The table then stays as it is. -/
theorem update_duplicate_iff (arises : t.Arises)
    (strict : policy = .reject → ∀ a ∈ assignments, t.schema.refusal? a = none) :
    let taken := assignments.filter t.schema.takes
    let refused := ∃ column v, t.update assignments p policy = .error (.duplicateKey column v)
    (refused ↔ ∃ earlier, earlier <+: taken ∧
      RepeatsKey t.schema (assignedRows t.rows p earlier)) ∧
    (RepeatsKey t.schema (assignedRows t.rows p taken) → refused) ∧
    ((∀ c ∈ t.schema.columns, c.indexed = true → (valuesFor taken c.name).length ≤ 1) →
      (refused ↔ RepeatsKey t.schema (assignedRows t.rows p taken))) ∧
    (refused → t.after (.update assignments p policy) = t) := by
  intro taken refused
  have consistent := arises.consistent
  have refused_iff : refused ↔ _ :=
    update_duplicate_iff_clashes fun reject => List.filterMap_eq_nil_iff.2 (strict reject)
  have onTheWay : refused ↔ ∃ earlier, earlier <+: taken ∧
      RepeatsKey t.schema (assignedRows t.rows p earlier) := by
    constructor
    · intro h
      obtain ⟨there, a, ha, takes, clash⟩ := refused_iff.1 h
      obtain ⟨before, after, split⟩ := List.append_of_mem (List.mem_filter.2 ⟨ha, takes⟩)
      refine ⟨before ++ [a], ⟨after, ?_⟩, consistent.repeatsKey_of_clashes there clash⟩
      rw [List.append_assoc]
      exact split.symm
    · rintro ⟨earlier, first, repeated⟩
      by_contra accepted
      rw [refused_iff, not_and] at accepted
      refine consistent.not_repeatsKey ?_ ?_ repeated
      · exact fun a ha => (List.mem_filter.1 (first.subset ha)).2
      · intro there a ha
        obtain ⟨ha, takes⟩ := List.mem_filter.1 (first.subset ha)
        exact Bool.eq_false_iff.2 fun clash => accepted there ⟨a, ha, takes, clash⟩
  have atTheEnd : RepeatsKey t.schema (assignedRows t.rows p taken) → refused :=
    fun repeated => onTheWay.2 ⟨taken, List.prefix_refl taken, repeated⟩
  refine ⟨onTheWay, atTheEnd, fun once => ⟨fun h => ?_, atTheEnd⟩, ?_⟩
  · obtain ⟨earlier, ⟨later, split⟩, c, hc, indexed, repeated⟩ := onTheWay.1 h
    have values := once c hc indexed
    rw [← split, valuesFor_append, List.length_append] at values
    by_cases untouched : valuesFor earlier c.name = []
    · -- The keys of the column are still those of the rows before, which repeat none.
      have distinct := consistent.keys_distinct c hc indexed
      rw [← assignedRows_nil t.rows p, ← pairwise_append_iff untouched] at distinct
      exact absurd distinct repeated
    · have none : valuesFor later c.name = [] := by
        have := List.length_pos_iff.2 untouched
        exact List.length_eq_zero_iff.1 (by omega)
      refine ⟨c, hc, indexed, ?_⟩
      rwa [← split, pairwise_append_iff none]
  · rintro ⟨column, v, error⟩
    rw [Table.after, error]

/-- The first thing on the shelf cannot take the slot of the second one, whereas the second one can
take it again. -/
theorem update_duplicate_iff_shelf :
    let t := (ofSchema shelf).afterAll shelfHistory
    let assignments := [("color", .string "red"), ("slot", .number ⟨0x4000000000000000⟩)]
    let first := fun row : Row => (row.get "slot").same (.number ⟨0x3FF0000000000000⟩)
    let second := fun row : Row => (row.get "slot").same (.number ⟨0x4000000000000000⟩)
    t.Arises ∧ (∀ a ∈ assignments, t.schema.refusal? a = none) ∧
      RepeatsKey t.schema (assignedRows t.rows first (assignments.filter t.schema.takes)) ∧
      (∃ column v, t.update assignments first .reject = .error (.duplicateKey column v)) ∧
      t.after (.update assignments first .reject) = t ∧
      ¬ RepeatsKey t.schema (assignedRows t.rows second (assignments.filter t.schema.takes)) ∧
      ¬ ∃ column v, t.update assignments second .reject = .error (.duplicateKey column v) := by
  intro t assignments first second
  have arises : t.Arises := ⟨shelf, _, shelfHistory, by decide, rfl⟩
  have facts : (∀ a ∈ assignments, t.schema.refusal? a = none) ∧
      RepeatsKey t.schema (assignedRows t.rows first (assignments.filter t.schema.takes)) ∧
      ¬ RepeatsKey t.schema (assignedRows t.rows second (assignments.filter t.schema.takes)) ∧
      ∀ c ∈ t.schema.columns, c.indexed = true →
        (valuesFor (assignments.filter t.schema.takes) c.name).length ≤ 1 := by
    unfold RepeatsKey
    decide
  obtain ⟨known, taken, own, once⟩ := facts
  obtain ⟨-, refused, -, stays⟩ :=
    @update_duplicate_iff t first assignments .reject arises fun _ => known
  obtain ⟨-, -, refused_iff, -⟩ :=
    @update_duplicate_iff t second assignments .reject arises fun _ => known
  exact ⟨arises, known, taken, refused taken, stays (refused taken), own,
    fun error => own ((refused_iff once).1 error)⟩

/-- The first thing on the shelf cannot pass by the slot of the second one on its way to a third
slot, although no slot would be taken twice at the end. -/
theorem update_duplicate_passing :
    let t := (ofSchema shelf).afterAll shelfHistory
    let assignments :=
      [("slot", .number ⟨0x4000000000000000⟩), ("slot", .number ⟨0x4008000000000000⟩)]
    let first := fun row : Row => (row.get "slot").same (.number ⟨0x3FF0000000000000⟩)
    t.Arises ∧ (∀ a ∈ assignments, t.schema.refusal? a = none) ∧
      (∃ column v, t.update assignments first .skip = .error (.duplicateKey column v)) ∧
      ¬ RepeatsKey t.schema (assignedRows t.rows first (assignments.filter t.schema.takes)) := by
  intro t assignments first
  refine ⟨⟨shelf, _, shelfHistory, by decide, rfl⟩, by decide, ⟨_, _, rfl⟩, ?_⟩
  unfold RepeatsKey
  decide

end Table
end Store
end PocketSql
