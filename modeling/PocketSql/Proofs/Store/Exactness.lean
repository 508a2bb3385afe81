import PocketSql.Proofs.Store.Mutation

/-!
# Indexes and scans agree after every history

A table changes by insertions, updates, deletions and truncations, some of which are refused. Main
statement: whatever the history of a checked schema's table, its rows fit, its keys are distinct,
and the index of each keyed column tells exactly what a scan of the rows tells.
-/

namespace PocketSql
namespace Store

/-- A change that is asked of a table. -/
inductive Mutation where
  | insert (given : Row)
  | update (assignments : List (String × Value)) (p : Row → Bool) (policy : FieldPolicy)
  | delete (p : Row → Bool)
  | truncate (length : Nat)

namespace Table

/-! ## What a scan finds -/

/-- The rows that hold a value in a column, by looking at every row. NULL is looked for nowhere. -/
def scan (t : Table) (column : String) (v : Value) : List Row :=
  if v.isNull then [] else t.rows.filter fun row => (row.get column).same v

/-- The positions of the rows that hold a value in a column, in ascending order. -/
def places (t : Table) (column : String) (v : Value) : List Nat :=
  if v.isNull then [] else t.positions fun row => (row.get column).same v

/-- Following the positions of the matching rows leads to these rows, in their order. -/
theorem filterMap_positions (t : Table) (p : Row → Bool) :
    (t.positions p).filterMap (t.rows[·]?) = t.rows.filter p := by
  have hfst : ∀ entry ∈ t.rows.zipIdx.filter fun entry => p entry.1,
      t.rows[entry.2]? = some entry.1 := fun entry he =>
    List.mem_zipIdx_iff_getElem?.1 (List.mem_filter.1 he).1
  calc
    (t.positions p).filterMap (t.rows[·]?)
      = (t.rows.zipIdx.filter fun entry => p entry.1).filterMap (t.rows[·.2]?) := by
        rw [positions, List.filterMap_map]
        rfl
    _ = (t.rows.zipIdx.filter fun entry => p entry.1).filterMap fun entry => some entry.1 :=
        List.filterMap_congr hfst
    _ = (t.rows.zipIdx.filter (p ∘ Prod.fst)).map Prod.fst := by
        rw [List.filterMap_eq_map']
        rfl
    _ = t.rows.filter p := by rw [← List.filter_map, List.zipIdx_map_fst]

/-- Lists that have the same members, but no two of them, are equal. -/
theorem eq_of_mem_unique {l m : List Nat} (hl : l.Nodup) (hm : m.Nodup)
    (h : ∀ p, p ∈ l ↔ p ∈ m) (hu : ∀ p ∈ l, ∀ q ∈ l, p = q) : l = m := by
  have hperm : l.Perm m := (List.perm_ext_iff_of_nodup hl hm).2 h
  match l with
  | [] => exact (List.nil_perm.1 hperm).symm
  | [p] => exact (List.singleton_perm.1 hperm)
  | p :: q :: l =>
    obtain rfl := hu p List.mem_cons_self q (List.mem_cons_of_mem p List.mem_cons_self)
    exact absurd List.mem_cons_self (List.nodup_cons.1 hl).1

variable {t : Table} {c : Column}

/-- As keys are distinct, the order in which positions were added cannot differ from theirs. -/
theorem Consistent.find_eq_places (h : t.Consistent) (hc : c ∈ t.schema.columns)
    (hi : c.indexed = true) {ix : Index} (hl : ix.Lists t.rows c.name) (v : Value) :
    ix.find v = t.places c.name v := by
  by_cases hv : v.isNull = true
  · rw [hl.wellFormed.find_null hv, places, if_pos hv]
  · have hv' : v.isNull = false := Bool.eq_false_iff.2 hv
    rw [places, if_neg hv]
    refine eq_of_mem_unique (hl.wellFormed.nodup_find v) (nodup_positions t _) ?_ ?_
    · intro p
      rw [hl.mem_find, mem_positions]
      exact ⟨fun hp => hp.2, fun hp => ⟨hv', hp⟩⟩
    · intro p hp q hq
      obtain ⟨-, row, hrow, hs⟩ := (hl.mem_find v p).1 hp
      obtain ⟨-, other, hother, hs'⟩ := (hl.mem_find v q).1 hq
      exact h.position_unique hc hi hv' hrow hs hother hs'

/-- The index of a keyed column finds what a scan finds. -/
theorem Consistent.findByIndex_eq_scan (h : t.Consistent) (hc : c ∈ t.schema.columns)
    (hi : c.indexed = true) (v : Value) : t.findByIndex c.name v = t.scan c.name v := by
  obtain ⟨ix, hix, hl⟩ := h.exists_index hc hi
  rw [findByIndex, hix]
  show (ix.find v).filterMap (t.rows[·]?) = t.scan c.name v
  rw [h.find_eq_places hc hi hl, places, scan]
  split
  · rfl
  · exact filterMap_positions t _

/-! ## Histories -/

/-- The table after a change; a change that is refused leaves it as it is. -/
def after (t : Table) : Mutation → Table
  | .insert given =>
    match t.insert given with
    | .ok t' => t'
    | .error _ => t
  | .update assignments p policy =>
    match t.update assignments p policy with
    | .ok (_, t') => t'
    | .error _ => t
  | .delete p => (t.delete p).2
  | .truncate length => t.truncate length

/-- The table after changes one after the other. -/
def afterAll (t : Table) (history : List Mutation) : Table := history.foldl after t

/-- A table that comes about by asking changes of an empty one, whose schema has been checked. -/
def Arises (t : Table) : Prop :=
  ∃ (s schema : Schema) (history : List Mutation),
    s.checked = .ok schema ∧ t = (ofSchema schema).afterAll history

/-- A table of a schema in which every row fits, keys are distinct, and the index of each keyed
column lists each value that is there with its positions, and no other value or position. -/
structure Exact (t : Table) (schema : Schema) : Prop where
  schema_eq : t.schema = schema
  rows_fit : ∀ row ∈ t.rows, row.Fits schema.columns
  keys_distinct : ∀ c ∈ schema.columns, c.indexed = true →
    t.rows.Pairwise fun row other => Row.repeats c.name row other = false
  findByIndex_eq : ∀ c ∈ schema.columns, c.indexed = true → ∀ v,
    t.findByIndex c.name v = t.scan c.name v
  index_exact : ∀ c ∈ schema.columns, c.indexed = true → ∃ ix, t.index? c.name = some ix ∧
    (∀ v, ix.find v = t.places c.name v) ∧
    (∀ e ∈ ix.entries, e.2 ≠ [] ∧ e.2 = t.places c.name e.1) ∧
    ix.keys.Pairwise fun v w => v.same w = false

theorem Consistent.exact (h : t.Consistent) : t.Exact t.schema where
  schema_eq := rfl
  rows_fit := h.rows_fit
  keys_distinct := h.keys_distinct
  findByIndex_eq := fun _ hc hi => h.findByIndex_eq_scan hc hi
  index_exact := by
    intro c hc hi
    obtain ⟨ix, hix, hl⟩ := h.exists_index hc hi
    refine ⟨ix, hix, h.find_eq_places hc hi hl, fun e he => ?_, hl.wellFormed.keys_distinct⟩
    refine ⟨hl.wellFormed.positions_ne_nil e he, ?_⟩
    rw [← h.find_eq_places hc hi hl, hl.wellFormed.find_entry he]

@[simp] theorem schema_after (t : Table) (m : Mutation) : (t.after m).schema = t.schema := by
  cases m with
  | insert given =>
    rw [after]
    split
    · next h => exact schema_insert h
    · rfl
  | update assignments p policy =>
    rw [after]
    split
    · next h => exact schema_update h
    · rfl
  | delete p => exact schema_delete t p
  | truncate length => exact schema_truncate t length

/-- One change keeps a table consistent. -/
theorem Consistent.after (h : t.Consistent) (m : Mutation) : (t.after m).Consistent := by
  cases m with
  | insert given =>
    rw [Table.after]
    split
    · next hi => exact h.insert hi
    · exact h
  | update assignments p policy =>
    rw [Table.after]
    split
    · next hu => exact h.update hu
    · exact h
  | delete p => exact h.delete p
  | truncate length => exact h.truncate length

/-- So do changes one after the other. -/
theorem Consistent.afterAll (h : t.Consistent) (history : List Mutation) :
    (t.afterAll history).Consistent ∧ (t.afterAll history).schema = t.schema := by
  induction history generalizing t with
  | nil => exact ⟨h, rfl⟩
  | cons m history ih =>
    obtain ⟨hc, hs⟩ := ih (h.after m)
    exact ⟨hc, hs.trans (schema_after t m)⟩

theorem Arises.consistent {t : Table} (h : t.Arises) : t.Consistent := by
  obtain ⟨s, schema, history, checked, rfl⟩ := h
  exact ((consistent_ofSchema (Schema.columnNames_nodup checked)).afterAll history).1

/-- **Whatever is asked of a table**, its rows fit, its keys are distinct and its indexes are
exact. -/
theorem exact_afterAll {s schema : Schema} (h : s.checked = .ok schema)
    (history : List Mutation) : ((ofSchema schema).afterAll history).Exact schema := by
  obtain ⟨hc, hs⟩ := (consistent_ofSchema (Schema.columnNames_nodup h)).afterAll history
  have hexact := hc.exact
  rw [hs] at hexact
  exact hexact

/-- Members with a number and an address of their own, of which the address may be missing. -/
def members : Schema := .ofColumns "members"
  [⟨"id", .number, false, true, false, none⟩, ⟨"mail", .string, true, false, true, none⟩]

/-- A history with a repeated key (zero with a minus), a repeated address, an address taken back and
a deletion that moves the last row. -/
def memberHistory : List Mutation :=
  [.insert [("id", .number ⟨0⟩), ("mail", .string "a")],
   .insert [("id", .number ⟨0x8000000000000000⟩)],
   .insert [("id", .number ⟨0x3FF0000000000000⟩)],
   .update [("mail", .string "a")] (fun row => row.get "mail" = .null) .warn,
   .update [("mail", .string "b"), ("mail", .null)] (fun row => row.get "mail" = .string "a") .warn,
   .delete (fun row => row.get "id" = .number ⟨0⟩),
   .truncate 3]

/-- The repeated key is refused, and the row that is left is found where the deletion has put it. -/
theorem exact_members :
    let schema : Schema := { members with primaryKey := some "id" }
    let first := (ofSchema schema).afterAll (memberHistory.take 1)
    let filled := (ofSchema schema).afterAll (memberHistory.take 5)
    let last := (ofSchema schema).afterAll memberHistory
    let one : Value := .number ⟨0x3FF0000000000000⟩
    members.checked = .ok schema ∧ last.Exact schema ∧
      (first.append [("id", .number ⟨0x8000000000000000⟩)]).1 =
        .error (.duplicateKey "id" (.number ⟨0x8000000000000000⟩)) ∧
      filled.rows = [[("id", .number ⟨0⟩), ("mail", .null)], [("id", one), ("mail", .null)]] ∧
      last.rows = [[("id", one), ("mail", .null)]] ∧
      (filled.index? "id").map (·.find one) = some [1] ∧
      (last.index? "id").map (·.find one) = some [0] ∧
      last.findByIndex "id" one = [[("id", one), ("mail", .null)]] ∧
      (last.index? "mail").map (·.entries) = some [] := by
  intro schema first filled last one
  have checked : members.checked = .ok schema := by decide
  have facts : (first.append [("id", .number ⟨0x8000000000000000⟩)]).1 =
        .error (.duplicateKey "id" (.number ⟨0x8000000000000000⟩)) ∧
      filled.rows = [[("id", .number ⟨0⟩), ("mail", .null)], [("id", one), ("mail", .null)]] ∧
      last.rows = [[("id", one), ("mail", .null)]] ∧
      (filled.index? "id").map (·.find one) = some [1] ∧
      (last.index? "id").map (·.find one) = some [0] ∧
      last.findByIndex "id" one = [[("id", one), ("mail", .null)]] ∧
      (last.index? "mail").map (·.entries) = some [] := by
    decide
  exact ⟨checked, exact_afterAll checked memberHistory, facts⟩

end Table
end Store
end PocketSql
