import Mathlib.Data.List.Nodup
import PocketSql.Proofs.Store.Exactness
import PocketSql.Store.Database

/-!
# Databases of consistent tables

In a consistent database no two tables have one name and every table is consistent. Two databases
are alike if nothing that can be asked of their tables tells them apart. As the answers of a
consistent table's indexes are those of a scan, schema and rows decide whether two of them are
alike.
-/

namespace PocketSql
namespace Store
namespace Table

/-- Tables with the same schema and the same rows at the same positions, whose indexes find the same
rows. -/
structure Alike (t u : Table) : Prop where
  schema_eq : t.schema = u.schema
  rows_eq : t.rows = u.rows
  findByIndex_eq : ∀ column v, t.findByIndex column v = u.findByIndex column v

theorem Alike.refl (t : Table) : t.Alike t := ⟨rfl, rfl, fun _ _ => rfl⟩

/-- Keyed columns are found as by a scan, and no row is found in any other column. -/
theorem Consistent.findByIndex_eq {t : Table} (h : t.Consistent) (column : String) (v : Value) :
    t.findByIndex column v =
      if t.schema.columns.any fun c => c.indexed && c.name = column then t.scan column v
      else [] := by
  split
  · next hany =>
    obtain ⟨c, hc, hi⟩ := List.any_eq_true.1 hany
    simp only [Bool.and_eq_true, decide_eq_true_eq] at hi
    obtain ⟨hi, rfl⟩ := hi
    exact h.findByIndex_eq_scan hc hi v
  · next hany =>
    cases hix : t.index? column with
    | none => rw [findByIndex, hix]
    | some ix =>
      obtain ⟨c, hc, hi, named⟩ := h.exists_column (mem_indexes hix)
      exact absurd (List.any_eq_true.2 ⟨c, hc, by simp [hi, named]⟩) hany

/-- Consistent tables are alike if their schemas and rows are equal. -/
theorem Consistent.alike {t u : Table} (ht : t.Consistent) (hu : u.Consistent)
    (hs : t.schema = u.schema) (hr : t.rows = u.rows) : t.Alike u := by
  refine ⟨hs, hr, fun column v => ?_⟩
  rw [ht.findByIndex_eq, hu.findByIndex_eq, hs, scan, scan, hr]

end Table

namespace Database

/-- Names tell the tables apart, and each table is consistent. -/
structure Consistent (db : Database) : Prop where
  names_nodup : db.names.Nodup
  tables_consistent : ∀ t ∈ db.tables, t.Consistent

/-- Databases with the same tables in the same order, as far as can be seen. -/
def Alike (db db' : Database) : Prop := List.Forall₂ Table.Alike db.tables db'.tables

theorem Alike.refl (db : Database) : db.Alike db :=
  List.forall₂_same.2 fun t _ => Table.Alike.refl t

theorem consistent_empty : empty.Consistent := ⟨List.nodup_nil, fun _ h => nomatch h⟩

theorem table_eq_ok_iff {db : Database} {name : String} {t : Table} :
    db.table name = .ok t ↔ db.table? name = some t := by
  rw [table]
  split <;> next found => simp [found]

theorem mem_of_table {db : Database} {name : String} {t : Table} (h : db.table name = .ok t) :
    t ∈ db.tables ∧ t.name = name := by
  have found := table_eq_ok_iff.1 h
  exact ⟨List.mem_of_find?_eq_some found, by simpa using List.find?_some found⟩

/-- A successful creation adds an empty table of a checked schema, under a new name. -/
theorem create_ok {db db' : Database} {schema : Schema} (h : db.create schema = .ok db') :
    ∃ checked, schema.checked = .ok checked ∧ schema.name ∉ db.names ∧
      db' = ⟨db.tables ++ [.ofSchema checked]⟩ := by
  rw [create] at h
  split at h
  · exact nomatch h
  · next hnew =>
    split at h
    · exact nomatch h
    · next checked hchecked =>
      refine ⟨checked, hchecked, fun hmem => hnew ?_, (Except.ok.inj h).symm⟩
      obtain ⟨t, ht, hn⟩ := List.mem_map.1 hmem
      rw [hasTable, table?, List.find?_isSome]
      exact ⟨t, ht, by simpa using hn⟩

theorem drop_ok {db db' : Database} {name : String} (h : db.drop name = .ok db') :
    db' = ⟨db.tables.filter (·.name ≠ name)⟩ := by
  rw [drop] at h
  split at h
  · exact (Except.ok.inj h).symm
  · exact nomatch h

theorem names_replace (db : Database) (t : Table) : (db.replace t).names = db.names := by
  rw [names, replace, List.map_map]
  refine List.map_congr_left fun old _ => ?_
  by_cases hn : old.name = t.name <;> simp [hn]

/-- The table that was put in the place of the one with its name is found under that name. -/
theorem table?_replace (db : Database) (t : Table) :
    (db.replace t).table? t.name = (db.table? t.name).map fun _ => t := by
  have same : (fun old : Table => decide (old.name = t.name)) ∘
      (fun old => if old.name = t.name then t else old) =
        fun old => decide (old.name = t.name) := by
    funext old
    by_cases named : old.name = t.name <;> simp [named]
  rw [table?, replace, List.find?_map, same, table?]
  cases found : db.tables.find? fun old => decide (old.name = t.name) with
  | none => rfl
  | some old =>
    have named : old.name = t.name := by simpa using List.find?_some found
    simp [named]

theorem table_replace {db : Database} {t u : Table} (h : db.table u.name = .ok t) :
    (db.replace u).table u.name = .ok u := by
  rw [table_eq_ok_iff] at h
  rw [table_eq_ok_iff, table?_replace, h, Option.map_some]

/-- Of two tables of one name that are put in the same place, the second one is there. -/
theorem replace_replace (db : Database) {t u : Table} (named : t.name = u.name) :
    (db.replace t).replace u = db.replace u := by
  simp only [replace, List.map_map, mk.injEq]
  apply List.map_congr_left
  intro old _
  by_cases h : old.name = u.name <;> simp [named, h]

namespace Consistent

variable {db : Database}

theorem create (h : db.Consistent) {db' : Database} {schema : Schema}
    (hc : db.create schema = .ok db') : db'.Consistent := by
  obtain ⟨checked, hchecked, hnew, rfl⟩ := create_ok hc
  have hname : (Table.ofSchema checked).name = schema.name := (Schema.checked_ok hchecked).1
  refine ⟨?_, fun t ht => ?_⟩
  · rw [names, List.map_append, List.nodup_append]
    refine ⟨h.names_nodup, List.nodup_singleton _, fun n hn m hm => ?_⟩
    rw [List.mem_singleton.1 hm]
    rintro rfl
    exact hnew (hname ▸ hn)
  · rcases List.mem_append.1 ht with ht | ht
    · exact h.tables_consistent t ht
    · rw [List.mem_singleton.1 ht]
      exact Table.consistent_ofSchema (Schema.columnNames_nodup hchecked)

theorem drop (h : db.Consistent) {db' : Database} {name : String}
    (hd : db.drop name = .ok db') : db'.Consistent := by
  rw [drop_ok hd]
  refine ⟨?_, fun t ht => h.tables_consistent t (List.mem_filter.1 ht).1⟩
  exact h.names_nodup.sublist (List.filter_sublist.map _)

theorem replace (h : db.Consistent) {t : Table} (ht : t.Consistent) :
    (db.replace t).Consistent := by
  refine ⟨by rw [names_replace]; exact h.names_nodup, fun u hu => ?_⟩
  obtain ⟨old, hold, rfl⟩ := List.mem_map.1 hu
  split
  · exact ht
  · exact h.tables_consistent old hold

theorem replace_self (h : db.Consistent) {t : Table} (ht : t ∈ db.tables) : db.replace t = db := by
  have same : ∀ old ∈ db.tables, (if old.name = t.name then t else old) = old := by
    intro old hold
    split
    · next named => exact (List.inj_on_of_nodup_map h.names_nodup hold ht named).symm
    · rfl
  rw [Database.replace, List.map_congr_left same, List.map_id']

/-- A table's place taken by one like it cannot be seen. -/
theorem alike_replace (h : db.Consistent) {t u : Table} (ht : t ∈ db.tables) (hu : t.Alike u) :
    db.Alike (db.replace u) := by
  rw [Alike, Database.replace, List.forall₂_map_right_iff, List.forall₂_same]
  intro old hold
  split
  · next hn =>
    have hname : old.name = t.name := by
      rw [hn]
      show u.schema.name = t.schema.name
      rw [hu.schema_eq]
    rw [List.inj_on_of_nodup_map h.names_nodup hold ht hname]
    exact hu
  · exact Table.Alike.refl old

end Consistent
end Database
end Store
end PocketSql
