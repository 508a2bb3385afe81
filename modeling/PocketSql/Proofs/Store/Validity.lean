import PocketSql.Proofs.Store.Catalog

/-!
# Valid schemas

Checking a schema settles all that the store relies on later: names tell the columns apart, there is
at most one primary key, which is the one that is recorded, and a column takes its own default. That
a primary key is not nullable is settled before, where its column is declared.

## Main definitions

* `Schema.Valid` — what a checked schema promises.

## Main results

* `Schema.valid_of_checked` — checking a schema makes it valid.
* `Schema.Valid.column?_eq_some_iff` — the columns are found by their names.
* `Table.Consistent.isIndexed_iff` — the primary key and the unique columns are indexed.
* `Database.Consistent.table?_eq_some_iff` — the tables are found by the names of their schemas.
-/

namespace PocketSql
namespace Store

/-- What is found by its name is the one thing of that name, if names are not repeated. -/
theorem find?_eq_some_iff_of_nodup {α : Type} {named : α → String} {l : List α}
    (nodup : (l.map named).Nodup) {name : String} {a : α} :
    (l.find? fun b => named b = name) = some a ↔ a ∈ l ∧ named a = name := by
  constructor
  · intro found
    exact ⟨List.mem_of_find?_eq_some found, by simpa using List.find?_some found⟩
  · rintro ⟨mem, rfl⟩
    cases found : l.find? fun b => named b = named a with
    | none => simpa using List.find?_eq_none.1 found a mem
    | some b =>
      have same : named b = named a := by simpa using List.find?_some found
      rw [List.inj_on_of_nodup_map nodup (List.mem_of_find?_eq_some found) mem same]

theorem Column.withPrimaryKey_nullable {c : Column} {primaryKey : Bool}
    (h : (c.withPrimaryKey primaryKey).primaryKey = true) :
    (c.withPrimaryKey primaryKey).nullable = false := by
  obtain rfl : primaryKey = true := h
  simp [withPrimaryKey]

namespace Schema

/-- What is known of a schema that has been checked. -/
structure Valid (s : Schema) : Prop where
  columnNames_nodup : s.columnNames.Nodup
  one_primaryKey : (s.columns.filter (·.primaryKey)).length ≤ 1
  primaryKey_not_null : ∀ c ∈ s.columns, c.primaryKey = true → c.nullable = false
  primaryKey_eq_some_iff : ∀ name,
    s.primaryKey = some name ↔ ∃ c ∈ s.columns, c.primaryKey = true ∧ c.name = name
  default_valid : ∀ c ∈ s.columns, ∀ v, c.default = some v → c.validate v = .ok ()

theorem checkDefaults_ok_iff {columns : List Column} :
    checkDefaults columns = .ok () ↔
      ∀ c ∈ columns, ∀ v, c.default = some v → c.validate v = .ok () := by
  induction columns with
  | nil => simp [checkDefaults]
  | cons c columns ih =>
    rw [checkDefaults, List.forall_mem_cons]
    split
    · next none => simp [none, ih]
    · next v hv =>
      split
      · next ok => simp [hv, ok, ih]
      · next e error => simp [hv, error]

/-- A schema that has been checked has one primary key at most, which it records. -/
theorem checked_keys {s schema : Schema} (h : s.checked = .ok schema) :
    (s.columns.filter (·.primaryKey)).length ≤ 1 ∧
      schema.primaryKey = (s.columns.filter (·.primaryKey)).head?.map (·.name) ∧
      checkDefaults s.columns = .ok () := by
  rw [checked] at h
  split at h
  · cases h
  · split at h
    · cases h
    · next keys few =>
      split at h
      · cases h
      · next defaults =>
        cases h
        refine ⟨?_, rfl, defaults⟩
        generalize s.columns.filter (·.primaryKey) = keys at few
        rcases keys with _ | ⟨first, _ | ⟨second, rest⟩⟩
        · simp
        · simp
        · exact absurd rfl (few first second rest)

/-- **Checking a schema makes it valid**, if its primary keys are not nullable. -/
theorem valid_of_checked {s schema : Schema} (h : s.checked = .ok schema)
    (not_null : ∀ c ∈ s.columns, c.primaryKey = true → c.nullable = false) : schema.Valid := by
  obtain ⟨-, columns, -⟩ := checked_ok h
  obtain ⟨one, recorded, defaults⟩ := checked_keys h
  constructor
  · exact Schema.columnNames_nodup h
  · rwa [columns]
  · rwa [columns]
  · intro name
    have key : (∃ c ∈ s.columns, c.primaryKey = true ∧ c.name = name) ↔
        ∃ c ∈ s.columns.filter (·.primaryKey), c.name = name := by
      simp only [List.mem_filter, and_assoc]
    rw [recorded, columns, key]
    -- there is one key at most, and the first one is recorded
    generalize s.columns.filter (·.primaryKey) = keys at one
    rcases keys with _ | ⟨c, _ | ⟨second, rest⟩⟩
    · simp
    · simp
    · simp at one
  · rw [columns]
    exact checkDefaults_ok_iff.1 defaults

/-- The columns are found by their names. -/
theorem Valid.column?_eq_some_iff {s : Schema} (h : s.Valid) {name : String} {c : Column} :
    s.column? name = some c ↔ c ∈ s.columns ∧ c.name = name :=
  find?_eq_some_iff_of_nodup h.columnNames_nodup

theorem hasColumn_iff {s : Schema} {name : String} :
    s.hasColumn name = true ↔ name ∈ s.columnNames := by
  rw [hasColumn, column?, List.find?_isSome, columnNames, List.mem_map]
  simp only [decide_eq_true_eq]

end Schema

/-- The primary key and the unique columns are indexed. -/
theorem Table.Consistent.isIndexed_iff {t : Table} (h : t.Consistent) {name : String} :
    t.isIndexed name = true ↔ ∃ c ∈ t.schema.columns, c.indexed = true ∧ c.name = name := by
  have known : t.isIndexed name = true ↔ name ∈ t.indexes.map (·.1) := by
    rw [isIndexed, index?, List.lookup_isSome_iff, List.mem_map]
    simp only [beq_iff_eq, eq_comm (a := name)]
  rw [known, h.indexes_names]
  simp only [List.mem_map, List.mem_filter, and_assoc]

/-- The tables are found by the names of their schemas. -/
theorem Database.Consistent.table?_eq_some_iff {db : Database} (h : db.Consistent) {name : String}
    {t : Table} : db.table? name = some t ↔ t ∈ db.tables ∧ t.name = name :=
  find?_eq_some_iff_of_nodup h.names_nodup

theorem Database.Consistent.table_eq_ok_iff {db : Database} (h : db.Consistent) {name : String}
    {t : Table} : db.table name = .ok t ↔ t ∈ db.tables ∧ t.name = name := by
  rw [Database.table_eq_ok_iff, h.table?_eq_some_iff]

end Store
end PocketSql
