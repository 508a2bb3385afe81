import PocketSql.Proofs.Store.Exactness

/-!
# Accesses by place and by name

A schema looks its columns up by their places, and a table its rows by their positions and the cells
of a new row by the names of its indexes. Each of these accesses fails where there is nothing. The
operations of a table are written here with accesses that may fail; on a consistent table, each of
them does what the operation does that cannot fail.

## Main definitions

* `Schema.Places` — the places under which columns are looked up.
* `Table.insert?`, `Table.update?`, `Table.delete?`, `Table.findByIndex?` — operations without a
  value where an access fails.

## Main results

* `Schema.access?_eq` — columns are found at their places.
* `Table.Consistent.insert?_eq`, `Table.update?_eq`, `Table.delete?_eq`,
  `Table.Consistent.findByIndex?_eq` — no access fails.
-/

namespace PocketSql

/-- A partial step that has a value at each element has values at all of them. -/
theorem mapM_eq_some {α β : Type} {l : List α} {f : α → Option β} {g : α → β}
    (h : ∀ a ∈ l, f a = some (g a)) : l.mapM f = some (l.map g) := by
  induction l with
  | nil => rfl
  | cons a l ih =>
    rw [List.forall_mem_cons] at h
    simp [h.1, ih h.2]

namespace Store

/-! ## Columns -/

/-- Columns in order, and the place under which each name is looked up. -/
structure Schema.Places where
  columns : List Column
  places : List (String × Nat)

namespace Schema.Places

/-- Add a column at the end. A repeated name keeps its first place. -/
def add (l : Places) (c : Column) : Places where
  columns := l.columns ++ [c]
  places :=
    if (l.places.lookup c.name).isSome then l.places
    else l.places ++ [(c.name, l.columns.length)]

/-- The column of a name. It fails if there is no column at the place of the name. -/
def column? (l : Places) (name : String) : Option (Option Column) :=
  match l.places.lookup name with
  | none => some none
  | some i => l.columns[i]?.map some

/-- Each name has the place of the first column of that name. -/
def Exact (l : Places) : Prop :=
  ∀ name, l.places.lookup name = l.columns.findIdx? (·.name = name)

theorem Exact.add {l : Places} (h : l.Exact) (c : Column) : (l.add c).Exact := by
  intro name
  have known := h name
  have own := h c.name
  rw [Places.add]
  dsimp only
  rw [List.findIdx?_append, ← known]
  by_cases same : c.name = name
  · subst same
    cases there : l.places.lookup c.name with
    | some i => simp [there]
    | none => simp [there, List.lookup_append]
  · have other : (name == c.name) = false := by simpa using Ne.symm same
    split <;> simp [List.lookup_append, List.lookup_cons, same, other]

theorem Exact.column?_eq {l : Places} (h : l.Exact) (name : String) :
    l.column? name = some (l.columns.find? (·.name = name)) := by
  rw [column?, h name, List.find?_eq_bind_findIdx?_getElem?]
  cases place : l.columns.findIdx? (·.name = name) with
  | none => rfl
  | some i =>
    obtain ⟨inside, -⟩ := List.findIdx?_eq_some_iff_getElem.1 place
    simp [inside]

end Schema.Places

namespace Schema

/-- The places of the columns of a schema, which are added in their order. -/
def places (s : Schema) : Places := s.columns.foldl Places.add ⟨[], []⟩

/-- The column of a name, by its place. -/
def access? (s : Schema) (name : String) : Option (Option Column) := s.places.column? name

theorem exact_places (s : Schema) : s.places.Exact ∧ s.places.columns = s.columns := by
  suffices all : ∀ (columns : List Column) (l : Places), l.Exact →
      (columns.foldl Places.add l).Exact ∧
        (columns.foldl Places.add l).columns = l.columns ++ columns by
    exact all s.columns ⟨[], []⟩ fun _ => rfl
  intro columns
  induction columns with
  | nil => exact fun l h => ⟨h, (List.append_nil _).symm⟩
  | cons c columns ih =>
    intro l h
    obtain ⟨exact_, same⟩ := ih (l.add c) (h.add c)
    refine ⟨exact_, same.trans ?_⟩
    simp [Places.add]

/-- Columns are found at their places. -/
theorem access?_eq (s : Schema) (name : String) : s.access? name = some (s.column? name) := by
  obtain ⟨exact_, same⟩ := s.exact_places
  rw [access?, exact_.column?_eq, same]
  rfl

end Schema

namespace Table

variable {t : Table}

/-! ## Insertion -/

/-- The first key that an index knows, with its column. It fails if the row has no cell for an
index. -/
def knownKey? (row : Row) : List (String × Index) → Option (Option (String × Value))
  | [] => some none
  | (column, ix) :: rest => do
    let v ← row.get? column
    if ix.contains v then return some (column, v) else knownKey? row rest

/-- The index of a column with the key of a row. It fails if the row has no cell for it. -/
def addKey? (row : Row) (position : Nat) (entry : String × Index) : Option (String × Index) := do
  return (entry.1, entry.2.add (← row.get? entry.1) position)

/-- Append a row. It fails if the row has no cell for an index. -/
def insert? (t : Table) (given : Row) : Option (Except Error Table) :=
  match complete given t.schema.columns with
  | .error e => some (.error e)
  | .ok row => do
    match ← knownKey? row t.indexes with
    | some (column, v) => return .error (.duplicateKey column v)
    | none =>
      let indexes ← t.indexes.mapM (addKey? row t.rows.length)
      return .ok { t with rows := t.rows ++ [row], indexes }

theorem knownKey?_eq {row : Row} {indexes : List (String × Index)}
    (h : ∀ entry ∈ indexes, entry.1 ∈ row.names) :
    knownKey? row indexes = some
      ((indexes.find? fun entry => entry.2.contains (row.get entry.1)).map
        fun entry => (entry.1, row.get entry.1)) := by
  induction indexes with
  | nil => rfl
  | cons entry indexes ih =>
    obtain ⟨column, ix⟩ := entry
    rw [List.forall_mem_cons] at h
    rw [knownKey?, Row.get?_eq_get h.1, ih h.2]
    cases known : ix.contains (row.get column) <;> simp [known]

/-- The columns of the indexes are columns of the table. -/
theorem Consistent.mem_columnNames (h : t.Consistent) {entry : String × Index}
    (he : entry ∈ t.indexes) : entry.1 ∈ t.schema.columnNames := by
  obtain ⟨c, hc, -, named⟩ := h.exists_column he
  exact named ▸ List.mem_map_of_mem hc

/-- A row to be inserted has a cell for each index. -/
theorem Consistent.insert?_eq (h : t.Consistent) (given : Row) :
    t.insert? given = some (t.insert given) := by
  rw [insert?, Table.insert]
  cases completed : complete given t.schema.columns with
  | error e => rfl
  | ok row =>
    have cells : ∀ entry ∈ t.indexes, entry.1 ∈ row.names := by
      intro entry he
      rw [(fits_of_complete completed).names_eq]
      exact h.mem_columnNames he
    have indexes : t.indexes.mapM (addKey? row t.rows.length) =
        some (t.indexes.map fun entry =>
          (entry.1, entry.2.add (row.get entry.1) t.rows.length)) := by
      apply mapM_eq_some
      intro entry he
      rw [addKey?, Row.get?_eq_get (cells entry he)]
      rfl
    simp only [knownKey?_eq cells, indexes, Option.bind_some, bind, Except.bind]
    cases t.indexes.find? fun entry => entry.2.contains (row.get entry.1) <;> rfl

/-! ## Update -/

/-- Split assignments into those to carry out and those to leave out, with columns by their
places. -/
def accepted? (schema : Schema) (policy : FieldPolicy) : List (String × Value) →
    Option (Except Error (List (String × Value) × List IgnoredField))
  | [] => some (.ok ([], []))
  | (name, v) :: rest => do
    match ← schema.access? name with
    | none => accepted? schema policy rest
    | some column =>
      match column.validate v with
      | .ok () =>
        return (← accepted? schema policy rest).map fun (effective, ignored) =>
          ((name, v) :: effective, ignored)
      | .error e =>
        if policy = .reject then return .error e
        else
          return (← accepted? schema policy rest).map fun (effective, ignored) =>
            (effective, ⟨name, e⟩ :: ignored)

theorem accepted?_eq (schema : Schema) (policy : FieldPolicy)
    (assignments : List (String × Value)) :
    accepted? schema policy assignments = some (accepted schema policy assignments) := by
  induction assignments with
  | nil => rfl
  | cons assignment rest ih =>
    obtain ⟨name, v⟩ := assignment
    rw [accepted?, accepted, Schema.access?_eq, ih]
    simp only [Option.bind_eq_bind, Option.bind_some]
    cases schema.column? name with
    | none => rfl
    | some column =>
      dsimp only
      cases column.validate v with
      | ok => cases accepted schema policy rest <;> rfl
      | error e =>
        by_cases reject : policy = .reject
        · simp [reject]
        · simp only [if_neg reject]
          cases accepted schema policy rest <;> rfl

/-- Whether writing a value into some rows would repeat a key. It fails if there are none of them
and the index has the value. -/
def clashes? (t : Table) (matched : List Nat) (assignment : String × Value) : Option Bool :=
  match t.index? assignment.1 with
  | none => some false
  | some ix =>
    if assignment.2.isNull then some false
    else if 1 < matched.length then some true
    else (ix.find assignment.2).anyM fun p => do return decide (p ≠ (← matched[0]?))

/-- Write several cells into the row at a position. It fails if there is no row. -/
def writeAll? (assignments : List (String × Value)) (t : Table) (position : Nat) :
    Option Table := do
  let _ ← t.rows[position]?
  return t.writeAll assignments position

/-- Assign values in every row that fulfils a predicate. -/
def update? (t : Table) (assignments : List (String × Value)) (p : Row → Bool)
    (policy : FieldPolicy) : Option (Except Error (UpdateOutcome × Table)) := do
  let matched := t.positions p
  if matched.isEmpty then return .ok (⟨0, []⟩, t)
  match ← accepted? t.schema policy assignments with
  | .error e => return .error e
  | .ok (effective, ignored) =>
    match ← effective.findM? (t.clashes? matched) with
    | some (column, v) => return .error (.duplicateKey column v)
    | none =>
      let t' ← matched.foldlM (writeAll? effective) t
      return .ok (⟨matched.length, ignored⟩, t')

theorem clashes?_eq {matched : List Nat} (there : matched ≠ []) (assignment : String × Value) :
    t.clashes? matched assignment = some (t.clashes matched assignment) := by
  obtain ⟨first, head⟩ : ∃ first, matched.head? = some first :=
    Option.isSome_iff_exists.1 (List.isSome_head?.2 there)
  have access : matched[0]? = some first := List.head?_eq_getElem?.symm.trans head
  rw [clashes?, clashes]
  cases t.index? assignment.1 with
  | none => rfl
  | some ix =>
    have other : (ix.find assignment.2).anyM (m := Option) (fun p => pure (decide (p ≠ first))) =
        some ((ix.find assignment.2).any fun p => decide (p ≠ first)) := List.anyM_pure
    dsimp only
    cases assignment.2.isNull with
    | true => rfl
    | false =>
      by_cases several : 1 < matched.length
      · simp [several]
      · simpa [several, access, head] using other

theorem length_write (q : Nat) (t : Table) (a : String × Value) :
    (write q t a).rows.length = t.rows.length := by
  obtain same | ⟨row, -, same⟩ := write_eq q t a <;> simp [same]

theorem length_writeAll (assignments : List (String × Value)) (t : Table) (q : Nat) :
    (writeAll assignments t q).rows.length = t.rows.length :=
  List.foldlRecOn assignments (write q) (motive := fun u : Table => u.rows.length = t.rows.length)
    rfl fun u hu a _ => (length_write q u a).trans hu

/-- Writing into rows leaves all positions where they are. -/
theorem foldlM_writeAll? {assignments : List (String × Value)} {positions : List Nat}
    (inside : ∀ q ∈ positions, q < t.rows.length) :
    positions.foldlM (writeAll? assignments) t =
      some (positions.foldl (writeAll assignments) t) := by
  induction positions generalizing t with
  | nil => rfl
  | cons q positions ih =>
    rw [List.forall_mem_cons] at inside
    have written : t.writeAll? assignments q = some (writeAll assignments t q) := by
      rw [writeAll?, List.getElem?_eq_getElem inside.1]
      rfl
    rw [List.foldlM_cons, written, List.foldl_cons]
    apply ih
    rw [length_writeAll]
    exact inside.2

theorem lt_of_mem_positions {p : Row → Bool} {q : Nat} (h : q ∈ t.positions p) :
    q < t.rows.length := by
  obtain ⟨row, there, -⟩ := mem_positions.1 h
  exact (List.getElem?_eq_some_iff.1 there).1

/-- The matched rows are there while they are written. -/
theorem update?_eq (t : Table) (assignments : List (String × Value)) (p : Row → Bool)
    (policy : FieldPolicy) :
    t.update? assignments p policy = some (t.update assignments p policy) := by
  rw [update?, update]
  by_cases nowhere : (t.positions p).isEmpty = true
  · simp only [if_pos nowhere]
    rfl
  have there : t.positions p ≠ [] := by simpa using nowhere
  simp only [if_neg nowhere, accepted?_eq, Option.bind_eq_bind, Option.bind_some]
  cases accepted t.schema policy assignments with
  | error e => rfl
  | ok split =>
    have clash : split.1.findM? (t.clashes? (t.positions p)) =
        some (split.1.find? (t.clashes (t.positions p))) := by
      rw [funext (clashes?_eq there)]
      exact List.findM?_pure _ _
    simp only [clash, foldlM_writeAll? fun q hq => lt_of_mem_positions hq, Option.bind_some, bind,
      Except.bind]
    cases split.1.find? (t.clashes (t.positions p)) <;> rfl

/-! ## Deletion -/

/-- The index of a column without the key of a row. It fails if there is no row. -/
def dropKey? (t : Table) (position : Nat) (entry : String × Index) : Option (String × Index) := do
  match (← t.rows[position]?).get? entry.1 with
  | some v => return (entry.1, entry.2.remove v position)
  | none => return entry

/-- Take the row at a position out of the indexes and remove it. Both fail if there is no row. -/
def removeAt? (t : Table) (position : Nat) : Option Table := do
  let indexes ← t.indexes.mapM (t.dropKey? position)
  if position < t.rows.length then return { t with rows := t.rows.eraseIdx position, indexes }
  else none

/-- Delete the rows that fulfil a predicate, and count them. -/
def delete? (t : Table) (p : Row → Bool) : Option (Nat × Table) := do
  let matched := t.positions p
  let t' ← matched.reverse.foldlM removeAt? t
  if matched.isEmpty then return (0, t') else return (matched.length, t'.reindexed)

theorem removeAt?_eq {q : Nat} (inside : q < t.rows.length) :
    t.removeAt? q = some (t.removeAt q) := by
  have row := List.getElem?_eq_getElem inside
  have indexes : t.indexes.mapM (t.dropKey? q) =
      some (t.indexes.map fun entry => (entry.1, entry.2.remove (t.rows[q].get entry.1) q)) := by
    apply mapM_eq_some
    intro entry _
    rw [dropKey?, row, Row.get]
    cases cell : t.rows[q].get? entry.1 <;> simp [cell]
  rw [removeAt?, indexes, removeAt, row]
  simp [inside]

/-- Where the last row goes first, the positions before it stay inside. -/
theorem foldlM_removeAt? {positions : List Nat} (falling : positions.Pairwise (· > ·))
    (inside : ∀ q ∈ positions, q < t.rows.length) :
    positions.foldlM removeAt? t = some (positions.foldl removeAt t) := by
  induction positions generalizing t with
  | nil => rfl
  | cons q positions ih =>
    rw [List.pairwise_cons] at falling
    rw [List.forall_mem_cons] at inside
    rw [List.foldlM_cons, removeAt?_eq inside.1, List.foldl_cons]
    apply ih falling.2
    intro r hr
    have before := falling.1 r hr
    rw [(removeAt_keeps t q).2.2, List.length_eraseIdx_of_lt inside.1]
    omega

theorem positions_rising (t : Table) (p : Row → Bool) : (t.positions p).Pairwise (· < ·) := by
  have some : (t.positions p).Sublist (t.rows.zipIdx.map (·.2)) := List.filter_sublist.map _
  rw [List.zipIdx_map_snd] at some
  exact List.Pairwise.sublist some List.pairwise_lt_range'

/-- The matched rows are there when they are removed. -/
theorem delete?_eq (t : Table) (p : Row → Bool) : t.delete? p = some (t.delete p) := by
  have removed : (t.positions p).reverse.foldlM removeAt? t =
      some ((t.positions p).reverse.foldl removeAt t) := by
    apply foldlM_removeAt?
    · rw [List.pairwise_reverse]
      exact t.positions_rising p
    · intro q hq
      exact lt_of_mem_positions (List.mem_reverse.1 hq)
  rw [delete?, delete, removed]
  by_cases nowhere : (t.positions p).isEmpty = true
  · simp [List.isEmpty_iff.1 nowhere]
  · simp [nowhere]

/-! ## Indexes -/

/-- The rows in which an indexed column holds a value, by the index. It fails if the index lists a
position without a row. -/
def findByIndex? (t : Table) (column : String) (v : Value) : Option (List Row) :=
  match t.index? column with
  | some ix => (ix.find v).mapM (t.rows[·]?)
  | none => some []

/-- An index lists no position without a row. -/
theorem Consistent.findByIndex?_eq (h : t.Consistent) (column : String) (v : Value) :
    t.findByIndex? column v = some (t.findByIndex column v) := by
  rw [findByIndex?, findByIndex]
  cases index : t.index? column with
  | none => rfl
  | some ix =>
    have lists : ix.Lists t.rows column := h.indexes_list _ (mem_indexes index)
    have row : ∀ p ∈ ix.find v, t.rows[p]? = some (t.rows[p]?.getD []) := by
      intro p hp
      obtain ⟨-, row, there, -⟩ := (lists.mem_find v p).1 hp
      rw [there]
      rfl
    dsimp only
    rw [mapM_eq_some row, List.filterMap_congr row, List.filterMap_eq_map']

end Table
end Store
end PocketSql
