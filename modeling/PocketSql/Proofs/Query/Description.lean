import PocketSql.Proofs.Query.Effects
import PocketSql.Proofs.Sql.Words

/-!
# Declared and described columns

What DESCRIBE tells of a column is told by its declaration: its name, the first word of its type and
which constraints there are. In which order the constraints stand matters for the defaults only, of
which the last one holds. The schema of a table stays as it was created until the table is dropped,
and so does its description.

## Main definitions

* `Declaration` — a column as it is written in a text.
* `Declares` — a statement in a text creates a table with these columns.
* `Declaration.row` — the row that tells about a declared column.

## Main results

* `IsDeclaration.columnRow_eq` — the column of a declaration is described by its row.
* `Engine.schema_mem_executeAll` — a schema stays while its table is not dropped.
* `Engine.describe_declared` — DESCRIBE returns what CREATE TABLE declared.
-/

namespace PocketSql

open Store (Column Database FieldPolicy Schema Table)
open Sql (ColumnDef Mode Named Statement StandsIn Token)
open Sql.Grammar
open Execution (columnOf columnRow)

/-! ## Declarations -/

/-- A column as it is written: its name, the first word of its type and its constraints. -/
structure Declaration where
  name : String
  word : String
  constraints : List Constraint
  deriving DecidableEq, Repr

/-- The value of a constraint that is a default. -/
def Sql.Grammar.Constraint.value? : Constraint → Option Value
  | default v => some v
  | _ => none

namespace Declaration

/-- The key that is reported for a column. -/
def key (d : Declaration) : String :=
  if .primaryKey ∈ d.constraints then "PRI" else if .unique ∈ d.constraints then "UNI" else ""

/-- The last default, or NULL. -/
def default (d : Declaration) : Value :=
  (d.constraints.filterMap Constraint.value?).getLast?.getD .null

/-- The row that tells about a declared column. -/
def row (d : Declaration) : Row :=
  [("Field", .string d.name), ("Type", .string (DataType.ofTypeName d.word).name),
   ("Null", .string
     (if .notNull ∈ d.constraints ∨ .primaryKey ∈ d.constraints then "NO" else "YES")),
   ("Key", .string d.key), ("Default", d.default)]

end Declaration

/-- The tokens of a declaration: a name, a type that starts with a word, and constraints. -/
inductive IsDeclaration : List Token → Declaration → Prop where
  | mk {ns us cs : List Token} {name word type : String} {constraints : List Constraint}
      (named : IsName ns name) (typed : IsTypeName .full (.name word :: us) type)
      (constrained : IsSequence (IsConstraint .full) cs constraints) :
      IsDeclaration (ns ++ (.name word :: us ++ cs)) ⟨name, word, constraints⟩

/-- The tokens of a CREATE TABLE with its declarations. -/
inductive IsCreation : List Token → List Declaration → Prop where
  | mk {ns ts : List Token} {table : String} {ifNotExists : Bool} {ds : List Declaration}
      (named : IsGuarded .full [.keyword .notWord, .keyword .existsWord] ns (table, ifNotExists))
      (declared : IsTuple IsDeclaration ts ds) :
      IsCreation (.keyword .create :: .keyword .table :: (ns ++ ts)) ds

/-- Where a statement stands in a text, columns are declared. -/
def Declares (text : String) (s : Statement) (ds : List Declaration) : Prop :=
  ∃ ts body, Sql.tokenize text = .ok ts ∧ body <:+: ts ∧ IsStatement .full body s ∧
    IsCreation body ds

/-! ## The first word of a type -/

/-- What stands behind a solid word is trimmed by itself. -/
theorem trimmed_append {w : List Char} (some : w ≠ []) (solid : ∀ c ∈ w, Text.isBlank c = false)
    (rest : List Char) :
    Text.trimmed (w ++ rest) = w ++ (rest.reverse.dropWhile Text.isBlank).reverse := by
  have front : (w ++ rest).dropWhile Text.isBlank = w ++ rest := by
    obtain ⟨c, w, rfl⟩ := List.exists_cons_of_ne_nil some
    simp [solid]
  have back : w.reverse.dropWhile Text.isBlank = w.reverse := by
    rw [List.dropWhile_eq_self_iff]
    intro h
    simpa using solid _ (List.mem_reverse.1 (List.getElem_mem h))
  have behind : (rest.reverse ++ w.reverse).dropWhile Text.isBlank =
      rest.reverse.dropWhile Text.isBlank ++ w.reverse := by
    rw [List.dropWhile_append, back]
    split
    · next empty => rw [List.isEmpty_iff.1 empty, List.nil_append]
    · rfl
  rw [Text.trimmed, front, List.reverse_append, behind, List.reverse_append, List.reverse_reverse]

/-- Only the first word of a type counts. -/
theorem firstWord_append {w rest : List Char} (some : w ≠ [])
    (solid : ∀ c ∈ w, Text.isBlank c = false)
    (behind : ∀ c ∈ rest.head?, c = '(' ∨ c = ' ') :
    DataType.firstWord (w ++ rest) = DataType.firstWord w := by
  have trimmed := trimmed_append some solid rest
  generalize hback : (rest.reverse.dropWhile Text.isBlank).reverse = back at trimmed
  have front : back <+: rest := by
    rw [← hback, ← List.reverse_suffix, List.reverse_reverse]
    exact List.dropWhile_suffix Text.isBlank
  have whole := trimmed_append some solid []
  simp only [List.append_nil, List.reverse_nil, List.dropWhile_nil] at whole
  rw [DataType.firstWord, DataType.firstWord, trimmed, whole, List.map_append,
    List.takeWhile_append]
  have stops : (back.map Char.toLower).takeWhile (fun c => c ≠ '(' && !Text.isBlank c) = [] := by
    cases back with
    | nil => rfl
    | cons c back =>
      obtain ⟨more, rfl⟩ := front
      obtain rfl | rfl := behind c rfl
      · rfl
      · rfl
  rw [stops, List.append_nil]
  split
  · next all => exact ((List.takeWhile_prefix _).eq_of_length all).symm
  · rfl

/-- A type starts with a word; an opening parenthesis or a space stands behind it. -/
theorem exists_word {ts : List Token} {type : String} (h : IsTypeName .full ts type) :
    ∃ word us rest, ts = .name word :: us ∧ type.toList = word.toList ++ rest ∧
      ∀ c ∈ rest.head?, c = '(' ∨ c = ' ' := by
  obtain ⟨words, some⟩ := h
  cases words with
  | nil => exact absurd rfl some
  | @cons _ us first words word tail =>
    obtain ⟨behind, text, space⟩ : ∃ behind, (" ".intercalate (first :: words)).toList =
        first.toList ++ behind ∧ ∀ c ∈ behind.head?, c = ' ' := by
      by_cases last : words = []
      · exact ⟨[], by simp [last], by simp⟩
      · exact ⟨' ' :: (" ".intercalate words).toList,
          by simp [String.intercalate_cons_of_ne_nil last], by simp⟩
    cases word with
    | bare => exact ⟨first, us, behind, rfl, text, fun c hc => .inr (space c hc)⟩
    | withArguments word closed ended =>
      refine ⟨word, _, _, rfl, by rw [text, String.toList_append, String.toList_append,
        String.toList_append, List.append_assoc, List.append_assoc, List.append_assoc], ?_⟩
      simp

/-- A type is folded as its first word is. -/
theorem ofTypeName_eq {m : Mode} {us : List Token} {word type : String}
    (h : IsTypeName .full (.name word :: us) type) (named : Named m (.name word :: us)) :
    DataType.ofTypeName type = DataType.ofTypeName word := by
  obtain ⟨word, us, rest, tokens, text, behind⟩ := exists_word h
  cases tokens
  have whole : Named m ([.name word] ++ us) := named
  have run := whole.left.name (.word word)
  have solid : ∀ c ∈ word.toList, Text.isBlank c = false := by
    intro c hc
    have inside := run.1.goesOn c hc
    simp only [Sql.inRun, Bool.not_eq_true', Bool.or_eq_false_iff] at inside
    exact inside.1
  rw [DataType.ofTypeName, DataType.ofTypeName, text, firstWord_append run.1.some solid behind]

/-! ## Columns and their declarations -/

/-- A constraint counts wherever it stands; of the defaults the last one holds. -/
theorem foldl_add (d : ColumnDef) (constraints : List Constraint) :
    constraints.foldl Constraint.add d =
      { d with
        primaryKey := d.primaryKey || constraints.contains .primaryKey
        unique := d.unique || constraints.contains .unique
        notNull := d.notNull || constraints.contains .notNull || constraints.contains .primaryKey
        default := (constraints.filterMap Constraint.value?).getLast?.or d.default } := by
  induction constraints generalizing d with
  | nil => simp
  | cons constraint constraints ih =>
    rw [List.foldl_cons, ih]
    cases constraint <;> simp [Constraint.add, Constraint.value?, List.getLast?_cons]

/-- **A column is described as it is declared.** The tokens of a declaration are those of a column,
and its row tells about that column. -/
theorem IsDeclaration.columnRow_eq {m : Mode} {ts : List Token} {d : Declaration}
    (h : IsDeclaration ts d) (named : Named m ts) :
    ∃ column, IsColumnDef .full ts column ∧ columnRow (columnOf column) = d.row := by
  obtain ⟨hname, typed, constrained⟩ := h
  refine ⟨_, .mk hname typed constrained, ?_⟩
  have folded := ofTypeName_eq typed named.right.left
  simp [foldl_add, columnRow, columnOf, Declaration.row, Declaration.key, Declaration.default,
    Column.withPrimaryKey, Column.marker, ColumnDef.type, folded]
  simp only [← not_or, ite_not]

/-- The tokens of a column are those of a declaration. -/
theorem exists_isDeclaration {ts : List Token} {column : ColumnDef}
    (h : IsColumnDef .full ts column) : ∃ d, IsDeclaration ts d := by
  obtain ⟨named, typed, constrained⟩ := h
  obtain ⟨word, us, -, rfl, -, -⟩ := exists_word typed
  exact ⟨_, named, typed, constrained⟩

theorem exists_declarations {ts : List Token} {columns : List ColumnDef}
    (h : IsList .comma (IsColumnDef .full) ts columns) :
    ∃ ds, IsList .comma IsDeclaration ts ds := by
  induction h with
  | one h =>
    obtain ⟨d, hd⟩ := exists_isDeclaration h
    exact ⟨[d], .one hd⟩
  | more h _ ih =>
    obtain ⟨d, hd⟩ := exists_isDeclaration h
    obtain ⟨ds, hds⟩ := ih
    exact ⟨d :: ds, .more hd hds⟩

theorem columnRows_eq {m : Mode} {ts : List Token} {ds : List Declaration}
    (h : IsList .comma IsDeclaration ts ds) (named : Named m ts) :
    ∃ columns, IsList .comma (IsColumnDef .full) ts columns ∧
      (columns.map columnOf).map columnRow = ds.map Declaration.row := by
  induction h generalizing m with
  | one h =>
    obtain ⟨column, hc, row⟩ := h.columnRow_eq named
    exact ⟨[column], .one hc, by simp [row]⟩
  | more h _ ih =>
    obtain ⟨column, hc, row⟩ := h.columnRow_eq named.left
    obtain ⟨columns, hcs, rows⟩ := ih named.right.tail
    exact ⟨column :: columns, .more hc hcs, by simpa [row] using rows⟩

/-- The tokens of a creation are those of a statement that creates a table with such columns. -/
theorem IsCreation.isStatement {m : Mode} {ts : List Token} {ds : List Declaration}
    (h : IsCreation ts ds) (named : Named m ts) :
    ∃ table ifNotExists columns,
      IsStatement .full ts (.createTable table ifNotExists columns) ∧
        (columns.map columnOf).map columnRow = ds.map Declaration.row := by
  obtain ⟨guarded, ⟨declared⟩⟩ := h
  obtain ⟨columns, hcs, rows⟩ := columnRows_eq declared named.tail.tail.right.tail.left
  exact ⟨_, _, columns, .createTable guarded ⟨hcs⟩, rows⟩

theorem Declares.rows {text table : String} {ifNotExists : Bool} {columns : List ColumnDef}
    {ds : List Declaration} (h : Declares text (.createTable table ifNotExists columns) ds) :
    (columns.map columnOf).map columnRow = ds.map Declaration.row := by
  obtain ⟨ts, body, tokens, ⟨front, back, rfl⟩, statement, creation⟩ := h
  obtain ⟨table', ifNotExists', columns', statement', rows⟩ :=
    creation.isStatement (Sql.named_tokens tokens).left.right
  obtain ⟨-, same⟩ := Sql.Parser.isQuery_unique (.bare statement) (.bare statement')
  cases same
  exact rows

theorem exists_declares {text table : String} {ifNotExists : Bool} {columns : List ColumnDef}
    (h : StandsIn (.createTable table ifNotExists columns) text) :
    ∃ ds, Declares text (.createTable table ifNotExists columns) ds := by
  obtain ⟨ts, body, tokens, inside, statement, -⟩ := h
  obtain ⟨ds, creation⟩ : ∃ ds, IsCreation body ds := by
    cases statement with
    | createTable guarded declared =>
      obtain ⟨declared⟩ := declared
      obtain ⟨ds, hds⟩ := exists_declarations declared
      exact ⟨ds, guarded, ⟨hds⟩⟩
  exact ⟨ds, ts, body, tokens, inside, statement, creation⟩

/-! ## Schemas that stay -/

/-- A schema stays where it is, unless its table is dropped. -/
theorem Effect.schema_mem {db db' : Database} {s : Statement} {result : QueryResult}
    (h : Effect db s result db') {schema : Schema} (mem : schema ∈ db.tables.map (·.schema))
    (stands : dropped? s result ≠ some schema.name) : schema ∈ db'.tables.map (·.schema) := by
  cases h with
  | created =>
    rw [List.map_append]
    exact List.mem_append_left _ mem
  | dropped =>
    obtain ⟨t, ht, rfl⟩ := List.mem_map.1 mem
    refine List.mem_map_of_mem (List.mem_filter.2 ⟨ht, ?_⟩)
    simp only [dropped?, if_true, ne_eq, Option.some.injEq] at stands
    exact decide_eq_true (Ne.symm stands)
  | kept _ schemas => rwa [schemas]

namespace Engine

variable {e : Engine}

/-- A schema stays where it is, as long as no statement drops its table. -/
theorem schema_mem_executeAll {schema : Schema} {later : List Statement}
    (consistent : e.database.Consistent) (mem : schema ∈ e.database.tables.map (·.schema))
    (stands : ∀ answered ∈ later.zip (e.executeAll later).1,
      dropped? answered.1 answered.2 ≠ some schema.name) :
    schema ∈ (e.executeAll later).2.database.tables.map (·.schema) := by
  induction later generalizing e with
  | nil => exact mem
  | cons s later ih =>
    rw [executeAll, List.zip_cons_cons, List.forall_mem_cons] at stands
    exact ih (consistent_execute consistent s)
      ((effect_execute consistent s).schema_mem mem stands.1) stands.2

/-- The schema of a table that has been created. -/
theorem schema_mem_of_created {s : Statement} {table : String} (consistent : e.database.Consistent)
    (created : created? s (e.execute s).1 = some table) :
    ∃ ifNotExists columns schema, s = .createTable table ifNotExists columns ∧
      schema ∈ (e.execute s).2.database.tables.map (·.schema) ∧ schema.name = table ∧
      schema.columns = columns.map columnOf := by
  have effect := effect_execute consistent s
  generalize (e.execute s).1 = result at effect created
  generalize (e.execute s).2.database = db' at effect
  cases effect with
  | @created name ifNotExists columns schema new checked =>
    obtain rfl : name = table := by simpa [created?] using created
    obtain ⟨named, same, -⟩ := Schema.checked_ok checked
    exact ⟨ifNotExists, columns, schema, rfl, by simp [Table.ofSchema], named, same⟩
  | dropped => cases created
  | kept nothing _ =>
    rw [nothing.1] at created
    cases created

/-- A schema that is there is described. -/
theorem execute_describe {schema : Schema} (consistent : e.database.Consistent)
    (mem : schema ∈ e.database.tables.map (·.schema)) :
    (e.execute (.describe schema.name)).1 = .ofRows (schema.columns.map columnRow) := by
  obtain ⟨t, ht, rfl⟩ := List.mem_map.1 mem
  have found : e.database.table t.schema.name = .ok t :=
    consistent.table_eq_ok_iff.2 ⟨ht, rfl⟩
  simp [execute, Database.execute, Execution.describe, found]

/-- **DESCRIBE returns what CREATE TABLE declared.** A statement is read in a text and creates its
table. Then columns are declared where it stands, and whatever is executed later, as long as the
table is not dropped, there is one row for each of them, in their order. -/
theorem describe_declared (reachable : e.Reachable) {text table : String} {s : Statement}
    (read : Sql.parse text = .ok s ∨ ∃ ss, Sql.parseScript text = .ok ss ∧ s ∈ ss)
    (created : created? s (e.execute s).1 = some table) :
    (∃ ds, Declares text s ds) ∧ ∀ ds, Declares text s ds → ∀ later : List Statement,
      let before := (e.execute s).2
      (∀ answered ∈ later.zip (before.executeAll later).1,
        dropped? answered.1 answered.2 ≠ some table) →
      ((before.executeAll later).2.execute (.describe table)).1 =
        .ofRows (ds.map Declaration.row) := by
  have consistent := reachable.consistent
  have stands : StandsIn s text := by
    obtain h | ⟨ss, h, hs⟩ := read
    · exact Sql.standsIn_of_parse h
    · exact Sql.standsIn_of_parseScript h hs
  obtain ⟨ifNotExists, columns, schema, rfl, mem, rfl, same⟩ :=
    schema_mem_of_created consistent created
  refine ⟨exists_declares stands, ?_⟩
  intro ds declares later before kept
  have consistent' := consistent_execute consistent (.createTable schema.name ifNotExists columns)
  have mem' := schema_mem_executeAll consistent' mem kept
  rw [execute_describe (consistent_executeAll consistent' later) mem', same, declares.rows]

/-- Constraints in one order and another, with a NULL that does not count and two defaults. -/
def enrolment : String :=
  "CREATE TABLE IF NOT EXISTS people (id Serial NOT NULL UNIQUE PRIMARY KEY, " ++
    "code Double Precision(9, 2) UNIQUE NULL, level text DEFAULT 'a' NOT NULL NULL DEFAULT 'b')"

/-- The statement that the text is. -/
def people : Statement :=
  .createTable "people" true
    [⟨"id", "Serial", true, true, true, none⟩,
     ⟨"code", "Double Precision(9,2)", false, true, false, none⟩,
     ⟨"level", "text", false, false, true, some (.string "b")⟩]

/-- Statements that fail, or pass over what they ask for, and rows that are added. -/
theorem describe_declared_people :
    let e := ofPolicy .warn
    let before := (e.execute people).2
    let later : List Statement :=
      [.createTable "people" true [⟨"x", "int", false, false, false, none⟩],
       .createTable "people" false [⟨"x", "int", false, false, false, none⟩],
       .insert "people" (some ["id"]) [[.number ⟨0⟩], [.number ⟨0⟩]],
       .dropTable "persons" true, .dropTable "persons" false]
    e.Reachable ∧ Sql.parse enrolment = .ok people ∧
      created? people (e.execute people).1 = some "people" ∧
      (∀ answered ∈ later.zip (before.executeAll later).1,
        dropped? answered.1 answered.2 ≠ some "people") ∧
      ∃ ds, Declares enrolment people ds ∧
        ((before.executeAll later).2.execute (.describe "people")).1 =
          .ofRows (ds.map Declaration.row) ∧
        ((before.executeAll later).2.execute (.describe "people")).1 = .ofRows
          [[("Field", .string "id"), ("Type", .string "number"), ("Null", .string "NO"),
            ("Key", .string "PRI"), ("Default", .null)],
           [("Field", .string "code"), ("Type", .string "number"), ("Null", .string "YES"),
            ("Key", .string "UNI"), ("Default", .null)],
           [("Field", .string "level"), ("Type", .string "string"), ("Null", .string "NO"),
            ("Key", .string ""), ("Default", .string "b")]] := by
  intro e before later
  have reachable : e.Reachable := ⟨.warn, [], rfl⟩
  have read : Sql.parse enrolment = .ok people := by decide +kernel
  have created : created? people (e.execute people).1 = some "people" := by decide +kernel
  have kept : ∀ answered ∈ later.zip (before.executeAll later).1,
      dropped? answered.1 answered.2 ≠ some "people" := by
    decide +kernel
  obtain ⟨⟨ds, declares⟩, described⟩ := describe_declared reachable (.inl read) created
  exact ⟨reachable, read, created, kept, ds, declares, described ds declares later kept,
    by decide +kernel⟩

end Engine
end PocketSql
