import Mathlib.Data.Multiset.Bind
import PocketSql.Proofs.Query.Partners

/-!
# Inner joins the other way round

An inner join shows the pairs of rows that agree, whichever of the two tables comes first. The order
of the rows is another one then, and so is that of the cells in a row; but as each cell has the name
of its table in front, a row is the same map from names to values. The parser turns the condition
round where it names the joined table first, so that the two texts differ in the order of the tables
only.

## Main definitions

* `Sql.SelectsJoin` — a text selects columns from the inner join of two tables.
* `QueryResult.SameCells` — two results show the same rows, as maps, in any order.

## Main results

* `Row.get?_together_comm` — a joined row as a map.
* `Sql.JoinClause.joined_perm` — the rows of an inner join as a multiset of maps.
* `Engine.run_join_comm` — an inner join of two tables is that of the other one and the first.
-/

namespace PocketSql

open Store (Database Table)
open Sql (JoinClause)

/-! ## Joined rows as maps -/

/-- A name with dots is one without dots, a dot and what stands behind it. -/
theorem exists_qualifiedName {name : String} (h : ¬ Dotless name) :
    ∃ table column, Dotless table ∧ name = qualifiedName table column := by
  obtain ⟨q, c, split, plain⟩ := List.eq_append_cons_of_mem (not_not.1 h)
  refine ⟨String.ofList q, String.ofList c, ?_, ?_⟩
  · rwa [Dotless, String.toList_ofList]
  · rw [← String.toList_inj, toList_qualifiedName, String.toList_ofList, String.toList_ofList,
      split]

namespace Row

variable {table other : String} {row partner : Row}

/-- The joined row of two rows has the same cells whichever table comes first. -/
theorem get?_together_comm (hTable : Dotless table) (hOther : Dotless other)
    (different : other ≠ table) (nodup : row.names.Nodup) (nodup' : partner.names.Nodup) :
    (together table row other partner).get? = (together other partner table row).get? := by
  funext name
  by_cases first : ∃ c, qualifiedName table c = name
  · obtain ⟨c, rfl⟩ := first
    rw [get?_together_left hTable hOther different nodup,
      get?_together_right hOther hTable different.symm nodup]
  by_cases second : ∃ c, qualifiedName other c = name
  · obtain ⟨c, rfl⟩ := second
    rw [get?_together_right hTable hOther different nodup',
      get?_together_left hOther hTable different.symm nodup']
  rw [not_exists] at first second
  rw [get?_together_of_ne first second, get?_together_of_ne second first]

end Row

namespace Execution

variable {table other reference : String} {row row' : Row} {columns : List String}

/-- A reference with a dot names its table, so it does not matter which table is asked first. -/
theorem resolve_comm (qualified : ¬ Dotless reference) (different : other ≠ table)
    (same : row.get? = row'.get?) :
    resolve [table, other] row reference = resolve [other, table] row' reference := by
  obtain ⟨q, c, dotless, rfl⟩ := exists_qualifiedName qualified
  simp only [resolve, List.findSome?_cons, List.findSome?_nil, Row.lookup_qualified dotless, same]
  cases row'.get? (qualifiedName q c) with
  | some v => rfl
  | none =>
    by_cases first : q = table
    · subst first
      cases row'.get? c <;> simp [different.symm]
    · simp [first]

/-- What is selected by qualified names from a row, as a map, or the whole row. -/
theorem project_comm (asked : columns = ["*"] ∨ ∀ n ∈ columns, ¬ Dotless n)
    (different : other ≠ table) (same : row.get? = row'.get?) :
    (project columns [table, other] row).get? = (project columns [other, table] row').get? := by
  rw [project, project]
  split
  · exact same
  · next listed =>
    have each : ∀ n ∈ columns, resolve [table, other] row n = resolve [other, table] row' n := by
      obtain rfl | qualified := asked
      · exact absurd (by decide) listed
      · exact fun n hn => resolve_comm (qualified n hn) different same
    rw [Row.tabulate_eq, Row.tabulate_eq]
    congr 1
    apply List.map_congr_left
    intro n hn
    rw [each n (List.mem_eraseDups.1 hn)]

end Execution

/-! ## Joined rows as a multiset -/

theorem product_swap_perm {α β : Type} (l : List α) (m : List β) :
    ((l ×ˢ m).map Prod.swap).Perm (m ×ˢ l) := by
  rw [← Multiset.coe_eq_coe, ← Multiset.map_coe, ← Multiset.coe_product, ← Multiset.coe_product]
  exact Multiset.map_swap_product _ _

/-- The rows of an inner join are, as maps, those of the join the other way round. -/
theorem Sql.JoinClause.joined_perm {table other a b : String} {left right : List Row}
    (hTable : Dotless table) (hOther : Dotless other) (different : other ≠ table)
    (nodup : ∀ l ∈ left, l.names.Nodup) (nodup' : ∀ r ∈ right, r.names.Nodup)
    {f g : Row → Row} (same : ∀ row row', row.get? = row'.get? → (f row).get? = (g row').get?) :
    ((JoinClause.joined ⟨.inner, other, a, b⟩ table left right).map fun row => (f row).get?).Perm
      ((JoinClause.joined ⟨.inner, table, b, a⟩ other right left).map fun row => (g row).get?) := by
  have swapped := ((product_swap_perm left right).filter fun pair =>
    (pair.1.get b).same (pair.2.get a)).map fun pair =>
      (g (Row.together other pair.1 table pair.2)).get?
  have agree : (fun pair : Row × Row => (pair.1.get a).same (pair.2.get b)) =
      (fun pair => (pair.1.get b).same (pair.2.get a)) ∘ Prod.swap :=
    funext fun pair => Value.same_comm (pair.1.get a) (pair.2.get b)
  rw [List.filter_map, List.map_map, ← agree] at swapped
  rw [joined_inner, joined_inner, List.map_map, List.map_map]
  refine List.Perm.trans (.of_eq ?_) swapped
  apply List.map_congr_left
  intro pair hpair
  obtain ⟨l, r⟩ := pair
  obtain ⟨hl, hr⟩ := List.mem_product.1 (List.mem_filter.1 hpair).1
  exact same _ _ (Row.get?_together_comm hTable hOther different (nodup l hl) (nodup' r hr))

/-! ## Texts -/

namespace Sql

open Grammar

/-- A text is `SELECT columns FROM table JOIN other ON first = second`, in any spelling, where
`first` and `second` are columns with their tables. -/
inductive SelectsJoin (columns : List String) (table other : String)
    (first second : String × String) (text : String) : Prop where
  | mk {cs ns ks ms fs ss final : List Token} (selected : IsSelection .full cs columns)
      (named : IsName ns table) (kind : IsJoinKind ks .inner) (joined : IsName ms other)
      (left : IsQualified .full fs first) (right : IsQualified .full ss second)
      (ended : final = [.endOfInput] ∨ final = [.semicolon, .endOfInput])
      (tokens : tokenize text = .ok
        (.keyword .select :: (cs ++ .keyword .fromWord ::
          (ns ++ (ks ++ .keyword .join :: (ms ++ .keyword .on ::
            (fs ++ .comparison .eq :: ss))))) ++ final))

namespace SelectsJoin

variable {columns : List String} {table other a b text : String} {first second : String × String}

/-- Such a text is a statement, if its condition is one of a join. -/
theorem parse_of_isJoin {clause : JoinClause}
    (h : SelectsJoin columns table other first second text)
    (join : ∀ {ks ms fs ss : List Token}, IsJoinKind ks .inner → IsName ms other →
      IsQualified .full fs first → IsQualified .full ss second →
        IsJoin .full table
          (ks ++ .keyword .join :: (ms ++ .keyword .on :: (fs ++ .comparison .eq :: ss))) clause) :
    parse text = .ok (.select columns table (some clause) []) := by
  obtain ⟨selected, named, kind, joined, left, right, ended, tokens⟩ := h
  have statement := IsStatement.select selected named (.clause (join kind joined left right))
    .missing
  rw [List.append_nil] at statement
  rw [parse_ok_iff tokens]
  obtain rfl | rfl := ended
  · exact ⟨_, .bare statement⟩
  · exact ⟨_, .ended statement⟩

/-- The condition may name the first table first. -/
theorem parse_direct (h : SelectsJoin columns table other (table, a) (other, b) text) :
    parse text = .ok (.select columns table (some ⟨.inner, other, a, b⟩) []) :=
  h.parse_of_isJoin fun kind joined left right => .direct kind joined left right

/-- It may name the joined table first. -/
theorem parse_swapped (h : SelectsJoin columns table other (other, b) (table, a) text)
    (different : other ≠ table) :
    parse text = .ok (.select columns table (some ⟨.inner, other, a, b⟩) []) :=
  h.parse_of_isJoin fun kind joined left right => .swapped kind joined left right different

end SelectsJoin

end Sql

/-! ## Results -/

/-- Two results show the same rows, as maps from names to values, in any order and each as often; or
neither of them shows rows. -/
def QueryResult.SameCells (result result' : QueryResult) : Prop :=
  Option.Rel (fun rows rows' => (rows.map Row.get?).Perm (rows'.map Row.get?)) result.rows
    result'.rows

namespace Engine

variable {e : Engine} {L R : Table} {columns : List String} {a b text text' : String}

/-- An inner join without conditions is answered if both columns are there. -/
theorem execute_inner (hL : e.database.table L.name = .ok L) (hR : e.database.table R.name = .ok R)
    (columns : List String) (a b : String) :
    let answer := (e.execute (.select columns L.name (some ⟨.inner, R.name, a, b⟩) [])).1
    (a ∈ L.schema.columnNames ∧ b ∈ R.schema.columnNames) ∧
        answer = .ofRows ((JoinClause.joined ⟨.inner, R.name, a, b⟩ L.name L.rows R.rows).map
          (Execution.project columns [L.name, R.name])) ∨
      ¬ (a ∈ L.schema.columnNames ∧ b ∈ R.schema.columnNames) ∧
        ∃ error, answer = .ofStoreError error := by
  have whole : L.rows.filter (Sql.holdAll [] L.name) = L.rows := List.filter_true L.rows
  dsimp only
  rw [execute, Database.execute, Execution.selectRows, hL]
  dsimp only
  rw [whole, Execution.joinTables, hR]
  by_cases first : a ∈ L.schema.columnNames
  · by_cases second : b ∈ R.schema.columnNames
    · simp [first, second, Store.Schema.hasColumn_iff.2, Except.map]
    · have missing : R.schema.hasColumn b = false :=
        Bool.eq_false_iff.2 (mt Store.Schema.hasColumn_iff.1 second)
      simp [first, second, missing, Store.Schema.hasColumn_iff.2, Except.map]
  · have missing : L.schema.hasColumn a = false :=
      Bool.eq_false_iff.2 (mt Store.Schema.hasColumn_iff.1 first)
    simp [first, missing, Except.map]

/-- **Inner joins are symmetric.** For two tables of an engine, the text that joins the second one
to the first one and the text that joins the first one to the second one on the same condition show
the same rows, where all columns are selected or qualified ones. Both are answered if the columns of
the condition are there, and otherwise neither of them is. -/
theorem run_join_comm (reachable : e.Reachable) (hL : L ∈ e.database.tables)
    (hR : R ∈ e.database.tables) (different : L ≠ R) (hLeft : Dotless L.name)
    (hRight : Dotless R.name) (asked : columns = ["*"] ∨ ∀ n ∈ columns, ¬ Dotless n)
    (direct : Sql.SelectsJoin columns L.name R.name (L.name, a) (R.name, b) text)
    (turned : Sql.SelectsJoin columns R.name L.name (L.name, a) (R.name, b) text') :
    (e.run text).1.SameCells (e.run text').1 ∧
      ((e.run text).1.success = true ↔ a ∈ L.schema.columnNames ∧ b ∈ R.schema.columnNames) ∧
      ((e.run text').1.success = true ↔ a ∈ L.schema.columnNames ∧ b ∈ R.schema.columnNames) := by
  have consistent := reachable.consistent
  have apart : R.name ≠ L.name := fun same =>
    different (List.inj_on_of_nodup_map consistent.names_nodup hR hL same).symm
  have found {t : Table} (ht : t ∈ e.database.tables) : e.database.table t.name = .ok t :=
    consistent.table_eq_ok_iff.2 ⟨ht, rfl⟩
  have nodup {t : Table} (ht : t ∈ e.database.tables) : ∀ row ∈ t.rows, row.names.Nodup :=
    fun _ hrow => (consistent.tables_consistent t ht).names_nodup hrow
  rw [run, direct.parse_direct, run, turned.parse_swapped apart.symm]
  dsimp only
  obtain ⟨there, answer⟩ | ⟨missing, error, answer⟩ :=
    execute_inner (found hL) (found hR) columns a b
  · obtain ⟨-, answer'⟩ | ⟨missing, -⟩ := execute_inner (found hR) (found hL) columns b a
    · rw [answer, answer']
      refine ⟨.some ?_, iff_of_true rfl there, iff_of_true rfl there⟩
      rw [List.map_map, List.map_map]
      exact JoinClause.joined_perm hLeft hRight apart (nodup hL) (nodup hR) fun row row' same =>
        Execution.project_comm asked apart same
    · exact absurd there.symm missing
  · obtain ⟨there, -⟩ | ⟨-, error', answer'⟩ := execute_inner (found hR) (found hL) columns b a
    · exact absurd there.symm missing
    · rw [answer, answer']
      exact ⟨.none, iff_of_false Bool.false_ne_true missing,
        iff_of_false Bool.false_ne_true missing⟩

/-- People with the notes on their bosses, and notes with the people whose bosses they are on. Two
of the three rows are there because NULL agrees with NULL. -/
theorem run_join_comm_people :
    let text := "SELECT * FROM people JOIN notes ON people.boss = notes.id"
    let text' := "SELECT * FROM notes INNER JOIN people ON people.boss = notes.id;"
    peopleEngine.Reachable ∧
      Sql.SelectsJoin ["*"] "people" "notes" ("people", "boss") ("notes", "id") text ∧
      Sql.SelectsJoin ["*"] "notes" "people" ("people", "boss") ("notes", "id") text' ∧
      (peopleEngine.run text).1.SameCells (peopleEngine.run text').1 ∧
      (peopleEngine.run text).1.rows = some
        [[("people.id", .number ⟨0x3FF0000000000000⟩), ("people.boss", .null), ("notes.id", .null),
            ("notes.note", .string "a")],
          [("people.id", .number ⟨0x3FF0000000000000⟩), ("people.boss", .null), ("notes.id", .null),
            ("notes.note", .string "c")],
          [("people.id", .number ⟨0x4000000000000000⟩),
            ("people.boss", .number ⟨0x3FF0000000000000⟩),
            ("notes.id", .number ⟨0x3FF0000000000000⟩), ("notes.note", .string "b")]] ∧
      (peopleEngine.run text').1.rows = some
        [[("notes.id", .null), ("notes.note", .string "a"),
            ("people.id", .number ⟨0x3FF0000000000000⟩), ("people.boss", .null)],
          [("notes.id", .number ⟨0x3FF0000000000000⟩), ("notes.note", .string "b"),
            ("people.id", .number ⟨0x4000000000000000⟩),
            ("people.boss", .number ⟨0x3FF0000000000000⟩)],
          [("notes.id", .null), ("notes.note", .string "c"),
            ("people.id", .number ⟨0x3FF0000000000000⟩), ("people.boss", .null)]] := by
  intro text text'
  have reachable : peopleEngine.Reachable := ⟨.warn, _, rfl⟩
  have tables : peopleSource.table ∈ peopleEngine.database.tables ∧
      peopleSource.table.name = "people" ∧
      ∃ R ∈ peopleEngine.database.tables, R.name = "notes" ∧ peopleSource.table ≠ R := by
    decide +kernel
  obtain ⟨hL, left, R, hR, right, different⟩ := tables
  have first : Sql.Grammar.IsQualified .full [.name "people", .dot, .name "boss"]
      ("people", "boss") :=
    @Sql.Grammar.IsQualified.mk .full [.name "people"] [.name "boss"] "people" "boss" (.word _)
      (.word _)
  have second : Sql.Grammar.IsQualified .full [.name "notes", .dot, .name "id"]
      ("notes", "id") :=
    @Sql.Grammar.IsQualified.mk .full [.name "notes"] [.name "id"] "notes" "id" (.word _) (.word _)
  have direct : Sql.SelectsJoin ["*"] "people" "notes" ("people", "boss") ("notes", "id") text :=
    .mk .all (.word "people") .bare (.word "notes") first second (.inl rfl)
      (by decide +kernel)
  have turned : Sql.SelectsJoin ["*"] "notes" "people" ("people", "boss") ("notes", "id") text' :=
    .mk .all (.word "notes") .inner (.word "people") first second (.inr rfl)
      (by decide +kernel)
  have same := (@run_join_comm peopleEngine peopleSource.table R ["*"] "boss" "id" text text'
    reachable hL hR different (by rw [left]; decide) (by rw [right]; decide) (.inl rfl)
    (by rw [left, right]; exact direct) (by rw [left, right]; exact turned)).1
  exact ⟨reachable, direct, turned, same, by decide +kernel, by decide +kernel⟩

end Engine

end PocketSql
