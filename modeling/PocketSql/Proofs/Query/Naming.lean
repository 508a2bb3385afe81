import PocketSql.Proofs.Query.Effects
import PocketSql.Proofs.Query.References
import PocketSql.Proofs.Query.Succession
import PocketSql.Proofs.Sql.Words

/-!
# Names that are stored

Tables get their names from texts, so what the lexer reads as names decides what names there can be.
Whatever texts are answered, the name of a table is a word, and with it a qualified name can be taken
apart in one way only. The name of a column is a word as well, but for texts that conceal an INSERT
among the arguments of a type.

## Main definitions

* `Engine.WellNamed` — a schema whose names are words, as far as texts conceal no INSERT.

## Main results

* `Engine.exists_executeAll` — a text is answered by executing statements that are read in it.
* `Engine.Reached.induction` — what the statements that are read in texts keep.
* `Engine.names_of_requests` — the names that are stored.
* `Engine.stored_dot` — a column whose name is no word.
-/

namespace PocketSql

open Store (Column Database FieldPolicy Schema Table)
open Sql (ColumnDef Conceals IsRun IsWord StandsIn Statement)
open Execution (columnOf)

namespace Engine

/-- The text that is to be answered. -/
def Request.text : Request → String
  | .query text => text
  | .script text => text

/-- A text is answered by executing statements that are read in it, or none. -/
theorem exists_executeAll (e : Engine) (request : Request) :
    ∃ statements, e.after request = (e.executeAll statements).2 ∧
      ∀ s ∈ statements, StandsIn s request.text := by
  cases request with
  | query text =>
    cases h : Sql.parse text with
    | error error =>
      refine ⟨[], ?_, fun _ hs => nomatch hs⟩
      rw [after, run, h]
      rfl
    | ok s =>
      refine ⟨[s], ?_, ?_⟩
      · rw [after, run, h]
        rfl
      · rw [List.forall_mem_singleton]
        exact Sql.standsIn_of_parse h
  | script text =>
    cases h : Sql.parseScript text with
    | error error =>
      refine ⟨[], ?_, fun _ hs => nomatch hs⟩
      rw [after, runScript, h]
      rfl
    | ok statements =>
      refine ⟨statements, ?_, fun s hs => Sql.standsIn_of_parseScript h hs⟩
      rw [after, runScript_ok h]

/-- Engines that texts lead to are those that the statements in them lead to. -/
theorem Reached.reachable {e : Engine} (h : e.Reached) : e.Reachable := by
  obtain ⟨policy, requests, rfl⟩ := h
  refine List.foldlRecOn requests after (motive := Reachable) ⟨policy, [], rfl⟩ ?_
  rintro e ⟨policy, statements, rfl⟩ request _
  obtain ⟨more, answered, -⟩ := exists_executeAll ((ofPolicy policy).executeAll statements).2 request
  refine ⟨policy, statements ++ more, ?_⟩
  rw [answered, executeAll_append]

/-- What all statements that are read in texts keep holds of the engines that texts lead to. -/
theorem Reached.induction {P : Engine → Prop} {e : Engine} (h : e.Reached)
    (start : ∀ policy, P (ofPolicy policy))
    (step : ∀ e s, (∃ text, StandsIn s text) → P e → P (e.execute s).2) : P e := by
  obtain ⟨policy, requests, rfl⟩ := h
  refine List.foldlRecOn requests after (motive := P) (start policy) ?_
  intro e holds request _
  obtain ⟨statements, answered, read⟩ := exists_executeAll e request
  rw [answered]
  apply executeAll_keeps holds
  intro e s hs
  exact step e s ⟨request.text, read s hs⟩

/-- Where texts lead to, tables have words for names. -/
theorem Reached.isWord_name {e : Engine} (h : e.Reached) :
    ∀ t ∈ e.database.tables, IsWord t.name := by
  refine (h.induction
    (P := fun e => e.database.Consistent ∧ ∀ t ∈ e.database.tables, IsWord t.name)
    (fun _ => ⟨Database.consistent_empty, fun _ ht => nomatch ht⟩) ?_).2
  rintro e s ⟨text, read⟩ ⟨consistent, words⟩
  refine ⟨consistent_execute consistent s, fun t ht => ?_⟩
  obtain ⟨u, hu, same⟩ | ⟨table, ifNotExists, columns, rfl, checked⟩ :=
    (effect_execute consistent s).schema_cases ht
  · rw [Table.name, ← same]
    exact words u hu
  · rw [Table.name, (Schema.checked_ok checked).1]
    exact read.names_of_create.1

/-- A schema whose names are words; those of its columns may be runs, if some text conceals an
INSERT among the arguments of a type. -/
def WellNamed (requests : List Request) (schema : Schema) : Prop :=
  IsWord schema.name ∧ ∀ n ∈ schema.columnNames,
    IsWord n ∨ IsRun n ∧ ∃ request ∈ requests, Conceals request.text

/-- A table that a text creates is well-named. -/
theorem wellNamed_of_standsIn {requests : List Request} {request : Request}
    (asked : request ∈ requests) {table : String} {ifNotExists : Bool} {columns : List ColumnDef}
    (h : StandsIn (.createTable table ifNotExists columns) request.text) {schema : Schema}
    (checked : (Schema.ofColumns table (columns.map columnOf)).checked = .ok schema) :
    WellNamed requests schema := by
  obtain ⟨name, declared, -⟩ := Schema.checked_ok checked
  obtain ⟨word, names⟩ := h.names_of_create
  refine ⟨name ▸ word, fun n hn => ?_⟩
  rw [Schema.columnNames, declared, Schema.ofColumns, List.map_map] at hn
  obtain ⟨d, hd, rfl⟩ := List.mem_map.1 hn
  obtain ⟨run, open_⟩ := names d hd
  by_cases conceals : Conceals request.text
  · exact .inr ⟨run, request, asked, conceals⟩
  · exact .inl (open_ conceals)

/-- **The names that are stored.** Whatever texts are answered, tables have words for names, and so
have columns unless some text conceals an INSERT among the arguments of a type. A qualified name
belongs to one table and one column only. -/
theorem names_of_requests (policy : FieldPolicy) (requests : List Request) :
    let tables := (requests.foldl after (ofPolicy policy)).database.tables
    (∀ t ∈ tables, WellNamed requests t.schema) ∧
    ∀ t ∈ tables, ∀ u ∈ tables, ∀ c d,
      qualifiedName t.name c = qualifiedName u.name d → t.name = u.name ∧ c = d := by
  -- what is said of the names looks at all requests, so that a further one leaves it as it is
  have keeps := List.foldlRecOn requests after (b := ofPolicy policy)
    (motive := fun e : Engine =>
      e.database.Consistent ∧ ∀ t ∈ e.database.tables, WellNamed requests t.schema)
    ⟨Database.consistent_empty, fun _ ht => nomatch ht⟩
  have named := (keeps ?_).2
  · refine ⟨named, fun t ht u hu c d same => ?_⟩
    have dotless := (named t ht).1.dot_not_mem
    exact (qualifiedName_inj dotless (named u hu).1.dot_not_mem).1 same
  · rintro e ⟨consistent, old⟩ request asked
    refine ⟨consistent_after consistent request, ?_⟩
    obtain ⟨statements, answered, read⟩ := exists_executeAll e request
    rw [answered]
    apply schemas_executeAll consistent old
    intro table ifNotExists columns hs schema checked
    exact wellNamed_of_standsIn asked (read _ hs) checked

/-- Not every name that is stored is a word: behind the arguments of a type with INSERT and VALUES,
a name is read as the values of an INSERT are. -/
theorem stored_dot :
    ¬ ∀ (policy : FieldPolicy) (requests : List Request),
      ∀ t ∈ (requests.foldl after (ofPolicy policy)).database.tables,
        IsWord t.name ∧ ∀ n ∈ t.schema.columnNames, IsWord n := by
  intro words
  have stored : (List.foldl after (ofPolicy .warn)
      [.query "CREATE TABLE t (x char(INSERT VALUES), a.b int)"]).database.tables.map
        (·.schema.columnNames) = [["x", "a.b"]] := by
    decide +kernel
  have mem : ["x", "a.b"] ∈ [["x", "a.b"]] := List.mem_singleton_self _
  rw [← stored] at mem
  obtain ⟨t, ht, names⟩ := List.mem_map.1 mem
  have word := (words _ _ t ht).2 "a.b" (by rw [names]; decide)
  exact word.dot_not_mem (by decide)

end Engine
end PocketSql
