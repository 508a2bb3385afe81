import PocketSql.Proofs.Store.Catalog
import PocketSql.Query.Engine

/-!
# Failed statements leave no trace

A statement that fails leaves a database that nothing tells from the one before. All statements but
an INSERT check everything before they change anything; an INSERT of several rows takes back those
that it has added, and the rebuilt indexes find the same rows as before. Main statement: this holds
in every state that an engine can reach, for single texts and for each statement of a script.
-/

namespace PocketSql

open Store (Database FieldPolicy Table)
open Sql (Statement)

namespace Execution

/-- Inserting rows keeps a table consistent, and after a failure the rows are the first ones. -/
theorem insertRows_keeps {start : Nat} {columns : List String} {t t' : Table}
    {rows : List (List Value)} {result : Except Store.Error Unit} (h : t.Consistent)
    (hs : start ≤ t.rows.length) (hi : insertRows start columns t rows = (result, t')) :
    t'.Consistent ∧ t'.schema = t.schema ∧
      ∀ e, result = .error e → t'.rows = t.rows.take start := by
  induction rows generalizing t with
  | nil =>
    obtain ⟨rfl, rfl⟩ := Prod.mk.inj hi
    exact ⟨h, rfl, fun e he => nomatch he⟩
  | cons values rows ih =>
    rw [insertRows] at hi
    split at hi
    · next u hu =>
      obtain ⟨row, -, -, hu'⟩ := Table.insert_ok hu
      have hrows : u.rows = t.rows ++ [row] := by rw [hu']
      obtain ⟨hc, hschema, herror⟩ := ih (h.insert hu) (by rw [hrows]; simp; omega) hi
      refine ⟨hc, hschema.trans (Table.schema_insert hu), fun e he => ?_⟩
      rw [herror e he, hrows, List.take_append_of_le_length hs]
    · obtain ⟨rfl, rfl⟩ := Prod.mk.inj hi
      exact ⟨h.truncate start, Table.schema_truncate t start,
        fun _ _ => Table.rows_truncate t start⟩

variable {db db' : Database}

/-- What a statement does to a consistent database: it stays consistent, a result is a success, and
after an error nothing is seen to have changed. -/
structure Atomic (db : Database) (answer : Answer) : Prop where
  consistent : answer.2.Consistent
  success : ∀ result, answer.1 = .ok result → result.success = true
  alike : ∀ e, answer.1 = .error e → db.Alike answer.2

/-- An answer that leaves the database as it is. -/
theorem Atomic.same (h : db.Consistent) {x : Except Store.Error QueryResult}
    (hx : ∀ result, x = .ok result → result.success = true) : Atomic db (x, db) :=
  ⟨h, hx, fun _ _ => Database.Alike.refl db⟩

/-- A success that leaves a consistent database. -/
theorem Atomic.ok (h : db'.Consistent) {result : QueryResult} (hr : result.success = true) :
    Atomic db (.ok result, db') :=
  ⟨h, fun _ he => Except.ok.inj he ▸ hr, fun _ he => nomatch he⟩

theorem Atomic.error (h : db.Consistent) (e : Store.Error) : Atomic db (.error e, db) :=
  Atomic.same h fun _ he => nomatch he

theorem atomic_createTable (h : db.Consistent) (table : String) (ifNotExists : Bool)
    (columns : List Sql.ColumnDef) : Atomic db (createTable db table ifNotExists columns) := by
  rw [createTable]
  split
  · exact Atomic.ok h rfl
  · split
    · next hc => exact Atomic.ok (h.create hc) rfl
    · exact Atomic.error h _

theorem atomic_dropTable (h : db.Consistent) (table : String) (ifExists : Bool) :
    Atomic db (dropTable db table ifExists) := by
  rw [dropTable]
  split
  · exact Atomic.ok h rfl
  · split
    · next hd => exact Atomic.ok (h.drop hd) rfl
    · exact Atomic.error h _

theorem atomic_insert (h : db.Consistent) (table : String) (columns : Option (List String))
    (rows : List (List Value)) : Atomic db (insert db table columns rows) := by
  rw [insert]
  split
  · exact Atomic.error h _
  · next t ht =>
    obtain ⟨hmem, -⟩ := Database.mem_of_table ht
    have hc := h.tables_consistent t hmem
    split
    · next e u hu =>
      obtain ⟨hcu, hschema, herror⟩ := insertRows_keeps hc (Nat.le_refl _) hu
      have hrows := herror e rfl
      rw [List.take_length] at hrows
      exact ⟨h.replace hcu, fun _ he => (nomatch he),
        fun _ _ => h.alike_replace hmem (hc.alike hcu hschema.symm hrows.symm)⟩
    · next u hu =>
      exact Atomic.ok (h.replace (insertRows_keeps hc (Nat.le_refl _) hu).1) rfl

theorem atomic_update (h : db.Consistent) (policy : FieldPolicy) (table : String)
    (assignments : List (String × Value)) (conditions : List Sql.Condition) :
    Atomic db (update policy db table assignments conditions) := by
  rw [update]
  split
  · exact Atomic.error h _
  · next t ht =>
    have hc := h.tables_consistent t (Database.mem_of_table ht).1
    split
    · exact Atomic.error h _
    · next hu => exact Atomic.ok (h.replace (hc.update hu)) rfl

theorem atomic_delete (h : db.Consistent) (table : String) (conditions : List Sql.Condition) :
    Atomic db (delete db table conditions) := by
  rw [delete]
  split
  · exact Atomic.error h _
  · next t ht =>
    have hc := h.tables_consistent t (Database.mem_of_table ht).1
    exact Atomic.ok (h.replace (hc.delete _)) rfl

/-- Every kind of statement is all or nothing. -/
theorem atomic_execute (h : db.Consistent) (policy : FieldPolicy) (s : Statement) :
    Atomic db (db.execute policy s) := by
  cases s with
  | createTable table ifNotExists columns => exact atomic_createTable h table ifNotExists columns
  | dropTable table ifExists => exact atomic_dropTable h table ifExists
  | insert table columns rows => exact atomic_insert h table columns rows
  | select columns table join conditions =>
    refine Atomic.same h fun result hr => ?_
    cases hrows : selectRows db columns table join conditions with
    | error e => rw [hrows] at hr; exact nomatch hr
    | ok rows => rw [hrows] at hr; exact Except.ok.inj hr ▸ rfl
  | update table assignments conditions => exact atomic_update h policy table assignments conditions
  | delete table conditions => exact atomic_delete h table conditions
  | showTables => exact Atomic.ok h rfl
  | describe table =>
    refine Atomic.same h fun result hr => ?_
    rw [describe] at hr
    split at hr
    · exact nomatch hr
    · exact Except.ok.inj hr ▸ rfl

end Execution

namespace Engine

/-- A text that an engine is asked to answer. -/
inductive Request where
  | query (text : String)
  | script (text : String)

/-- The engine after it has answered. -/
def after (e : Engine) : Request → Engine
  | .query text => (e.run text).2
  | .script text => (e.runScript text).2

/-- An engine that comes about by answering texts, from one without tables. -/
def Reached (e : Engine) : Prop :=
  ∃ (policy : FieldPolicy) (requests : List Request), e = requests.foldl after (ofPolicy policy)

variable {e : Engine}

theorem consistent_execute (h : e.database.Consistent) (s : Statement) :
    (e.execute s).2.database.Consistent := by
  have hc := (Execution.atomic_execute h e.policy s).consistent
  rw [execute]
  split <;> next hx => rw [hx] at hc; exact hc

/-- A failed result of a statement means that nothing is seen to have changed. -/
theorem alike_execute (h : e.database.Consistent) {s : Statement}
    (hf : (e.execute s).1.success = false) : e.database.Alike (e.execute s).2.database := by
  have ha := Execution.atomic_execute h e.policy s
  rw [execute] at hf ⊢
  split at hf
  · next hx =>
    rw [ha.success _ (by rw [hx])] at hf
    exact Bool.noConfusion hf
  · next error db hx =>
    have := ha.alike error (by rw [hx])
    rw [hx] at this
    exact this

theorem consistent_executeAll (h : e.database.Consistent) (statements : List Statement) :
    (e.executeAll statements).2.database.Consistent := by
  induction statements generalizing e with
  | nil => exact h
  | cons s statements ih => exact ih (consistent_execute h s)

/-- A failed result among those of several statements comes from one that changed nothing. -/
theorem alike_executeAll (h : e.database.Consistent) {statements : List Statement} {i : Nat}
    {result : QueryResult} (hr : (e.executeAll statements).1[i]? = some result)
    (hf : result.success = false) :
    (e.executeAll (statements.take i)).2.database.Alike
      (e.executeAll (statements.take (i + 1))).2.database := by
  induction statements generalizing e i with
  | nil => exact nomatch hr
  | cons s statements ih =>
    cases i with
    | zero =>
      obtain rfl : (e.execute s).1 = result := Option.some.inj hr
      exact alike_execute h hf
    | succ i => exact ih (consistent_execute h s) hr

theorem consistent_after (h : e.database.Consistent) (request : Request) :
    (e.after request).database.Consistent := by
  cases request with
  | query text =>
    rw [after, run]
    split
    · exact consistent_execute h _
    · exact h
  | script text =>
    rw [after, runScript]
    split
    · exact consistent_executeAll h _
    · exact h

theorem Reached.consistent (h : e.Reached) : e.database.Consistent := by
  obtain ⟨policy, requests, rfl⟩ := h
  exact List.foldlRecOn requests after (motive := fun e : Engine => e.database.Consistent)
    Database.consistent_empty fun e he request _ => consistent_after he request

/-- **All or nothing.** A failed text leaves a database like the one before, and so does each failed
statement of a script. A text that is no script changes nothing at all. -/
theorem alike_of_failed (h : e.Reached) :
    (∀ text, (e.run text).1.success = false → e.database.Alike (e.run text).2.database) ∧
      (∀ text statements, Sql.parseScript text = .ok statements →
        e.runScript text = e.executeAll statements ∧
        ∀ i result, (e.runScript text).1[i]? = some result → result.success = false →
          (e.executeAll (statements.take i)).2.database.Alike
            (e.executeAll (statements.take (i + 1))).2.database) ∧
      ∀ text error, Sql.parseScript text = .error error →
        e.runScript text = ([.ofGrammarError error], e) := by
  refine ⟨fun text hf => ?_, fun text statements hs => ?_, fun text error he => ?_⟩
  · rw [run] at hf ⊢
    split at hf
    · exact alike_execute h.consistent hf
    · exact Database.Alike.refl _
  · have hrun : e.runScript text = e.executeAll statements := by rw [runScript, hs]
    refine ⟨hrun, fun i result hr hf => ?_⟩
    rw [hrun] at hr
    exact alike_executeAll h.consistent hr hf
  · rw [runScript, he]

/-- An engine with a table of two keyed columns and two rows, of which one has only one key. -/
def paired : Engine := List.foldl after (ofPolicy .warn)
  [.query "CREATE TABLE t (a int PRIMARY KEY, b text UNIQUE)",
   .query "INSERT INTO t VALUES (0, 'x'), (-0.5, NULL)"]

/-- The second row repeats a key, and so the first one goes again. -/
theorem alike_of_failed_paired :
    paired.Reached ∧
      (paired.run "INSERT INTO t VALUES (2, 'y'), (1, 'x')").1.success = false ∧
      paired.database.Alike (paired.run "INSERT INTO t VALUES (2, 'y'), (1, 'x')").2.database :=
  have h : paired.Reached := ⟨.warn, _, rfl⟩
  have hf : (paired.run "INSERT INTO t VALUES (2, 'y'), (1, 'x')").1.success = false := by
    decide +kernel
  ⟨h, hf, (alike_of_failed h).1 _ hf⟩

end Engine
end PocketSql
