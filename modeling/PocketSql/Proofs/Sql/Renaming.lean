import PocketSql.Proofs.Sql.Lexicon
import PocketSql.Proofs.Sql.ValueTokens

/-!
# Keywords in the place of names

If a word that names tables and columns gives way to a keyword that is not reserved, a statement
stays the same one, with the lower case of the keyword for a name. There are two exceptions: `IF` is
no name behind `CREATE TABLE` and `DROP TABLE`, and a join may change if two tables get one name.

## Main definitions

* `mapNames` — the same statement with its names changed.
* `respell`, `rename` — the keyword in the place of a token, and of a name.
* `Lexicon.sparing` — the words of statements in which a word is nothing but a name.
* `BecomesGuard`, `TurnsStatement` — the exceptions.

## Main results

* `IsStatement.renamed` — the tokens with the keyword for the word are the renamed statement.
-/

namespace PocketSql
namespace Sql

open Grammar

/-! ## Statements with other names -/

/-- The same reference with other names. The table is what stands in front of the first dot. -/
def mapReference (f : String → String) (r : String) : String :=
  let table := r.toList.takeWhile (· ≠ '.')
  match r.toList.dropWhile (· ≠ '.') with
  | [] => f r
  | _ :: column => f (String.ofList table) ++ "." ++ f (String.ofList column)

def mapColumnName (f : String → String) (d : ColumnDef) : ColumnDef := { d with name := f d.name }

def mapSubject (f : String → String) (c : Condition) : Condition :=
  { c with column := mapReference f c.column }

def mapJoin (f : String → String) (j : JoinClause) : JoinClause :=
  ⟨j.kind, f j.table, f j.left, f j.right⟩

/-- The same statement with its names changed. -/
def mapNames (f : String → String) : Statement → Statement
  | .createTable table ifNotExists columns =>
    .createTable (f table) ifNotExists (columns.map (mapColumnName f))
  | .dropTable table ifExists => .dropTable (f table) ifExists
  | .insert table columns rows => .insert (f table) (columns.map (·.map f)) rows
  | .select columns table join conditions =>
    .select (columns.map (mapReference f)) (f table) (join.map (mapJoin f))
      (conditions.map (mapSubject f))
  | .update table assignments conditions =>
    .update (f table) (assignments.map (Prod.map f id)) (conditions.map (mapSubject f))
  | .delete table conditions => .delete (f table) (conditions.map (mapSubject f))
  | .showTables => .showTables
  | .describe table => .describe (f table)

variable {f : String → String}

theorem mapReference_plain {r : String} (whole : '.' ∉ r.toList) : mapReference f r = f r := by
  have none : r.toList.dropWhile (· ≠ '.') = [] := by
    rw [List.dropWhile_eq_nil_iff]
    intro c hc
    rw [decide_eq_true_eq]
    rintro rfl
    exact whole hc
  rw [mapReference, none]

theorem mapReference_qualified {table : String} (whole : '.' ∉ table.toList) (column : String) :
    mapReference f (table ++ "." ++ column) = f table ++ "." ++ f column := by
  have text : (table ++ "." ++ column).toList = table.toList ++ '.' :: column.toList := by simp
  have front : ∀ c ∈ table.toList, decide (c ≠ '.') = true := by
    intro c hc
    rw [decide_eq_true_eq]
    rintro rfl
    exact whole hc
  have behind : ∀ c, ('.' :: column.toList).head? = some c → decide (c ≠ '.') = false := by simp
  rw [mapReference, text, dropWhile_front front behind, takeWhile_front front behind]
  simp

theorem mapColumnName_foldl (f : String → String) (d : ColumnDef) (cs : List Constraint) :
    mapColumnName f (cs.foldl Constraint.add d) = cs.foldl Constraint.add (mapColumnName f d) := by
  induction cs generalizing d with
  | nil => rfl
  | cons c cs ih =>
    rw [List.foldl_cons, ih]
    cases c <;> rfl

/-! ## A keyword for a word -/

section
variable (x : String) (k : Keyword)

/-- The keyword in the place of the word. -/
def respell (t : Token) : Token := if t = .name x then .keyword k else t

/-- The name of the keyword in the place of the word. -/
def rename (s : String) : String := if s = x then k.lowerText else s

end

namespace Grammar

/-- The words of statements in which `x` is nothing but a name. -/
def Lexicon.sparing (x : String) : Lexicon where
  name := IsName
  typeWord ts word := IsTypeWord ts word ∧ .name x ∉ ts
  value ts v := IsValue ts v ∧ .name x ∉ ts

end Grammar

variable {x : String} {k : Keyword} {ts us : List Token}

@[simp] theorem respell_of_ne {t : Token} (other : ∀ s, t ≠ .name s) : respell x k t = t :=
  if_neg (other x)

theorem map_respell_of_not_mem (h : .name x ∉ ts) : ts.map (respell x k) = ts := by
  have same : ∀ t ∈ ts, respell x k t = id t := by
    intro t ht
    refine if_neg ?_
    rintro rfl
    exact h ht
  rw [List.map_congr_left same, List.map_id]

theorem lowerText_ne (plain : PlainWord x) (k : Keyword) : k.lowerText ≠ x := by
  obtain ⟨-, -, -, -, -, unknown⟩ := plain
  rintro rfl
  have known : Keyword.ofWord? k.lowerText.toList ≠ none := by cases k <;> decide
  exact known unknown

theorem star_ne (plain : PlainWord x) : "*" ≠ x := by
  obtain ⟨c, s, text, word, -⟩ := plain
  rintro rfl
  cases text
  rw [(sign_classes (by decide)).2.1] at word
  cases word

/-! ## Modes outside of an insertion -/

/-- No INSERT has been read, so that neither parentheses nor commas are followed by a value. -/
def Mode.OutsideInsert (m : Mode) : Prop := m.insert = false ∧ m.values = false

theorem Mode.OutsideInsert.after {m : Mode} {t : Token} (h : m.OutsideInsert)
    (other : t ≠ .keyword .insert) : (m.after t).OutsideInsert := by
  obtain ⟨insert, values⟩ := h
  unfold Mode.after
  split <;> simp_all [OutsideInsert, initial]

theorem Mode.OutsideInsert.afterAll {m : Mode} (h : m.OutsideInsert)
    (other : .keyword .insert ∉ ts) : (m.afterAll ts).OutsideInsert := by
  refine Mode.afterAll_keeps h ?_
  intro m t ht outside
  exact outside.after (ne_of_mem_of_not_mem ht other)

/-! ## Names with dots -/

/-- Names with a dot stand only where a value is expected. -/
def DotsInValues (m : Mode) (ts : List Token) : Prop :=
  ∀ front s back, ts = front ++ .name s :: back → '.' ∈ s.toList → (m.afterAll front).value = true

section
variable {m : Mode}

theorem DotsInValues.left (h : DotsInValues m (ts ++ us)) : DotsInValues m ts := by
  rintro front s back rfl dot
  exact h front s (back ++ us) (by simp) dot

theorem DotsInValues.right (h : DotsInValues m (ts ++ us)) : DotsInValues (m.afterAll ts) us := by
  rintro front s back rfl dot
  rw [← Mode.afterAll_append]
  exact h (ts ++ front) s back (by simp) dot

theorem DotsInValues.tail {t : Token} (h : DotsInValues m (t :: ts)) :
    DotsInValues (m.after t) ts := by
  rintro front s back rfl dot
  exact h (t :: front) s back rfl dot

/-- Where no value is expected, a name has no dot. -/
theorem DotsInValues.name_whole {s : String} (h : DotsInValues m (ts ++ us)) (named : IsName ts s)
    (value : m.value = false) : '.' ∉ s.toList := by
  cases named with
  | word =>
    intro dot
    have expected := h [] s us rfl dot
    rw [Mode.afterAll_nil, value] at expected
    cases expected
  | keyword k' => cases k' <;> decide

end

/-! ## Statements that become other ones -/

/-- The word stands behind CREATE TABLE or DROP TABLE, where IF is no name. -/
def BecomesGuard (x : String) (k : Keyword) (ts : List Token) : Prop :=
  k = .ifWord ∧ ∃ first rest, ts = .keyword first :: .keyword .table :: .name x :: rest

/-- The condition of a join names the joined table first, and with other names the two tables are
one but the two columns are not. Then the right column is taken for the left one. -/
def TurnsJoin (f : String → String) (table : String) (j : JoinClause) (ts : List Token) : Prop :=
  j.table ≠ table ∧ f j.table = f table ∧ f j.left ≠ f j.right ∧
    ∃ front t back, ts = front ++ .keyword .on :: t :: back ∧ t.name? = some j.table

/-- The statement has such a join. -/
def TurnsStatement (f : String → String) (s : Statement) (ts : List Token) : Prop :=
  ∃ columns table j conditions,
    s = .select columns table (some j) conditions ∧ TurnsJoin f table j ts

theorem TurnsJoin.append {f : String → String} {table : String} {j : JoinClause}
    (h : TurnsJoin f table j ts) (front back : List Token) :
    TurnsJoin f table j (front ++ (ts ++ back)) := by
  obtain ⟨other, same, different, front', t, back', rfl, first⟩ := h
  exact ⟨other, same, different, front ++ front', t, back' ++ back, by simp, first⟩

theorem TurnsStatement.append {f : String → String} {s : Statement} (back : List Token)
    (h : TurnsStatement f s ts) : TurnsStatement f s (ts ++ back) := by
  obtain ⟨columns, table, j, conditions, rfl, turns⟩ := h
  exact ⟨columns, table, j, conditions, rfl, turns.append [] back⟩

theorem BecomesGuard.append (back : List Token) (h : BecomesGuard x k ts) :
    BecomesGuard x k (ts ++ back) := by
  obtain ⟨taken, first, rest, rfl⟩ := h
  exact ⟨taken, first, rest ++ back, rfl⟩

/-! ## Phrases with other names -/

namespace Grammar

section
variable {α : Type} {item item' : List Token → α → Prop} {g : α → α} {m : Mode}

/-- Items of a list are changed one by one, if what is known of the mode in front of one of them is
known again behind the separator. -/
theorem IsList.respelled {I : Mode → Prop}
    (items : ∀ {m ts a}, I m → DotsInValues m ts → item ts a → item' (ts.map (respell x k)) (g a))
    {separator : Token} (next : ∀ {m ts a}, I m → item ts a → I ((m.afterAll ts).after separator))
    (same : respell x k separator = separator) {as : List α}
    (h : IsList separator item ts as) (hm : I m) (dots : DotsInValues m ts) :
    IsList separator item' (ts.map (respell x k)) (as.map g) := by
  induction h generalizing m with
  | one h => exact .one (items hm dots h)
  | more h _ ih =>
    rw [List.map_append, List.map_cons, same]
    exact .more (items hm dots.left h) (ih (next hm h) dots.right.tail)

end

/-- The full lexicon has all these words. -/
theorem embeds_sparing : Lexicon.Embeds (.sparing x) .full id where
  name h := h
  typeWord h := h.1
  value h := h.1

/-- A column with its table starts with the name of the table. -/
theorem IsQualified.exists_cons {table column : String}
    (h : IsQualified (.sparing x) ts (table, column)) :
    ∃ t us, ts = t :: us ∧ t.name? = some table := by
  obtain ⟨first, -⟩ := h
  cases first with
  | word => exact ⟨_, _, rfl, rfl⟩
  | keyword k free => exact ⟨_, _, rfl, by simp [Token.name?, Keyword.name?, free]⟩

/-- The word is no part of a value. -/
theorem value_respell {v : Value} (h : Lexicon.value (.sparing x) ts v) :
    IsValue (ts.map (respell x k)) v := by
  rw [map_respell_of_not_mem h.2]
  exact h.1

/-- The word is no part of a type. -/
theorem typeWord_respell {word : String} (h : Lexicon.typeWord (.sparing x) ts word) :
    IsTypeWord (ts.map (respell x k)) word := by
  rw [map_respell_of_not_mem h.2]
  exact h.1

theorem rows_respelled {rows : List (List Value)}
    (h : IsList .comma (IsTuple (Lexicon.value (.sparing x))) ts rows) :
    IsList .comma (IsTuple IsValue) (ts.map (respell x k)) rows := by
  have row (ts : List Token) (vs : List Value) (h : IsTuple (Lexicon.value (.sparing x)) ts vs) :
      IsTuple IsValue (ts.map (respell x k)) vs := by
    simpa using h.mapTokens (f := id) (fun _ _ h => value_respell h) (by simp)
  simpa using h.mapTokens (f := id) row rfl

theorem IsConstraint.respelled {c : Constraint} (h : IsConstraint (.sparing x) ts c) :
    IsConstraint .full (ts.map (respell x k)) c := by
  cases h with
  | default h => exact .default (value_respell h)
  | primaryKey => exact .primaryKey
  | unique => exact .unique
  | notNull => exact .notNull
  | null => exact .null

theorem IsJoinKind.respelled {kind : JoinKind} (h : IsJoinKind ts kind) :
    IsJoinKind (ts.map (respell x k)) kind := by
  cases h with
  | bare => exact .bare
  | inner => exact .inner
  | left => exact .left
  | leftOuter => exact .leftOuter

section
variable (plain : PlainWord x) (free : k.reserved = false)
include plain free

theorem IsName.renamed {s : String} (h : IsName ts s) :
    IsName (ts.map (respell x k)) (rename x k s) := by
  cases h with
  | word s =>
    by_cases same : s = x
    · subst same
      simpa [respell, rename] using IsName.keyword k free
    · simpa [respell, rename, same] using IsName.word s
  | keyword k' free' =>
    simpa [rename, lowerText_ne plain] using IsName.keyword k' free'

theorem IsQualified.renamed {table column : String}
    (h : IsQualified (.sparing x) ts (table, column)) :
    IsQualified .full (ts.map (respell x k)) (rename x k table, rename x k column) := by
  obtain ⟨first, second⟩ := h
  rw [List.map_append, List.map_cons, respell_of_ne (by simp)]
  exact .mk (IsName.renamed plain free first) (IsName.renamed plain free second)

theorem IsReference.renamed {m : Mode} {r : String} (h : IsReference (.sparing x) ts r)
    (value : m.value = false) (dots : DotsInValues m ts) :
    IsReference .full (ts.map (respell x k)) (mapReference (rename x k) r) := by
  cases h with
  | plain h =>
    rw [← List.append_nil ts] at dots
    rw [mapReference_plain (dots.name_whole h value)]
    exact .plain (IsName.renamed plain free h)
  | qualified h =>
    obtain ⟨first, second⟩ := h
    rw [mapReference_qualified (dots.name_whole first value)]
    exact .qualified (IsQualified.renamed plain free ⟨first, second⟩)

theorem IsCondition.renamed {m : Mode} {c : Condition} (h : IsCondition (.sparing x) ts c)
    (value : m.value = false) (dots : DotsInValues m ts) :
    IsCondition .full (ts.map (respell x k)) (mapSubject (rename x k) c) := by
  obtain ⟨op, left, right⟩ := h
  rw [List.map_append, List.map_cons, respell_of_ne (by simp)]
  exact .mk op (left.renamed plain free value dots.left) (value_respell right)

theorem IsWhere.renamed {m : Mode} {cs : List Condition} (h : IsWhere (.sparing x) ts cs)
    (dots : DotsInValues m ts) :
    IsWhere .full (ts.map (respell x k)) (cs.map (mapSubject (rename x k))) := by
  cases h with
  | missing => exact .missing
  | clause h =>
    -- neither WHERE nor AND is followed by a value
    refine .clause
      (h.respelled (I := fun m => m.value = false) ?_ (fun _ _ => rfl) rfl rfl dots.tail)
    intro m ts c value dots hc
    exact hc.renamed plain free value dots

theorem IsColumnDef.renamed {d : ColumnDef} (h : IsColumnDef (.sparing x) ts d) :
    IsColumnDef .full (ts.map (respell x k)) (mapColumnName (rename x k) d) := by
  obtain ⟨named, ⟨words, some⟩, constrained⟩ := h
  have type : IsSequence IsTypeWord _ _ :=
    words.mapTokens (f := id) (r := respell x k) fun _ _ h => typeWord_respell h
  have constraints : IsSequence (IsConstraint .full) _ _ :=
    constrained.mapTokens (f := id) (r := respell x k) fun _ _ h => h.respelled
  rw [List.map_id] at type constraints
  rw [List.map_append, List.map_append, mapColumnName_foldl]
  exact .mk (IsName.renamed plain free named) (.words type some) constraints

theorem IsAssignment.renamed {a : String × Value} (h : IsAssignment (.sparing x) ts a) :
    IsAssignment .full (ts.map (respell x k)) (Prod.map (rename x k) id a) := by
  obtain ⟨left, right⟩ := h
  rw [List.map_append, List.map_cons, respell_of_ne (by simp)]
  exact .mk (IsName.renamed plain free left) (value_respell right)

theorem IsTarget.renamed {columns : Option (List String)} (h : IsTarget (.sparing x) ts columns) :
    IsTarget .full (ts.map (respell x k)) (columns.map (·.map (rename x k))) := by
  cases h with
  | all => exact .all
  | columns h =>
    exact .columns (h.mapTokens (fun _ _ h => IsName.renamed plain free h) (by simp))

theorem IsGuarded.renamed {guard : List Token} {table : String} {guarded : Bool}
    (h : IsGuarded (.sparing x) guard ts (table, guarded)) (other : k = .ifWord → ts ≠ [.name x])
    (words : .name x ∉ guard) :
    IsGuarded .full guard (ts.map (respell x k)) (rename x k table, guarded) := by
  cases h with
  | bare h different =>
    refine .bare (IsName.renamed plain free h) ?_
    cases h with
    | word =>
      by_cases same : table = x
      · subst same
        simpa [respell] using fun taken => other taken rfl
      · simp [respell, same]
    | keyword k' => exact different
  | guarded h =>
    rw [List.map_cons, List.map_append, map_respell_of_not_mem words, respell_of_ne (by simp)]
    exact .guarded (IsName.renamed plain free h)

theorem IsSelection.renamed {m : Mode} {columns : List String}
    (h : IsSelection (.sparing x) ts columns) (value : m.value = false) (outside : m.OutsideInsert)
    (dots : DotsInValues m ts) :
    IsSelection .full (ts.map (respell x k)) (columns.map (mapReference (rename x k))) := by
  cases h with
  | all =>
    have star : mapReference (rename x k) "*" = "*" := by
      rw [mapReference_plain (by decide), rename, if_neg (star_ne plain)]
    rw [List.map_singleton, List.map_singleton, star]
    exact .all
  | columns h =>
    -- outside of an insertion no comma is followed by a value
    refine .columns (h.respelled (I := fun m => m.value = false ∧ m.OutsideInsert) ?_ ?_ rfl
      ⟨value, outside⟩ dots)
    · rintro m ts r ⟨value, -⟩ dots hr
      exact hr.renamed plain free value dots
    · rintro m ts r ⟨-, outside⟩ hr
      have still := outside.afterAll (not_mem_reference (hr.embed embeds_sparing) rfl (by simp))
      exact ⟨still.2, still.after (by simp)⟩

theorem IsJoin.renamed {table : String} {j : JoinClause} (h : IsJoin (.sparing x) table ts j)
    (kept : ¬ TurnsJoin (rename x k) table j ts) :
    IsJoin .full (rename x k table) (ts.map (respell x k)) (mapJoin (rename x k) j) := by
  cases h with
  | direct head named first second =>
    simp only [List.map_append, List.map_cons]
    exact .direct head.respelled (IsName.renamed plain free named)
      (first.renamed plain free) (second.renamed plain free)
  | @swapped ks ns ls rs kind joined left right head named first second other =>
    have named' := IsName.renamed plain free named
    have first' := first.renamed plain free
    have second' := second.renamed plain free
    simp only [List.map_append, List.map_cons]
    by_cases same : rename x k joined = rename x k table
    · -- the columns get one name as well, so that their order does not matter
      have columns : rename x k left = rename x k right := by
        by_contra different
        obtain ⟨t, ls', hls, ht⟩ := first.exists_cons
        refine kept ⟨other, same, different, ks ++ .keyword .join :: ns, t,
          ls' ++ .comparison .eq :: rs, ?_, ht⟩
        simp [hls]
      rw [same] at named' first'
      rw [columns] at second'
      simp only [mapJoin, same, columns]
      exact .direct head.respelled named' first' second'
    · exact .swapped head.respelled named' first' second' same

/-- **A statement stays the same one but for its names.** A keyword that is not reserved takes the
place of a word that is nothing but a name. -/
theorem IsStatement.renamed {s : Statement} (h : IsStatement (.sparing x) ts s)
    (unguarded : ¬ BecomesGuard x k ts) (kept : ¬ TurnsStatement (rename x k) s ts)
    (dots : DotsInValues .initial ts) :
    IsStatement .full (ts.map (respell x k)) (mapNames (rename x k) s) := by
  cases h with
  | createTable named declared =>
    simp only [List.map_cons, List.map_append]
    refine .createTable (named.renamed plain free ?_ (by simp)) ?_
    · rintro taken rfl
      exact unguarded ⟨taken, _, _, rfl⟩
    · exact declared.mapTokens (fun _ _ h => h.renamed plain free) (by simp)
  | dropTable named =>
    simp only [List.map_cons]
    refine .dropTable (named.renamed plain free ?_ (by simp))
    rintro taken rfl
    exact unguarded ⟨taken, _, _, rfl⟩
  | insert named target values =>
    simp only [List.map_cons, List.map_append]
    exact .insert (IsName.renamed plain free named) (target.renamed plain free)
      (rows_respelled values)
  | @select cs ns js ws columns table join conditions selected named joined filtered =>
    simp only [List.map_cons, List.map_append]
    refine .select (selected.renamed plain free rfl ⟨rfl, rfl⟩ dots.tail.left)
      (IsName.renamed plain free named) ?_
      (filtered.renamed plain free dots.tail.right.tail.right.right)
    cases joined with
    | missing => exact .missing
    | clause h =>
      refine .clause (h.renamed plain free fun turns => kept ⟨_, _, _, _, rfl, ?_⟩)
      have whole := turns.append (.keyword .select :: cs ++ .keyword .fromWord :: ns) ws
      simpa using whole
  | update named assigned filtered =>
    simp only [List.map_cons, List.map_append]
    exact .update (IsName.renamed plain free named)
      (assigned.mapTokens (fun _ _ h => h.renamed plain free) rfl)
      (filtered.renamed plain free dots.tail.right.tail.right)
  | delete named filtered =>
    simp only [List.map_cons, List.map_append]
    exact .delete (IsName.renamed plain free named)
      (filtered.renamed plain free dots.tail.tail.right)
  | showTables => exact .showTables
  | describe leading spelled named =>
    exact .describe leading spelled (IsName.renamed plain free named)

end

end Grammar
end Sql
end PocketSql
