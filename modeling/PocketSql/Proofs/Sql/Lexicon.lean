import PocketSql.Proofs.Sql.Grammar

/-!
# Statements in another lexicon

A statement stays one if its names, the words of its types and its values are taken from another
lexicon that has them all. The values may stand for other values there.

## Main results

* `IsStatement.embed` — the tokens of a statement in one lexicon are a statement in the other one.
-/

namespace PocketSql
namespace Sql
namespace Grammar

variable {α : Type}

/-! ## Other values in a statement -/

/-- The same column with its default changed. -/
def mapDefault (f : Value → Value) (d : ColumnDef) : ColumnDef :=
  { d with default := d.default.map f }

/-- The same constraint with its value changed. -/
def Constraint.mapValue (f : Value → Value) : Constraint → Constraint
  | default v => default (f v)
  | c => c

theorem mapDefault_foldl (f : Value → Value) (d : ColumnDef) (cs : List Constraint) :
    mapDefault f (cs.foldl Constraint.add d) =
      (cs.map (Constraint.mapValue f)).foldl Constraint.add (mapDefault f d) := by
  induction cs generalizing d with
  | nil => rfl
  | cons c cs ih =>
    rw [List.foldl_cons, ih]
    cases c <;> rfl

/-- The same condition with its value changed. -/
def mapOperand (f : Value → Value) (c : Condition) : Condition := { c with value := f c.value }

/-- The same statement with its values changed. -/
def mapValues (f : Value → Value) : Statement → Statement
  | .createTable table ifNotExists columns =>
    .createTable table ifNotExists (columns.map (mapDefault f))
  | .insert table columns rows => .insert table columns (rows.map (·.map f))
  | .select columns table join conditions =>
    .select columns table join (conditions.map (mapOperand f))
  | .update table assignments conditions =>
    .update table (assignments.map (Prod.map id f)) (conditions.map (mapOperand f))
  | .delete table conditions => .delete table (conditions.map (mapOperand f))
  | s => s

@[simp] theorem mapValues_id (s : Statement) : mapValues id s = s := by
  have default : mapDefault id = id := by
    funext d
    simp [mapDefault]
  have operand : mapOperand id = id := rfl
  cases s <;> simp [mapValues, default, operand]

/-! ## Other words -/

/-- One lexicon is part of another one, where each value stands for another value. -/
structure Lexicon.Embeds (L L' : Lexicon) (f : Value → Value) : Prop where
  name : ∀ {ts s}, L.name ts s → L'.name ts s
  typeWord : ∀ {ts s}, L.typeWord ts s → L'.typeWord ts s
  value : ∀ {ts v}, L.value ts v → L'.value ts (f v)

section
variable {β : Type} {item : List Token → α → Prop} {item' : List Token → β → Prop} {f : α → β}
  {r : Token → Token}

theorem IsList.mapTokens (items : ∀ ts a, item ts a → item' (ts.map r) (f a)) {separator : Token}
    (same : r separator = separator) {ts : List Token} {as : List α}
    (h : IsList separator item ts as) : IsList separator item' (ts.map r) (as.map f) := by
  induction h with
  | one h => exact .one (items _ _ h)
  | more h _ ih =>
    rw [List.map_append, List.map_cons, same]
    exact .more (items _ _ h) ih

theorem IsSequence.mapTokens (items : ∀ ts a, item ts a → item' (ts.map r) (f a))
    {ts : List Token} {as : List α} (h : IsSequence item ts as) :
    IsSequence item' (ts.map r) (as.map f) := by
  induction h with
  | nil => exact .nil
  | cons h _ ih =>
    rw [List.map_append]
    exact .cons (items _ _ h) ih

theorem IsTuple.mapTokens (items : ∀ ts a, item ts a → item' (ts.map r) (f a))
    (same : ∀ t ∈ [.openParen, .comma, .closeParen], r t = t) {ts : List Token} {as : List α}
    (h : IsTuple item ts as) : IsTuple item' (ts.map r) (as.map f) := by
  obtain ⟨h⟩ := h
  simp only [List.mem_cons, List.not_mem_nil, or_false, forall_eq_or_imp, forall_eq] at same
  rw [List.map_append, List.map_cons, same.1, List.map_singleton, same.2.2]
  exact .mk (h.mapTokens items same.2.1)

variable (items : ∀ ts a, item ts a → item' ts (f a))
include items

theorem IsList.map {separator : Token} {ts : List Token} {as : List α}
    (h : IsList separator item ts as) : IsList separator item' ts (as.map f) := by
  simpa using h.mapTokens (r := id) (by simpa using items) rfl

theorem IsSequence.map {ts : List Token} {as : List α} (h : IsSequence item ts as) :
    IsSequence item' ts (as.map f) := by
  simpa using h.mapTokens (r := id) (by simpa using items)

theorem IsTuple.map {ts : List Token} {as : List α} (h : IsTuple item ts as) :
    IsTuple item' ts (as.map f) := by
  simpa using h.mapTokens (r := id) (by simpa using items) (by simp)

end

section
variable {L L' : Lexicon} {f : Value → Value} (E : L.Embeds L' f) {ts : List Token}
include E

theorem IsQualified.embed {r : String × String} (h : IsQualified L ts r) : IsQualified L' ts r := by
  obtain ⟨first, second⟩ := h
  exact .mk (E.name first) (E.name second)

theorem IsReference.embed {r : String} (h : IsReference L ts r) : IsReference L' ts r := by
  cases h with
  | plain h => exact .plain (E.name h)
  | qualified h => exact .qualified (h.embed E)

theorem IsCondition.embed {c : Condition} (h : IsCondition L ts c) :
    IsCondition L' ts (mapOperand f c) := by
  obtain ⟨op, left, right⟩ := h
  exact .mk op (left.embed E) (E.value right)

theorem IsWhere.embed {cs : List Condition} (h : IsWhere L ts cs) :
    IsWhere L' ts (cs.map (mapOperand f)) := by
  cases h with
  | missing => exact .missing
  | clause h => exact .clause (h.map fun _ _ h => h.embed E)

theorem IsConstraint.embed {c : Constraint} (h : IsConstraint L ts c) :
    IsConstraint L' ts (c.mapValue f) := by
  cases h with
  | default h => exact .default (E.value h)
  | primaryKey => exact .primaryKey
  | unique => exact .unique
  | notNull => exact .notNull
  | null => exact .null

theorem IsColumnDef.embed {d : ColumnDef} (h : IsColumnDef L ts d) :
    IsColumnDef L' ts (mapDefault f d) := by
  obtain ⟨named, ⟨words, some⟩, constrained⟩ := h
  rw [mapDefault_foldl]
  refine .mk (E.name named) ?_ (constrained.map fun _ _ h => h.embed E)
  exact .words (by simpa using words.map (f := id) fun _ _ h => E.typeWord h) some

theorem IsJoin.embed {table : String} {j : JoinClause} (h : IsJoin L table ts j) :
    IsJoin L' table ts j := by
  cases h with
  | direct head named first second =>
    exact .direct head (E.name named) (first.embed E) (second.embed E)
  | swapped head named first second other =>
    exact .swapped head (E.name named) (first.embed E) (second.embed E) other

theorem IsSelection.embed {columns : List String} (h : IsSelection L ts columns) :
    IsSelection L' ts columns := by
  cases h with
  | all => exact .all
  | columns h => exact .columns (by simpa using h.map (f := id) fun _ _ h => h.embed E)

theorem IsAssignment.embed {a : String × Value} (h : IsAssignment L ts a) :
    IsAssignment L' ts (Prod.map id f a) := by
  obtain ⟨left, right⟩ := h
  exact .mk (E.name left) (E.value right)

theorem IsGuarded.embed {guard : List Token} {r : String × Bool} (h : IsGuarded L guard ts r) :
    IsGuarded L' guard ts r := by
  cases h with
  | bare h other => exact .bare (E.name h) other
  | guarded h => exact .guarded (E.name h)

/-- A statement is one in every lexicon that the words embed in. -/
theorem IsStatement.embed {s : Statement} (h : IsStatement L ts s) :
    IsStatement L' ts (mapValues f s) := by
  cases h with
  | createTable named declared =>
    exact .createTable (named.embed E) (declared.map fun _ _ h => h.embed E)
  | dropTable named => exact .dropTable (named.embed E)
  | insert named target values =>
    refine .insert (E.name named) ?_ (values.map fun _ _ h => h.map fun _ _ h => E.value h)
    cases target with
    | all => exact .all
    | columns h => exact .columns (by simpa using h.map (f := id) fun _ _ h => E.name h)
  | select selected named joined filtered =>
    refine .select (selected.embed E) (E.name named) ?_ (filtered.embed E)
    cases joined with
    | missing => exact .missing
    | clause h => exact .clause (h.embed E)
  | update named assigned filtered =>
    exact .update (E.name named) (assigned.map fun _ _ h => h.embed E) (filtered.embed E)
  | delete named filtered => exact .delete (E.name named) (filtered.embed E)
  | showTables => exact .showTables
  | describe leading spelled named => exact .describe leading spelled (E.name named)

end

end Grammar
end Sql
end PocketSql
