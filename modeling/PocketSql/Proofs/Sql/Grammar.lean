import PocketSql.Sql.Statement

/-!
# The grammar of queries

Which tokens are which statement, with a relation for each part of speech and a constructor for each
of its forms. Nothing is said about the order in which tokens are read, or about what follows them.

## Main definitions

* `IsStatement` — a list of tokens is a statement, without what ends it.
* `IsQuery` — a list of tokens is a statement, at most one semicolon and the end of the input.
* `Composed` — a list of tokens is put together from words and signs, with closed parentheses.
-/

namespace PocketSql
namespace Sql
namespace Grammar

variable {α : Type}

/-! ## Names and values -/

/-- A name is a word, or a keyword that is not reserved and then stands for its lower case. -/
inductive IsName : List Token → String → Prop where
  | word (s : String) : IsName [.name s] s
  | keyword (k : Keyword) (free : k.reserved = false) : IsName [.keyword k] k.lowerText

/-- A value is a literal. An unquoted word is a string. -/
inductive IsValue : List Token → Value → Prop where
  | number (x : Number) : IsValue [.number x] (.number x)
  | string (s : String) : IsValue [.string s] (.string s)
  | word (s : String) : IsValue [.name s] (.string s)
  | trueWord : IsValue [.keyword .trueWord] (.boolean true)
  | falseWord : IsValue [.keyword .falseWord] (.boolean false)
  | null : IsValue [.keyword .null] .null

/-- A word of a type. Its arguments may be any tokens without a closing parenthesis, and their
commas do not count. -/
inductive IsTypeWord : List Token → String → Prop where
  | bare (word : String) : IsTypeWord [.name word] word
  | withArguments (word : String) {ts : List Token} (closed : .closeParen ∉ ts)
      (ended : .endOfInput ∉ ts) :
      IsTypeWord (.name word :: .openParen :: ts ++ [.closeParen])
        (word ++ "(" ++ ",".intercalate ((ts.filter (· ≠ .comma)).map Token.text) ++ ")")

/-- The tokens of names, of the words of types and of values. All else is the same in every
statement. -/
structure Lexicon where
  name : List Token → String → Prop
  typeWord : List Token → String → Prop
  value : List Token → Value → Prop

/-- Everything that the parser takes for a name, a word of a type or a value. -/
abbrev Lexicon.full : Lexicon := ⟨IsName, IsTypeWord, IsValue⟩

/-- A column with its table. -/
inductive IsQualified (L : Lexicon) : List Token → String × String → Prop where
  | mk {ts us : List Token} {table column : String} (first : L.name ts table)
      (second : L.name us column) : IsQualified L (ts ++ .dot :: us) (table, column)

/-- A column, with or without its table. -/
inductive IsReference (L : Lexicon) : List Token → String → Prop where
  | plain {ts : List Token} {column : String} (h : L.name ts column) : IsReference L ts column
  | qualified {ts : List Token} {table column : String} (h : IsQualified L ts (table, column)) :
      IsReference L ts (table ++ "." ++ column)

/-! ## Repetition -/

/-- One item or more, with a separator between them. -/
inductive IsList (separator : Token) (item : List Token → α → Prop) :
    List Token → List α → Prop where
  | one {ts : List Token} {a : α} (h : item ts a) : IsList separator item ts [a]
  | more {ts us : List Token} {a : α} {as : List α} (h : item ts a)
      (tail : IsList separator item us as) :
      IsList separator item (ts ++ separator :: us) (a :: as)

/-- Any number of items in a row. -/
inductive IsSequence (item : List Token → α → Prop) : List Token → List α → Prop where
  | nil : IsSequence item [] []
  | cons {ts us : List Token} {a : α} {as : List α} (h : item ts a)
      (tail : IsSequence item us as) : IsSequence item (ts ++ us) (a :: as)

/-- One item or more in parentheses, with commas between them. -/
inductive IsTuple (item : List Token → α → Prop) : List Token → List α → Prop where
  | mk {ts : List Token} {as : List α} (h : IsList .comma item ts as) :
      IsTuple item (.openParen :: ts ++ [.closeParen]) as

/-! ## Conditions -/

inductive IsCondition (L : Lexicon) : List Token → Condition → Prop where
  | mk {ts us : List Token} {column : String} {v : Value} (op : Comparison)
      (left : IsReference L ts column) (right : L.value us v) :
      IsCondition L (ts ++ .comparison op :: us) ⟨column, op, v⟩

/-- The clause of conditions, which may be missing. -/
inductive IsWhere (L : Lexicon) : List Token → List Condition → Prop where
  | missing : IsWhere L [] []
  | clause {ts : List Token} {cs : List Condition}
      (h : IsList (.keyword .andWord) (IsCondition L) ts cs) :
      IsWhere L (.keyword .whereWord :: ts) cs

/-! ## Declarations of columns -/

/-- The declared name of a type has one word or more. -/
inductive IsTypeName (L : Lexicon) : List Token → String → Prop where
  | words {ts : List Token} {words : List String} (h : IsSequence L.typeWord ts words)
      (some : words ≠ []) : IsTypeName L ts (" ".intercalate words)

/-- What may follow the type of a column. -/
inductive Constraint where
  | primaryKey
  | unique
  | notNull
  | null
  | default (v : Value)
  deriving DecidableEq, Repr

/-- A declared column with one constraint more. A primary key is not null either, and of several
defaults the last one holds. -/
def Constraint.add (d : ColumnDef) : Constraint → ColumnDef
  | primaryKey => { d with primaryKey := true, notNull := true }
  | unique => { d with unique := true }
  | notNull => { d with notNull := true }
  | null => d
  | default v => { d with default := some v }

inductive IsConstraint (L : Lexicon) : List Token → Constraint → Prop where
  | primaryKey : IsConstraint L [.keyword .primary, .keyword .key] .primaryKey
  | unique : IsConstraint L [.keyword .unique] .unique
  | notNull : IsConstraint L [.keyword .notWord, .keyword .null] .notNull
  | null : IsConstraint L [.keyword .null] .null
  | default {ts : List Token} {v : Value} (h : L.value ts v) :
      IsConstraint L (.keyword .default :: ts) (.default v)

inductive IsColumnDef (L : Lexicon) : List Token → ColumnDef → Prop where
  | mk {ns ts cs : List Token} {name type : String} {constraints : List Constraint}
      (named : L.name ns name) (typed : IsTypeName L ts type)
      (constrained : IsSequence (IsConstraint L) cs constraints) :
      IsColumnDef L (ns ++ (ts ++ cs))
        (constraints.foldl Constraint.add ⟨name, type, false, false, false, none⟩)

/-! ## Joins -/

/-- What stands before `JOIN`. -/
inductive IsJoinKind : List Token → JoinKind → Prop where
  | bare : IsJoinKind [] .inner
  | inner : IsJoinKind [.keyword .inner] .inner
  | left : IsJoinKind [.keyword .left] .left
  | leftOuter : IsJoinKind [.keyword .left, .keyword .outer] .left

/-- A join to `table`. Its condition names a column of each of the two tables, in either order.
Where a table is joined to itself there is no other order: the first column is the left one. -/
inductive IsJoin (L : Lexicon) (table : String) : List Token → JoinClause → Prop where
  | direct {ks ns ls rs : List Token} {kind : JoinKind} {joined left right : String}
      (head : IsJoinKind ks kind) (named : L.name ns joined)
      (first : IsQualified L ls (table, left)) (second : IsQualified L rs (joined, right)) :
      IsJoin L table
        (ks ++ .keyword .join :: (ns ++ .keyword .on :: (ls ++ .comparison .eq :: rs)))
        ⟨kind, joined, left, right⟩
  | swapped {ks ns ls rs : List Token} {kind : JoinKind} {joined left right : String}
      (head : IsJoinKind ks kind) (named : L.name ns joined)
      (first : IsQualified L ls (joined, right)) (second : IsQualified L rs (table, left))
      (other : joined ≠ table) :
      IsJoin L table
        (ks ++ .keyword .join :: (ns ++ .keyword .on :: (ls ++ .comparison .eq :: rs)))
        ⟨kind, joined, left, right⟩

/-- At most one join. -/
inductive IsJoins (L : Lexicon) (table : String) : List Token → Option JoinClause → Prop where
  | missing : IsJoins L table [] none
  | clause {ts : List Token} {j : JoinClause} (h : IsJoin L table ts j) :
      IsJoins L table ts (some j)

/-! ## Statements -/

/-- The columns of a selection. -/
inductive IsSelection (L : Lexicon) : List Token → List String → Prop where
  | all : IsSelection L [.star] ["*"]
  | columns {ts : List Token} {columns : List String}
      (h : IsList .comma (IsReference L) ts columns) : IsSelection L ts columns

/-- The columns that an insertion gives values for. -/
inductive IsTarget (L : Lexicon) : List Token → Option (List String) → Prop where
  | all : IsTarget L [] none
  | columns {ts : List Token} {columns : List String} (h : IsTuple L.name ts columns) :
      IsTarget L ts (some columns)

inductive IsAssignment (L : Lexicon) : List Token → String × Value → Prop where
  | mk {ts us : List Token} {column : String} {v : Value} (left : L.name ts column)
      (right : L.value us v) : IsAssignment L (ts ++ .comparison .eq :: us) (column, v)

/-- The name of a table that is created or dropped, with the words in front of it that make the
statement pass over a table that exists or is missing. Without them the name is not `IF`. -/
inductive IsGuarded (L : Lexicon) (guard : List Token) : List Token → String × Bool → Prop where
  | bare {ts : List Token} {table : String} (h : L.name ts table)
      (other : ts ≠ [.keyword .ifWord]) : IsGuarded L guard ts (table, false)
  | guarded {ts : List Token} {table : String} (h : L.name ts table) :
      IsGuarded L guard (.keyword .ifWord :: (guard ++ ts)) (table, true)

/-- A statement, without what ends it. -/
inductive IsStatement (L : Lexicon) : List Token → Statement → Prop where
  | createTable {ns ts : List Token} {table : String} {ifNotExists : Bool}
      {columns : List ColumnDef}
      (named : IsGuarded L [.keyword .notWord, .keyword .existsWord] ns (table, ifNotExists))
      (declared : IsTuple (IsColumnDef L) ts columns) :
      IsStatement L (.keyword .create :: .keyword .table :: (ns ++ ts))
        (.createTable table ifNotExists columns)
  | dropTable {ns : List Token} {table : String} {ifExists : Bool}
      (named : IsGuarded L [.keyword .existsWord] ns (table, ifExists)) :
      IsStatement L (.keyword .drop :: .keyword .table :: ns) (.dropTable table ifExists)
  | insert {ns cs vs : List Token} {table : String} {columns : Option (List String)}
      {rows : List (List Value)} (named : L.name ns table) (target : IsTarget L cs columns)
      (values : IsList .comma (IsTuple L.value) vs rows) :
      IsStatement L
        (.keyword .insert :: .keyword .into :: (ns ++ (cs ++ .keyword .values :: vs)))
        (.insert table columns rows)
  | select {cs ns js ws : List Token} {columns : List String} {table : String}
      {join : Option JoinClause} {conditions : List Condition} (selected : IsSelection L cs columns)
      (named : L.name ns table) (joined : IsJoins L table js join)
      (filtered : IsWhere L ws conditions) :
      IsStatement L (.keyword .select :: (cs ++ .keyword .fromWord :: (ns ++ (js ++ ws))))
        (.select columns table join conditions)
  | update {ns as ws : List Token} {table : String} {assignments : List (String × Value)}
      {conditions : List Condition} (named : L.name ns table)
      (assigned : IsList .comma (IsAssignment L) as assignments)
      (filtered : IsWhere L ws conditions) :
      IsStatement L (.keyword .update :: (ns ++ .keyword .set :: (as ++ ws)))
        (.update table assignments conditions)
  | delete {ns ws : List Token} {table : String} {conditions : List Condition}
      (named : L.name ns table) (filtered : IsWhere L ws conditions) :
      IsStatement L (.keyword .delete :: .keyword .fromWord :: (ns ++ ws))
        (.delete table conditions)
  | showTables : IsStatement L [.keyword .showWord, .keyword .tables] .showTables
  | describe {ns : List Token} {table : String} (leading : Keyword)
      (spelled : leading = .describe ∨ leading = .desc) (named : L.name ns table) :
      IsStatement L (.keyword leading :: ns) (.describe table)

/-- The end of the input stands at the end and nowhere else. -/
def EndsOnce (ts : List Token) : Prop := ∃ us, ts = us ++ [.endOfInput] ∧ .endOfInput ∉ us

/-- A statement and what ends it: at most one semicolon, and the end of the input. -/
inductive IsQuery (s : Statement) (body : List Token) : List Token → Prop where
  | bare (h : IsStatement .full body s) : IsQuery s body (body ++ [.endOfInput])
  | ended (h : IsStatement .full body s) : IsQuery s body (body ++ [.semicolon, .endOfInput])

/-! ## What phrases are composed of

Where a phrase keeps what its words have, it is enough to know that it is put together from words
and signs, with what stands in parentheses put together likewise. -/

/-- Tokens put together from words and signs, where parentheses close. -/
inductive Composed (word : List Token → Prop) : List Token → Prop where
  | nil : Composed word []
  | token (t : Token) (plain : t ∉ [.openParen, .closeParen, .semicolon, .endOfInput]) :
      Composed word [t]
  | word {ts : List Token} (h : word ts) : Composed word ts
  | parens {ts : List Token} (h : Composed word ts) :
      Composed word (.openParen :: ts ++ [.closeParen])
  | append {ts us : List Token} (h : Composed word ts) (h' : Composed word us) :
      Composed word (ts ++ us)

/-- The words of a lexicon: its names, words of types and values. -/
def Lexicon.Word (L : Lexicon) (ts : List Token) : Prop :=
  (∃ s, L.name ts s) ∨ (∃ s, L.typeWord ts s) ∨ ∃ v, L.value ts v

namespace Composed

variable {word : List Token → Prop} {ts us : List Token}

theorem cons {t : Token} (plain : t ∉ [.openParen, .closeParen, .semicolon, .endOfInput])
    (h : Composed word ts) : Composed word (t :: ts) := (token t plain).append h

theorem keyword {k : Keyword} (h : Composed word ts) : Composed word (.keyword k :: ts) :=
  h.cons (by simp)

end Composed

section
variable {L : Lexicon} {ts : List Token}

theorem composed_name {s : String} (h : L.name ts s) : Composed L.Word ts := .word (.inl ⟨s, h⟩)

theorem composed_value {v : Value} (h : L.value ts v) : Composed L.Word ts :=
  .word (.inr (.inr ⟨v, h⟩))

theorem IsQualified.composed {r : String × String} (h : IsQualified L ts r) :
    Composed L.Word ts := by
  obtain ⟨first, second⟩ := h
  exact (composed_name first).append ((composed_name second).cons (by simp))

theorem IsReference.composed {r : String} (h : IsReference L ts r) : Composed L.Word ts := by
  cases h with
  | plain h => exact composed_name h
  | qualified h => exact h.composed

section
variable {item : List Token → α → Prop} (items : ∀ {ts a}, item ts a → Composed L.Word ts)
include items

theorem IsList.composed {separator : Token} {as : List α} (h : IsList separator item ts as)
    (plain : separator ∉ [.openParen, .closeParen, .semicolon, .endOfInput]) :
    Composed L.Word ts := by
  induction h with
  | one h => exact items h
  | more h _ ih => exact (items h).append (ih.cons plain)

theorem IsSequence.composed {as : List α} (h : IsSequence item ts as) : Composed L.Word ts := by
  induction h with
  | nil => exact .nil
  | cons h _ ih => exact (items h).append ih

theorem IsTuple.composed {as : List α} (h : IsTuple item ts as) : Composed L.Word ts := by
  obtain ⟨h⟩ := h
  exact .parens (h.composed items (by simp))

end

theorem IsCondition.composed {c : Condition} (h : IsCondition L ts c) : Composed L.Word ts := by
  obtain ⟨op, left, right⟩ := h
  exact left.composed.append ((composed_value right).cons (by simp))

theorem IsWhere.composed {cs : List Condition} (h : IsWhere L ts cs) : Composed L.Word ts := by
  cases h with
  | missing => exact .nil
  | clause h => exact (h.composed IsCondition.composed (by simp)).keyword

theorem IsConstraint.composed {c : Constraint} (h : IsConstraint L ts c) :
    Composed L.Word ts := by
  cases h with
  | default h => exact (composed_value h).keyword
  | primaryKey => exact .keyword (.keyword .nil)
  | unique => exact .keyword .nil
  | notNull => exact .keyword (.keyword .nil)
  | null => exact .keyword .nil

theorem IsColumnDef.composed {d : ColumnDef} (h : IsColumnDef L ts d) : Composed L.Word ts := by
  obtain ⟨named, ⟨words, _⟩, constrained⟩ := h
  have typed := words.composed fun h => .word (.inr (.inl ⟨_, h⟩))
  exact (composed_name named).append (typed.append (constrained.composed IsConstraint.composed))

theorem IsJoinKind.composed {kind : JoinKind} (h : IsJoinKind ts kind) : Composed L.Word ts := by
  cases h with
  | bare => exact .nil
  | inner => exact .keyword .nil
  | left => exact .keyword .nil
  | leftOuter => exact .keyword (.keyword .nil)

theorem IsJoin.composed {table : String} {j : JoinClause} (h : IsJoin L table ts j) :
    Composed L.Word ts := by
  cases h with
  | direct head named first second | swapped head named first second =>
    refine head.composed.append ((composed_name named).append ?_).keyword
    exact (first.composed.append (second.composed.cons (by simp))).keyword

theorem IsJoins.composed {table : String} {j : Option JoinClause} (h : IsJoins L table ts j) :
    Composed L.Word ts := by
  cases h with
  | missing => exact .nil
  | clause h => exact h.composed

theorem IsGuarded.composed {guard : List Token} {r : String × Bool} (h : IsGuarded L guard ts r)
    (words : Composed L.Word guard) : Composed L.Word ts := by
  cases h with
  | bare h => exact composed_name h
  | guarded h => exact (words.append (composed_name h)).keyword

theorem IsSelection.composed {columns : List String} (h : IsSelection L ts columns) :
    Composed L.Word ts := by
  cases h with
  | all => exact .cons (by simp) .nil
  | columns h => exact h.composed IsReference.composed (by simp)

theorem IsTarget.composed {columns : Option (List String)} (h : IsTarget L ts columns) :
    Composed L.Word ts := by
  cases h with
  | all => exact .nil
  | columns h => exact h.composed composed_name

theorem IsAssignment.composed {a : String × Value} (h : IsAssignment L ts a) :
    Composed L.Word ts := by
  obtain ⟨left, right⟩ := h
  exact (composed_name left).append ((composed_value right).cons (by simp))

/-- A statement is put together from words and signs. -/
theorem IsStatement.composed {s : Statement} (h : IsStatement L ts s) : Composed L.Word ts := by
  cases h with
  | createTable named declared =>
    have columns := declared.composed IsColumnDef.composed
    exact ((named.composed (.keyword (.keyword .nil))).append columns).keyword.keyword
  | dropTable named => exact (named.composed (.keyword .nil)).keyword.keyword
  | insert named target values =>
    have rows := values.composed (IsTuple.composed composed_value) (by simp)
    exact ((composed_name named).append (target.composed.append rows.keyword)).keyword.keyword
  | select selected named joined filtered =>
    have source := (composed_name named).append (joined.composed.append filtered.composed)
    exact (selected.composed.append source.keyword).keyword
  | update named assigned filtered =>
    have pairs := assigned.composed IsAssignment.composed (by simp)
    exact ((composed_name named).append (pairs.append filtered.composed).keyword).keyword
  | delete named filtered => exact ((composed_name named).append filtered.composed).keyword.keyword
  | showTables => exact .keyword (.keyword .nil)
  | describe leading _ named => exact (composed_name named).keyword

end

/-- The end of the input is no part of a statement. -/
theorem IsStatement.ended {ts : List Token} {s : Statement} (h : IsStatement .full ts s) :
    .endOfInput ∉ ts := by
  have composed := h.composed
  clear h
  induction composed with
  | nil => simp
  | token t plain => simp_all [eq_comm]
  | word h => obtain ⟨_, h⟩ | ⟨_, h⟩ | ⟨_, h⟩ := h <;> cases h <;> simp_all
  | parens _ ih => simpa using ih
  | append _ _ ih ih' => simp [ih, ih']

end Grammar
end Sql
end PocketSql
