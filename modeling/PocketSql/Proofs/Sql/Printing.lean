import PocketSql.Proofs.Sql.Lexicon
import PocketSql.Sql.Token.Lexer

/-!
# Printed statements

How a statement is printed: as the tokens that the grammar has for it, with each token spelt out.
Words stand a space apart; signs may stand next to what surrounds them.

## Main definitions

* `Lexicon.plain` — names and types of plain words, and quoted strings.
* `SpelledToken`, `Spelled` — the texts of a token, and of tokens in a row.
* `Printed` — the texts of a statement.
* `PlainStatement` — the statements that can be printed.
-/

namespace PocketSql

/-- A value with the two zeros made one. -/
def Value.folded : Value → Value
  | number x => number x.folded
  | v => v

/-- Values are equal just where they are the same after folding. -/
theorem Value.same_iff_folded (v w : Value) : v.same w = true ↔ v.folded = w.folded := by
  cases v <;> cases w <;> simp [same, folded, Number.same]

namespace Sql

open Grammar

/-! ## Plain words and literals -/

/-- A letter or an underscore, then letters, digits and underscores, and no keyword. -/
def PlainWord (w : String) : Prop :=
  ∃ c s, w.toList = c :: s ∧ startsWord c = true ∧ (∀ a ∈ s, inWord a = true) ∧
    Keyword.ofWord? w.toList = none

inductive IsPlain : List Token → String → Prop where
  | word {w : String} (plain : PlainWord w) : IsPlain [.name w] w

/-- A value is printed as a literal. The token of a number has one zero. -/
inductive IsLiteral : List Token → Value → Prop where
  | number {x : Number} (finite : x.isFinite = true) : IsLiteral [.number x.folded] (.number x)
  | string (s : String) : IsLiteral [.string s] (.string s)
  | trueWord : IsLiteral [.keyword .trueWord] (.boolean true)
  | falseWord : IsLiteral [.keyword .falseWord] (.boolean false)
  | null : IsLiteral [.keyword .null] .null

/-- Names and types of plain words, and values as literals. -/
abbrev Grammar.Lexicon.plain : Lexicon := ⟨IsPlain, IsPlain, IsLiteral⟩

/-- What is printed is read with the zeros made one. -/
theorem embeds_plain : Lexicon.Embeds .plain .full Value.folded where
  name h := by
    obtain ⟨_⟩ := h
    exact .word _
  typeWord h := by
    obtain ⟨_⟩ := h
    exact .bare _
  value h := by
    cases h with
    | number => exact .number _
    | string s => exact .string s
    | trueWord => exact .trueWord
    | falseWord => exact .falseWord
    | null => exact .null

/-! ## Spelling -/

/-- A text in quotes, with the quotes in it doubled. -/
def doubled (quote : Char) (s : List Char) : List Char :=
  s.flatMap fun c => if c = quote then [quote, quote] else [c]

/-- The texts of a token: keywords in any letter case, strings in either kind of quotes, and values
as they are displayed. -/
inductive SpelledToken : Token → List Char → Prop where
  | keyword (k : Keyword) {w : List Char} (letters : w.map Char.toUpper = k.text.toList) :
      SpelledToken (.keyword k) w
  | name {w : String} (plain : PlainWord w) : SpelledToken (.name w) w.toList
  | number {x : Number} (finite : x.isFinite = true) :
      SpelledToken (.number x.folded) (Value.number x).display.toList
  | string (s : String) {quote : Char} (either : quote = '\'' ∨ quote = '"') :
      SpelledToken (.string s) (quote :: (doubled quote s.toList ++ [quote]))
  | comparison (op : Comparison) : SpelledToken (.comparison op) op.text.toList
  | unequal : SpelledToken (.comparison .ne) ['<', '>']
  | star : SpelledToken .star ['*']
  | openParen : SpelledToken .openParen ['(']
  | closeParen : SpelledToken .closeParen [')']
  | comma : SpelledToken .comma [',']
  | semicolon : SpelledToken .semicolon [';']
  | dot : SpelledToken .dot ['.']

/-- Signs that need no space around them. -/
def isSign : Token → Bool
  | .openParen | .closeParen | .comma | .semicolon | .comparison _ => true
  | _ => false

/-- Whether two tokens may stand next to each other without a space between them. -/
def touches : Token → Token → Bool
  | .name _, .dot | .dot, .name _ => true
  | .comparison _, .comparison _ => false
  | t, u => isSign t || isSign u

/-- The texts of tokens in a row. -/
inductive Spelled : List Token → List Char → Prop where
  | nil : Spelled [] []
  | last {t : Token} {w : List Char} (h : SpelledToken t w) : Spelled [t] w
  | apart {t u : Token} {ts : List Token} {w s : List Char} (h : SpelledToken t w)
      (tail : Spelled (u :: ts) s) : Spelled (t :: u :: ts) (w ++ ' ' :: s)
  | together {t u : Token} {ts : List Token} {w s : List Char} (h : SpelledToken t w)
      (touch : touches t u = true) (tail : Spelled (u :: ts) s) :
      Spelled (t :: u :: ts) (w ++ s)

/-- The texts of a statement, with a semicolon behind it or without. -/
def Printed (s : Statement) (text : String) : Prop :=
  ∃ body, IsStatement .plain body s ∧
    (Spelled body text.toList ∨ Spelled (body ++ [.semicolon]) text.toList)

/-! ## Plain statements -/

/-- A column, with or without its table. -/
def PlainReference (r : String) : Prop :=
  PlainWord r ∨ ∃ table column, PlainWord table ∧ PlainWord column ∧ r = table ++ "." ++ column

/-- Plain words with a space between them. -/
def PlainType (type : String) : Prop :=
  ∃ words, words ≠ [] ∧ (∀ w ∈ words, PlainWord w) ∧ type = " ".intercalate words

def FiniteValue (v : Value) : Prop := ∀ x, v = .number x → x.isFinite = true

structure PlainColumn (d : ColumnDef) : Prop where
  name : PlainWord d.name
  type : PlainType d.typeName
  key : d.primaryKey = true → d.notNull = true
  default : ∀ v, d.default = some v → FiniteValue v

structure PlainCondition (c : Condition) : Prop where
  column : PlainReference c.column
  value : FiniteValue c.value

structure PlainJoin (j : JoinClause) : Prop where
  table : PlainWord j.table
  left : PlainWord j.left
  right : PlainWord j.right

/-- Statements of plain words and finite numbers, with no list empty that is written out. -/
def PlainStatement : Statement → Prop
  | .createTable table _ columns => PlainWord table ∧ columns ≠ [] ∧ ∀ d ∈ columns, PlainColumn d
  | .dropTable table _ => PlainWord table
  | .insert table columns rows =>
    PlainWord table ∧ (∀ cs, columns = some cs → cs ≠ [] ∧ ∀ c ∈ cs, PlainWord c) ∧
      rows ≠ [] ∧ ∀ row ∈ rows, row ≠ [] ∧ ∀ v ∈ row, FiniteValue v
  | .select columns table join conditions =>
    (columns = ["*"] ∨ columns ≠ [] ∧ ∀ r ∈ columns, PlainReference r) ∧ PlainWord table ∧
      (∀ j, join = some j → PlainJoin j) ∧ ∀ c ∈ conditions, PlainCondition c
  | .update table assignments conditions =>
    PlainWord table ∧ assignments ≠ [] ∧
      (∀ a ∈ assignments, PlainWord a.1 ∧ FiniteValue a.2) ∧ ∀ c ∈ conditions, PlainCondition c
  | .delete table conditions => PlainWord table ∧ ∀ c ∈ conditions, PlainCondition c
  | .showTables => True
  | .describe table => PlainWord table

/-! ## Plain statements have tokens -/

section
variable {α : Type} {item : List Token → α → Prop} {as : List α}

theorem exists_isList {separator : Token} (items : ∀ a ∈ as, ∃ ts, item ts a) (some : as ≠ []) :
    ∃ ts, IsList separator item ts as := by
  induction as with
  | nil => exact absurd rfl some
  | cons a as ih =>
    obtain ⟨ts, hts⟩ := items a (by simp)
    cases as with
    | nil => exact ⟨ts, .one hts⟩
    | cons b as =>
      obtain ⟨us, hus⟩ := ih (fun c hc => items c (by simp [hc])) (by simp)
      exact ⟨_, .more hts hus⟩

theorem exists_isSequence (items : ∀ a ∈ as, ∃ ts, item ts a) : ∃ ts, IsSequence item ts as := by
  induction as with
  | nil => exact ⟨[], .nil⟩
  | cons a as ih =>
    obtain ⟨ts, hts⟩ := items a (by simp)
    obtain ⟨us, hus⟩ := ih fun c hc => items c (by simp [hc])
    exact ⟨_, .cons hts hus⟩

theorem exists_isTuple (items : ∀ a ∈ as, ∃ ts, item ts a) (some : as ≠ []) :
    ∃ ts, IsTuple item ts as := by
  obtain ⟨ts, hts⟩ : ∃ ts, IsList .comma item ts as := exists_isList items some
  exact ⟨_, .mk hts⟩

end

theorem exists_isLiteral {v : Value} (h : FiniteValue v) : ∃ ts, IsLiteral ts v := by
  cases v with
  | null => exact ⟨_, .null⟩
  | boolean b => cases b <;> exact ⟨_, by constructor⟩
  | number x => exact ⟨_, .number (h x rfl)⟩
  | string s => exact ⟨_, .string s⟩

theorem exists_isReference {r : String} (h : PlainReference r) :
    ∃ ts, IsReference .plain ts r := by
  obtain plain | ⟨table, column, ht, hc, rfl⟩ := h
  · exact ⟨_, .plain (.word plain)⟩
  · exact ⟨_, .qualified (.mk (.word ht) (.word hc))⟩

theorem exists_isCondition {c : Condition} (h : PlainCondition c) :
    ∃ ts, IsCondition .plain ts c := by
  obtain ⟨ts, hts⟩ := exists_isReference h.column
  obtain ⟨us, hus⟩ := exists_isLiteral h.value
  exact ⟨_, .mk c.op hts hus⟩

theorem exists_isWhere {cs : List Condition} (h : ∀ c ∈ cs, PlainCondition c) :
    ∃ ts, IsWhere .plain ts cs := by
  by_cases none : cs = []
  · rw [none]
    exact ⟨[], .missing⟩
  · obtain ⟨ts, hts⟩ := exists_isList (fun c hc => exists_isCondition (h c hc)) none
    exact ⟨_, .clause hts⟩

/-- The constraints that a column is printed with. -/
def constraintsOf (d : ColumnDef) : List Constraint :=
  (if d.primaryKey then [.primaryKey] else []) ++ (if d.unique then [.unique] else []) ++
    (if d.notNull then [.notNull] else []) ++ (d.default.map Constraint.default).toList

theorem foldl_constraintsOf {d : ColumnDef} (key : d.primaryKey = true → d.notNull = true) :
    (constraintsOf d).foldl Constraint.add ⟨d.name, d.typeName, false, false, false, none⟩ = d := by
  obtain ⟨name, type, primaryKey, unique, notNull, default⟩ := d
  cases primaryKey <;> cases unique <;> cases notNull <;> cases default <;>
    simp_all [constraintsOf, Constraint.add]

theorem exists_isColumnDef {d : ColumnDef} (h : PlainColumn d) : ∃ ts, IsColumnDef .plain ts d := by
  obtain ⟨words, some, plain, hw⟩ := h.type
  obtain ⟨ts, hts⟩ : ∃ ts, IsSequence IsPlain ts words :=
    exists_isSequence fun w hw => ⟨_, .word (plain w hw)⟩
  obtain ⟨us, hus⟩ : ∃ us, IsSequence (IsConstraint .plain) us (constraintsOf d) := by
    refine exists_isSequence fun c hc => ?_
    cases c with
    | primaryKey => exact ⟨_, .primaryKey⟩
    | unique => exact ⟨_, .unique⟩
    | notNull => exact ⟨_, .notNull⟩
    | null => exact ⟨_, .null⟩
    | default v =>
      have declared : d.default = Option.some v := by
        obtain ⟨name, type, primaryKey, unique, notNull, default⟩ := d
        cases primaryKey <;> cases unique <;> cases notNull <;> cases default <;>
          simp_all [constraintsOf]
      obtain ⟨vs, hvs⟩ := exists_isLiteral (h.default v declared)
      exact ⟨_, .default hvs⟩
  have column := IsColumnDef.mk (L := .plain) (.word h.name) (.words hts some) hus
  rw [← hw, foldl_constraintsOf h.key] at column
  exact ⟨_, column⟩

theorem exists_isGuarded {guard : List Token} {table : String} (h : PlainWord table)
    (guarded : Bool) : ∃ ts, IsGuarded .plain guard ts (table, guarded) := by
  cases guarded with
  | true => exact ⟨_, .guarded (.word h)⟩
  | false => exact ⟨_, .bare (.word h) (by simp)⟩

theorem exists_isTarget {columns : Option (List String)}
    (h : ∀ cs, columns = some cs → cs ≠ [] ∧ ∀ c ∈ cs, PlainWord c) :
    ∃ ts, IsTarget .plain ts columns := by
  cases columns with
  | none => exact ⟨_, .all⟩
  | some cs =>
    obtain ⟨some, plain⟩ := h cs rfl
    obtain ⟨ts, hts⟩ : ∃ ts, IsTuple IsPlain ts cs :=
      exists_isTuple (fun c hc => ⟨_, .word (plain c hc)⟩) some
    exact ⟨_, .columns hts⟩

theorem exists_isRows {rows : List (List Value)} (some : rows ≠ [])
    (h : ∀ row ∈ rows, row ≠ [] ∧ ∀ v ∈ row, FiniteValue v) :
    ∃ ts, IsList .comma (IsTuple IsLiteral) ts rows := by
  refine exists_isList (fun row hrow => ?_) some
  obtain ⟨some, finite⟩ := h row hrow
  exact exists_isTuple (fun v hv => exists_isLiteral (finite v hv)) some

theorem exists_isSelection {columns : List String}
    (h : columns = ["*"] ∨ columns ≠ [] ∧ ∀ r ∈ columns, PlainReference r) :
    ∃ ts, IsSelection .plain ts columns := by
  obtain rfl | ⟨some, plain⟩ := h
  · exact ⟨_, .all⟩
  · obtain ⟨ts, hts⟩ := exists_isList (fun r hr => exists_isReference (plain r hr)) some
    exact ⟨_, .columns hts⟩

theorem exists_isJoins {table : String} (ht : PlainWord table) {join : Option JoinClause}
    (h : ∀ j, join = some j → PlainJoin j) : ∃ ts, IsJoins .plain table ts join := by
  cases join with
  | none => exact ⟨_, .missing⟩
  | some j =>
    obtain ⟨hj, hl, hr⟩ := h j rfl
    obtain ⟨ks, hks⟩ : ∃ ks, IsJoinKind ks j.kind := by
      cases j.kind with
      | inner => exact ⟨_, .inner⟩
      | left => exact ⟨_, .left⟩
    exact ⟨_, .clause (.direct hks (.word hj) (.mk (.word ht) (.word hl))
      (.mk (.word hj) (.word hr)))⟩

theorem exists_isAssignment {a : String × Value} (h : PlainWord a.1 ∧ FiniteValue a.2) :
    ∃ ts, IsAssignment .plain ts a := by
  obtain ⟨ts, hts⟩ := exists_isLiteral h.2
  exact ⟨_, .mk (.word h.1) hts⟩

theorem exists_isStatement {s : Statement} (h : PlainStatement s) :
    ∃ body, IsStatement .plain body s := by
  cases s with
  | createTable table ifNotExists columns =>
    obtain ⟨ht, some, hcs⟩ := h
    obtain ⟨ns, hns⟩ := exists_isGuarded ht ifNotExists
    obtain ⟨ts, hts⟩ := exists_isTuple (fun d hd => exists_isColumnDef (hcs d hd)) some
    exact ⟨_, .createTable hns hts⟩
  | dropTable table ifExists =>
    obtain ⟨ns, hns⟩ := exists_isGuarded h ifExists
    exact ⟨_, .dropTable hns⟩
  | insert table columns rows =>
    obtain ⟨ht, hcs, some, hrows⟩ := h
    obtain ⟨cs, target⟩ := exists_isTarget hcs
    obtain ⟨rs, values⟩ := exists_isRows some hrows
    exact ⟨_, .insert (.word ht) target values⟩
  | select columns table join conditions =>
    obtain ⟨hcs, ht, hj, hws⟩ := h
    obtain ⟨cs, selected⟩ := exists_isSelection hcs
    obtain ⟨js, joined⟩ := exists_isJoins ht hj
    obtain ⟨ws, filtered⟩ := exists_isWhere hws
    exact ⟨_, .select selected (.word ht) joined filtered⟩
  | update table assignments conditions =>
    obtain ⟨ht, some, has, hws⟩ := h
    obtain ⟨as, assigned⟩ := exists_isList (fun a ha => exists_isAssignment (has a ha)) some
    obtain ⟨ws, filtered⟩ := exists_isWhere hws
    exact ⟨_, .update (.word ht) assigned filtered⟩
  | delete table conditions =>
    obtain ⟨ht, hws⟩ := h
    obtain ⟨ws, filtered⟩ := exists_isWhere hws
    exact ⟨_, .delete (.word ht) filtered⟩
  | showTables => exact ⟨_, .showTables⟩
  | describe table => exact ⟨_, .describe .describe (.inl rfl) (.word h)⟩

/-- Tokens that have texts can be written in a row. -/
theorem exists_spelled {ts : List Token} (h : ∀ t ∈ ts, ∃ w, SpelledToken t w) :
    ∃ s, Spelled ts s := by
  induction ts with
  | nil => exact ⟨[], .nil⟩
  | cons t ts ih =>
    obtain ⟨w, hw⟩ := h t (by simp)
    obtain ⟨s, hs⟩ := ih fun u hu => h u (by simp [hu])
    cases ts with
    | nil => exact ⟨w, .last hw⟩
    | cons u ts => exact ⟨_, .apart hw hs⟩

end Sql
end PocketSql
