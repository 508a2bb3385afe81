import PocketSql.Proofs.Number.Order
import PocketSql.Proofs.Sql.Words

/-!
# The literals of a statement

The values in a statement that a text is read as are read in the tokens of the text, each of them in
tokens that stand together. So a number among them is one that the lexer has read, and no NaN: the
lexer takes a run of characters for a number only if there are digits in it, and digits are read as
a number that is no NaN.

## Main definitions

* `Statement.literals` — the values that are given in a statement.
* `Grammar.ReadIn` — tokens some of which are read as a value.

## Main results

* `Grammar.IsStatement.readIn` — each literal is read in the tokens of the statement.
* `StandsIn.literal_not_nan` — no literal is a NaN.
-/

namespace PocketSql

/-- A value that is a NaN. -/
def Value.isNaN : Value → Bool
  | number x => x.isNaN
  | _ => false

namespace Sql

open Grammar

/-- The values that are given in a statement: those to be stored, those that columns are to have
without any, and those that columns are compared with. -/
def Statement.literals : Statement → List Value
  | .createTable _ _ columns => columns.filterMap (·.default)
  | .insert _ _ rows => rows.flatten
  | .select _ _ _ conditions => conditions.map (·.value)
  | .update _ assignments conditions => assignments.map (·.2) ++ conditions.map (·.value)
  | .delete _ conditions => conditions.map (·.value)
  | _ => []

namespace Grammar

/-! ## Where items are read -/

section
variable {α : Type} {item : List Token → α → Prop} {separator : Token} {ts us : List Token} {a : α}
  {as : List α}

theorem IsList.exists_item (h : IsList separator item ts as) (mem : a ∈ as) :
    ∃ us, us <:+: ts ∧ item us a := by
  induction h with
  | one h => exact ⟨_, List.infix_rfl, List.mem_singleton.1 mem ▸ h⟩
  | @more ts us _ _ h _ ih =>
    obtain rfl | mem := List.mem_cons.1 mem
    · exact ⟨ts, (List.prefix_append _ _).isInfix, h⟩
    · obtain ⟨vs, inside, hv⟩ := ih mem
      exact ⟨vs, (inside.trans (List.suffix_cons _ _).isInfix).trans
        (List.suffix_append _ _).isInfix, hv⟩

theorem IsSequence.exists_item (h : IsSequence item ts as) (mem : a ∈ as) :
    ∃ us, us <:+: ts ∧ item us a := by
  induction h with
  | nil => cases mem
  | @cons ts us _ _ h _ ih =>
    obtain rfl | mem := List.mem_cons.1 mem
    · exact ⟨ts, (List.prefix_append _ _).isInfix, h⟩
    · obtain ⟨vs, inside, hv⟩ := ih mem
      exact ⟨vs, inside.trans (List.suffix_append _ _).isInfix, hv⟩

theorem IsTuple.exists_item (h : IsTuple item ts as) (mem : a ∈ as) :
    ∃ us, us <:+: ts ∧ item us a := by
  obtain ⟨listed⟩ := h
  obtain ⟨vs, inside, hv⟩ := listed.exists_item mem
  exact ⟨vs, inside.trans ⟨[.openParen], [.closeParen], rfl⟩, hv⟩

end

/-! ## Where values are read -/

/-- Some of the tokens, standing together, are read as a value. -/
def ReadIn (L : Lexicon) (ts : List Token) (v : Value) : Prop := ∃ us, us <:+: ts ∧ L.value us v

variable {L : Lexicon} {ts us : List Token} {v : Value}

theorem ReadIn.mono (h : ReadIn L us v) (inside : us <:+: ts) : ReadIn L ts v := by
  obtain ⟨vs, within, hv⟩ := h
  exact ⟨vs, within.trans inside, hv⟩

theorem ReadIn.left (h : ReadIn L ts v) : ReadIn L (ts ++ us) v :=
  h.mono (List.prefix_append ts us).isInfix

theorem ReadIn.right (h : ReadIn L us v) : ReadIn L (ts ++ us) v :=
  h.mono (List.suffix_append ts us).isInfix

theorem ReadIn.cons {t : Token} (h : ReadIn L ts v) : ReadIn L (t :: ts) v :=
  h.mono (List.suffix_cons t ts).isInfix

theorem IsWhere.readIn {cs : List Condition} (h : IsWhere L ts cs) :
    ∀ v ∈ cs.map (·.value), ReadIn L ts v := by
  intro v hv
  obtain ⟨c, hc, rfl⟩ := List.mem_map.1 hv
  cases h with
  | missing => cases hc
  | clause listed =>
    obtain ⟨us, inside, ⟨_, _, value⟩⟩ := listed.exists_item hc
    have here : ReadIn L _ _ := ⟨_, List.infix_rfl, value⟩
    exact (here.cons.right.mono inside).cons

theorem default_foldl_add {d : ColumnDef} {constraints : List Constraint}
    (h : (constraints.foldl Constraint.add d).default = some v) :
    d.default = some v ∨ .default v ∈ constraints := by
  induction constraints generalizing d with
  | nil => exact .inl h
  | cons constraint constraints ih =>
    obtain before | later := ih h
    · cases constraint with
      | default w =>
        cases before
        exact .inr List.mem_cons_self
      | primaryKey | unique | notNull | null => exact .inl before
    · exact .inr (List.mem_cons_of_mem _ later)

theorem IsColumnDef.readIn {d : ColumnDef} (h : IsColumnDef L ts d) (default : d.default = some v) :
    ReadIn L ts v := by
  obtain ⟨_, _, constrained⟩ := h
  obtain none | given := default_foldl_add default
  · cases none
  · obtain ⟨us, inside, constraint⟩ := constrained.exists_item given
    cases constraint with
    | default value =>
      have here : ReadIn L _ _ := ⟨_, List.infix_rfl, value⟩
      exact ((here.cons.mono inside).right).right

/-- Each literal of a statement is read in some of its tokens. -/
theorem IsStatement.readIn {s : Statement} (h : IsStatement L ts s) :
    ∀ v ∈ s.literals, ReadIn L ts v := by
  intro v hv
  cases h with
  | createTable _ declared =>
    obtain ⟨d, hd, default⟩ := List.mem_filterMap.1 hv
    obtain ⟨us, inside, column⟩ := declared.exists_item hd
    exact ((column.readIn default).mono inside).right.cons.cons
  | insert _ _ values =>
    obtain ⟨row, hrow, hv⟩ := List.mem_flatten.1 hv
    obtain ⟨us, inside, tuple⟩ := values.exists_item hrow
    obtain ⟨vs, inside', value⟩ := tuple.exists_item hv
    have here : ReadIn L _ _ := ⟨vs, inside'.trans inside, value⟩
    exact here.cons.right.right.cons.cons
  | select _ _ _ filtered => exact (filtered.readIn v hv).right.right.cons.right.cons
  | update _ assigned filtered =>
    obtain hv | hv := List.mem_append.1 hv
    · obtain ⟨assignment, ha, rfl⟩ := List.mem_map.1 hv
      obtain ⟨us, inside, ⟨_, value⟩⟩ := assigned.exists_item ha
      have here : ReadIn L _ _ := ⟨_, List.infix_rfl, value⟩
      exact (here.cons.right.mono inside).left.cons.right.cons
    · exact (filtered.readIn v hv).right.cons.right.cons
  | delete _ filtered => exact (filtered.readIn v hv).right.cons.cons
  | dropTable | showTables | describe => cases hv

end Grammar

/-! ## Numbers -/

theorem not_nan_of_unsigned {size : Nat} {s rest : List Char} {x : Number}
    (h : unsigned size s = (.ok x, rest)) : x.isNaN = false := by
  rw [unsigned] at h
  dsimp only at h
  split at h
  · next y found =>
    cases h
    split at found
    · cases found
    · exact Number.isNaN_of_ofChars? found
  · cases h

theorem wordToken_ne_number (word : List Char) (x : Number) : wordToken word ≠ .number x := by
  rw [wordToken]
  split <;> simp

/-- A number is read without a sign, or behind a minus. -/
theorem not_nan_of_scan {size : Nat} {s rest : List Char} {x : Number}
    (h : scan size s = (.ok (.number x), rest)) : x.isNaN = false := by
  cases scans_of_scan h with
  | single sign => cases isSymbol_of_single sign
  | double sign => cases isSymbol_of_double sign
  | negative _ number =>
    rw [Number.isNaN_neg]
    exact not_nan_of_unsigned number
  | number _ _ _ number => exact not_nan_of_unsigned number
  | word _ _ _ _ token => exact absurd token (wordToken_ne_number _ x)

/-- What is read as one value is a number if all of it is typed as one. -/
theorem not_nan_of_bareValue {s rest : List Char} {x : Number}
    (h : bareValue s = some (.number x, rest)) : x.isNaN = false := by
  obtain ⟨-, token, -⟩ := bareValue_eq_some_iff.1 h
  rw [runToken] at token
  split at token
  · next y found =>
    cases token
    split at found
    · exact Number.isNaN_of_ofChars? found
    · cases found
  · cases token

theorem not_nan_of_readSolid {value : Bool} {size : Nat} {s rest : List Char} {x : Number}
    (h : readSolid value size s = (.ok (.number x), rest)) : x.isNaN = false := by
  obtain ⟨-, bare⟩ | scan := readSolid_cases h
  · exact not_nan_of_bareValue bare
  · exact not_nan_of_scan scan

/-- No number among the tokens of a text is a NaN. -/
theorem not_nan_of_tokenize {text : String} {ts : List Token} (h : tokenize text = .ok ts)
    {x : Number} (mem : .number x ∈ ts) : x.isNaN = false := by
  rw [← Lexer.map_token_lexemes (Lexer.ofText text) ts] at mem
  obtain ⟨e, he, token⟩ := List.mem_map.1 mem
  obtain ⟨l, meets⟩ := (Lexer.lexes_lexemes h).exists_meets he
  have read := meets.read
  rw [token] at read
  exact not_nan_of_readSolid read

/-! ## Texts -/

/-- No literal of a statement that is read in a text is a NaN. -/
theorem StandsIn.literal_not_nan {s : Statement} {text : String} (h : StandsIn s text) :
    ∀ v ∈ s.literals, v.isNaN = false := by
  intro v hv
  obtain ⟨ts, body, tokens, inside, statement, -⟩ := h
  obtain ⟨us, within, value⟩ := statement.readIn v hv
  cases value with
  | number x =>
    have mem : .number x ∈ ts := (within.trans inside).subset (List.mem_singleton_self _)
    exact not_nan_of_tokenize tokens mem
  | _ => rfl

end Sql
end PocketSql
