import PocketSql.Proofs.Sql.Lexing
import PocketSql.Proofs.Sql.Recognition

/-!
# Parsing undoes printing

The words in front of a value tell the lexer that a value follows: a comparison outside of `ON`,
`DEFAULT`, and the parentheses and commas behind `VALUES`. So in a printed statement each token is
read in a mode that it fits, whatever its names and strings are, and the parser gets the tokens of
the statement.

## Main results

* `passes_statement` — the lexer can read each token of a statement.
* `parse_printed` — a printed statement is parsed as that statement.
-/

namespace PocketSql
namespace Sql

open Grammar

variable {α : Type}

/-! ## Single tokens -/

/-- The mode in which words are read: no value is expected, and the last token was not `INTO`. -/
def reading (insert values on : Bool) : Mode := ⟨false, insert, values, on, false⟩

theorem spelled_text (k : Keyword) : SpelledToken (.keyword k) k.text.toList := by
  apply SpelledToken.keyword
  cases k <;> decide

theorem fits_keyword {m : Mode} (k : Keyword) (h : m.value = false) : Fits m (.keyword k) :=
  ⟨⟨_, spelled_text k⟩, fun value => by simp [h] at value⟩

theorem fits_reserved (m : Mode) {k : Keyword} (h : k.reserved = true) : Fits m (.keyword k) :=
  ⟨⟨_, spelled_text k⟩, fun _ => h⟩

theorem fits_comma (m : Mode) : Fits m .comma := ⟨⟨_, .comma⟩, trivial⟩

theorem fits_comparison (m : Mode) (op : Comparison) : Fits m (.comparison op) :=
  ⟨⟨_, .comparison op⟩, trivial⟩

variable {m m' : Mode} {ts : List Token} {insert values on : Bool}

theorem passes_name {s : String} (h : IsPlain ts s) (value : m.value = false) :
    Passes m ts (reading m.insert m.values m.on) := by
  obtain ⟨plain⟩ := h
  exact .cons ⟨⟨_, .name plain⟩, value⟩ (.nil _)

theorem passes_literal {v : Value} (h : IsLiteral ts v) (value : m.value = true) :
    Passes m ts (reading m.insert m.values m.on) := by
  cases h with
  | number finite => exact .cons ⟨⟨_, .number finite⟩, value⟩ (.nil _)
  | string s => exact .cons ⟨⟨_, .string s (.inl rfl)⟩, trivial⟩ (.nil _)
  | trueWord => exact .cons (fits_reserved m rfl) (.nil _)
  | falseWord => exact .cons (fits_reserved m rfl) (.nil _)
  | null => exact .cons (fits_reserved m rfl) (.nil _)

theorem passes_qualified {r : String × String} (h : IsQualified .plain ts r) :
    Passes (reading insert values on) ts (reading insert values on) := by
  obtain ⟨first, second⟩ := h
  exact (passes_name first rfl).append (.cons ⟨⟨_, .dot⟩, rfl⟩ (passes_name second rfl))

theorem passes_reference {r : String} (h : IsReference .plain ts r) :
    Passes (reading insert values on) ts (reading insert values on) := by
  cases h with
  | plain h => exact passes_name h rfl
  | qualified h => exact passes_qualified h

/-! ## Repetition -/

section
variable {item : List Token → α → Prop} {as : List α}

/-- Items in a row. The first of them may be read in another mode than those behind a separator. -/
theorem passes_list {separator : Token} (first : ∀ ts a, item ts a → Passes m ts m')
    (fits : Fits m' separator)
    (next : ∀ ts a, item ts a → Passes (m'.after separator) ts m')
    (h : IsList separator item ts as) : Passes m ts m' := by
  induction h generalizing m with
  | one h => exact first _ _ h
  | more h _ ih => exact (first _ _ h).append (.cons fits (ih next))

theorem passes_sequence (items : ∀ ts a, item ts a → Passes m ts m)
    (h : IsSequence item ts as) : Passes m ts m := by
  induction h with
  | nil => exact .nil m
  | cons h _ ih => exact (items _ _ h).append ih

/-- A comma leaves the mode that the parenthesis has left. -/
theorem passes_tuple (items : ∀ ts a, item ts a → Passes (m.after .openParen) ts m')
    (back : m'.after .comma = m.after .openParen) (h : IsTuple item ts as) :
    Passes m ts (m'.after .closeParen) := by
  obtain ⟨h⟩ := h
  have inner := passes_list items (fits_comma m') (back ▸ items) h
  exact .cons ⟨⟨_, .openParen⟩, trivial⟩
    (inner.append (.cons ⟨⟨_, .closeParen⟩, trivial⟩ (.nil _)))

end

/-! ## Conditions -/

/-- Outside of `ON` a comparison is followed by a value, which ends that mode. -/
theorem passes_condition {c : Condition} (h : IsCondition .plain ts c) :
    Passes (reading insert values false) ts (reading insert values false) := by
  obtain ⟨op, left, right⟩ := h
  exact (passes_reference left).append (.cons (fits_comparison _ op) (passes_literal right rfl))

theorem passes_where {cs : List Condition} (h : IsWhere .plain ts cs) :
    ∃ on', Passes (reading insert values on) ts (reading insert values on') := by
  cases h with
  | missing => exact ⟨on, .nil _⟩
  | clause h =>
    have conditions : Passes (reading insert values false) _ (reading insert values false) :=
      passes_list (fun _ _ h => passes_condition h) (fits_keyword .andWord rfl)
        (fun _ _ h => passes_condition h) h
    exact ⟨false, .cons (fits_keyword .whereWord rfl) conditions⟩

theorem passes_assignment {a : String × Value} (h : IsAssignment .plain ts a) :
    Passes (reading insert values false) ts (reading insert values false) := by
  obtain ⟨left, right⟩ := h
  exact (passes_name left rfl).append (.cons (fits_comparison _ .eq) (passes_literal right rfl))

/-! ## Columns and joins -/

theorem passes_constraint {c : Constraint} (h : IsConstraint .plain ts c) :
    Passes (reading insert values on) ts (reading insert values on) := by
  cases h with
  | primaryKey => exact .cons (fits_keyword .primary rfl) (.cons (fits_keyword .key rfl) (.nil _))
  | unique => exact .cons (fits_keyword .unique rfl) (.nil _)
  | notNull => exact .cons (fits_keyword .notWord rfl) (.cons (fits_keyword .null rfl) (.nil _))
  | null => exact .cons (fits_keyword .null rfl) (.nil _)
  | default h => exact .cons (fits_keyword .default rfl) (passes_literal h rfl)

theorem passes_columnDef {d : ColumnDef} (h : IsColumnDef .plain ts d) :
    Passes (reading insert values on) ts (reading insert values on) := by
  obtain ⟨named, ⟨words, -⟩, constrained⟩ := h
  have type := passes_sequence (m := reading insert values on)
    (fun _ _ h => passes_name h rfl) words
  have constraints := passes_sequence (m := reading insert values on)
    (fun _ _ h => passes_constraint h) constrained
  exact (passes_name named rfl).append (type.append constraints)

theorem passes_joinKind {kind : JoinKind} (h : IsJoinKind ts kind) :
    Passes (reading insert values on) ts (reading insert values on) := by
  cases h with
  | bare => exact .nil _
  | inner => exact .cons (fits_keyword .inner rfl) (.nil _)
  | left => exact .cons (fits_keyword .left rfl) (.nil _)
  | leftOuter =>
    exact .cons (fits_keyword .left rfl) (.cons (fits_keyword .outer rfl) (.nil _))

/-- Behind `ON` a comparison is followed by a column. -/
theorem passes_join {table : String} {j : JoinClause} (h : IsJoin .plain table ts j) :
    Passes (reading insert values false) ts (reading insert values true) := by
  cases h with
  | direct head named first second | swapped head named first second =>
    have condition : Passes (reading insert values true) _ (reading insert values true) :=
      (passes_qualified first).append (.cons (fits_comparison _ .eq) (passes_qualified second))
    exact (passes_joinKind head).append (.cons (fits_keyword .join rfl)
      ((passes_name named rfl).append (.cons (fits_keyword .on rfl) condition)))

theorem passes_joins {table : String} {j : Option JoinClause} (h : IsJoins .plain table ts j) :
    ∃ on, Passes (reading insert values false) ts (reading insert values on) := by
  cases h with
  | missing => exact ⟨false, .nil _⟩
  | clause h => exact ⟨true, passes_join h⟩

theorem passes_selection {columns : List String} (h : IsSelection .plain ts columns) :
    Passes (reading insert false on) ts (reading insert false on) := by
  cases h with
  | all => exact .cons ⟨⟨_, .star⟩, rfl⟩ (.nil _)
  | columns h =>
    exact passes_list (fun _ _ h => passes_reference h) (fits_comma _)
      (fun _ _ h => passes_reference h) h

/-! ## Statements -/

theorem passes_guarded {guard : List Token} {r : String × Bool}
    (words : Passes (reading insert values on) guard (reading insert values on))
    (h : IsGuarded .plain guard ts r) :
    Passes (reading insert values on) ts (reading insert values on) := by
  cases h with
  | bare h => exact passes_name h rfl
  | guarded h => exact .cons (fits_keyword .ifWord rfl) (words.append (passes_name h rfl))

theorem passes_target {columns : Option (List String)} (h : IsTarget .plain ts columns) :
    Passes (reading insert false on) ts (reading insert false on) := by
  cases h with
  | all => exact .nil _
  | columns h =>
    have names : Passes (reading insert false on) ts
        ((reading insert false on).after .closeParen) :=
      passes_tuple (fun _ _ h => passes_name h rfl) rfl h
    exact names

/-- Behind `VALUES` a parenthesis and a comma are followed by a value. So is the comma between two
rows, where the parenthesis that stands there is no value and is read all the same. -/
theorem passes_rows {rows : List (List Value)} (h : IsList .comma (IsTuple IsLiteral) ts rows) :
    Passes (reading insert true on) ts (reading insert true on) := by
  -- a row is read in the mode behind `VALUES` and in the mode behind a comma
  have row {m : Mode} (opened : m.after .openParen = ⟨true, insert, true, on, false⟩)
      (ts : List Token) (row : List Value) (h : IsTuple IsLiteral ts row) :
      Passes m ts ((reading insert true on).after .closeParen) := by
    refine passes_tuple (fun _ _ h => ?_) opened.symm h
    rw [opened]
    exact passes_literal h rfl
  exact passes_list (row rfl) (fits_comma _) (row rfl) h

/-- Each token of a statement fits the mode that the tokens before it leave. -/
theorem passes_statement {s : Statement} (h : IsStatement .plain ts s) :
    ∃ m, Passes .initial ts m := by
  cases h with
  | createTable named declared =>
    have guard : Passes (reading false false false) [.keyword .notWord, .keyword .existsWord] _ :=
      .cons (fits_keyword .notWord rfl) (.cons (fits_keyword .existsWord rfl) (.nil _))
    have columns : Passes (reading false false false) _
        ((reading false false false).after .closeParen) :=
      passes_tuple (fun _ _ h => passes_columnDef h) rfl declared
    exact ⟨_, .cons (fits_keyword .create rfl) (.cons (fits_keyword .table rfl)
      ((passes_guarded guard named).append columns))⟩
  | dropTable named =>
    have guard : Passes (reading false false false) [.keyword .existsWord] _ :=
      .cons (fits_keyword .existsWord rfl) (.nil _)
    exact ⟨_, .cons (fits_keyword .drop rfl) (.cons (fits_keyword .table rfl)
      (passes_guarded guard named))⟩
  | insert named target values =>
    exact ⟨_, .cons (fits_keyword .insert rfl) (.cons (fits_keyword .into rfl)
      ((passes_name named rfl).append ((passes_target target).append
        (.cons (fits_keyword .values rfl) (passes_rows values)))))⟩
  | select selected named joined filtered =>
    obtain ⟨on, joins⟩ := passes_joins joined
    obtain ⟨on', conditions⟩ := passes_where filtered
    exact ⟨_, .cons (fits_keyword .select rfl) ((passes_selection selected).append
      (.cons (fits_keyword .fromWord rfl) ((passes_name named rfl).append
        (joins.append conditions))))⟩
  | update named assigned filtered =>
    obtain ⟨on, conditions⟩ := passes_where filtered
    have assignments : Passes (reading false false false) _ (reading false false false) :=
      passes_list (fun _ _ h => passes_assignment h) (fits_comma _)
        (fun _ _ h => passes_assignment h) assigned
    exact ⟨_, .cons (fits_keyword .update rfl) ((passes_name named rfl).append
      (.cons (fits_keyword .set rfl) (assignments.append conditions)))⟩
  | delete named filtered =>
    obtain ⟨on, conditions⟩ := passes_where filtered
    exact ⟨_, .cons (fits_keyword .delete rfl) (.cons (fits_keyword .fromWord rfl)
      ((passes_name named rfl).append conditions))⟩
  | showTables =>
    exact ⟨_, .cons (fits_keyword .showWord rfl) (.cons (fits_keyword .tables rfl) (.nil _))⟩
  | describe leading spelled named =>
    obtain rfl | rfl := spelled
    · exact ⟨_, .cons (fits_keyword .describe rfl) (passes_name named rfl)⟩
    · exact ⟨_, .cons (fits_keyword .desc rfl) (passes_name named rfl)⟩

/-! ## Printing and parsing -/

theorem Passes.exists_spelled (h : Passes m ts m') : ∃ s, Spelled ts s := by
  have texts : ∀ t ∈ ts, ∃ w, SpelledToken t w := by
    induction h with
    | nil => simp
    | cons h _ ih => exact List.forall_mem_cons.2 ⟨h.1, ih⟩
  exact Sql.exists_spelled texts

theorem exists_printed {s : Statement} (plain : PlainStatement s) : ∃ text, Printed s text := by
  obtain ⟨body, hbody⟩ := exists_isStatement plain
  obtain ⟨m, passes⟩ := passes_statement hbody
  obtain ⟨text, spelled⟩ := passes.exists_spelled
  exact ⟨String.ofList text, body, hbody, .inl (by rwa [String.toList_ofList])⟩

theorem tokenize_spelled {text : String} (h : Spelled ts text.toList)
    (passes : Passes .initial ts m) : tokenize text = .ok (ts ++ [.endOfInput]) :=
  tokens_spelled h passes (.inl rfl) text.toList.length

/-- The tokens of a printed statement are those of the statement, with values folded. -/
theorem isQuery_printed {s : Statement} {text : String} (h : Printed s text) :
    ∃ ts body, tokenize text = .ok ts ∧ IsQuery (mapValues Value.folded s) body ts := by
  obtain ⟨body, hbody, spelled⟩ := h
  obtain ⟨m, passes⟩ := passes_statement hbody
  have same := hbody.embed embeds_plain
  obtain bare | ended := spelled
  · exact ⟨_, body, tokenize_spelled bare passes, .bare same⟩
  · have semicolon : Passes m [.semicolon] .initial := .cons ⟨⟨_, .semicolon⟩, trivial⟩ (.nil _)
    have tokens := tokenize_spelled ended (passes.append semicolon)
    rw [List.append_assoc, List.singleton_append] at tokens
    exact ⟨_, body, tokens, .ended same⟩

/-- **Parsing undoes printing.** A plain statement can be printed, and from each of its texts the
parser makes that statement again, where the two zeros are one. -/
theorem parse_printed {s : Statement} (plain : PlainStatement s) :
    (∃ text, Printed s text) ∧
      ∀ text, Printed s text → parse text = .ok (mapValues Value.folded s) := by
  refine ⟨exists_printed plain, fun text printed => ?_⟩
  obtain ⟨ts, body, tokens, query⟩ := isQuery_printed printed
  exact (parse_ok_iff tokens).2 ⟨body, query⟩

theorem parse_printed_escaped :
    PlainStatement (.delete "notes" [⟨"notes.body", .eq, .string "it's; --"⟩]) ∧
      parse "dElete FROM notes WHERE notes.body='it''s; --';" =
        .ok (.delete "notes" [⟨"notes.body", .eq, .string "it's; --"⟩]) := by
  have notes : PlainWord "notes" :=
    ⟨'n', "otes".toList, rfl, by decide, List.all_eq_true.1 (by decide), by decide⟩
  have body : PlainWord "body" :=
    ⟨'b', "ody".toList, rfl, by decide, List.all_eq_true.1 (by decide), by decide⟩
  have plain : PlainStatement (.delete "notes" [⟨"notes.body", .eq, .string "it's; --"⟩]) := by
    refine ⟨notes, fun c hc => ?_⟩
    obtain rfl := List.mem_singleton.1 hc
    exact ⟨.inr ⟨"notes", "body", notes, body, rfl⟩, by simp [FiniteValue]⟩
  have spelled := Spelled.apart (.keyword .delete (w := "dElete".toList) (by decide))
    (.apart (spelled_text .fromWord) (.apart (.name notes) (.apart (spelled_text .whereWord)
      (.together (.name notes) rfl (.together .dot rfl (.together (.name body) rfl
        (.together (.comparison .eq) rfl (.together (.string "it's; --" (.inl rfl)) rfl
          (.last .semicolon)))))))))
  have column : IsReference .plain _ "notes.body" :=
    .qualified (.mk (L := .plain) (.word notes) (.word body))
  have conditions : IsWhere .plain _ [⟨"notes.body", .eq, .string "it's; --"⟩] :=
    .clause (.one (.mk .eq column (.string _)))
  exact ⟨plain, (parse_printed plain).2 _ ⟨_, .delete (.word notes) conditions, .inr spelled⟩⟩

end Sql
end PocketSql
