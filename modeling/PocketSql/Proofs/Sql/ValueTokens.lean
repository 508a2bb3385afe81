import PocketSql.Proofs.Sql.Continuation
import PocketSql.Proofs.Sql.ValuePlaces

/-!
# Values are read whole

The lexer expects a value wherever the parser asks for one, though the one knows nothing of the
other. So an unquoted value reaches from its first character to the next white space, quote,
parenthesis, comma, semicolon or comparison, and stands for all of that.

## Main definitions

* `literal` — the value that a run of characters stands for.
* `TakesValue` — the parser of a text takes a value behind some of its tokens.

## Main results

* `value_of_inScript` — the lexer expects a value where the parser asks for one.
* `value_read_whole` — what an unquoted value is read as.
-/

namespace PocketSql
namespace Sql

open Grammar

variable {α : Type} {ts us : List Token} {m : Mode}

/-! ## Modes -/

namespace Mode

theorem after_on {t : Token} (h : m.on = false) (other : t ≠ .keyword .on) :
    (m.after t).on = false := by
  unfold after
  split <;> simp_all [initial]

theorem afterAll_on (h : m.on = false) (other : .keyword .on ∉ ts) :
    (m.afterAll ts).on = false := by
  refine afterAll_keeps (P := fun m => m.on = false) h ?_
  intro m t ht on
  exact after_on on (ne_of_mem_of_not_mem ht other)

theorem after_insert {t : Token} (h : m.insert = true) (more : t ≠ .semicolon) :
    (m.after t).insert = true := by
  unfold after
  split <;> simp_all

theorem afterAll_insert (h : m.insert = true) (more : .semicolon ∉ ts) :
    (m.afterAll ts).insert = true := by
  refine afterAll_keeps (P := fun m => m.insert = true) h ?_
  intro m t ht insert
  exact after_insert insert (ne_of_mem_of_not_mem ht more)

theorem after_values {t : Token} (h : m.values = true) (more : t ≠ .semicolon) :
    (m.after t).values = true := by
  unfold after
  split <;> simp_all

theorem afterAll_values (h : m.values = true) (more : .semicolon ∉ ts) :
    (m.afterAll ts).values = true := by
  refine afterAll_keeps (P := fun m => m.values = true) h ?_
  intro m t ht values
  exact after_values values (ne_of_mem_of_not_mem ht more)

theorem values_after_values (m : Mode) :
    (m.after (.keyword .values)).values = (m.values || (m.insert && !m.into)) := rfl

theorem afterAll_into (h : m.into = false) (other : .keyword .into ∉ ts) :
    (m.afterAll ts).into = false := by
  refine afterAll_keeps (P := fun m => m.into = false) h ?_
  intro m t ht _
  simp [after, ne_of_mem_of_not_mem ht other]

end Mode

/-! ## Tokens that are no part of a phrase -/

theorem not_mem_name {t : Token} {s : String} (h : IsName ts s) (other : t.name? = none) :
    t ∉ ts := by
  intro mem
  cases h with
  | word =>
    rw [List.mem_singleton.1 mem] at other
    cases other
  | keyword k free =>
    rw [List.mem_singleton.1 mem] at other
    simp [Token.name?, Keyword.name?, free] at other

theorem not_mem_reference {t : Token} {column : String} (h : IsReference .full ts column)
    (other : t.name? = none) (dot : t ≠ .dot) : t ∉ ts := by
  cases h with
  | plain h => exact not_mem_name h other
  | qualified h =>
    obtain ⟨first, second⟩ := h
    have left : t ∉ _ := not_mem_name first other
    have right : t ∉ _ := not_mem_name second other
    simp [left, right, dot]

theorem not_mem_list {separator t : Token} {item : List Token → α → Prop} {as : List α}
    (h : IsList separator item ts as) (items : ∀ {ts a}, item ts a → t ∉ ts)
    (other : t ≠ separator) : t ∉ ts := by
  induction h with
  | one h => exact items h
  | more h _ ih => simp [items h, other, ih]

theorem not_mem_tuple {t : Token} {item : List Token → α → Prop} {as : List α}
    (h : IsTuple item ts as) (items : ∀ {ts a}, item ts a → t ∉ ts)
    (other : t ∉ [.openParen, .closeParen, .comma]) : t ∉ ts := by
  obtain ⟨h⟩ := h
  simp only [List.mem_cons, not_or] at other
  simp [other, not_mem_list h items other.2.2.1]

theorem on_not_mem_name {s : String} (h : IsName ts s) : .keyword .on ∉ ts := not_mem_name h rfl

theorem on_not_mem_value {v : Value} (h : IsValue ts v) : .keyword .on ∉ ts := by
  cases h <;> simp

theorem on_not_mem_reference {column : String} (h : IsReference .full ts column) :
    .keyword .on ∉ ts := not_mem_reference h rfl (by simp)

theorem on_not_mem_condition {c : Condition} (h : IsCondition .full ts c) : .keyword .on ∉ ts := by
  obtain ⟨op, left, right⟩ := h
  simp [on_not_mem_reference left, on_not_mem_value right]

theorem on_not_mem_assignment {a : String × Value} (h : IsAssignment .full ts a) :
    .keyword .on ∉ ts := by
  obtain ⟨left, right⟩ := h
  simp [on_not_mem_name left, on_not_mem_value right]

theorem semicolon_not_mem_value {v : Value} (h : IsValue ts v) : .semicolon ∉ ts := by
  cases h <;> simp

theorem semicolon_not_mem_name {s : String} (h : IsName ts s) : .semicolon ∉ ts :=
  not_mem_name h rfl

theorem into_not_mem_name {s : String} (h : IsName ts s) : .keyword .into ∉ ts :=
  not_mem_name h rfl

/-! ## Modes in front of values -/

/-- A value is expected where a list is cut off if it is where an item is cut off. -/
theorem value_of_inList {I : Mode → Prop} {separator : Token} {item : List Token → α → Prop}
    {place : List Token → Prop} (h : InList separator item place ts)
    (items : ∀ {m ts a}, I m → item ts a → I ((m.afterAll ts).after separator))
    (places : ∀ {m ts}, I m → place ts → (m.afterAll ts).value = true) (hm : I m) :
    (m.afterAll ts).value = true := by
  induction h generalizing m with
  | here h => exact places hm h
  | later h _ ih =>
    rw [Mode.afterAll_append, Mode.afterAll_cons]
    exact ih (items hm h)

theorem value_of_inCondition (h : InCondition ts) (on : m.on = false) :
    (m.afterAll ts).value = true := by
  obtain ⟨op, left⟩ := h
  have still := Mode.afterAll_on on (on_not_mem_reference left)
  simp [Mode.after, still]

theorem value_of_inWhere (h : InWhere ts) (m : Mode) : (m.afterAll ts).value = true := by
  obtain ⟨h⟩ := h
  rw [Mode.afterAll_cons]
  refine value_of_inList (I := fun m => m.on = false) h ?_ ?_ rfl
  · intro m ts c on hc
    exact Mode.after_on (Mode.afterAll_on on (on_not_mem_condition hc)) (by simp)
  · intro m ts on hts
    exact value_of_inCondition hts on

theorem value_of_inColumnDefs (h : InTuple (IsColumnDef .full) InColumnDef ts) (m : Mode) :
    (m.afterAll ts).value = true := by
  obtain ⟨h⟩ := h
  rw [Mode.afterAll_cons]
  refine value_of_inList (I := fun _ => True) h (fun _ _ => trivial) ?_ trivial
  rintro m _ - ⟨named, typed, constrained⟩
  simp [Mode.after]

theorem value_of_inAssignments (h : InList .comma (IsAssignment .full) InAssignment ts)
    (on : m.on = false) : (m.afterAll ts).value = true := by
  refine value_of_inList (I := fun m => m.on = false) h ?_ ?_ on
  · intro m ts a on ha
    exact Mode.after_on (Mode.afterAll_on on (on_not_mem_assignment ha)) (by simp)
  · rintro m _ on ⟨left⟩
    have still := Mode.afterAll_on on (on_not_mem_name left)
    simp [Mode.after, still]

theorem value_of_inRow (h : InTuple IsValue (· = []) ts) (values : m.values = true) :
    (m.afterAll ts).value = true := by
  obtain ⟨h⟩ := h
  rw [Mode.afterAll_cons]
  refine value_of_inList (I := fun m => m.values = true ∧ m.value = true) h ?_ ?_ ?_
  · rintro m ts v ⟨values, -⟩ hv
    have still := Mode.afterAll_values values (semicolon_not_mem_value hv)
    simp [Mode.after, still]
  · rintro m _ ⟨-, value⟩ rfl
    exact value
  · simp [Mode.after, values]

theorem value_of_inRows (h : InList .comma (IsTuple IsValue) (InTuple IsValue (· = [])) ts)
    (values : m.values = true) : (m.afterAll ts).value = true := by
  refine value_of_inList (I := fun m => m.values = true) h ?_ ?_ values
  · intro m ts row values hrow
    have more := not_mem_tuple hrow semicolon_not_mem_value (by simp)
    exact Mode.after_values (Mode.afterAll_values values more) (by simp)
  · intro m ts values hts
    exact value_of_inRow hts values

/-- Behind the table and the columns of an INSERT the keyword VALUES is no name. -/
theorem values_of_insert {ns cs : List Token} {table : String} {columns : Option (List String)}
    (named : IsName ns table) (target : IsTarget .full cs columns) (m : Mode) :
    (m.afterAll (.keyword .insert :: .keyword .into :: (ns ++ (cs ++ [.keyword .values])))).values =
      true := by
  have insert : (m.afterAll (.keyword .insert :: .keyword .into :: ns)).insert = true := by
    rw [Mode.afterAll_cons]
    exact Mode.afterAll_insert rfl (by simp [semicolon_not_mem_name named])
  have into : (m.afterAll (.keyword .insert :: .keyword .into :: ns)).into = false := by
    have other := into_not_mem_name named
    cases named with
    | word => rfl
    | keyword k free => simpa [Mode.after, eq_comm] using other
  have insert' : ((m.afterAll (.keyword .insert :: .keyword .into :: ns)).afterAll cs).insert =
      true := by
    refine Mode.afterAll_insert insert ?_
    cases target with
    | all => simp
    | columns h => exact not_mem_tuple h semicolon_not_mem_name (by simp)
  have into' : ((m.afterAll (.keyword .insert :: .keyword .into :: ns)).afterAll cs).into =
      false := by
    refine Mode.afterAll_into into ?_
    cases target with
    | all => simp
    | columns h => exact not_mem_tuple h into_not_mem_name (by simp)
  have whole : .keyword .insert :: .keyword .into :: (ns ++ (cs ++ [.keyword .values])) =
      (.keyword .insert :: .keyword .into :: ns) ++ (cs ++ [.keyword .values]) := rfl
  rw [whole, Mode.afterAll_append, Mode.afterAll_append, Mode.afterAll_cons, Mode.afterAll_nil,
    Mode.values_after_values, insert', into']
  simp

theorem value_of_inStatement (h : InStatement ts) (on : m.on = false) :
    (m.afterAll ts).value = true := by
  cases h with
  | createTable named declared =>
    simp only [Mode.afterAll_cons, Mode.afterAll_append]
    exact value_of_inColumnDefs declared _
  | @insert ns cs vs table columns named target values =>
    have whole : .keyword .insert :: .keyword .into :: (ns ++ (cs ++ .keyword .values :: vs)) =
        (.keyword .insert :: .keyword .into :: (ns ++ (cs ++ [.keyword .values]))) ++ vs := by
      simp
    rw [whole, Mode.afterAll_append]
    exact value_of_inRows values (values_of_insert named target m)
  | select selected named joined filtered =>
    simp only [Mode.afterAll_cons, Mode.afterAll_append]
    exact value_of_inWhere filtered _
  | @assignment ns as table named assigned =>
    have whole : .keyword .update :: (ns ++ .keyword .set :: as) =
        (.keyword .update :: ns ++ [.keyword .set]) ++ as := by
      simp
    rw [whole, Mode.afterAll_append]
    exact value_of_inAssignments assigned
      (Mode.afterAll_on on (by simp [on_not_mem_name named]))
  | update named assigned filtered =>
    simp only [Mode.afterAll_cons, Mode.afterAll_append]
    exact value_of_inWhere filtered _
  | delete named filtered =>
    simp only [Mode.afterAll_cons, Mode.afterAll_append]
    exact value_of_inWhere filtered _

/-- **The lexer expects a value wherever the parser asks for one.** -/
theorem value_of_inScript (h : InScript ts) (on : m.on = false) : (m.afterAll ts).value = true := by
  induction h generalizing m with
  | here h => exact value_of_inStatement h on
  | skip _ ih => exact ih rfl
  | later _ _ ih =>
    rw [Mode.afterAll_append]
    exact ih rfl

/-! ## Runs of characters -/

/-- The value that a run of characters stands for. -/
def literal (run : List Char) : Value :=
  let upper := run.flatMap Text.asciiUpper
  if upper = "TRUE".toList then .boolean true
  else if upper = "FALSE".toList then .boolean false
  else if upper = "NULL".toList then .null
  else
    match if run.any Char.isDigit then Number.ofChars? run else none with
    | some x => .number x
    | none => .string (String.ofList run)

/-- Only letters have capitals of ASCII as their upper case. -/
theorem startsWord_of_asciiUpper {c d : Char} (h : d ∈ Text.asciiUpper c)
    (letter : d.isUpper = true) : startsWord c = true := by
  have small {c : Char} (hc : c ≤ 'z') : c.toNat < 128 := Nat.lt_of_le_of_lt hc (by decide)
  have letters : (∀ n < 128, ((Char.ofNat n).isUpper || 'a' ≤ Char.ofNat n && Char.ofNat n ≤ 'z') →
      startsWord (Char.ofNat n) = true) ∧
      ['ß', 'ı', 'ſ', 'ﬀ', 'ﬁ', 'ﬂ', 'ﬃ', 'ﬄ', 'ﬅ', 'ﬆ'].all startsWord = true := by
    decide +kernel
  obtain ⟨ascii, other⟩ := letters
  unfold Text.asciiUpper at h
  split at h
  · next lower =>
    rw [Bool.and_eq_true, decide_eq_true_eq, decide_eq_true_eq] at lower
    rw [← Char.ofNat_toNat c]
    refine ascii _ (small lower.2) ?_
    simp [lower]
  · split at h
    all_goals try exact List.all_eq_true.1 other _ (by decide)
    have below : d ≤ 'Z' := (of_decide_eq_true letter).2
    rw [← List.mem_singleton.1 h, ← Char.ofNat_toNat d]
    refine ascii _ (small (Char.le_trans below (by decide))) ?_
    simp [letter]

/-- Whatever spells a reserved keyword is a reserved word. -/
theorem reservedWord_of_upper {k : Keyword} {run : List Char}
    (upper : run.flatMap Text.asciiUpper = k.text.toList) (reserved : k.reserved = true) :
    reservedWord run = true := by
  have letters : ∀ c ∈ run, startsWord c = true := by
    intro c hc
    have some : Text.asciiUpper c ≠ [] := by
      unfold Text.asciiUpper
      split
      · simp
      · split <;> simp
    obtain ⟨d, hd⟩ := List.exists_mem_of_ne_nil _ some
    apply startsWord_of_asciiUpper hd
    apply isUpper_of_mem_text (k := k)
    rw [← upper]
    exact List.mem_flatMap.2 ⟨c, hc, hd⟩
  have first : run.head?.any startsWord = true := by
    cases run with
    | nil => cases k <;> cases upper
    | cons c s => simpa using letters c
  have word : run.all inWord = true :=
    List.all_eq_true.2 fun c hc => inWord_of_startsWord (letters c hc)
  simp [reservedWord, first, word, ofWord?_of_upper upper, reserved]

theorem literal_of_runToken {run : List Char} {v : Value} (free : reservedWord run = false)
    (hv : IsValue [runToken run] v) : v = literal run := by
  have other {k : Keyword} (reserved : k.reserved = true) :
      run.flatMap Text.asciiUpper ≠ k.text.toList := by
    intro upper
    rw [reservedWord_of_upper upper reserved] at free
    cases free
  have isTrue : run.flatMap Text.asciiUpper ≠ "TRUE".toList := other (k := .trueWord) rfl
  have isFalse : run.flatMap Text.asciiUpper ≠ "FALSE".toList := other (k := .falseWord) rfl
  have isNull : run.flatMap Text.asciiUpper ≠ "NULL".toList := other (k := .null) rfl
  rw [literal, if_neg isTrue, if_neg isFalse, if_neg isNull]
  rw [runToken] at hv
  cases number : (if run.any Char.isDigit then Number.ofChars? run else none) with
  | some x =>
    rw [number] at hv
    cases hv
    rfl
  | none =>
    rw [number] at hv
    cases hv
    rfl

/-- A reserved word that is a value is a boolean or NULL. -/
theorem literal_of_reserved {run : List Char} {v : Value} (reserved : reservedWord run = true)
    (hv : IsValue [wordToken run] v) : v = literal run := by
  simp only [reservedWord, Bool.and_eq_true, Option.any_eq_true] at reserved
  obtain ⟨-, k, hk, -⟩ := reserved
  have upper : run.flatMap Text.asciiUpper = k.text.toList := by
    simpa [eq_comm] using List.find?_some hk
  rw [wordToken, hk] at hv
  rw [literal, upper]
  generalize hts : [Token.keyword k] = ts at hv
  cases hv <;> cases hts <;> rfl

/-! ## Values in a text -/

/-- A lexeme starts with a quote. -/
def Lexeme.quoted (e : Lexeme) : Bool := e.text.head?.any fun c => c = '\'' || c = '"'

/-- A sign that ends a run is no value. -/
theorem not_isValue_of_sign {size : Nat} {c : Char} {s rest : List Char} {t : Token} {v : Value}
    (sign : c ∈ ['(', ')', ',', ';', '=', '<', '>', '!']) (h : scan size (c :: s) = (.ok t, rest)) :
    ¬ IsValue [t] v := by
  have symbol : t.isSymbol = true := by
    cases scans_of_scan h with
    | single one => exact isSymbol_of_single one
    | double two => exact isSymbol_of_double two
    | negative => simp at sign
    | string quote => obtain rfl | rfl := quote <;> simp at sign
    | number none other | word none other =>
      simp only [List.mem_cons, List.not_mem_nil, or_false, not_or] at sign other
      obtain rfl | rfl | rfl | rfl | rfl | rfl | rfl | rfl := sign
      iterate 7 cases none
      exact absurd rfl other.2.1
  intro hv
  cases hv <;> cases symbol

/-- Where a value is expected, an unquoted one is read whole. -/
theorem value_of_meets {l : Lexer} {e : Lexeme} (h : l.Meets e) (value : e.mode.value = true)
    (unquoted : e.quoted = false) {v : Value} (hv : IsValue [e.token] v) :
    e.text ≠ [] ∧ e.text = (e.text ++ e.behind).takeWhile inRun ∧ v = literal e.text := by
  have more : e.token ≠ .endOfInput := by
    intro last
    rw [last] at hv
    cases hv
  have some := h.text_ne_nil more
  -- what is left behind the run is what is left behind the lexeme
  have run (left : (e.text ++ e.behind).dropWhile inRun = e.behind) :
      e.text = (e.text ++ e.behind).takeWhile inRun := (takeWhile_of_dropWhile left).symm
  have read := h.read
  rw [value, readSolid, if_pos rfl] at read
  split at read
  · next t rest bare =>
    cases read
    obtain ⟨free, token, left⟩ := bareValue_eq_some_iff.1 bare
    rw [← run left] at token free
    refine ⟨some, run left, literal_of_runToken free.2 ?_⟩
    rwa [token]
  · next bare =>
    obtain ⟨c, w, text⟩ := List.exists_cons_of_ne_nil some
    rw [text, List.cons_append] at bare
    cases first : inRun c with
    | true =>
      have reserved := reserved_of_bareValue first bare
      rw [← List.cons_append, ← text] at reserved
      rw [scan_reserved reserved, Prod.mk.injEq, Except.ok.injEq] at read
      obtain ⟨token, left⟩ := read
      rw [← run left] at token reserved
      refine ⟨some, run left, literal_of_reserved reserved ?_⟩
      rwa [token]
    | false =>
      have solid := h.solid
      rw [text, List.cons_append, afterGap_cons_eq_iff] at solid
      have stop : c ∈ ['(', ')', ',', ';', '\'', '"', '=', '<', '>', '!'] := by
        rwa [inRun, solid.1, Bool.false_or, Bool.not_eq_false', List.contains_iff_mem] at first
      rw [Lexeme.quoted, text] at unquoted
      rw [text, List.cons_append] at read
      exact absurd hv (not_isValue_of_sign (by simp_all) read)

/-! ## Values of accepted texts -/

/-- A text is accepted, and reading it a value is taken behind the tokens `front`: on these alone
the parser fails because a value is missing. -/
def TakesValue (text : String) (front : List Token) : Prop :=
  (∃ s, parse text = .ok s) ∧
      (Parser.single.runOn front).1 = .error (.unexpectedToken .endOfInput .value) ∨
    (∃ ss, parseScript text = .ok ss) ∧
      (Parser.script.runOn front).1 = .error (.unexpectedToken .endOfInput .value)

/-- **Values are read whole.** Take any text that is accepted as a statement or as a script, and any
of its lexemes that is taken as a value and is not quoted. It was read where the lexer expects a
value, it reaches up to the next character that ends a run, and its value is the literal that the
whole run spells. -/
theorem value_read_whole {text : String} {front back : List Lexeme} {e : Lexeme}
    (h : lexemes text = .ok (front ++ e :: back))
    (taken : TakesValue text (front.map Lexeme.token)) (unquoted : e.quoted = false) :
    e.mode.value = true ∧ e.text ≠ [] ∧ e.text = (e.text ++ e.behind).takeWhile inRun ∧
      (Parser.value.runOn [e.token]).1 = .ok (literal e.text) := by
  obtain ⟨tokens, lexes⟩ := lexemes_ok h
  obtain ⟨l, mode, meets⟩ := lexes.split
  rw [List.map_append, List.map_cons] at tokens
  have ended : .endOfInput ∉ front.map Lexeme.token := by
    obtain ⟨us, hus, ended⟩ := endsOnce_tokens tokens
    have last := congrArg List.dropLast hus
    rw [List.dropLast_concat, List.dropLast_append_of_ne_nil (by simp)] at last
    rw [← last] at ended
    exact mt (List.mem_append_left _) ended
  -- the value that is taken, and the place where it is
  obtain ⟨⟨v, hv⟩, place⟩ :
      (∃ v, IsValue [e.token] v) ∧ InScript (front.map Lexeme.token) := by
    obtain ⟨⟨s, hs⟩, asked⟩ | ⟨⟨ss, hss⟩, asked⟩ := taken
    · have place := (Parser.asks_single.missing_iff ended).1 asked
      rw [parse, Parser.runText, tokens] at hs
      exact ⟨Parser.asks_single.exists_value place hs, .here place⟩
    · have place := (Parser.asks_script.missing_iff ended).1 asked
      rw [parseScript, Parser.runText, tokens] at hss
      exact ⟨Parser.asks_script.exists_value place hss, place⟩
  have value : e.mode.value = true := by
    rw [meets.mode, mode]
    exact value_of_inScript place rfl
  obtain ⟨some, whole, rfl⟩ := value_of_meets meets value unquoted hv
  have read : Parser.value.runOn ([e.token] ++ []) = (.ok (literal e.text), []) :=
    Parser.reads_value.complete hv trivial
  exact ⟨value, some, whole, congrArg Prod.fst read⟩

/-- A date is a name for the lexer, and a string for the parser. -/
theorem value_read_whole_date :
    ∃ front back : List Lexeme, ∃ e : Lexeme,
      lexemes "UPDATE t SET d = 2024-01-15" = .ok (front ++ e :: back) ∧
        TakesValue "UPDATE t SET d = 2024-01-15" (front.map Lexeme.token) ∧ e.quoted = false ∧
          e.mode.value = true ∧ e.text ≠ [] ∧ e.text = (e.text ++ e.behind).takeWhile inRun ∧
            (Parser.value.runOn [e.token]).1 = .ok (literal e.text) := by
  let front : List Lexeme := (Lexer.ofText "UPDATE t SET d = 2024-01-15").lexemes
    [.keyword .update, .name "t", .keyword .set, .name "d", .comparison .eq]
  let e : Lexeme := ⟨⟨true, false, false, false, false⟩, [' '], "2024-01-15".toList, [],
    .name "2024-01-15"⟩
  have split : lexemes "UPDATE t SET d = 2024-01-15" =
      .ok (front ++ e :: [⟨.initial, [], [], [], .endOfInput⟩]) := by
    decide +kernel
  have accepted : parse "UPDATE t SET d = 2024-01-15" =
      .ok (.update "t" [("d", .string "2024-01-15")] []) := by
    decide +kernel
  have taken : TakesValue "UPDATE t SET d = 2024-01-15" (front.map Lexeme.token) := by
    rw [Lexer.map_token_lexemes]
    exact .inl ⟨⟨_, accepted⟩, rfl⟩
  have unquoted : e.quoted = false := by decide
  exact ⟨front, _, e, split, taken, unquoted, value_read_whole split taken unquoted⟩

end Sql
end PocketSql
