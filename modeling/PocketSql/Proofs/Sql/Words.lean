import PocketSql.Proofs.Sql.Respelling
import PocketSql.Proofs.Sql.Script

/-!
# Which names can be read

Where no value is expected, the lexer reads nothing but words as names; where it expects one, a name
may be any run of characters. The names of a SELECT and the name of a table that is created stand
where no value is expected. So do the names of its columns, but for one case: an INSERT among the
arguments of a type makes the lexer take what follows VALUES for the rows of an INSERT.

## Main definitions

* `IsWord`, `IsRun` — the characters of a word, and of an unquoted value, that is no reserved keyword.
* `Named` — the names among tokens are runs, and words where no value is expected.
* `StandsIn` — a statement is read in a text.
* `Conceals` — an INSERT stands among the arguments of a type.

## Main results

* `StandsIn.names_of_create` — the names of a table that a text creates.
* `StandsIn.columns_of_select` — the columns that a text selects.
-/

namespace PocketSql
namespace Sql

open Grammar

/-! ## Words and runs -/

/-- No reserved keyword, in any letter case. -/
def Unreserved (s : String) : Prop :=
  ∀ k : Keyword, k.reserved = true → s.toList.flatMap Text.asciiUpper ≠ k.text.toList

/-- A word: a letter or an underscore, and then letters, digits and underscores. -/
structure IsWord (s : String) : Prop where
  starts : s.toList.head?.any startsWord = true
  goesOn : ∀ c ∈ s.toList, inWord c = true
  free : Unreserved s

/-- What an unquoted value may be: characters other than white space and signs that end it. -/
structure IsRun (s : String) : Prop where
  some : s.toList ≠ []
  goesOn : ∀ c ∈ s.toList, inRun c = true
  free : Unreserved s

theorem IsWord.isRun {s : String} (h : IsWord s) : IsRun s where
  some := by
    intro empty
    have starts := h.starts
    rw [empty] at starts
    cases starts
  goesOn := fun c hc => inRun_of_inWord (h.goesOn c hc)
  free := h.free

/-- A word has no dots. -/
theorem IsWord.dot_not_mem {s : String} (h : IsWord s) : '.' ∉ s.toList := by
  intro dot
  have inside := h.goesOn '.' dot
  rw [(sign_classes (by decide)).2.2] at inside
  cases inside

/-- The name that a keyword stands for is a word. -/
theorem isWord_lowerText {k : Keyword} (free : k.reserved = false) : IsWord k.lowerText where
  starts := by cases k <;> decide
  goesOn := by
    apply List.all_eq_true.1
    cases k <;> decide
  free := by
    intro k' reserved upper
    have own : k.lowerText.toList.flatMap Text.asciiUpper = k.text.toList := by
      cases k <;> decide
    have same := (ofWord?_of_upper own).symm.trans (ofWord?_of_upper upper)
    rw [Option.some.inj same, reserved] at free
    cases free

/-! ## What the lexer reads -/

theorem unreserved_of_wordToken {word : List Char} {w : String} (h : wordToken word = .name w) :
    Unreserved w := by
  intro k _ upper
  rw [← eq_of_wordToken h] at upper
  rw [wordToken, ofWord?_of_upper upper] at h
  cases h

/-- Where no value is expected, a name is a word. -/
theorem isWord_of_scan {size : Nat} {s rest : List Char} {w : String}
    (h : scan size s = (.ok (.name w), rest)) : IsWord w := by
  cases scans_of_scan h with
  | single sign => cases isSymbol_of_single sign
  | double sign => cases isSymbol_of_double sign
  | word _ _ _ first token =>
    have text := eq_of_wordToken token
    refine ⟨?_, ?_, unreserved_of_wordToken token⟩
    · rw [← text, List.takeWhile_cons_of_pos (inWord_of_startsWord first)]
      simpa using first
    · rw [← text]
      exact fun a ha => List.mem_takeWhile_imp ha

/-- Where a value is expected, a name may be any run. -/
theorem isRun_of_bareValue {s rest : List Char} {w : String}
    (h : bareValue s = some (.name w, rest)) : IsRun w := by
  obtain ⟨run, token, -⟩ := bareValue_eq_some_iff.1 h
  have text := eq_of_runToken token
  refine ⟨text ▸ run.1, ?_, ?_⟩
  · rw [← text]
    exact fun a ha => List.mem_takeWhile_imp ha
  · intro k reserved upper
    rw [← text] at upper
    rw [reservedWord_of_upper upper reserved] at run
    cases run.2

theorem name_of_readSolid {value : Bool} {size : Nat} {s rest : List Char} {w : String}
    (h : readSolid value size s = (.ok (.name w), rest)) :
    IsRun w ∧ (value = false → IsWord w) := by
  obtain ⟨rfl, bare⟩ | scan := readSolid_cases h
  · exact ⟨isRun_of_bareValue bare, nofun⟩
  · have word := isWord_of_scan scan
    exact ⟨word.isRun, fun _ => word⟩

/-- The names among tokens are runs, and words where no value is expected. -/
def Named (m : Mode) (ts : List Token) : Prop :=
  ∀ front s back, ts = front ++ .name s :: back →
    IsRun s ∧ ((m.afterAll front).value = false → IsWord s)

theorem Lexer.Lexes.named {l : Lexer} {es : List Lexeme} (h : l.Lexes es) :
    Named l.mode (es.map Lexeme.token) := by
  intro front w back split
  obtain ⟨front', es', rfl, rfl, hes'⟩ := List.map_eq_append_iff.1 split
  obtain ⟨e, back', rfl, named, -⟩ := List.map_eq_cons_iff.1 hes'
  obtain ⟨l', mode, meets⟩ := h.split
  have read := meets.read
  rw [named] at read
  rw [← mode, ← meets.mode]
  exact name_of_readSolid read

section
variable {m : Mode} {ts us : List Token}

theorem Named.left (h : Named m (ts ++ us)) : Named m ts := by
  rintro front s back rfl
  exact h front s (back ++ us) (by simp)

theorem Named.right (h : Named m (ts ++ us)) : Named (m.afterAll ts) us := by
  rintro front s back rfl
  rw [← Mode.afterAll_append]
  exact h (ts ++ front) s back (by simp)

theorem Named.tail {t : Token} (h : Named m (t :: ts)) : Named (m.after t) ts := by
  rintro front s back rfl
  exact h (t :: front) s back rfl

/-! ## Names in statements -/

theorem Named.name {s : String} (h : Named m ts) (named : IsName ts s) :
    IsRun s ∧ (m.value = false → IsWord s) := by
  cases named with
  | word => exact h [] s [] rfl
  | keyword k free =>
    have word := isWord_lowerText free
    exact ⟨word.isRun, fun _ => word⟩

theorem Named.word {s : String} (h : Named m ts) (named : IsName ts s) (value : m.value = false) :
    IsWord s :=
  (h.name named).2 value

theorem word_of_guarded {table : String} {guarded : Bool}
    (h : IsGuarded .full [.keyword .notWord, .keyword .existsWord] ts (table, guarded))
    (named : Named m ts) (value : m.value = false) : IsWord table := by
  cases h with
  | bare h => exact named.word h value
  | guarded h => exact named.tail.tail.tail.word h rfl

theorem name_foldl_add (d : ColumnDef) (constraints : List Constraint) :
    (constraints.foldl Constraint.add d).name = d.name := by
  refine List.foldlRecOn constraints Constraint.add (motive := fun d' => d'.name = d.name) rfl ?_
  intro d' same constraint _
  cases constraint <;> exact same

theorem Named.columnDef {d : ColumnDef} (h : Named m ts) (declared : IsColumnDef .full ts d) :
    IsRun d.name ∧ (m.value = false → IsWord d.name) := by
  obtain ⟨named, _, _⟩ := declared
  rw [name_foldl_add]
  exact h.left.name named

/-- The declared columns have runs for names, and words if the lexer has read no INSERT. -/
theorem Named.columnDefs {ds : List ColumnDef}
    (declared : IsList .comma (IsColumnDef .full) ts ds) (h : Named m ts) :
    (∀ d ∈ ds, IsRun d.name) ∧
      (m.value = false → m.OutsideInsert → .keyword .insert ∉ ts → ∀ d ∈ ds, IsWord d.name) := by
  induction declared generalizing m with
  | one declared =>
    have column := h.columnDef declared
    simp only [List.forall_mem_singleton]
    exact ⟨column.1, fun value _ _ => column.2 value⟩
  | more declared _ ih =>
    obtain ⟨run, word⟩ := h.left.columnDef declared
    obtain ⟨runs, words⟩ := ih h.right.tail
    simp only [List.forall_mem_cons]
    refine ⟨⟨run, runs⟩, fun value outside other => ?_⟩
    simp only [List.mem_append, List.mem_cons, not_or] at other
    have outside' := outside.afterAll other.1
    exact ⟨word value, words outside'.2 (outside'.after (by simp)) other.2.2⟩

/-- The names of a table that is created. -/
theorem names_of_createTable {table : String} {ifNotExists : Bool} {columns : List ColumnDef}
    (h : IsStatement .full ts (.createTable table ifNotExists columns))
    (named : Named .initial ts) :
    IsWord table ∧
      ∀ d ∈ columns, IsRun d.name ∧ (.keyword .insert ∉ ts → IsWord d.name) := by
  cases h with
  | @createTable ns us _ _ _ guarded declared =>
    obtain ⟨declared⟩ := declared
    have behind := named.tail.tail
    obtain ⟨runs, words⟩ := behind.right.left.tail.columnDefs declared
    refine ⟨word_of_guarded guarded behind.left rfl, fun d hd => ⟨runs d hd, fun other => ?_⟩⟩
    simp only [List.mem_cons, List.mem_append, not_or] at other
    have start : (Mode.initial.after (.keyword .create)).OutsideInsert := ⟨rfl, rfl⟩
    have outside := (start.after (t := .keyword .table) (by simp)).afterAll other.2.2.1
    exact words outside.2 (outside.after (by simp)) other.2.2.2.1.2 d hd

/-! ## An INSERT in a declaration -/

/-- A token stands among the arguments of a type: behind a word and an opening parenthesis, in front
of the next closing one. -/
def InArguments (t : Token) (ts : List Token) : Prop :=
  ∃ front word args back,
    ts = front ++ .name word :: .openParen :: (args ++ .closeParen :: back) ∧
      t ∈ args ∧ .closeParen ∉ args

theorem InArguments.mono {t : Token} (h : InArguments t ts) (inside : ts <:+: us) :
    InArguments t us := by
  obtain ⟨front, word, args, back, rfl, mem, closed⟩ := h
  obtain ⟨before, behind, rfl⟩ := inside
  exact ⟨before ++ front, word, args, back ++ behind, by simp, mem, closed⟩

/-- If there is an INSERT at all, one stands among the arguments of a type. -/
def Hides (ts : List Token) : Prop :=
  .keyword .insert ∈ ts → InArguments (.keyword .insert) ts

namespace Hides

theorem of_not_mem (h : .keyword .insert ∉ ts) : Hides ts := fun mem => absurd mem h

theorem append (h : Hides ts) (h' : Hides us) : Hides (ts ++ us) := by
  intro mem
  obtain mem | mem := List.mem_append.1 mem
  · exact (h mem).mono (List.prefix_append ts us).isInfix
  · exact (h' mem).mono (List.suffix_append ts us).isInfix

theorem cons {t : Token} (h : Hides ts) (other : t ≠ .keyword .insert) : Hides (t :: ts) := by
  have alone : Hides [t] := of_not_mem (by simpa [eq_comm] using other)
  exact alone.append h

section
variable {α : Type} {item : List Token → α → Prop} (items : ∀ {ts a}, item ts a → Hides ts)
include items

theorem sequence {as : List α} (h : IsSequence item ts as) : Hides ts := by
  induction h with
  | nil => exact of_not_mem (by simp)
  | cons h _ ih => exact (items h).append ih

theorem list {as : List α} (h : IsList .comma item ts as) : Hides ts := by
  induction h with
  | one h => exact items h
  | more h _ ih => exact (items h).append (ih.cons (by simp))

end

theorem typeWord {word : String} (h : IsTypeWord ts word) : Hides ts := by
  cases h with
  | bare => exact of_not_mem (by simp)
  | withArguments word closed _ =>
    intro mem
    exact ⟨[], word, _, [], rfl, by simpa using mem, closed⟩

theorem columnDef {d : ColumnDef} (h : IsColumnDef .full ts d) : Hides ts := by
  obtain ⟨named, ⟨words, _⟩, constrained⟩ := h
  refine append (of_not_mem (not_mem_name named rfl)) (append (sequence typeWord words) ?_)
  apply sequence _ constrained
  intro ts constraint h
  refine of_not_mem ?_
  cases h with
  | default h => cases h <;> simp
  | _ => simp

theorem createTable {table : String} {ifNotExists : Bool} {columns : List ColumnDef}
    (h : IsStatement .full ts (.createTable table ifNotExists columns)) : Hides ts := by
  cases h with
  | createTable guarded declared =>
    obtain ⟨declared⟩ := declared
    have closing : Hides [.closeParen] := of_not_mem (by simp)
    have columns := ((list columnDef declared).cons (t := .openParen) (by simp)).append closing
    refine ((append (of_not_mem ?_) columns).cons (by simp)).cons (by simp)
    cases guarded with
    | bare h => exact not_mem_name h rfl
    | guarded h =>
      have name := not_mem_name (t := .keyword .insert) h rfl
      simp [name]

end Hides

/-! ## Columns of a selection -/

/-- A word, or two of them with a dot between. -/
def OfWords (reference : String) : Prop :=
  IsWord reference ∨ ∃ table column, IsWord table ∧ IsWord column ∧
    reference = table ++ "." ++ column

theorem Named.reference {r : String} (h : Named m ts) (referred : IsReference .full ts r)
    (value : m.value = false) : OfWords r := by
  cases referred with
  | plain named => exact .inl (h.word named value)
  | qualified pair =>
    obtain ⟨first, second⟩ := pair
    exact .inr ⟨_, _, h.left.word first value, h.right.tail.word second rfl, rfl⟩

theorem Named.references {rs : List String} (listed : IsList .comma (IsReference .full) ts rs)
    (h : Named m ts) (value : m.value = false) (outside : m.OutsideInsert) :
    ∀ r ∈ rs, OfWords r := by
  induction listed generalizing m with
  | one referred =>
    simp only [List.forall_mem_singleton]
    exact h.reference referred value
  | more referred _ ih =>
    have outside' := outside.afterAll (not_mem_reference referred rfl (by simp))
    rw [List.forall_mem_cons]
    exact ⟨h.left.reference referred value,
      ih h.right.tail outside'.2 (outside'.after (by simp))⟩

/-- The columns of a SELECT are references, unless they are all. -/
theorem columns_of_select {columns : List String} {table : String} {join : Option JoinClause}
    {conditions : List Condition}
    (h : IsStatement .full ts (.select columns table join conditions))
    (named : Named .initial ts) : columns = ["*"] ∨ ∀ r ∈ columns, OfWords r := by
  cases h with
  | select selected _ _ _ =>
    cases selected with
    | all => exact .inl rfl
    | columns listed =>
      exact .inr (named.tail.left.references listed rfl ⟨rfl, rfl⟩)

end

/-! ## Texts -/

/-- A statement is read in a text: its tokens stand there, and the lexer is at the start of them as
it is at the start of a text. -/
def StandsIn (s : Statement) (text : String) : Prop :=
  ∃ ts body, tokenize text = .ok ts ∧ body <:+: ts ∧ IsStatement .full body s ∧
    Named .initial body

/-- An INSERT stands among the arguments of a type. -/
def Conceals (text : String) : Prop :=
  ∃ ts, tokenize text = .ok ts ∧ InArguments (.keyword .insert) ts

theorem named_tokens {text : String} {ts : List Token} (h : tokenize text = .ok ts) :
    Named .initial ts := by
  have named := (Lexer.lexes_lexemes h).named
  rwa [Lexer.map_token_lexemes] at named

/-- A text that is a statement has that statement in it. -/
theorem standsIn_of_parse {text : String} {s : Statement} (h : parse text = .ok s) :
    StandsIn s text := by
  cases tokens : tokenize text with
  | error e =>
    rw [parse, Parser.runText, tokens] at h
    cases h
  | ok ts =>
    obtain ⟨body, query⟩ := (parse_ok_iff tokens).1 h
    have named := named_tokens tokens
    cases query with
    | bare statement =>
      exact ⟨_, body, tokens, (List.prefix_append body _).isInfix, statement, named.left⟩
    | ended statement =>
      exact ⟨_, body, tokens, (List.prefix_append body _).isInfix, statement, named.left⟩

/-- Each statement of a script starts where the lexer has nothing in mind. -/
theorem exists_named_of_isScript {ts : List Token} {ss : List Statement} (h : IsScript ts ss)
    (named : Named .initial ts) {s : Statement} (hs : s ∈ ss) :
    ∃ body, body <:+: ts ∧ IsStatement .full body s ∧ Named .initial body := by
  induction h with
  | empty => cases hs
  | skip _ ih =>
    obtain ⟨body, inside, statement⟩ := ih named.tail hs
    exact ⟨body, inside.trans (List.suffix_cons _ _).isInfix, statement⟩
  | @last ts s' h =>
    rw [List.mem_singleton] at hs
    exact ⟨ts, List.infix_rfl, hs ▸ h, named⟩
  | @more ts us s' ss h _ ih =>
    obtain rfl | hs := List.mem_cons.1 hs
    · exact ⟨ts, (List.prefix_append ts _).isInfix, h, named.left⟩
    · obtain ⟨body, inside, statement⟩ := ih named.right.tail hs
      have behind : us <:+: ts ++ .semicolon :: us :=
        (List.suffix_append_of_suffix (List.suffix_cons _ _)).isInfix
      exact ⟨body, inside.trans behind, statement⟩

/-- A text that is a script has its statements in it. -/
theorem standsIn_of_parseScript {text : String} {ss : List Statement}
    (h : parseScript text = .ok ss) {s : Statement} (hs : s ∈ ss) : StandsIn s text := by
  obtain ⟨ts, tokens⟩ := exists_tokens_of_parseScript h
  obtain ⟨body, inside, statement⟩ :=
    exists_named_of_isScript ((parseScript_ok_iff tokens).1 h) (named_tokens tokens).left hs
  exact ⟨_, body, tokens, inside.trans (List.prefix_append ts _).isInfix, statement⟩

namespace StandsIn

variable {text : String}

/-- **The names of a table that a text creates.** The table has a word for a name. So do the
columns, unless an INSERT stands among the arguments of a type; then their names are runs. -/
theorem names_of_create {table : String} {ifNotExists : Bool} {columns : List ColumnDef}
    (h : StandsIn (.createTable table ifNotExists columns) text) :
    IsWord table ∧ ∀ d ∈ columns, IsRun d.name ∧ (¬ Conceals text → IsWord d.name) := by
  obtain ⟨ts, body, tokens, inside, statement, named⟩ := h
  obtain ⟨word, names⟩ := names_of_createTable statement named
  refine ⟨word, fun d hd => ⟨(names d hd).1, fun open_ => (names d hd).2 fun mem => ?_⟩⟩
  exact open_ ⟨ts, tokens, (Hides.createTable statement mem).mono inside⟩

/-- **The columns that a text selects** are all of them, or references. -/
theorem columns_of_select {columns : List String} {table : String} {join : Option JoinClause}
    {conditions : List Condition} (h : StandsIn (.select columns table join conditions) text) :
    columns = ["*"] ∨ ∀ r ∈ columns, OfWords r := by
  obtain ⟨ts, body, -, -, statement, named⟩ := h
  exact Sql.columns_of_select statement named

end StandsIn

end Sql
end PocketSql
