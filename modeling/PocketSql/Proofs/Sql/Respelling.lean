import PocketSql.Proofs.Sql.Continuation
import PocketSql.Proofs.Sql.Places
import PocketSql.Proofs.Sql.Recognition
import PocketSql.Proofs.Sql.Renaming

/-!
# Texts with keywords in the place of names

A word that is nothing but a name in a text can be replaced by a keyword that is not reserved, in
any letter case. The lexer then finds the keyword wherever it found the word, and the parser takes
it for a name. Only a keyword that tells the lexer that a value follows may disturb what stands
behind it.

## Main definitions

* `respelled` — the text with spellings of the keyword in the place of the word.
* `Undisturbed` — no value that the lexer expects makes something else of what stands in the text.
* `Replaces` — a text comes from an accepted one by such a replacement.

## Main results

* `Lexer.Lexes.undisturbed_of_ne` — only `DEFAULT` and `VALUES` disturb what stands behind them.
* `Lexer.Lexes.tokens_respelled` — the tokens may stand where those with the keyword for the word
  are meant.
* `parse_respelled` — the statement is the same one but for its names.
* `misread_keywords` — what is left out there is read as something else.
-/

namespace PocketSql
namespace Sql

open Grammar

variable {x : String} {k : Keyword}

/-! ## Words in a text -/

theorem eq_of_wordToken {word : List Char} {w : String} (h : wordToken word = .name w) :
    word = w.toList := by
  unfold wordToken at h
  split at h
  · cases h
  · cases h
    rw [String.toList_ofList]

theorem eq_of_runToken {run : List Char} {w : String} (h : runToken run = .name w) :
    run = w.toList := by
  unfold runToken at h
  split at h
  · cases h
  · cases h
    rw [String.toList_ofList]

/-- Where no value is expected, a word goes on up to the first character that is no part of one. -/
theorem word_of_scan {size : Nat} {s rest : List Char} {w : String}
    (h : scan size s = (.ok (.name w), rest)) :
    s.takeWhile inWord = w.toList ∧ s.dropWhile inWord = rest := by
  cases scans_of_scan h with
  | single sign => cases isSymbol_of_single sign
  | double sign => cases isSymbol_of_double sign
  | word _ _ _ _ token left => exact ⟨eq_of_wordToken token, left⟩

/-- A word has the characters of its name, whether or not a value is expected. -/
theorem text_of_readSolid {value : Bool} {size : Nat} {text behind : List Char} {w : String}
    (h : readSolid value size (text ++ behind) = (.ok (.name w), behind)) : text = w.toList := by
  have whole {p : Char → Bool} (word : (text ++ behind).takeWhile p = w.toList)
      (left : (text ++ behind).dropWhile p = behind) : text = w.toList := by
    rw [← word, takeWhile_of_dropWhile left]
  obtain ⟨-, bare⟩ | scan := readSolid_cases h
  · obtain ⟨-, token, left⟩ := bareValue_eq_some_iff.1 bare
    exact whole (eq_of_runToken token) left
  · obtain ⟨word, left⟩ := word_of_scan scan
    exact whole word left

/-- Where no value is expected, names have no dots. -/
theorem Lexer.Meets.value_of_dot {l : Lexer} {e : Lexeme} {w : String} (h : l.Meets e)
    (named : e.token = .name w) (dot : '.' ∈ w.toList) : e.mode.value = true := by
  have read := h.read
  rw [named] at read
  by_contra value
  rw [Bool.not_eq_true] at value
  rw [value] at read
  obtain ⟨word, -⟩ := word_of_scan read
  rw [← word] at dot
  have inside := List.mem_takeWhile_imp dot
  rw [(sign_classes (by decide)).2.2] at inside
  cases inside

/-- Names with a dot are read only where a value is expected. -/
theorem Lexer.Lexes.dotsInValues {l : Lexer} {es : List Lexeme} (h : l.Lexes es) :
    DotsInValues l.mode (es.map Lexeme.token) := by
  intro front w back split dot
  obtain ⟨front', es', rfl, rfl, hes'⟩ := List.map_eq_append_iff.1 split
  obtain ⟨e, back', rfl, named, -⟩ := List.map_eq_cons_iff.1 hes'
  obtain ⟨l', mode, meets⟩ := h.split
  rw [← mode, ← meets.mode]
  exact meets.value_of_dot named dot

/-! ## Replacing a word -/

/-- The characters in the place of those of a lexeme: a spelling of the keyword in the place of the
word. -/
def Lexeme.spelled (x : String) (spelling : Lexeme → List Char) (e : Lexeme) : List Char :=
  if e.token = .name x then spelling e else e.text

/-- A text with spellings of the keyword in the place of the word. Each time it may be another one,
as no two lexemes of a text are the same. -/
def respelled (x : String) (spelling : Lexeme → List Char) (es : List Lexeme) : List Char :=
  es.flatMap fun e => e.gap ++ e.spelled x spelling

theorem respelled_cons (x : String) (spelling : Lexeme → List Char) (e : Lexeme)
    (es : List Lexeme) :
    respelled x spelling (e :: es) =
      e.gap ++ (e.spelled x spelling ++ respelled x spelling es) := by
  simp [respelled]

/-- Each lexeme is read again from the characters that stand for it, no less and no more of them, as
a token that may stand where the one with the keyword for the word is meant: as that token, as the
name that the keyword stands for at the start of an item of a list, or among the arguments of a type
as a token with its text. -/
def Undisturbed (x : String) (k : Keyword) (spelling : Lexeme → List Char) :
    Mode → Place → List Lexeme → Prop
  | _, _, [] => True
  | m, p, e :: es =>
    ∃ t, readSolid m.value 0 (e.spelled x spelling ++ e.behind) = (.ok t, e.behind) ∧
      p.Allows (respell x k e.token) t ∧
        Undisturbed x k spelling (m.after t) (p.after (respell x k e.token)) es

instance Undisturbed.decidable (x : String) (k : Keyword) (spelling : Lexeme → List Char) :
    (m : Mode) → (p : Place) → (es : List Lexeme) → Decidable (Undisturbed x k spelling m p es)
  | _, _, [] => isTrue trivial
  | m, p, e :: es =>
    match read : readSolid m.value 0 (e.spelled x spelling ++ e.behind) with
    | (.error _, _) => isFalse fun ⟨_, h, _⟩ => by rw [read] at h; cases h
    | (.ok t, rest) =>
      have := decidable x k spelling (m.after t) (p.after (respell x k e.token)) es
      decidable_of_iff (rest = e.behind ∧ p.Allows (respell x k e.token) t ∧
          Undisturbed x k spelling (m.after t) (p.after (respell x k e.token)) es)
        ⟨fun ⟨h, h'⟩ => ⟨t, h ▸ read, h'⟩, fun ⟨_, h, h'⟩ => by
          rw [read] at h
          cases h
          exact ⟨rfl, h'⟩⟩

/-! ## Reading what stands for a lexeme -/

/-- Behind other keywords that are names, the lexer expects what it expects behind the word. -/
theorem Mode.after_respell (free : k.reserved = false) (default : k ≠ .default)
    (values : k ≠ .values) (m : Mode) (t : Token) : m.after (respell x k t) = m.after t := by
  by_cases named : t = .name x
  · rw [respell, if_pos named, named]
    cases k <;> first | rfl | contradiction
  · rw [respell, if_neg named]

namespace Lexer

variable {l : Lexer} {e : Lexeme} {es : List Lexeme} {spelling : Lexeme → List Char}

/-- Where a lexeme is read does not matter. -/
theorem Meets.read_zero (h : l.Meets e) :
    readSolid e.mode.value 0 (e.text ++ e.behind) = (.ok e.token, e.behind) := by
  by_cases last : e.token = .endOfInput
  · rw [(h.nil_of_last last).1, (h.nil_of_last last).2, last]
    exact readSolid_nil _ _
  · exact readSolid_alike (h.text_ne_nil last) h.read (.refl _)

/-- Where no value is expected, the keyword is read in the place of the word. -/
theorem Meets.read_keyword (h : l.Meets e) (named : e.token = .name x)
    (value : e.mode.value = false) {w : List Char}
    (letters : w.map Char.toUpper = k.text.toList) :
    readSolid false 0 (w ++ e.behind) = (.ok (.keyword k), e.behind) := by
  have read := h.read
  rw [named, value] at read
  obtain ⟨-, left⟩ := word_of_scan read
  -- the word was read up to its end
  have ends : ∀ a, e.behind.head? = some a → inWord a = false := by
    intro a first
    have stops := List.head?_dropWhile_not inWord (e.text ++ e.behind)
    rwa [left, first] at stops
  obtain ⟨c, s, rfl, hc, hs⟩ := word_of_letters letters
  have token : wordToken (c :: s) = .keyword k := by
    rw [wordToken, ofWord?_of_letters letters]
  rw [← token]
  exact scan_word hc hs ends

/-- What stands for a lexeme is read as the keyword in the place of the word and as the same token
elsewhere, if no value is expected in front of the word. -/
theorem Meets.read_respelled (h : l.Meets e)
    (letters : ∀ e, (spelling e).map Char.toUpper = k.text.toList)
    (apart : e.token = .name x → e.mode.value = false) :
    readSolid l.mode.value 0 (e.spelled x spelling ++ e.behind) =
      (.ok (respell x k e.token), e.behind) := by
  rw [← h.mode, Lexeme.spelled, respell]
  by_cases named : e.token = .name x
  · rw [if_pos named, if_pos named, apart named]
    exact h.read_keyword named (apart named) (letters e)
  · rw [if_neg named, if_neg named]
    exact h.read_zero

/-- **Most keywords disturb nothing.** Only `DEFAULT` and `VALUES` can disturb what stands behind
them, and the other ones are read as they should where the lexer expected no value. -/
theorem Lexes.undisturbed_of_ne (h : l.Lexes es) (free : k.reserved = false)
    (default : k ≠ .default) (values : k ≠ .values)
    (letters : ∀ e, (spelling e).map Char.toUpper = k.text.toList)
    (apart : ∀ e ∈ es, e.token = .name x → e.mode.value = false) (p : Place) :
    Undisturbed x k spelling l.mode p es := by
  induction h generalizing p with
  | @last l e h last =>
    exact ⟨_, h.read_respelled letters (apart e (by simp)), .refl _ _, trivial⟩
  | @more l e es h more tail ih =>
    refine ⟨_, h.read_respelled letters (apart e (by simp)), .refl _ _, ?_⟩
    rw [Mode.after_respell free default values]
    exact ih (fun e' he' => apart e' (List.mem_cons_of_mem e he')) _

/-- What stands for a lexeme is where a token starts. -/
theorem Meets.solid_spelled (h : l.Meets e)
    (letters : ∀ e, (spelling e).map Char.toUpper = k.text.toList) (more : e.token ≠ .endOfInput)
    {rest : List Char} (like : Alike e.behind rest) :
    e.spelled x spelling ≠ [] ∧
      afterGap .blank (e.spelled x spelling ++ rest) = e.spelled x spelling ++ rest := by
  rw [Lexeme.spelled]
  split
  · obtain ⟨c, s, spelled, -⟩ := word_of_letters (letters e)
    exact ⟨by simp [spelled], afterGap_spelled (.keyword k (letters e)) rest⟩
  · exact ⟨h.text_ne_nil more, solid_alike (h.text_ne_nil more) h.solid like⟩

/-- The end of the input is read behind the last gap. -/
theorem Meets.tokens_gap (h : l.Meets e) (size : Nat) (m : Mode) :
    (Lexer.mk size e.gap m).tokens = .ok [.endOfInput] := by
  have read : (Lexer.mk size e.gap m).read = (.ok .endOfInput, []) := by
    rw [read_eq, h.afterGap_gap]
    exact readSolid_nil m.value size
  have next : (Lexer.mk size e.gap m).next =
      (.ok .endOfInput, ⟨size, [], m.after .endOfInput⟩) := by
    simp only [next, read]
  exact tokens_last next

section
variable (h : l.Lexes es) (plain : PlainWord x)
  (letters : ∀ e, (spelling e).map Char.toUpper = k.text.toList)
include h plain letters

/-- The text goes on alike from every place on. -/
theorem Lexes.alike : Alike l.rest (respelled x spelling es) := by
  induction h with
  | @last l e h last =>
    obtain ⟨text, behind⟩ := h.nil_of_last last
    rw [h.rest, text, behind]
    simpa [respelled, Lexeme.spelled, last, text] using Alike.refl e.gap
  | @more l e es h more tail ih =>
    rw [h.rest, respelled_cons]
    refine Alike.append e.gap ?_
    by_cases named : e.token = .name x
    · have read := h.read
      rw [named] at read
      obtain ⟨c, s, text, hc, -⟩ := plain
      obtain ⟨d, t, spelled, hd, -⟩ := word_of_letters (letters e)
      rw [Lexeme.spelled, if_pos named, text_of_readSolid read, text, spelled]
      exact .word _ _ hc hd
    · rw [Lexeme.spelled, if_neg named]
      exact Alike.append e.text ih

/-- **The tokens are those that are read again**, each of which may stand where the one with the
keyword for the word is meant. -/
theorem Lexes.tokens_respelled {m : Mode} {p : Place} (calm : Undisturbed x k spelling m p es)
    (size : Nat) :
    ∃ ts, (Lexer.mk size (respelled x spelling es) m).tokens = .ok ts ∧
      Agrees p ((es.map Lexeme.token).map (respell x k)) ts := by
  induction h generalizing m p with
  | @last l e h last =>
    obtain ⟨t, read, allowed, -⟩ := calm
    have own : e.spelled x spelling = e.text := if_neg (by simp [last])
    obtain ⟨text, behind⟩ := h.nil_of_last last
    rw [own, text, behind, List.append_nil, readSolid_nil] at read
    cases read
    refine ⟨[.endOfInput], ?_, .cons allowed (.nil _)⟩
    simpa [respelled, own, text] using h.tokens_gap size m
  | @more l e es h more tail ih =>
    obtain ⟨t, read, allowed, later⟩ := calm
    obtain ⟨ts, tokens, agrees⟩ := ih later
    have like : Alike e.behind (respelled x spelling es) := tail.alike plain letters
    obtain ⟨some, solid⟩ := h.solid_spelled letters more like
    have other : t ≠ .endOfInput := by
      rintro rfl
      exact some (List.append_eq_nil_iff.1 (eq_nil_of_readSolid read)).1
    obtain ⟨g, closed, blank⟩ := h.gap
    rw [blank more] at closed
    have next := @next_of_readSolid size _ _ _ _ _ closed solid (readSolid_alike some read like)
    refine ⟨t :: ts, ?_, .cons allowed agrees⟩
    rw [respelled_cons, tokens_more next other, tokens]
    rfl

end

end Lexer

/-! ## Statements -/

/-- The tokens are those of a statement, in which a word is nothing but a name. -/
def NamesOnly (x : String) (s : Statement) (ts : List Token) : Prop :=
  ∃ body, IsStatement (.sparing x) body s ∧
    (ts = body ++ [.endOfInput] ∨ ts = body ++ [.semicolon, .endOfInput])

theorem NamesOnly.isQuery {s : Statement} {ts : List Token} (h : NamesOnly x s ts) :
    ∃ body, IsQuery s body ts := by
  obtain ⟨body, statement, ended⟩ := h
  have full : IsStatement .full body s := by
    simpa using statement.embed embeds_sparing
  obtain rfl | rfl := ended
  · exact ⟨body, .bare full⟩
  · exact ⟨body, .ended full⟩

/-- One text is a statement in which a plain word is nothing but a name, and the other one has
spellings of a keyword that is not reserved in the place of that word. -/
structure Replaces (x : String) (k : Keyword) (spelling : Lexeme → List Char)
    (text text' : String) (s : Statement) (es : List Lexeme) : Prop where
  plain : PlainWord x
  free : k.reserved = false
  letters : ∀ e, (spelling e).map Char.toUpper = k.text.toList
  lexemes : lexemes text = .ok es
  names : NamesOnly x s (es.map Lexeme.token)
  spelled : text'.toList = respelled x spelling es

/-- The lexer may come to expect a value in the place of a name: it does so behind `DEFAULT` and
`VALUES`, and where it reads the word itself it may have come to do so before. -/
def MayDisturb (x : String) (k : Keyword) (es : List Lexeme) : Prop :=
  k = .default ∨ k = .values ∨ ∃ e ∈ es, e.token = .name x ∧ e.mode.value = true

section
variable {spelling : Lexeme → List Char} {text text' : String} {s : Statement} {es : List Lexeme}

/-- Only the keywords behind which values are expected, and values in the place of the word itself,
disturb the text. -/
theorem Replaces.undisturbed (h : Replaces x k spelling text text' s es)
    (calm : MayDisturb x k es → Undisturbed x k spelling .initial .outside es) :
    Undisturbed x k spelling .initial .outside es := by
  by_cases disturbs : MayDisturb x k es
  · exact calm disturbs
  · obtain ⟨default, values, apart⟩ : k ≠ .default ∧ k ≠ .values ∧
        ∀ e ∈ es, e.token = .name x → e.mode.value = false := by
      simpa [MayDisturb] using disturbs
    exact (lexemes_ok h.lexemes).2.undisturbed_of_ne h.free default values h.letters apart _

/-- **Keywords that are not reserved are names.** Take a text that is a statement, and a word that
is nothing but a name in it. The text with a keyword in the place of the word is the same statement
with the keyword in lower case as that name. This leaves out `IF` where it guards a table and a join
whose two tables become one. For `DEFAULT`, for `VALUES` and for a word that is itself read as a
value would be, it also leaves out the texts in which the value that the lexer expects makes another
token of one. Then only a keyword at the start of an item of a list may become the name that it
stands for, and a token among the arguments of a type one with the same text. -/
theorem parse_respelled (h : Replaces x k spelling text text' s es)
    (unguarded : ¬ BecomesGuard x k (es.map Lexeme.token))
    (kept : ¬ TurnsStatement (rename x k) s (es.map Lexeme.token))
    (calm : MayDisturb x k es → Undisturbed x k spelling .initial .outside es) :
    parse text = .ok s ∧ parse text' = .ok (mapNames (rename x k) s) := by
  have undisturbed := h.undisturbed calm
  obtain ⟨plain, free, letters, lexed, names, spelled⟩ := h
  obtain ⟨tokens, lexes⟩ := lexemes_ok lexed
  obtain ⟨ts, tokens', agrees⟩ := lexes.tokens_respelled plain letters undisturbed text'.length
  rw [← spelled] at tokens'
  refine ⟨(parse_ok_iff tokens).2 names.isQuery, (parse_ok_iff tokens').2 ?_⟩
  obtain ⟨body, statement, ended⟩ := names
  -- only the tokens of the statement may become other ones, not those behind it
  have renamed {back : List Token} (split : es.map Lexeme.token = body ++ back)
      (same : back.map (respell x k) = back) (plainly : .openParen ∉ back) :
      ∃ body', ts = body' ++ back ∧ IsStatement .full body' (mapNames (rename x k) s) := by
    have dots := lexes.dotsInValues
    rw [split] at unguarded kept dots
    rw [split, List.map_append, same] at agrees
    obtain ⟨body', back', rfl, statement', behind⟩ := keeps_statement.split
      (statement.renamed plain free (mt (BecomesGuard.append back) unguarded)
        (mt (TurnsStatement.append back) kept) dots.left) agrees
    exact ⟨body', by rw [behind.eq_of_outside plainly], statement'⟩
  obtain split | split := ended
  · obtain ⟨body', rfl, statement'⟩ := renamed split rfl (by simp)
    exact ⟨_, .bare statement'⟩
  · obtain ⟨body', rfl, statement'⟩ := renamed split rfl (by simp)
    exact ⟨_, .ended statement'⟩

end

/-! ## Replacements in single texts -/

theorem Replaces.of_tokens {text text' : String} {s : Statement} {ts : List Token}
    {spelling : Lexeme → List Char} (plain : PlainWord x) (free : k.reserved = false)
    (letters : ∀ e, (spelling e).map Char.toUpper = k.text.toList) (names : NamesOnly x s ts)
    (read : tokenize text = .ok ts ∧
      text'.toList = respelled x spelling ((Lexer.ofText text).lexemes ts)) :
    Replaces x k spelling text text' s ((Lexer.ofText text).lexemes ts) where
  plain := plain
  free := free
  letters := letters
  lexemes := by
    rw [Sql.lexemes, read.1]
    rfl
  names := by rwa [Lexer.map_token_lexemes]
  spelled := read.2

theorem plainWord_x : PlainWord "x" := ⟨'x', [], rfl, by decide +kernel, by simp, by decide⟩

/-- `VALUES` as a table and as a column. The name behind that column is read as a value would be. -/
theorem parse_respelled_values :
    let row : List Value := [.number ⟨0x3FF0000000000000⟩, .number ⟨0x4000000000000000⟩]
    ∃ (spelling : Lexeme → List Char) (es : List Lexeme),
      Replaces "x" .values spelling "INSERT INTO x (x, key) VALUES (1, 2)"
        "INSERT INTO Values (VALUES, key) VALUES (1, 2)"
        (.insert "x" (some ["x", "key"]) [row]) es ∧
      MayDisturb "x" .values es ∧
      Undisturbed "x" .values spelling .initial .outside es ∧
      parse "INSERT INTO x (x, key) VALUES (1, 2)" =
        .ok (.insert "x" (some ["x", "key"]) [row]) ∧
      parse "INSERT INTO Values (VALUES, key) VALUES (1, 2)" =
        .ok (.insert "values" (some ["values", "key"]) [row]) := by
  intro row
  let spelling (e : Lexeme) : List Char :=
    if e.behind.head? = some ',' then "VALUES".toList else "Values".toList
  let body : List Token := [.keyword .insert, .keyword .into, .name "x", .openParen, .name "x",
    .comma, .keyword .key, .closeParen, .keyword .values, .openParen,
    .number ⟨0x3FF0000000000000⟩, .comma, .number ⟨0x4000000000000000⟩, .closeParen]
  let es : List Lexeme :=
    (Lexer.ofText "INSERT INTO x (x, key) VALUES (1, 2)").lexemes (body ++ [.endOfInput])
  have letters (e : Lexeme) : (spelling e).map Char.toUpper = Keyword.values.text.toList := by
    simp only [spelling]
    split <;> decide
  have statement : IsStatement (.sparing "x") body
      (.insert "x" (some ["x", "key"]) [row]) := by
    have table : Lexicon.name (.sparing "x") [.name "x"] "x" := IsName.word "x"
    have key : Lexicon.name (.sparing "x") [.keyword .key] "key" := IsName.keyword .key rfl
    have columns : IsTuple (Lexicon.name (.sparing "x")) _ ["x", "key"] :=
      .mk (.more table (.one key))
    have number (n : Number) : Lexicon.value (.sparing "x") [.number n] (.number n) :=
      ⟨.number n, by simp⟩
    have values : IsTuple (Lexicon.value (.sparing "x")) _ row :=
      .mk (.more (number _) (.one (number _)))
    exact .insert table (.columns columns) (.one values)
  have replaces : Replaces "x" .values spelling "INSERT INTO x (x, key) VALUES (1, 2)"
      "INSERT INTO Values (VALUES, key) VALUES (1, 2)" _ es :=
    .of_tokens plainWord_x rfl letters ⟨body, statement, .inl rfl⟩ (by decide +kernel)
  have unguarded : ¬ BecomesGuard "x" .values (es.map Lexeme.token) := by
    rintro ⟨⟨⟩, -⟩
  have kept : ¬ TurnsStatement (rename "x" .values)
      (.insert "x" (some ["x", "key"]) [row]) (es.map Lexeme.token) := by
    rintro ⟨_, _, _, _, ⟨⟩, -⟩
  have calm : Undisturbed "x" .values spelling .initial .outside es := by decide +kernel
  exact ⟨spelling, es, replaces, .inr (.inl rfl), calm,
    parse_respelled replaces unguarded kept fun _ => calm⟩

/-- A text that a replacement makes something else than the statement with its names changed. -/
def Misread (x : String) (k : Keyword) (text text' : String) (s : Statement) : Prop :=
  (∃ spelling es, Replaces x k spelling text text' s es) ∧
    parse text' ≠ .ok (mapNames (rename x k) s)

theorem Misread.of_tokens {text text' : String} {s : Statement} {body : List Token} (w : String)
    (plain : PlainWord x) (free : k.reserved = false)
    (letters : w.toList.map Char.toUpper = k.text.toList)
    (statement : IsStatement (.sparing x) body s)
    (read : (tokenize text = .ok (body ++ [.endOfInput]) ∧
        text'.toList =
          respelled x (fun _ => w.toList) ((Lexer.ofText text).lexemes (body ++ [.endOfInput]))) ∧
      parse text' ≠ .ok (mapNames (rename x k) s)) : Misread x k text text' s := by
  have replaces := Replaces.of_tokens plain free (fun _ => letters) ⟨body, statement, .inl rfl⟩
    read.1
  exact ⟨⟨_, _, replaces⟩, read.2⟩

/-- What is left out is read as something else. The value that the lexer expects behind `DEFAULT`,
and those that it expects in parentheses behind a column called `VALUES` or behind the words
`INSERT VALUES` among the arguments of a type, make something else of what follows. `IF` guards the
table where it may do so, and where the two tables of a join become one, the first column is the
left one. -/
theorem misread_keywords :
    Misread "x" .default "UPDATE x SET a = NULL" "UPDATE DEFAULT SET a = NULL"
        (.update "x" [("a", .null)] []) ∧
      Misread "x" .key "INSERT INTO t (VALUES, x) VALUES (NULL, NULL)"
        "INSERT INTO t (VALUES, KEY) VALUES (NULL, NULL)"
        (.insert "t" (some ["values", "x"]) [[.null, .null]]) ∧
      Misread "x" .key "CREATE TABLE t (a char(INSERT VALUES), x int)"
        "CREATE TABLE t (a char(INSERT VALUES), KEY int)"
        (.createTable "t" false [⟨"a", "char(INSERT,VALUES)", false, false, false, none⟩,
          ⟨"x", "int", false, false, false, none⟩]) ∧
      Misread "x" .ifWord "DROP TABLE x" "DROP TABLE IF" (.dropTable "x" false) ∧
      Misread "x" .key "SELECT * FROM x JOIN key ON key.b = x.a"
        "SELECT * FROM KEY JOIN key ON key.b = KEY.a"
        (.select ["*"] "x" (some ⟨.inner, "key", "a", "b"⟩) []) := by
  have word (w : String) : Lexicon.name (.sparing "x") [.name w] w := IsName.word w
  have key : Lexicon.name (.sparing "x") [.keyword .key] "key" := IsName.keyword .key rfl
  have null : Lexicon.value (.sparing "x") [.keyword .null] .null := ⟨.null, by simp⟩
  have updated : IsStatement (.sparing "x")
      [.keyword .update, .name "x", .keyword .set, .name "a", .comparison .eq, .keyword .null]
      (.update "x" [("a", .null)] []) :=
    .update (word "x") (.one (.mk (word "a") null)) .missing
  have inserted : IsStatement (.sparing "x")
      [.keyword .insert, .keyword .into, .name "t", .openParen, .keyword .values, .comma,
        .name "x", .closeParen, .keyword .values, .openParen, .keyword .null, .comma,
        .keyword .null, .closeParen]
      (.insert "t" (some ["values", "x"]) [[.null, .null]]) := by
    have values : Lexicon.name (.sparing "x") [.keyword .values] "values" :=
      IsName.keyword .values rfl
    have columns : IsTuple (Lexicon.name (.sparing "x")) _ ["values", "x"] :=
      .mk (.more values (.one (word "x")))
    have row : IsTuple (Lexicon.value (.sparing "x")) _ [.null, .null] :=
      .mk (.more null (.one null))
    exact .insert (word "t") (.columns columns) (.one row)
  have created : IsStatement (.sparing "x")
      [.keyword .create, .keyword .table, .name "t", .openParen, .name "a", .name "char",
        .openParen, .keyword .insert, .keyword .values, .closeParen, .comma, .name "x",
        .name "int", .closeParen]
      (.createTable "t" false [⟨"a", "char(INSERT,VALUES)", false, false, false, none⟩,
        ⟨"x", "int", false, false, false, none⟩]) := by
    have long : Lexicon.typeWord (.sparing "x")
        [.name "char", .openParen, .keyword .insert, .keyword .values, .closeParen]
        "char(INSERT,VALUES)" :=
      ⟨@IsTypeWord.withArguments "char" [.keyword .insert, .keyword .values] (by simp) (by simp),
        by simp⟩
    have short : Lexicon.typeWord (.sparing "x") [.name "int"] "int" := ⟨.bare "int", by simp⟩
    have column {ts : List Token} {name type : String}
        (typed : Lexicon.typeWord (.sparing "x") ts type) :
        IsColumnDef (.sparing "x") (.name name :: ts)
          ⟨name, type, false, false, false, none⟩ := by
      simpa using IsColumnDef.mk (word name) (.words (.cons typed .nil) (by simp)) .nil
    exact .createTable (.bare (word "t") (by simp))
      (.mk (.more (column long) (.one (column short))))
  have dropped : IsStatement (.sparing "x") [.keyword .drop, .keyword .table, .name "x"]
      (.dropTable "x" false) := .dropTable (.bare (word "x") (by simp))
  have joined : IsStatement (.sparing "x")
      [.keyword .select, .star, .keyword .fromWord, .name "x", .keyword .join, .keyword .key,
        .keyword .on, .keyword .key, .dot, .name "b", .comparison .eq, .name "x", .dot, .name "a"]
      (.select ["*"] "x" (some ⟨.inner, "key", "a", "b"⟩) []) := by
    have join : IsJoin (.sparing "x") "x" _ ⟨.inner, "key", "a", "b"⟩ :=
      .swapped .bare key (.mk key (word "b")) (.mk (word "x") (word "a")) (by decide)
    exact .select .all (word "x") (.clause join) .missing
  refine ⟨?_, ?_, ?_, ?_, ?_⟩
  · exact .of_tokens "DEFAULT" plainWord_x rfl (by decide) updated (by decide +kernel)
  · exact .of_tokens "KEY" plainWord_x rfl (by decide) inserted (by decide +kernel)
  · exact .of_tokens "KEY" plainWord_x rfl (by decide) created (by decide +kernel)
  · exact .of_tokens "IF" plainWord_x rfl (by decide) dropped (by decide +kernel)
  · exact .of_tokens "KEY" plainWord_x rfl (by decide) joined (by decide +kernel)

end Sql
end PocketSql
