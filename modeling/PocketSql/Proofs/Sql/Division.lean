import Mathlib.Data.List.Infix
import PocketSql.Proofs.Sql.Trimming

/-!
# Scripts cut at their lines

Where a text is read up to a place between two statements, the lexer starts again behind the line
that the place is on. So the tokens of the text are those in front of that place, followed by those
that the rest has by itself, and the statements fall apart in the same way. Only a semicolon among
the arguments of a type has to be told apart from one behind a statement.

## Main definitions

* `Between` — a place in a text is between two statements.
* `Restarts` — behind a text the lexer starts again.
* `Settles` — a text is read up to the end of a statement.

## Main results

* `settles_of_between` — a text settles up to the end of a line that ends between statements.
* `Grammar.IsScript.split` — a script falls apart behind tokens that settle.
-/

namespace PocketSql
namespace Sql

/-! ## Places between statements -/

/-- The characters of lexemes. -/
def written (es : List Lexeme) : List Char := es.flatMap fun e => e.gap ++ e.text

@[simp] theorem written_nil : written [] = [] := rfl

@[simp] theorem written_cons (e : Lexeme) (es : List Lexeme) :
    written (e :: es) = e.gap ++ (e.text ++ written es) := by
  simp [written]

@[simp] theorem written_append (es fs : List Lexeme) :
    written (es ++ fs) = written es ++ written fs := List.flatMap_append

/-- Tokens end with a semicolon, if there are any, that no parenthesis is open in front of. -/
def Settled (ts : List Token) : Prop :=
  (∀ t ∈ ts.getLast?, t = .semicolon) ∧ ts.foldl opened false = false

instance (ts : List Token) : Decidable (Settled ts) :=
  inferInstanceAs (Decidable (_ ∧ _))

/-- White space and comments that end with the line, if not before. -/
def endsWithLine (gap : List Char) : Bool :=
  gapEnd? .blank gap = some .blank || gapEnd? .blank gap = some .line

/-- A place in a text, told by the characters in front of it, is between two statements: there is
nothing but white space and comments between it and a semicolon that ends a statement, or the start
of the text. No comment goes on behind the line that the place is on. -/
def Between (es : List Lexeme) (w : List Char) : Prop :=
  ∃ front ∈ es.inits, Settled (front.map Lexeme.token) ∧
    ∃ gap ∈ w.tails, w = written front ++ gap ∧ endsWithLine gap = true

instance (es : List Lexeme) (w : List Char) : Decidable (Between es w) :=
  inferInstanceAs (Decidable (∃ _ ∈ _, _))

/-! ## Texts behind which the lexer starts again -/

/-- Whatever follows a text has, behind the tokens of the text, the tokens that it has by itself. -/
def Restarts (s : List Char) (ts : List Token) : Prop :=
  ∀ size tail, (Lexer.mk size (s ++ tail) .initial).tokens =
    (Lexer.mk size tail .initial).tokens.map (ts ++ ·)

namespace Restarts

variable {s s' : List Char} {ts us : List Token}

theorem tokens (h : Restarts s ts) (size : Nat) :
    (Lexer.mk size s .initial).tokens = .ok (ts ++ [.endOfInput]) := by
  have whole := h size []
  obtain ⟨l, last⟩ := next_end (.inl rfl) size .initial
  rwa [List.append_nil, Lexer.tokens_last last] at whole

theorem of_blank (blank : ∀ c ∈ s, Text.isBlank c = true) : Restarts s [] := by
  intro size tail
  rw [Lexer.tokens_congr (afterGap_blanks blank tail)]
  cases (Lexer.mk size tail .initial).tokens <;> rfl

theorem append (h : Restarts s ts) (h' : Restarts s' us) : Restarts (s ++ s') (ts ++ us) := by
  intro size tail
  rw [List.append_assoc, h, h']
  cases (Lexer.mk size tail .initial).tokens <;> simp [Except.map]

/-- White space and comments that end with their line. -/
theorem of_gap {gap : List Char} (ends : endsWithLine gap = true) :
    Restarts (gap ++ ['\n']) [] := by
  intro size tail
  have blank : Text.isBlank '\n' = true := by decide
  have same : afterGap .blank (gap ++ ['\n'] ++ tail) = afterGap .blank tail := by
    rw [List.append_assoc, List.singleton_append]
    obtain h | h : gapEnd? .blank gap = some .blank ∨ gapEnd? .blank gap = some .line := by
      simpa [endsWithLine] using ends
    · rw [afterGap_append h (by simp), afterGap_blank_cons blank]
    · rw [afterGap_append h (by simp)]
      rfl
  rw [Lexer.tokens_congr same]
  cases (Lexer.mk size tail .initial).tokens <;> rfl

/-- The tokens of a text go on with those of what follows. -/
theorem tokens_behind (h : Restarts s ts) {size : Nat}
    (whole : (Lexer.mk size (s ++ s') .initial).tokens = .ok (us ++ [.endOfInput])) :
    ∃ vs, us = ts ++ vs ∧ (Lexer.mk size s' .initial).tokens = .ok (vs ++ [.endOfInput]) := by
  rw [h] at whole
  cases behind : (Lexer.mk size s' .initial).tokens with
  | error e =>
    rw [behind] at whole
    cases whole
  | ok xs =>
    obtain ⟨vs, rfl, -⟩ := endsOnce_tokens behind
    rw [behind] at whole
    refine ⟨vs, ?_, rfl⟩
    simpa [Except.map, ← List.append_assoc] using whole.symm

/-- What follows a text behind which the lexer starts again. -/
theorem cancel (h : Restarts (s ++ s') us) (front : Restarts s ts) :
    ∃ vs, us = ts ++ vs ∧ Restarts s' vs := by
  obtain ⟨vs, rfl, -⟩ := front.tokens_behind (h.tokens 0)
  refine ⟨vs, rfl, fun size tail => ?_⟩
  have whole := h size tail
  rw [List.append_assoc, front] at whole
  revert whole
  cases (Lexer.mk size (s' ++ tail) .initial).tokens <;>
    cases (Lexer.mk size tail .initial).tokens <;> simp [Except.map]

end Restarts

/-- A text is read up to the end of a statement, and the lexer starts again behind it. -/
structure Settles (s : List Char) (ts : List Token) : Prop where
  restarts : Restarts s ts
  settled : Settled ts

theorem Settled.right {ts us : List Token} (h : Settled (ts ++ us)) (front : Settled ts) :
    Settled us := by
  refine ⟨fun t ht => h.1 t ?_, ?_⟩
  · rw [List.getLast?_append, Option.mem_def.1 ht]
    rfl
  · have whole := h.2
    rwa [List.foldl_append, front.2] at whole

theorem Settles.cancel {s s' : List Char} {ts us : List Token} (h : Settles (s ++ s') us)
    (front : Settles s ts) : ∃ vs, us = ts ++ vs ∧ Settles s' vs := by
  obtain ⟨vs, rfl, behind⟩ := h.restarts.cancel front.restarts
  exact ⟨vs, rfl, behind, h.settled.right front.settled⟩

theorem Settles.of_blank {s : List Char} (blank : ∀ c ∈ s, Text.isBlank c = true) :
    Settles s [] := ⟨.of_blank blank, by simp [Settled]⟩

/-! ## Lexemes -/

theorem wordToken_ne_semicolon (word : List Char) : wordToken word ≠ .semicolon := by
  unfold wordToken
  split <;> simp

theorem runToken_ne_semicolon (run : List Char) : runToken run ≠ .semicolon := by
  unfold runToken
  split <;> simp

/-- Only a semicolon is read as one. -/
theorem eq_of_readSolid_semicolon {value : Bool} {size : Nat} {s rest : List Char}
    (h : readSolid value size s = (.ok .semicolon, rest)) : s = ';' :: rest := by
  obtain ⟨-, bare⟩ | scan := readSolid_cases h
  · exact absurd (bareValue_eq_some_iff.1 bare).2.1 (runToken_ne_semicolon _)
  · cases scans_of_scan scan with
    | single sign =>
      unfold single? at sign
      split at sign <;> cases sign
      rfl
    | double sign => cases comparison_of_double sign with | intro _ other => cases other
    | word _ _ _ _ token => exact absurd token (wordToken_ne_semicolon _)

namespace Lexer

variable {l : Lexer} {front back : List Lexeme} {e : Lexeme}

theorem Meets.text_of_semicolon (h : l.Meets e) (semicolon : e.token = .semicolon) :
    e.text = [';'] := by
  have read := h.read
  rw [semicolon] at read
  have whole := eq_of_readSolid_semicolon read
  rw [← List.singleton_append] at whole
  exact List.append_cancel_right whole

/-- What is still to be read are the lexemes, one after the other. -/
theorem Lexes.rest_eq (h : l.Lexes (front ++ e :: back)) :
    l.rest = written front ++ (e.gap ++ (e.text ++ e.behind)) := by
  induction front generalizing l with
  | nil =>
    cases h with
    | last h | more h => exact h.rest
  | cons f front ih =>
    generalize hes : f :: front ++ e :: back = es at h
    cases h with
    | last => simp at hes
    | more h more tail =>
      cases hes
      rw [h.rest, written_cons, show f.behind = _ from ih tail]
      simp

/-- The lexemes up to a semicolon are read in front of any text, and then the lexer starts again. -/
theorem Lexes.tokens_upto (h : l.Lexes (front ++ e :: back)) (semicolon : e.token = .semicolon)
    (size : Nat) (tail : List Char) :
    (Lexer.mk size (written (front ++ [e]) ++ tail) l.mode).tokens =
      (Lexer.mk size tail .initial).tokens.map ((front ++ [e]).map Lexeme.token ++ ·) := by
  induction front generalizing l with
  | nil =>
    obtain ⟨l', mode, meets⟩ := h.split
    obtain ⟨g, closed, blank⟩ := meets.gap
    rw [blank (by simp [semicolon])] at closed
    have text := meets.text_of_semicolon semicolon
    have same : afterGap .blank (e.gap ++ ';' :: tail) = afterGap .blank (';' :: tail) :=
      afterGap_append closed (by simp)
    simp only [List.nil_append, written_cons, written_nil, text, List.append_nil,
      List.append_assoc, List.singleton_append, List.map_cons, List.map_nil, semicolon]
    rw [tokens_congr same, tokens_semicolon]
  | cons f front ih =>
    generalize hes : f :: front ++ e :: back = es at h
    cases h with
    | last => simp at hes
    | more h more tail' =>
      cases hes
      obtain ⟨l', -, meets⟩ := tail'.split
      have text := meets.text_of_semicolon semicolon
      -- behind the semicolon the texts need not be the same
      have like : Alike f.behind (written (front ++ [e]) ++ tail) := by
        rw [show f.behind = _ from tail'.rest_eq]
        simpa [text] using (Alike.semicolon e.behind tail).append (written front ++ e.gap)
      have next := h.next_alike more like size (h.mode ▸ h.read)
      have whole : written (f :: front ++ [e]) ++ tail =
          f.gap ++ (f.text ++ (written (front ++ [e]) ++ tail)) := by
        simp
      rw [whole, tokens_more next more, ih tail']
      cases (Lexer.mk size tail .initial).tokens <;> rfl

end Lexer

/-- **The lexer starts again behind a line that ends between statements.** -/
theorem settles_of_between {text : String} {es : List Lexeme} {w : List Char}
    (h : lexemes text = .ok es) (between : Between es w) :
    ∃ ts, Settles (w ++ ['\n']) ts := by
  obtain ⟨front, inits, settled, gap, -, rfl, ends⟩ := between
  obtain ⟨back, rfl⟩ := (List.mem_inits _ _).1 inits
  refine ⟨front.map Lexeme.token, ⟨?_, settled⟩⟩
  have behind := Restarts.of_gap ends
  rcases List.eq_nil_or_concat' front with rfl | ⟨front, e, rfl⟩
  · exact behind
  · have semicolon : e.token = .semicolon := settled.1 e.token (by simp)
    have lexes := (lexemes_ok h).2
    rw [List.append_assoc] at lexes
    have whole : Restarts (written (front ++ [e])) ((front ++ [e]).map Lexeme.token) :=
      fun size tail => lexes.tokens_upto semicolon size tail
    simpa using whole.append behind

/-! ## Statements -/

/-- A parenthesis that is open is so whatever stood in front. -/
theorem opened_of_opened {ts : List Token} (h : ts.foldl opened false = true) (before : Bool) :
    ts.foldl opened before = true := by
  induction ts generalizing before with
  | nil => cases h
  | cons t ts ih =>
    rw [List.foldl_cons] at h ⊢
    cases t with
    | openParen => exact h
    | closeParen => exact h
    | _ => exact ih h before

/-- What stands in front of a token that is not the last one. -/
theorem eq_of_concat_eq {ts us vs : List Token} {t u : Token} (other : t ≠ u)
    (h : vs ++ [t] = ts ++ u :: us) : ∃ us', vs = ts ++ u :: us' := by
  rcases List.eq_nil_or_concat' us with rfl | ⟨us', v, rfl⟩
  · exact absurd (List.cons.inj (List.append_inj' h rfl).2).1 other
  · rw [← List.cons_append, ← List.append_assoc] at h
    exact ⟨us', (List.append_inj' h rfl).1⟩

/-- The only words with semicolons in them are those of types, which have them as arguments. -/
theorem opened_of_word {ts us : List Token}
    (h : Grammar.Lexicon.full.Word (ts ++ .semicolon :: us)) :
    ts.foldl opened false = true := by
  have semicolon : .semicolon ∈ ts ++ .semicolon :: us := by simp
  generalize hvs : ts ++ .semicolon :: us = vs at h semicolon
  obtain ⟨_, h⟩ | ⟨_, h⟩ | ⟨_, h⟩ := h
  · cases h <;> simp at semicolon
  · cases h with
    | bare => simp at semicolon
    | withArguments word closed _ =>
      rcases ts with _ | ⟨t, _ | ⟨u, ts⟩⟩
      · simp at hvs
      · simp at hvs
      · simp only [List.cons_append, List.cons.injEq] at hvs
        obtain ⟨rfl, rfl, hargs⟩ := hvs
        obtain ⟨us', rfl⟩ := eq_of_concat_eq (by simp) hargs.symm
        exact opened_of_not_mem fun mem => closed (List.mem_append_left _ mem)
  · cases h <;> simp at semicolon

/-- In front of a semicolon in a statement, a parenthesis is open. -/
theorem opened_of_statement {ts us : List Token} {s : Statement}
    (h : Grammar.IsStatement .full (ts ++ .semicolon :: us) s) : ts.foldl opened false = true := by
  have composed := h.composed
  generalize hvs : ts ++ .semicolon :: us = vs at composed
  clear h
  induction composed generalizing ts us with
  | nil => simp at hvs
  | token t plain =>
    cases ts with
    | nil => simp_all
    | cons u ts => simp at hvs
  | word h =>
    subst hvs
    exact opened_of_word h
  | parens _ ih =>
    cases ts with
    | nil => simp at hvs
    | cons t ts =>
      simp only [List.cons_append, List.cons.injEq] at hvs
      obtain ⟨rfl, hvs⟩ := hvs
      obtain ⟨us', inside⟩ := eq_of_concat_eq (by simp) hvs.symm
      exact opened_of_opened (ih inside.symm) true
  | @append vs ws _ _ ih ih' =>
    obtain ⟨rest, rfl, hws⟩ | ⟨rest, rfl, hus⟩ := List.append_eq_append_iff.1 hvs
    · cases rest with
      | nil =>
        have before : [].foldl opened false = true := ih' hws
        cases before
      | cons t rest =>
        cases hws
        exact ih rfl
    · rw [List.foldl_append]
      exact opened_of_opened (ih' hus.symm) _

/-- A statement is not settled before its end. -/
theorem not_settled {ts us : List Token} {s : Statement}
    (h : Grammar.IsStatement .full (ts ++ us) s) (some : ts ≠ []) : ¬ Settled ts := by
  intro settled
  obtain ⟨ts, t, rfl⟩ := (List.eq_nil_or_concat' ts).resolve_left some
  obtain rfl : t = .semicolon := settled.1 t (by simp)
  rw [List.append_assoc, List.singleton_append] at h
  have closed := settled.2
  rw [List.foldl_append, opened_of_statement h] at closed
  cases closed

/-- **A script falls apart behind tokens that settle.** -/
theorem Grammar.IsScript.split {ts us : List Token} {ss : List Statement}
    (h : IsScript (ts ++ us) ss) (settled : Settled ts) :
    ∃ front back, ss = front ++ back ∧ IsScript ts front ∧ IsScript us back := by
  by_cases none : ts = []
  · rw [none] at h
    exact ⟨[], ss, rfl, none ▸ .empty, h⟩
  generalize hvs : ts ++ us = vs at h
  induction h generalizing ts us with
  | empty => simp [none] at hvs
  | @skip vs ss tail ih =>
    obtain ⟨t, ts, rfl⟩ := List.exists_cons_of_ne_nil none
    cases hvs
    by_cases only : ts = []
    · subst only
      exact ⟨[], ss, rfl, .skip .empty, tail⟩
    · have whole : Settled ([.semicolon] ++ ts) := settled
      obtain ⟨front, back, rfl, hfront, hback⟩ := ih (whole.right (by decide)) only rfl
      exact ⟨front, back, rfl, .skip hfront, hback⟩
  | last h =>
    subst hvs
    exact absurd settled (not_settled h none)
  | @more body vs s ss h tail ih =>
    obtain ⟨rest, rfl, -⟩ | ⟨rest, rfl, hrest⟩ := List.append_eq_append_iff.1 hvs
    · exact absurd settled (not_settled h none)
    rcases rest with _ | ⟨t, rest⟩
    · rw [List.append_nil] at none settled
      rw [← List.append_nil body] at h
      exact absurd settled (not_settled h none)
    cases hrest
    by_cases only : rest = []
    · subst only
      exact ⟨[s], ss, rfl, .more h .empty, tail⟩
    · have first : Settled (body ++ [.semicolon]) := by
        refine ⟨by simp, ?_⟩
        rw [List.foldl_append, opened_statement h]
        rfl
      rw [List.append_cons] at settled
      obtain ⟨front, back, rfl, hfront, hback⟩ := ih (settled.right first) only rfl
      exact ⟨s :: front, back, rfl, .more h hfront, hback⟩

/-! ## Scripts -/

theorem exists_tokens_of_ofList {s : List Char} {ss : List Statement}
    (h : parseScript (String.ofList s) = .ok ss) :
    ∃ ts, (∀ size, (Lexer.mk size s .initial).tokens = .ok (ts ++ [.endOfInput])) ∧
      Grammar.IsScript ts ss := by
  obtain ⟨ts, tokens⟩ := exists_tokens_of_parseScript h
  refine ⟨ts, fun size => ?_, (parseScript_ok_iff tokens).1 h⟩
  simpa using tokens_of_tokenize tokens size

theorem parseScript_of_tokens {size : Nat} {s : List Char} {ts : List Token} {ss : List Statement}
    (h : (Lexer.mk size s .initial).tokens = .ok (ts ++ [.endOfInput]))
    (script : Grammar.IsScript ts ss) : parseScript (String.ofList s) = .ok ss := by
  refine (parseScript_ok_iff ?_).2 script
  rw [tokenize, Lexer.ofText, String.toList_ofList]
  exact Lexer.tokens_size h _

end Sql
end PocketSql
