import PocketSql.Proofs.Sql.Continuation
import PocketSql.Proofs.Sql.Script
import PocketSql.Query.Engine

/-!
# Scripts one after the other

Two scripts with a line between them that is a semicolon are a script: first come the statements of
the one, then those of the other. Behind a semicolon the lexer is in the mode that it starts in, so
nothing in the first script changes how the second one is read. Only a comment that the first script
leaves open would go on into the second one.

## Main results

* `tokenize_joined` — the tokens of both texts, with a semicolon between them.
* `Engine.runScript_joined` — the results of both scripts, one after the other.
-/

namespace PocketSql
namespace Sql

/-! ## Tokens -/

namespace Lexer

/-- White space and comments in front of the next token change nothing. -/
theorem tokens_congr {size : Nat} {m : Mode} {s s' : List Char}
    (h : afterGap .blank s = afterGap .blank s') :
    (Lexer.mk size s m).tokens = (Lexer.mk size s' m).tokens := by
  have same : (Lexer.mk size s m).next = (Lexer.mk size s' m).next := by
    simp only [next, read_eq, h]
  rcases hnext : (Lexer.mk size s' m).next with ⟨_ | t, l⟩
  · rw [tokens_error hnext, tokens_error (same.trans hnext)]
  · by_cases last : t = .endOfInput
    · subst last
      rw [tokens_last hnext, tokens_last (same.trans hnext)]
    · rw [tokens_more hnext last, tokens_more (same.trans hnext) last]

/-- A text has the same tokens in front of a text that goes on alike everywhere, if what ends the
first one is left out in front of it as well. -/
theorem Lexes.tokens_append {l : Lexer} {es : List Lexeme} (h : l.Lexes es) {tail : List Char}
    (like : ∀ s, Alike s (s ++ tail))
    (resumes : ∀ e ∈ es.getLast?, afterGap .blank (e.gap ++ tail) = afterGap .blank tail) :
    ∃ ts, es.map Lexeme.token = ts ++ [.endOfInput] ∧
      ∀ size, (Lexer.mk size (l.rest ++ tail) l.mode).tokens =
        (Lexer.mk size tail (l.mode.afterAll ts)).tokens.map (ts ++ ·) := by
  induction h with
  | @last l e h last =>
    refine ⟨[], by simp [last], fun size => ?_⟩
    obtain ⟨text, behind⟩ := h.nil_of_last last
    rw [h.rest, text, behind, List.append_nil, List.append_nil, tokens_congr (resumes e rfl),
      Mode.afterAll_nil]
    cases (Lexer.mk size tail l.mode).tokens <;> rfl
  | @more l e es h more rest ih =>
    have last : (e :: es).getLast? = es.getLast? := by
      cases rest <;> rfl
    obtain ⟨ts, hts, tokens⟩ := ih (by rwa [last] at resumes)
    refine ⟨e.token :: ts, by simp [hts], fun size => ?_⟩
    have next := h.next_alike more (like e.behind) size (h.mode ▸ h.read)
    have whole : l.rest ++ tail = e.gap ++ (e.text ++ (e.behind ++ tail)) := by simp [h.rest]
    rw [whole, tokens_more next more, tokens size, Mode.afterAll_cons]
    cases (Lexer.mk size tail _).tokens <;> rfl

/-- Behind a semicolon the lexer starts again. -/
theorem tokens_semicolon (size : Nat) (m : Mode) (s : List Char) :
    (Lexer.mk size (';' :: s) m).tokens =
      (Lexer.mk size s .initial).tokens.map (.semicolon :: ·) := by
  have read : readSolid m.value size (';' :: s) = (.ok .semicolon, s) := by
    cases m.value with
    | false => rfl
    | true => simp [readSolid, bareValue_eq_none (c := ';') (by decide), scan]
  have solid : afterGap .blank (';' :: s) = ';' :: s :=
    afterGap_solid (by decide) (by decide) fun h => absurd h (by decide)
  have next : (Lexer.mk size ([] ++ ';' :: s) m).next = (.ok .semicolon, ⟨size, s, .initial⟩) :=
    next_of_readSolid rfl solid read
  exact tokens_more next (by simp)

end Lexer

/-- A text ends in a comment that is not closed. -/
def endsInComment (text : String) : Bool :=
  match lexemes text with
  | .ok es => es.getLast?.any fun e => gapEnd? .blank e.gap = some .block
  | .error _ => false

/-- A text that ends in no open comment can be followed by a new line. -/
theorem afterGap_line {e : Lexeme} {l : Lexer} (h : l.Meets e)
    (closed : gapEnd? .blank e.gap ≠ some .block) (s : List Char) :
    afterGap .blank (e.gap ++ '\n' :: s) = afterGap .blank ('\n' :: s) := by
  have blank : Text.isBlank '\n' = true := by decide
  obtain ⟨g, hg, -⟩ := h.gap
  cases g with
  | blank => exact afterGap_append hg (by simp)
  | line =>
    rw [afterGap_append hg (by simp), afterGap_blank_cons blank]
    rfl
  | block => exact absurd hg closed

/-- The tokens of a text do not depend on how much text there was in front of it. -/
theorem Lexer.tokens_size {l : Lexer} {ts : List Token} (h : l.tokens = .ok ts) (size : Nat) :
    (Lexer.mk size l.rest l.mode).tokens = .ok ts := by
  have lexes := lexes_lexemes h
  have resumes : ∀ e ∈ (l.lexemes ts).getLast?,
      afterGap .blank (e.gap ++ []) = afterGap .blank [] := by
    intro e he
    obtain ⟨l, meets⟩ := lexes.exists_meets (List.mem_of_getLast? he)
    rw [List.append_nil]
    exact meets.afterGap_gap
  obtain ⟨us, hus, tokens⟩ := lexes.tokens_append (fun s => by simpa using Alike.refl s) resumes
  rw [map_token_lexemes] at hus
  obtain ⟨l', last⟩ := next_end (.inl rfl) size (l.mode.afterAll us)
  have whole := tokens size
  rw [List.append_nil, tokens_last last] at whole
  rw [hus]
  exact whole

theorem tokens_of_tokenize {text : String} {ts : List Token} (h : tokenize text = .ok ts)
    (size : Nat) : (Lexer.mk size text.toList .initial).tokens = .ok ts :=
  Lexer.tokens_size h size

/-- **The tokens of two texts with a semicolon on a line of its own between them.** -/
theorem tokenize_joined {A B : String} {ts us : List Token}
    (hA : tokenize A = .ok (ts ++ [.endOfInput])) (hB : tokenize B = .ok us)
    (closed : endsInComment A = false) :
    tokenize (A ++ "\n;\n" ++ B) = .ok (ts ++ .semicolon :: us) := by
  have blank : Text.isBlank '\n' = true := by decide
  have lexes : lexemes A = .ok ((Lexer.ofText A).lexemes (ts ++ [.endOfInput])) := by
    rw [lexemes, hA]
    rfl
  have resumes (s : List Char) : ∀ e ∈ ((Lexer.ofText A).lexemes (ts ++ [.endOfInput])).getLast?,
      afterGap .blank (e.gap ++ '\n' :: s) = afterGap .blank ('\n' :: s) := by
    intro e he
    obtain ⟨l, meets⟩ := (lexemes_ok lexes).2.exists_meets (List.mem_of_getLast? he)
    refine afterGap_line meets ?_ s
    simpa [endsInComment, lexes, Option.mem_def.1 he] using closed
  obtain ⟨vs, hvs, tokens⟩ := (lexemes_ok lexes).2.tokens_append
    (fun s => Alike.append_line s (';' :: '\n' :: B.toList)) (resumes _)
  rw [Lexer.map_token_lexemes] at hvs
  rw [← List.append_cancel_right hvs] at tokens
  have text : (A ++ "\n;\n" ++ B).toList = A.toList ++ '\n' :: ';' :: '\n' :: B.toList := by
    simp
  have line (size : Nat) (m : Mode) (s : List Char) :
      (Lexer.mk size ('\n' :: s) m).tokens = (Lexer.mk size s m).tokens :=
    Lexer.tokens_congr (afterGap_blank_cons blank s)
  rw [tokenize, Lexer.ofText, text]
  refine (tokens _).trans ?_
  rw [line, Lexer.tokens_semicolon, line, tokens_of_tokenize hB]
  rfl

end Sql

/-! ## Results -/

namespace Engine

open Sql

theorem executeAll_append (e : Engine) (ss ss' : List Statement) :
    e.executeAll (ss ++ ss') =
      ((e.executeAll ss).1 ++ ((e.executeAll ss).2.executeAll ss').1,
        ((e.executeAll ss).2.executeAll ss').2) := by
  induction ss generalizing e with
  | nil => rfl
  | cons s ss ih =>
    simp only [List.cons_append, executeAll, ih]

theorem runScript_ok {text : String} {ss : List Statement} (h : parseScript text = .ok ss)
    (e : Engine) : e.runScript text = e.executeAll ss := by
  rw [runScript, h]

/-- **Scripts compose.** Two scripts with a semicolon on a line of its own between them have the
results of the first one, followed by those of the second one on the engine that the first one has
left; and they leave the engine that the second one leaves. -/
theorem runScript_joined (e : Engine) {A B : String} {ss ss' : List Statement}
    (hA : parseScript A = .ok ss) (hB : parseScript B = .ok ss')
    (closed : endsInComment A = false) :
    e.runScript (A ++ "\n;\n" ++ B) =
      ((e.runScript A).1 ++ ((e.runScript A).2.runScript B).1,
        ((e.runScript A).2.runScript B).2) := by
  obtain ⟨ts, tokensA⟩ := exists_tokens_of_parseScript hA
  obtain ⟨us, tokensB⟩ := exists_tokens_of_parseScript hB
  have tokens : tokenize (A ++ "\n;\n" ++ B) = .ok (ts ++ .semicolon :: us ++ [.endOfInput]) := by
    rw [tokenize_joined tokensA tokensB closed]
    simp
  have joined : parseScript (A ++ "\n;\n" ++ B) = .ok (ss ++ ss') :=
    (parseScript_ok_iff tokens).2
      (((parseScript_ok_iff tokensA).1 hA).append ((parseScript_ok_iff tokensB).1 hB))
  rw [runScript_ok joined, runScript_ok hA, runScript_ok hB, executeAll_append]

/-- A script that ends in a comment to the end of its line, and one that fails half-way but sees what
the first one has created. -/
theorem runScript_joined_comment :
    let joined := "CREATE TABLE a (x int); -- first" ++ "\n;\n" ++ "DROP TABLE b; SHOW TABLES"
    let first := (ofPolicy .skip).runScript "CREATE TABLE a (x int); -- first"
    let second := first.2.runScript "DROP TABLE b; SHOW TABLES"
    parseScript "CREATE TABLE a (x int); -- first" =
        .ok [.createTable "a" false [⟨"x", "int", false, false, false, none⟩]] ∧
      parseScript "DROP TABLE b; SHOW TABLES" = .ok [.dropTable "b" false, .showTables] ∧
      endsInComment "CREATE TABLE a (x int); -- first" = false ∧
      first.1 = [.ofMessage "Table 'a' created"] ∧
      second.1 = [.ofStoreError (.tableNotFound "b"), .ofRows [[("table_name", .string "a")]]] ∧
      (ofPolicy .skip).runScript joined = (first.1 ++ second.1, second.2) := by
  intro joined first second
  have parsed : parseScript "CREATE TABLE a (x int); -- first" =
      .ok [.createTable "a" false [⟨"x", "int", false, false, false, none⟩]] := by
    decide +kernel
  have parsed' : parseScript "DROP TABLE b; SHOW TABLES" =
      .ok [.dropTable "b" false, .showTables] := by
    decide +kernel
  have closed : endsInComment "CREATE TABLE a (x int); -- first" = false := by decide +kernel
  have results : first.1 = [.ofMessage "Table 'a' created"] ∧
      second.1 = [.ofStoreError (.tableNotFound "b"), .ofRows [[("table_name", .string "a")]]] := by
    decide +kernel
  exact ⟨parsed, parsed', closed, results.1, results.2, runScript_joined _ parsed parsed' closed⟩

end Engine
end PocketSql
