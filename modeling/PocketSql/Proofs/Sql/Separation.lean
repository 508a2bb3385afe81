import PocketSql.Proofs.Query.Succession

/-!
# What stands between two texts

White space and closed comments between two texts separate them, and which of them there are does
not matter. The lexer leaves them out in front of a token in every mode, before it looks whether a
value is expected; and the white space in front of them ends the last token of the first text. Only
where something is wrong in the second text, the place of it moves on with them.

## Main definitions

* `Blanks` — white space and closed comments.
* `IsSeparator` — they start with white space.
* `EndsOutside` — a text has tokens and does not end in a comment.
* `Error.moved` — an error further back in a text.

## Main results

* `blanks_iff` — white space and closed comments are what the lexer leaves out in front of any text.
* `Lexer.tokens_moved` — how tokens depend on how much text there was in front of them.
* `tokenize_separated` — two texts with a separator between them.
-/

namespace PocketSql
namespace Sql

/-! ## White space and closed comments -/

/-- White space and comments that are closed: from `--` to the end of the line, or from `/*` to the
first `*/`. -/
inductive Blanks : List Char → Prop where
  | nil : Blanks []
  | blank {c : Char} {s : List Char} (h : Text.isBlank c = true) (rest : Blanks s) :
      Blanks (c :: s)
  | line {body s : List Char} (h : '\n' ∉ body) (rest : Blanks s) :
      Blanks ('-' :: '-' :: (body ++ '\n' :: s))
  | block {body s : List Char} (h : ¬ ['*', '/'] <:+: body) (rest : Blanks s) :
      Blanks ('/' :: '*' :: (body ++ '*' :: '/' :: s))

theorem gapEnd?_line {body : List Char} (h : '\n' ∉ body) (s : List Char) :
    gapEnd? .line (body ++ '\n' :: s) = gapEnd? .blank s := by
  induction body with
  | nil => rfl
  | cons c body ih =>
    rw [List.mem_cons, not_or] at h
    rw [List.cons_append, gapEnd?, if_neg (Ne.symm h.1), ih h.2]

theorem gapEnd?_block {body : List Char} (h : ¬ ['*', '/'] <:+: body) (s : List Char) :
    gapEnd? .block (body ++ '*' :: '/' :: s) = gapEnd? .blank s := by
  induction body with
  | nil => rfl
  | cons c body ih =>
    rw [List.infix_cons_iff, not_or] at h
    rw [List.cons_append, gapEnd?_block_cons, ih h.2]
    rintro rfl first
    cases body with
    | nil => cases first
    | cons d body =>
      cases first
      exact h.1 ⟨body, rfl⟩

theorem Blanks.gapEnd {s : List Char} (h : Blanks s) : gapEnd? .blank s = some .blank := by
  induction h with
  | nil => rfl
  | blank h _ ih => rw [gapEnd?_blank_cons h, ih]
  | line h _ ih => rw [gapEnd?, gapEnd?_line h, ih]
  | block h _ ih => rw [gapEnd?, gapEnd?_block h, ih]

/-- What closes a comment, or nothing where there is none, and then white space and closed
comments. -/
def Closes : Gap → List Char → Prop
  | .blank, s => Blanks s
  | .line, s => ∃ body t, s = body ++ '\n' :: t ∧ '\n' ∉ body ∧ Blanks t
  | .block, s => ∃ body t, s = body ++ '*' :: '/' :: t ∧ ¬ ['*', '/'] <:+: body ∧ Blanks t

theorem closes_of_gapEnd {g : Gap} {s : List Char} (h : gapEnd? g s = some .blank) :
    Closes g s := by
  fun_induction gapEnd? g s with
  | case1 g =>
    cases h
    exact .nil
  | case2 s ih =>
    obtain ⟨body, t, rfl, inside, rest⟩ := ih h
    exact .line inside rest
  | case3 s ih =>
    obtain ⟨body, t, rfl, inside, rest⟩ := ih h
    exact .block inside rest
  | case4 c s _ _ blank ih => exact .blank blank (ih h)
  | case5 => cases h
  | case6 s ih => exact ⟨[], s, rfl, by simp, ih h⟩
  | case7 c s newline ih =>
    obtain ⟨body, t, rfl, inside, rest⟩ := ih h
    exact ⟨c :: body, t, rfl, by simp [Ne.symm newline, inside], rest⟩
  | case8 s ih => exact ⟨[], s, rfl, by simp, ih h⟩
  | case9 c s star ih =>
    obtain ⟨body, t, rfl, inside, rest⟩ := ih h
    refine ⟨c :: body, t, rfl, ?_, rest⟩
    rw [List.infix_cons_iff, not_or]
    refine ⟨?_, inside⟩
    rintro ⟨u, hu⟩
    cases hu
    exact star _ rfl rfl

/-- **White space and closed comments are what the lexer leaves out in front of any text.** -/
theorem blanks_iff {s : List Char} : Blanks s ↔ gapEnd? .blank s = some .blank :=
  ⟨Blanks.gapEnd, closes_of_gapEnd⟩

instance : DecidablePred Blanks := fun _ => decidable_of_iff _ blanks_iff.symm

theorem Blanks.afterGap_append {w : List Char} (h : Blanks w) (s : List Char) :
    afterGap .blank (w ++ s) = afterGap .blank s :=
  Sql.afterGap_append h.gapEnd (by simp)

/-- What separates two texts: white space and closed comments, with white space in front. What they
end with does not matter. -/
structure IsSeparator (text : String) : Prop where
  blanks : Blanks text.toList
  head : text.toList.head?.any Text.isBlank = true

/-- A text has tokens, and behind the last one there are white space and closed comments only. -/
def EndsOutside (text : String) : Prop :=
  ∃ es, lexemes text = .ok es ∧ ∀ e ∈ es.getLast?, Blanks e.gap

instance : DecidablePred EndsOutside := fun text =>
  decidable_of_iff (∃ es ∈ (lexemes text).toOption, ∀ e ∈ es.getLast?, Blanks e.gap) <| by
    cases h : lexemes text <;> simp [EndsOutside, h, Except.toOption]

/-! ## Errors and their places -/

/-- The error that is found if there are `n` more characters in front of it. -/
def Error.moved (n : Nat) : Error → Error
  | .unexpectedCharacter c position => .unexpectedCharacter c (position + n)
  | .unterminatedString position => .unterminatedString (position + n)
  | .invalidNumber position => .invalidNumber (position + n)
  | e => e

section
variable {size : Nat} {s : List Char}

theorem unsigned_moved (h : s.length ≤ size) (n : Nat) :
    unsigned (size + n) s =
      ((unsigned size s).1.mapError (Error.moved n), (unsigned size s).2) := by
  have place : size + n - s.length = size - s.length + n := by omega
  simp only [unsigned, place]
  split <;> rfl

theorem scan_moved (h : s.length ≤ size) (n : Nat) :
    scan (size + n) s = ((scan size s).1.mapError (Error.moved n), (scan size s).2) := by
  cases s with
  | nil => rfl
  | cons c s =>
    have place : size + n - (s.length + 1) = size - (s.length + 1) + n := by
      rw [List.length_cons] at h
      omega
    have number := unsigned_moved h n
    have digits := unsigned_moved (Nat.le_of_succ_le h) n
    obtain ⟨d, s, u, rfl, sign⟩ | alone := double_or_alone c s
    · rw [scan_double sign, scan_double sign]
      rfl
    cases sign : single? c with
    | some u =>
      rw [scan_single sign alone, scan_single sign alone]
      rfl
    | none =>
      by_cases minus : c = '-'
      · subst minus
        rw [scan_minus, scan_minus, digits, place]
        split
        · cases (unsigned size s).1 <;> rfl
        · rfl
      by_cases bang : c = '!'
      · subst bang
        have equal : s.head? ≠ some '=' := fun second => nomatch alone '=' second
        rw [scan_bang, if_neg equal, scan_bang, if_neg equal, place]
        rfl
      have other : c ∉ ['-', '!'] := by simp [minus, bang]
      rw [scan_plain sign other, scan_plain sign other, number, place]
      split
      · cases quoted c s <;> rfl
      split
      · cases (unsigned size (c :: s)).1 <;> rfl
      split <;> rfl

theorem readSolid_moved (value : Bool) (h : s.length ≤ size) (n : Nat) :
    readSolid value (size + n) s =
      ((readSolid value size s).1.mapError (Error.moved n), (readSolid value size s).2) := by
  unfold readSolid
  split
  · rfl
  · exact scan_moved h n

end

namespace Lexer

/-- The lexer with `n` more characters in front of its text. -/
def moved (n : Nat) (l : Lexer) : Lexer := { l with size := l.size + n }

theorem next_moved {l : Lexer} (h : l.rest.length ≤ l.size) (n : Nat) :
    (l.moved n).next = (l.next.1.mapError (Error.moved n), l.next.2.moved n) := by
  have shorter : (afterGap .blank l.rest).length ≤ l.size :=
    (afterGap_suffix .blank l.rest).length_le.trans h
  have read : (l.moved n).read = (l.read.1.mapError (Error.moved n), l.read.2) :=
    readSolid_moved l.mode.value shorter n
  simp only [next, read]
  rcases l.read with ⟨_ | t, rest⟩ <;> rfl

/-- **The tokens of a text depend on how much text there was in front of it by the places of errors
only.** -/
theorem tokens_moved {l : Lexer} (h : l.rest.length ≤ l.size) (n : Nat) :
    (l.moved n).tokens = l.tokens.mapError (Error.moved n) := by
  induction length : l.rest.length using Nat.strong_induction_on generalizing l with
  | _ k ih =>
    have next := next_moved h n
    rcases hnext : l.next with ⟨e | t, l'⟩
    · rw [hnext] at next
      rw [tokens_error hnext, tokens_error next]
      rfl
    · rw [hnext] at next
      by_cases last : t = .endOfInput
      · subst last
        rw [tokens_last hnext, tokens_last next]
        rfl
      · have shorter := rest_next_length_lt hnext last
        have same : l'.size = l.size := by rw [← size_next l, hnext]
        have inside : l'.rest.length ≤ l'.size := by omega
        have behind := ih l'.rest.length (length ▸ shorter) inside rfl
        rw [tokens_more hnext last, tokens_more next last, behind]
        cases l'.tokens <;> rfl

/-- Behind the tokens of one text stand the tokens of another text or its error, with any separator
between the texts. -/
theorem Lexes.tokens_separated {l : Lexer} {es : List Lexeme} (h : l.Lexes es)
    (outside : ∀ e ∈ es.getLast?, Blanks e.gap) (s : List Char) :
    ∃ result, ∀ w, Blanks w → w.head?.any Text.isBlank = true →
      (Lexer.mk (l.rest.length + (w.length + s.length)) (l.rest ++ (w ++ s)) l.mode).tokens =
        Except.mapError (Error.moved w.length) result := by
  refine ⟨(Lexer.mk (l.rest.length + s.length) s
    (l.mode.afterAll (es.map Lexeme.token).dropLast)).tokens.map
      ((es.map Lexeme.token).dropLast ++ ·), fun w blanks head => ?_⟩
  have starts : (w ++ s).head?.all Text.isBlank = true := by
    cases w with
    | nil => cases head
    | cons c w => simpa using head
  have resumes : ∀ e ∈ es.getLast?,
      afterGap .blank (e.gap ++ (w ++ s)) = afterGap .blank (w ++ s) :=
    fun e he => (outside e he).afterGap_append _
  obtain ⟨ts, hts, tokens⟩ := h.tokens_append (fun t => Alike.append_blank t starts) resumes
  have place : l.rest.length + (w.length + s.length) = l.rest.length + s.length + w.length := by
    omega
  have behind := tokens_moved (l := ⟨l.rest.length + s.length, s, l.mode.afterAll ts⟩)
    (Nat.le_add_left _ _) w.length
  rw [tokens, tokens_congr (blanks.afterGap_append s), place, hts, List.dropLast_concat]
  refine (congrArg _ behind).trans ?_
  cases (Lexer.mk _ s (l.mode.afterAll ts)).tokens <;> rfl

end Lexer

/-- **Separators do not matter.** Between a text that has tokens and does not end in a comment and
any other text, each separator gives the same tokens; or each gives the same error, further back by
the characters of the separator. -/
theorem tokenize_separated {A W W' : String} (outside : EndsOutside A) (separator : IsSeparator W)
    (separator' : IsSeparator W') (B : String) :
    (∃ ts, tokenize (A ++ W ++ B) = .ok ts ∧ tokenize (A ++ W' ++ B) = .ok ts) ∨
      ∃ e : Error, tokenize (A ++ W ++ B) = .error (e.moved W.length) ∧
        tokenize (A ++ W' ++ B) = .error (e.moved W'.length) := by
  obtain ⟨es, lexes, closed⟩ := outside
  obtain ⟨result, separated⟩ := (lexemes_ok lexes).2.tokens_separated closed B.toList
  have tokens {V : String} (h : IsSeparator V) :
      tokenize (A ++ V ++ B) = result.mapError (Error.moved V.length) := by
    have whole := separated V.toList h.blanks h.head
    have text : (A ++ V ++ B).toList = A.toList ++ (V.toList ++ B.toList) := by simp
    rw [tokenize, Lexer.ofText, text, List.length_append, List.length_append]
    exact whole
  rw [tokens separator, tokens separator']
  cases result with
  | error e => exact .inr ⟨e, rfl, rfl⟩
  | ok ts => exact .inl ⟨ts, rfl, rfl⟩

/-- A run that ends with the text, with signs of a comment in it; and comments with quotes,
semicolons and signs of other comments in them. -/
theorem tokenize_separated_run :
    let A := "INSERT INTO t VALUES (a/*b"
    let W := " /* it's; -- */ "
    let W' := "\n-- \"/* (\n\t"
    EndsOutside A ∧ IsSeparator W ∧ IsSeparator W' ∧
      ((∃ ts, tokenize (A ++ W ++ ", 'c'") = .ok ts ∧ tokenize (A ++ W' ++ ", 'c'") = .ok ts) ∨
        ∃ e : Error, tokenize (A ++ W ++ ", 'c'") = .error (e.moved W.length) ∧
          tokenize (A ++ W' ++ ", 'c'") = .error (e.moved W'.length)) ∧
      tokenize (A ++ W ++ ", 'c'") = .ok [.keyword .insert, .keyword .into, .name "t",
        .keyword .values, .openParen, .name "a/*b", .comma, .string "c", .endOfInput] ∧
      tokenize (A ++ W ++ ", 'c") = .error (.unterminatedString 44) ∧
      tokenize (A ++ W' ++ ", 'c") = .error (.unterminatedString 39) := by
  intro A W W'
  have outside : EndsOutside A := by decide +kernel
  have separator : IsSeparator W := ⟨by decide, by decide⟩
  have separator' : IsSeparator W' := ⟨by decide, by decide⟩
  exact ⟨outside, separator, separator', tokenize_separated outside separator separator' _,
    by decide +kernel, by decide +kernel, by decide +kernel⟩

end Sql
end PocketSql
