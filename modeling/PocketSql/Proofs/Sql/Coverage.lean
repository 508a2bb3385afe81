import PocketSql.Proofs.Sql.Cursor
import PocketSql.Proofs.Sql.Division
import PocketSql.Proofs.Sql.Separation
import PocketSql.Proofs.Sql.Turns

/-!
# The lexer gets on and leaves nothing out

Wherever a lexer stands, also behind an error, it stands inside the text and does not go back. What
it passes is a token that is spelt there, and white space and comments in front of the token; the
input ends where there is nothing else. An error tells a place in the text and the character there.
So there are as many readings as characters at most before the tokens end, and the statements of a
script are fewer than its tokens.

## Main definitions

* `Trails` — white space and comments, of which the last one may be open.
* `Token.ReadFrom` — the characters that a token is read from.
* `Error.Tells` — the place that an error tells, and the character there.
* `Lexer.Onward` — what one reading does in a text.

## Main results

* `Lexer.Stands.onward` — what one reading does inside a text.
* `Lexer.exists_results` — the readings up to the last token or the first error.
* `reads_onward` — readings, tokens and statements of a text.
-/

namespace PocketSql
namespace Sql

/-! ## White space and comments -/

/-- White space and comments, of which the last one may be open: a line that ends or `*/` would
close it. -/
def Trails (s : List Char) : Prop := Blanks (s ++ ['\n']) ∨ Blanks (s ++ ['*', '/'])

theorem gapEnd?_append {g g' : Gap} {gap s : List Char} (h : gapEnd? g gap = some g')
    (unclosed : g' = .block → s.head? ≠ some '/') : gapEnd? g (gap ++ s) = gapEnd? g' s := by
  fun_induction gapEnd? g gap with
  | case1 g =>
    cases h
    rfl
  | case2 gap ih => exact ih h
  | case3 gap ih => exact ih h
  | case4 c gap minus slash blank ih =>
    rw [List.cons_append, gapEnd?_blank_cons blank]
    exact ih h
  | case5 => cases h
  | case6 gap ih => exact ih h
  | case7 c gap newline ih =>
    rw [List.cons_append, gapEnd?, if_neg newline]
    exact ih h
  | case8 gap ih => exact ih h
  | case9 c gap star ih =>
    rw [List.cons_append, gapEnd?_block_cons]
    · exact ih h
    · rintro rfl first
      cases gap with
      | nil =>
        cases h
        exact unclosed rfl first
      | cons d gap =>
        cases first
        exact star gap rfl rfl

/-- What starts with neither white space nor a comment is no gap, whatever follows. -/
theorem gapEnd?_solid {c : Char} {s : List Char} (blank : Text.isBlank c = false)
    (line : ¬ (c = '-' ∧ s.head? = some '-')) (block : ¬ (c = '/' ∧ s.head? = some '*')) :
    gapEnd? .blank (c :: s) = none := by
  rw [gapEnd?, blank]
  · rfl
  · rintro t rfl rfl
    exact line ⟨rfl, rfl⟩
  · rintro t rfl rfl
    exact block ⟨rfl, rfl⟩

/-- Where a text trails, nothing is left of it behind white space and comments. -/
theorem afterGap_of_trails {s : List Char} (h : Trails s) : afterGap .blank s = [] := by
  obtain ⟨gap, g, hs, closed, whole⟩ := exists_gap .blank s
  by_contra some
  obtain rfl := whole some
  have solid := afterGap_afterGap s
  obtain ⟨d, rest, hrest⟩ := List.exists_cons_of_ne_nil some
  rw [hrest] at hs solid
  obtain ⟨blank, minus, slash⟩ := afterGap_cons_eq_iff.1 solid
  -- what is left would be closed by what closes a comment
  have left {closing : List Char} (blanks : Blanks (s ++ closing)) :
      gapEnd? .blank (d :: (rest ++ closing)) = Option.some .blank := by
    have h := blanks.gapEnd
    rwa [hs, List.append_assoc, gapEnd?_append closed (by simp)] at h
  cases rest with
  | cons r rest =>
    have none (closing : List Char) : gapEnd? .blank (d :: (r :: rest ++ closing)) = none :=
      gapEnd?_solid blank minus slash
    obtain h | h := h <;> cases (none _).symm.trans (left h)
  | nil =>
    obtain h | h := h
    · cases (gapEnd?_solid blank (by simp) (by simp)).symm.trans (left h)
    · by_cases opens : d = '/'
      · subst opens
        cases left h
      · cases (gapEnd?_solid blank (by simp) (by simp [opens])).symm.trans (left h)

theorem trails_iff {s : List Char} : Trails s ↔ afterGap .blank s = [] := by
  refine ⟨afterGap_of_trails, fun h => ?_⟩
  obtain ⟨gap, g, hs, ends, -⟩ := exists_gap .blank s
  rw [h, List.append_nil] at hs
  subst hs
  cases g with
  | blank => exact .inl (blanks_iff.2 ((gapEnd?_append ends (by simp)).trans rfl))
  | line => exact .inl (blanks_iff.2 ((gapEnd?_append ends (by simp)).trans rfl))
  | block => exact .inr (blanks_iff.2 ((gapEnd?_append ends (by simp)).trans rfl))

/-! ## The characters of tokens -/

/-- The characters that a token is read from. -/
inductive Token.ReadFrom : Token → List Char → Prop where
  | single {c : Char} {t : Token} (sign : single? c = some t) : ReadFrom t [c]
  | double {c d : Char} {t : Token} (sign : double? c d = some t) : ReadFrom t [c, d]
  | string (s : String) {quote : Char} (either : quote = '\'' ∨ quote = '"') :
      ReadFrom (.string s) (quote :: (doubled quote s.toList ++ [quote]))
  | number {w : List Char} {x : Number} (spells : Number.ofChars? w = some x) :
      ReadFrom (.number x) w
  | negative {w : List Char} {x : Number} (spells : Number.ofChars? w = some x) :
      ReadFrom (.number x.neg) ('-' :: w)
  | keyword {w : List Char} {k : Keyword} (spells : Keyword.ofWord? w = some k) :
      ReadFrom (.keyword k) w
  | name {s : String} (run : ∀ c ∈ s.toList, inRun c = true) : ReadFrom (.name s) s.toList
  | last : ReadFrom .endOfInput []

section
variable {size : Nat} {s rest content : List Char} {t : Token}

theorem eq_of_quoted {quote : Char} (h : quoted quote s = some (content, rest)) :
    s = doubled quote content ++ quote :: rest := by
  fun_induction quoted quote s generalizing content rest with
  | case1 => cases h
  | case2 s ih =>
    obtain ⟨⟨content', rest'⟩, h', he⟩ := Option.map_eq_some_iff.1 h
    cases he
    rw [ih h']
    simp [doubled]
  | case3 d s other =>
    cases h
    rfl
  | case4 c d s other ih =>
    obtain ⟨⟨content', rest'⟩, h', he⟩ := Option.map_eq_some_iff.1 h
    cases he
    rw [ih h']
    simp [doubled, other]
  | case5 =>
    cases h
    rfl
  | case6 => cases h

theorem exists_numeral_of_unsigned {x : Number} (h : unsigned size s = (.ok x, rest)) :
    ∃ w, s = w ++ rest ∧ Number.ofChars? w = some x := by
  have whole := numeral_append false false s
  rw [unsigned] at h
  split at h
  next w left read =>
  split at h
  · next number =>
    cases h
    rw [read] at whole
    refine ⟨w, whole.symm, ?_⟩
    split at number
    · cases number
    · exact number
  · cases h

theorem readFrom_wordToken {w : List Char} (word : ∀ c ∈ w, inWord c = true) :
    (wordToken w).ReadFrom w := by
  unfold wordToken
  split
  · next spells => exact .keyword spells
  · have run : ∀ c ∈ (String.ofList w).toList, inRun c = true := by
      rw [String.toList_ofList]
      exact fun c hc => inRun_of_inWord (word c hc)
    simpa using Token.ReadFrom.name run

theorem readFrom_runToken {w : List Char} (run : ∀ c ∈ w, inRun c = true) :
    (runToken w).ReadFrom w := by
  unfold runToken
  split
  · next spells =>
    split at spells
    · exact .number spells
    · cases spells
  · have run : ∀ c ∈ (String.ofList w).toList, inRun c = true := by
      rwa [String.toList_ofList]
    simpa using Token.ReadFrom.name run

/-- Where no value is expected, a token is read from what is taken. -/
theorem Scans.exists_readFrom (h : Scans size s t rest) : ∃ w, s = w ++ rest ∧ t.ReadFrom w := by
  cases h with
  | last => exact ⟨[], rfl, .last⟩
  | single sign => exact ⟨_, rfl, .single sign⟩
  | double sign => exact ⟨_, rfl, .double sign⟩
  | negative _ number =>
    obtain ⟨w, rfl, spells⟩ := exists_numeral_of_unsigned number
    exact ⟨'-' :: w, rfl, .negative spells⟩
  | @string c _ content _ quote string =>
    rw [eq_of_quoted string]
    refine ⟨c :: (doubled c content ++ [c]), by simp, ?_⟩
    simpa using Token.ReadFrom.string (String.ofList content) quote
  | number _ _ _ number =>
    obtain ⟨w, hw, spells⟩ := exists_numeral_of_unsigned number
    exact ⟨w, hw, .number spells⟩
  | word _ _ _ _ token left =>
    subst token left
    exact ⟨_, List.takeWhile_append_dropWhile.symm,
      readFrom_wordToken fun c hc => List.mem_takeWhile_imp hc⟩

/-- A token is read from what is taken. -/
theorem exists_readFrom {value : Bool} (h : readSolid value size s = (.ok t, rest)) :
    ∃ w, s = w ++ rest ∧ t.ReadFrom w := by
  obtain ⟨-, bare⟩ | scan := readSolid_cases h
  · obtain ⟨-, rfl, rfl⟩ := bareValue_eq_some_iff.1 bare
    exact ⟨_, List.takeWhile_append_dropWhile.symm,
      readFrom_runToken fun c hc => List.mem_takeWhile_imp hc⟩
  · exact (scans_of_scan scan).exists_readFrom

end

/-! ## The places of errors -/

/-- The place that an error tells, and the character there: one that is not expected, an opening
quote, or the first digit of a number. -/
inductive Error.Tells : Error → Nat → Char → Prop where
  | character (c : Char) (place : Nat) : Tells (.unexpectedCharacter c place) place c
  | quote {c : Char} (either : c = '\'' ∨ c = '"') (place : Nat) :
      Tells (.unterminatedString place) place c
  | digit {c : Char} (digit : c.isDigit = true) (place : Nat) :
      Tells (.invalidNumber place) place c

/-- Where a token should start, an error tells the first character, or the first digit behind a
minus. -/
inductive Faulty (size : Nat) (e : Error) : List Char → Prop where
  | here {c : Char} {s : List Char} (tells : e.Tells (size - (c :: s).length) c) :
      Faulty size e (c :: s)
  | behind {c : Char} {s : List Char} (digit : c.isDigit = true)
      (tells : e.Tells (size - (c :: s).length) c) : Faulty size e ('-' :: c :: s)

section
variable {size : Nat} {s rest : List Char} {e : Error}

theorem eq_of_unsigned_error (h : (unsigned size s).1 = .error e) :
    e = .invalidNumber (size - s.length) := by
  rw [unsigned] at h
  split at h
  next w left read =>
  split at h <;> cases h
  rfl

theorem tells_of_unsigned {c : Char} (digit : c.isDigit = true) {f : Number → Token}
    (h : (unsigned size (c :: s)).1.map f = .error e) :
    e.Tells (size - (c :: s).length) c := by
  cases read : (unsigned size (c :: s)).1 with
  | ok x =>
    rw [read] at h
    cases h
  | error e' =>
    rw [read] at h
    cases h
    rw [eq_of_unsigned_error read]
    exact .digit digit _

theorem faulty_of_plain {c : Char} (sign : single? c = none) (other : c ∉ ['-', '!'])
    (h : scan size (c :: s) = (.error e, rest)) : Faulty size e (c :: s) := by
  rw [scan_plain sign other] at h
  split at h
  · next quote =>
    split at h
    · cases h
    · cases h
      exact .here (.quote (by simpa using quote) _)
  split at h
  · next digit => exact .here (tells_of_unsigned digit (congrArg Prod.fst h))
  split at h
  · cases h
  · cases h
    exact .here (.character c _)

theorem faulty_of_scan (h : scan size s = (.error e, rest)) : Faulty size e s := by
  cases s with
  | nil => cases h
  | cons c s =>
    obtain ⟨d, s, u, rfl, sign⟩ | alone := double_or_alone c s
    · rw [scan_double sign] at h
      cases h
    cases sign : single? c with
    | some u =>
      rw [scan_single sign alone] at h
      cases h
    | none =>
      by_cases minus : c = '-'
      · subst minus
        rw [scan_minus] at h
        split at h
        · next digit =>
          cases s with
          | nil => cases digit
          | cons d s =>
            have digit : d.isDigit = true := digit
            exact .behind digit (tells_of_unsigned digit (congrArg Prod.fst h))
        · cases h
          exact .here (.character '-' _)
      by_cases bang : c = '!'
      · subst bang
        have equal : s.head? ≠ some '=' := fun second => nomatch alone '=' second
        rw [scan_bang, if_neg equal] at h
        cases h
        exact .here (.character '!' _)
      exact faulty_of_plain sign (by simp [minus, bang]) h

theorem faulty_of_readSolid {value : Bool} (h : readSolid value size s = (.error e, rest)) :
    Faulty size e s := by
  unfold readSolid at h
  split at h
  · cases h
  · exact faulty_of_scan h

end

/-! ## Readings in a row -/

namespace Lexer

/-- The lexer behind a number of readings in a row, which go on after an error and after the end of
the input. -/
def afterReadings (l : Lexer) : Nat → Lexer
  | 0 => l
  | n + 1 => l.next.2.afterReadings n

/-- A lexer stands in a text. -/
structure Stands (input : List Char) (l : Lexer) : Prop where
  rest : l.rest <:+ input
  size : l.size = input.length

/-- An error tells a place behind white space and comments, or behind the sign of a number there,
and the place is in the text. -/
def Blames (input : List Char) (l : Lexer) (e : Error) : Prop :=
  ∃ gap sign c behind, l.rest = gap ++ (sign ++ c :: behind) ∧ Blanks gap ∧
    (sign = [] ∨ sign = ['-'] ∧ c.isDigit = true) ∧
      e.Tells (l.position + (gap ++ sign).length) c ∧
        input[l.position + (gap ++ sign).length]? = some c

/-- What one reading does in a text. -/
structure Onward (input : List Char) (l : Lexer) : Prop where
  /-- The lexer stands inside the text, in front of what is still to be read. -/
  inside : l.position ≤ input.length ∧ l.rest = input.drop l.position
  /-- The reader at positions reads the same, and no access of it fails. -/
  cursor : Cursor.next l.mode ⟨input, l.position⟩ =
    some (l.next.1, l.next.2.mode, ⟨input, l.next.2.position⟩)
  /-- The lexer does not go back. -/
  position_le : l.position ≤ l.next.2.position
  /-- A token takes a character: what is passed is white space and comments, and the token. -/
  token : ∀ t, l.next.1 = .ok t → t ≠ .endOfInput → l.position < l.next.2.position ∧
    ∃ gap w, Blanks gap ∧ t.ReadFrom w ∧ l.rest = gap ++ (w ++ l.next.2.rest)
  /-- The input ends where there is nothing left but white space and comments. -/
  last : l.next.1 = .ok .endOfInput ↔ Trails l.rest
  /-- An error tells where it is. -/
  fault : ∀ e, l.next.1 = .error e → l.Blames input e

section
variable {input : List Char} {l : Lexer}

theorem next_fst (l : Lexer) : l.next.1 = l.read.1 := by
  rw [next]
  split <;> next read => rw [read]

theorem Stands.next (h : l.Stands input) : l.next.2.Stands input :=
  ⟨l.rest_next_suffix.trans h.rest, l.size_next.trans h.size⟩

theorem Stands.afterReadings (h : l.Stands input) (n : Nat) : (l.afterReadings n).Stands input := by
  induction n generalizing l with
  | zero => exact h
  | succ n ih => exact ih h.next

theorem stands_ofText (text : String) : (ofText text).Stands text.toList :=
  ⟨List.suffix_refl _, rfl⟩

theorem Stands.before (h : l.Stands input) : Cursor.before input l.rest = ⟨input, l.position⟩ := by
  rw [Cursor.before, position, h.size]

theorem Stands.rest_eq (h : l.Stands input) : l.rest = input.drop l.position := by
  rw [position, h.size]
  exact List.suffix_iff_eq_drop.1 h.rest

theorem position_le_next (l : Lexer) : l.position ≤ l.next.2.position := by
  have shorter := l.rest_next_suffix.length_le
  rw [position, position, size_next]
  omega

theorem Meets.readFrom {e : Lexeme} (h : l.Meets e) : e.token.ReadFrom e.text := by
  obtain ⟨w, hw, readFrom⟩ := exists_readFrom h.read
  exact List.append_cancel_right hw ▸ readFrom

theorem Meets.blanks {e : Lexeme} (h : l.Meets e) (more : e.token ≠ .endOfInput) :
    Blanks e.gap := by
  obtain ⟨g, closed, blank⟩ := h.gap
  rw [blank more] at closed
  exact blanks_iff.2 closed

/-- What is passed for a token. -/
theorem exists_gap_of_token {t : Token} (h : l.next.1 = .ok t) (more : t ≠ .endOfInput) :
    ∃ gap w, Blanks gap ∧ t.ReadFrom w ∧ l.rest = gap ++ (w ++ l.next.2.rest) := by
  obtain ⟨meets, behind⟩ := meets_lexeme (Prod.ext h rfl : l.next = (.ok t, l.next.2))
  refine ⟨_, _, meets.blanks more, meets.readFrom, ?_⟩
  rw [behind]
  exact meets.rest

theorem next_last_iff (l : Lexer) : l.next.1 = .ok .endOfInput ↔ Trails l.rest := by
  rw [trails_iff, next_fst, read_eq]
  constructor
  · intro last
    exact eq_nil_of_readSolid (Prod.ext last rfl)
  · intro empty
    rw [empty, readSolid_nil]

/-- An error that tells a character behind what is passed tells where it is. -/
theorem Stands.blames (h : l.Stands input) {e : Error} {sign behind : List Char} {c : Char}
    (solid : afterGap .blank l.rest = sign ++ c :: behind)
    (digit : sign = [] ∨ sign = ['-'] ∧ c.isDigit = true)
    (tells : e.Tells (l.size - (c :: behind).length) c) : l.Blames input e := by
  obtain ⟨gap, g, whole, closed, blank⟩ := exists_gap .blank l.rest
  rw [solid] at whole
  rw [blank (by simp [solid])] at closed
  have place : l.size - (c :: behind).length = l.position + (gap ++ sign).length := by
    have inside := h.rest.length_le
    rw [← h.size, whole] at inside
    rw [position, whole]
    simp only [List.length_append, List.length_cons] at inside ⊢
    omega
  refine ⟨gap, sign, c, behind, whole, blanks_iff.2 closed, digit, place ▸ tells, ?_⟩
  rw [← List.getElem?_drop, ← h.rest_eq, whole, ← List.append_assoc]
  simp

/-- **What one reading does.** -/
theorem Stands.onward (h : l.Stands input) : l.Onward input where
  inside := ⟨(Nat.sub_le _ _).trans h.size.le, h.rest_eq⟩
  cursor := by
    rw [← h.before, ← h.next.before, Cursor.next_before l.mode h.rest, ← h.size]
  position_le := l.position_le_next
  token := by
    intro t read more
    refine ⟨?_, exists_gap_of_token read more⟩
    have shorter := rest_next_length_lt (Prod.ext read rfl : l.next = (.ok t, l.next.2)) more
    have inside := h.rest.length_le
    rw [position, position, size_next, h.size]
    omega
  last := l.next_last_iff
  fault := by
    intro e read
    rw [next_fst, read_eq] at read
    have faulty : Faulty l.size e (afterGap .blank l.rest) :=
      faulty_of_readSolid (Prod.ext read rfl)
    generalize hs : afterGap .blank l.rest = s at faulty
    cases faulty with
    | here tells => exact h.blames hs (.inl rfl) tells
    | behind digit tells => exact h.blames hs (.inr ⟨rfl, digit⟩) tells

/-- Behind more readings, the lexer stands no earlier. -/
theorem position_afterReadings_le (l : Lexer) {m n : Nat} (h : m ≤ n) :
    (l.afterReadings m).position ≤ (l.afterReadings n).position := by
  induction m generalizing l n with
  | zero =>
    clear h
    induction n generalizing l with
    | zero => exact Nat.le_refl _
    | succ n ih => exact l.position_le_next.trans (ih l.next.2)
  | succ m ih =>
    obtain ⟨n, rfl⟩ : ∃ k, n = k + 1 := ⟨n - 1, by omega⟩
    exact ih l.next.2 (by omega)

/-- **The tokens end**: behind no more tokens than there are characters, one reading gives the end
of the input or an error. -/
theorem exists_results (l : Lexer) : ∃ us, us.length ≤ l.rest.length ∧ .endOfInput ∉ us ∧
    ((l.tokens = .ok (us ++ [.endOfInput]) ∧
        l.results (us.length + 1) = (us ++ [.endOfInput]).map .ok) ∨
      ∃ e, l.tokens = .error e ∧ l.results (us.length + 1) = us.map .ok ++ [.error e]) := by
  induction hn : l.rest.length using Nat.strongRecOn generalizing l with
  | _ n ih =>
    rcases hnext : l.next with ⟨e | t, l'⟩
    · refine ⟨[], Nat.zero_le _, by simp, .inr ⟨e, tokens_error hnext, ?_⟩⟩
      simp [results, hnext]
    by_cases last : t = .endOfInput
    · subst last
      refine ⟨[], Nat.zero_le _, by simp, .inl ⟨tokens_last hnext, ?_⟩⟩
      simp [results, hnext]
    have shorter := rest_next_length_lt hnext last
    obtain ⟨us, length, ends, found⟩ := ih _ (hn ▸ shorter) l' rfl
    refine ⟨t :: us, Nat.lt_of_le_of_lt length (hn ▸ shorter), by simp [Ne.symm last, ends], ?_⟩
    rw [tokens_more hnext last, List.length_cons, results, hnext]
    obtain ⟨tokens, results⟩ | ⟨e, tokens, results⟩ := found
    · exact .inl (by simp [tokens, results, Except.map])
    · exact .inr ⟨e, by simp [tokens, results, Except.map]⟩

/-- Lexemes are the whole of what was still to be read. -/
theorem Lexes.written_eq {es : List Lexeme} (h : l.Lexes es) : written es = l.rest := by
  induction h with
  | last h last =>
    rw [h.rest, (h.nil_of_last last).1, (h.nil_of_last last).2]
    simp [(h.nil_of_last last).1]
  | more h _ _ ih => rw [written_cons, ih, h.rest]

end

end Lexer

/-- **The lexer gets on and leaves nothing out, and the parser comes to an end.** Each reading of a
text, also behind an error, passes white space and comments and the characters of a token, and an
error tells a place in the text. The lexemes of a text are the text. Tokens other than the end of
the input are no more than the characters. The loops of the parser need no bound; a script takes a
token for each statement and for each semicolon. -/
theorem reads_onward (text : String) :
    (∀ n, ((Lexer.ofText text).afterReadings n).Onward text.toList) ∧
    (∀ m n, m ≤ n → ((Lexer.ofText text).afterReadings m).position ≤
      ((Lexer.ofText text).afterReadings n).position) ∧
    (∀ es, lexemes text = .ok es → written es = text.toList ∧ ∀ e ∈ es,
      e.token.ReadFrom e.text ∧ Trails e.gap ∧ (e.token ≠ .endOfInput → Blanks e.gap)) ∧
    (∃ us, us.length ≤ text.length ∧ .endOfInput ∉ us ∧
      ((tokenize text = .ok (us ++ [.endOfInput]) ∧
          (Lexer.ofText text).results (us.length + 1) = (us ++ [.endOfInput]).map .ok) ∨
        ∃ e, tokenize text = .error e ∧
          (Lexer.ofText text).results (us.length + 1) = us.map .ok ++ [.error e])) ∧
    Parser.LoopsEnd ∧
    (∀ ts s rest, Parser.statement.runOn ts = (.ok s, rest) → rest.length < ts.length) ∧
    (∀ ts ss rest, Parser.script.runOn ts = (.ok ss, rest) →
      ∃ us, ts = us ++ rest ∧ ss.length + us.count .semicolon ≤ us.length) ∧
    (∀ ss, parseScript text = .ok ss →
      ∃ ts, tokenize text = .ok ts ∧ ss.length + ts.count .semicolon < ts.length) := by
  refine ⟨fun n => ((Lexer.stands_ofText text).afterReadings n).onward,
    fun m n => (Lexer.ofText text).position_afterReadings_le, fun es found => ?_, ?_,
    Parser.loopsEnd, fun ts s rest => Parser.length_statement_lt,
    fun ts ss rest => Parser.length_script_le, fun ss found => ?_⟩
  · have lexes := (lexemes_ok found).2
    refine ⟨lexes.written_eq, fun e mem => ?_⟩
    obtain ⟨l, meets⟩ := lexes.exists_meets mem
    exact ⟨meets.readFrom, trails_iff.2 meets.afterGap_gap, meets.blanks⟩
  · exact (Lexer.ofText text).exists_results
  · obtain ⟨ts, tokens⟩ := exists_tokens_of_parseScript found
    have script := (parseScript_ok_iff tokens).1 found
    have bound := script.length_add_count_le
    refine ⟨_, tokens, ?_⟩
    rw [List.count_append, List.length_append, List.length_singleton,
      List.count_singleton, if_neg (by simp)]
    omega

/-- Behind a number that a letter follows, the lexer stands in front of the letter. A character
that starts no token is not passed. -/
example : (Lexer.ofText "(-3x @").results 5 = [.ok .openParen, .error (.invalidNumber 2),
    .ok (.name "x"), .error (.unexpectedCharacter '@' 5),
    .error (.unexpectedCharacter '@' 5)] := by decide +kernel

end Sql
end PocketSql
