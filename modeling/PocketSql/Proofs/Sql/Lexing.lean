import Mathlib.Data.List.Basic
import PocketSql.Proofs.Number.ReadBack
import PocketSql.Proofs.Sql.Printing
import PocketSql.Sql.Tokens

/-!
# Spelled tokens are read

The lexer reads tokens from their texts, if each of them fits the mode that the tokens before it
have left. What a token is read as does not depend on what is in a string, or on the letter case of
a keyword, and the character behind it never goes on with it.

## Main definitions

* `Fits` — a token can be read in a mode.
* `Passes` — tokens in a row can be read from a mode on, and leave another one.

## Main results

* `tokens_spelled` — the tokens of a text that spells tokens are those tokens.
-/

namespace PocketSql
namespace Sql

/-! ## Characters -/

/-- The signs that tokens and comments start with. -/
def signs : List Char :=
  ['\'', '"', '=', '!', '<', '>', '*', '(', ')', ',', ';', '.', '-', '/']

theorem sign_classes {c : Char} (h : c ∈ signs) :
    Text.isBlank c = false ∧ startsWord c = false ∧ inWord c = false := by
  have all : (signs.all fun c => !Text.isBlank c && (!startsWord c && !inWord c)) = true := by
    decide +kernel
  simpa using List.all_eq_true.1 all c h

theorem not_mem_signs_of_startsWord {c : Char} (h : startsWord c = true) : c ∉ signs := by
  intro hc
  rw [(sign_classes hc).2.1] at h
  cases h

theorem not_inWord_of_isBlank {c : Char} (h : Text.isBlank c = true) : inWord c = false := by
  obtain ⟨r, hr, low, high⟩ := Text.Ranges.exists_of_has h
  have apart : ∀ r ∈ Text.blankRanges, ∀ i < 11, r.1 + i ≤ r.2 →
      Text.alphabeticRanges.has (r.1 + i) = false ∧ Text.numericRanges.has (r.1 + i) = false ∧
        r.1 + i ≠ '_'.toNat := by
    decide +kernel
  have size : r.2 < r.1 + 11 := by
    have : ∀ r ∈ Text.blankRanges, r.2 < r.1 + 11 := by decide
    exact this r hr
  have := apart r hr (c.toNat - r.1) (by omega) (by omega)
  rw [Nat.add_sub_cancel' low] at this
  simp only [inWord, Text.isAlphabetic, Text.isNumeric, this, Bool.false_or,
    decide_eq_false_iff_not]
  rintro rfl
  exact this.2.2 rfl

theorem inWord_of_mem {c : Char} {s : List Char} (hc : startsWord c = true)
    (hs : ∀ a ∈ s, inWord a = true) {a : Char} (ha : a ∈ c :: s) : inWord a = true := by
  obtain rfl | ha := List.mem_cons.1 ha
  · exact inWord_of_startsWord hc
  · exact hs a ha

theorem inRun_of_inWord {c : Char} (h : inWord c = true) : inRun c = true := by
  have blank : Text.isBlank c = false := by
    by_contra hb
    rw [not_inWord_of_isBlank (by simpa using hb)] at h
    cases h
  have stops : ['(', ')', ',', ';', '\'', '"', '=', '<', '>', '!'] ⊆ signs := by decide
  simp only [inRun, blank, Bool.false_or, Bool.not_eq_true']
  by_contra hc
  rw [Bool.not_eq_false, List.contains_iff_mem] at hc
  rw [(sign_classes (stops hc)).2.2] at h
  cases h

theorem digit_classes {c : Char} (h : c.isDigit = true) :
    startsWord c = false ∧ inRun c = true := by
  have small : c.toNat < 128 := by
    have := (Char.isDigit_iff_toNat.1 h).2
    simp at this
    omega
  have all : ∀ n < 128, (Char.ofNat n).isDigit = true →
      startsWord (Char.ofNat n) = false ∧ inRun (Char.ofNat n) = true := by
    decide +kernel
  rw [← Char.ofNat_toNat c] at h ⊢
  exact all _ small h

/-- A letter of a keyword, in either case. -/
theorem letter_of_toUpper {c : Char} (h : c.toUpper.isUpper = true) :
    startsWord c = true ∧ Text.asciiUpper c = [c.toUpper] := by
  have small : c.toNat < 128 := by
    by_contra large
    have above {d : Char} (hd : d.toNat < 128) : ¬c.val ≤ d.val := by
      intro hc
      exact large (Nat.lt_of_le_of_lt (UInt32.le_iff_toNat_le.1 hc) hd)
    have same : c.toUpper = c := dif_neg fun hc => above (d := 'z') (by decide) hc.2
    rw [same] at h
    exact above (d := 'Z') (by decide) (of_decide_eq_true h).2
  have all : ∀ n < 128, (Char.ofNat n).toUpper.isUpper = true →
      startsWord (Char.ofNat n) = true ∧
        Text.asciiUpper (Char.ofNat n) = [(Char.ofNat n).toUpper] := by
    decide +kernel
  rw [← Char.ofNat_toNat c] at h ⊢
  exact all _ small h

theorem isUpper_of_mem_text {k : Keyword} {c : Char} (h : c ∈ k.text.toList) :
    c.isUpper = true := by
  have all : k.text.toList.all Char.isUpper = true := by cases k <;> decide
  exact List.all_eq_true.1 all c h

/-- A word whose upper case is a keyword is that keyword. -/
theorem ofWord?_of_upper {k : Keyword} {w : List Char}
    (h : w.flatMap Text.asciiUpper = k.text.toList) : Keyword.ofWord? w = some k := by
  rw [Keyword.ofWord?, h]
  cases k <;> decide

/-- A keyword in any letter case is that keyword. -/
theorem ofWord?_of_letters {k : Keyword} {w : List Char} (h : w.map Char.toUpper = k.text.toList) :
    Keyword.ofWord? w = some k := by
  apply ofWord?_of_upper
  have letters : ∀ c ∈ w, Text.asciiUpper c = [c.toUpper] := by
    intro c hc
    apply (letter_of_toUpper _).2
    apply isUpper_of_mem_text (k := k)
    rw [← h]
    exact List.mem_map_of_mem hc
  rw [← h, List.map_eq_flatMap]
  exact List.flatMap_congr letters

theorem word_of_letters {k : Keyword} {w : List Char} (h : w.map Char.toUpper = k.text.toList) :
    ∃ c s, w = c :: s ∧ startsWord c = true ∧ ∀ a ∈ s, inWord a = true := by
  have letters : ∀ c ∈ w, startsWord c = true := by
    intro c hc
    apply (letter_of_toUpper _).1
    apply isUpper_of_mem_text (k := k)
    rw [← h]
    exact List.mem_map_of_mem hc
  cases w with
  | nil =>
    cases k <;> cases h
  | cons c s =>
    refine ⟨c, s, rfl, letters c (by simp), fun a ha => ?_⟩
    exact inWord_of_startsWord (letters a (by simp [ha]))

/-! ## Gaps -/

theorem afterGap_solid {c : Char} {s : List Char} (blank : Text.isBlank c = false)
    (slash : c ≠ '/') (minus : c = '-' → s.head? ≠ some '-') :
    afterGap .blank (c :: s) = c :: s := by
  unfold afterGap
  split <;> simp_all

/-! ## What stands behind a token -/

/-- Whether a character can start a text of a token. -/
def starts : Token → Char → Bool
  | .keyword _, c | .name _, c => startsWord c
  | .number _, c => c.isDigit || c = '-'
  | .string _, c => c = '\'' || c = '"'
  | .comparison _, c => ['=', '!', '<', '>'].contains c
  | .star, c => c = '*'
  | .openParen, c => c = '('
  | .closeParen, c => c = ')'
  | .comma, c => c = ','
  | .semicolon, c => c = ';'
  | .dot, c => c = '.'
  | .endOfInput, _ => false

/-- Whether a token ends where a character stands behind it. -/
def parts : Token → Char → Bool
  | .keyword _, c | .number _, c => !inRun c
  | .name _, c => !inWord c
  | .string _, c => c ≠ '\'' && c ≠ '"'
  | .comparison _, c => c ≠ '=' && c ≠ '>'
  | _, _ => true

/-! ## Words -/

theorem scan_word {size : Nat} {c : Char} {s rest : List Char} (hc : startsWord c = true)
    (hs : ∀ a ∈ s, inWord a = true) (behind : ∀ a, rest.head? = some a → inWord a = false) :
    scan size (c :: s ++ rest) = (.ok (wordToken (c :: s)), rest) := by
  have word : ∀ a ∈ c :: s, inWord a = true := fun a ha => inWord_of_mem hc hs ha
  have other := not_mem_signs_of_startsWord hc
  rw [← List.singleton_append, List.append_assoc, List.singleton_append]
  unfold scan
  dsimp only
  split <;> try exact absurd (by decide) other
  have quote : ¬ (decide (c = '\'') || decide (c = '"')) = true := by
    intro hq
    rw [Bool.or_eq_true, decide_eq_true_eq, decide_eq_true_eq] at hq
    obtain rfl | rfl := hq <;> exact absurd (by decide) other
  have digit : ¬ c.isDigit = true := by
    intro hd
    rw [(digit_classes hd).1] at hc
    cases hc
  rw [if_neg quote, if_neg digit, if_pos hc, ← List.cons_append, takeWhile_front word behind,
    dropWhile_front word behind]
  rfl

theorem quoted_doubled {quote : Char} (s : List Char) {rest : List Char}
    (behind : rest.head? ≠ some quote) :
    quoted quote (doubled quote s ++ quote :: rest) = some (s, rest) := by
  induction s with
  | nil =>
    cases rest with
    | nil => simp [doubled, quoted]
    | cons d rest => simp_all [doubled, quoted]
  | cons c s ih =>
    by_cases hc : c = quote
    · have ih' : quoted quote (doubled quote s ++ quote :: rest) = some (s, rest) := ih
      simp only [doubled, List.flatMap_cons, hc, if_true] at ih' ⊢
      simp [quoted, ih']
    · obtain ⟨d, t, hd⟩ : ∃ d t, doubled quote s ++ quote :: rest = d :: t :=
        List.exists_cons_of_ne_nil (by simp)
      have split : doubled quote (c :: s) ++ quote :: rest = c :: d :: t := by
        rw [← hd]
        simp [doubled, hc]
      rw [split, quoted, if_neg hc, ← hd, ih]
      rfl

/-- A run of characters where a value is expected. -/
theorem bareValue_run {w rest : List Char} (some : w ≠ []) (run : ∀ a ∈ w, inRun a = true)
    (behind : ∀ a, rest.head? = Option.some a → inRun a = false) :
    bareValue (w ++ rest) =
      if reservedWord w then none else Option.some (runToken w, rest) := by
  simp only [bareValue, takeWhile_front run behind, dropWhile_front run behind]
  simp [some]

theorem inRun_of_numeral {c : Char} (h : c.isDigit = true ∨ c = '.' ∨ c = '-') :
    inRun c = true := by
  obtain h | rfl | rfl := h
  · exact (digit_classes h).2
  · decide
  · decide

theorem bareValue_number {x : Number} (finite : x.isFinite = true) {rest : List Char}
    (behind : ∀ a, rest.head? = some a → inRun a = false) :
    bareValue ((Value.number x).display.toList ++ rest) = some (.number x.folded, rest) := by
  obtain ⟨negative, s, d, hw, ⟨c, t, rfl, hc, ht⟩, -⟩ := Number.display_spec finite
  have back := Number.ofChars?_display finite
  have minus : startsWord '-' = false := (sign_classes (by decide)).2.1
  have chars : ∀ a ∈ c :: t, inRun a = true := by
    intro a ha
    obtain rfl | ha := List.mem_cons.1 ha
    · exact inRun_of_numeral (.inl hc)
    · exact inRun_of_numeral ((ht a ha).imp_right .inl)
  rw [hw] at back ⊢
  cases negative with
  | true =>
    have run : ∀ a ∈ '-' :: c :: t, inRun a = true := by
      intro a ha
      obtain rfl | ha := List.mem_cons.1 ha
      · exact inRun_of_numeral (.inr (.inr rfl))
      · exact chars a ha
    simp only [if_true] at back ⊢
    rw [bareValue_run (by simp) run behind]
    simp [reservedWord, minus, runToken, hc, back]
  | false =>
    simp only [Bool.false_eq_true, if_false] at back ⊢
    rw [bareValue_run (by simp) chars behind]
    simp [reservedWord, digit_classes hc, runToken, hc, back]

/-- A reserved keyword is no value. -/
theorem bareValue_keyword {k : Keyword} {w rest : List Char}
    (letters : w.map Char.toUpper = k.text.toList) (reserved : k.reserved = true)
    (behind : ∀ c, rest.head? = some c → parts (.keyword k) c = true) :
    bareValue (w ++ rest) = none := by
  obtain ⟨c, s, rfl, hc, hs⟩ := word_of_letters letters
  have word : ∀ a ∈ c :: s, inWord a = true := fun a ha => inWord_of_mem hc hs ha
  have known : reservedWord (c :: s) = true := by
    simpa [reservedWord, ofWord?_of_letters letters, reserved, hc] using word
  rw [bareValue_run (by simp) (fun a ha => inRun_of_inWord (word a ha))
    (by simpa [parts] using behind), if_pos known]

theorem scan_keyword (size : Nat) {k : Keyword} {w rest : List Char}
    (letters : w.map Char.toUpper = k.text.toList)
    (behind : ∀ c, rest.head? = some c → parts (.keyword k) c = true) :
    scan size (w ++ rest) = (.ok (.keyword k), rest) := by
  obtain ⟨c, s, rfl, hc, hs⟩ := word_of_letters letters
  have ends : ∀ a, rest.head? = some a → inWord a = false := by
    intro a ha
    by_contra word
    have run := inRun_of_inWord (by simpa using word)
    have := behind a ha
    simp [parts, run] at this
  rw [scan_word hc hs ends, wordToken, ofWord?_of_letters letters]

theorem scan_string (size : Nat) (s : String) {quote : Char} (either : quote = '\'' ∨ quote = '"')
    {rest : List Char} (behind : ∀ c, rest.head? = some c → parts (.string s) c = true) :
    scan size (quote :: (doubled quote s.toList ++ [quote] ++ rest)) = (.ok (.string s), rest) := by
  have other : rest.head? ≠ some quote := by
    intro hq
    have := behind quote hq
    obtain rfl | rfl := either <;> simp [parts] at this
  have content := quoted_doubled s.toList other
  rw [List.append_assoc, List.singleton_append]
  obtain rfl | rfl := either
  · simp [scan, content]
  · simp [scan, content]

theorem scan_comparison (size : Nat) (op : Comparison) {rest : List Char}
    (behind : ∀ c, rest.head? = some c → parts (.comparison op) c = true) :
    scan size (op.text.toList ++ rest) = (.ok (.comparison op), rest) := by
  cases rest with
  | nil => cases op <;> rfl
  | cons c rest =>
    have := behind c rfl
    simp only [parts, Bool.and_eq_true, decide_eq_true_eq] at this
    cases op <;> simp_all [Comparison.text, scan]

theorem bareValue_eq_none {c : Char} {s : List Char} (h : inRun c = false) :
    bareValue (c :: s) = none := by
  simp [bareValue, h]

theorem starts_spelled {t : Token} {w : List Char} (h : SpelledToken t w) :
    ∃ c s, w = c :: s ∧ starts t c = true := by
  cases h with
  | keyword k letters =>
    obtain ⟨c, s, hw, hc, -⟩ := word_of_letters letters
    exact ⟨c, s, hw, hc⟩
  | name plain =>
    obtain ⟨c, s, hw, hc, -⟩ := plain
    exact ⟨c, s, hw, hc⟩
  | number finite =>
    obtain ⟨negative, s, d, hw, ⟨c, t, rfl, hc, -⟩, -⟩ := Number.display_spec finite
    cases negative with
    | true => exact ⟨'-', c :: t, hw, by simp [starts]⟩
    | false => exact ⟨c, t, hw, by simp [starts, hc]⟩
  | string s either => exact ⟨_, _, rfl, by simpa [starts] using either⟩
  | comparison op => cases op <;> exact ⟨_, _, rfl, rfl⟩
  | _ => exact ⟨_, _, rfl, rfl⟩

theorem parts_blank (t : Token) : parts t ' ' = true := by
  have run : inRun ' ' = false := by decide
  have word : inWord ' ' = false := not_inWord_of_isBlank (by decide)
  cases t <;> simp [parts, run, word]

/-- No token but a comparison starts as one may go on. -/
theorem not_goesOn_of_starts {u : Token} {c : Char} (other : ∀ op, u ≠ .comparison op)
    (hc : starts u c = true) : c ≠ '=' ∧ c ≠ '>' := by
  have eq : startsWord '=' = false := (sign_classes (by decide)).2.1
  have gt : startsWord '>' = false := (sign_classes (by decide)).2.1
  constructor
  · rintro rfl
    cases u <;> simp_all [starts]
  · rintro rfl
    cases u <;> simp_all [starts]

/-- A sign stands behind any token but a sign. -/
theorem parts_of_starts_sign {t u : Token} {c : Char} (sign : isSign u = true)
    (other : isSign t = false) (hc : starts u c = true) : parts t c = true := by
  have mem : c ∈ ['(', ')', ',', ';', '=', '!', '<', '>'] := by
    cases u <;> simp_all [isSign, starts]
  have among : ['(', ')', ',', ';', '=', '!', '<', '>'] ⊆ signs := by decide
  have word := (sign_classes (among mem)).2.2
  have ends : (['(', ')', ',', ';', '=', '!', '<', '>'].all fun d =>
      !inRun d && (d != '\'' && d != '"')) = true := by
    decide
  obtain ⟨run, single, double⟩ : inRun c = false ∧ c ≠ '\'' ∧ c ≠ '"' := by
    simpa using List.all_eq_true.1 ends c mem
  cases t <;> simp_all [parts, isSign]

theorem parts_of_touches {t u : Token} {c : Char} (touch : touches t u = true)
    (hc : starts u c = true) : parts t c = true := by
  cases hsign : isSign t with
  | true =>
    cases t with
    | comparison op =>
      have other : ∀ op', u ≠ .comparison op' := by
        rintro op' rfl
        cases touch
      simpa [parts] using not_goesOn_of_starts other hc
    | _ => first | rfl | cases hsign
  | false =>
    cases husign : isSign u with
    | true => exact parts_of_starts_sign husign hsign hc
    | false =>
      -- only a name and a dot touch without a sign
      have dot : inWord '.' = false := (sign_classes (by decide)).2.2
      cases t <;> cases u <;> simp_all [touches, isSign, starts, parts]

/-! ## Modes -/

/-- A token can be read in a mode: numbers only where a value is expected, and names, unreserved
keywords, stars and dots only where none is. -/
def Fits (m : Mode) (t : Token) : Prop :=
  (∃ w, SpelledToken t w) ∧
    match t with
    | .number _ => m.value = true
    | .name _ | .star | .dot => m.value = false
    | .keyword k => m.value = true → k.reserved = true
    | _ => True

/-- Tokens in a row can be read from a mode on, and leave another one. -/
inductive Passes : Mode → List Token → Mode → Prop where
  | nil (m : Mode) : Passes m [] m
  | cons {m m' : Mode} {t : Token} {ts : List Token} (h : Fits m t)
      (tail : Passes (m.after t) ts m') : Passes m (t :: ts) m'

theorem Passes.append {m m' m'' : Mode} {ts us : List Token} (h : Passes m ts m')
    (h' : Passes m' us m'') : Passes m (ts ++ us) m'' := by
  induction h with
  | nil => exact h'
  | cons h _ ih => exact .cons h (ih h')

/-! ## Reading -/

theorem read_spelled {t : Token} {w : List Char} (h : SpelledToken t w) {m : Mode} (fits : Fits m t)
    {rest : List Char} (behind : ∀ c, rest.head? = some c → parts t c = true) (size : Nat) :
    (match if m.value then bareValue (w ++ rest) else none with
      | some (t, rest) => (.ok t, rest)
      | none => scan size (w ++ rest)) = (.ok t, rest) := by
  obtain ⟨-, fits⟩ := fits
  -- where a value is expected, signs and quotes are not part of one
  have sign {c : Char} {s : List Char} (hc : inRun c = false) :
      (if m.value then bareValue (c :: s) else none) = none := by
    simp [bareValue_eq_none hc]
  cases h with
  | keyword k letters =>
    have scanned := scan_keyword size letters behind
    cases value : m.value with
    | false => simpa using scanned
    | true =>
      rw [if_pos rfl, bareValue_keyword letters (fits value) behind]
      exact scanned
  | name plain =>
    obtain ⟨c, s, hw, hc, hs, unreserved⟩ := plain
    have value : m.value = false := fits
    rw [value, hw]
    simp only [Bool.false_eq_true, if_false]
    rw [scan_word hc hs (by simpa [parts] using behind), wordToken, ← hw, unreserved]
    simp
  | number finite =>
    have value : m.value = true := fits
    rw [value, if_pos rfl, bareValue_number finite (by simpa [parts] using behind)]
  | @string s quote either =>
    have hq : inRun quote = false := by
      obtain rfl | rfl := either <;> decide
    rw [List.cons_append, sign hq]
    exact scan_string size s either behind
  | comparison op =>
    have hop : ∃ c s, op.text.toList = c :: s ∧ inRun c = false := by
      cases op <;> exact ⟨_, _, rfl, by decide⟩
    obtain ⟨c, s, hc, run⟩ := hop
    have scanned := scan_comparison size op behind
    rw [hc, List.cons_append] at scanned ⊢
    rw [sign run]
    exact scanned
  | unequal =>
    rw [List.cons_append, sign (by decide)]
    rfl
  | star =>
    have value : m.value = false := fits
    rw [value]
    rfl
  | dot =>
    have value : m.value = false := fits
    rw [value]
    rfl
  | _ =>
    rw [List.cons_append, sign (by decide)]
    rfl

/-- No token starts with white space or a comment. -/
theorem solid_of_starts {t : Token} {c : Char} (hc : starts t c = true) :
    Text.isBlank c = false ∧ c ≠ '/' ∧ (c = '-' → ∃ x, t = .number x) := by
  have slash : startsWord '/' = false := (sign_classes (by decide)).2.1
  have minus : startsWord '-' = false := (sign_classes (by decide)).2.1
  have run {c : Char} (h : inRun c = true) : Text.isBlank c = false := by
    simp only [inRun, Bool.not_eq_true', Bool.or_eq_false_iff] at h
    exact h.1
  cases t with
  | keyword k | name s =>
    refine ⟨run (inRun_of_inWord (inWord_of_startsWord hc)), ?_, ?_⟩
    · rintro rfl
      exact absurd hc (by simp [starts, slash])
    · rintro rfl
      exact absurd hc (by simp [starts, minus])
  | number x =>
    simp only [starts, Bool.or_eq_true, decide_eq_true_eq] at hc
    refine ⟨run (inRun_of_numeral (hc.imp_right .inr)), ?_, fun _ => ⟨x, rfl⟩⟩
    rintro rfl
    simp at hc
  | endOfInput => cases hc
  | _ =>
    have mem : c ∈ signs ∧ c ≠ '/' ∧ c ≠ '-' := by
      simp [starts, signs] at hc ⊢
      grind
    exact ⟨(sign_classes mem.1).1, mem.2.1, fun h => absurd h mem.2.2⟩

theorem afterGap_spelled {t : Token} {w : List Char} (h : SpelledToken t w) (rest : List Char) :
    afterGap .blank (w ++ rest) = w ++ rest := by
  obtain ⟨c, s, rfl, hc⟩ := starts_spelled h
  obtain ⟨blank, slash, minus⟩ := solid_of_starts hc
  apply afterGap_solid blank slash
  rintro rfl
  -- only a number starts with a minus, and goes on with a digit
  obtain ⟨x, rfl⟩ := minus rfl
  generalize hw : '-' :: s = w at h
  cases h with
  | number finite =>
    obtain ⟨negative, _, d, hd, ⟨c, t, rfl, hdigit, -⟩, -⟩ := Number.display_spec finite
    rw [hd] at hw
    cases negative with
    | true =>
      cases hw
      rintro ⟨⟩
      cases hdigit
    | false =>
      cases hw
      cases hdigit

/-- What a text may start with before a token: a space, or nothing. -/
def IsGap (s : List Char) : Prop := s = [] ∨ s = [' ']

theorem afterGap_gap {gap : List Char} (h : IsGap gap) (s : List Char) :
    afterGap .blank (gap ++ s) = afterGap .blank s := by
  obtain rfl | rfl := h
  · rfl
  · have blank : Text.isBlank ' ' = true := by decide
    simp [afterGap, blank]

theorem next_spelled {t : Token} {w : List Char} (h : SpelledToken t w) {m : Mode} (fits : Fits m t)
    {gap rest : List Char} (hgap : IsGap gap)
    (behind : ∀ c, rest.head? = some c → parts t c = true) (size : Nat) :
    (Lexer.mk size (gap ++ (w ++ rest)) m).next = (.ok t, ⟨size, rest, m.after t⟩) := by
  have read := read_spelled h fits behind size
  have whole : (Lexer.mk size (gap ++ (w ++ rest)) m).read = (.ok t, rest) := by
    simp only [Lexer.read, afterGap_gap hgap, afterGap_spelled h]
    exact read
  simp [Lexer.next, whole]

theorem next_end {gap : List Char} (hgap : IsGap gap) (size : Nat) (m : Mode) :
    ∃ l, (Lexer.mk size gap m).next = (.ok .endOfInput, l) := by
  have empty : afterGap .blank gap = [] := by
    rw [← List.append_nil gap, afterGap_gap hgap]
    rfl
  have whole : (Lexer.mk size gap m).read = (.ok .endOfInput, []) := by
    simp only [Lexer.read, empty]
    cases m.value <;> rfl
  exact ⟨_, by simp only [Lexer.next, whole]; rfl⟩

theorem ne_end_of_spelled {t : Token} {w : List Char} (h : SpelledToken t w) : t ≠ .endOfInput := by
  cases h <;> simp

/-- A text of tokens starts as the first of them. -/
theorem head_spelled {t : Token} {ts : List Token} {s : List Char} (h : Spelled (t :: ts) s) :
    ∃ c, s.head? = some c ∧ starts t c = true := by
  cases h with
  | last h | apart h | together h =>
    obtain ⟨c, w, rfl, hc⟩ := starts_spelled h
    exact ⟨c, rfl, hc⟩

/-- **A text that spells tokens has them.** -/
theorem tokens_spelled {ts : List Token} {s : List Char} (h : Spelled ts s) {m m' : Mode}
    (passes : Passes m ts m') {gap : List Char} (hgap : IsGap gap) (size : Nat) :
    (Lexer.mk size (gap ++ s) m).tokens = .ok (ts ++ [.endOfInput]) := by
  induction h generalizing m gap with
  | nil =>
    obtain ⟨l, hnext⟩ := next_end hgap size m
    rw [List.append_nil, Lexer.tokens_last hnext]
    rfl
  | @last t w h =>
    obtain _ | ⟨fits, -⟩ := passes
    have hnext : (Lexer.mk size (gap ++ (w ++ [])) m).next = (.ok t, ⟨size, [], m.after t⟩) :=
      next_spelled h fits hgap (by simp) size
    rw [List.append_nil] at hnext
    obtain ⟨l, hend⟩ := next_end (.inl rfl) size (m.after t)
    rw [Lexer.tokens_more hnext (ne_end_of_spelled h), Lexer.tokens_last hend]
    rfl
  | @apart t u ts w s h tail ih =>
    obtain _ | ⟨fits, passes⟩ := passes
    have hnext : (Lexer.mk size (gap ++ (w ++ ' ' :: s)) m).next =
        (.ok t, ⟨size, ' ' :: s, m.after t⟩) :=
      next_spelled h fits hgap (by simpa using parts_blank t) size
    have htail := ih passes (.inr rfl)
    rw [List.singleton_append] at htail
    rw [Lexer.tokens_more hnext (ne_end_of_spelled h), htail]
    rfl
  | @together t u ts w s h touch tail ih =>
    obtain _ | ⟨fits, passes⟩ := passes
    have hnext : (Lexer.mk size (gap ++ (w ++ s)) m).next = (.ok t, ⟨size, s, m.after t⟩) := by
      apply next_spelled h fits hgap
      intro c hc
      obtain ⟨d, hd, starts⟩ := head_spelled tail
      rw [hd] at hc
      cases hc
      exact parts_of_touches touch starts
    rw [Lexer.tokens_more hnext (ne_end_of_spelled h), ← List.nil_append s, ih passes (.inl rfl)]
    rfl

end Sql
end PocketSql
