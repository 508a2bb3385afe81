import Mathlib.Data.List.TakeWhile
import PocketSql.Proofs.Sql.Lexemes
import PocketSql.Proofs.Sql.Lexing

/-!
# Texts that go on alike

What a token is read as depends on little of the text behind it. Two texts go on alike if they have
the same characters up to where both go on with a word, both with a semicolon, or where each of them
ends or has white space. The lexer reads the same token in front of either.

## Main definitions

* `Alike` — two texts go on alike.

## Main results

* `readSolid_alike` — a token is read as before if the text behind it goes on alike.
* `Lexer.Meets.next_alike` — and so is a lexeme, with the white space and comments in front of it.
-/

namespace PocketSql
namespace Sql

/-- Two texts are the same up to where both go on with words or with semicolons, or to where each
of them ends or has white space. -/
inductive Alike : List Char → List Char → Prop where
  | stop {s t : List Char} (hs : s.head?.all Text.isBlank = true)
      (ht : t.head?.all Text.isBlank = true) : Alike s t
  | semicolon (s t : List Char) : Alike (';' :: s) (';' :: t)
  | word {c d : Char} (s t : List Char) (hc : startsWord c = true) (hd : startsWord d = true) :
      Alike (c :: s) (d :: t)
  | cons (c : Char) {s t : List Char} (h : Alike s t) : Alike (c :: s) (c :: t)

/-! ## White space -/

section
variable {c : Char} (h : Text.isBlank c = true)
include h

theorem not_startsWord_of_isBlank : startsWord c = false := by
  have := not_inWord_of_isBlank h
  simp_all [startsWord, inWord]

theorem not_inRun_of_isBlank : inRun c = false := by
  simp [inRun, h]

theorem not_isDigit_of_isBlank : c.isDigit = false := by
  by_contra digit
  have := (digit_classes (by simpa using digit)).2
  rw [not_inRun_of_isBlank h] at this
  cases this

theorem ne_of_isBlank {d : Char} (other : Text.isBlank d = false) : c ≠ d := by
  rintro rfl
  rw [h] at other
  cases other

end

namespace Alike

variable {s t : List Char}

theorem append (p : List Char) (h : Alike s t) : Alike (p ++ s) (p ++ t) := by
  induction p with
  | nil => exact h
  | cons c p ih => exact .cons c ih

theorem refl (s : List Char) : Alike s s := by
  simpa using (stop (s := []) (t := []) rfl rfl).append s

theorem append_blank {t : List Char} (s : List Char) (blank : t.head?.all Text.isBlank = true) :
    Alike s (s ++ t) := by
  simpa using (stop (s := []) rfl blank).append s

theorem append_line (s t : List Char) : Alike s (s ++ '\n' :: t) :=
  append_blank s (show Text.isBlank '\n' = true by decide)

theorem symm (h : Alike s t) : Alike t s := by
  induction h with
  | stop hs ht => exact .stop ht hs
  | semicolon s t => exact .semicolon t s
  | word s t hc hd => exact .word t s hd hc
  | cons c _ ih => exact .cons c ih

/-- A test that does not tell words apart, and fails on white space, has one answer on the first
characters of both texts. -/
theorem any_head {p : Char → Bool} {b : Bool} (h : Alike s t)
    (words : ∀ c, startsWord c = true → p c = b)
    (blanks : ∀ c, Text.isBlank c = true → p c = false) :
    s.head?.any p = t.head?.any p := by
  have fails {s : List Char} (hs : s.head?.all Text.isBlank = true) : s.head?.any p = false := by
    cases s with
    | nil => rfl
    | cons c s => simpa using blanks c (by simpa using hs)
  cases h with
  | stop hs ht => rw [fails hs, fails ht]
  | semicolon => rfl
  | word _ _ hc hd => simp [words _ hc, words _ hd]
  | cons => rfl

/-- Neither text starts with a sign that the other one does not start with. -/
theorem head_sign {c : Char} (h : Alike s t) (sign : c ∈ signs) :
    s.head? = some c ↔ t.head? = some c := by
  have blank {s : List Char} (hs : s.head?.all Text.isBlank = true) : s.head? ≠ some c := by
    intro first
    simp [first, (sign_classes sign).1] at hs
  have word {d : Char} (hd : startsWord d = true) : d ≠ c := by
    rintro rfl
    exact not_mem_signs_of_startsWord hd sign
  cases h with
  | stop hs ht => simp [blank hs, blank ht]
  | semicolon => rfl
  | word _ _ hc hd => simp [word hc, word hd]
  | cons => rfl

theorem any_isDigit (h : Alike s t) : s.head?.any Char.isDigit = t.head?.any Char.isDigit := by
  refine h.any_head (b := false) (fun c hc => ?_) (fun c hc => ?_)
  · by_contra digit
    rw [(digit_classes (by simpa using digit)).1] at hc
    cases hc
  · exact not_isDigit_of_isBlank hc

theorem any_startsWord (h : Alike s t) : s.head?.any startsWord = t.head?.any startsWord :=
  h.any_head (b := true) (fun _ hc => hc) fun _ hc => not_startsWord_of_isBlank hc

theorem any_inWord (h : Alike s t) : s.head?.any inWord = t.head?.any inWord :=
  h.any_head (b := true) (fun _ hc => inWord_of_startsWord hc) fun _ hc => not_inWord_of_isBlank hc

theorem any_inRun (h : Alike s t) : s.head?.any inRun = t.head?.any inRun :=
  h.any_head (b := true) (fun _ hc => inRun_of_inWord (inWord_of_startsWord hc)) fun _ hc =>
    not_inRun_of_isBlank hc

end Alike

/-! ## Numbers -/

/-- The signs that an exponent may start with. -/
def isExponentSign (c : Char) : Bool := c = '+' || c = '-'

theorem Alike.any_exponentSign {s t : List Char} (h : Alike s t) :
    s.head?.any isExponentSign = t.head?.any isExponentSign := by
  refine h.any_head (b := false) (fun c hc => ?_) (fun c hc => ?_)
  · have plus : startsWord '+' = false := by decide
    have minus : startsWord '-' = false := (sign_classes (by decide)).2.1
    by_contra sign
    obtain rfl | rfl : c = '+' ∨ c = '-' := by
      simpa [isExponentSign, Classical.or_iff_not_imp_left] using sign
    · simp [plus] at hc
    · simp [minus] at hc
  · simp [isExponentSign, ne_of_isBlank hc (d := '+') (by decide),
      ne_of_isBlank hc (d := '-') (by decide)]

/-- Reading a numeral goes on behind its first character by what that character is. -/
theorem numeral_cons (point exponent : Bool) (c : Char) (s : List Char) :
    numeral point exponent (c :: s) =
      if c.isDigit then consFirst c (numeral point exponent s)
      else if c = '.' && !point && !exponent && s.head?.any Char.isDigit then
        consFirst c (numeral true exponent s)
      else if (c = 'e' || c = 'E') && !exponent then
        if s.head?.any isExponentSign then
          consFirst c (consFirst (s.headD c) (numeral point true s.tail))
        else consFirst c (numeral point true s)
      else ([], c :: s) := by
  conv_lhs => unfold numeral
  congr 3
  split
  · rfl
  · rfl
  · next plus minus =>
    rw [if_neg]
    cases s with
    | nil => simp
    | cons d s =>
      simp only [isExponentSign, List.head?_cons, Option.any_some, Bool.or_eq_true,
        decide_eq_true_eq]
      rintro (rfl | rfl)
      · exact plus s rfl
      · exact minus s rfl

@[simp] theorem consFirst_eq_iff {c d : Char} {p : List Char × List Char} {w rest : List Char} :
    consFirst c p = (d :: w, rest) ↔ c = d ∧ p = (w, rest) := by
  simp [consFirst, Prod.ext_iff, and_assoc]

theorem numeral_stop_alike {point exponent : Bool} {rest rest' : List Char}
    (h : numeral point exponent rest = ([], rest))
    (ends : rest.head?.any startsWord = false) (like : Alike rest rest') :
    numeral point exponent rest' = ([], rest') := by
  cases like with
  | stop _ blank =>
    cases rest' with
    | nil => rfl
    | cons c s =>
      have blank : Text.isBlank c = true := by simpa using blank
      simp [numeral_cons, not_isDigit_of_isBlank blank, ne_of_isBlank blank (d := '.') (by decide),
        ne_of_isBlank blank (d := 'e') (by decide), ne_of_isBlank blank (d := 'E') (by decide)]
  | semicolon =>
    rw [numeral_cons]
    rfl
  | word _ _ hc hd => simp [hc] at ends
  | @cons c s t like =>
    rw [numeral_cons] at h ⊢
    rw [← like.any_isDigit, ← like.any_exponentSign]
    grind [consFirst]

/-- A numeral that is cut off in front of a text is cut off in front of any text that goes on
alike. -/
theorem numeral_alike {point exponent : Bool} {w rest rest' : List Char}
    (h : numeral point exponent (w ++ rest) = (w, rest))
    (ends : rest.head?.any startsWord = false) (like : Alike rest rest') :
    numeral point exponent (w ++ rest') = (w, rest') := by
  induction hn : w.length using Nat.strong_induction_on generalizing w point exponent with
  | _ n ih =>
    cases w with
    | nil => exact numeral_stop_alike h ends like
    | cons c w =>
      have step {point exponent : Bool} {v : List Char} (shorter : v.length < n)
          (h : numeral point exponent (v ++ rest) = (v, rest)) :
          numeral point exponent (v ++ rest') = (v, rest') := ih _ shorter h rfl
      have like' := like.append w
      rw [List.cons_append, numeral_cons] at h ⊢
      rw [← like'.any_isDigit, ← like'.any_exponentSign]
      split at h
      · next digit =>
        rw [if_pos digit, step (by simp [← hn]) (consFirst_eq_iff.1 h).2]
        rfl
      · next digit =>
        rw [if_neg digit]
        split at h
        · next dot =>
          rw [if_pos dot, step (by simp [← hn]) (consFirst_eq_iff.1 h).2]
          rfl
        · next dot =>
          rw [if_neg dot]
          split at h
          · next e =>
            rw [if_pos e]
            split at h
            · next sign =>
              rw [if_pos sign]
              obtain ⟨-, h⟩ := consFirst_eq_iff.1 h
              cases w with
              | nil => cases h
              | cons d w =>
                have shorter : w.length < n := by
                  rw [← hn, List.length_cons, List.length_cons]
                  omega
                rw [List.cons_append, List.tail_cons, step shorter (consFirst_eq_iff.1 h).2]
                rfl
            · next sign =>
              rw [if_neg sign, step (by simp [← hn]) (consFirst_eq_iff.1 h).2]
              rfl
          · cases h

theorem unsigned_alike {size size' : Nat} {w rest rest' : List Char} {x : Number}
    (h : unsigned size (w ++ rest) = (.ok x, rest)) (like : Alike rest rest') :
    unsigned size' (w ++ rest') = (.ok x, rest') := by
  have whole := numeral_append false false (w ++ rest)
  have left := unsigned_snd size (w ++ rest)
  rw [h] at left
  rw [← left] at whole
  have read : numeral false false (w ++ rest) = (w, rest) :=
    Prod.ext (List.append_cancel_right whole) left.symm
  simp only [unsigned, read] at h
  split at h
  · next x' number =>
    obtain ⟨ends, number⟩ : rest.head?.any startsWord = false ∧ Number.ofChars? w = some x' := by
      simpa using number
    cases h
    simp [unsigned, numeral_alike read ends like, ← like.any_startsWord, ends, number]
  · cases h

/-! ## Strings and words -/

/-- A quoted string ends in front of any text that goes on alike. -/
theorem quoted_alike {quote : Char} (sign : quote ∈ signs) {s content rest : List Char}
    (h : quoted quote s = some (content, rest)) :
    ∃ w, s = w ++ rest ∧
      ∀ rest', Alike rest rest' → quoted quote (w ++ rest') = some (content, rest') := by
  fun_induction quoted quote s generalizing content rest with
  | case1 => cases h
  | case2 s ih =>
    obtain ⟨⟨content', rest'⟩, h', he⟩ := Option.map_eq_some_iff.1 h
    cases he
    obtain ⟨w, rfl, stable⟩ := ih h'
    refine ⟨quote :: quote :: w, rfl, fun t like => ?_⟩
    simp [quoted, stable t like]
  | case3 d s other =>
    cases h
    refine ⟨[quote], rfl, fun t like => ?_⟩
    have first := like.head_sign sign
    cases t <;> simp_all [quoted]
  | case4 c d s other ih =>
    obtain ⟨⟨content', rest'⟩, h', he⟩ := Option.map_eq_some_iff.1 h
    cases he
    obtain ⟨w, hw, stable⟩ := ih h'
    refine ⟨c :: w, by rw [hw]; rfl, fun t like => ?_⟩
    have tail := stable t like
    rw [List.cons_append]
    cases hs : w ++ t with
    | nil =>
      rw [hs] at tail
      cases tail
    | cons e s =>
      rw [hs] at tail
      simp [quoted, other, tail]
  | case5 =>
    cases h
    refine ⟨[quote], rfl, fun t like => ?_⟩
    have first := like.head_sign sign
    cases t <;> simp_all [quoted]
  | case6 => cases h

/-- What is taken off in front of a text is what stands in front of it. -/
theorem takeWhile_of_dropWhile {p : Char → Bool} {w rest : List Char}
    (h : (w ++ rest).dropWhile p = rest) : (w ++ rest).takeWhile p = w := by
  have whole : (w ++ rest).takeWhile p ++ (w ++ rest).dropWhile p = w ++ rest :=
    List.takeWhile_append_dropWhile
  rw [h] at whole
  exact List.append_cancel_right whole

/-- Characters of a kind that are taken off in front of a text are taken off in front of any text
that starts with another kind as well. -/
theorem takeWhile_alike {p : Char → Bool} {w rest rest' : List Char}
    (h : (w ++ rest).dropWhile p = rest) (same : rest.head?.any p = rest'.head?.any p) :
    (w ++ rest).takeWhile p = w ∧ (w ++ rest').takeWhile p = w ∧
      (w ++ rest').dropWhile p = rest' := by
  have taken := takeWhile_of_dropWhile h
  have front : ∀ a ∈ w, p a = true := by
    intro a ha
    rw [← taken] at ha
    exact List.mem_takeWhile_imp ha
  have behind : ∀ a, rest'.head? = some a → p a = false := by
    intro a ha
    have stops := List.head?_dropWhile_not p (w ++ rest)
    rw [h] at stops
    cases rest with
    | nil => simpa [ha] using same.symm
    | cons c rest =>
      rw [List.head?_cons] at stops
      simpa [ha, stops] using same.symm
  exact ⟨taken, takeWhile_front front behind, dropWhile_front front behind⟩

/-! ## Tokens -/

theorem mem_signs_of_single {c : Char} {t : Token} (h : single? c = some t) : c ∈ signs := by
  unfold single? at h
  split at h <;> cases h <;> decide

theorem mem_signs_of_double {c d : Char} {t : Token} (h : double? c d = some t) :
    c ∈ signs ∧ d ∈ signs := by
  unfold double? at h
  split at h <;> cases h <;> decide

/-- Where no value is expected, a token is read as before if the text behind it goes on alike. -/
theorem scan_alike {size size' : Nat} {w rest rest' : List Char} {t : Token} (some : w ≠ [])
    (h : scan size (w ++ rest) = (.ok t, rest)) (like : Alike rest rest') :
    scan size' (w ++ rest') = (.ok t, rest') := by
  obtain ⟨c, w, rfl⟩ := List.exists_cons_of_ne_nil some
  rw [List.cons_append, scan_ok_iff] at h ⊢
  generalize whole : w ++ rest = s at h
  cases h with
  | single sign alone =>
    obtain rfl := List.append_left_eq_self.1 whole
    refine .single sign fun d second => ?_
    cases longer : double? c d with
    | none => rfl
    | some u =>
      rw [alone d ((like.head_sign (mem_signs_of_double longer).2).2 second)] at longer
      cases longer
  | double sign =>
    obtain rfl : w = [_] := List.append_cancel_right whole
    exact .double sign
  | negative digit number =>
    subst whole
    rw [(like.append w).any_isDigit] at digit
    exact .negative digit (unsigned_alike number like)
  | string quote string =>
    subst whole
    have sign : c ∈ signs := by obtain rfl | rfl := quote <;> decide
    obtain ⟨v, hv, stable⟩ := quoted_alike sign string
    rw [List.append_cancel_right hv]
    exact .string quote (stable rest' like)
  | number sign other digit number =>
    subst whole
    rw [← List.cons_append] at number
    exact .number sign other digit (unsigned_alike number like)
  | word sign other digit starts token left =>
    subst whole
    rw [← List.cons_append] at token left
    obtain ⟨taken, taken', left'⟩ := takeWhile_alike left like.any_inWord
    rw [taken, ← taken'] at token
    exact .word sign other digit starts token left'

/-- A value is read as before if the text behind it goes on alike. -/
theorem bareValue_alike {w rest rest' : List Char} {t : Token}
    (h : bareValue (w ++ rest) = some (t, rest)) (like : Alike rest rest') :
    bareValue (w ++ rest') = some (t, rest') := by
  obtain ⟨run, token, left⟩ := bareValue_eq_some_iff.1 h
  obtain ⟨taken, taken', left'⟩ := takeWhile_alike left like.any_inRun
  rw [taken, ← taken'] at run token
  exact bareValue_eq_some_iff.2 ⟨run, token, left'⟩

/-- A run that is a reserved word is read as that word where no value is expected. -/
theorem scan_reserved {s : List Char} (reserved : reservedWord (s.takeWhile inRun) = true)
    (size : Nat) : scan size s = (.ok (wordToken (s.takeWhile inRun)), s.dropWhile inRun) := by
  have whole : s.takeWhile inRun ++ s.dropWhile inRun = s := List.takeWhile_append_dropWhile
  have behind : ∀ a, (s.dropWhile inRun).head? = some a → inWord a = false := by
    intro a ha
    have stops := List.head?_dropWhile_not inRun s
    rw [ha] at stops
    by_contra word
    rw [Bool.not_eq_false] at word
    simp [inRun_of_inWord word] at stops
  simp only [reservedWord, Bool.and_eq_true, List.all_eq_true] at reserved
  obtain ⟨⟨first, word⟩, -⟩ := reserved
  cases run : s.takeWhile inRun with
  | nil => simp [run] at first
  | cons c v =>
    rw [run] at first word whole
    have read : scan size (c :: v ++ s.dropWhile inRun) =
        (.ok (wordToken (c :: v)), s.dropWhile inRun) :=
      scan_word (by simpa using first) (fun a ha => word a (List.mem_cons_of_mem c ha)) behind
    rwa [whole] at read

/-- Where no value stands at a character of one, there is a reserved word. -/
theorem reserved_of_bareValue {c : Char} {s : List Char} (first : inRun c = true)
    (none : bareValue (c :: s) = none) : reservedWord ((c :: s).takeWhile inRun) = true := by
  simpa [bareValue, first] using none

/-- Where a token is read that is no value, none is read if the text behind it goes on alike. -/
theorem bareValue_none_alike {size : Nat} {w rest rest' : List Char} {t : Token} (some : w ≠ [])
    (none : bareValue (w ++ rest) = none) (h : scan size (w ++ rest) = (.ok t, rest))
    (like : Alike rest rest') : bareValue (w ++ rest') = .none := by
  obtain ⟨c, w, rfl⟩ := List.exists_cons_of_ne_nil some
  cases first : inRun c with
  | false => exact bareValue_eq_none first
  | true =>
    have reserved : reservedWord ((c :: w ++ rest).takeWhile inRun) = true :=
      reserved_of_bareValue first none
    have left : (c :: w ++ rest).dropWhile inRun = rest := by
      have read := scan_reserved reserved size
      rw [h] at read
      exact (congrArg Prod.snd read).symm
    obtain ⟨taken, taken', -⟩ := takeWhile_alike left like.any_inRun
    rw [taken] at reserved
    rw [bareValue, taken', reserved, Bool.or_true, if_pos rfl]

/-- **A token is read as before if the text behind it goes on alike.** -/
theorem readSolid_alike {value : Bool} {size size' : Nat} {w rest rest' : List Char} {t : Token}
    (some : w ≠ []) (h : readSolid value size (w ++ rest) = (.ok t, rest))
    (like : Alike rest rest') : readSolid value size' (w ++ rest') = (.ok t, rest') := by
  unfold readSolid at h ⊢
  cases value with
  | false => exact scan_alike some h like
  | true =>
    simp only [if_true] at h ⊢
    cases read : bareValue (w ++ rest) with
    | none =>
      rw [read] at h
      rw [bareValue_none_alike some read h like]
      exact scan_alike some h like
    | some p =>
      rw [read] at h
      cases h
      rw [bareValue_alike read like]

/-- A text starts with neither white space nor a comment just if its first two characters do not. -/
theorem afterGap_cons_eq_iff {c : Char} {s : List Char} :
    afterGap .blank (c :: s) = c :: s ↔
      Text.isBlank c = false ∧ ¬ (c = '-' ∧ s.head? = some '-') ∧
        ¬ (c = '/' ∧ s.head? = some '*') := by
  constructor
  · intro solid
    -- otherwise a character would be left out
    have whole {g : Gap} {t : List Char} (left : afterGap .blank (c :: s) = afterGap g t)
        (suffix : t <:+ s) : False := by
      have shorter := ((afterGap_suffix g t).trans suffix).length_le
      rw [← left, solid, List.length_cons] at shorter
      omega
    refine ⟨?_, ?_, ?_⟩
    · by_contra blank
      exact whole (afterGap_blank_cons (by simpa using blank) s) (List.suffix_refl s)
    · rintro ⟨rfl, second⟩
      obtain ⟨t, rfl⟩ := List.head?_eq_some_iff.1 second
      exact whole (g := .line) (by rw [afterGap]) (List.suffix_cons _ t)
    · rintro ⟨rfl, second⟩
      obtain ⟨t, rfl⟩ := List.head?_eq_some_iff.1 second
      exact whole (g := .block) (by rw [afterGap]) (List.suffix_cons _ t)
  · rintro ⟨blank, minus, slash⟩
    unfold afterGap
    split <;> simp_all

/-- Where a token starts, one starts if the text behind it goes on alike. -/
theorem solid_alike {w rest rest' : List Char} (some : w ≠ [])
    (solid : afterGap .blank (w ++ rest) = w ++ rest) (like : Alike rest rest') :
    afterGap .blank (w ++ rest') = w ++ rest' := by
  obtain ⟨c, w, rfl⟩ := List.exists_cons_of_ne_nil some
  have like' := like.append w
  have minus := like'.head_sign (c := '-') (by decide)
  have star := like'.head_sign (c := '*') (by decide)
  rw [List.cons_append, afterGap_cons_eq_iff] at solid ⊢
  rwa [← minus, ← star]

namespace Lexer

/-- A lexeme is read again in front of any text that goes on alike, in any mode in which it is what
is read in front of its own text. -/
theorem Meets.next_alike {l : Lexer} {e : Lexeme} (h : l.Meets e) (more : e.token ≠ .endOfInput)
    {rest : List Char} (like : Alike e.behind rest) (size : Nat) {m : Mode}
    (read : readSolid m.value l.size (e.text ++ e.behind) = (.ok e.token, e.behind)) :
    (Lexer.mk size (e.gap ++ (e.text ++ rest)) m).next =
      (.ok e.token, ⟨size, rest, m.after e.token⟩) := by
  have some := h.text_ne_nil more
  obtain ⟨g, closed, blank⟩ := h.gap
  rw [blank more] at closed
  exact next_of_readSolid closed (solid_alike some h.solid like) (readSolid_alike some read like)

end Lexer

end Sql
end PocketSql
