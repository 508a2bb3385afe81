import Mathlib.Data.List.DropRight
import PocketSql.Proofs.Query.Succession

/-!
# White space around scripts

White space at both ends of a text means nothing: no token ends with white space, and none in front
of it is read otherwise where it is missing.

## Main results

* `not_blank_of_readSolid` — no token ends with white space.
* `parseScript_trim` — a trimmed script has the same statements.
-/

namespace PocketSql

/-! ## Trimmed texts -/

namespace Text

variable {s : List Char}

/-- What is left out in front of a trimmed text and behind it is white space. -/
theorem exists_trimmed (s : List Char) :
    ∃ front back, s = front ++ (trimmed s ++ back) ∧
      (∀ c ∈ front, isBlank c = true) ∧ ∀ c ∈ back, isBlank c = true := by
  have first : s.takeWhile isBlank ++ s.dropWhile isBlank = s := List.takeWhile_append_dropWhile
  have last : trimmed s ++ (s.dropWhile isBlank).rtakeWhile isBlank = s.dropWhile isBlank :=
    List.rdropWhile_append_rtakeWhile
  refine ⟨s.takeWhile isBlank, (s.dropWhile isBlank).rtakeWhile isBlank, ?_, ?_, ?_⟩
  · rw [last, first]
  · intro c hc
    exact List.mem_takeWhile_imp hc
  · intro c hc
    exact List.mem_rtakeWhile_imp hc

/-- A trimmed text starts with no white space, and ends with none. -/
theorem solid_trimmed (s : List Char) :
    (∀ c ∈ (trimmed s).head?, isBlank c = false) ∧
      ∀ c ∈ (trimmed s).getLast?, isBlank c = false := by
  have trim : trimmed s = (s.dropWhile isBlank).rdropWhile isBlank := rfl
  have shorter : (s.dropWhile isBlank).rdropWhile isBlank <+: s.dropWhile isBlank :=
    List.rdropWhile_prefix _ _
  have first := List.head?_dropWhile_not isBlank s
  rw [trim]
  generalize s.dropWhile isBlank = t at shorter first
  constructor
  · intro c hc
    have head : t.head? = some c := by
      obtain ⟨back, hback⟩ := shorter
      rw [← hback, List.head?_append, Option.mem_def.1 hc]
      rfl
    simpa [head] using first
  · intro c hc
    obtain ⟨some, rfl⟩ := List.mem_getLast?_eq_getLast hc
    simpa using List.rdropWhile_last_not isBlank t some

theorem find?_of_blank (h : ∀ c ∈ s, isBlank c = true) : s.find? (!isBlank ·) = none := by
  rw [List.find?_eq_none]
  intro c hc
  simp [h c hc]

theorem find?_of_solid (h : ∀ c ∈ s.head?, isBlank c = false) :
    s.find? (!isBlank ·) = s.head? := by
  cases s with
  | nil => rfl
  | cons c s => rw [List.find?_cons_of_pos (by simp [h c rfl]), List.head?_cons]

/-- The first character of a trimmed text is the first one that is not white space. -/
theorem head?_trimmed (s : List Char) : (trimmed s).head? = s.find? (!isBlank ·) := by
  obtain ⟨front, back, whole, hfront, hback⟩ := exists_trimmed s
  conv_rhs => rw [whole]
  rw [List.find?_append, List.find?_append, find?_of_blank hfront, find?_of_blank hback,
    find?_of_solid (solid_trimmed s).1, Option.none_or, Option.or_none]

/-- Its last character is the last one that is not white space. -/
theorem getLast?_trimmed (s : List Char) :
    (trimmed s).getLast? = s.reverse.find? (!isBlank ·) := by
  obtain ⟨front, back, whole, hfront, hback⟩ := exists_trimmed s
  have last : ∀ c ∈ (trimmed s).reverse.head?, isBlank c = false := by
    rw [List.head?_reverse]
    exact (solid_trimmed s).2
  conv_rhs => rw [whole]
  rw [List.reverse_append, List.reverse_append, List.find?_append, List.find?_append,
    find?_of_blank (s := back.reverse) (by simpa using hback),
    find?_of_blank (s := front.reverse) (by simpa using hfront), find?_of_solid last,
    Option.none_or, Option.or_none, List.head?_reverse]

theorem mem_head?_trimmed_append {t : List Char} {c : Char} (h : c ∈ (trimmed s).head?) :
    c ∈ (trimmed (s ++ t)).head? := by
  rw [head?_trimmed] at h ⊢
  rw [List.find?_append, Option.mem_def.1 h]
  rfl

theorem mem_getLast?_trimmed_append {t : List Char} {c : Char} (h : c ∈ (trimmed t).getLast?) :
    c ∈ (trimmed (s ++ t)).getLast? := by
  rw [getLast?_trimmed] at h ⊢
  rw [List.reverse_append, List.find?_append, Option.mem_def.1 h]
  rfl

theorem trimmed_eq_nil_iff : trimmed s = [] ↔ ∀ c ∈ s, isBlank c = true := by
  rw [← List.head?_eq_none_iff, head?_trimmed]
  simp

end Text

namespace Sql

section
variable {b : Char} {s rest : List Char} (blank : Text.isBlank b = true)
include blank

theorem numeral_ne_nil (point exponent : Bool) (s : List Char) :
    (numeral point exponent (s ++ [b])).2 ≠ [] := by
  have digit := not_isDigit_of_isBlank blank
  have signs : b ≠ '.' ∧ b ≠ 'e' ∧ b ≠ 'E' ∧ b ≠ '+' ∧ b ≠ '-' := by
    refine ⟨?_, ?_, ?_, ?_, ?_⟩ <;> exact ne_of_isBlank blank (by decide)
  generalize ht : s ++ [b] = t
  fun_induction numeral point exponent t generalizing s with
  | case1 => simp at ht
  | case2 => cases s <;> grind [consFirst]
  | case3 => cases s <;> grind [consFirst]
  | case4 => cases s with | nil => grind | cons d s => cases s <;> grind [consFirst]
  | case5 => cases s with | nil => grind | cons d s => cases s <;> grind [consFirst]
  | case6 => cases s <;> grind [consFirst]
  | case7 => simp

omit blank in
theorem quoted_ne_nil {quote : Char} (other : b ≠ quote) {content : List Char}
    (h : quoted quote (s ++ [b]) = some (content, rest)) : rest ≠ [] := by
  generalize ht : s ++ [b] = t at h
  fun_induction quoted quote t generalizing s content rest with
  | case1 => cases h
  | case2 u ih =>
    obtain ⟨⟨content', rest'⟩, h', he⟩ := Option.map_eq_some_iff.1 h
    cases he
    -- both quotes stand in front of the white space
    obtain ⟨v, hv⟩ : ∃ v, v ++ [b] = u := by
      cases s with
      | nil => simp at ht
      | cons c s => cases s <;> grind
    exact ih hv h'
  | case3 d u _ =>
    cases h
    simp
  | case4 c d u _ ih =>
    obtain ⟨⟨content', rest'⟩, h', he⟩ := Option.map_eq_some_iff.1 h
    cases he
    cases s with
    | nil => simp at ht
    | cons _ s => exact ih (List.cons.inj ht).2 h'
  | case5 =>
    cases s with
    | nil => exact absurd (List.cons.inj ht).1 other
    | cons c s => simp at ht
  | case6 => cases h

omit blank in
theorem dropWhile_ne_nil {p : Char → Bool} (hp : p b = false) : (s ++ [b]).dropWhile p ≠ [] := by
  intro empty
  have := List.dropWhile_eq_nil_iff.1 empty b (by simp)
  simp [hp] at this

theorem unsigned_ne_nil {size : Nat} {x : Number} (h : unsigned size (s ++ [b]) = (.ok x, rest)) :
    rest ≠ [] := by
  have left := unsigned_snd size (s ++ [b])
  rw [h] at left
  intro empty
  exact numeral_ne_nil blank false false s (left.symm.trans empty)

/-- Behind a first character that is not the last one, the text ends as it did. -/
theorem exists_init {c : Char} {u : List Char} (whole : s ++ [b] = c :: u)
    (solid : Text.isBlank c = false) : ∃ v, u = v ++ [b] := by
  obtain ⟨rfl, h⟩ | ⟨v, rfl, h⟩ := List.append_eq_cons_iff.1 whole
  · exact absurd (List.cons.inj h).1 (ne_of_isBlank blank solid)
  · exact ⟨v, h⟩

theorem scan_ne_nil {size : Nat} {t : Token} (h : scan size (s ++ [b]) = (.ok t, rest)) :
    rest ≠ [] := by
  have scans := scans_of_scan h
  generalize whole : s ++ [b] = u at scans
  cases scans with
  | last => simp at whole
  | single sign =>
    obtain ⟨v, rfl⟩ := exists_init blank whole (sign_classes (mem_signs_of_single sign)).1
    simp
  | double sign =>
    obtain ⟨first, second⟩ := mem_signs_of_double sign
    obtain ⟨v, whole⟩ := exists_init blank whole (sign_classes first).1
    obtain ⟨v, rfl⟩ := exists_init blank whole.symm (sign_classes second).1
    simp
  | negative digit number =>
    obtain ⟨v, rfl⟩ := exists_init blank whole (by decide)
    exact unsigned_ne_nil blank number
  | @string c _ _ _ quote string =>
    have solid : Text.isBlank c = false := by obtain rfl | rfl := quote <;> decide
    obtain ⟨v, rfl⟩ := exists_init blank whole solid
    exact quoted_ne_nil (ne_of_isBlank blank solid) string
  | number _ _ _ number =>
    rw [← whole] at number
    exact unsigned_ne_nil blank number
  | word _ _ _ _ _ left =>
    rw [← whole] at left
    exact left ▸ dropWhile_ne_nil (not_inWord_of_isBlank blank)

/-- No token ends with white space. -/
theorem readSolid_ne_nil {value : Bool} {size : Nat} {t : Token}
    (h : readSolid value size (s ++ [b]) = (.ok t, rest)) : rest ≠ [] := by
  obtain ⟨-, bare⟩ | scan := readSolid_cases h
  · obtain ⟨-, -, left⟩ := bareValue_eq_some_iff.1 bare
    exact left ▸ dropWhile_ne_nil (not_inRun_of_isBlank blank)
  · exact scan_ne_nil blank scan

/-- White space behind white space and comments is left out with them. -/
theorem afterGap_init (h : afterGap .blank (s ++ [b]) = []) : afterGap .blank s = [] := by
  obtain ⟨gap, g, hs, hgap, hg⟩ := exists_gap .blank s
  by_contra some
  obtain rfl := hg some
  -- otherwise a token starts in front of it
  have whole : afterGap .blank (s ++ [b]) = afterGap .blank (afterGap .blank s ++ [b]) := by
    conv_lhs => rw [hs, List.append_assoc]
    exact afterGap_append hgap (by simp)
  have solid : afterGap .blank (afterGap .blank s ++ []) = afterGap .blank s ++ [] := by
    simpa using afterGap_afterGap s
  have like : Alike [] [b] := .stop rfl (by simpa using blank)
  rw [whole, solid_alike some solid like] at h
  simp at h

namespace Lexer

/-- White space at the end of a text is left out. -/
theorem tokens_init {size : Nat} {m : Mode} {ts : List Token}
    (h : (Lexer.mk size (s ++ [b]) m).tokens = .ok ts) (size' : Nat) :
    (Lexer.mk size' s m).tokens = .ok ts := by
  have lexes := lexes_lexemes h
  rw [← map_token_lexemes (Lexer.mk size (s ++ [b]) m) ts]
  clear h
  generalize (Lexer.mk size (s ++ [b]) m).lexemes ts = es at lexes ⊢
  generalize hl : Lexer.mk size (s ++ [b]) m = l at lexes
  induction lexes generalizing s m with
  | @last l e h last =>
    subst hl
    obtain ⟨text, behind⟩ := h.nil_of_last last
    have gap := h.afterGap_gap
    have rest := h.rest
    simp only [text, behind, List.append_nil] at rest
    rw [← rest] at gap
    have same : afterGap .blank s = afterGap .blank [] := afterGap_init blank gap
    rw [tokens_congr same]
    simpa [last] using tokens_last (next_end (.inl rfl) size' m).choose_spec
  | @more l e es h more tail ih =>
    subst hl
    have rest := h.rest
    rcases List.eq_nil_or_concat' e.behind with behind | ⟨s', c, behind⟩
    · -- the token would end with white space
      obtain ⟨w, c, text⟩ := (List.eq_nil_or_concat' e.text).resolve_left (h.text_ne_nil more)
      have read := h.read
      rw [behind, text, List.append_nil] at read
      rw [behind, text, List.append_nil, ← List.append_assoc] at rest
      cases (List.append_inj' rest rfl).2
      exact absurd rfl (readSolid_ne_nil blank read)
    · rw [behind, ← List.append_assoc, ← List.append_assoc] at rest
      obtain ⟨rfl, last⟩ := List.append_inj' rest rfl
      cases last
      have like : Alike e.behind s' := by
        rw [behind]
        exact (Alike.append_blank s' (by simpa using blank)).symm
      have next := h.next_alike more like size' (h.mode ▸ h.read)
      rw [List.append_assoc, tokens_more next more, ih (by rw [behind])]
      rfl

end Lexer

end

/-- White space in front of a text is left out. -/
theorem afterGap_blanks {front : List Char} (blank : ∀ c ∈ front, Text.isBlank c = true)
    (s : List Char) : afterGap .blank (front ++ s) = afterGap .blank s := by
  induction front with
  | nil => rfl
  | cons c front ih =>
    rw [List.cons_append, afterGap_blank_cons (blank c List.mem_cons_self)]
    exact ih fun c hc => blank c (List.mem_cons_of_mem _ hc)

theorem Lexer.tokens_front {size : Nat} {m : Mode} {s back : List Char} {ts : List Token}
    (blank : ∀ c ∈ back, Text.isBlank c = true)
    (h : (Lexer.mk size (s ++ back) m).tokens = .ok ts) :
    (Lexer.mk size s m).tokens = .ok ts := by
  induction back using List.reverseRecOn with
  | nil => rwa [List.append_nil] at h
  | append_singleton back c ih =>
    rw [← List.append_assoc] at h
    refine ih (fun c hc => blank c (List.mem_append_left _ hc)) ?_
    exact tokens_init (blank c (by simp)) h size

/-- **White space at both ends of a text means nothing.** -/
theorem tokenize_trim {text : String} {ts : List Token} (h : tokenize text = .ok ts) :
    tokenize (Text.trim text) = .ok ts := by
  obtain ⟨front, back, whole, blankFront, blankBack⟩ := Text.exists_trimmed text.toList
  have tokens (size : Nat) :
      (Lexer.mk size (Text.trimmed text.toList ++ back) .initial).tokens = .ok ts := by
    rw [← Lexer.tokens_congr (afterGap_blanks blankFront _), ← whole]
    exact tokens_of_tokenize h size
  rw [tokenize, Lexer.ofText, Text.trim, String.toList_ofList]
  exact Lexer.tokens_front blankBack (tokens _)

theorem parseScript_trim {text : String} {ss : List Statement} (h : parseScript text = .ok ss) :
    parseScript (Text.trim text) = .ok ss := by
  obtain ⟨ts, tokens⟩ := exists_tokens_of_parseScript h
  exact (parseScript_ok_iff (tokenize_trim tokens)).2 ((parseScript_ok_iff tokens).1 h)

end Sql
end PocketSql
