import PocketSql.Sql.Token.Lexer

/-!
# The lexer makes progress

What a reader leaves is an end of what it was given, and a token other than the end of the input
takes at least one character.
-/

namespace PocketSql
namespace Sql

theorem afterGap_suffix (g : Gap) (s : List Char) : afterGap g s <:+ s := by
  fun_induction afterGap g s with
  | case1 => exact List.suffix_refl _
  | case2 s ih => exact ih.trans ((List.suffix_cons _ _).trans (List.suffix_cons _ _))
  | case3 s ih => exact ih.trans ((List.suffix_cons _ _).trans (List.suffix_cons _ _))
  | case4 c s _ _ _ ih => exact ih.trans (List.suffix_cons _ _)
  | case5 => exact List.suffix_refl _
  | case6 s ih => exact ih.trans (List.suffix_cons _ _)
  | case7 c s _ ih => exact ih.trans (List.suffix_cons _ _)
  | case8 s ih => exact ih.trans ((List.suffix_cons _ _).trans (List.suffix_cons _ _))
  | case9 c s _ ih => exact ih.trans (List.suffix_cons _ _)

theorem quoted_suffix {quote : Char} {s content rest : List Char}
    (h : quoted quote s = some (content, rest)) : rest <:+ s := by
  fun_induction quoted quote s generalizing content rest with
  | case1 => simp at h
  | case2 s ih =>
    obtain ⟨⟨content', rest'⟩, h', he⟩ := Option.map_eq_some_iff.1 h
    simp only [Prod.mk.injEq] at he
    obtain ⟨-, rfl⟩ := he
    exact (ih h').trans ((List.suffix_cons _ _).trans (List.suffix_cons _ _))
  | case3 d s _ =>
    simp only [Option.some.injEq, Prod.mk.injEq] at h
    obtain ⟨-, rfl⟩ := h
    exact List.suffix_cons _ _
  | case4 c d s _ ih =>
    obtain ⟨⟨content', rest'⟩, h', he⟩ := Option.map_eq_some_iff.1 h
    simp only [Prod.mk.injEq] at he
    obtain ⟨-, rfl⟩ := he
    exact (ih h').trans (List.suffix_cons _ _)
  | case5 =>
    simp only [Option.some.injEq, Prod.mk.injEq] at h
    obtain ⟨-, rfl⟩ := h
    exact List.suffix_cons _ _
  | case6 => simp at h

/-- The two parts of a numeral are the whole text. -/
theorem numeral_append (point exponent : Bool) (s : List Char) :
    (numeral point exponent s).1 ++ (numeral point exponent s).2 = s := by
  fun_induction numeral point exponent s <;> simp_all [consFirst]

/-- A numeral that starts with a digit is not empty. -/
theorem numeral_fst_ne_nil {c : Char} (h : c.isDigit = true) (point exponent : Bool)
    (s : List Char) : (numeral point exponent (c :: s)).1 ≠ [] := by
  unfold numeral
  simp [h, consFirst]

theorem numeral_suffix (point exponent : Bool) (s : List Char) :
    (numeral point exponent s).2 <:+ s :=
  ⟨_, numeral_append point exponent s⟩

theorem unsigned_snd (size : Nat) (s : List Char) :
    (unsigned size s).2 = (numeral false false s).2 := by
  simp only [unsigned]
  split <;> rfl

theorem unsigned_suffix (size : Nat) (s : List Char) : (unsigned size s).2 <:+ s := by
  rw [unsigned_snd]
  exact numeral_suffix _ _ _

theorem unsigned_length_lt {c : Char} (h : c.isDigit = true) (size : Nat) (s : List Char) :
    (unsigned size (c :: s)).2.length < (c :: s).length := by
  rw [unsigned_snd]
  have ha := congrArg List.length (numeral_append false false (c :: s))
  have hn := List.length_pos_iff.2 (numeral_fst_ne_nil h false false s)
  simp only [List.length_append] at ha
  omega

theorem length_dropWhile_cons_lt {p : Char → Bool} {c : Char} (h : p c = true) (s : List Char) :
    ((c :: s).dropWhile p).length < (c :: s).length := by
  have := (List.dropWhile_suffix p (l := s)).length_le
  simp only [List.dropWhile_cons, h, if_true, List.length_cons]
  omega

theorem inWord_of_startsWord {c : Char} (h : startsWord c = true) : inWord c = true := by
  simp only [startsWord, Bool.or_eq_true, decide_eq_true_eq] at h
  rcases h with h | h <;> simp [inWord, h]

/-- What `scan` leaves is an end of what it was given. -/
theorem scan_suffix (size : Nat) (s : List Char) : (scan size s).2 <:+ s := by
  unfold scan
  split
  · exact List.suffix_refl _
  · next c s =>
    have hs : s <:+ c :: s := List.suffix_cons _ _
    have ht : ∀ {d : Char} {t : List Char}, t <:+ c :: d :: t := fun {d t} =>
      (List.suffix_cons d t).trans (List.suffix_cons c (d :: t))
    have hu : (unsigned size s).2 <:+ c :: s := (unsigned_suffix size s).trans hs
    have hv : (unsigned size (c :: s)).2 <:+ c :: s := unsigned_suffix size (c :: s)
    split <;> try exact hs
    · split <;> first | exact ht | exact hs
    · split <;> first | exact ht | exact hs
    · split <;> first | exact ht | exact hs
    · split
      · split <;> next h => simpa [h] using hu
      · exact hs
    · split
      · split
        · next h => exact (quoted_suffix h).trans hs
        · exact List.nil_suffix
      · split
        · split <;> next h => simpa [h] using hv
        · split
          · exact List.dropWhile_suffix _
          · exact List.suffix_refl _

/-- A token other than the end of the input takes a character. -/
theorem scan_length_lt {size : Nat} {s rest : List Char} {t : Token}
    (h : scan size s = (.ok t, rest)) (ht : t ≠ .endOfInput) : rest.length < s.length := by
  unfold scan at h
  split at h
  · simp only [Prod.mk.injEq, Except.ok.injEq] at h
    exact absurd h.1.symm ht
  · next c s =>
    split at h <;>
      try (simp only [Prod.mk.injEq, Except.ok.injEq] at h
           obtain ⟨-, rfl⟩ := h
           simp only [List.length_cons]
           omega)
    · split at h <;>
      · simp only [Prod.mk.injEq, Except.ok.injEq] at h
        obtain ⟨-, rfl⟩ := h
        simp only [List.length_cons]
        omega
    · split at h <;>
      · simp only [Prod.mk.injEq, Except.ok.injEq] at h
        obtain ⟨-, rfl⟩ := h
        simp only [List.length_cons]
        omega
    · split at h
      · simp only [Prod.mk.injEq, Except.ok.injEq] at h
        obtain ⟨-, rfl⟩ := h
        simp only [List.length_cons]
        omega
      · simp at h
    · split at h
      · split at h
        · next hx =>
          simp only [Prod.mk.injEq, Except.ok.injEq] at h
          obtain ⟨-, rfl⟩ := h
          have := (unsigned_suffix size s).length_le
          rw [hx] at this
          simp only [List.length_cons] at this ⊢
          omega
        · simp at h
      · simp at h
    · split at h
      · split at h
        · next hq =>
          simp only [Prod.mk.injEq, Except.ok.injEq] at h
          obtain ⟨-, rfl⟩ := h
          have := (quoted_suffix hq).length_le
          simp only [List.length_cons]
          omega
        · simp at h
      · split at h
        · next hd =>
          split at h
          · next hx =>
            simp only [Prod.mk.injEq, Except.ok.injEq] at h
            obtain ⟨-, rfl⟩ := h
            have := unsigned_length_lt hd size s
            rwa [hx] at this
          · simp at h
        · split at h
          · next hw =>
            simp only [Prod.mk.injEq, Except.ok.injEq] at h
            obtain ⟨-, rfl⟩ := h
            exact length_dropWhile_cons_lt (inWord_of_startsWord hw) s
          · simp at h

theorem bareValue_suffix {s rest : List Char} {t : Token} (h : bareValue s = some (t, rest)) :
    rest <:+ s := by
  simp only [bareValue] at h
  split at h
  · simp at h
  · simp only [Option.some.injEq, Prod.mk.injEq] at h
    obtain ⟨-, rfl⟩ := h
    exact List.dropWhile_suffix _

/-- An unquoted value takes a character. -/
theorem bareValue_length_lt {s rest : List Char} {t : Token} (h : bareValue s = some (t, rest)) :
    rest.length < s.length := by
  simp only [bareValue] at h
  split at h
  · simp at h
  · next hr =>
    simp only [Option.some.injEq, Prod.mk.injEq] at h
    obtain ⟨-, rfl⟩ := h
    cases s with
    | nil => simp at hr
    | cons c s =>
      cases hc : inRun c with
      | false => simp [hc] at hr
      | true => exact length_dropWhile_cons_lt hc s

namespace Lexer

theorem read_suffix (l : Lexer) : l.read.2 <:+ l.rest := by
  have hg := afterGap_suffix .blank l.rest
  simp only [read]
  split
  · next h =>
    split at h
    · exact (bareValue_suffix h).trans hg
    · simp at h
  · exact (scan_suffix _ _).trans hg

theorem read_length_lt {l : Lexer} {t : Token} {rest : List Char} (h : l.read = (.ok t, rest))
    (ht : t ≠ .endOfInput) : rest.length < l.rest.length := by
  have hg := (afterGap_suffix .blank l.rest).length_le
  simp only [read] at h
  split at h
  · next hb =>
    split at hb
    · simp only [Prod.mk.injEq, Except.ok.injEq] at h
      obtain ⟨-, rfl⟩ := h
      exact Nat.lt_of_lt_of_le (bareValue_length_lt hb) hg
    · simp at hb
  · exact Nat.lt_of_lt_of_le (scan_length_lt h ht) hg

@[simp] theorem size_next (l : Lexer) : l.next.2.size = l.size := by
  simp only [next]
  split <;> rfl

/-- What the lexer leaves is an end of what it was given. -/
theorem rest_next_suffix (l : Lexer) : l.next.2.rest <:+ l.rest := by
  have h := read_suffix l
  simp only [next]
  split <;> next hr => simpa [hr] using h

/-- A token other than the end of the input takes a character. -/
theorem rest_next_length_lt {l l' : Lexer} {t : Token} (h : l.next = (.ok t, l'))
    (ht : t ≠ .endOfInput) : l'.rest.length < l.rest.length := by
  simp only [next] at h
  split at h
  · next hr =>
    simp only [Prod.mk.injEq, Except.ok.injEq] at h
    obtain ⟨rfl, rfl⟩ := h
    exact read_length_lt hr ht
  · simp at h

end Lexer
end Sql
end PocketSql
