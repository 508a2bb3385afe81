import PocketSql.Sql.Token.Lexer

/-!
# How a token is read

Where no value is expected, the scanner looks at one character, or at two of them, and then reads a
sign, a number, a quoted string or a word. `Scans` lists the ways in which it succeeds, each with
what it takes. Where a value is expected, a run may be read instead.

## Main definitions

* `single?`, `double?` — the signs of one and of two characters.
* `Scans` — the ways in which a token is read.

## Main results

* `scan_ok_iff` — a token is read in one of these ways.
* `bareValue_eq_some_iff` — what is read as a value.
-/

namespace PocketSql
namespace Sql

/-! ## Signs -/

/-- The signs of one character. Some of them are tokens only if no longer sign starts there. -/
def single? : Char → Option Token
  | '(' => some .openParen
  | ')' => some .closeParen
  | ',' => some .comma
  | ';' => some .semicolon
  | '.' => some .dot
  | '*' => some .star
  | '=' => some (.comparison .eq)
  | '<' => some (.comparison .lt)
  | '>' => some (.comparison .gt)
  | _ => none

/-- The signs of two characters. -/
def double? : Char → Char → Option Token
  | '<', '=' => some (.comparison .le)
  | '<', '>' => some (.comparison .ne)
  | '>', '=' => some (.comparison .ge)
  | '!', '=' => some (.comparison .ne)
  | _, _ => none

section
variable {size : Nat} {c d : Char} {s rest : List Char} {t : Token}

theorem scan_less (size : Nat) (s : List Char) :
    scan size ('<' :: s) =
      if s.head? = some '=' then (.ok (.comparison .le), s.tail)
      else if s.head? = some '>' then (.ok (.comparison .ne), s.tail)
      else (.ok (.comparison .lt), s) := by
  cases s with
  | nil => rfl
  | cons c s =>
    by_cases eq : c = '='
    · subst eq
      rfl
    · by_cases gt : c = '>'
      · subst gt
        rfl
      · simp [scan, eq, gt]

theorem scan_greater (size : Nat) (s : List Char) :
    scan size ('>' :: s) =
      if s.head? = some '=' then (.ok (.comparison .ge), s.tail)
      else (.ok (.comparison .gt), s) := by
  cases s with
  | nil => rfl
  | cons c s =>
    by_cases eq : c = '='
    · subst eq
      rfl
    · simp [scan, eq]

theorem scan_bang (size : Nat) (s : List Char) :
    scan size ('!' :: s) =
      if s.head? = some '=' then (.ok (.comparison .ne), s.tail)
      else (.error (.unexpectedCharacter '!' (size - (s.length + 1))), s) := by
  cases s with
  | nil => rfl
  | cons c s =>
    by_cases eq : c = '='
    · subst eq
      rfl
    · simp [scan, eq]

theorem scan_single (h : single? c = some t) (alone : ∀ d, s.head? = some d → double? c d = none) :
    scan size (c :: s) = (.ok t, s) := by
  unfold single? at h
  split at h <;> cases h <;> try rfl
  · have equal : s.head? ≠ some '=' := fun second => nomatch alone '=' second
    have greater : s.head? ≠ some '>' := fun second => nomatch alone '>' second
    rw [scan_less, if_neg equal, if_neg greater]
  · have equal : s.head? ≠ some '=' := fun second => nomatch alone '=' second
    rw [scan_greater, if_neg equal]

theorem scan_double (h : double? c d = some t) : scan size (c :: d :: s) = (.ok t, s) := by
  unfold double? at h
  split at h <;> cases h <;> rfl

/-- A sign of two characters starts with a character, or that one stands alone. -/
theorem double_or_alone (c : Char) (s : List Char) :
    (∃ d rest t, s = d :: rest ∧ double? c d = some t) ∨
      ∀ d, s.head? = some d → double? c d = none := by
  cases s with
  | nil => exact .inr fun d second => nomatch second
  | cons d s =>
    cases sign : double? c d with
    | none =>
      refine .inr fun d' second => ?_
      cases second
      exact sign
    | some t => exact .inl ⟨d, s, t, rfl, sign⟩

theorem scan_minus (size : Nat) (s : List Char) :
    scan size ('-' :: s) =
      if s.head?.any Char.isDigit then
        ((unsigned size s).1.map fun x => .number x.neg, (unsigned size s).2)
      else (.error (.unexpectedCharacter '-' (size - (s.length + 1))), s) := by
  simp only [scan]
  split
  · split <;> next read => simp [read, Except.map]
  · rfl

/-- What starts with no sign is a string, a number or a word. -/
theorem scan_plain (sign : single? c = none) (other : c ∉ ['-', '!']) (size : Nat)
    (s : List Char) :
    scan size (c :: s) =
      if c = '\'' || c = '"' then
        match quoted c s with
        | some (content, rest) => (.ok (.string (String.ofList content)), rest)
        | none => (.error (.unterminatedString (size - (s.length + 1))), [])
      else if c.isDigit then
        ((unsigned size (c :: s)).1.map .number, (unsigned size (c :: s)).2)
      else if startsWord c then
        (.ok (wordToken ((c :: s).takeWhile inWord)), (c :: s).dropWhile inWord)
      else (.error (.unexpectedCharacter c (size - (s.length + 1))), c :: s) := by
  unfold scan
  dsimp only
  split
  iterate 11 simp [single?] at sign other
  congr 2
  split <;> next read => simp [read, Except.map]

/-- The tokens that signs are read as. -/
def Token.isSymbol : Token → Bool
  | .comparison _ | .star | .openParen | .closeParen | .comma | .semicolon | .dot => true
  | _ => false

theorem isSymbol_of_single (h : single? c = some t) : t.isSymbol = true := by
  unfold single? at h
  split at h <;> cases h <;> rfl

theorem comparison_of_double (h : double? c d = some t) : ∃ op, t = .comparison op := by
  unfold double? at h
  split at h <;> cases h <;> exact ⟨_, rfl⟩

theorem isSymbol_of_double (h : double? c d = some t) : t.isSymbol = true := by
  obtain ⟨op, rfl⟩ := comparison_of_double h
  rfl

end

/-! ## Tokens -/

/-- The ways in which a token is read, with the characters that it is read from and what is left
behind it. -/
inductive Scans (size : Nat) : List Char → Token → List Char → Prop
  | last : Scans size [] .endOfInput []
  | single {c : Char} {s : List Char} {t : Token} (sign : single? c = some t)
      (alone : ∀ d, s.head? = some d → double? c d = none) : Scans size (c :: s) t s
  | double {c d : Char} {s : List Char} {t : Token} (sign : double? c d = some t) :
      Scans size (c :: d :: s) t s
  | negative {s rest : List Char} {x : Number} (digit : s.head?.any Char.isDigit = true)
      (number : unsigned size s = (.ok x, rest)) : Scans size ('-' :: s) (.number x.neg) rest
  | string {c : Char} {s content rest : List Char} (quote : c = '\'' ∨ c = '"')
      (string : quoted c s = some (content, rest)) :
      Scans size (c :: s) (.string (String.ofList content)) rest
  | number {c : Char} {s rest : List Char} {x : Number} (sign : single? c = none)
      (other : c ∉ ['-', '!', '\'', '"']) (digit : c.isDigit = true)
      (number : unsigned size (c :: s) = (.ok x, rest)) : Scans size (c :: s) (.number x) rest
  | word {c : Char} {s rest : List Char} {t : Token} (sign : single? c = none)
      (other : c ∉ ['-', '!', '\'', '"']) (digit : c.isDigit = false) (starts : startsWord c = true)
      (token : wordToken ((c :: s).takeWhile inWord) = t)
      (left : (c :: s).dropWhile inWord = rest) : Scans size (c :: s) t rest

section
variable {size : Nat} {c d : Char} {s rest : List Char} {t : Token}

theorem Scans.scan_eq (h : Scans size s t rest) : scan size s = (.ok t, rest) := by
  cases h with
  | last => rfl
  | single sign alone => exact scan_single sign alone
  | double sign => exact scan_double sign
  | negative digit number =>
    rw [scan_minus, if_pos digit, number]
    rfl
  | string quote string =>
    obtain rfl | rfl := quote <;> rw [scan_plain rfl (by decide), if_pos (by decide), string]
  | number sign other digit number =>
    simp only [List.mem_cons, List.not_mem_nil, or_false, not_or] at other
    rw [scan_plain sign (by simp [other]), if_neg (by simp [other]), if_pos digit, number]
    rfl
  | word sign other digit starts token left =>
    simp only [List.mem_cons, List.not_mem_nil, or_false, not_or] at other
    rw [scan_plain sign (by simp [other]), if_neg (by simp [other]), if_neg (by simp [digit]),
      if_pos starts, token, left]

/-- A token that is made from a number comes from a number that was read. -/
theorem unsigned_of_map {read : Except Error Number × List Char} {f : Number → Token}
    (h : (read.1.map f, read.2) = (.ok t, rest)) : ∃ x, read = (.ok x, rest) ∧ f x = t := by
  obtain ⟨result, left⟩ := read
  cases result with
  | error e => cases h
  | ok x =>
    cases h
    exact ⟨x, rfl, rfl⟩

theorem scans_of_plain (sign : single? c = none) (other : c ∉ ['-', '!'])
    (h : scan size (c :: s) = (.ok t, rest)) : Scans size (c :: s) t rest := by
  rw [scan_plain sign other] at h
  split at h
  · next quote =>
    split at h
    · next string =>
      cases h
      exact .string (by simpa using quote) string
    · cases h
  next quote =>
  have other : c ∉ ['-', '!', '\'', '"'] := by
    simp only [Bool.or_eq_true, decide_eq_true_eq, not_or, List.mem_cons, List.not_mem_nil,
      or_false] at other quote ⊢
    exact ⟨other.1, other.2, quote⟩
  split at h
  · next digit =>
    obtain ⟨x, number, rfl⟩ := unsigned_of_map h
    exact .number sign other digit number
  next digit =>
  split at h
  · next starts =>
    obtain ⟨token, left⟩ := Prod.mk.inj h
    exact .word sign other (by simpa using digit) starts (Except.ok.inj token) left
  · cases h

theorem scans_of_scan (h : scan size s = (.ok t, rest)) : Scans size s t rest := by
  cases s with
  | nil =>
    cases h
    exact .last
  | cons c s =>
    obtain ⟨d, s, u, rfl, sign⟩ | alone := double_or_alone c s
    · rw [scan_double sign] at h
      cases h
      exact .double sign
    cases sign : single? c with
    | some u =>
      rw [scan_single sign alone] at h
      cases h
      exact .single sign alone
    | none =>
      by_cases minus : c = '-'
      · subst minus
        rw [scan_minus] at h
        split at h
        · next digit =>
          obtain ⟨x, number, rfl⟩ := unsigned_of_map h
          exact .negative digit number
        · cases h
      by_cases bang : c = '!'
      · subst bang
        have equal : s.head? ≠ some '=' := fun second => nomatch alone '=' second
        rw [scan_bang, if_neg equal] at h
        cases h
      exact scans_of_plain sign (by simp [minus, bang]) h

/-- **A token is read in one of these ways, and in each of them one is.** -/
theorem scan_ok_iff : scan size s = (.ok t, rest) ↔ Scans size s t rest :=
  ⟨scans_of_scan, Scans.scan_eq⟩

/-- A value is a run that is no reserved word. -/
theorem bareValue_eq_some_iff : bareValue s = some (t, rest) ↔
    (s.takeWhile inRun ≠ [] ∧ reservedWord (s.takeWhile inRun) = false) ∧
      runToken (s.takeWhile inRun) = t ∧ s.dropWhile inRun = rest := by
  rw [bareValue]
  by_cases empty : s.takeWhile inRun = []
  · simp [empty]
  · cases reservedWord (s.takeWhile inRun) <;> simp [empty]

end

end Sql
end PocketSql
