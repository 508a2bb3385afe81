import PocketSql.Proofs.Sql.Continuation

/-!
# Reading at positions

A lexer that stands at a position of a text reads the character there, looks one character ahead,
cuts out what it has passed and tells the position before. Each of these but the second fails where
the position is not inside the text. Readers are written here with accesses that may fail, and with
loops that fail if they do not get on; each of them reads what the reader of the rest of the text
reads, so that no access fails and each loop comes to an end.

## Main definitions

* `Cursor` — a text and a position in it, with the accesses that may fail.
* `Cursor.further?` — a place from which a loop goes on.
* `Cursor.before` — the cursor in front of the rest of a text.
* `Cursor.scan`, `Cursor.next`, `Cursor.tokens` — the readers.

## Main results

* `Cursor.skipComments_before`, `Cursor.bareValue_before`, `Cursor.scan_before` — what the readers
  read at a position.
* `Cursor.tokenize?_eq` — no access fails, whatever the text.
-/

namespace PocketSql
namespace Sql

/-- A text and a position in it. -/
structure Cursor where
  input : List Char
  position : Nat
  deriving DecidableEq, Repr

namespace Cursor

/-! ## Accesses -/

def atEnd (c : Cursor) : Bool := c.input.length ≤ c.position

def advance (c : Cursor) : Cursor := { c with position := c.position + 1 }

/-- The character behind the one at the position, if there is one. -/
def peek (c : Cursor) : Option Char := c.input[c.position + 1]?

/-- The character at the position. It fails at the end of the text. -/
def current? (c : Cursor) : Option Char := c.input[c.position]?

/-- The position before. It fails at the start of the text. -/
def back? (c : Cursor) : Option Nat := if 1 ≤ c.position then some (c.position - 1) else none

/-- The characters from a start up to the position. It fails if the start comes later, or if the
position is behind the text. -/
def slice? (c : Cursor) (start : Nat) : Option (List Char) :=
  if start ≤ c.position ∧ c.position ≤ c.input.length then
    some ((c.input.take c.position).drop start)
  else none

/-- Whether there is a character at the position and it has a property. -/
def sees? (c : Cursor) (p : Char → Bool) : Option Bool :=
  if c.atEnd then some false else c.current?.map p

/-! ## Going on

A loop goes on only from a place further on, where there is less of the text left. -/

/-- How many characters of the text are left. -/
def left (c : Cursor) : Nat := c.input.length - c.position

theorem left_advance_le (c : Cursor) : c.advance.left ≤ c.left := by
  simp only [left, advance]
  omega

theorem left_advance_lt {c : Cursor} (h : ¬ c.atEnd = true) : c.advance.left < c.left := by
  simp only [atEnd, decide_eq_true_eq] at h
  simp only [left, advance]
  omega

theorem left_advance_advance_lt {c : Cursor} (h : ¬ c.atEnd = true) :
    c.advance.advance.left < c.left :=
  (left_advance_le _).trans_lt (left_advance_lt h)

/-- A place from which a loop can go on. It fails if the place is not further on: a loop that does
not get on never comes to an end. -/
def further? (c d : Cursor) : Option { d : Cursor // d.left < c.left } :=
  if h : d.left < c.left then some ⟨d, h⟩ else none

/-! ## Readers

Each of them has no value if one of its accesses fails, and none if it does not get on. -/

/-- Pass the characters that have a property. -/
def skipWhile (p : Char → Bool) (c : Cursor) : Option Cursor :=
  if c.atEnd then some c
  else do
    if p (← c.current?) then skipWhile p c.advance else return c
termination_by c.left
decreasing_by exact left_advance_lt ‹_›

/-- Pass a comment from behind its opening signs, up to and with `*/`. -/
def skipBlock (c : Cursor) : Option Cursor :=
  if c.atEnd then some c
  else do
    if (← c.current?) = '*' ∧ c.peek = some '/' then return c.advance.advance
    else skipBlock c.advance
termination_by c.left
decreasing_by exact left_advance_lt ‹_›

/-- Pass comments and the white space behind each of them. -/
def skipComments (c : Cursor) : Option Cursor :=
  if c.atEnd then some c
  else do
    let ch ← c.current?
    if ch = '-' ∧ c.peek = some '-' then
      let ⟨d, _⟩ ← c.further? (← skipWhile Text.isBlank (← skipWhile (· ≠ '\n') c))
      skipComments d
    else if ch = '/' ∧ c.peek = some '*' then
      let ⟨d, _⟩ ← c.further? (← skipWhile Text.isBlank (← skipBlock c.advance.advance))
      skipComments d
    else return c
termination_by c.left
decreasing_by all_goals assumption

/-- Where a value is expected, read an unquoted value. If there is none, the cursor goes back. -/
def bareValue (m : Mode) (c : Cursor) : Option (Option Token × Cursor) :=
  if !m.value || c.atEnd then some (none, c)
  else do
    let stop ← skipWhile inRun c
    let run ← stop.slice? c.position
    if run.isEmpty || reservedWord run then return (none, c)
    else return (some (runToken run), stop)

/-- Read a quoted string from behind its opening quote, which stands at `start`. -/
def quoted (quote : Char) (start : Nat) (content : List Char) (c : Cursor) :
    Option (Except Error Token × Cursor) :=
  if c.atEnd then some (.error (.unterminatedString start), c)
  else do
    let ch ← c.current?
    if ch = quote then
      if c.peek = some quote then quoted quote start (content ++ [quote]) c.advance.advance
      else return (.ok (.string (String.ofList content)), c.advance)
    else quoted quote start (content ++ [ch]) c.advance
termination_by c.left
decreasing_by
  · exact left_advance_advance_lt ‹_›
  · exact left_advance_lt ‹_›

/-- Read the characters of an unsigned number, given whether a point and an exponent have been
read. -/
def numeral (point exponent : Bool) (text : List Char) (c : Cursor) : Option (List Char × Cursor) :=
  if c.atEnd then some (text, c)
  else do
    let ch ← c.current?
    if ch.isDigit then numeral point exponent (text ++ [ch]) c.advance
    else if ch = '.' && !point && !exponent then
      if c.peek.any Char.isDigit then numeral true exponent (text ++ [ch]) c.advance
      else return (text, c)
    else if (ch = 'e' || ch = 'E') && !exponent then
      if ← c.advance.sees? isExponentSign then
        numeral point true (text ++ [ch, ← c.advance.current?]) c.advance.advance
      else numeral point true (text ++ [ch]) c.advance
    else return (text, c)
termination_by c.left
decreasing_by
  · exact left_advance_lt ‹_›
  · exact left_advance_lt ‹_›
  · exact left_advance_advance_lt ‹_›
  · exact left_advance_lt ‹_›

/-- Read an unsigned number, which must not be followed by a letter. -/
def unsigned (c : Cursor) : Option (Except Error Number × Cursor) := do
  let (text, stop) ← numeral false false [] c
  match if ← stop.sees? startsWord then none else Number.ofChars? text with
  | some x => return (.ok x, stop)
  | none => return (.error (.invalidNumber c.position), stop)

/-- Read a word. -/
def word (text : List Char) (c : Cursor) : Option (Token × Cursor) :=
  if c.atEnd then some (wordToken text, c)
  else do
    let ch ← c.current?
    if inWord ch then word (text ++ [ch]) c.advance else return (wordToken text, c)
termination_by c.left
decreasing_by exact left_advance_lt ‹_›

/-- The signs that are tokens wherever they stand. -/
def sign? : Char → Option Token
  | '(' => some .openParen
  | ')' => some .closeParen
  | ',' => some .comma
  | ';' => some .semicolon
  | '.' => some .dot
  | '*' => some .star
  | '=' => some (.comparison .eq)
  | _ => none

/-- Read a token where no value is expected. -/
def scan (c : Cursor) : Option (Except Error Token × Cursor) :=
  if c.atEnd then some (.ok .endOfInput, c)
  else do
    let ch ← c.current?
    if let some t := sign? ch then return (.ok t, c.advance)
    else if ch = '-' then
      if ← c.advance.sees? Char.isDigit then
        let (x, stop) ← unsigned c.advance
        return (x.map fun x => .number x.neg, stop)
      else return (.error (.unexpectedCharacter '-' (← c.advance.back?)), c.advance)
    else if ch = '<' then
      if ← c.advance.sees? (· = '=') then return (.ok (.comparison .le), c.advance.advance)
      else if ← c.advance.sees? (· = '>') then return (.ok (.comparison .ne), c.advance.advance)
      else return (.ok (.comparison .lt), c.advance)
    else if ch = '>' then
      if ← c.advance.sees? (· = '=') then return (.ok (.comparison .ge), c.advance.advance)
      else return (.ok (.comparison .gt), c.advance)
    else if ch = '!' then
      if ← c.advance.sees? (· = '=') then return (.ok (.comparison .ne), c.advance.advance)
      else return (.error (.unexpectedCharacter '!' (← c.advance.back?)), c.advance)
    else if ch = '\'' || ch = '"' then quoted ch c.position [] c.advance
    else if ch.isDigit then
      let (x, stop) ← unsigned c
      return (x.map .number, stop)
    else if startsWord ch then
      let (t, stop) ← word [] c
      return (.ok t, stop)
    else return (.error (.unexpectedCharacter ch c.position), c)

/-- Read the next token, with the mode behind it. -/
def next (m : Mode) (c : Cursor) : Option (Except Error Token × Mode × Cursor) := do
  let c ← skipComments (← skipWhile Text.isBlank c)
  match ← bareValue m c with
  | (some t, c) => return (.ok t, m.after t, c)
  | (none, c) =>
    match ← scan c with
    | (.ok t, c) => return (.ok t, m.after t, c)
    | (.error e, c) => return (.error e, m, c)

/-- The tokens up to and with the end of the input, or the first error among them. -/
def tokens (m : Mode) (c : Cursor) : Option (Except Error (List Token)) := do
  match ← next m c with
  | (.error e, _, _) => return .error e
  | (.ok t, m, d) =>
    if t = .endOfInput then return .ok [t]
    else
      let ⟨d, _⟩ ← c.further? d
      return (← tokens m d).map (t :: ·)
termination_by c.left
decreasing_by assumption

/-- The tokens of a text. -/
def tokenize? (text : String) : Option (Except Error (List Token)) :=
  tokens .initial ⟨text.toList, 0⟩

/-! ## The cursor in front of the rest of a text -/

/-- The cursor that stands in front of the rest of a text. -/
def before (input rest : List Char) : Cursor := ⟨input, input.length - rest.length⟩

section
variable {input s : List Char} {ch : Char}

@[simp] theorem input_before (input s : List Char) : (before input s).input = input := rfl

theorem atEnd_before (h : s <:+ input) : (before input s).atEnd = s.isEmpty := by
  have shorter := h.length_le
  rw [atEnd, before]
  cases s with
  | nil => simp
  | cons c s =>
    simp only [List.length_cons, List.isEmpty_cons, decide_eq_false_iff_not] at shorter ⊢
    omega

/-- The position is the number of characters that stand in front of the rest. -/
theorem position_before (front s : List Char) :
    (before (front ++ s) s).position = front.length := by
  simp [before]

theorem getElem?_before (front s : List Char) (i : Nat) :
    (front ++ s)[(before (front ++ s) s).position + i]? = s[i]? := by
  simp [position_before, List.getElem?_append_right]

theorem current?_before (h : ch :: s <:+ input) : (before input (ch :: s)).current? = some ch := by
  obtain ⟨front, rfl⟩ := h
  exact getElem?_before front _ 0

theorem peek_before (h : ch :: s <:+ input) : (before input (ch :: s)).peek = s.head? := by
  obtain ⟨front, rfl⟩ := h
  rw [peek, List.head?_eq_getElem?]
  exact getElem?_before front _ 1

theorem advance_before (h : ch :: s <:+ input) :
    (before input (ch :: s)).advance = before input s := by
  have shorter := h.length_le
  simp only [advance, before, List.length_cons, Cursor.mk.injEq, true_and] at shorter ⊢
  omega

theorem back?_before (h : ch :: s <:+ input) :
    (before input s).back? = some (before input (ch :: s)).position := by
  have shorter := h.length_le
  have inside : 1 ≤ (before input s).position := by
    simp only [before, List.length_cons] at shorter ⊢
    omega
  rw [back?, if_pos inside]
  rfl

theorem slice?_before {w : List Char} (h : w ++ s <:+ input) :
    (before input s).slice? (before input (w ++ s)).position = some w := by
  obtain ⟨front, rfl⟩ := h
  have start := position_before front (w ++ s)
  have stop := position_before (front ++ w) s
  rw [List.append_assoc, List.length_append] at stop
  have inside : front.length ≤ front.length + w.length ∧
      front.length + w.length ≤ (front ++ (w ++ s)).length := by
    simp only [List.length_append]
    omega
  rw [slice?, input_before, start, stop, if_pos inside]
  simp [List.take_append, List.take_of_length_le]

theorem left_before (h : s <:+ input) : (before input s).left = s.length := by
  have shorter := h.length_le
  simp only [left, before]
  omega

/-- A loop goes on from where less of the text is left. -/
theorem further?_before {t : List Char} (h : s <:+ input) (behind : t <:+ input)
    (shorter : t.length < s.length) :
    ∃ onward, (before input s).further? (before input t) = some ⟨before input t, onward⟩ := by
  rw [← left_before h, ← left_before behind] at shorter
  exact ⟨shorter, dif_pos shorter⟩

theorem sees?_before (h : s <:+ input) (p : Char → Bool) :
    (before input s).sees? p = some (s.head?.any p) := by
  rw [sees?, atEnd_before h]
  cases s with
  | nil => rfl
  | cons ch s =>
    rw [current?_before h]
    rfl

/-! ## What readers read -/

/-- Readers stop at the end of the text. -/
theorem read_end {α : Type} (h : [] <:+ input) (a b : α) :
    (if (before input []).atEnd then a else b) = a := by
  rw [atEnd_before h]
  rfl

/-- In front of a character, readers look at it. -/
theorem read_cons {α : Type} (h : ch :: s <:+ input) (a : Option α) (f : Char → Option α) :
    (if (before input (ch :: s)).atEnd then a else (before input (ch :: s)).current? >>= f) =
      f ch := by
  rw [atEnd_before h, current?_before h]
  rfl

theorem suffix_tail (h : ch :: s <:+ input) : s <:+ input := (List.suffix_cons ch s).trans h

theorem skipWhile_before (p : Char → Bool) (h : s <:+ input) :
    skipWhile p (before input s) = some (before input (s.dropWhile p)) := by
  induction s with
  | nil =>
    rw [skipWhile, read_end h]
    rfl
  | cons ch s ih =>
    rw [skipWhile, read_cons h, advance_before h, ih (suffix_tail h), List.dropWhile_cons]
    cases p ch <;> rfl

/-- What stands behind a comment, from behind its opening signs. -/
def afterBlock : List Char → List Char
  | [] => []
  | '*' :: '/' :: s => s
  | _ :: s => afterBlock s

theorem afterBlock_suffix (s : List Char) : afterBlock s <:+ s := by
  fun_induction afterBlock s with
  | case1 => exact List.suffix_refl _
  | case2 s => exact (List.suffix_cons _ _).trans (List.suffix_cons _ _)
  | case3 c s _ ih => exact ih.trans (List.suffix_cons _ _)

theorem skipBlock_before (h : s <:+ input) :
    skipBlock (before input s) = some (before input (afterBlock s)) := by
  fun_induction afterBlock s with
  | case1 =>
    rw [skipBlock, read_end h]
  | case2 s =>
    rw [skipBlock, read_cons h, peek_before h, advance_before h, advance_before (suffix_tail h)]
    rfl
  | case3 ch s other ih =>
    have goesOn : ¬ (ch = '*' ∧ s.head? = some '/') := by
      rintro ⟨rfl, slash⟩
      obtain ⟨tail, rfl⟩ := List.head?_eq_some_iff.1 slash
      exact other tail rfl rfl
    rw [skipBlock, read_cons h, peek_before h, if_neg goesOn, advance_before h,
      ih (suffix_tail h)]

theorem afterGap_dropWhile (s : List Char) :
    afterGap .blank (s.dropWhile Text.isBlank) = afterGap .blank s := by
  induction s with
  | nil => rfl
  | cons c s ih =>
    rw [List.dropWhile_cons]
    split
    · next blank => rw [ih, afterGap_blank_cons blank]
    · rfl

/-- Behind a line comment the gap goes on at the end of the line. -/
theorem afterGap_of_line (s : List Char) :
    afterGap .line s = afterGap .blank (s.dropWhile (· ≠ '\n')) := by
  induction s with
  | nil => rfl
  | cons c s ih =>
    rw [afterGap, List.dropWhile_cons]
    by_cases line : c = '\n'
    · subst line
      rfl
    · simpa [line] using ih

theorem afterGap_of_block (s : List Char) :
    afterGap .block s = afterGap .blank (afterBlock s) := by
  fun_induction afterBlock s with
  | case1 => rfl
  | case2 s => rfl
  | case3 ch s other ih =>
    rw [← ih, afterGap]
    exact other

/-- Behind white space stands no more of it. -/
theorem solid_dropWhile (s : List Char) :
    (s.dropWhile Text.isBlank).head?.all fun c => !Text.isBlank c := by
  have first := List.head?_dropWhile_not Text.isBlank s
  cases head : (s.dropWhile Text.isBlank).head? <;> simp_all

/-- In front of what is not blank, all that is passed is comments and the white space behind. -/
theorem skipComments_before (h : s <:+ input)
    (solid : s.head?.all fun c => !Text.isBlank c) :
    skipComments (before input s) = some (before input (afterGap .blank s)) := by
  induction hn : s.length using Nat.strong_induction_on generalizing s with
  | _ n ih =>
    cases s with
    | nil =>
      rw [skipComments, read_end h]
      rfl
    | cons ch s =>
      -- behind a comment, white space is passed and comments go on
      have further {t : List Char} (behind : t <:+ s) :
          ((skipWhile Text.isBlank (before input t)).bind fun d =>
            ((before input (ch :: s)).further? d).bind fun d => skipComments d) =
              some (before input (afterGap .blank t)) := by
        have suffix := behind.trans (suffix_tail h)
        have blank : t.dropWhile Text.isBlank <:+ t := List.dropWhile_suffix _
        have shorter : (t.dropWhile Text.isBlank).length < (ch :: s).length :=
          Nat.lt_succ_of_le (blank.trans behind).length_le
        obtain ⟨_, onward⟩ := further?_before h (blank.trans suffix) shorter
        rw [skipWhile_before _ suffix, Option.bind_some, onward, Option.bind_some,
          ih _ (hn ▸ shorter) (blank.trans suffix) (solid_dropWhile t) rfl, afterGap_dropWhile]
      rw [skipComments, read_cons h, peek_before h]
      split
      · next line =>
        obtain ⟨rfl, second⟩ := line
        obtain ⟨t, rfl⟩ := List.head?_eq_some_iff.1 second
        rw [skipWhile_before _ h]
        have behind : t.dropWhile (· ≠ '\n') <:+ '-' :: t :=
          (List.dropWhile_suffix _).trans (List.suffix_cons _ _)
        exact (further behind).trans (by rw [← afterGap_of_line]; rfl)
      · split
        · next block =>
          obtain ⟨rfl, second⟩ := block
          obtain ⟨t, rfl⟩ := List.head?_eq_some_iff.1 second
          have h' := suffix_tail h
          rw [advance_before h, advance_before h', skipBlock_before (suffix_tail h')]
          have behind : afterBlock t <:+ '*' :: t :=
            (afterBlock_suffix t).trans (List.suffix_cons _ _)
          exact (further behind).trans (by rw [← afterGap_of_block]; rfl)
        · next line block =>
          rw [afterGap_cons_eq_iff.2 ⟨by simpa using solid, line, block⟩]
          rfl

theorem bareValue_before (m : Mode) (h : s <:+ input) :
    bareValue m (before input s) = some
      (match if m.value then Sql.bareValue s else none with
        | some (t, rest) => (some t, before input rest)
        | none => (none, before input s)) := by
  rw [bareValue, atEnd_before h]
  cases m.value with
  | false => rfl
  | true =>
    cases s with
    | nil => rfl
    | cons ch s =>
      have whole := List.takeWhile_append_dropWhile (p := inRun) (l := ch :: s)
      have run : (before input ((ch :: s).dropWhile inRun)).slice?
          (before input (ch :: s)).position = some ((ch :: s).takeWhile inRun) := by
        rw [← whole] at h
        have run := slice?_before h
        rwa [whole] at run
      simp only [Bool.not_true, List.isEmpty_cons, Bool.or_self, Bool.false_eq_true, if_false,
        skipWhile_before inRun h, Option.bind_eq_bind, Option.bind_some, run, Sql.bareValue,
        if_true]
      split <;> simp

theorem quoted_before (quote : Char) (start : Nat) (content : List Char) (h : s <:+ input) :
    quoted quote start content (before input s) = some
      (match Sql.quoted quote s with
        | some (more, rest) => (.ok (.string (String.ofList (content ++ more))), before input rest)
        | none => (.error (.unterminatedString start), before input [])) := by
  fun_induction Sql.quoted quote s generalizing content with
  | case1 => rw [quoted, read_end h]
  | case2 s ih =>
    have h' := suffix_tail h
    rw [quoted, read_cons h, if_pos rfl, peek_before h, List.head?_cons, if_pos rfl,
      advance_before h, advance_before h', ih _ (suffix_tail h')]
    cases Sql.quoted quote s <;> simp
  | case3 d s other =>
    rw [quoted, read_cons h, if_pos rfl, peek_before h, List.head?_cons,
      if_neg (by simpa using other), advance_before h]
    simp
  | case4 c d s other ih =>
    rw [quoted, read_cons h, if_neg other, advance_before h, ih _ (suffix_tail h)]
    cases Sql.quoted quote (d :: s) <;> simp
  | case5 =>
    rw [quoted, read_cons h, if_pos rfl, peek_before h, advance_before h]
    simp
  | case6 c other =>
    rw [quoted, read_cons h, if_neg other, advance_before h, quoted, read_end (suffix_tail h)]

theorem numeral_before (point exponent : Bool) (text : List Char) (h : s <:+ input) :
    numeral point exponent text (before input s) = some
      (text ++ (Sql.numeral point exponent s).1,
        before input (Sql.numeral point exponent s).2) := by
  induction hn : s.length using Nat.strong_induction_on generalizing s point exponent text with
  | _ n ih =>
    cases s with
    | nil =>
      rw [numeral, read_end h]
      simp [Sql.numeral]
    | cons ch s =>
      have h' := suffix_tail h
      have further (point exponent : Bool) (text : List Char) :=
        ih s.length (by simp [← hn]) point exponent text h' rfl
      rw [numeral, read_cons h, peek_before h, advance_before h, numeral_cons,
        sees?_before h' isExponentSign]
      by_cases digit : ch.isDigit = true
      · rw [if_pos digit, if_pos digit, further]
        simp [consFirst]
      rw [if_neg digit, if_neg digit]
      by_cases point' : (ch = '.' && !point && !exponent) = true
      · rw [if_pos point', point', Bool.true_and]
        split
        · rw [further]
          simp [consFirst]
        · obtain rfl : ch = '.' := by simp_all
          simp
      rw [Bool.not_eq_true] at point'
      rw [point', Bool.false_and, if_neg Bool.false_ne_true, if_neg Bool.false_ne_true]
      split
      · cases s with
        | nil => simp [further, consFirst]
        | cons sign s =>
          rw [List.head?_cons, Option.any_some, current?_before h', advance_before h']
          have shorter : s.length < n := by
            simp only [← hn, List.length_cons]
            omega
          cases isExponentSign sign with
          | true =>
            simp [ih _ shorter _ _ _ (suffix_tail h') rfl, consFirst]
          | false => simp [further, consFirst]
      · simp

theorem unsigned_before (h : s <:+ input) :
    unsigned (before input s) = some
      ((Sql.unsigned input.length s).1, before input (Sql.unsigned input.length s).2) := by
  have suffix := (numeral_suffix false false s).trans h
  rw [unsigned, numeral_before false false [] h]
  simp only [Option.bind_eq_bind, Option.bind_some, List.nil_append, sees?_before suffix,
    Sql.unsigned]
  generalize (if (Sql.numeral false false s).2.head?.any startsWord then none
    else Number.ofChars? (Sql.numeral false false s).1) = number
  cases number with
  | some x => rfl
  | none => rfl

theorem word_before (text : List Char) (h : s <:+ input) :
    word text (before input s) = some
      (wordToken (text ++ s.takeWhile inWord), before input (s.dropWhile inWord)) := by
  induction s generalizing text with
  | nil =>
    rw [word, read_end h]
    simp
  | cons ch s ih =>
    rw [word, read_cons h, advance_before h, ih _ (suffix_tail h), List.takeWhile_cons,
      List.dropWhile_cons]
    cases inWord ch <;> simp

theorem scan_of_sign {t : Token} (h : sign? ch = some t) (size : Nat) (s : List Char) :
    Sql.scan size (ch :: s) = (.ok t, s) := by
  unfold sign? at h
  split at h <;> cases h <;> rfl

theorem single?_eq_none (sign : sign? ch = none) (other : ch ∉ ['-', '<', '>', '!']) :
    single? ch = none := by
  unfold single?
  split <;> simp_all [sign?]

/-- Behind a sign, the cursor looks whether another one follows and passes it. -/
theorem sees?_sign (h : s <:+ input) (sign : Char) :
    (before input s).sees? (· = sign) = some (decide (s.head? = some sign)) ∧
      (s.head? = some sign → (before input s).advance = before input s.tail) := by
  rw [sees?_before h]
  cases s with
  | nil => simp
  | cons ch s => simp [advance_before h]

/-- In front of a sign that another one may follow. -/
theorem scan_before_sign (h : ch :: s <:+ input) (sign : ch ∈ ['-', '<', '>', '!']) :
    scan (before input (ch :: s)) = some
      ((Sql.scan input.length (ch :: s)).1,
        before input (Sql.scan input.length (ch :: s)).2) := by
  have h' := suffix_tail h
  obtain ⟨equal, behind⟩ := sees?_sign h' '='
  rw [scan, read_cons h, advance_before h]
  simp only [List.mem_cons, List.not_mem_nil, or_false] at sign
  obtain rfl | rfl | rfl | rfl := sign <;> simp only [sign?, reduceIte, Char.reduceEq]
  · rw [scan_minus, sees?_before h', unsigned_before h', back?_before h]
    by_cases digit : s.head?.any Char.isDigit = true <;> simp [digit, before]
  · obtain ⟨greater, behind'⟩ := sees?_sign h' '>'
    rw [scan_less, equal, greater]
    by_cases eq : s.head? = some '='
    · simp [eq, behind eq]
    · by_cases gt : s.head? = some '>'
      · simp [gt, behind' gt]
      · simp [eq, gt]
  · rw [scan_greater, equal]
    by_cases eq : s.head? = some '='
    · simp [eq, behind eq]
    · simp [eq]
  · rw [scan_bang, equal, back?_before h]
    by_cases eq : s.head? = some '='
    · simp [eq, behind eq]
    · simp [eq, before]

/-- In front of a string, a number or a word, or of what starts none of them. -/
theorem scan_before_plain (h : ch :: s <:+ input) (sign : sign? ch = none)
    (other : ch ∉ ['-', '<', '>', '!']) :
    scan (before input (ch :: s)) = some
      ((Sql.scan input.length (ch :: s)).1,
        before input (Sql.scan input.length (ch :: s)).2) := by
  have none := single?_eq_none sign other
  simp only [List.mem_cons, List.not_mem_nil, or_false, not_or] at other
  obtain ⟨minus, less, greater, bang⟩ := other
  rw [scan, read_cons h, advance_before h, sign]
  simp only [if_neg minus, if_neg less, if_neg greater, if_neg bang]
  rw [scan_plain none (by simp [minus, bang]), quoted_before _ _ _ (suffix_tail h),
    unsigned_before h, word_before _ h]
  by_cases quote : (ch = '\'' || ch = '"') = true
  · rw [if_pos quote, if_pos quote]
    cases Sql.quoted ch s <;> simp [before]
  rw [if_neg quote, if_neg quote]
  by_cases digit : ch.isDigit = true
  · simp [digit]
  by_cases letter : startsWord ch = true
  · simp [digit, letter]
  · simp [digit, letter, before]

theorem scan_before (h : s <:+ input) :
    scan (before input s) = some
      ((Sql.scan input.length s).1, before input (Sql.scan input.length s).2) := by
  cases s with
  | nil =>
    rw [scan, read_end h]
    rfl
  | cons ch s =>
    cases sign : sign? ch with
    | some t =>
      rw [scan, read_cons h, advance_before h, sign, scan_of_sign sign]
      rfl
    | none =>
      by_cases longer : ch ∈ ['-', '<', '>', '!']
      · exact scan_before_sign h longer
      · exact scan_before_plain h sign longer

theorem next_before (m : Mode) (h : s <:+ input) :
    let l : Lexer := ⟨input.length, s, m⟩
    next m (before input s) = some (l.next.1, l.next.2.mode, before input l.next.2.rest) := by
  have solid := solid_dropWhile s
  have gap := (afterGap_suffix .blank s).trans h
  intro l
  rw [next, skipWhile_before _ h, Lexer.next, Lexer.read]
  simp only [Option.bind_eq_bind, Option.bind_some,
    skipComments_before ((List.dropWhile_suffix _).trans h) solid, afterGap_dropWhile,
    bareValue_before m gap]
  cases if m.value then Sql.bareValue (afterGap .blank s) else none with
  | some read => rfl
  | none =>
    simp only [scan_before gap, Option.bind_some]
    cases Sql.scan input.length (afterGap .blank s) with
    | mk result rest => cases result <;> rfl

theorem tokens_before (m : Mode) (h : s <:+ input) :
    tokens m (before input s) = some (Lexer.tokens ⟨input.length, s, m⟩) := by
  induction hn : s.length using Nat.strong_induction_on generalizing s m with
  | _ n ih =>
    rw [tokens, next_before m h]
    simp only [Option.bind_eq_bind, Option.bind_some]
    cases read : Lexer.next ⟨input.length, s, m⟩ with
    | mk result l =>
      cases result with
      | error e => rw [Lexer.tokens_error read]; rfl
      | ok t =>
        by_cases last : t = .endOfInput
        · subst last
          rw [Lexer.tokens_last read]
          rfl
        · have size : l.size = input.length := by
            have same := Lexer.size_next ⟨input.length, s, m⟩
            rwa [read] at same
          have suffix : l.rest <:+ s := by
            have left := Lexer.rest_next_suffix ⟨input.length, s, m⟩
            rwa [read] at left
          have shorter : l.rest.length < s.length := Lexer.rest_next_length_lt read last
          have more := ih _ (hn ▸ shorter) l.mode (suffix.trans h) rfl
          obtain ⟨_, onward⟩ := further?_before h (suffix.trans h) shorter
          rw [← size] at more
          rw [Lexer.tokens_more read last]
          simp [last, onward, more]

end

/-- **No access fails**, whatever the text. -/
theorem tokenize?_eq (text : String) : tokenize? text = some (tokenize text) := by
  have start : before text.toList text.toList = ⟨text.toList, 0⟩ := by simp [before]
  rw [tokenize?, ← start, tokens_before _ (List.suffix_refl _)]
  rfl

end Cursor
end Sql
end PocketSql
