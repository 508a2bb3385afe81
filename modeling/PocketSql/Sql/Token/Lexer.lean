import PocketSql.Number.Rounding
import PocketSql.Sql.Error
import PocketSql.Text.Alphabetic
import PocketSql.Text.Blank
import PocketSql.Text.Numeric

/-!
# From characters to tokens

A lexer reads one token at a time. Where a value is expected it reads an unquoted run of characters
whole, so that `2024-01-15` or `bob@x.io` is one word; elsewhere signs separate words. Which of the
two holds is decided by the tokens read so far.
-/

namespace PocketSql
namespace Sql

/-- Whether a word can start with a character. -/
def startsWord (c : Char) : Bool := Text.isAlphabetic c || c = '_'

/-- Whether a word can go on with a character. -/
def inWord (c : Char) : Bool := Text.isAlphabetic c || Text.isNumeric c || c = '_'

/-- What the white space and comments before a token are read as. -/
inductive Gap where
  | blank
  | line
  | block
  deriving DecidableEq, Repr

/-- What follows the white space and comments at the start of a text. A comment runs from `--` to
the end of its line, or from `/*` to `*/`, and to the end of the text where that is missing. -/
def afterGap : Gap → List Char → List Char
  | _, [] => []
  | .blank, '-' :: '-' :: s => afterGap .line s
  | .blank, '/' :: '*' :: s => afterGap .block s
  | .blank, c :: s => if Text.isBlank c then afterGap .blank s else c :: s
  | .line, c :: s => if c = '\n' then afterGap .blank s else afterGap .line s
  | .block, '*' :: '/' :: s => afterGap .blank s
  | .block, _ :: s => afterGap .block s

/-- The content of a quoted string and what follows it, from behind the opening quote. A doubled
quote stands for one quote. -/
def quoted (quote : Char) : List Char → Option (List Char × List Char)
  | [] => none
  | c :: d :: s =>
    if c = quote then
      if d = quote then (quoted quote s).map fun (content, rest) => (quote :: content, rest)
      else some ([], d :: s)
    else (quoted quote (d :: s)).map fun (content, rest) => (c :: content, rest)
  | [c] => if c = quote then some ([], []) else none

/-- Put a character in front of the first of two texts. -/
def consFirst (c : Char) (p : List Char × List Char) : List Char × List Char := (c :: p.1, p.2)

/-- The characters of an unsigned number and what follows them, given whether a point and an
exponent have been read. A point belongs to the number only if a digit follows it. -/
def numeral (point exponent : Bool) : List Char → List Char × List Char
  | [] => ([], [])
  | c :: s =>
    if c.isDigit then consFirst c (numeral point exponent s)
    else if c = '.' && !point && !exponent && (s.head?.any Char.isDigit) then
      consFirst c (numeral true exponent s)
    else if (c = 'e' || c = 'E') && !exponent then
      match s with
      | '+' :: t => consFirst c (consFirst '+' (numeral point true t))
      | '-' :: t => consFirst c (consFirst '-' (numeral point true t))
      | t => consFirst c (numeral point true t)
    else ([], c :: s)

/-- Read an unsigned number at the start of a text. A number must not be followed by a letter. The
position of the text is told by the number of characters in the whole text. -/
def unsigned (size : Nat) (s : List Char) : Except Error Number × List Char :=
  let (text, rest) := numeral false false s
  match if rest.head?.any startsWord then none else Number.ofChars? text with
  | some x => (.ok x, rest)
  | none => (.error (.invalidNumber (size - s.length)), rest)

/-- The token of a word. -/
def wordToken (word : List Char) : Token :=
  match Keyword.ofWord? word with
  | some k => .keyword k
  | none => .name (String.ofList word)

/-- Read a token where no value is expected. The position of the text is told by the number of
characters in the whole text. -/
def scan (size : Nat) : List Char → Except Error Token × List Char
  | [] => (.ok .endOfInput, [])
  | c :: s =>
    match c with
    | '(' => (.ok .openParen, s)
    | ')' => (.ok .closeParen, s)
    | ',' => (.ok .comma, s)
    | ';' => (.ok .semicolon, s)
    | '.' => (.ok .dot, s)
    | '*' => (.ok .star, s)
    | '=' => (.ok (.comparison .eq), s)
    | '<' =>
      match s with
      | '=' :: t => (.ok (.comparison .le), t)
      | '>' :: t => (.ok (.comparison .ne), t)
      | t => (.ok (.comparison .lt), t)
    | '>' =>
      match s with
      | '=' :: t => (.ok (.comparison .ge), t)
      | t => (.ok (.comparison .gt), t)
    | '!' =>
      match s with
      | '=' :: t => (.ok (.comparison .ne), t)
      | t => (.error (.unexpectedCharacter '!' (size - (s.length + 1))), t)
    | '-' =>
      if s.head?.any Char.isDigit then
        match unsigned size s with
        | (.ok x, rest) => (.ok (.number x.neg), rest)
        | (.error e, rest) => (.error e, rest)
      else (.error (.unexpectedCharacter '-' (size - (s.length + 1))), s)
    | c =>
      if c = '\'' || c = '"' then
        match quoted c s with
        | some (content, rest) => (.ok (.string (String.ofList content)), rest)
        | none => (.error (.unterminatedString (size - (s.length + 1))), [])
      else if c.isDigit then
        match unsigned size (c :: s) with
        | (.ok x, rest) => (.ok (.number x), rest)
        | (.error e, rest) => (.error e, rest)
      else if startsWord c then
        (.ok (wordToken ((c :: s).takeWhile inWord)), (c :: s).dropWhile inWord)
      else (.error (.unexpectedCharacter c (size - (s.length + 1))), c :: s)

/-- Whether an unquoted value goes on with a character. -/
def inRun (c : Char) : Bool :=
  !(Text.isBlank c || ['(', ')', ',', ';', '\'', '"', '=', '<', '>', '!'].contains c)

/-- Whether a run of characters is a reserved keyword. -/
def reservedWord (run : List Char) : Bool :=
  run.head?.any startsWord && run.all inWord && (Keyword.ofWord? run).any (·.reserved)

/-- The token of an unquoted value: a number if all of it reads as one, otherwise a name. -/
def runToken (run : List Char) : Token :=
  match if run.any Char.isDigit then Number.ofChars? run else none with
  | some x => .number x
  | none => .name (String.ofList run)

/-- Read an unquoted value. There is none where a sign, a quote or a reserved keyword stands. -/
def bareValue (s : List Char) : Option (Token × List Char) :=
  let run := s.takeWhile inRun
  if run.isEmpty || reservedWord run then none else some (runToken run, s.dropWhile inRun)

/-- What the tokens read so far say about the next one. -/
structure Mode where
  /-- The next token is a value. -/
  value : Bool
  /-- An INSERT has been read in this statement. -/
  insert : Bool
  /-- The VALUES of an INSERT have been read in this statement. -/
  values : Bool
  /-- An ON has been read, and no WHERE since. -/
  on : Bool
  /-- The last token was INTO. -/
  into : Bool
  deriving DecidableEq, Repr

namespace Mode

/-- The mode at the start of a text. -/
def initial : Mode := ⟨false, false, false, false, false⟩

/-- The mode after one more token. -/
def after (m : Mode) (t : Token) : Mode :=
  let m := match t with
    | .keyword .insert => { m with insert := true }
    | .keyword .values => { m with values := m.values || (m.insert && !m.into) }
    | .keyword .on => { m with on := true }
    | .keyword .whereWord => { m with on := false }
    | .semicolon => initial
    | _ => m
  let value := match t with
    | .comparison _ => !m.on
    | .keyword .default => true
    | .openParen | .comma => m.values
    | _ => false
  { m with value, into := t = .keyword .into }

@[simp] theorem after_semicolon (m : Mode) : m.after .semicolon = initial := rfl

end Mode

/-- A text of `size` characters, of which `rest` is still to be read. -/
structure Lexer where
  size : Nat
  rest : List Char
  mode : Mode
  deriving DecidableEq, Repr

namespace Lexer

/-- A lexer at the start of a text. -/
def ofText (text : String) : Lexer := ⟨text.toList.length, text.toList, .initial⟩

/-- The position of the next character. -/
def position (l : Lexer) : Nat := l.size - l.rest.length

/-- Read a token from what follows the gap, without regard to what it changes. -/
def read (l : Lexer) : Except Error Token × List Char :=
  let s := afterGap .blank l.rest
  match if l.mode.value then bareValue s else none with
  | some (t, rest) => (.ok t, rest)
  | none => scan l.size s

/-- Read the next token. After an error the lexer stands where reading stopped. -/
def next (l : Lexer) : Except Error Token × Lexer :=
  match l.read with
  | (.ok t, rest) => (.ok t, { l with rest, mode := l.mode.after t })
  | (.error e, rest) => (.error e, { l with rest })

end Lexer
end Sql
end PocketSql
