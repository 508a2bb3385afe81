/-!
# Decimals

A decimal is a natural number times a power of ten. This module writes decimals in positional and
in scientific notation, and reads the notation in which numbers are typed.
-/

namespace PocketSql

/-- The decimal `digits * 10 ^ exponent`. -/
structure Decimal where
  digits : Nat
  exponent : Int
  deriving DecidableEq, Repr

namespace Decimal

/-- The decimal digits of a natural number. -/
def digitsOf (n : Nat) : List Char := Nat.toDigits 10 n

/-- The natural number that decimal digits spell. -/
def ofDigits (s : List Char) : Nat := s.foldl (fun n c => 10 * n + (c.toNat - '0'.toNat)) 0

/-- The same decimal without zeros at the end of its digits. -/
def stripped (digits : Nat) (exponent : Int) : Decimal :=
  if h : digits ≠ 0 ∧ digits % 10 = 0 then stripped (digits / 10) (exponent + 1)
  else ⟨digits, exponent⟩
termination_by digits
decreasing_by omega

/-- The exponent of the first digit in scientific notation. -/
def leading (d : Decimal) : Int := d.exponent + (digitsOf d.digits).length - 1

/-- Positional notation. A decimal without fraction is followed by `wholeEnd`. -/
def positional (wholeEnd : List Char) (d : Decimal) : List Char :=
  let s := digitsOf d.digits
  let places := (-d.exponent).toNat
  if 0 ≤ d.exponent then s ++ List.replicate d.exponent.toNat '0' ++ wholeEnd
  else if places < s.length then
    s.take (s.length - places) ++ '.' :: s.drop (s.length - places)
  else '0' :: '.' :: (List.replicate (places - s.length) '0' ++ s)

/-- Scientific notation: one digit, the fraction if there is one, and a signed exponent. -/
def scientific (d : Decimal) : List Char :=
  let fraction := (digitsOf d.digits).tail
  let sign := if d.leading < 0 then '-' else '+'
  (digitsOf d.digits).take 1 ++ (if fraction.isEmpty then [] else '.' :: fraction)
    ++ 'e' :: sign :: digitsOf d.leading.natAbs

/-- An exponent: an optional sign and at least one digit. -/
def exponent? (s : List Char) : Option Int :=
  let (sign, digits) := match s with
    | '-' :: t => (-1, t)
    | '+' :: t => (1, t)
    | t => (1, t)
  if digits.isEmpty || !digits.all Char.isDigit then none else some (sign * ofDigits digits)

/-- An unsigned decimal: digits with at most one point among them, at least one digit, and
optionally `e` or `E` with an exponent. -/
def ofChars? (s : List Char) : Option Decimal := do
  let whole := s.takeWhile Char.isDigit
  let rest := s.dropWhile Char.isDigit
  let (fraction, rest) := match rest with
    | '.' :: t => (t.takeWhile Char.isDigit, t.dropWhile Char.isDigit)
    | t => ([], t)
  guard (!(whole ++ fraction).isEmpty)
  let shift ← match rest with
    | [] => some 0
    | c :: t => if c = 'e' || c = 'E' then exponent? t else none
  some ⟨ofDigits (whole ++ fraction), shift - fraction.length⟩

/-- A decimal with an optional sign; the flag tells whether the sign is a minus. -/
def signed? : List Char → Option (Bool × Decimal)
  | '-' :: s => (ofChars? s).map ((true, ·))
  | '+' :: s => (ofChars? s).map ((false, ·))
  | s => (ofChars? s).map ((false, ·))

end Decimal
end PocketSql
