import PocketSql.Number
import PocketSql.Number.Decimal

/-!
# Rounding to a number

The number nearest to a ratio of natural numbers, and so to a decimal or an integer. A ratio halfway
between two numbers goes to the one with the even significand; a ratio too large for every finite
number goes to infinity.
-/

namespace PocketSql

/-- A quotient rounded to the nearest natural number, halves to the even one. -/
def roundedQuotient (n d : Nat) : Nat :=
  if 2 * (n % d) < d then n / d
  else if d < 2 * (n % d) then n / d + 1
  else n / d + (n / d) % 2

namespace Number

/-- The greatest `e` with `2 ^ e` at most the ratio, for a ratio that is not zero. -/
def binaryExponent (n d : Nat) : Int :=
  let e := (n.log2 : Int) - d.log2
  if d * Nat.pow 2 e.toNat ≤ n * Nat.pow 2 (-e).toNat then e else e - 1

/-- The exponent of the last bit that a number near the ratio keeps. -/
def lastBit (n d : Nat) : Int := max (binaryExponent n d - 52) (-1074)

/-- The magnitude nearest to the ratio of two natural numbers. -/
def nearestMagnitude (n d : Nat) : Nat :=
  let e := lastBit n d
  let q := roundedQuotient (n * Nat.pow 2 (-e).toNat) (d * Nat.pow 2 e.toNat)
  if n = 0 then 0 else min infinityBits (q + (e + 1074).toNat * Nat.pow 2 52)

/-- The number nearest to a decimal. Decimals from `10 ^ 310` on are infinite, and decimals below
`10 ^ (-330)` are zero. -/
def ofDecimal (negative : Bool) (d : Decimal) : Number :=
  ofMagnitude negative <|
    if d.digits = 0 || d.leading < -330 then 0
    else if 310 ≤ d.leading then infinityBits
    else
      nearestMagnitude (d.digits * Nat.pow 10 d.exponent.toNat) (Nat.pow 10 (-d.exponent).toNat)

/-- The number nearest to an integer. -/
def ofInt (n : Int) : Number := ofMagnitude (decide (n < 0)) (nearestMagnitude n.natAbs 1)

/-- The number that a typed decimal denotes. -/
def ofChars? (s : List Char) : Option Number :=
  (Decimal.signed? s).map fun (negative, d) => ofDecimal negative d

end Number
end PocketSql
