import PocketSql.Number.Rounding

/-!
# The shortest decimal of a number

Among the decimals that read back to a finite number, the one with the fewest digits, and of these
the nearest to the number. Two decimals of that length can be equally near; a writer says which of
the two it takes.
-/

namespace PocketSql

/-- Which of two equally near decimals is written. -/
inductive Tie where
  | toEven
  | upward
  deriving DecidableEq, Repr

namespace Number

/-- The least `k` such that a positive ratio is below `10 ^ k`. -/
def decimalExponent (n d : Nat) : Int :=
  if d ≤ n then (Decimal.digitsOf (n / d)).length
  else 1 - ((Decimal.digitsOf ((d - 1) / n)).length : Int)

/-- Whether a decimal reads back to the magnitude of a number. -/
def readsBack (x : Number) (d : Decimal) : Bool := (ofDecimal false d).magnitude = x.magnitude

/-- The nearer of the two neighbours of a number among the multiples of `10 ^ e`, the lower one
being `low`; at equal distance the one that `tie` names. -/
def nearer (tie : Tie) (x : Number) (low : Nat) (e : Int) : Nat :=
  let twice := 2 * x.numerator * Nat.pow 10 (-e).toNat
  let middle := (2 * low + 1) * x.denominator * Nat.pow 10 e.toNat
  if twice < middle then low
  else if middle < twice then low + 1
  else match tie with
    | .toEven => low + low % 2
    | .upward => low + 1

/-- The multiple of `10 ^ e` that is written for a number, if one reads back. -/
def onGrid (tie : Tie) (x : Number) (e : Int) : Option Decimal :=
  let low := x.numerator * Nat.pow 10 (-e).toNat / (x.denominator * Nat.pow 10 e.toNat)
  match x.readsBack ⟨low, e⟩, x.readsBack ⟨low + 1, e⟩ with
  | true, true => some ⟨nearer tie x low e, e⟩
  | true, false => some ⟨low, e⟩
  | false, true => some ⟨low + 1, e⟩
  | false, false => none

/-- A finite number as a decimal, without rounding. -/
def exactDecimal (x : Number) : Decimal :=
  if 0 ≤ x.scale then ⟨x.numerator, 0⟩ else ⟨x.significand * Nat.pow 5 (-x.scale).toNat, x.scale⟩

/-- The shortest decimal that reads back to a finite number. -/
def shortest (tie : Tie) (x : Number) : Decimal :=
  if x.magnitude = 0 then ⟨0, 0⟩
  else
    let k := decimalExponent x.numerator x.denominator
    let d := ((List.range 17).findSome? fun n => onGrid tie x (k - (n + 1 : Nat))).getD
      x.exactDecimal
    Decimal.stripped d.digits d.exponent

/-- The text of a number: positional, with as many digits as identify it. -/
def text (x : Number) : String :=
  if x.isNaN then "NaN"
  else
    let unsigned := if x.isFinite then (x.shortest .upward).positional [] else ['i', 'n', 'f']
    String.ofList (if x.negative then '-' :: unsigned else unsigned)

end Number
end PocketSql
