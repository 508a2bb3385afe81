/-!
# Numbers

A number is a 64-bit binary floating-point number, known by its bits: a sign, eleven bits of
exponent and 52 bits of fraction. Two numbers are the same if their bits are, except that the two
zeros are one number. A NaN is the same as itself and has no place in the order.
-/

namespace PocketSql

/-- A 64-bit floating-point number. -/
structure Number where
  bits : UInt64
  deriving DecidableEq, Repr, Inhabited

namespace Number

/-- The bits of positive infinity, and of every larger magnitude that is not a number. -/
def infinityBits : Nat := 0x7FF0000000000000

/-- The bits without the sign. -/
def magnitude (x : Number) : Nat := x.bits.toNat % Nat.pow 2 63

/-- Whether the sign bit is set. -/
def negative (x : Number) : Bool := Nat.pow 2 63 ≤ x.bits.toNat

def isNaN (x : Number) : Bool := infinityBits < x.magnitude
def isFinite (x : Number) : Bool := x.magnitude < infinityBits

/-- The number with a sign and a magnitude below `2 ^ 63`. -/
def ofMagnitude (negative : Bool) (magnitude : Nat) : Number :=
  ⟨UInt64.ofNat (if negative then Nat.pow 2 63 + magnitude else magnitude)⟩

def zero : Number := ⟨0⟩

/-- The number with the other sign. -/
def neg (x : Number) : Number := ofMagnitude (!x.negative) x.magnitude

/-- One of the two zeros stands for both. -/
def folded (x : Number) : Number := if x.magnitude = 0 then zero else x

/-- Equality of bits, with the two zeros equal. -/
def same (x y : Number) : Bool := x.folded = y.folded

/-- The place of a number in the order; both zeros have place 0. -/
def place (x : Number) : Int := if x.negative then -x.magnitude else x.magnitude

/-- The order of two numbers; a NaN is not comparable. -/
def compare? (x y : Number) : Option Ordering :=
  if x.isNaN || y.isNaN then none else some (compare x.place y.place)

/-- The integer `m` of a finite number `m * 2 ^ q`. -/
def significand (x : Number) : Nat :=
  if x.magnitude < Nat.pow 2 52 then x.magnitude
  else Nat.pow 2 52 + x.magnitude % Nat.pow 2 52

/-- The exponent `q` of a finite number `m * 2 ^ q`. -/
def scale (x : Number) : Int :=
  if x.magnitude < Nat.pow 2 52 then -1074 else (x.magnitude / Nat.pow 2 52 : Nat) - 1075

/-- Numerator of the absolute value of a finite number. -/
def numerator (x : Number) : Nat := x.significand * Nat.pow 2 x.scale.toNat

/-- Denominator of the absolute value of a finite number. -/
def denominator (x : Number) : Nat := Nat.pow 2 (-x.scale).toNat

/-- The integer that a number is, if it is one below `10 ^ 15` in absolute value. -/
def whole? (x : Number) : Option Int :=
  if x.isFinite && x.numerator % x.denominator = 0 &&
      x.numerator / x.denominator < Nat.pow 10 15 then
    some (if x.negative then -(x.numerator / x.denominator : Nat)
      else (x.numerator / x.denominator : Nat))
  else none

@[simp] theorem same_self (x : Number) : x.same x = true := by simp [same]

theorem same_comm (x y : Number) : x.same y = y.same x := by
  simp only [same, eq_comm]

theorem same_trans {x y z : Number} (hxy : x.same y = true) (hyz : y.same z = true) :
    x.same z = true := by
  simp_all [same]

end Number
end PocketSql
