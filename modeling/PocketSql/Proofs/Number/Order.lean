import PocketSql.Proofs.Number.ReadBack

/-!
# Equality and order of numbers

Numbers are compared by their bits for equality, with the two zeros equal, and by their places for
order. Both agree, as the place tells a number up to its zeros. Only a NaN has no place; but what is
typed as a number is never one, since what is too large for a number goes to infinity.

## Main results

* `Number.isNaN_of_ofChars?` — what is typed is no NaN.
* `Number.same_iff_place_eq` — equal numbers are those at one place.
-/

namespace PocketSql
namespace Number

/-! ## What is typed -/

theorem nearestMagnitude_le (n d : Nat) : nearestMagnitude n d ≤ infinityBits := by
  rw [nearestMagnitude]
  split
  · exact Nat.zero_le _
  · exact Nat.min_le_left _ _

theorem isNaN_ofMagnitude (negative : Bool) {m : Nat} (h : m ≤ infinityBits) :
    (ofMagnitude negative m).isNaN = false := by
  have small : m < 2 ^ 63 := Nat.lt_of_le_of_lt h (by decide)
  rw [isNaN, magnitude_ofMagnitude negative small]
  simpa using h

theorem isNaN_ofDecimal (negative : Bool) (d : Decimal) :
    (ofDecimal negative d).isNaN = false := by
  apply isNaN_ofMagnitude
  split
  · exact Nat.zero_le _
  · split
    · exact Nat.le_refl _
    · exact nearestMagnitude_le _ _

/-- What is typed is no NaN. -/
theorem isNaN_of_ofChars? {s : List Char} {x : Number} (h : ofChars? s = some x) :
    x.isNaN = false := by
  obtain ⟨⟨negative, d⟩, -, rfl⟩ := Option.map_eq_some_iff.1 h
  exact isNaN_ofDecimal negative d

theorem magnitude_lt (x : Number) : x.magnitude < 2 ^ 63 := Nat.mod_lt _ (by decide)

/-- A sign makes no NaN. -/
theorem isNaN_neg (x : Number) : x.neg.isNaN = x.isNaN := by
  rw [isNaN, neg, magnitude_ofMagnitude _ x.magnitude_lt, isNaN]

/-! ## Places -/

theorem natAbs_place (x : Number) : x.place.natAbs = x.magnitude := by
  rw [place]
  split <;> simp

theorem place_folded (x : Number) : x.folded.place = x.place := by
  rw [folded]
  split
  · next none =>
    have origin : x.place = 0 := by rw [← Int.natAbs_eq_zero, natAbs_place, none]
    rw [origin]
    decide
  · rfl

/-- Numbers at one place are one number, unless they are zeros. -/
theorem eq_of_place_eq {x y : Number} (same : x.place = y.place) (h : x.magnitude ≠ 0) : x = y := by
  have magnitudes : x.magnitude = y.magnitude := by rw [← natAbs_place, same, natAbs_place]
  have signs : x.negative = y.negative := by
    simp only [place, magnitudes] at same
    rw [magnitudes] at h
    cases hx : x.negative <;> cases hy : y.negative <;> simp [hx, hy] at same ⊢ <;> omega
  rw [← ofMagnitude_magnitude x, ← ofMagnitude_magnitude y, magnitudes, signs]

/-- Equal numbers are those at one place. -/
theorem same_iff_place_eq {x y : Number} : x.same y = true ↔ x.place = y.place := by
  rw [same, decide_eq_true_eq]
  constructor
  · intro same
    rw [← place_folded x, ← place_folded y, same]
  · intro same
    by_cases hx : x.magnitude = 0
    · have hy : y.magnitude = 0 := by rw [← natAbs_place, ← same, natAbs_place, hx]
      rw [folded, folded, if_pos hx, if_pos hy]
    · rw [eq_of_place_eq same hx]

theorem compare?_of_not_nan {x y : Number} (hx : x.isNaN = false) (hy : y.isNaN = false) :
    x.compare? y = some (compare x.place y.place) := by
  rw [compare?, hx, hy]
  rfl

end Number
end PocketSql
