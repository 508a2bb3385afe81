import Mathlib.Tactic.Ring
import PocketSql.Number.Rounding

/-!
# Rounding depends on the ratio, and keeps numbers

The number nearest to a ratio is the same for every way of writing the ratio, and a ratio that is a
number rounds to that number.

## Main results

* `nearestMagnitude_scale` — a common factor of numerator and denominator does not matter.
* `nearestMagnitude_exact` — a finite number is the number nearest to it.
-/

namespace PocketSql

/-! ## Quotients -/

theorem roundedQuotient_scale {c : Nat} (hc : 0 < c) (n d : Nat) :
    roundedQuotient (c * n) (c * d) = roundedQuotient n d := by
  have below : 2 * (c * (n % d)) < c * d ↔ 2 * (n % d) < d := by
    rw [Nat.mul_left_comm, Nat.mul_lt_mul_left hc]
  have above : c * d < 2 * (c * (n % d)) ↔ d < 2 * (n % d) := by
    rw [Nat.mul_left_comm, Nat.mul_lt_mul_left hc]
  simp only [roundedQuotient, Nat.mul_mod_mul_left, Nat.mul_div_mul_left _ _ hc, below, above]

theorem roundedQuotient_mul {d : Nat} (hd : 0 < d) (q : Nat) : roundedQuotient (q * d) d = q := by
  simp [roundedQuotient, Nat.mul_div_cancel _ hd, hd]

namespace Number

/-! ## Powers of two below a ratio -/

/-- A power of two is at most a ratio. -/
def AtMost (e : Int) (n d : Nat) : Prop := d * 2 ^ e.toNat ≤ n * 2 ^ (-e).toNat

/-- The exponent may be written as any difference. -/
theorem atMost_iff {e : Int} {a b : Nat} (h : e = a - b) (n d : Nat) :
    AtMost e n d ↔ d * 2 ^ a ≤ n * 2 ^ b := by
  obtain ⟨c, rfl, rfl⟩ : ∃ c, a = e.toNat + c ∧ b = (-e).toNat + c :=
    ⟨min a b, by omega, by omega⟩
  rw [Nat.pow_add, Nat.pow_add, ← Nat.mul_assoc, ← Nat.mul_assoc,
    Nat.mul_le_mul_right_iff (Nat.two_pow_pos c)]
  rfl

theorem AtMost.mono {e e' : Int} {n d : Nat} (h : AtMost e' n d) (le : e ≤ e') : AtMost e n d := by
  have he' : e' = (e'.toNat : Int) - ((-e').toNat : Nat) := by omega
  have he : e = (e'.toNat : Int) - ((-e').toNat + (e' - e).toNat : Nat) := by omega
  rw [atMost_iff he' n d] at h
  rw [atMost_iff he n d, Nat.pow_add, ← Nat.mul_assoc]
  exact Nat.le_trans h (Nat.le_mul_of_pos_right _ (Nat.two_pow_pos _))

theorem atMost_scale {c : Nat} (hc : 0 < c) (e : Int) (n d : Nat) :
    AtMost e (c * n) (c * d) ↔ AtMost e n d := by
  rw [AtMost, AtMost, Nat.mul_assoc, Nat.mul_assoc, Nat.mul_le_mul_left_iff hc]

theorem binaryExponent_spec {n d : Nat} (hn : n ≠ 0) (hd : d ≠ 0) :
    AtMost (binaryExponent n d) n d ∧ ¬ AtMost (binaryExponent n d + 1) n d := by
  have hn' : 2 ^ n.log2 ≤ n := Nat.log2_self_le hn
  have hn'' : n < 2 ^ (n.log2 + 1) := Nat.lt_log2_self
  have hd' : 2 ^ d.log2 ≤ d := Nat.log2_self_le hd
  have hd'' : d < 2 ^ (d.log2 + 1) := Nat.lt_log2_self
  have below : AtMost ((n.log2 : Int) - d.log2 - 1) n d := by
    rw [atMost_iff (show (n.log2 : Int) - d.log2 - 1 = n.log2 - (d.log2 + 1 : Nat) by omega),
      Nat.mul_comm n]
    exact Nat.mul_le_mul hd''.le hn'
  have above : ¬ AtMost ((n.log2 : Int) - d.log2 + 1) n d := by
    rw [atMost_iff (show (n.log2 : Int) - d.log2 + 1 = (n.log2 + 1 : Nat) - d.log2 by omega),
      Nat.not_le, Nat.mul_comm n]
    exact Nat.mul_lt_mul_of_le_of_lt hd' hn'' (Nat.pos_of_ne_zero hd)
  unfold binaryExponent
  dsimp only
  split
  · next h => exact ⟨h, above⟩
  · next h => exact ⟨below, by rwa [Int.sub_add_cancel]⟩

theorem binaryExponent_unique {n d : Nat} (hn : n ≠ 0) (hd : d ≠ 0) {e : Int} (h : AtMost e n d)
    (h' : ¬ AtMost (e + 1) n d) : binaryExponent n d = e := by
  obtain ⟨hs, hs'⟩ := binaryExponent_spec hn hd
  have le : binaryExponent n d ≤ e := by
    by_contra hlt
    exact h' (hs.mono (by omega))
  have ge : e ≤ binaryExponent n d := by
    by_contra hlt
    exact hs' (h.mono (by omega))
  omega

theorem binaryExponent_scale {c n d : Nat} (hc : 0 < c) (hn : n ≠ 0) (hd : d ≠ 0) :
    binaryExponent (c * n) (c * d) = binaryExponent n d := by
  obtain ⟨h, h'⟩ := binaryExponent_spec hn hd
  have hcn : c * n ≠ 0 := Nat.mul_ne_zero (by omega) hn
  have hcd : c * d ≠ 0 := Nat.mul_ne_zero (by omega) hd
  apply binaryExponent_unique hcn hcd
  · rwa [atMost_scale hc]
  · rwa [atMost_scale hc]

/-! ## The nearest number -/

theorem nearestMagnitude_scale {c : Nat} (hc : 0 < c) (n : Nat) {d : Nat} (hd : d ≠ 0) :
    nearestMagnitude (c * n) (c * d) = nearestMagnitude n d := by
  by_cases hn : n = 0
  · simp [nearestMagnitude, hn]
  · have hcn : c * n ≠ 0 := Nat.mul_ne_zero (by omega) hn
    simp only [nearestMagnitude, lastBit, binaryExponent_scale hc hn hd, Nat.mul_assoc,
      roundedQuotient_scale hc, hcn, hn, if_false]

/-- Equal ratios have the same nearest number. -/
theorem nearestMagnitude_congr {n d n' d' : Nat} (hd : d ≠ 0) (hd' : d' ≠ 0)
    (h : n * d' = n' * d) : nearestMagnitude n d = nearestMagnitude n' d' := by
  rw [← nearestMagnitude_scale (Nat.pos_of_ne_zero hd') n hd,
    ← nearestMagnitude_scale (Nat.pos_of_ne_zero hd) n' hd', Nat.mul_comm d', h, Nat.mul_comm d n',
    Nat.mul_comm d d']

theorem denominator_ne_zero (x : Number) : x.denominator ≠ 0 :=
  Nat.ne_of_gt (Nat.two_pow_pos _)

/-- The number `m * 2 ^ e` is read off a significand that fits and its last bit. -/
theorem nearestMagnitude_dyadic {m : Nat} {e : Int} (hm : m ≠ 0)
    (last : lastBit (m * 2 ^ e.toNat) (2 ^ (-e).toNat) = e) :
    nearestMagnitude (m * 2 ^ e.toNat) (2 ^ (-e).toNat) =
      min infinityBits (m + (e + 1074).toNat * 2 ^ 52) := by
  have hn : m * 2 ^ e.toNat ≠ 0 := Nat.mul_ne_zero hm (Nat.ne_of_gt (Nat.two_pow_pos _))
  have exact : roundedQuotient (m * 2 ^ e.toNat * 2 ^ (-e).toNat) (2 ^ (-e).toNat * 2 ^ e.toNat) =
      m := by
    rw [Nat.mul_assoc, Nat.mul_comm (2 ^ e.toNat)]
    exact roundedQuotient_mul (Nat.mul_pos (Nat.two_pow_pos _) (Nat.two_pow_pos _)) m
  simp only [nearestMagnitude, Nat.pow_eq, last, exact, hn, if_false]

theorem binaryExponent_dyadic {m k : Nat} {e : Int} (low : 2 ^ k ≤ m) (high : m < 2 ^ (k + 1)) :
    binaryExponent (m * 2 ^ e.toNat) (2 ^ (-e).toNat) = e + k := by
  have hpos : 0 < 2 ^ e.toNat * 2 ^ (-e).toNat :=
    Nat.mul_pos (Nat.two_pow_pos _) (Nat.two_pow_pos _)
  have hm : m ≠ 0 := Nat.ne_of_gt (Nat.lt_of_lt_of_le (Nat.two_pow_pos k) low)
  -- the powers of two of the significand are those of the number, moved by `e`
  have moved (j : Nat) : AtMost (e + j) (m * 2 ^ e.toNat) (2 ^ (-e).toNat) ↔ 2 ^ j ≤ m := by
    rw [atMost_iff (show e + j = (e.toNat + j : Nat) - (-e).toNat by omega), Nat.pow_add,
      show 2 ^ (-e).toNat * (2 ^ e.toNat * 2 ^ j) = 2 ^ j * (2 ^ e.toNat * 2 ^ (-e).toNat) by ring,
      Nat.mul_assoc m, Nat.mul_le_mul_right_iff hpos]
  apply binaryExponent_unique
  · exact Nat.mul_ne_zero hm (Nat.ne_of_gt (Nat.two_pow_pos _))
  · exact Nat.ne_of_gt (Nat.two_pow_pos _)
  · exact (moved k).2 low
  · rw [Int.add_assoc]
    intro above
    have := (moved (k + 1)).1 above
    omega

/-- A finite number is the number nearest to it. -/
theorem nearestMagnitude_self {x : Number} (h : x.isFinite = true) :
    nearestMagnitude x.numerator x.denominator = x.magnitude := by
  have small : x.magnitude < 0x7FF0000000000000 := of_decide_eq_true h
  simp only [numerator, denominator, Nat.pow_eq]
  by_cases subnormal : x.magnitude < 2 ^ 52
  · have hs : x.significand = x.magnitude := if_pos subnormal
    have he : x.scale = -1074 := if_pos subnormal
    rw [hs, he]
    by_cases zero : x.magnitude = 0
    · simp [zero, nearestMagnitude]
    · have hlog : x.magnitude.log2 < 52 := (Nat.log2_lt zero).2 subnormal
      have last : lastBit (x.magnitude * 2 ^ (-1074 : Int).toNat) (2 ^ (-(-1074) : Int).toNat) =
          -1074 := by
        rw [lastBit, binaryExponent_dyadic (Nat.log2_self_le zero) Nat.lt_log2_self]
        omega
      rw [nearestMagnitude_dyadic zero last]
      simp only [infinityBits]
      omega
  · have hs : x.significand = 2 ^ 52 + x.magnitude % 2 ^ 52 := if_neg subnormal
    have he : x.scale = (x.magnitude / 2 ^ 52 : Nat) - 1075 := if_neg subnormal
    have low : 2 ^ 52 ≤ x.significand := by omega
    have high : x.significand < 2 ^ 53 := by omega
    have last : lastBit (x.significand * 2 ^ x.scale.toNat) (2 ^ (-x.scale).toNat) = x.scale := by
      rw [lastBit, binaryExponent_dyadic low high]
      omega
    rw [nearestMagnitude_dyadic (by omega) last]
    simp only [infinityBits]
    omega

/-- A ratio that is the absolute value of a finite number has it as its nearest number. -/
theorem nearestMagnitude_exact {x : Number} (h : x.isFinite = true) {n d : Nat} (hd : d ≠ 0)
    (same : n * x.denominator = x.numerator * d) : nearestMagnitude n d = x.magnitude := by
  rw [nearestMagnitude_congr hd x.denominator_ne_zero same, nearestMagnitude_self h]

end Number
end PocketSql
