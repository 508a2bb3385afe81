import PocketSql.Number.Shortest
import PocketSql.Proofs.Number.Nearest
import PocketSql.Value

/-!
# Numbers are read back

A finite number that is written and then read is the same number. Short decimals are chosen so that
they read back; what is shown here is that the way they are written does not change their value, and
that the exact decimals which are written otherwise read back too.

## Main results

* `ofChars?_display` — reading undoes writing.
* `display_spec` — which characters a written number consists of.
-/

namespace PocketSql

/-! ## The front of a text -/

theorem takeWhile_front {p : Char → Bool} {s t : List Char} (hs : ∀ a ∈ s, p a = true)
    (ht : ∀ a, t.head? = some a → p a = false) : (s ++ t).takeWhile p = s := by
  rw [List.takeWhile_append_of_pos hs]
  cases t with
  | nil => simp
  | cons a t => simp [ht a rfl]

theorem dropWhile_front {p : Char → Bool} {s t : List Char} (hs : ∀ a ∈ s, p a = true)
    (ht : ∀ a, t.head? = some a → p a = false) : (s ++ t).dropWhile p = t := by
  rw [List.dropWhile_append_of_pos hs]
  cases t with
  | nil => simp
  | cons a t => simp [ht a rfl]

namespace Decimal

/-! ## Digits -/

theorem ofDigits_eq (s : List Char) : ofDigits s = Nat.ofDigitChars 10 s 0 :=
  Nat.ofDigitChars_eq_foldl.symm

@[simp] theorem ofDigits_digitsOf (n : Nat) : ofDigits (digitsOf n) = n := by
  rw [ofDigits_eq, digitsOf, Nat.ofDigitChars_ten_toDigits]

/-- Zeros in front of digits do not count. -/
theorem ofDigits_zeros_append (k : Nat) (s : List Char) :
    ofDigits (List.replicate k '0' ++ s) = ofDigits s := by
  rw [ofDigits_eq, ofDigits_eq, Nat.ofDigitChars_append, Nat.ofDigitChars_replicate_zero,
    Nat.mul_zero]

theorem ofDigits_append_zeros (s : List Char) (k : Nat) :
    ofDigits (s ++ List.replicate k '0') = ofDigits s * 10 ^ k := by
  rw [ofDigits_eq, ofDigits_eq, Nat.ofDigitChars_append, Nat.ofDigitChars_replicate_zero,
    Nat.mul_comm]

theorem isDigit_of_mem_digitsOf {n : Nat} {c : Char} (h : c ∈ digitsOf n) : c.isDigit = true :=
  Nat.isDigit_of_mem_toDigits (by decide) (by decide) h

theorem digitsOf_ne_nil (n : Nat) : digitsOf n ≠ [] := Nat.toDigits_ne_nil

theorem length_digitsOf_mul_ten {n : Nat} (hn : 0 < n) :
    (digitsOf (10 * n)).length = (digitsOf n).length + 1 := by
  have h := Nat.toDigits_append_toDigits (b := 10) (n := n) (d := 0) (by decide) hn (by decide)
  rw [Nat.add_zero] at h
  rw [digitsOf, ← h, List.length_append]
  rfl

theorem length_digitsOf_le_iff {n k : Nat} (hk : 0 < k) : (digitsOf n).length ≤ k ↔ n < 10 ^ k :=
  Nat.length_toDigits_le_iff (by decide) hk

/-- One digit or more. -/
def Digits (s : List Char) : Prop := s ≠ [] ∧ ∀ c ∈ s, c.isDigit = true

theorem digits_digitsOf (n : Nat) : Digits (digitsOf n) :=
  ⟨digitsOf_ne_nil n, fun _ => isDigit_of_mem_digitsOf⟩

theorem isDigit_of_mem_zeros {k : Nat} {c : Char} (h : c ∈ List.replicate k '0') :
    c.isDigit = true := by
  rw [List.eq_of_mem_replicate h]
  rfl

/-- Positional notation is a whole number and its end, or digits on both sides of a point. -/
theorem positional_cases (wholeEnd : List Char) (d : Decimal) :
    (∃ s, d.positional wholeEnd = s ++ wholeEnd ∧ Digits s ∧ 0 ≤ d.exponent ∧
        ofDigits s = d.digits * 10 ^ d.exponent.toNat) ∨
      ∃ s t, d.positional wholeEnd = s ++ '.' :: t ∧ Digits s ∧ (∀ c ∈ t, c.isDigit = true) ∧
        d = ⟨ofDigits (s ++ t), -t.length⟩ := by
  obtain ⟨n, e⟩ := d
  have digits {c : Char} (h : c ∈ digitsOf n) : c.isDigit = true := isDigit_of_mem_digitsOf h
  simp only [positional]
  split
  · next he =>
    refine .inl ⟨_, rfl, ⟨by simp [digitsOf_ne_nil], ?_⟩, he, ?_⟩
    · intro c hc
      exact (List.mem_append.1 hc).elim digits isDigit_of_mem_zeros
    · rw [ofDigits_append_zeros, ofDigits_digitsOf]
  · split
    · next he hlt =>
      -- the point stands between two digits
      have front : (digitsOf n).take ((digitsOf n).length - (-e).toNat) ≠ [] := by
        rw [← List.length_pos_iff, List.length_take]
        omega
      refine .inr ⟨_, _, rfl, ⟨front, fun c hc => digits (List.mem_of_mem_take hc)⟩,
        fun c hc => digits (List.mem_of_mem_drop hc), ?_⟩
      rw [List.take_append_drop, ofDigits_digitsOf, List.length_drop]
      congr 1
      omega
    · next he hge =>
      -- zeros stand between the point and the first digit
      refine .inr ⟨['0'], _, rfl, ⟨by simp, by simp⟩, ?_, ?_⟩
      · intro c hc
        exact (List.mem_append.1 hc).elim isDigit_of_mem_zeros digits
      · rw [← List.append_assoc, ← List.replicate_one, List.replicate_append_replicate,
          ofDigits_zeros_append, ofDigits_digitsOf, List.length_append, List.length_replicate]
        congr 1
        omega

/-! ## Reading -/

theorem ofChars?_whole {s : List Char} (hs : Digits s) : ofChars? s = some ⟨ofDigits s, 0⟩ := by
  obtain ⟨hs, digits⟩ := hs
  have ht := takeWhile_front (t := []) digits (by simp)
  have hd := dropWhile_front (t := []) digits (by simp)
  rw [List.append_nil] at ht hd
  simp [ofChars?, ht, hd, hs]

theorem ofChars?_fraction {s t : List Char} (hs : Digits s)
    (fraction : ∀ c ∈ t, c.isDigit = true) :
    ofChars? (s ++ '.' :: t) = some ⟨ofDigits (s ++ t), -t.length⟩ := by
  obtain ⟨hs, digits⟩ := hs
  have point : ∀ c, ('.' :: t).head? = some c → c.isDigit = false := by
    rintro c ⟨⟩
    rfl
  have ht := takeWhile_front digits point
  have hd := dropWhile_front digits point
  have ht' := takeWhile_front (t := []) fraction (by simp)
  have hd' := dropWhile_front (t := []) fraction (by simp)
  rw [List.append_nil] at ht' hd'
  simp [ofChars?, ht, hd, ht', hd', hs]

end Decimal

namespace Number

/-! ## Decimals of one value -/

/-- The decimals `10 * n * 10 ^ e` and `n * 10 ^ (e + 1)` are one number. -/
theorem ofDecimal_mul_ten (negative : Bool) (n : Nat) (e : Int) :
    ofDecimal negative ⟨10 * n, e⟩ = ofDecimal negative ⟨n, e + 1⟩ := by
  by_cases hn : n = 0
  · simp [ofDecimal, hn]
  have leads : Decimal.leading ⟨10 * n, e⟩ = Decimal.leading ⟨n, e + 1⟩ := by
    simp only [Decimal.leading, Decimal.length_digitsOf_mul_ten (Nat.pos_of_ne_zero hn)]
    omega
  have ratio : nearestMagnitude (10 * n * 10 ^ e.toNat) (10 ^ (-e).toNat) =
      nearestMagnitude (n * 10 ^ (e + 1).toNat) (10 ^ (-(e + 1)).toNat) := by
    apply nearestMagnitude_congr (Nat.ne_of_gt (Nat.pow_pos (by decide)))
      (Nat.ne_of_gt (Nat.pow_pos (by decide)))
    by_cases he : 0 ≤ e
    · rw [show (e + 1).toNat = e.toNat + 1 by omega, show (-e).toNat = 0 by omega,
        show (-(e + 1)).toNat = 0 by omega]
      ring
    · rw [show (-e).toNat = (-(e + 1)).toNat + 1 by omega, show (e + 1).toNat = 0 by omega,
        show e.toNat = 0 by omega]
      ring
  simp [ofDecimal, leads, ratio]

theorem ofDecimal_mul_pow_ten (negative : Bool) (n k : Nat) (e : Int) :
    ofDecimal negative ⟨n * 10 ^ k, e⟩ = ofDecimal negative ⟨n, e + k⟩ := by
  induction k generalizing e with
  | zero => simp
  | succ k ih =>
    rw [show n * 10 ^ (k + 1) = 10 * (n * 10 ^ k) by ring, ofDecimal_mul_ten, ih]
    congr 2
    omega

theorem ofDecimal_stripped (negative : Bool) (n : Nat) (e : Int) :
    ofDecimal negative (Decimal.stripped n e) = ofDecimal negative ⟨n, e⟩ := by
  induction n, e using Decimal.stripped.induct with
  | case1 n e h ih =>
    have tens : 10 * (n / 10) = n := by omega
    rw [Decimal.stripped, dif_pos h, ih, ← ofDecimal_mul_ten, tens]
  | case2 n e h => rw [Decimal.stripped, dif_neg h]

/-- What positional notation is read as has the value of what was written. -/
theorem ofChars?_positional (d : Decimal) :
    ∃ d', Decimal.ofChars? (d.positional []) = some d' ∧
      ∀ negative, ofDecimal negative d' = ofDecimal negative d := by
  obtain ⟨s, written, digits, he, value⟩ | ⟨s, t, written, digits, fraction, rfl⟩ :=
    d.positional_cases []
  · rw [written, List.append_nil]
    refine ⟨_, Decimal.ofChars?_whole digits, fun negative => ?_⟩
    rw [value, ofDecimal_mul_pow_ten, Int.zero_add, Int.toNat_of_nonneg he]
  · rw [written]
    exact ⟨_, Decimal.ofChars?_fraction digits fraction, fun _ => rfl⟩

/-! ## Signs and magnitudes -/

theorem magnitude_ofMagnitude (negative : Bool) {m : Nat} (hm : m < 2 ^ 63) :
    (ofMagnitude negative m).magnitude = m := by
  cases negative <;> simp only [ofMagnitude, magnitude, UInt64.toNat_ofNat'] <;> simp <;> omega

theorem ofMagnitude_magnitude (x : Number) : ofMagnitude x.negative x.magnitude = x := by
  have hx : x.bits.toNat < 2 ^ 64 := x.bits.toNat_lt
  have bits : (if x.negative then 2 ^ 63 + x.magnitude else x.magnitude) = x.bits.toNat := by
    simp only [negative, magnitude, Nat.pow_eq, decide_eq_true_eq]
    split <;> omega
  rw [ofMagnitude, Nat.pow_eq, bits, UInt64.ofNat_toNat]

/-- A decimal that reads back to a number is that number, with its sign. -/
theorem ofDecimal_of_readsBack {x : Number} {d : Decimal} (h : x.readsBack d = true) :
    ofDecimal x.negative d = x := by
  obtain ⟨m, hm, hd⟩ :
      ∃ m, m < 2 ^ 63 ∧ ∀ negative, ofDecimal negative d = ofMagnitude negative m := by
    refine ⟨_, ?_, fun _ => rfl⟩
    simp only [nearestMagnitude, infinityBits]
    split
    · decide
    · split
      · decide
      · split <;> omega
  have same : m = x.magnitude := by
    rw [readsBack, decide_eq_true_eq, hd, magnitude_ofMagnitude _ hm] at h
    exact h
  rw [hd, same, ofMagnitude_magnitude]

/-! ## Exact decimals -/

/-- A decimal that is the absolute value of a number reads back to it, if its first digit is in the
range in which decimals are rounded. -/
theorem readsBack_of_exact {x : Number} (hx : x.isFinite = true) {d : Decimal} (hd : d.digits ≠ 0)
    (low : -330 ≤ d.leading) (high : d.leading < 310)
    (exact : d.digits * 10 ^ d.exponent.toNat * x.denominator =
      x.numerator * 10 ^ (-d.exponent).toNat) : x.readsBack d = true := by
  have ratio := nearestMagnitude_exact hx (Nat.ne_of_gt (Nat.pow_pos (by decide))) exact
  have small : x.magnitude < 2 ^ 63 := Nat.mod_lt _ (by decide)
  have below : ¬ d.leading < -330 := by omega
  have above : ¬ 310 ≤ d.leading := by omega
  simp [readsBack, ofDecimal, hd, below, above, ratio, magnitude_ofMagnitude _ small]

theorem significand_lt (x : Number) : x.significand < 2 ^ 53 := by
  simp only [significand, Nat.pow_eq]
  split <;> omega

theorem significand_ne_zero {x : Number} (h : x.magnitude ≠ 0) : x.significand ≠ 0 := by
  simp only [significand, Nat.pow_eq]
  split <;> omega

theorem scale_bounds {x : Number} (hx : x.isFinite = true) : -1074 ≤ x.scale ∧ x.scale ≤ 971 := by
  have small : x.magnitude < 0x7FF0000000000000 := of_decide_eq_true hx
  simp only [scale, Nat.pow_eq]
  split <;> omega

/-- Eleven fives are more than twenty-five twos. -/
theorem two_pow_le_five_pow {i j m : Nat} (hj : j ≤ 25 * m) (hi : 11 * m ≤ i) : 2 ^ j ≤ 5 ^ i :=
  calc 2 ^ j
      ≤ 2 ^ (25 * m) := Nat.pow_le_pow_right (by decide) hj
    _ = (2 ^ 25) ^ m := Nat.pow_mul 2 25 m
    _ ≤ (5 ^ 11) ^ m := Nat.pow_le_pow_left (by decide) m
    _ = 5 ^ (11 * m) := (Nat.pow_mul 5 11 m).symm
    _ ≤ 5 ^ i := Nat.pow_le_pow_right (by decide) hi

/-- A number is below `10 ^ 309` and, if it is not zero, at least `10 ^ (-330)`. -/
theorem leading_exactDecimal {x : Number} (hx : x.isFinite = true) (h : x.magnitude ≠ 0) :
    -330 ≤ x.exactDecimal.leading ∧ x.exactDecimal.leading < 310 := by
  obtain ⟨low, high⟩ := scale_bounds hx
  have hm := x.significand_lt
  have hm' := significand_ne_zero h
  simp only [exactDecimal, Decimal.leading, Nat.pow_eq]
  split
  · next hs =>
    have len : (Decimal.digitsOf x.numerator).length ≤ 309 := by
      rw [Decimal.length_digitsOf_le_iff (by decide), numerator]
      calc x.significand * 2 ^ x.scale.toNat
          ≤ 2 ^ 53 * 2 ^ 971 :=
            Nat.mul_le_mul hm.le (Nat.pow_le_pow_right (by decide) (by omega))
        _ < 10 ^ 309 := by decide +kernel
    dsimp only
    omega
  · next hs =>
    obtain ⟨k, hk, hk'⟩ : ∃ k : Nat, x.scale = -k ∧ k ≤ 1074 :=
      ⟨(-x.scale).toNat, by omega, by omega⟩
    rw [hk, Int.neg_neg, Int.toNat_natCast]
    have above : (Decimal.digitsOf (x.significand * 5 ^ k)).length ≤ k + 16 := by
      rw [Decimal.length_digitsOf_le_iff (by omega)]
      calc x.significand * 5 ^ k
          < 10 ^ 16 * 5 ^ k := Nat.mul_lt_mul_of_pos_right (by omega) (Nat.pow_pos (by decide))
        _ ≤ 10 ^ 16 * 10 ^ k := Nat.mul_le_mul_left _ (Nat.pow_le_pow_left (by decide) k)
        _ = 10 ^ (k + 16) := by rw [← Nat.pow_add, Nat.add_comm]
    have below : k < (Decimal.digitsOf (x.significand * 5 ^ k)).length + 330 := by
      by_contra hlt
      have some := List.length_pos_iff.2 (Decimal.digitsOf_ne_nil (x.significand * 5 ^ k))
      obtain ⟨i, j, hij, hi, hj⟩ : ∃ i j, k = i + j ∧ i = 330 ∧ 0 < j :=
        ⟨330, k - 330, by omega, rfl, by omega⟩
      have len : (Decimal.digitsOf (x.significand * 5 ^ k)).length ≤ j := by omega
      rw [Decimal.length_digitsOf_le_iff hj] at len
      have pow : 10 ^ j ≤ x.significand * 5 ^ k :=
        calc 10 ^ j
            = 2 ^ j * 5 ^ j := by rw [← Nat.mul_pow]
          _ ≤ 5 ^ i * 5 ^ j :=
            Nat.mul_le_mul_right _ (two_pow_le_five_pow (m := 30) (by omega) (by omega))
          _ = 5 ^ k := by rw [← Nat.pow_add, hij]
          _ ≤ x.significand * 5 ^ k := Nat.le_mul_of_pos_left _ (Nat.pos_of_ne_zero hm')
      omega
    dsimp only
    omega

theorem readsBack_exactDecimal {x : Number} (hx : x.isFinite = true) (h : x.magnitude ≠ 0) :
    x.readsBack x.exactDecimal = true := by
  obtain ⟨low, high⟩ := leading_exactDecimal hx h
  have hm := significand_ne_zero h
  apply readsBack_of_exact hx _ low high
  · simp only [exactDecimal, numerator, denominator, Nat.pow_eq]
    split
    · next hs =>
      rw [show (-x.scale).toNat = 0 by omega]
      simp
    · next hs =>
      rw [show x.scale.toNat = 0 by omega,
        show 10 ^ (-x.scale).toNat = 5 ^ (-x.scale).toNat * 2 ^ (-x.scale).toNat by
          rw [← Nat.mul_pow]]
      ring
  · simp only [exactDecimal, numerator]
    split
    · exact Nat.mul_ne_zero hm (Nat.ne_of_gt (Nat.two_pow_pos _))
    · exact Nat.mul_ne_zero hm (Nat.ne_of_gt (Nat.pow_pos (by decide)))

/-! ## Writing -/

theorem nearer_eq (tie : Tie) (x : Number) (low : Nat) (e : Int) :
    nearer tie x low e = low ∨ nearer tie x low e = low + 1 := by
  simp only [nearer]
  split
  · exact .inl rfl
  · split
    · exact .inr rfl
    · cases tie
      · simp only
        omega
      · exact .inr rfl

/-- What is taken from a grid reads back. -/
theorem readsBack_of_onGrid {tie : Tie} {x : Number} {e : Int} {d : Decimal}
    (h : onGrid tie x e = some d) : x.readsBack d = true := by
  simp only [onGrid] at h
  split at h
  · next hlow hhigh =>
    cases h
    obtain hn | hn := nearer_eq tie x _ e <;> rw [hn]
    · exact hlow
    · exact hhigh
  · next hlow _ =>
    cases h
    exact hlow
  · next _ hhigh =>
    cases h
    exact hhigh
  · cases h

theorem ofDecimal_shortest (tie : Tie) {x : Number} (hx : x.isFinite = true)
    (h : x.magnitude ≠ 0) : ofDecimal x.negative (x.shortest tie) = x := by
  simp only [shortest, h, if_false]
  rw [ofDecimal_stripped]
  apply ofDecimal_of_readsBack
  cases hd : (List.range 17).findSome? fun n =>
      onGrid tie x (decimalExponent x.numerator x.denominator - (n + 1 : Nat)) with
  | none => exact readsBack_exactDecimal hx h
  | some d =>
    obtain ⟨n, -, hn⟩ := List.exists_of_findSome?_eq_some hd
    exact readsBack_of_onGrid hn

/-- A digit, and then digits and points. -/
def Numeral (s : List Char) : Prop :=
  ∃ c t, s = c :: t ∧ c.isDigit = true ∧ ∀ a ∈ t, a.isDigit = true ∨ a = '.'

theorem numeral_of_digits {s : List Char} (hs : Decimal.Digits s) {t : List Char}
    (ht : ∀ a ∈ t, a.isDigit = true ∨ a = '.') : Numeral (s ++ t) := by
  obtain ⟨some, digits⟩ := hs
  obtain ⟨c, s, rfl⟩ := List.exists_cons_of_ne_nil some
  refine ⟨c, s ++ t, rfl, digits c (by simp), fun a ha => ?_⟩
  obtain ha | ha := List.mem_append.1 ha
  · exact .inl (digits a (by simp [ha]))
  · exact ht a ha

theorem numeral_positional (d : Decimal) : Numeral (d.positional []) := by
  obtain ⟨s, written, digits, -, -⟩ | ⟨s, t, written, digits, fraction, -⟩ := d.positional_cases []
  · rw [written]
    exact numeral_of_digits digits (by simp)
  · rw [written]
    apply numeral_of_digits digits
    intro a ha
    obtain rfl | ha := List.mem_cons.1 ha
    · exact .inr rfl
    · exact .inl (fraction a ha)

/-- A decimal with a sign in front is read as the decimal of that sign. -/
theorem ofChars?_signed {c : Char} {t : List Char} (hc : c.isDigit = true) {d : Decimal}
    (h : Decimal.ofChars? (c :: t) = some d) (negative : Bool) :
    ofChars? (if negative then '-' :: c :: t else c :: t) = some (ofDecimal negative d) := by
  cases negative with
  | true => simp [ofChars?, Decimal.signed?, h]
  | false =>
    simp only [Bool.false_eq_true, if_false, ofChars?, Decimal.signed?]
    split
    · next heq =>
      cases heq
      cases hc
    · next heq =>
      cases heq
      cases hc
    · simp [h]

/-- The characters of a number that is not written as an integer. -/
theorem toList_text {x : Number} (hx : x.isFinite = true) :
    x.text.toList =
      if x.negative then '-' :: (x.shortest .upward).positional []
      else (x.shortest .upward).positional [] := by
  have real : x.isNaN = false := by
    simp only [isFinite, isNaN, decide_eq_true_eq, decide_eq_false_iff_not] at hx ⊢
    omega
  simp [text, real, hx]

/-- The characters of an integer. -/
theorem toList_toString (negative : Bool) (n : Nat) :
    (toString (if negative then -(n : Int) else (n : Int))).toList =
      if negative && n != 0 then '-' :: Decimal.digitsOf n else Decimal.digitsOf n := by
  rw [Int.toString_eq_repr, Int.repr_eq_if]
  cases negative with
  | false => simp [Decimal.digitsOf]
  | true =>
    by_cases hn : n = 0
    · simp [hn, Decimal.digitsOf]
    · have below : ¬ 0 ≤ -(n : Int) := by omega
      simp only [if_true, below, if_false]
      simp [hn, Decimal.digitsOf]

/-- A number as a quotient without remainder. -/
theorem whole?_eq_some {x : Number} {i : Int} (h : x.whole? = some i) :
    ∃ q, q < 10 ^ 15 ∧ q * x.denominator = x.numerator ∧
      i = if x.negative then -(q : Int) else (q : Int) := by
  simp only [whole?, Bool.and_eq_true, decide_eq_true_eq] at h
  split at h
  · next hq =>
    obtain ⟨⟨-, hmod⟩, hlt⟩ := hq
    refine ⟨x.numerator / x.denominator, hlt, Nat.div_mul_cancel (Nat.dvd_of_mod_eq_zero hmod), ?_⟩
    exact (Option.some.inj h).symm
  · cases h

/-- Zero is whole. -/
theorem magnitude_ne_zero_of_whole? {x : Number} (hx : x.isFinite = true) (h : x.whole? = none) :
    x.magnitude ≠ 0 := by
  intro zero
  have hn : x.numerator = 0 := by simp [numerator, significand, zero]
  simp [whole?, hx, hn] at h

/-- How a finite number is written: as a numeral, with a minus in front of it or without. -/
theorem display_spec {x : Number} (hx : x.isFinite = true) :
    ∃ negative s d, (Value.number x).display.toList = (if negative then '-' :: s else s) ∧
      Numeral s ∧ Decimal.ofChars? s = some d ∧ ofDecimal negative d = x.folded := by
  cases hi : x.whole? with
  | none =>
    have nonzero := magnitude_ne_zero_of_whole? hx hi
    obtain ⟨d, hd, same⟩ := ofChars?_positional (x.shortest .upward)
    refine ⟨x.negative, _, d, ?_, numeral_positional (x.shortest .upward), hd, ?_⟩
    · simp only [Value.display, hi, toList_text hx]
    · rw [same, ofDecimal_shortest _ hx nonzero, folded, if_neg nonzero]
  | some i =>
    obtain ⟨q, hq, exact, rfl⟩ := whole?_eq_some hi
    have hs : Numeral (Decimal.digitsOf q) := by
      rw [← List.append_nil (Decimal.digitsOf q)]
      exact numeral_of_digits (Decimal.digits_digitsOf q) (by simp)
    refine ⟨x.negative && q != 0, _, _, ?_, hs, Decimal.ofChars?_whole (Decimal.digits_digitsOf q),
      ?_⟩
    · simp only [Value.display, hi, toList_toString]
    · rw [Decimal.ofDigits_digitsOf]
      by_cases zero : x.magnitude = 0
      · have hn : x.numerator = 0 := by simp [numerator, significand, zero]
        have hq0 : q = 0 := by
          rw [hn] at exact
          exact (Nat.mul_eq_zero.1 exact).resolve_right x.denominator_ne_zero
        simp [hq0, ofDecimal, folded, zero, ofMagnitude, Number.zero]
      · have hn : x.numerator ≠ 0 :=
          Nat.mul_ne_zero (significand_ne_zero zero) (Nat.ne_of_gt (Nat.two_pow_pos _))
        have hq0 : q ≠ 0 := by
          rintro rfl
          rw [Nat.zero_mul] at exact
          exact hn exact.symm
        have len : (Decimal.digitsOf q).length ≤ 15 :=
          (Decimal.length_digitsOf_le_iff (by decide)).2 hq
        have back : x.readsBack ⟨q, 0⟩ = true := by
          apply readsBack_of_exact hx hq0
          · simp only [Decimal.leading]
            omega
          · simp only [Decimal.leading]
            omega
          · simpa using exact
        rw [bne_iff_ne.2 hq0, Bool.and_true, ofDecimal_of_readsBack back, folded, if_neg zero]

/-- **Reading undoes writing.** A finite number that is written as a value and read again is the
same number; of the two zeros only one is written. -/
theorem ofChars?_display {x : Number} (hx : x.isFinite = true) :
    ofChars? (Value.number x).display.toList = some x.folded := by
  obtain ⟨negative, s, d, written, hs, hd, same⟩ := display_spec hx
  obtain ⟨c, t, rfl, hc, -⟩ := hs
  rw [written, ofChars?_signed hc hd, same]

end Number
end PocketSql
