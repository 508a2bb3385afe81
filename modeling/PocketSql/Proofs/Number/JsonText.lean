import PocketSql.Json
import PocketSql.Proofs.Number.ReadBack

/-!
# Numbers in JSON

The text of a finite number in JSON is a sign and an unsigned decimal, and it reads back to the
number. Scientific notation keeps the decimal as it is, and the `.0` behind a whole number does not
change its value.

## Main results

* `Decimal.spells_scientific` — scientific notation is read as what was written.
* `Number.spells_json` — how a finite number is written in JSON.
* `Number.ofChars?_json` — a number that is written in JSON is read back.
-/

namespace PocketSql
namespace Decimal

/-- A character of an unsigned number in JSON. -/
def inNumber (c : Char) : Bool := c.isDigit || c ∈ ['.', 'e', '+', '-']

/-- An unsigned number in JSON, and the decimal as which it is read. -/
structure Spells (s : List Char) (d : Decimal) : Prop where
  first : ∃ c t, s = c :: t ∧ c.isDigit = true
  chars : ∀ c ∈ s, inNumber c = true
  read : ofChars? s = some d

theorem inNumber_of_isDigit {c : Char} (h : c.isDigit = true) : inNumber c = true := by
  simp [inNumber, h]

theorem Digits.exists_append {s : List Char} (hs : Digits s) (t : List Char) :
    ∃ c u, s ++ t = c :: u ∧ c.isDigit = true := by
  obtain ⟨front, digits⟩ := hs
  obtain ⟨c, s, rfl⟩ := List.exists_cons_of_ne_nil front
  exact ⟨c, s ++ t, rfl, digits c (by simp)⟩

/-! ## Positional notation -/

theorem spells_fraction {s t : List Char} (hs : Digits s) (ht : ∀ c ∈ t, c.isDigit = true) :
    Spells (s ++ '.' :: t) ⟨ofDigits (s ++ t), -t.length⟩ where
  first := hs.exists_append _
  chars := by
    simp only [List.forall_mem_append, List.forall_mem_cons]
    exact ⟨fun c hc => inNumber_of_isDigit (hs.2 c hc), rfl,
      fun c hc => inNumber_of_isDigit (ht c hc)⟩
  read := ofChars?_fraction hs ht

/-- A whole number may have a point and a zero behind it. -/
theorem spells_positional (d : Decimal) :
    ∃ d', Spells (d.positional ['.', '0']) d' ∧
      ∀ negative, Number.ofDecimal negative d' = Number.ofDecimal negative d := by
  obtain ⟨s, written, digits, he, value⟩ | ⟨s, t, written, digits, fraction, rfl⟩ :=
    d.positional_cases ['.', '0']
  · rw [written]
    refine ⟨_, spells_fraction digits (by simp), fun negative => ?_⟩
    have tenfold : ofDigits (s ++ ['0']) = d.digits * 10 ^ (d.exponent.toNat + 1) := by
      rw [← List.replicate_one, ofDigits_append_zeros, value, Nat.mul_assoc, ← Nat.pow_add]
    rw [tenfold, Number.ofDecimal_mul_pow_ten]
    congr 2
    simp only [List.length_singleton]
    omega
  · rw [written]
    exact ⟨_, spells_fraction digits fraction, fun _ => rfl⟩

/-! ## Scientific notation -/

/-- The sign of an exponent. -/
def exponentSign (n : Int) : Char := if n < 0 then '-' else '+'

theorem exponent?_signed (n : Int) :
    exponent? (exponentSign n :: digitsOf n.natAbs) = some n := by
  have front : (digitsOf n.natAbs).isEmpty = false :=
    List.isEmpty_eq_false_iff.2 (digitsOf_ne_nil n.natAbs)
  have digits : (digitsOf n.natAbs).all Char.isDigit = true :=
    List.all_eq_true.2 fun _ => isDigit_of_mem_digitsOf
  have signed (sign : Int) (value : sign * (n.natAbs : Int) = n) :
      (if (digitsOf n.natAbs).isEmpty || !(digitsOf n.natAbs).all Char.isDigit then none
        else some (sign * (ofDigits (digitsOf n.natAbs) : Int))) = some n := by
    rw [front, digits, ofDigits_digitsOf, value]
    rfl
  unfold exponentSign
  split
  · exact signed (-1) (by omega)
  · exact signed 1 (by omega)

/-- Digits, a fraction if there is one, and an exponent. -/
theorem spells_exponent {s t : List Char} (hs : Digits s) (ht : ∀ c ∈ t, c.isDigit = true)
    (n : Int) :
    Spells (s ++ ((if t.isEmpty then [] else '.' :: t) ++
      'e' :: exponentSign n :: digitsOf n.natAbs)) ⟨ofDigits (s ++ t), n - t.length⟩ where
  first := hs.exists_append _
  chars := by
    simp only [List.forall_mem_append, List.forall_mem_cons]
    refine ⟨fun c hc => inNumber_of_isDigit (hs.2 c hc), ?_, rfl, ?_,
      fun c hc => inNumber_of_isDigit (isDigit_of_mem_digitsOf hc)⟩
    · split
      · simp
      · exact List.forall_mem_cons.2 ⟨rfl, fun c hc => inNumber_of_isDigit (ht c hc)⟩
    · unfold exponentSign
      split <;> rfl
  read := by
    obtain ⟨front, digits⟩ := hs
    have mark {u : List Char} : ∀ c, ('e' :: u).head? = some c → c.isDigit = false := by
      rintro c ⟨⟩
      rfl
    have point {u : List Char} : ∀ c, ('.' :: u).head? = some c → c.isDigit = false := by
      rintro c ⟨⟩
      rfl
    by_cases empty : t = []
    · subst empty
      simp [ofChars?, takeWhile_front digits mark, dropWhile_front digits mark, front,
        exponent?_signed]
    · simp [ofChars?, empty, takeWhile_front digits point, dropWhile_front digits point,
        takeWhile_front ht mark, dropWhile_front ht mark, front, exponent?_signed]

/-- **Scientific notation keeps the decimal.** -/
theorem spells_scientific (d : Decimal) : Spells d.scientific d := by
  obtain ⟨c, t, hd⟩ := List.exists_cons_of_ne_nil (digitsOf_ne_nil d.digits)
  have digits : ∀ a ∈ c :: t, a.isDigit = true := fun a ha => isDigit_of_mem_digitsOf (hd ▸ ha)
  rw [List.forall_mem_cons] at digits
  have written : d.scientific = [c] ++ ((if t.isEmpty then [] else '.' :: t) ++
      'e' :: exponentSign d.leading :: digitsOf d.leading.natAbs) := by
    simp [scientific, exponentSign, hd]
  have value : ofDigits ([c] ++ t) = d.digits := by
    rw [List.singleton_append, ← hd, ofDigits_digitsOf]
  have exponent : d.leading - t.length = d.exponent := by
    simp only [leading, hd, List.length_cons]
    omega
  have first : Digits [c] := ⟨by simp, by simpa using digits.1⟩
  have spells := spells_exponent first digits.2 d.leading
  rwa [value, exponent, ← written] at spells

end Decimal

namespace Number

/-- How a finite number is written in JSON: unsigned, with a minus in front of it or without. -/
theorem spells_json {x : Number} (hx : x.isFinite = true) :
    ∃ negative s d, x.json = (if negative then '-' :: s else s) ∧ Decimal.Spells s d ∧
      ofDecimal negative d = x.folded := by
  cases hi : x.whole? with
  | none =>
    have nonzero := magnitude_ne_zero_of_whole? hx hi
    have value : ofDecimal x.negative (x.shortest .toEven) = x.folded := by
      rw [ofDecimal_shortest _ hx nonzero, folded, if_neg nonzero]
    obtain ⟨d, spells, same⟩ : ∃ d, Decimal.Spells
        (if -5 ≤ (x.shortest .toEven).leading && (x.shortest .toEven).leading < 16 then
          (x.shortest .toEven).positional ['.', '0'] else (x.shortest .toEven).scientific) d ∧
        ofDecimal x.negative d = ofDecimal x.negative (x.shortest .toEven) := by
      split
      · obtain ⟨d, spells, same⟩ := (x.shortest .toEven).spells_positional
        exact ⟨d, spells, same x.negative⟩
      · exact ⟨_, (x.shortest .toEven).spells_scientific, rfl⟩
    refine ⟨x.negative, _, d, ?_, spells, same.trans value⟩
    simp only [json, hx, hi, Bool.not_true, Bool.false_eq_true, if_false]
  | some i =>
    -- a whole number is written as it is displayed
    obtain ⟨negative, _, d, written, ⟨c, t, rfl, hc, ht⟩, read, value⟩ := display_spec hx
    have chars : ∀ a ∈ c :: t, Decimal.inNumber a = true := by
      refine List.forall_mem_cons.2 ⟨Decimal.inNumber_of_isDigit hc, fun a ha => ?_⟩
      obtain digit | rfl := ht a ha
      · exact Decimal.inNumber_of_isDigit digit
      · rfl
    refine ⟨negative, _, d, ?_, ⟨⟨c, t, rfl, hc⟩, chars, read⟩, value⟩
    rw [← written]
    simp [json, hx, hi, Value.display]

/-- **A number that is written in JSON is read back**; of the two zeros only one is written. -/
theorem ofChars?_json {x : Number} (hx : x.isFinite = true) : ofChars? x.json = some x.folded := by
  obtain ⟨negative, s, d, written, ⟨⟨c, t, rfl, hc⟩, -, read⟩, value⟩ := spells_json hx
  rw [written, ofChars?_signed hc read, value]

end Number
end PocketSql
