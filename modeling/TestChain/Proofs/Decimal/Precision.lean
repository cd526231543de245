import Mathlib.Algebra.Order.Ring.Nat
import TestChain.Decimal

/-!
# Values with a precision

`Decimal.withPrecision` multiplies a word by a power of ten if its last digits stand among the
eighteen places, divides it if some of them lie beyond, and gives zero if the power of ten has more
than 128 bits. All three are one formula: the scaled value is the word times ten to the eighteenth,
divided by ten to the precision and rounded down (`Decimal.atomics_withPrecision`). No product is
cut off, since a word and eighteen tens stay below `2^128` (`Decimal.scaled_lt`), and a power of ten
that does not fit is larger than every word, so that nothing is left of it.
-/

namespace TestChain.Decimal

variable {n places : Nat} {p : UInt32}

/-! ## What fits into 128 bits -/

/-- A number that fits is kept. -/
theorem atomics_clamp (h : n < decimalBound) : (clamp n).atomics = n := by
  unfold clamp
  rw [dif_pos h]

/-- A word and at most eighteen tens fit. -/
theorem scaled_lt (v : UInt64) (h : places ≤ 18) : v.toNat * 10 ^ places < decimalBound :=
  calc v.toNat * 10 ^ places
      ≤ v.toNat * 10 ^ 18 := Nat.mul_le_mul_left _ (Nat.pow_le_pow_right (by decide) h)
    _ < UInt64.size * 10 ^ 18 := Nat.mul_lt_mul_of_pos_right v.toNat_lt_size (by decide)
    _ < decimalBound := by decide

/-- Ten to the 38th is the largest power of ten that fits. -/
theorem pow_lt_iff : 10 ^ places < decimalBound ↔ places ≤ 38 := by
  constructor
  · intro fits
    by_contra more
    have large : 10 ^ 39 ≤ 10 ^ places := Nat.pow_le_pow_right (by decide) (Nat.not_le.1 more)
    exact absurd (Nat.lt_of_le_of_lt large fits) (by decide)
  · intro few
    exact Nat.lt_of_le_of_lt (Nat.pow_le_pow_right (by decide) few) (by decide)

/-- Nothing is left of a word that is divided by a power of ten that does not fit. -/
theorem word_div_eq_zero (v : UInt64) (h : decimalBound ≤ 10 ^ places) :
    v.toNat / 10 ^ places = 0 :=
  Nat.div_eq_of_lt <|
    calc v.toNat
        < UInt64.size := v.toNat_lt_size
      _ ≤ decimalBound := by decide
      _ ≤ 10 ^ places := h

/-! ## One formula -/

/-- Where the last digits stand among the eighteen places, the formula multiplies. -/
theorem scaled_of_le (n : Nat) (h : p.toNat ≤ 18) :
    n * 10 ^ 18 / 10 ^ p.toNat = n * 10 ^ (18 - p.toNat) := by
  have powers : 10 ^ 18 = 10 ^ (18 - p.toNat) * 10 ^ p.toNat := by
    rw [← Nat.pow_add, Nat.sub_add_cancel h]
  rw [powers, ← Nat.mul_assoc, Nat.mul_div_cancel _ (Nat.pow_pos (by decide))]

/-- Where they lie beyond, it divides. -/
theorem scaled_of_lt (n : Nat) (h : 18 < p.toNat) :
    n * 10 ^ 18 / 10 ^ p.toNat = n / 10 ^ (p.toNat - 18) := by
  have powers : 10 ^ p.toNat = 10 ^ (p.toNat - 18) * 10 ^ 18 := by
    rw [← Nat.pow_add, Nat.sub_add_cancel (Nat.le_of_lt h)]
  rw [powers, Nat.mul_div_mul_right _ _ (by decide)]

/-- The scaled value is the word times ten to the eighteenth, divided by ten to the precision and
rounded down. -/
theorem atomics_withPrecision (v : UInt64) (p : UInt32) :
    (withPrecision v p).atomics = v.toNat * 10 ^ 18 / 10 ^ p.toNat := by
  unfold withPrecision
  split
  · next among =>
    rw [scaled_of_le _ among]
    exact atomics_clamp (scaled_lt v (Nat.sub_le _ _))
  · next beyond =>
    rw [scaled_of_lt _ (Nat.not_le.1 beyond)]
    dsimp only
    split
    · -- A quotient is no larger than the word.
      exact atomics_clamp <|
        Nat.lt_of_le_of_lt (Nat.div_le_self _ _) (Nat.lt_of_lt_of_le v.toNat_lt_size (by decide))
    · next more =>
      exact (word_div_eq_zero v (Nat.not_lt.1 (mt pow_lt_iff.1 more))).symm

/-- A whole number is as many whole ones. -/
theorem atomics_ofInteger (v : UInt64) : (ofInteger v).atomics = v.toNat * 10 ^ 18 :=
  atomics_clamp (scaled_lt v (Nat.le_refl 18))

/-- Decimals with the same scaled value are the same. -/
theorem ext_atomics {d e : Decimal} (h : d.atomics = e.atomics) : d = e := by
  cases d
  cases e
  cases h
  rfl

/-- A value with a precision is cut off exactly: its scaled value is the word times ten to the
eighteenth, divided by ten to the precision and rounded down. Where it is computed by a product the
product is not cut off, and where the power of ten to divide by does not fit into 128 bits it is
zero, as the formula says. So it grows with the word and falls with the precision, and with no
precision it is the whole number. -/
theorem withPrecision_exact :
    (∀ v p, (withPrecision v p).atomics = v.toNat * 10 ^ 18 / 10 ^ p.toNat) ∧
    (∀ v : UInt64, ∀ places ≤ 18, v.toNat * 10 ^ places < decimalBound) ∧
    (∀ v p, 18 < p.toNat → decimalBound ≤ 10 ^ (p.toNat - 18) →
      withPrecision v p = zero ∧ v.toNat * 10 ^ 18 / 10 ^ p.toNat = 0) ∧
    (∀ p v w, v ≤ w → (withPrecision v p).atomics ≤ (withPrecision w p).atomics) ∧
    (∀ v p q, p ≤ q → (withPrecision v q).atomics ≤ (withPrecision v p).atomics) ∧
    ∀ v, withPrecision v 0 = ofInteger v := by
  refine ⟨atomics_withPrecision, fun v places => scaled_lt v, fun v p beyond large => ?_,
    fun p v w h => ?_, fun v p q h => ?_, fun v => ext_atomics ?_⟩
  · have none : v.toNat * 10 ^ 18 / 10 ^ p.toNat = 0 := by
      rw [scaled_of_lt _ beyond]
      exact word_div_eq_zero v large
    exact ⟨ext_atomics ((atomics_withPrecision v p).trans none), none⟩
  · rw [atomics_withPrecision, atomics_withPrecision]
    exact Nat.div_le_div_right (Nat.mul_le_mul_right _ (UInt64.le_iff_toNat_le.1 h))
  · rw [atomics_withPrecision, atomics_withPrecision]
    exact Nat.div_le_div_left
      (Nat.pow_le_pow_right (by decide) (UInt32.le_iff_toNat_le.1 h)) (Nat.pow_pos (by decide))
  · rw [atomics_withPrecision, atomics_ofInteger]
    exact Nat.div_one _

/-- Of 150 units of the twentieth place one unit of the eighteenth is left, and of one none. -/
example : (withPrecision 150 20).atomics = 1 ∧ withPrecision 1 20 = zero := by decide

end TestChain.Decimal
