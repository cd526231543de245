import TestChain.Proofs.Json.FreeValues
import TestChain.Proofs.Number.Rounding

/-!
# Doubles that are numbers

Words, powers of ten, and what they are scaled to are numbers and not infinities. So every double
that a numeral stands for is a number (`Reading.Spelled.isFinite`). Scaling up may be refused; it is
not for at most seventeen digits that stand for at most the number half a last bit below the largest
double (`Double.isFinite_scaled`). Where the product is near the largest double, this is checked for
each of the powers of ten that are left (`Double.powers_checked`).
-/

namespace TestChain.Double

open Float.Model Float.Model.UnpackedFloat

/-- The double is this mantissa with this exponent, and any sign. -/
def Parts (x : Float) (m : Nat) (e : Int) : Prop :=
  ∃ s h, x.toModel.unpack = .finite s m e h

/-- A double with parts is a number. -/
theorem Parts.isFinite {x : Float} {m : Nat} {e : Int} (h : Parts x m e) : x.isFinite = true := by
  obtain ⟨s, _, h⟩ := h
  unfold Float.isFinite Float.Model.isFinite
  rw [h]
  rfl

/-- A double that is a number is a zero or has parts, and these are limited. -/
theorem cases_of_isFinite {x : Float} (h : x.isFinite = true) :
    (∃ s, x.toModel.unpack = .zero s) ∨
      ∃ m e, Parts x m e ∧ m.log2 ≤ 52 ∧ -1074 ≤ e ∧ e ≤ 971 := by
  have fraction : fractionBits x.toBits.toBitVec < 2 ^ 52 := BitVec.isLt _
  have exponent : exponentBits x.toBits.toBitVec < 2 ^ 11 := BitVec.isLt _
  have inner : exponentBits x.toBits.toBitVec ≠ 2047 := fun largest => by
    have other := isFinite_unpack_of_eq largest
    have same : (UnpackedFloat.unpack Format.binary64 x.toBits.toBitVec).isFinite = x.isFinite :=
      rfl
    rw [same, h] at other
    cases other
  have bits {m : Nat} (positive : 0 < m) (small : m < 2 ^ 53) : m.log2 ≤ 52 :=
    Nat.le_of_lt_succ ((Nat.log2_lt (Nat.ne_of_gt positive)).2 small)
  by_cases least : exponentBits x.toBits.toBitVec = 0
  · rcases unpack_of_eq_zero least with ⟨-, s, hx⟩ | ⟨s, hm, hx⟩
    · exact .inl ⟨s, hx⟩
    · exact .inr ⟨_, _, ⟨s, hm, hx⟩, bits hm (by omega), by omega, by omega⟩
  · obtain ⟨s, hm, hx⟩ := unpack_of_ne least inner
    exact .inr ⟨_, _, ⟨s, hm, hx⟩, bits hm (by omega), by omega, by omega⟩

/-- A double that is neither an infinity nor a failed calculation is a number. -/
theorem isFinite_of_not {x : Float} (hinf : x.isInf = false) (hnan : x.isNaN = false) :
    x.isFinite = true := by
  unfold Float.isInf Float.Model.isInf at hinf
  unfold Float.isNaN Float.Model.isNaN at hnan
  unfold Float.isFinite Float.Model.isFinite
  cases h : x.toModel.unpack with
  | notANumber =>
    rw [h] at hnan
    cases hnan
  | infinity s =>
    rw [h] at hinf
    cases hinf
  | zero s => rfl
  | finite s m e hm => rfl

/-- A number is no infinity. -/
theorem isInf_of_isFinite {x : Float} (h : x.isFinite = true) : x.isInf = false := by
  unfold Float.isFinite Float.Model.isFinite at h
  unfold Float.isInf Float.Model.isInf
  cases hx : x.toModel.unpack with
  | infinity s =>
    rw [hx] at h
    cases h
  | notANumber | zero | finite => rfl

/-! ## Calculations -/

/-- Zeros are numbers. -/
theorem isFinite_zero (s : Sign) : (Float.Model.pack (.zero s)).isFinite = true := by
  cases s
  · rfl
  · rfl

/-- A number with the other sign is a number. -/
theorem isFinite_neg {x : Float} (h : x.isFinite = true) : (-x).isFinite = true := by
  show (Float.Model.pack x.toModel.unpack.neg).isFinite = true
  rcases cases_of_isFinite h with ⟨s, hx⟩ | ⟨m, e, ⟨s, hm, hx⟩, -, low, high⟩
  · rw [hx]
    exact isFinite_zero _
  · rw [hx]
    exact isFinite_pack hm low high

/-- The product of two numbers is a number or an infinity. -/
theorem isNaN_mul {x y : Float} (hx : x.isFinite = true) (hy : y.isFinite = true) :
    (x * y).isNaN = false := by
  have zero (s : Sign) : (Float.Model.pack (.zero s)).isNaN = false := by
    cases s
    · rfl
    · rfl
  show (Float.Model.pack (UnpackedFloat.mul Format.binary64 x.toModel.unpack
    y.toModel.unpack)).isNaN = false
  rcases cases_of_isFinite hx with ⟨s, hx⟩ | ⟨m, e, ⟨s, hm, hx⟩, -⟩
  · rcases cases_of_isFinite hy with ⟨s', hy⟩ | ⟨m', e', ⟨s', hm', hy⟩, -⟩
    · rw [hx, hy]
      exact zero _
    · rw [hx, hy]
      exact zero _
  · rcases cases_of_isFinite hy with ⟨s', hy⟩ | ⟨m', e', ⟨s', hm', hy⟩, -⟩
    · rw [hx, hy]
      exact zero _
    · rw [hx, hy]
      exact isNaN_round _ _ _

/-- The product of doubles is rounded from the product of their mantissas. -/
theorem mul_eq {x y : Float} {m m' : Nat} {e e' : Int} (hx : Parts x m e) (hy : Parts y m' e') :
    ∃ s, (x * y).toModel =
      Float.Model.pack (roundWithAccuracy Format.binary64 s (m * m') (e + e') .exact) := by
  obtain ⟨s, hm, hx⟩ := hx
  obtain ⟨s', hm', hy⟩ := hy
  refine ⟨s * s', ?_⟩
  show Float.Model.pack (UnpackedFloat.mul Format.binary64 x.toModel.unpack y.toModel.unpack) = _
  rw [hx, hy]
  rfl

/-- The quotient of two mantissas is not larger than the mantissas say. -/
theorem log2_quotient {m n k : Nat} (hn : 0 < n) (hq : 0 < (m <<< k) / n) :
    ((m <<< k) / n).log2 + n.log2 ≤ m.log2 + k := by
  rw [Nat.shiftLeft_eq] at hq ⊢
  have product : 2 ^ ((m * 2 ^ k / n).log2 + n.log2) < 2 ^ (m.log2 + 1 + k) := by
    calc 2 ^ ((m * 2 ^ k / n).log2 + n.log2)
        = 2 ^ (m * 2 ^ k / n).log2 * 2 ^ n.log2 := Nat.pow_add _ _ _
      _ ≤ m * 2 ^ k / n * n := Nat.mul_le_mul (Nat.log2_self_le (Nat.ne_of_gt hq))
          (Nat.log2_self_le (Nat.ne_of_gt hn))
      _ ≤ m * 2 ^ k := Nat.div_mul_le_self _ _
      _ < 2 ^ (m.log2 + 1) * 2 ^ k :=
          Nat.mul_lt_mul_of_pos_right Nat.lt_log2_self (Nat.two_pow_pos k)
      _ = 2 ^ (m.log2 + 1 + k) := (Nat.pow_add _ _ _).symm
  have exponents := (Nat.pow_lt_pow_iff_right (by decide)).1 product
  omega

/-- A number is divided by one that is not small, and the quotient is a number. -/
theorem isFinite_div {x y : Float} {m : Nat} {e : Int} (hx : x.isFinite = true) (hy : Parts y m e)
    (large : 3 ≤ m.log2 + e) : (x / y).isFinite = true := by
  obtain ⟨s', hm', hy⟩ := hy
  show (Float.Model.pack (UnpackedFloat.div Format.binary64 x.toModel.unpack
    y.toModel.unpack)).isFinite = true
  rcases cases_of_isFinite hx with ⟨s, hx⟩ | ⟨m₁, e₁, ⟨s, hm₁, hx⟩, bits, -, high⟩
  · rw [hx, hy]
    exact isFinite_zero _
  · rw [hx, hy]
    -- The quotient is smaller than the number, and its exponent is on the grid or below.
    have target : Format.binary64.targetExponent (totalExponent m₁ e₁ - totalExponent m e) =
        max (m₁.log2 + e₁ - (m.log2 + e) - 53) (-1074) := by
      have bits : (Format.binary64.mantissaBits : Int) = 53 := rfl
      have least : Format.binary64.minExponent = -1074 := rfl
      unfold Format.targetExponent totalExponent
      rw [bits, least]
      omega
    show (Float.Model.pack (roundWithAccuracy Format.binary64 (s / s')
      ((m₁ <<< (e₁ - e - min (e₁ - e) (Format.binary64.targetExponent
        (totalExponent m₁ e₁ - totalExponent m e))).toNat) / m)
      (min (e₁ - e) (Format.binary64.targetExponent
        (totalExponent m₁ e₁ - totalExponent m e))) _)).isFinite = true
    rw [target]
    generalize hk : (e₁ - e - min (e₁ - e) (max (m₁.log2 + e₁ - (m.log2 + e) - 53) (-1074))).toNat
      = k
    refine isFinite_round _ (by omega) ?_
    rcases Nat.eq_zero_or_pos ((m₁ <<< k) / m) with zero | positive
    · rw [zero]
      have none : (0 : Nat).log2 = 0 := by decide
      omega
    · have size := log2_quotient hm' positive
      omega

/-! ## Whole numbers -/

/-- A shifted number has more bits. -/
theorem log2_shiftLeft {n : Nat} (hn : 0 < n) (k : Nat) : (n <<< k).log2 = n.log2 + k := by
  rw [Nat.shiftLeft_eq, Nat.log2_eq_iff (Nat.ne_of_gt (Nat.mul_pos hn (Nat.two_pow_pos k)))]
  obtain ⟨lower, upper⟩ := (Nat.log2_eq_iff (Nat.ne_of_gt hn)).1 rfl
  refine ⟨?_, ?_⟩
  · rw [Nat.pow_add]
    exact Nat.mul_le_mul_right _ lower
  · rw [show n.log2 + k + 1 = n.log2 + 1 + k by omega, Nat.pow_add]
    exact Nat.mul_lt_mul_of_pos_right upper (Nat.two_pow_pos k)

/-- A positive word is rounded after it is shifted to 53 bits if it has fewer. -/
theorem toFloat_eq {n : Nat} (positive : 0 < n) (hn : n < 2 ^ 64) :
    n.toUInt64.toFloat.toModel = Float.Model.pack (roundWithAccuracy Format.binary64 .positive
      (n <<< (0 - grid n 0).toNat) (0 - ((0 - grid n 0).toNat : ℤ)) .exact) := by
  have word : n.toUInt64.toNat = n := Nat.mod_eq_of_lt hn
  have sign : compare (n : ℤ) 0 = .gt := Int.compare_eq_gt.2 (by omega)
  have whole : (n : ℤ).toNat = n := rfl
  show Float.Model.pack
    (UnpackedFloat.normalize Format.binary64 (n.toUInt64.toNat : ℤ) 0 .positive) = _
  rw [word]
  unfold UnpackedFloat.normalize
  rw [sign]
  dsimp only
  unfold UnpackedFloat.round
  rw [whole, targetExponent_eq]
  rfl

/-- A positive word is a double of 53 bits that is larger by at most half of its last bit. -/
theorem exists_parts_word {n : Nat} (positive : 0 < n) (hn : n < 2 ^ 64) :
    ∃ m e, Parts n.toUInt64.toFloat m e ∧ m.log2 = 52 ∧ n.log2 ≤ 52 + e ∧ 52 + e ≤ n.log2 + 1 ∧
      (m : ℚ) * 2 ^ e ≤ n + 2 ^ ((n.log2 : ℤ) - 53) := by
  have small : n.log2 ≤ 63 := Nat.le_of_lt_succ ((Nat.log2_lt (Nat.ne_of_gt positive)).2 hn)
  have rounds := toFloat_eq positive hn
  obtain ⟨k, hk, bits⟩ : ∃ k, (0 - grid n 0).toNat = k ∧ 52 ≤ n.log2 + k := by
    refine ⟨_, rfl, ?_⟩
    unfold grid
    omega
  have shifted := log2_shiftLeft positive k
  have value : ((n <<< k : Nat) : ℚ) * 2 ^ (0 - (k : ℤ)) = n := by
    rw [Nat.shiftLeft_eq, Nat.cast_mul, Nat.cast_pow, Nat.cast_ofNat, mul_assoc, ← zpow_natCast,
      ← zpow_add₀ two_ne_zero, zero_sub, add_neg_cancel, zpow_zero, mul_one]
  have inside : (n : ℚ) < ceiling := by
    have inside : n < ceiling := Nat.lt_trans hn (two_pow_lt_ceiling (by decide))
    exact_mod_cast inside
  obtain ⟨s, m, e, h, unpacked, size, low, high, bound⟩ := unpack_round (s := .positive)
    (m := n <<< k) (e := 0 - (k : ℤ)) (by omega) (by omega) (by rw [value]; exact inside)
  rw [value] at bound
  refine ⟨m, e, ⟨s, h, ?_⟩, size, by omega, by omega, ?_⟩
  · rw [rounds, hk]
    exact unpacked
  · rw [show (n.log2 : ℤ) - 53 = (n <<< k).log2 + (0 - (k : ℤ)) - 53 by omega]
    exact bound

/-! ## Powers of ten -/

/-- Whether a double has 53 bits and is in the range of a number, or the next power of two. -/
def isAround (x : Float) (n : Nat) : Bool :=
  match x.toModel.unpack with
  | .finite _ m e _ => m.log2 = 52 && (n.log2 ≤ 52 + e && 52 + e ≤ n.log2 + 1)
  | _ => false

/-- What lies half a last bit below the largest double. -/
def highest : Nat := (2 ^ 54 - 3) * 2 ^ 970

/-- Whether no product of the power of ten and of a number of at most seventeen digits is too large
for a double if its exact value is at most the highest. -/
def fitsPower (t : Nat) : Bool :=
  match (Reading.powerOfTen t).toModel.unpack with
  | .finite _ m e _ =>
    let n := min (highest / 10 ^ t) (10 ^ 17)
    m.log2 = 52 && (0 ≤ e && (n * 2 ^ 53 + 2 ^ n.log2) * (m * 2 ^ e.toNat) < ceiling * 2 ^ 53)
  | _ => false

/-- What is found by evaluation: the first powers of ten come from a table and are around their
exact values, products with the last ones are not too large, and where some powers of ten lie. -/
theorem powers_checked :
    (∀ t : Fin 23, isAround (Reading.powerOfTen t) (10 ^ t.val) = true) ∧
      (∀ t : Fin 18, fitsPower (291 + t.val) = true) ∧
      10 ^ 290 < 2 ^ 964 ∧ 10 ^ 308 < ceiling ∧ highest < 10 ^ 309 := by
  decide +kernel

/-- A double around a number has parts. -/
theorem exists_parts_of_isAround {x : Float} {n : Nat} (h : isAround x n = true) :
    ∃ m e, Parts x m e ∧ m.log2 = 52 ∧ n.log2 ≤ 52 + e ∧ 52 + e ≤ n.log2 + 1 := by
  unfold isAround at h
  split at h
  · rename_i s m e hm hx
    simp only [Bool.and_eq_true, decide_eq_true_eq] at h
    exact ⟨m, e, ⟨s, hm, hx⟩, h⟩
  · cases h

/-- A large power of ten is rounded from its exact value. -/
theorem powerOfTen_eq {t : Nat} (low : 22 < t) (high : t ≤ 308) :
    ∃ s, (Reading.powerOfTen t).toModel =
      Float.Model.pack (roundWithAccuracy Format.binary64 s (2 ^ 53 * 10 ^ t) (-53) .exact) := by
  have slow : Reading.powerOfTen t = ⟨Float.Model.ofScientific 1 t⟩ := by
    unfold Reading.powerOfTen Float.ofScientific
    rw [dif_neg (by omega)]
    rfl
  have unbounded : ¬(t : ℤ) > 2 ^ Format.binary64.exponentBits := by
    show ¬(t : ℤ) > 2 ^ 11
    omega
  have inside : ¬(t : ℤ) < -((2 ^ Format.binary64.exponentBits : ℤ) + (1 : Nat).log2) := by
    show ¬(t : ℤ) < -((2 ^ 11 : ℤ) + (1 : Nat).log2)
    omega
  rw [slow]
  unfold Float.Model.ofScientific UnpackedFloat.ofScientific
  dsimp only
  rw [dif_neg (by decide), if_neg unbounded, if_neg inside, if_pos (by omega)]
  exact ⟨_, rfl⟩

/-- A power of ten is a double of 53 bits. -/
theorem exists_parts_power {t : Nat} (ht : t ≤ 308) :
    ∃ m e, Parts (Reading.powerOfTen t) m e ∧ m.log2 = 52 ∧ (10 ^ t).log2 ≤ 52 + e ∧
      52 + e ≤ (10 ^ t).log2 + 1 := by
  rcases Nat.lt_or_ge 22 t with large | small
  · obtain ⟨s, rounds⟩ := powerOfTen_eq large ht
    have positive : 0 < 10 ^ t := Nat.pow_pos (by decide)
    have size : (2 ^ 53 * 10 ^ t).log2 = (10 ^ t).log2 + 53 := by
      rw [Nat.mul_comm, ← Nat.shiftLeft_eq, log2_shiftLeft positive]
    have value : ((2 ^ 53 * 10 ^ t : Nat) : ℚ) * 2 ^ (-53 : ℤ) = (10 ^ t : Nat) := by
      rw [Nat.cast_mul, Nat.cast_pow 2, Nat.cast_ofNat, mul_right_comm, ← zpow_natCast,
        ← zpow_add₀ two_ne_zero, show ((53 : ℕ) : ℤ) + -53 = 0 by decide, zpow_zero, one_mul]
    have inside : ((10 ^ t : Nat) : ℚ) < ceiling := by
      have inside : 10 ^ t < ceiling :=
        lt_of_le_of_lt (pow_le_pow_right₀ (by decide) ht) powers_checked.2.2.2.1
      exact_mod_cast inside
    obtain ⟨s', m, e, h, unpacked, bits, low, high, -⟩ := unpack_round (s := s)
      (m := 2 ^ 53 * 10 ^ t) (e := -53) (by omega) (by omega) (by rw [value]; exact inside)
    refine ⟨m, e, ⟨s', h, ?_⟩, bits, by omega, by omega⟩
    rw [rounds]
    exact unpacked
  · exact exists_parts_of_isAround (powers_checked.1 ⟨t, by omega⟩)

/-- A power of ten that is not one is at least eight. -/
theorem three_le_log2_power {t : Nat} (ht : 1 ≤ t) : 3 ≤ (10 ^ t).log2 := by
  have ten : 10 ^ 1 ≤ 10 ^ t := Nat.pow_le_pow_right (by decide) ht
  refine (Nat.le_log2 (by omega)).2 ?_
  omega

/-- A word is a number. -/
theorem isFinite_word {n : Nat} (hn : n < 2 ^ 64) : n.toUInt64.toFloat.isFinite = true := by
  rcases Nat.eq_zero_or_pos n with rfl | positive
  · rfl
  · obtain ⟨m, e, parts, -⟩ := exists_parts_word positive hn
    exact parts.isFinite

/-- The bits of a product of mantissas. -/
theorem log2_product {m m' : Nat} (hm : m.log2 = 52) (hm' : m'.log2 = 52) :
    104 ≤ (m * m').log2 ∧ (m * m').log2 ≤ 105 := by
  have positive {m : Nat} (h : m.log2 = 52) : m ≠ 0 := by
    rintro rfl
    exact absurd h (by decide)
  obtain ⟨lower, upper⟩ := (Nat.log2_eq_iff (positive hm)).1 hm
  obtain ⟨lower', upper'⟩ := (Nat.log2_eq_iff (positive hm')).1 hm'
  have nonzero : m * m' ≠ 0 := Nat.mul_ne_zero (positive hm) (positive hm')
  refine ⟨(Nat.le_log2 nonzero).2 ?_, Nat.le_of_lt_succ ((Nat.log2_lt nonzero).2 ?_)⟩
  · calc 2 ^ 104 = 2 ^ 52 * 2 ^ 52 := by decide
      _ ≤ m * m' := Nat.mul_le_mul lower lower'
  · calc m * m' < 2 ^ 53 * 2 ^ 53 := Nat.mul_lt_mul'' upper upper'
      _ = 2 ^ 106 := by decide

/-- What is checked for a power of ten holds of its parts. -/
theorem room_of_fitsPower {t m : Nat} {e : Int} (h : fitsPower t = true)
    (parts : Parts (Reading.powerOfTen t) m e) :
    0 ≤ e ∧ (min (highest / 10 ^ t) (10 ^ 17) * 2 ^ 53 +
      2 ^ (min (highest / 10 ^ t) (10 ^ 17)).log2) * (m * 2 ^ e.toNat) < ceiling * 2 ^ 53 := by
  obtain ⟨s, hm, parts⟩ := parts
  unfold fitsPower at h
  rw [parts] at h
  simp only [Bool.and_eq_true, decide_eq_true_eq] at h
  exact h.2

/-- The product of the doubles of a number and of such a power of ten is below the ceiling. -/
theorem value_lt {n t m m' c : Nat} {e e' : Int} (positive : 0 < n) (hn : n ≤ 10 ^ 17)
    (inside : n * 10 ^ t ≤ highest) (whole : 0 ≤ e')
    (room : (min (highest / 10 ^ t) (10 ^ 17) * 2 ^ 53 +
      2 ^ (min (highest / 10 ^ t) (10 ^ 17)).log2) * (m' * 2 ^ e'.toNat) < c * 2 ^ 53)
    (value : (m : ℚ) * 2 ^ e ≤ n + 2 ^ ((n.log2 : ℤ) - 53)) :
    ((m * m' : Nat) : ℚ) * 2 ^ (e + e') < c := by
  have limit : n ≤ min (highest / 10 ^ t) (10 ^ 17) :=
    Nat.le_min.2 ⟨(Nat.le_div_iff_mul_le (Nat.pow_pos (by decide))).2 inside, hn⟩
  generalize min (highest / 10 ^ t) (10 ^ 17) = l at limit room
  have bits : n.log2 ≤ l.log2 := (Nat.le_log2 (by omega)).2
    (Nat.le_trans (Nat.log2_self_le (Nat.ne_of_gt positive)) limit)
  have exact : (n * 2 ^ 53 + 2 ^ n.log2) * (m' * 2 ^ e'.toNat) < c * 2 ^ 53 := by
    refine Nat.lt_of_le_of_lt (Nat.mul_le_mul_right _ ?_) room
    exact Nat.add_le_add (Nat.mul_le_mul_right _ limit) (Nat.pow_le_pow_right (by decide) bits)
  have exact : ((n : ℚ) * 2 ^ 53 + 2 ^ n.log2) * (m' * 2 ^ e'.toNat) < c * 2 ^ 53 := by
    exact_mod_cast exact
  have power : (2 : ℚ) ^ e' = 2 ^ e'.toNat := by
    rw [← zpow_natCast, Int.toNat_of_nonneg whole]
  have scaled : ((n : ℚ) + 2 ^ ((n.log2 : ℤ) - 53)) * 2 ^ 53 = n * 2 ^ 53 + 2 ^ n.log2 := by
    rw [add_mul, ← zpow_natCast 2 53, ← zpow_add₀ two_ne_zero, ← zpow_natCast 2 n.log2]
    congr 2
    push_cast
    omega
  have powers (k : Nat) : (0 : ℚ) ≤ 2 ^ k := pow_nonneg (by decide) k
  have factor : (0 : ℚ) ≤ m' * 2 ^ e'.toNat := mul_nonneg (Nat.cast_nonneg m') (powers _)
  have bound := mul_le_mul_of_nonneg_right value factor
  refine lt_of_mul_lt_mul_right ?_ (powers 53)
  calc ((m * m' : Nat) : ℚ) * 2 ^ (e + e') * 2 ^ 53
      = (m : ℚ) * 2 ^ e * (m' * 2 ^ e'.toNat) * 2 ^ 53 := by
        rw [zpow_add₀ two_ne_zero, power]
        push_cast
        ring
    _ ≤ ((n : ℚ) + 2 ^ ((n.log2 : ℤ) - 53)) * (m' * 2 ^ e'.toNat) * 2 ^ 53 :=
        mul_le_mul_of_nonneg_right bound (powers 53)
    _ = ((n : ℚ) * 2 ^ 53 + 2 ^ n.log2) * (m' * 2 ^ e'.toNat) := by
        rw [mul_right_comm, scaled]
    _ < c * 2 ^ 53 := exact

/-- Zero is scaled to a zero. -/
theorem isFinite_zero_mul {y : Float} {m : Nat} {e : Int} (h : Parts y m e) :
    ((0 : Nat).toUInt64.toFloat * y).isFinite = true := by
  obtain ⟨s, hm, h⟩ := h
  have zero : (0 : Nat).toUInt64.toFloat.toModel.unpack = .zero .positive := rfl
  show (Float.Model.pack (UnpackedFloat.mul Format.binary64
    (0 : Nat).toUInt64.toFloat.toModel.unpack y.toModel.unpack)).isFinite = true
  rw [zero, h]
  exact isFinite_zero _

/-- A product near the largest double is one with a large power of ten. -/
theorem le_of_large {n t : Nat} (positive : 0 < n) (hn : n ≤ 10 ^ 17)
    (large : 1020 ≤ n.log2 + (10 ^ t).log2) : 291 ≤ t := by
  have few : n.log2 < 57 :=
    (Nat.log2_lt (Nat.ne_of_gt positive)).2 (Nat.lt_of_le_of_lt hn (by decide))
  by_contra less
  have bound {k : Nat} (h : 10 ^ 290 < 2 ^ k) : (10 ^ t).log2 < k :=
    (Nat.log2_lt (Nat.ne_of_gt (Nat.pow_pos (by decide)))).2
      (lt_of_le_of_lt (pow_le_pow_right₀ (by decide) (show t ≤ 290 by omega)) h)
  have bound := bound powers_checked.2.2.1
  omega

/-- A number of at most seventeen digits that is scaled up to at most the highest is a number. -/
theorem isFinite_scaled {n t : Nat} (hn : n ≤ 10 ^ 17) (ht : t ≤ 308)
    (inside : n * 10 ^ t ≤ highest) :
    (n.toUInt64.toFloat * Reading.powerOfTen t).isFinite = true := by
  have word : n < 2 ^ 64 := Nat.lt_of_le_of_lt hn (by decide)
  obtain ⟨m', e', power, bits', low', high'⟩ := exists_parts_power ht
  rcases Nat.eq_zero_or_pos n with rfl | positive
  · exact isFinite_zero_mul power
  obtain ⟨m, e, parts, bits, low, high, value⟩ := exists_parts_word positive word
  obtain ⟨s, product⟩ := mul_eq parts power
  obtain ⟨lower, upper⟩ := log2_product bits bits'
  unfold Float.isFinite
  rw [product]
  rcases Nat.lt_or_ge (n.log2 + (10 ^ t).log2) 1020 with small | large
  · exact isFinite_round _ (by omega) (by omega)
  · -- Only the largest powers of ten are left, and for each of them there is room enough.
    have top := le_of_large positive hn large
    have fits := powers_checked.2.1 ⟨t - 291, by omega⟩
    rw [show 291 + (t - 291) = t by omega] at fits
    obtain ⟨whole, room⟩ := room_of_fitsPower fits power
    have below := value_lt positive hn inside whole room value
    obtain ⟨s', m₂, e₂, h, unpacked, -⟩ := unpack_round (s := s) (m := m * m') (e := e + e')
      (by omega) (by omega) below
    unfold Float.Model.isFinite
    rw [unpacked]
    rfl

/-! ## What numerals stand for -/

/-- A number is scaled down to a number. -/
theorem isFinite_scaleDown {f : Float} {e : Nat} (hf : f.isFinite = true) (he : 1 ≤ e) :
    (Reading.scaleDown f e).isFinite = true := by
  have step {f : Float} {t : Nat} (hf : f.isFinite = true) (low : 1 ≤ t) (high : t ≤ 308) :
      (f / Reading.powerOfTen t).isFinite = true := by
    obtain ⟨m, e, parts, bits, lower, -⟩ := exists_parts_power high
    have large := three_le_log2_power low
    exact isFinite_div hf parts (by omega)
  induction e using Nat.strongRecOn generalizing f with
  | ind e ih =>
    rw [Reading.scaleDown]
    split
    · exact step hf he (by assumption)
    · split
      · exact hf
      · exact ih (e - 308) (by omega) (step hf (by decide) (by decide)) (by omega)

/-- A magnitude that is in range is a number. -/
theorem isFinite_magnitude {n : Nat} {e : Int} {f : Float} (hn : n ≤ Reading.maxSignificand)
    (h : Reading.magnitude? n e = some f) : f.isFinite = true := by
  have word : n.toUInt64.toFloat.isFinite = true :=
    isFinite_word (Nat.lt_of_le_of_lt hn (by decide))
  unfold Reading.magnitude? at h
  dsimp only at h
  split at h
  · cases h
    exact isFinite_scaleDown word (by omega)
  · split at h
    · split at h
      · cases h
      · rename_i inside
        cases h
        obtain ⟨m, e', parts, -⟩ := exists_parts_power (t := e.toNat) (by omega)
        exact isFinite_of_not (Bool.eq_false_iff.2 inside) (isNaN_mul word parts.isFinite)
    · split at h
      · cases h
        exact word
      · cases h

end TestChain.Double

namespace TestChain.Reading

/-- Digits that are read stay in 64 bits. -/
theorem significand_le {n : Nat} (hn : n ≤ maxSignificand) (s : List Char) :
    (significand n s).1 ≤ maxSignificand := by
  induction s generalizing n with
  | nil => exact hn
  | cons c s ih =>
    rw [significand]
    split
    · exact ih (by assumption)
    · exact hn

/-- A number with a sign is a number. -/
theorem isFinite_signed {negative : Bool} {f : Float} (h : f.isFinite = true) :
    (signed negative f).isFinite = true := by
  unfold signed
  split
  · exact Double.isFinite_neg h
  · exact h

/-- The digits of a numeral that are read, as a number, and the power of ten of the last. -/
def Numeral.mantissa (x : Numeral) : Nat × Int :=
  let whole := significand 0 x.whole
  match x.fraction with
  | none => (whole.1, whole.2.length)
  | some digits =>
    let both := significand whole.1 digits
    (both.1, whole.2.length - (digits.length - both.2.length : Nat))

/-- The double that a numeral stands for is made from its mantissa and its exponent. -/
theorem Numeral.float?_eq (x : Numeral) :
    x.float? = match x.exponent with
      | none => (magnitude? x.mantissa.1 x.mantissa.2).map (signed x.negative)
      | some (down, digits) =>
        if maxExponent < exponentOf digits then
          if x.mantissa.1 ≠ 0 && !down then none else some (signed x.negative 0)
        else (magnitude? x.mantissa.1 (x.mantissa.2 +
          if down then -(exponentOf digits : Int) else exponentOf digits)).map
            (signed x.negative) := by
  unfold Numeral.float? Numeral.mantissa
  cases x.fraction with
  | none => rfl
  | some digits => rfl

/-- The mantissa of a numeral is read into 64 bits. -/
theorem Numeral.mantissa_le (x : Numeral) : x.mantissa.1 ≤ maxSignificand := by
  have whole := significand_le (Nat.zero_le maxSignificand) x.whole
  unfold Numeral.mantissa
  cases x.fraction with
  | none => exact whole
  | some digits => exact significand_le whole digits

/-- The double that a numeral stands for is a number. -/
theorem isFinite_of_float? {x : Numeral} {f : Float} (h : x.float? = some f) :
    f.isFinite = true := by
  have scaled {e : Int} (h : (magnitude? x.mantissa.1 e).map (signed x.negative) = some f) :
      f.isFinite = true := by
    obtain ⟨g, hg, rfl⟩ := Option.map_eq_some_iff.1 h
    exact isFinite_signed (Double.isFinite_magnitude x.mantissa_le hg)
  rw [Numeral.float?_eq] at h
  split at h
  · exact scaled h
  · split at h
    · split at h
      · cases h
      · cases h
        exact isFinite_signed rfl
    · exact scaled h

/-- A whole number is no double. -/
theorem ofInt?_ne_float {i : Int} {v : Number} (h : Number.ofInt? i = some v) (f : Float) :
    v ≠ .float f := by
  unfold Number.ofInt? at h
  split at h
  · cases h
    exact fun h => nomatch h
  · cases h

/-- A double that a numeral stands for is a number. -/
theorem Spelled.isFinite {f : Float} (h : Spelled f) : f.isFinite = true := by
  obtain ⟨x, hx⟩ := h
  have read (hx : x.float?.map Number.float = some (.float f)) : f.isFinite = true := by
    obtain ⟨g, hg, h⟩ := Option.map_eq_some_iff.1 hx
    cases h
    exact isFinite_of_float? hg
  unfold Numeral.value? at hx
  split at hx
  · dsimp only at hx
    split at hx
    · cases hx
      rfl
    · split at hx
      · rename_i v hv
        split at hv
        · exact absurd (Option.some.inj hx) (ofInt?_ne_float hv f)
        · cases hv
      · exact read hx
  · exact read hx

end TestChain.Reading
