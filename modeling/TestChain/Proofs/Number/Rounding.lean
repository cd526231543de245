import Mathlib.Algebra.Order.Field.Power
import Mathlib.Data.Rat.Cast.Order
import Mathlib.Tactic.Linarith
import Mathlib.Tactic.Ring

/-!
# How doubles are rounded

A number is a mantissa times a power of two. It is rounded on the grid of the doubles around it
(`Double.grid`), and then once more, which matters only if the mantissa was rounded up to the next
power of two (`Double.roundWithAccuracy_eq`). What is packed into bits is unpacked as it was
(`Double.unpack_pack`). So a number that is not close to zero, and below half a last bit above the
largest double, is rounded to a double of 53 bits that is larger by at most half of its last bit
(`Double.unpack_round`).
-/

namespace TestChain.Double

open Float.Model Float.Model.UnpackedFloat

/-- Shifting divides the mantissa. -/
theorem mantissa_shift (em : ExtendedMantissa) (k : Nat) :
    (em >>> k).mantissa = em.mantissa / 2 ^ k := by
  induction k with
  | zero => exact (Nat.div_one _).symm
  | succ k ih =>
    show (em >>> k).mantissa / 2 = _
    rw [ih, Nat.div_div_eq_div_mul, Nat.pow_succ]

/-- A mantissa is rounded down, or up to the next one. -/
theorem roundedMantissa_bounds (em : ExtendedMantissa) :
    em.mantissa ≤ em.roundedMantissa ∧ em.roundedMantissa ≤ em.mantissa + 1 := by
  rcases em with ⟨m, _ | _, _ | _⟩
  · exact ⟨Nat.le_refl m, Nat.le_succ m⟩
  · exact ⟨Nat.le_refl m, Nat.le_succ m⟩
  · -- A tie is rounded to the even one of the two.
    show m ≤ m + m % 2 ∧ m + m % 2 ≤ m + 1
    omega
  · exact ⟨Nat.le_succ m, Nat.le_refl _⟩

/-- An exact mantissa is rounded up by at most half of what it is rounded to. -/
theorem roundedMantissa_shift_le (m k : Nat) :
    ((⟨m, false, false⟩ : ExtendedMantissa) >>> k).roundedMantissa * 2 ^ (k + 1) ≤
      2 * m + 2 ^ k := by
  cases k with
  | zero =>
    show m * 2 ^ 1 ≤ 2 * m + 2 ^ 0
    omega
  | succ k =>
    have quotient := mantissa_shift ⟨m, false, false⟩ k
    generalize hem : (⟨m, false, false⟩ : ExtendedMantissa) >>> k = em at quotient
    have shift : (⟨m, false, false⟩ : ExtendedMantissa) >>> (k + 1) = em.shiftRightOne := by
      rw [← hem]
      rfl
    -- The last bit that is shifted out decides: without it the number is rounded down.
    have half : em.shiftRightOne.roundedMantissa * 2 ≤ em.mantissa + 1 := by
      have bounds := roundedMantissa_bounds em.shiftRightOne
      have halved : em.shiftRightOne.mantissa = em.mantissa / 2 := rfl
      rcases Nat.mod_two_eq_zero_or_one em.mantissa with even | odd
      · have down : em.shiftRightOne.roundedMantissa = em.mantissa / 2 := by
          unfold ExtendedMantissa.shiftRightOne
          rw [even]
          cases em.roundBit || em.stickyBit
          · rfl
          · rfl
        omega
      · omega
    have floor : em.mantissa * 2 ^ k ≤ m := by
      rw [quotient]
      exact Nat.div_mul_le_self m (2 ^ k)
    rw [shift]
    calc em.shiftRightOne.roundedMantissa * 2 ^ (k + 1 + 1)
        = em.shiftRightOne.roundedMantissa * 2 * 2 ^ (k + 1) := by
          rw [Nat.pow_succ 2 (k + 1), Nat.mul_comm (2 ^ (k + 1)) 2, Nat.mul_assoc]
      _ ≤ (em.mantissa + 1) * 2 ^ (k + 1) := Nat.mul_le_mul_right _ half
      _ = 2 * (em.mantissa * 2 ^ k) + 2 ^ (k + 1) := by
          rw [Nat.succ_mul, Nat.pow_succ, Nat.mul_comm _ 2, Nat.mul_left_comm]
      _ ≤ 2 * m + 2 ^ (k + 1) := Nat.add_le_add_right (Nat.mul_le_mul_left 2 floor) _

/-- The exponent of the doubles around a number: each has 53 bits of mantissa, but for the smallest
ones. -/
def grid (m : Nat) (e : Int) : Int :=
  max ((m.log2 : Int) + e - 52) (-1074)

/-- A number is rounded to its grid. -/
theorem targetExponent_eq (m : Nat) (e : Int) :
    Format.binary64.targetExponent (totalExponent m e) = grid m e := by
  have bits : (Format.binary64.mantissaBits : Int) = 53 := rfl
  have least : Format.binary64.minExponent = -1074 := rfl
  unfold Format.targetExponent totalExponent grid
  rw [bits, least]
  omega

variable (s : Sign) (m : Nat) (e : Int)

/-- What is left of a mantissa on its grid has at most 53 bits. -/
theorem shifted_lt : m / 2 ^ (grid m e - e).toNat < 2 ^ 53 := by
  rw [Nat.div_lt_iff_lt_mul (Nat.two_pow_pos _), ← Nat.pow_add]
  refine Nat.lt_of_lt_of_le Nat.lt_log2_self (Nat.pow_le_pow_right (by decide) ?_)
  unfold grid
  omega

/-- The mantissa that a number is rounded to on its grid. -/
def rounded (m : Nat) (e : Int) (a : Accuracy) : Nat :=
  (ExtendedMantissa.ofMantissaAndAccuracy m a >>> (grid m e - e).toNat).roundedMantissa

/-- The mantissa is that of the number without the bits below the grid, or the next one. -/
theorem rounded_bounds (a : Accuracy) :
    m / 2 ^ (grid m e - e).toNat ≤ rounded m e a ∧ rounded m e a ≤ 2 ^ 53 := by
  have bounds := roundedMantissa_bounds
    (ExtendedMantissa.ofMantissaAndAccuracy m a >>> (grid m e - e).toNat)
  have given : (ExtendedMantissa.ofMantissaAndAccuracy m a).mantissa = m := by
    rcases a with _ | _ | _ | _
    all_goals rfl
  rw [mantissa_shift, given] at bounds
  have small := shifted_lt m e
  exact ⟨bounds.1, Nat.le_trans bounds.2 small⟩

/-- The mantissa has at most 54 bits. -/
theorem log2_rounded_le (a : Accuracy) : (rounded m e a).log2 ≤ 53 := by
  have bound := (rounded_bounds m e a).2
  rcases Nat.eq_zero_or_pos (rounded m e a) with zero | positive
  · rw [zero]
    decide
  · exact Nat.le_of_lt_succ ((Nat.log2_lt (Nat.ne_of_gt positive)).2 (by omega))

/-- An exact number is rounded up by at most half of its last bit. -/
theorem rounded_exact_le : rounded m e .exact * 2 ^ ((grid m e - e).toNat + 1) ≤
    2 * m + 2 ^ (grid m e - e).toNat :=
  roundedMantissa_shift_le m _

/-- A number that is rounded has the rounded mantissa. One of 54 bits is a power of two, and loses
its last zero. -/
theorem roundWithAccuracy_eq (a : Accuracy) :
    roundWithAccuracy Format.binary64 s m e a =
      if h : rounded m e a / 2 ^ ((rounded m e a).log2 - 52) = 0 then .zero s
      else .finite s (rounded m e a / 2 ^ ((rounded m e a).log2 - 52))
        (max e (grid m e) + ((rounded m e a).log2 - 52 : Nat)) (Nat.pos_of_ne_zero h) := by
  have start : e + ((grid m e - e).toNat : Int) = max e (grid m e) := by omega
  have low : -1074 ≤ max e (grid m e) := by
    unfold grid
    omega
  have first : shiftToTargetExponent Format.binary64 m e a =
      (ExtendedMantissa.ofMantissaAndAccuracy m a >>> (grid m e - e).toNat, max e (grid m e)) := by
    unfold shiftToTargetExponent shiftToExponent
    rw [targetExponent_eq]
    dsimp only
    rw [start]
  have second (r : Nat) : shiftToTargetExponent Format.binary64 r (max e (grid m e)) .exact =
      ((⟨r, false, false⟩ : ExtendedMantissa) >>> (r.log2 - 52),
        max e (grid m e) + (r.log2 - 52 : Nat)) := by
    have shift : (grid r (max e (grid m e)) - max e (grid m e)).toNat = r.log2 - 52 := by
      unfold grid at low ⊢
      omega
    unfold shiftToTargetExponent shiftToExponent
    rw [targetExponent_eq]
    dsimp only
    rw [shift]
    rfl
  unfold roundWithAccuracy
  rw [first]
  dsimp only
  rw [second]
  dsimp only
  rw [mantissa_shift]
  rfl

/-- A number is rounded to zero or to a number. -/
theorem roundWithAccuracy_cases (a : Accuracy) :
    roundWithAccuracy Format.binary64 s m e a = .zero s ∨
      ∃ h, roundWithAccuracy Format.binary64 s m e a =
        .finite s (rounded m e a / 2 ^ ((rounded m e a).log2 - 52))
          (max e (grid m e) + ((rounded m e a).log2 - 52 : Nat)) h := by
  rw [roundWithAccuracy_eq]
  by_cases zero : rounded m e a / 2 ^ ((rounded m e a).log2 - 52) = 0
  · rw [dif_pos zero]
    exact .inl rfl
  · rw [dif_neg zero]
    exact .inr ⟨Nat.pos_of_ne_zero zero, rfl⟩

/-- A number is rounded to the number with this mantissa and exponent if the mantissa is not
zero. -/
theorem roundWithAccuracy_eq_finite {a : Accuracy} {m' : Nat} {e' : Int} (h : 0 < m')
    (hm : rounded m e a / 2 ^ ((rounded m e a).log2 - 52) = m')
    (he : max e (grid m e) + ((rounded m e a).log2 - 52 : Nat) = e') :
    roundWithAccuracy Format.binary64 s m e a = .finite s m' e' h := by
  subst hm he
  rw [roundWithAccuracy_eq, dif_neg (Nat.ne_of_gt h)]

/-! ## Bits -/

/-- The exponent that is stored in the bits of a double. -/
abbrev exponentBits (b : BitVec 64) : Nat :=
  (@unpackExponent Format.binary64 b).toNat

/-- The bits of the mantissa that are stored in the bits of a double. -/
abbrev fractionBits (b : BitVec 64) : Nat :=
  (@unpackMantissa Format.binary64 b).toNat

/-- Numbers with the same sign, mantissa and exponent are the same. -/
theorem finite_congr {s : Sign} {m m' : Nat} {e e' : Int} {h : 0 < m} {h' : 0 < m'} (hm : m = m')
    (he : e = e') : UnpackedFloat.finite s m e h = .finite s m' e' h' := by
  subst hm he
  rfl

/-- Bits with the largest exponent are not those of a number. -/
theorem isFinite_unpack_of_eq {b : BitVec 64} (h : exponentBits b = 2047) :
    (UnpackedFloat.unpack Format.binary64 b).isFinite = false := by
  have largest : @unpackExponent Format.binary64 b = -1#_ := BitVec.eq_of_toNat_eq h
  unfold UnpackedFloat.unpack
  dsimp only
  rw [if_pos largest]
  split
  · rfl
  · rfl

/-- Bits with the least exponent are those of a zero or of a number with the least exponent. -/
theorem unpack_of_eq_zero {b : BitVec 64} (h : exponentBits b = 0) :
    (fractionBits b = 0 ∧ ∃ s, UnpackedFloat.unpack Format.binary64 b = .zero s) ∨
      ∃ s hm, UnpackedFloat.unpack Format.binary64 b = .finite s (fractionBits b) (-1074) hm := by
  have least : @unpackExponent Format.binary64 b = 0#_ := BitVec.eq_of_toNat_eq h
  have other : @unpackExponent Format.binary64 b ≠ -1#_ := by
    rw [least]
    decide
  unfold UnpackedFloat.unpack
  dsimp only
  rw [if_neg other, if_pos least]
  by_cases zero : @unpackMantissa Format.binary64 b = 0#_
  · rw [dif_pos zero]
    exact .inl ⟨congrArg BitVec.toNat zero, _, rfl⟩
  · rw [dif_neg zero]
    have exponent : ((@unpackExponent Format.binary64 b).toNat : Int) -
        (Format.binary64.exponentBias + Format.binary64.mantissaBitsWithoutImplicit) + 1 =
          -1074 := by
      rw [least]
      rfl
    have positive : 0 < fractionBits b :=
      Nat.pos_of_ne_zero fun h => zero (BitVec.eq_of_toNat_eq h)
    exact .inr ⟨_, positive, finite_congr rfl exponent⟩

/-- Bits with another exponent are those of a number of 53 bits. -/
theorem unpack_of_ne {b : BitVec 64} (least : exponentBits b ≠ 0)
    (largest : exponentBits b ≠ 2047) : ∃ s hm, UnpackedFloat.unpack Format.binary64 b =
      .finite s (2 ^ 52 + fractionBits b) (exponentBits b - 1075) hm := by
  have not_least : @unpackExponent Format.binary64 b ≠ 0#_ := fun h => by
    exact least (congrArg BitVec.toNat h)
  have not_largest : @unpackExponent Format.binary64 b ≠ -1#_ := fun h => by
    exact largest (congrArg BitVec.toNat h)
  have mantissa : (1#1 ++ @unpackMantissa Format.binary64 b).toNat =
      2 ^ 52 + fractionBits b := by
    have small : fractionBits b < 2 ^ 52 := BitVec.isLt _
    rw [BitVec.toNat_append, ← Nat.shiftLeft_add_eq_or_of_lt small]
    rfl
  unfold UnpackedFloat.unpack
  dsimp only
  rw [if_neg not_largest, if_neg not_least]
  exact ⟨Sign.ofBitVec (@unpackSign Format.binary64 b), by omega, finite_congr mantissa rfl⟩

/-- The exponent that is stored for a number on the grid. -/
theorem stored_exponent {e : Int} (low : -1074 ≤ e) (high : e ≤ 971) :
    ¬2 ^ Format.binary64.exponentBits ≤ (e + Format.binary64.exponentBias +
        Format.binary64.mantissaBitsWithoutImplicit).toNat + 1 ∧
      (BitVec.ofNat Format.binary64.exponentBits (e + Format.binary64.exponentBias +
        Format.binary64.mantissaBitsWithoutImplicit).toNat).toNat = (e + 1075).toNat := by
  have bias : (Format.binary64.exponentBias : Int) = 1023 := rfl
  have bits : (Format.binary64.mantissaBitsWithoutImplicit : Int) = 52 := rfl
  have sum : e + 1023 + 52 = e + 1075 := by omega
  rw [bias, bits, sum, BitVec.toNat_ofNat]
  refine ⟨?_, Nat.mod_eq_of_lt ?_⟩
  · show ¬2 ^ 11 ≤ _
    omega
  · show _ < 2 ^ 11
    omega

/-- A number of 53 bits is unpacked as it was packed. -/
theorem unpack_pack {s : Sign} {m : Nat} {e : Int} (hm : 0 < m) (bits : m.log2 = 52)
    (low : -1074 ≤ e) (high : e ≤ 971) :
    ∃ s', (Float.Model.pack (.finite s m e hm)).unpack = .finite s' m e hm := by
  obtain ⟨inside, stored⟩ := stored_exponent low high
  have normal : m.log2 + 1 = Format.binary64.mantissaBits := by
    rw [bits]
    rfl
  obtain ⟨lower, upper⟩ := (Nat.log2_eq_iff (Nat.ne_of_gt hm)).1 bits
  have packed : UnpackedFloat.pack Format.binary64 (.finite s m e hm) =
      packComponents Format.binary64 s (BitVec.ofNat _ (e + Format.binary64.exponentBias +
        Format.binary64.mantissaBitsWithoutImplicit).toNat) (BitVec.ofNat _ m) := by
    unfold UnpackedFloat.pack
    dsimp only
    rw [if_neg inside, if_pos normal]
  have exponent : exponentBits (UnpackedFloat.pack Format.binary64 (.finite s m e hm)) =
      (e + 1075).toNat := by
    unfold exponentBits
    rw [packed, unpackExponent_packComponents, stored]
  have fraction : fractionBits (UnpackedFloat.pack Format.binary64 (.finite s m e hm)) =
      m - 2 ^ 52 := by
    unfold fractionBits
    rw [packed, unpackMantissa_packComponents, BitVec.toNat_ofNat]
    show m % 2 ^ 52 = _
    omega
  obtain ⟨s', _, h⟩ := unpack_of_ne (by omega) (by omega) (b :=
    UnpackedFloat.pack Format.binary64 (.finite s m e hm))
  exact ⟨s', h.trans (finite_congr (by omega) (by omega))⟩

/-- A number on the grid is unpacked as a number. -/
theorem isFinite_pack {s : Sign} {m : Nat} {e : Int} (hm : 0 < m) (low : -1074 ≤ e)
    (high : e ≤ 971) : (Float.Model.pack (.finite s m e hm)).isFinite = true := by
  by_cases bits : m.log2 = 52
  · obtain ⟨s', h⟩ := unpack_pack hm bits low high (s := s)
    unfold Float.Model.isFinite
    rw [h]
    rfl
  · obtain ⟨inside, -⟩ := stored_exponent low high
    have other : m.log2 + 1 ≠ Format.binary64.mantissaBits := fun h => by
      have : Format.binary64.mantissaBits = 53 := rfl
      omega
    have exponent : exponentBits (UnpackedFloat.pack Format.binary64 (.finite s m e hm)) = 0 := by
      unfold exponentBits UnpackedFloat.pack
      dsimp only
      rw [if_neg inside, if_neg other, unpackExponent_packComponents]
      rfl
    show (UnpackedFloat.unpack Format.binary64 (UnpackedFloat.pack Format.binary64
      (.finite s m e hm))).isFinite = true
    rcases unpack_of_eq_zero exponent with ⟨-, s', h⟩ | ⟨s', _, h⟩
    · rw [h]
      rfl
    · rw [h]
      rfl

/-- No number is unpacked as something else than a number or an infinity. -/
theorem isNaN_pack {s : Sign} {m : Nat} {e : Int} (hm : 0 < m) (low : -1074 ≤ e) :
    (Float.Model.pack (.finite s m e hm)).isNaN = false := by
  by_cases high : e ≤ 971
  · have finite := isFinite_pack hm low high (s := s)
    unfold Float.Model.isFinite at finite
    unfold Float.Model.isNaN
    cases h : (Float.Model.pack (.finite s m e hm)).unpack with
    | notANumber =>
      rw [h] at finite
      cases finite
    | infinity | zero | finite => rfl
  · have outside : 2 ^ Format.binary64.exponentBits ≤ (e + Format.binary64.exponentBias +
        Format.binary64.mantissaBitsWithoutImplicit).toNat + 1 := by
      have bias : (Format.binary64.exponentBias : Int) = 1023 := rfl
      have bits : (Format.binary64.mantissaBitsWithoutImplicit : Int) = 52 := rfl
      rw [bias, bits]
      show 2 ^ 11 ≤ _
      omega
    show (UnpackedFloat.unpack Format.binary64 (UnpackedFloat.pack Format.binary64
      (.finite s m e hm))).isNaN = false
    unfold UnpackedFloat.pack
    dsimp only
    rw [if_pos outside]
    cases s
    · rfl
    · rfl

/-! ## Rounding to doubles -/

/-- A number of a moderate size is rounded to a number. -/
theorem isFinite_round {s : Sign} {m : Nat} {e : Int} (a : Accuracy) (he : e ≤ 970)
    (hm : m.log2 + e ≤ 1022) :
    (Float.Model.pack (roundWithAccuracy Format.binary64 s m e a)).isFinite = true := by
  obtain zero | ⟨positive, finite⟩ := roundWithAccuracy_cases s m e a
  · rw [zero]
    cases s
    · rfl
    · rfl
  · have small := log2_rounded_le m e a
    rw [finite]
    refine isFinite_pack _ ?_ ?_
    · unfold grid
      omega
    · unfold grid
      omega

/-- Nothing but a number or an infinity is rounded to. -/
theorem isNaN_round {s : Sign} (m : Nat) (e : Int) (a : Accuracy) :
    (Float.Model.pack (roundWithAccuracy Format.binary64 s m e a)).isNaN = false := by
  obtain zero | ⟨positive, finite⟩ := roundWithAccuracy_cases s m e a
  · rw [zero]
    cases s
    · rfl
    · rfl
  · rw [finite]
    refine isNaN_pack _ ?_
    unfold grid
    omega

/-- A number that is exact on its grid is rounded up by at most half of its last bit. -/
theorem rounded_mul_le {m : Nat} {e : Int} (he : e ≤ grid m e) :
    (rounded m e .exact : ℚ) * 2 ^ grid m e ≤ m * 2 ^ e + 2 ^ (grid m e - 1) := by
  obtain ⟨k, hk⟩ : ∃ k : Nat, grid m e = e + k := ⟨(grid m e - e).toNat, by omega⟩
  have bound := rounded_exact_le m e
  rw [show (grid m e - e).toNat = k by omega] at bound
  have bound' : (rounded m e .exact : ℚ) * 2 ^ (k + 1) ≤ 2 * m + 2 ^ k := by exact_mod_cast bound
  have unit : (0 : ℚ) < 2 ^ (e - 1) := zpow_pos (by decide) _
  have scaled := mul_le_mul_of_nonneg_right bound' unit.le
  have whole : (2 : ℚ) ^ (k + 1) * 2 ^ (e - 1) = 2 ^ grid m e := by
    rw [← zpow_natCast, ← zpow_add₀ two_ne_zero, hk]
    congr 1
    push_cast
    omega
  have half : (2 : ℚ) ^ k * 2 ^ (e - 1) = 2 ^ (grid m e - 1) := by
    rw [← zpow_natCast, ← zpow_add₀ two_ne_zero, hk]
    congr 1
    omega
  have double : 2 * (2 : ℚ) ^ (e - 1) = 2 ^ e := by
    rw [← zpow_one_add₀ two_ne_zero]
    congr 1
    omega
  calc (rounded m e .exact : ℚ) * 2 ^ grid m e
      = rounded m e .exact * 2 ^ (k + 1) * 2 ^ (e - 1) := by rw [mul_assoc, whole]
    _ ≤ (2 * m + 2 ^ k) * 2 ^ (e - 1) := scaled
    _ = m * (2 * 2 ^ (e - 1)) + 2 ^ k * 2 ^ (e - 1) := by ring
    _ = m * 2 ^ e + 2 ^ (grid m e - 1) := by rw [double, half]

/-- What lies half a last bit above the largest double. -/
def ceiling : Nat := (2 ^ 54 - 1) * 2 ^ 970

/-- The next double would be the next power of two. -/
theorem ceiling_add : ceiling + 2 ^ 970 = 2 ^ (54 + 970) := by
  refine Eq.trans ?_ (pow_add 2 54 970).symm
  unfold ceiling
  generalize 2 ^ 970 = p
  omega

/-- Most powers of two are below the ceiling. -/
theorem two_pow_lt_ceiling {k : Nat} (hk : k ≤ 970) : 2 ^ k < ceiling := by
  have small : 2 ^ k ≤ 2 ^ 970 := pow_le_pow_right₀ (by decide) hk
  have positive : 0 < 2 ^ k := Nat.two_pow_pos k
  unfold ceiling
  generalize 2 ^ 970 = p at small
  omega

/-- A number below the ceiling has at most 1024 bits before the point. -/
theorem log2_add_lt {m : Nat} {e : Int} (hm : m ≠ 0) (high : (m : ℚ) * 2 ^ e < ceiling) :
    m.log2 + e < 1024 := by
  have first : (2 : ℚ) ^ m.log2 ≤ m := by exact_mod_cast Nat.log2_self_le hm
  have limit : (ceiling : ℚ) ≤ 2 ^ (1024 : ℤ) := by
    have sum := congrArg (Nat.cast : ℕ → ℚ) ceiling_add
    rw [Nat.cast_add, Nat.cast_pow, Nat.cast_pow, Nat.cast_ofNat] at sum
    rw [zpow_ofNat, show 1024 = 54 + 970 from rfl, ← sum]
    exact le_add_of_nonneg_right (pow_nonneg (by decide) 970)
  have power : (2 : ℚ) ^ (m.log2 + e) < 2 ^ (1024 : ℤ) := by
    calc (2 : ℚ) ^ (m.log2 + e) = 2 ^ m.log2 * 2 ^ e := by
          rw [zpow_add₀ two_ne_zero, zpow_natCast]
      _ ≤ m * 2 ^ e := mul_le_mul_of_nonneg_right first (zpow_pos (by decide) e).le
      _ < ceiling := high
      _ ≤ 2 ^ (1024 : ℤ) := limit
  exact (zpow_lt_zpow_iff_right₀ (by decide)).1 power

section Exact

variable {s : Sign} {m : Nat} {e : Int} (he : e ≤ grid m e)

include he

/-- An exact number whose mantissa is rounded to 53 bits is rounded to this mantissa. -/
theorem unpack_round_of_lt (high : grid m e ≤ 971) (lower : 2 ^ 52 ≤ rounded m e .exact)
    (upper : rounded m e .exact < 2 ^ 53) :
    ∃ s' h, (Float.Model.pack (roundWithAccuracy Format.binary64 s m e .exact)).unpack =
      .finite s' (rounded m e .exact) (grid m e) h := by
  have positive : 0 < rounded m e .exact := by omega
  have size : (rounded m e .exact).log2 = 52 := (Nat.log2_eq_iff (by omega)).2 ⟨lower, upper⟩
  have finite : roundWithAccuracy Format.binary64 s m e .exact =
      .finite s (rounded m e .exact) (grid m e) positive :=
    roundWithAccuracy_eq_finite s m e positive
      (by rw [size, Nat.sub_self, Nat.pow_zero, Nat.div_one]) (by rw [size]; omega)
  obtain ⟨s', unpacked⟩ := unpack_pack (s := s) positive size (Int.le_max_right _ _) high
  rw [finite]
  exact ⟨s', positive, unpacked⟩

/-- An exact number whose mantissa is rounded up to the next power of two is rounded to this power,
and the exponent is the next one. -/
theorem unpack_round_of_eq (high : grid m e + 1 ≤ 971) (upper : rounded m e .exact = 2 ^ 53) :
    ∃ s' h, (Float.Model.pack (roundWithAccuracy Format.binary64 s m e .exact)).unpack =
      .finite s' (2 ^ 52) (grid m e + 1) h := by
  have positive : 0 < 2 ^ 52 := by decide
  have extra : (2 ^ 53 : Nat).log2 - 52 = 1 := by decide
  have low : -1074 ≤ grid m e := Int.le_max_right _ _
  have finite : roundWithAccuracy Format.binary64 s m e .exact =
      .finite s (2 ^ 52) (grid m e + 1) positive :=
    roundWithAccuracy_eq_finite s m e positive (by rw [upper]; decide)
      (by rw [upper, extra]; omega)
  obtain ⟨s', unpacked⟩ := unpack_pack (s := s) positive (by decide) (by omega) high
  rw [finite]
  exact ⟨s', positive, unpacked⟩

/-- On the last grid the mantissa of an exact number below the ceiling is not rounded up to the next
power of two. -/
theorem rounded_ne_of_lt (high : (m : ℚ) * 2 ^ e < ceiling) (last : grid m e = 971) :
    rounded m e .exact ≠ 2 ^ 53 := by
  intro upper
  have value := rounded_mul_le he
  rw [upper, last, show (971 : ℤ) - 1 = (970 : ℕ) by decide, show (971 : ℤ) = (971 : ℕ) by decide,
    zpow_natCast, zpow_natCast] at value
  have room : ceiling + 2 ^ 970 = 2 ^ 53 * 2 ^ 971 := by
    rw [ceiling_add, ← Nat.pow_add]
  have room := congrArg (Nat.cast : ℕ → ℚ) room
  rw [Nat.cast_add, Nat.cast_mul, Nat.cast_pow 2 970, Nat.cast_pow 2 971, Nat.cast_ofNat] at room
  rw [← room] at value
  exact absurd (lt_of_lt_of_le (add_lt_add_left high _) value) (lt_irrefl _)

end Exact

/-- An exact number below the ceiling, but not too close to zero, is rounded to a number of 53 bits
that is larger by at most half of its last bit. -/
theorem unpack_round {s : Sign} {m : Nat} {e : Int} (bits : 52 ≤ m.log2)
    (low : -1022 ≤ m.log2 + e) (high : (m : ℚ) * 2 ^ e < ceiling) :
    ∃ s' m' e' h, (Float.Model.pack (roundWithAccuracy Format.binary64 s m e .exact)).unpack =
        .finite s' m' e' h ∧ m'.log2 = 52 ∧ m.log2 + e ≤ 52 + e' ∧ 52 + e' ≤ m.log2 + e + 1 ∧
      (m' : ℚ) * 2 ^ e' ≤ m * 2 ^ e + 2 ^ (m.log2 + e - 53) := by
  have hm : m ≠ 0 := by
    rintro rfl
    exact absurd bits (by decide)
  have hgrid : grid m e = m.log2 + e - 52 := by
    unfold grid
    omega
  have he : e ≤ grid m e := by omega
  have top := log2_add_lt hm high
  have value := rounded_mul_le he
  rw [show grid m e - 1 = m.log2 + e - 53 by omega] at value
  obtain ⟨lower, upper⟩ := rounded_bounds m e .exact
  have lower : 2 ^ 52 ≤ rounded m e .exact := by
    refine Nat.le_trans ((Nat.le_div_iff_mul_le (Nat.two_pow_pos _)).2 ?_) lower
    rw [← Nat.pow_add, show 52 + (grid m e - e).toNat = m.log2 by omega]
    exact Nat.log2_self_le hm
  rcases Nat.lt_or_eq_of_le upper with upper | upper
  · obtain ⟨s', h, unpacked⟩ := unpack_round_of_lt he (by omega) lower upper (s := s)
    exact ⟨s', _, _, h, unpacked, (Nat.log2_eq_iff (by omega)).2 ⟨lower, upper⟩, by omega,
      by omega, value⟩
  · have inside : grid m e ≠ 971 := fun last => rounded_ne_of_lt he high last upper
    obtain ⟨s', h, unpacked⟩ := unpack_round_of_eq he (by omega) upper (s := s)
    have power : ((2 ^ 52 : ℕ) : ℚ) * 2 ^ (grid m e + 1) = (2 ^ 53 : ℕ) * 2 ^ grid m e := by
      rw [zpow_add_one₀ two_ne_zero, Nat.pow_succ 2 52, Nat.cast_mul, Nat.cast_ofNat (n := 2)]
      ring
    refine ⟨s', _, _, h, unpacked, by decide, by omega, by omega, ?_⟩
    rw [power, ← upper]
    exact value

end TestChain.Double
