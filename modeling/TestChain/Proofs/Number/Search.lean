import TestChain.Proofs.Number.Finite
import TestChain.Proofs.Number.Length

/-!
# The digits of a double can be scaled

What the search finds for a double lies between the midpoints to its neighbours
(`Shortest.between_of_roundsTo`), and it has at most seventeen digits, because the guess of the
exponent of the first digit is good enough (`Shortest.lt_leadingExponent`). So for every double but
the largest the digits stand for at most the number half a last bit below the largest double, and
scaling them up is not refused (`Shortest.exists_magnitude`); for the largest one this is checked
(`Shortest.guesses_checked`). Hence the digits that are written of any double that is a number are
in range (`Shortest.exists_digits`).
-/

namespace TestChain.Shortest

variable {b : Binary} {c : Nat} {e : Int}

/-- The parts of a number that is scaled by a power of two. -/
theorem scaled_of_nonneg (n : Nat) (h : 0 ≤ e) : scaled n e = (n * 2 ^ e.toNat, 1) :=
  if_pos h

/-- The parts of a number that is scaled by the inverse of a power of two. -/
theorem scaled_of_neg (n : Nat) (h : e < 0) : scaled n e = (n, 2 ^ (-e).toNat) :=
  if_neg (by omega)

/-- A number is scaled by the unit. -/
theorem scaled_eq (n : Nat) (e : Int) :
    (scaled n e).1 = n * (scaled 1 e).1 ∧ 0 < (scaled 1 e).1 := by
  rcases Int.lt_or_le e 0 with negative | nonneg
  · rw [scaled_of_neg _ negative, scaled_of_neg _ negative]
    exact ⟨(Nat.mul_one n).symm, Nat.one_pos⟩
  · rw [scaled_of_nonneg _ nonneg, scaled_of_nonneg _ nonneg, Nat.one_mul]
    exact ⟨rfl, Nat.two_pow_pos _⟩

/-- The denominator of a scaled number is not zero. -/
theorem den_pos (n : Nat) (e : Int) : 0 < (scaled n e).2 := by
  unfold scaled
  split
  · exact Nat.one_pos
  · exact Nat.pow_pos (by decide)

/-- A number that is at most a power of two has at most one bit more than the power says. -/
theorem log2_le {n k : Nat} (positive : 0 < n) (h : n ≤ 2 ^ k) : n.log2 ≤ k :=
  Nat.le_of_lt_succ ((Nat.log2_lt (Nat.ne_of_gt positive)).2
    (Nat.lt_of_le_of_lt h (Nat.pow_lt_pow_right (by decide) (Nat.lt_succ_self k))))

/-- A decimal and the power of ten that divides it, over the denominator of a double. -/
def decimal (b : Binary) (c : Nat) (e : Int) : Nat × Nat :=
  if 0 ≤ e then (4 * c * Nat.pow 10 e.toNat * (scaled b.mantissa b.exponent).2, 1)
  else (4 * c * (scaled b.mantissa b.exponent).2, Nat.pow 10 (-e).toNat)

/-- The midpoint below a double, over the denominator of the double. -/
def midpointBelow (b : Binary) : Nat :=
  4 * (scaled b.mantissa b.exponent).1 -
    (if b.lowerCloser then (scaled 1 b.exponent).1 else 2 * (scaled 1 b.exponent).1)

/-- The midpoint above a double, over the denominator of the double. -/
def midpointAbove (b : Binary) : Nat :=
  4 * (scaled b.mantissa b.exponent).1 + 2 * (scaled 1 b.exponent).1

/-- What rounds to a double lies between the midpoints to its neighbours. -/
theorem between_of_roundsTo (h : roundsTo b c e = true) :
    midpointBelow b * (decimal b c e).2 ≤ (decimal b c e).1 ∧
      (decimal b c e).1 ≤ midpointAbove b * (decimal b c e).2 := by
  have h : (if b.mantissa % 2 = 0 then
      decide (midpointBelow b * (decimal b c e).2 ≤ (decimal b c e).1) &&
        decide ((decimal b c e).1 ≤ midpointAbove b * (decimal b c e).2)
    else decide (midpointBelow b * (decimal b c e).2 < (decimal b c e).1) &&
      decide ((decimal b c e).1 < midpointAbove b * (decimal b c e).2)) = true := h
  split at h
  · simp only [Bool.and_eq_true, decide_eq_true_eq] at h
    exact h
  · simp only [Bool.and_eq_true, decide_eq_true_eq] at h
    exact ⟨Nat.le_of_lt h.1, Nat.le_of_lt h.2⟩

/-- What rounds to a double is not zero. -/
theorem pos_of_roundsTo (hm : 0 < b.mantissa) (h : roundsTo b c e = true) : 0 < c := by
  obtain ⟨low, -⟩ := between_of_roundsTo h
  obtain ⟨hnum, hunit⟩ := scaled_eq b.mantissa b.exponent
  have num : (scaled 1 b.exponent).1 ≤ (scaled b.mantissa b.exponent).1 := by
    rw [hnum]
    exact Nat.le_mul_of_pos_left _ hm
  have positive : 0 < midpointBelow b := by
    unfold midpointBelow
    split
    · omega
    · omega
  have scale : 0 < (decimal b c e).2 := by
    unfold decimal
    split
    · exact Nat.one_pos
    · exact Nat.pow_pos (by decide)
  have value : 0 < (decimal b c e).1 := Nat.lt_of_lt_of_le (Nat.mul_pos positive scale) low
  refine Nat.pos_of_ne_zero ?_
  rintro rfl
  refine absurd value ?_
  unfold decimal
  split
  · simp
  · simp

/-- Small numbers do not round to the largest double. -/
theorem le_highest {n : Nat} (hn : n ≤ 10 ^ 17) : n ≤ Double.highest := by
  have large : 2 ^ 3 ≤ 2 ^ 970 := pow_le_pow_right₀ (by decide) (by decide)
  unfold Double.highest
  generalize 2 ^ 970 = p at large
  omega

/-- A power of two is at most twice the power before the next one. -/
theorem two_pow_le {n k : Nat} (h : n ≤ k + 1) : 2 ^ n ≤ 2 ^ k * 2 := by
  rw [← pow_succ]
  exact pow_le_pow_right₀ (by decide) h

/-- The midpoint above a double that is not the largest is at most the highest number that does not
round to the largest. -/
theorem midpointAbove_le (hm : b.mantissa < 2 ^ 53) (hE : b.exponent ≤ 971)
    (other : b.mantissa + 1 < 2 ^ 53 ∨ b.exponent ≤ 970) (nonneg : 0 ≤ b.exponent) :
    midpointAbove b ≤ 4 * Double.highest := by
  have above : midpointAbove b = (4 * b.mantissa + 2) * 2 ^ b.exponent.toNat := by
    unfold midpointAbove
    rw [scaled_of_nonneg _ nonneg, scaled_of_nonneg _ nonneg, Nat.one_mul, Nat.add_mul,
      Nat.mul_assoc]
  rw [above]
  unfold Double.highest
  rcases other with smaller | lower
  · have power : 2 ^ b.exponent.toNat ≤ 2 ^ 970 * 2 := two_pow_le (by omega)
    generalize 2 ^ 970 = p at power
    calc (4 * b.mantissa + 2) * 2 ^ b.exponent.toNat ≤ (2 ^ 55 - 6) * (p * 2) :=
          Nat.mul_le_mul (by omega) power
      _ = 4 * ((2 ^ 54 - 3) * p) := by omega
  · have power : 2 ^ b.exponent.toNat ≤ 2 ^ 970 := pow_le_pow_right₀ (by decide) (by omega)
    generalize 2 ^ 970 = p at power
    calc (4 * b.mantissa + 2) * 2 ^ b.exponent.toNat ≤ (2 ^ 55 - 2) * p :=
          Nat.mul_le_mul (by omega) power
      _ ≤ 4 * ((2 ^ 54 - 3) * p) := by omega

/-- A whole decimal that rounds to a double other than the largest is at most the highest number
that does not round to the largest. -/
theorem mul_le_highest (hm : b.mantissa < 2 ^ 53) (hE : b.exponent ≤ 971)
    (other : b.mantissa + 1 < 2 ^ 53 ∨ b.exponent ≤ 970) (h : roundsTo b c e = true)
    (he : 0 ≤ e) : c * 10 ^ e.toNat ≤ Double.highest := by
  have high := (between_of_roundsTo h).2
  unfold decimal at high
  rw [if_pos he, Nat.mul_one] at high
  have value : 4 * (c * 10 ^ e.toNat) ≤
      4 * c * Nat.pow 10 e.toNat * (scaled b.mantissa b.exponent).2 := by
    rw [← Nat.mul_assoc]
    exact Nat.le_mul_of_pos_right _ (den_pos _ _)
  have bound := Nat.le_trans value high
  rcases Int.lt_or_le b.exponent 0 with negative | nonneg
  · -- A double below one is not scaled up.
    have above : midpointAbove b = 4 * b.mantissa + 2 := by
      unfold midpointAbove
      rw [scaled_of_neg _ negative, scaled_of_neg _ negative]
      rfl
    exact le_highest (by omega)
  · have limit := midpointAbove_le hm hE other nonneg
    exact Nat.le_of_mul_le_mul_left (Nat.le_trans bound limit) (by decide)

/-! ## The number of digits -/

/-- Whether the guess of the exponent of the first digit, from the number of bits before the point
or after it, is too low by less than two. -/
def isNear (k : Nat) : Bool :=
  2 ^ (k + 1) ≤ 10 ^ (k * 30103 / 100000 + 2) &&
    2 * 10 ^ ((k * 30103 + 99999) / 100000) ≤ 10 ^ 2 * 2 ^ k

/-- What is found by evaluation: for the doubles the guess is so good, and the largest one has
seventeen digits, which are in range. -/
theorem guesses_checked :
    (∀ k : Fin 1100, isNear k = true) ∧
      ∀ closer : Bool, search ⟨2 ^ 53 - 1, 971, closer⟩ (leadingExponent
          (scaled (2 ^ 53 - 1) 971).1 (scaled (2 ^ 53 - 1) 971).2) 1 16 = (17976931348623157, 292) ∧
        (Reading.magnitude? 17976931348623157 292).isSome = true := by
  decide +kernel

/-- The guess of an exponent is too low by less than two. -/
theorem two_zpow_le {d : Int} (low : -1100 < d) (high : d < 1100) :
    (2 : ℚ) ^ (d + 1) ≤ 10 ^ (d * 30103 / 100000 + 2) := by
  have near := guesses_checked.1 ⟨d.natAbs, by omega⟩
  unfold isNear at near
  simp only [Bool.and_eq_true, decide_eq_true_eq] at near
  rcases Int.lt_or_le d 0 with negative | nonneg
  · have places : d * 30103 / 100000 + 2 =
        (2 : ℕ) - (((d.natAbs * 30103 + 99999) / 100000 : ℕ) : ℤ) := by omega
    have bits : d + 1 = (1 : ℕ) - (d.natAbs : ℤ) := by omega
    have bound : (2 : ℚ) * 10 ^ ((d.natAbs * 30103 + 99999) / 100000) ≤ 10 ^ 2 * 2 ^ d.natAbs := by
      exact_mod_cast near.2
    rw [places, bits, zpow_sub₀ two_ne_zero, zpow_sub₀ (by decide), zpow_natCast, zpow_natCast,
      zpow_natCast, zpow_natCast, pow_one]
    exact (div_le_div_iff₀ (pow_pos (by decide) _) (pow_pos (by decide) _)).2 bound
  · have places : d * 30103 / 100000 + 2 = ((d.natAbs * 30103 / 100000 + 2 : ℕ) : ℤ) := by omega
    have bits : d + 1 = ((d.natAbs + 1 : ℕ) : ℤ) := by omega
    rw [places, bits, zpow_natCast, zpow_natCast]
    exact_mod_cast near.1

/-- Whether a power of ten is at most a fraction. -/
def atLeast (num den : Nat) (e : Int) : Bool :=
  if 0 ≤ e then den * Nat.pow 10 e.toNat ≤ num else den ≤ num * Nat.pow 10 (-e).toNat

/-- A fraction is below a power of ten that is not at most the fraction. -/
theorem lt_of_atLeast {num den : Nat} (h : atLeast num den e = false) :
    (num : ℚ) < den * 10 ^ e := by
  unfold atLeast at h
  split at h
  · rename_i nonneg
    have below : num < den * 10 ^ e.toNat := Nat.lt_of_not_le (of_decide_eq_false h)
    have power : (10 : ℚ) ^ e = 10 ^ e.toNat := by
      rw [← zpow_natCast, Int.toNat_of_nonneg nonneg]
    rw [power]
    exact_mod_cast below
  · rename_i negative
    have below : num * 10 ^ (-e).toNat < den := Nat.lt_of_not_le (of_decide_eq_false h)
    have below : (num : ℚ) * 10 ^ (-e).toNat < den := by exact_mod_cast below
    have power : (10 : ℚ) ^ e = (10 ^ (-e).toNat)⁻¹ := by
      rw [← zpow_natCast, Int.toNat_of_nonneg (by omega), zpow_neg, inv_inv]
    rw [power, ← div_eq_mul_inv]
    exact (lt_div_iff₀ (pow_pos (by decide) _)).2 below

/-- A fraction is below the power of two that its bits say. -/
theorem lt_two_zpow {num den : Nat} (hden : 0 < den) :
    (num : ℚ) < den * 2 ^ ((num.log2 : ℤ) - den.log2 + 1) := by
  have upper : (num : ℚ) < 2 ^ (num.log2 + 1) := by
    exact_mod_cast Nat.lt_log2_self
  have lower : (2 : ℚ) ^ den.log2 ≤ den := by
    exact_mod_cast Nat.log2_self_le (Nat.ne_of_gt hden)
  calc (num : ℚ) < 2 ^ (num.log2 + 1) := upper
    _ = 2 ^ den.log2 * 2 ^ ((num.log2 : ℤ) - den.log2 + 1) := by
        rw [← zpow_natCast, ← zpow_natCast, ← zpow_add₀ two_ne_zero]
        congr 1
        push_cast
        omega
    _ ≤ den * 2 ^ ((num.log2 : ℤ) - den.log2 + 1) :=
        mul_le_mul_of_nonneg_right lower (zpow_pos (by decide) _).le

/-- The digits of a fraction stand below the place before the first one. -/
theorem lt_leadingExponent {num den : Nat} (hden : 0 < den) (hn : num.log2 < 1100)
    (hd : den.log2 < 1100) : (num : ℚ) < den * 10 ^ (leadingExponent num den + 1) := by
  have guess : leadingExponent num den =
      if atLeast num den (((num.log2 : ℤ) - den.log2) * 30103 / 100000 + 1) then
        ((num.log2 : ℤ) - den.log2) * 30103 / 100000 + 1
      else if atLeast num den (((num.log2 : ℤ) - den.log2) * 30103 / 100000) then
        ((num.log2 : ℤ) - den.log2) * 30103 / 100000
      else ((num.log2 : ℤ) - den.log2) * 30103 / 100000 - 1 := rfl
  rw [guess]
  split
  · have near := two_zpow_le (d := (num.log2 : ℤ) - den.log2) (by omega) (by omega)
    refine lt_of_lt_of_le (lt_two_zpow hden) (mul_le_mul_of_nonneg_left ?_ (Nat.cast_nonneg den))
    rw [add_assoc]
    exact near
  · split
    · exact lt_of_atLeast (Bool.eq_false_iff.2 (by assumption))
    · rw [sub_add_cancel]
      exact lt_of_atLeast (Bool.eq_false_iff.2 (by assumption))

/-- On a grid that begins with the place of the first digit and has some places more there are no
numbers with more digits. -/
theorem divPow_lt {num den count : Nat}
    (h : (num : ℚ) < den * 10 ^ (e + count)) :
    (divPow num den e).1 / (divPow num den e).2 < 10 ^ count := by
  unfold divPow
  split
  · rename_i nonneg
    have power : (10 : ℚ) ^ (e + count) = 10 ^ e.toNat * 10 ^ count := by
      rw [zpow_add₀ (by decide), zpow_natCast, ← zpow_natCast 10 e.toNat,
        Int.toNat_of_nonneg nonneg]
    rw [power, ← mul_assoc] at h
    have below : num < den * 10 ^ e.toNat * 10 ^ count := by exact_mod_cast h
    exact Nat.div_lt_of_lt_mul below
  · rename_i negative
    have power : (10 : ℚ) ^ (e + count) = (10 ^ (-e).toNat)⁻¹ * 10 ^ count := by
      rw [zpow_add₀ (by decide), zpow_natCast, ← zpow_natCast 10 (-e).toNat,
        Int.toNat_of_nonneg (by omega), zpow_neg, inv_inv]
    rw [power, mul_left_comm, ← div_eq_inv_mul] at h
    have below := (lt_div_iff₀ (pow_pos (by decide) _)).1 h
    have below : num * 10 ^ (-e).toNat < den * 10 ^ count := by exact_mod_cast below
    exact Nat.div_lt_of_lt_mul below

/-! ## What the search finds -/

/-- What is found on a grid rounds to the double and has at most the digits of the grid, or is the
next power of ten. -/
theorem found_of_onGrid? {leading : Int} {count : Nat}
    (first : ((scaled b.mantissa b.exponent).1 : ℚ) <
      (scaled b.mantissa b.exponent).2 * 10 ^ (leading + 1))
    (h : onGrid? b leading count = some (c, e)) :
    roundsTo b c e = true ∧ c ≤ 10 ^ count := by
  have grid : leading + 1 = leading - (count - 1) + count := by omega
  rw [grid] at first
  have digits := divPow_lt first
  unfold onGrid? at h
  dsimp only at h
  split at h
  · rename_i below above
    split at h
    · obtain ⟨rfl, rfl⟩ := Prod.mk.inj (Option.some.inj h)
      exact ⟨below, Nat.le_of_lt digits⟩
    · obtain ⟨rfl, rfl⟩ := Prod.mk.inj (Option.some.inj h)
      exact ⟨above, digits⟩
  · rename_i below above
    obtain ⟨rfl, rfl⟩ := Prod.mk.inj (Option.some.inj h)
    exact ⟨below, Nat.le_of_lt digits⟩
  · rename_i below above
    obtain ⟨rfl, rfl⟩ := Prod.mk.inj (Option.some.inj h)
    exact ⟨above, digits⟩
  · cases h

/-- The search ends with nothing or with what is found on a grid. -/
theorem search_cases (b : Binary) (leading : Int) (count more : Nat) :
    search b leading count more = (0, 0) ∨ ∃ k, count ≤ k ∧ k ≤ count + more ∧
      onGrid? b leading k = some (search b leading count more) := by
  induction more generalizing count with
  | zero =>
    rw [search]
    cases h : onGrid? b leading count with
    | none => exact .inl rfl
    | some r => exact .inr ⟨count, Nat.le_refl _, Nat.le_refl _, h⟩
  | succ more ih =>
    rw [search]
    cases h : onGrid? b leading count with
    | none =>
      refine (ih (count + 1)).imp_right ?_
      rintro ⟨k, low, high, found⟩
      exact ⟨k, by omega, by omega, found⟩
    | some r => exact .inr ⟨count, Nat.le_refl _, by omega, h⟩

/-- Dropping zeros at the end of a number does not change its value. -/
theorem exists_dropZeros (fuel n : Nat) (e : Int) :
    ∃ k : Nat, n = (dropZeros fuel n e).1 * 10 ^ k ∧ (dropZeros fuel n e).2 = e + k := by
  induction fuel generalizing n e with
  | zero => exact ⟨0, (Nat.mul_one n).symm, (Int.add_zero e).symm⟩
  | succ fuel ih =>
    rw [dropZeros]
    split
    · rename_i last
      obtain ⟨k, value, place⟩ := ih (n / 10) (e + 1)
      simp only [ne_eq, Bool.and_eq_true, decide_eq_true_eq] at last
      refine ⟨k + 1, ?_, ?_⟩
      · rw [Nat.pow_succ, ← Nat.mul_assoc, ← value]
        omega
      · rw [place]
        push_cast
        omega
    · exact ⟨0, (Nat.mul_one n).symm, (Int.add_zero e).symm⟩

/-! ## Scaling the digits -/

/-- A number of at most seventeen digits is in range if it is scaled up to at most the highest. -/
theorem exists_magnitude (hc : c ≤ 10 ^ 17) (h : 0 ≤ e → c * 10 ^ e.toNat ≤ Double.highest) :
    ∃ f, Reading.magnitude? c e = some f := by
  unfold Reading.magnitude?
  dsimp only
  split
  · exact ⟨_, rfl⟩
  · split
    · have finite := Double.isFinite_scaled hc (by omega) (h (by omega))
      rw [Double.isInf_of_isFinite finite]
      exact ⟨_, rfl⟩
    · -- Only zero is scaled by such a power of ten.
      have zero : c = 0 := by
        by_contra positive
        have limit := h (by omega)
        have power : 10 ^ 309 ≤ 10 ^ e.toNat := pow_le_pow_right₀ (by decide) (by omega)
        have product := Nat.le_mul_of_pos_left (10 ^ e.toNat) (Nat.pos_of_ne_zero positive)
        have above := Double.powers_checked.2.2.2.2
        exact absurd (le_trans power (le_trans product limit)) (not_le_of_gt above)
      rw [zero]
      exact ⟨_, rfl⟩

/-- The digits of a number are in range, with the place of the last one. -/
structure InRange (c : Nat) (e : Int) : Prop where
  /-- There are at most seventeen digits. -/
  le : c ≤ 10 ^ 17
  /-- Zero stands at the point. -/
  zero : c = 0 → e = 0
  /-- The number is in range. -/
  magnitude : ∃ f, Reading.magnitude? c e = some f

/-- Digits in range are in range without the zeros at their end. -/
theorem inRange_dropZeros (fuel : Nat) (positive : 0 < c) (hc : c ≤ 10 ^ 17)
    (h : 0 ≤ e → c * 10 ^ e.toNat ≤ Double.highest) :
    InRange (dropZeros fuel c e).1 (dropZeros fuel c e).2 := by
  obtain ⟨k, value, place⟩ := exists_dropZeros fuel c e
  generalize (dropZeros fuel c e).1 = d at value
  generalize (dropZeros fuel c e).2 = p at place
  have less : d * 10 ^ k ≤ 10 ^ 17 := value ▸ hc
  have small : d ≤ 10 ^ 17 :=
    Nat.le_trans (Nat.le_mul_of_pos_right _ (Nat.pow_pos (by decide))) less
  refine ⟨small, fun zero => ?_, exists_magnitude small fun nonneg => ?_⟩
  · rw [value, zero, Nat.zero_mul] at positive
    exact absurd positive (Nat.lt_irrefl 0)
  · rcases Int.lt_or_le e 0 with negative | whole
    · -- The zeros that are dropped fill more than the places up to the point.
      have fewer : p.toNat ≤ k := by omega
      refine le_highest (Nat.le_trans ?_ less)
      exact Nat.mul_le_mul_left d (Nat.pow_le_pow_right (by decide) fewer)
    · have places : p.toNat = k + e.toNat := by omega
      calc d * 10 ^ p.toNat = d * 10 ^ k * 10 ^ e.toNat := by
            rw [places, Nat.pow_add, Nat.mul_assoc]
        _ = c * 10 ^ e.toNat := by rw [← value]
        _ ≤ Double.highest := h whole

/-- The digits that the search finds for a positive double are in range. -/
theorem inRange_search (positive : 0 < b.mantissa) (hm : b.mantissa < 2 ^ 53)
    (low : -1074 ≤ b.exponent) (high : b.exponent ≤ 971) :
    let parts := scaled b.mantissa b.exponent
    let found := search b (leadingExponent parts.1 parts.2) 1 16
    InRange (dropZeros 20 found.1 found.2).1 (dropZeros 20 found.1 found.2).2 := by
  intro parts found
  by_cases largest : b.mantissa = 2 ^ 53 - 1 ∧ b.exponent = 971
  · obtain ⟨m, E, closer⟩ := b
    obtain ⟨rfl, rfl⟩ := largest
    obtain ⟨hfound, scales⟩ := guesses_checked.2 closer
    have hfound : found = (17976931348623157, 292) := hfound
    have same : dropZeros 20 17976931348623157 292 = (17976931348623157, 292) := rfl
    rw [hfound, same]
    exact ⟨by decide, fun h => (nomatch h), Option.isSome_iff_exists.1 scales⟩
  · have other : b.mantissa + 1 < 2 ^ 53 ∨ b.exponent ≤ 970 := by omega
    rcases search_cases b (leadingExponent parts.1 parts.2) 1 16 with none | ⟨k, -, few, hfound⟩
    · have none : found = (0, 0) := none
      rw [none]
      exact ⟨by decide, fun _ => rfl, ⟨_, rfl⟩⟩
    · have first : (parts.1 : ℚ) < parts.2 * 10 ^ (leadingExponent parts.1 parts.2 + 1) := by
        have bounds := scaled_bounds (p := 53) (q := 1074) (c := 971) hm (by omega) high
        have den := den_pos b.mantissa b.exponent
        have num : 0 < parts.1 := by
          obtain ⟨hnum, hunit⟩ := scaled_eq b.mantissa b.exponent
          rw [hnum]
          exact Nat.mul_pos positive hunit
        refine lt_leadingExponent den ?_ ?_
        · exact Nat.lt_of_le_of_lt (log2_le num (Nat.le_of_lt bounds.1)) (by decide)
        · exact Nat.lt_of_le_of_lt (log2_le den bounds.2) (by decide)
      obtain ⟨rounds, digits⟩ := found_of_onGrid? first hfound
      exact inRange_dropZeros 20 (pos_of_roundsTo positive rounds)
        (Nat.le_trans digits (Nat.pow_le_pow_right (by decide) (by omega)))
        (mul_le_highest hm high other rounds)

/-- The exponent and the fraction of a double are cut out of its bits. -/
theorem bits_eq (x : Float) :
    Double.exponentBits x.toBits.toBitVec = x.toBits.toNat / mantissas % 2048 ∧
      Double.fractionBits x.toBits.toBitVec = x.toBits.toNat % mantissas := by
  refine ⟨?_, ?_⟩
  · show ((x.toBits.toBitVec.extractLsb 62 52).cast _).toNat = _
    rw [BitVec.toNat_cast, BitVec.extractLsb_toNat, Nat.shiftRight_eq_div_pow]
    rfl
  · show ((x.toBits.toBitVec.extractLsb 51 0).cast _).toNat = _
    rw [BitVec.toNat_cast, BitVec.extractLsb_toNat, Nat.shiftRight_zero]
    rfl

/-- A number that is not zero has a positive mantissa, and its exponent is that of a number. -/
theorem ofFloat_of_isFinite {x : Float} (hx : x.isFinite = true) (nonzero : (x == 0) = false) :
    0 < (Binary.ofFloat x).mantissa ∧ -1074 ≤ (Binary.ofFloat x).exponent ∧
      (Binary.ofFloat x).exponent ≤ 971 := by
  obtain ⟨exponent, fraction⟩ := bits_eq x
  have inner : Double.exponentBits x.toBits.toBitVec ≠ 2047 := fun largest => by
    have other : x.isFinite = false := Double.isFinite_unpack_of_eq largest
    rw [hx] at other
    cases other
  unfold Binary.ofFloat
  dsimp only
  rw [← exponent, ← fraction]
  split
  · rename_i least
    rcases Double.unpack_of_eq_zero least with ⟨-, s, zero⟩ | ⟨s, positive, -⟩
    · -- A zero compares equal to zero, whatever its sign.
      have same : (x == 0) = true := by
        show Float.Model.UnpackedFloat.beq x.toModel.unpack (0 : Float).toModel.unpack = true
        rw [show x.toModel.unpack = .zero s from zero]
        cases s
        · rfl
        · rfl
      rw [nonzero] at same
      cases same
    · exact ⟨positive, Int.le_refl (-1074), show (-1074 : Int) ≤ 971 by decide⟩
  · have few : Double.exponentBits x.toBits.toBitVec < 2 ^ 11 := BitVec.isLt _
    refine ⟨?_, ?_, ?_⟩
    · show 0 < _ + mantissas
      unfold mantissas
      omega
    · dsimp only
      omega
    · dsimp only
      omega

/-- The digits of a number that is not zero are those of a whole number in range. -/
theorem exists_digits {x : Float} (hx : x.isFinite = true) (nonzero : (x == 0) = false) :
    ∃ (c : Nat) (e : Int), digits x = (Nat.toDigits 10 c, e + (Nat.toDigits 10 c).length - 1) ∧
      InRange c e := by
  obtain ⟨positive, low, high⟩ := ofFloat_of_isFinite hx nonzero
  obtain ⟨small, -⟩ := ofFloat_bounds x
  exact ⟨_, _, rfl, inRange_search positive small low high⟩

end TestChain.Shortest
