import Mathlib.Algebra.Order.Ring.Nat
import TestChain.Json.Writer
import TestChain.Proofs.Text.Utf8

/-!
# Numbers have short texts

The search for the digits of a double ends after seventeen of them, and the exponents of doubles lie
in a narrow range. So the digits that are found are few (`Shortest.digits_bounds`), and so are the
characters of every number (`Number.length_text`). Much more room is left than is needed: the bounds
are not meant to be sharp.
-/

namespace TestChain

namespace Shortest

/-- The mantissa and the exponent of a double are limited. -/
theorem ofFloat_bounds (x : Float) :
    (Binary.ofFloat x).mantissa < 2 ^ 53 ∧ -1075 ≤ (Binary.ofFloat x).exponent ∧
      (Binary.ofFloat x).exponent ≤ 972 := by
  unfold Binary.ofFloat mantissas
  dsimp only
  split
  · refine ⟨?_, ?_, ?_⟩ <;> simp only <;> omega
  · refine ⟨?_, ?_, ?_⟩ <;> simp only <;> omega

variable {n c p q : Nat} {e : Int}

/-- A number with a limited mantissa and exponent is a fraction of limited numbers. -/
theorem scaled_bounds (hn : n < 2 ^ p) (hlow : -(q : Int) ≤ e) (hhigh : e ≤ c) :
    (scaled n e).1 < 2 ^ (p + c) ∧ (scaled n e).2 ≤ 2 ^ q := by
  unfold scaled
  split
  · have power : Nat.pow 2 e.toNat ≤ 2 ^ c := Nat.pow_le_pow_right (by decide) (by omega)
    refine ⟨?_, Nat.one_le_two_pow⟩
    calc n * Nat.pow 2 e.toNat ≤ n * 2 ^ c := Nat.mul_le_mul_left n power
      _ < 2 ^ p * 2 ^ c := Nat.mul_lt_mul_of_pos_right hn (Nat.two_pow_pos c)
      _ = 2 ^ (p + c) := (Nat.pow_add 2 p c).symm
  · refine ⟨Nat.lt_of_lt_of_le hn (Nat.pow_le_pow_right (by decide) (Nat.le_add_right p c)), ?_⟩
    exact Nat.pow_le_pow_right (by decide) (by omega)

/-- The exponent of the first digit of a fraction is limited if the parts of the fraction are. -/
theorem leadingExponent_bounds {num den : Nat} (hn : num < 2 ^ p) (hd : den ≤ 2 ^ q) :
    -(q : Int) - 2 ≤ leadingExponent num den ∧ leadingExponent num den ≤ p + 1 := by
  have logNum : num.log2 ≤ p := by
    rcases Nat.eq_zero_or_pos num with rfl | hpos
    · exact Nat.zero_le p
    · exact Nat.le_of_lt ((Nat.log2_lt (by omega)).2 hn)
  have logDen : den.log2 ≤ q := by
    rcases Nat.eq_zero_or_pos den with rfl | hpos
    · exact Nat.zero_le q
    · have next : den < 2 ^ (q + 1) :=
        Nat.lt_of_le_of_lt hd (Nat.pow_lt_pow_right (by decide) (Nat.lt_succ_self q))
      exact Nat.le_of_lt_succ ((Nat.log2_lt (by omega)).2 next)
  unfold leadingExponent
  dsimp only
  split
  · omega
  · split <;> omega

/-- The quotient of a fraction by a power of ten, and one more, are limited. -/
theorem divPow_bounds {num : Nat} (den : Nat) (hnum : num < 2 ^ p) :
    (divPow num den e).1 / (divPow num den e).2 + 1 ≤ 10 ^ (p + (-e).toNat) := by
  have base : num + 1 ≤ 10 ^ p := Nat.le_trans hnum (Nat.pow_le_pow_left (by decide) p)
  have places : 0 < 10 ^ (-e).toNat := Nat.pow_pos (by decide)
  rw [Nat.pow_add]
  unfold divPow
  split
  · calc num / (den * Nat.pow 10 e.toNat) + 1 ≤ num + 1 :=
          Nat.add_le_add_right (Nat.div_le_self _ _) 1
      _ ≤ 10 ^ p := base
      _ ≤ 10 ^ p * 10 ^ (-e).toNat := Nat.le_mul_of_pos_right _ places
  · calc num * 10 ^ (-e).toNat / den + 1 ≤ num * 10 ^ (-e).toNat + 1 :=
          Nat.add_le_add_right (Nat.div_le_self _ _) 1
      _ ≤ num * 10 ^ (-e).toNat + 10 ^ (-e).toNat := Nat.add_le_add_left places _
      _ = (num + 1) * 10 ^ (-e).toNat := (Nat.succ_mul _ _).symm
      _ ≤ 10 ^ p * 10 ^ (-e).toNat := Nat.mul_le_mul_right _ base

/-- The decimals that are tried are limited. -/
theorem onGrid?_bounds {b : Binary} {leading : Int} {count : Nat}
    (hnum : (scaled b.mantissa b.exponent).1 < 2 ^ p) (h : onGrid? b leading count = some (n, e)) :
    e = leading - (count - 1) ∧ n ≤ 10 ^ (p + (-e).toNat) := by
  unfold onGrid? at h
  dsimp only at h
  have grid := divPow_bounds (e := leading - (count - 1)) (scaled b.mantissa b.exponent).2 hnum
  -- What is tried is the quotient on the grid or the next number.
  split at h
  · split at h
    all_goals
      obtain ⟨rfl, rfl⟩ := Prod.mk.inj (Option.some.inj h)
      exact ⟨rfl, by omega⟩
  · obtain ⟨rfl, rfl⟩ := Prod.mk.inj (Option.some.inj h)
    exact ⟨rfl, by omega⟩
  · obtain ⟨rfl, rfl⟩ := Prod.mk.inj (Option.some.inj h)
    exact ⟨rfl, by omega⟩
  · cases h

/-- What the search finds is limited. -/
theorem search_bounds {b : Binary} {leading : Int} (hnum : (scaled b.mantissa b.exponent).1 < 2 ^ p)
    (hlow : -(q : Int) ≤ leading) (hhigh : leading ≤ c) (count more : Nat) :
    -(q + count + more : Int) ≤ (search b leading count more).2 ∧
      (search b leading count more).2 ≤ c + 1 ∧
      (search b leading count more).1 ≤ 10 ^ (p + q + count + more) := by
  have found : ∀ {count n e}, onGrid? b leading count = some (n, e) →
      -(q + count : Int) ≤ e ∧ e ≤ c + 1 ∧ n ≤ 10 ^ (p + q + count) := fun {count n e} h => by
    obtain ⟨rfl, hn⟩ := onGrid?_bounds hnum h
    refine ⟨by omega, by omega, Nat.le_trans hn (Nat.pow_le_pow_right (by decide) (by omega))⟩
  induction more generalizing count with
  | zero =>
    rw [search]
    cases h : onGrid? b leading count with
    | none =>
      -- Nothing found counts as zero.
      show -(q + count + (0 : Nat) : Int) ≤ 0 ∧ (0 : Int) ≤ c + 1 ∧ 0 ≤ 10 ^ (p + q + count + 0)
      exact ⟨by omega, by omega, Nat.zero_le _⟩
    | some r => exact found h
  | succ more ih =>
    rw [search]
    cases h : onGrid? b leading count with
    | none =>
      obtain ⟨h₁, h₂, h₃⟩ := ih (count + 1)
      refine ⟨by push_cast at h₁ ⊢; omega, h₂, ?_⟩
      rw [show p + q + count + (more + 1) = p + q + (count + 1) + more by omega]
      exact h₃
    | some r =>
      obtain ⟨h₁, h₂, h₃⟩ := found h
      have more : 10 ^ (p + q + count) ≤ 10 ^ (p + q + count + (more + 1)) :=
        Nat.pow_le_pow_right (by decide) (Nat.le_add_right _ _)
      exact ⟨by push_cast; omega, h₂, Nat.le_trans h₃ more⟩

/-- Dropping zeros makes the number no larger, and the exponent larger by their count. -/
theorem dropZeros_bounds (fuel n : Nat) (e : Int) :
    (dropZeros fuel n e).1 ≤ n ∧ e ≤ (dropZeros fuel n e).2 ∧
      (dropZeros fuel n e).2 ≤ e + fuel := by
  induction fuel generalizing n e with
  | zero => exact ⟨Nat.le_refl n, Int.le_refl e, by rw [dropZeros]; omega⟩
  | succ fuel ih =>
    rw [dropZeros]
    split
    · obtain ⟨h₁, h₂, h₃⟩ := ih (n / 10) (e + 1)
      exact ⟨by omega, by omega, by push_cast; omega⟩
    · exact ⟨Nat.le_refl n, Int.le_refl e, by push_cast; omega⟩

/-- A number has at most one digit more than a power of ten that it does not exceed. -/
theorem length_toDigits_of_le {k : Nat} (h : n ≤ 10 ^ k) : (Nat.toDigits 10 n).length ≤ k + 1 := by
  refine (Nat.length_toDigits_le_iff (by decide) (Nat.succ_pos k)).2 (Nat.lt_of_le_of_lt h ?_)
  exact Nat.pow_lt_pow_right (by decide) (Nat.lt_succ_self k)

/-- A double has few digits, and its first one an exponent that is not far from zero. -/
theorem digits_bounds (x : Float) :
    (digits x).1.length ≤ 4000 ∧ (digits x).2.natAbs ≤ 8000 := by
  obtain ⟨hmantissa, hlow, hhigh⟩ := ofFloat_bounds x
  unfold digits
  dsimp only
  generalize Binary.ofFloat x = b at hmantissa hlow hhigh
  have parts := scaled_bounds (q := 1075) (c := 972) hmantissa hlow hhigh
  have leading := leadingExponent_bounds parts.1 parts.2
  have found := search_bounds (q := 1077) (c := 1026) parts.1 leading.1 leading.2 1 16
  generalize search b _ 1 16 = r at found
  have dropped := dropZeros_bounds 20 r.1 r.2
  generalize dropZeros 20 r.1 r.2 = d at dropped
  have count := length_toDigits_of_le (Nat.le_trans dropped.1 found.2.2)
  exact ⟨by omega, by omega⟩

end Shortest

/-- A small number has few digits. -/
theorem length_natDigits {n : Nat} (h : n ≤ 100000000000000000000) :
    (Text.natDigits 10 n).length ≤ 21 :=
  Shortest.length_toDigits_of_le (k := 20) h

/-- Digits with a point take few characters more. -/
theorem length_positionalText (ds : List Char) {e : Int} (h : isPositional e = true) :
    (positionalText ds e).length ≤ ds.length + 20 := by
  unfold isPositional at h
  simp only [Bool.and_eq_true, decide_eq_true_eq] at h
  unfold positionalText
  dsimp only
  split
  · simp only [List.length_append, List.length_cons, List.length_replicate]
    omega
  · split
    · simp only [List.length_append, List.length_cons, List.length_nil, List.length_replicate]
      omega
    · simp only [List.length_append, List.length_cons, List.length_take, List.length_drop]
      omega

/-- Digits with an exponent take few characters more. -/
theorem length_exponentText (ds : List Char) {e : Int} (h : e.natAbs ≤ 8000) :
    (exponentText ds e).length ≤ ds.length + 24 := by
  have exponent : (Text.natDigits 10 e.natAbs).length ≤ 21 := length_natDigits (by omega)
  unfold exponentText
  -- The point stands behind the first digit if there are others.
  rcases ds with _ | ⟨d, _ | ⟨d', ds⟩⟩
  all_goals
    simp only [List.length_append, List.length_cons, List.length_nil]
    omega

/-- A double has a short text. -/
theorem length_floatText (x : Float) : (floatText x).length ≤ 4030 := by
  obtain ⟨count, exponent⟩ := Shortest.digits_bounds x
  unfold floatText
  dsimp only
  generalize Shortest.digits x = d at count exponent
  have sign : (if x.toBits >>> 63 = 1 then ['-'] else []).length ≤ 1 := by
    split
    · exact Nat.le_refl 1
    · exact Nat.zero_le 1
  generalize (if x.toBits >>> 63 = 1 then ['-'] else []) = s at sign
  split
  · rw [List.length_append]
    simp only [List.length_cons, List.length_nil]
    omega
  · rw [List.length_append]
    split
    · rename_i h
      have := length_positionalText d.1 h
      omega
    · have := length_exponentText d.1 exponent
      omega

/-- A whole number of 64 bits has a short text. -/
theorem length_intText {i : Int} (fits : fitsWord i) : (intText i).length ≤ 22 := by
  have digits : (Text.natDigits 10 i.natAbs).length ≤ 21 := by
    have := fits.1
    have := fits.2
    exact length_natDigits (by omega)
  unfold intText
  split
  · rw [List.length_cons]
    omega
  · omega

/-- Every number has a short text. -/
theorem Number.length_text (n : Number) : n.text.length ≤ 4030 := by
  cases n with
  | whole i fits => exact Nat.le_trans (length_intText fits) (by decide)
  | float x => exact length_floatText x

/-- The text of a number is short enough for its length to be written in four bytes. -/
theorem Number.length_bytes (n : Number) :
    (Bytes.ofString (String.ofList n.text)).length < UInt32.size := by
  have short := n.length_text
  have bytes := Bytes.length_ofString_ofList n.text
  have room : 4 * 4030 < UInt32.size := by decide
  omega

end TestChain
