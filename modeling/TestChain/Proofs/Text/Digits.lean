import Mathlib.Algebra.GroupWithZero.Nat
import TestChain.Text.Digits

/-!
# Digits are read back

The digits of a number in a base up to sixteen are read back as that number (`readNat?_natDigits`),
also behind zeros (`readNat?_padded`) and with a bound (`readBounded?_natDigits`). Letters count as
digits in either case (`readBounded?_map_toLower`).
-/

namespace TestChain.Text

/-- The value of a character is a matter of its code. -/
theorem digitValue?_eq (c : Char) : digitValue? c =
    if 48 ≤ c.toNat ∧ c.toNat ≤ 57 then some (c.toNat - 48)
    else if 97 ≤ c.toNat ∧ c.toNat ≤ 122 then some (c.toNat - 87)
    else if 65 ≤ c.toNat ∧ c.toNat ≤ 90 then some (c.toNat - 55)
    else none := by
  have le_iff (a b : Char) : a ≤ b ↔ a.toNat ≤ b.toNat := UInt32.le_iff_toNat_le
  unfold digitValue?
  simp only [Bool.and_eq_true, decide_eq_true_eq, le_iff]
  rfl

/-- The value of a digit below sixteen is read back. -/
theorem digitValue?_digitChar {d : Nat} (h : d < 16) : digitValue? (Nat.digitChar d) = some d := by
  -- There are sixteen digits, and all of them are looked at.
  have all : ∀ d : Fin 16, digitValue? (Nat.digitChar d.val) = some d.val := by decide
  exact all ⟨d, h⟩

/-- Further digits are read on from the number that the first ones give. -/
theorem readDigits?_append (base value : Nat) (s t : List Char) :
    readDigits? base value (s ++ t) =
      (readDigits? base value s).bind fun n => readDigits? base n t := by
  induction s generalizing value with
  | nil => rfl
  | cons c rest ih =>
    simp only [List.cons_append, readDigits?]
    cases digitValue? c with
    | none => rfl
    | some d =>
      dsimp only
      split
      · exact ih _
      · rfl

/-- One digit is read behind the number read so far. -/
theorem readDigits?_digitChar {base d : Nat} (hb : base ≤ 16) (hd : d < base) (value : Nat) :
    readDigits? base value [Nat.digitChar d] = some (base * value + d) := by
  have hd' : d < 16 := Nat.lt_of_lt_of_le hd hb
  simp only [readDigits?, digitValue?_digitChar hd', if_pos hd]

/-- Zeros in front do not count. -/
theorem readDigits?_zeros {base : Nat} (hb : 0 < base) (count : Nat) (s : List Char) :
    readDigits? base 0 (List.replicate count '0' ++ s) = readDigits? base 0 s := by
  induction count with
  | zero => rfl
  | succ count ih =>
    have zero : digitValue? '0' = some 0 := by decide
    rw [List.replicate_succ, List.cons_append]
    simp only [readDigits?, zero, if_pos hb]
    exact ih

/-- The digits of a number are read back. -/
theorem readDigits?_natDigits {base : Nat} (h₁ : 1 < base) (h₂ : base ≤ 16) (n : Nat) :
    readDigits? base 0 (natDigits base n) = some n := by
  unfold natDigits
  induction n using Nat.base_induction base h₁ with
  | single m hm =>
    rw [Nat.toDigits_of_lt_base hm, readDigits?_digitChar h₂ hm]
    simp
  | digit m k hk hm ih =>
    rw [← Nat.toDigits_append_toDigits h₁ hm hk, readDigits?_append, ih,
      Nat.toDigits_of_lt_base hk]
    exact readDigits?_digitChar h₂ hk m

/-- A text that is not empty is read as digits. -/
theorem readNat?_of_ne_nil {base : Nat} {s : List Char} (h : s ≠ []) :
    readNat? base s = readDigits? base 0 s := by
  unfold readNat?
  rw [if_neg (mt List.isEmpty_iff.1 h)]

/-- A number is read back from its digits. -/
theorem readNat?_natDigits {base : Nat} (h₁ : 1 < base) (h₂ : base ≤ 16) (n : Nat) :
    readNat? base (natDigits base n) = some n := by
  have digits : natDigits base n ≠ [] := Nat.toDigits_ne_nil
  rw [readNat?_of_ne_nil digits]
  exact readDigits?_natDigits h₁ h₂ n

/-- A number is read back from its digits behind zeros. -/
theorem readNat?_padded {base : Nat} (h₁ : 1 < base) (h₂ : base ≤ 16) (width n : Nat) :
    readNat? base (padded base width n) = some n := by
  have digits : natDigits base n ≠ [] := Nat.toDigits_ne_nil
  unfold padded
  dsimp only
  rw [readNat?_of_ne_nil (List.append_ne_nil_of_right_ne_nil _ digits),
    readDigits?_zeros (Nat.zero_lt_of_lt h₁)]
  exact readDigits?_natDigits h₁ h₂ n

/-- A number that fits has as many digits as it is padded to. -/
theorem length_padded {base width n : Nat} (h₁ : 1 < base) (hw : 0 < width)
    (hn : n < base ^ width) : (padded base width n).length = width := by
  have := (Nat.length_toDigits_le_iff h₁ hw).2 hn
  unfold padded natDigits
  simp only [List.length_append, List.length_replicate]
  omega

/-- Decimal digits are digits. -/
theorem isDigit_of_mem_natDigits {n : Nat} {c : Char} (h : c ∈ natDigits 10 n) :
    c.isDigit = true :=
  Nat.isDigit_of_mem_toDigits (by decide) (by decide) h

/-- A text that begins with a digit does not begin with a plus sign. -/
theorem dropPlus_of_digits {s : List Char} (h : ∀ c ∈ s, c.isDigit = true) : dropPlus s = s := by
  unfold dropPlus
  split
  · have := h '+' List.mem_cons_self
    cases this
  · rfl

/-- What is read as a number has no plus sign in front. -/
theorem dropPlus_of_readNat? {base n : Nat} {s : List Char} (h : readNat? base s = some n) :
    dropPlus s = s := by
  unfold dropPlus
  split
  · next rest =>
    have plus : digitValue? '+' = none := by decide
    rw [readNat?, List.isEmpty_cons, if_neg Bool.false_ne_true, readDigits?, plus] at h
    cases h
  · rfl

/-- What is read as a number is read with every bound above the number. -/
theorem readBounded?_of_readNat? {base bound n : Nat} {s : List Char}
    (h : readNat? base s = some n) (hn : n < bound) : readBounded? base bound s = some n := by
  unfold readBounded?
  rw [dropPlus_of_readNat? h, h]
  simp only [if_pos hn]

/-- A number below the bound is read back from its digits. -/
theorem readBounded?_natDigits {bound n : Nat} (h : n < bound) :
    readBounded? 10 bound (natDigits 10 n) = some n :=
  readBounded?_of_readNat? (readNat?_natDigits (by decide) (by decide) n) h

/-- A number below the bound is read back from its digits behind zeros. -/
theorem readBounded?_padded {bound n : Nat} (width : Nat) (h : n < bound) :
    readBounded? 10 bound (padded 10 width n) = some n :=
  readBounded?_of_readNat? (readNat?_padded (by decide) (by decide) width n) h

/-! ## Letters of either case -/

/-- Lower case moves the capital letters and nothing else. -/
theorem toNat_toLower (c : Char) :
    c.toLower.toNat = if 65 ≤ c.toNat ∧ c.toNat ≤ 90 then c.toNat + 32 else c.toNat := by
  have bounds : (c.val ≥ 'A'.val ∧ c.val ≤ 'Z'.val) ↔ 65 ≤ c.toNat ∧ c.toNat ≤ 90 :=
    and_congr UInt32.le_iff_toNat_le UInt32.le_iff_toNat_le
  unfold Char.toLower
  split
  · next capital =>
    have moved : (c.val + ('a'.val - 'A'.val)).toNat = (c.toNat + 32) % 2 ^ 32 :=
      UInt32.toNat_add _ _
    have small := (bounds.1 capital).2
    rw [if_pos (bounds.1 capital)]
    exact moved.trans (Nat.mod_eq_of_lt (by omega))
  · next other => rw [if_neg (mt bounds.2 other)]

/-- A character before the letters is its own lower case, and that of no other character. -/
theorem toLower_eq_iff {c d : Char} (h : d.toNat < 65) : c.toLower = d ↔ c = d := by
  have lower := toNat_toLower c
  rw [← Char.toNat_inj, ← Char.toNat_inj]
  split at lower
  · omega
  · omega

/-- A digit has its value in either case. -/
theorem digitValue?_toLower (c : Char) : digitValue? c.toLower = digitValue? c := by
  have lower := toNat_toLower c
  rw [digitValue?_eq, digitValue?_eq]
  split at lower
  · rw [lower, if_neg (by omega), if_pos (by omega), if_neg (by omega), if_neg (by omega),
      if_pos (by omega)]
    exact congrArg some (by omega)
  · rw [lower]

/-- Further digits are read in either case. -/
theorem readDigits?_map_toLower (base value : Nat) (s : List Char) :
    readDigits? base value (s.map Char.toLower) = readDigits? base value s := by
  induction s generalizing value with
  | nil => rfl
  | cons c rest ih =>
    simp only [List.map_cons, readDigits?, digitValue?_toLower, ih]

/-- A number is read in either case, also with a bound. -/
theorem readBounded?_map_toLower (base bound : Nat) (s : List Char) :
    readBounded? base bound (s.map Char.toLower) = readBounded? base bound s := by
  have sign : dropPlus (s.map Char.toLower) = (dropPlus s).map Char.toLower := by
    cases s with
    | nil => rfl
    | cons c rest =>
      by_cases plus : c = '+'
      · subst plus
        rfl
      · have other : c.toLower ≠ '+' := mt (toLower_eq_iff (by decide)).1 plus
        unfold dropPlus
        split
        · next same => exact absurd (List.cons.inj same).1 other
        · split
          · next same => exact absurd (List.cons.inj same).1 plus
          · rfl
  unfold readBounded? readNat?
  rw [sign, readDigits?_map_toLower, List.isEmpty_map]

end TestChain.Text
