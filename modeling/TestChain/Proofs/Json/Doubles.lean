import TestChain.Proofs.Json.Reading
import TestChain.Proofs.Number.Search

/-!
# Doubles are written as numerals in range

What is written of a double that is a number is a numeral with a point or an exponent
(`Reading.exists_derives_floatText`). Its digits are few enough to be read to their end, and they
are in range, so the numeral stands for some double; nothing is said about which
(`Reading.exists_respelled`).
-/

namespace TestChain.Reading

/-! ## Reading digits -/

/-- Zeros in front of digits are not read into the number. -/
theorem significand_zeros (k : Nat) (s : List Char) :
    significand 0 (List.replicate k '0' ++ s) = significand 0 s := by
  induction k with
  | zero => rfl
  | succ k ih =>
    rw [List.replicate_succ, List.cons_append, significand]
    exact ih

/-- A few digits are read to their end. -/
theorem significand_of_short {n k : Nat} {s : List Char} (hn : n < 10 ^ k)
    (hs : ∀ c ∈ s, c.isDigit = true) (short : k + s.length ≤ 19) :
    (significand n s).2 = [] := by
  induction s generalizing n k with
  | nil => rfl
  | cons c s ih =>
    have digit : 48 ≤ c.toNat ∧ c.toNat ≤ 57 := Char.isDigit_iff_toNat.1 (hs c List.mem_cons_self)
    rw [List.length_cons] at short
    have next : 10 * n + (c.toNat - 48) < 10 ^ (k + 1) := by
      rw [Nat.pow_succ]
      omega
    have fits : 10 * n + (c.toNat - 48) ≤ maxSignificand := by
      refine Nat.le_of_lt (Nat.lt_of_lt_of_le next ?_)
      exact Nat.le_trans (Nat.pow_le_pow_right (by decide) (show k + 1 ≤ 19 by omega)) (by decide)
    rw [significand, if_pos fits]
    exact ih next (fun d hd => hs d (List.mem_cons_of_mem _ hd)) (by omega)

/-- The digits of an exponent are read. -/
theorem exponentOf_natDigits {n : Nat} (hn : n ≤ maxExponent) :
    exponentOf (Text.natDigits 10 n) = n := by
  unfold exponentOf Text.natDigits
  induction n using Nat.base_induction 10 (by decide) with
  | single m hm =>
    rw [Nat.toDigits_of_lt_base hm, List.foldl_cons, List.foldl_nil,
      Nat.toNat_digitChar_sub_48_of_lt_ten hm]
    omega
  | digit m k hk hm ih =>
    rw [← Nat.toDigits_append_toDigits (by decide) hm hk, List.foldl_append, ih (by omega),
      Nat.toDigits_of_lt_base hk, List.foldl_cons, List.foldl_nil,
      Nat.toNat_digitChar_sub_48_of_lt_ten hk]
    omega

/-- A zero is a digit. -/
theorem digits_zero : Digits ['0'] := by
  refine ⟨List.cons_ne_nil _ _, fun c hc => ?_⟩
  rw [List.mem_singleton.1 hc]
  rfl

/-! ## Numerals in range -/

/-- A numeral is in range and stands for a double. -/
def Numeral.Doubles (x : Numeral) : Prop :=
  ∃ y, x.value? = some (.float y)

/-- A numeral with a point whose digits are all read stands for a double. -/
theorem doubles_of_point {negative : Bool} {whole digits : List Char} (nonempty : digits ≠ [])
    (hwhole : (significand 0 whole).2 = [])
    (hdigits : (significand (significand 0 whole).1 digits).2 = []) :
    Numeral.Doubles ⟨negative, whole, some digits, none⟩ := by
  have places : 0 < digits.length := List.length_pos_of_ne_nil nonempty
  have value := Numeral.float?_eq ⟨negative, whole, some digits, none⟩
  unfold Numeral.mantissa at value
  dsimp only at value
  rw [hwhole, hdigits] at value
  unfold magnitude? at value
  dsimp only at value
  rw [if_pos (by rw [List.length_nil]; omega)] at value
  unfold Numeral.Doubles Numeral.value?
  dsimp only
  rw [value]
  exact ⟨_, rfl⟩

/-- A numeral with an exponent stands for a double if its mantissa is in range with it. -/
theorem doubles_of_exponent {x : Numeral} {c E : Nat} {down : Bool} {p : Int}
    (hexponent : x.exponent = some (down, Text.natDigits 10 E)) (hE : E ≤ maxExponent)
    (hmantissa : x.mantissa = (c, p))
    (h : ∃ f, magnitude? c (p + if down then -(E : Int) else E) = some f) : x.Doubles := by
  obtain ⟨f, hf⟩ := h
  have value := x.float?_eq
  rw [hexponent, hmantissa] at value
  dsimp only at value
  rw [exponentOf_natDigits hE, if_neg (by omega), hf] at value
  unfold Numeral.Doubles Numeral.value?
  rw [hexponent, value]
  split
  · rename_i none
    cases none
  · exact ⟨_, rfl⟩

/-! ## Texts in range -/

/-- Whatever its sign, the text is that of a numeral in range. -/
def Ranged (s : List Char) : Prop :=
  ∀ negative : Bool, ∃ x : Numeral, x.negative = negative ∧ NumeralText x s ∧ x.Doubles

/-- Zeros are digits. -/
theorem isDigit_of_mem_zeros {k : Nat} {c : Char} (h : c ∈ List.replicate k '0') :
    c.isDigit = true := by
  rw [List.eq_of_mem_replicate h]
  rfl

/-- A few digits with a point are in range. -/
theorem ranged_point {whole digits : List Char} (hwhole : Digits whole)
    (first : whole.head? = some '0' → whole = ['0']) (hdigits : Digits digits)
    (short : whole.length + digits.length ≤ 19) : Ranged (whole ++ '.' :: digits) := by
  intro negative
  have text : NumeralText ⟨negative, whole, some digits, none⟩ (whole ++ ('.' :: digits ++ [])) :=
    .parts hwhole first (.point hdigits) .absent
  have front : (significand 0 whole).2 = [] :=
    significand_of_short (k := 0) Nat.one_pos hwhole.2 (by omega)
  have both : (significand 0 (whole ++ digits)).2 = [] := by
    refine significand_of_short (k := 0) Nat.one_pos (fun c hc => ?_) ?_
    · exact (List.mem_append.1 hc).elim (hwhole.2 c) (hdigits.2 c)
    · rw [List.length_append]
      omega
  rw [significand_append (Prod.ext rfl front)] at both
  rw [List.append_nil] at text
  exact ⟨_, rfl, text, doubles_of_point hdigits.1 front both⟩

/-- A few digits after a point and some zeros are in range. -/
theorem ranged_small {ds : List Char} (k : Nat) (hds : Digits ds) (few : ds.length ≤ 19) :
    Ranged ('0' :: '.' :: (List.replicate k '0' ++ ds)) := by
  intro negative
  have fraction : Digits (List.replicate k '0' ++ ds) :=
    ⟨List.append_ne_nil_of_right_ne_nil _ hds.1,
      fun d hd => (List.mem_append.1 hd).elim isDigit_of_mem_zeros (hds.2 d)⟩
  have text : NumeralText ⟨negative, ['0'], some (List.replicate k '0' ++ ds), none⟩
      (['0'] ++ ('.' :: (List.replicate k '0' ++ ds) ++ [])) :=
    .parts digits_zero (fun _ => rfl) (.point fraction) .absent
  rw [List.append_nil] at text
  refine ⟨_, rfl, text, doubles_of_point fraction.1 rfl ?_⟩
  show (significand 0 _).2 = []
  rw [significand_zeros]
  exact significand_of_short (k := 0) Nat.one_pos hds.2 (by omega)

section Digits

variable {c : Nat}

/-- The digits of a number, and what is read of them if there are few. -/
theorem natDigits_spec (hc : c ≤ 10 ^ 17) :
    Digits (Text.natDigits 10 c) ∧ (Text.natDigits 10 c).length ≤ 18 ∧
      significand 0 (Text.natDigits 10 c) = (c, []) := by
  refine ⟨⟨Nat.toDigits_ne_nil, fun d hd => Text.isDigit_of_mem_natDigits hd⟩,
    Shortest.length_toDigits_of_le hc, significand_natDigits (Nat.le_trans hc (by decide))⟩

/-- Digits are in range if zeros fill the places up to a point after which a zero stands. -/
theorem ranged_padded {k : Nat} (zero : c = 0 → k = 0)
    (few : (Text.natDigits 10 c).length + k ≤ 18) :
    Ranged (Text.natDigits 10 c ++ List.replicate k '0' ++ ['.', '0']) := by
  have nonempty : Text.natDigits 10 c ≠ [] := Nat.toDigits_ne_nil
  have whole : Digits (Text.natDigits 10 c ++ List.replicate k '0') :=
    ⟨List.append_ne_nil_of_left_ne_nil nonempty _, fun d hd =>
      (List.mem_append.1 hd).elim Text.isDigit_of_mem_natDigits isDigit_of_mem_zeros⟩
  refine ranged_point whole ?_ digits_zero ?_
  · rcases Nat.eq_zero_or_pos c with none | positive
    · rw [zero none, none]
      exact fun _ => rfl
    · rw [List.head?_append_of_ne_nil _ nonempty]
      exact fun first => absurd first (head?_natDigits positive)
  · rw [List.length_append, List.length_replicate, List.length_singleton]
    omega

/-- Digits are in range if a point stands between them. -/
theorem ranged_divided {n : Nat} (hc : c ≤ 10 ^ 17) (positive : 0 < c)
    (more : n + 1 < (Text.natDigits 10 c).length) :
    Ranged ((Text.natDigits 10 c).take (n + 1) ++ '.' :: (Text.natDigits 10 c).drop (n + 1)) := by
  obtain ⟨⟨-, hdigits⟩, few, -⟩ := natDigits_spec hc
  have whole : Digits ((Text.natDigits 10 c).take (n + 1)) := by
    refine ⟨List.ne_nil_of_length_pos ?_, fun d hd => hdigits d (List.mem_of_mem_take hd)⟩
    rw [List.length_take]
    omega
  have fraction : Digits ((Text.natDigits 10 c).drop (n + 1)) := by
    refine ⟨List.ne_nil_of_length_pos ?_, fun d hd => hdigits d (List.mem_of_mem_drop hd)⟩
    rw [List.length_drop]
    omega
  refine ranged_point whole ?_ fraction ?_
  · rw [List.head?_take, if_neg (Nat.succ_ne_zero _)]
    exact fun first => absurd first (head?_natDigits positive)
  · rw [← List.length_append, List.take_append_drop]
    omega

/-- What is written of a number with a point only is in range. -/
theorem ranged_positional {E : Int} (hc : c ≤ 10 ^ 17) (zero : c = 0 → E = 0)
    (position : isPositional E = true) : Ranged (positionalText (Text.natDigits 10 c) E) := by
  obtain ⟨digits, few, -⟩ := natDigits_spec hc
  unfold isPositional at position
  simp only [Bool.and_eq_true, decide_eq_true_eq] at position
  unfold positionalText
  split
  · exact ranged_small _ digits (by omega)
  · dsimp only
    split
    · refine ranged_padded (fun none => ?_) (by omega)
      rw [zero none, none]
      rfl
    · rename_i more
      refine ranged_divided hc (Nat.pos_of_ne_zero fun none => more ?_) (Nat.lt_of_not_le more)
      rw [zero none, none]
      exact Nat.le_refl 1

/-- An exponent is written with its sign. -/
theorem exponentText_signed (E : Int) :
    ExponentText (some (decide (E < 0), Text.natDigits 10 E.natAbs))
      ('e' :: (if E < 0 then '-' else '+') :: Text.natDigits 10 E.natAbs) := by
  have digits : Digits (Text.natDigits 10 E.natAbs) :=
    ⟨Nat.toDigits_ne_nil, fun d hd => Text.isDigit_of_mem_natDigits hd⟩
  split
  · rename_i down
    rw [decide_eq_true down]
    exact .minus (.inl rfl) digits
  · rename_i up
    rw [decide_eq_false up]
    exact .plus (.inl rfl) digits

/-- An exponent is what its sign and its digits say. -/
theorem signed_natAbs (E : Int) :
    (if decide (E < 0) = true then -(E.natAbs : Int) else E.natAbs) = E := by
  by_cases down : E < 0
  · rw [if_pos (decide_eq_true down)]
    omega
  · rw [if_neg (by rw [decide_eq_true_eq]; exact down)]
    omega

/-- What is written of a number with an exponent is in range. -/
theorem ranged_exponent {e E : Int} (positive : 0 < c) (range : Shortest.InRange c e)
    (hE : E = e + (Text.natDigits 10 c).length - 1) (small : E.natAbs ≤ maxExponent) :
    Ranged (exponentText (Text.natDigits 10 c) E) := by
  intro negative
  obtain ⟨⟨nonempty, hdigits⟩, -, read⟩ := natDigits_spec range.le
  have first := head?_natDigits positive
  have exponent := exponentText_signed E
  unfold exponentText
  generalize Text.natDigits 10 c = ds at *
  match ds with
  | [] => exact absurd rfl nonempty
  | [d] =>
    refine ⟨⟨negative, [d], none, some (decide (E < 0), Text.natDigits 10 E.natAbs)⟩, rfl,
      .parts ⟨nonempty, hdigits⟩ (fun zero => absurd zero first) .absent exponent,
      doubles_of_exponent (c := c) (p := 0) rfl small ?_ ?_⟩
    · unfold Numeral.mantissa
      rw [read]
      rfl
    · rw [signed_natAbs, show 0 + E = e by rw [hE]; simp]
      exact range.magnitude
  | d :: d' :: rest =>
    have hd : ∀ x ∈ [d], x.isDigit = true := fun x hx =>
      hdigits x (List.mem_singleton.1 hx ▸ List.mem_cons_self)
    have fraction : Digits (d' :: rest) :=
      ⟨List.cons_ne_nil _ _, fun x hx => hdigits x (List.mem_cons_of_mem _ hx)⟩
    have one : (significand 0 [d]).2 = [] :=
      significand_of_short (k := 0) Nat.one_pos hd (Nat.le_of_ble_eq_true rfl)
    have both : significand (significand 0 [d]).1 (d' :: rest) = (c, []) := by
      rw [← significand_append (Prod.ext rfl one)]
      exact read
    refine ⟨⟨negative, [d], some (d' :: rest), some (decide (E < 0), Text.natDigits 10 E.natAbs)⟩,
      rfl, .parts ⟨List.cons_ne_nil _ _, hd⟩ (fun zero => absurd zero first) (.point fraction)
        exponent, doubles_of_exponent (c := c) (p := -(d' :: rest).length) rfl small ?_ ?_⟩
    · unfold Numeral.mantissa
      dsimp only
      rw [one, both]
      simp
    · rw [signed_natAbs, show -((d' :: rest).length : Int) + E = e by rw [hE]; simp; omega]
      exact range.magnitude

end Digits

/-- A text in range is derived with its sign. -/
theorem Ranged.exists_derives {s : List Char} (h : Ranged s) (negative : Prop)
    [Decidable negative] : ∃ t : Numeral,
      Derives (.value (.num t)) ((if negative then ['-'] else []) ++ s) ∧ t.Doubles := by
  split
  · obtain ⟨t, sign, text, range⟩ := h true
    exact ⟨t, .negative sign text, range⟩
  · obtain ⟨t, sign, text, range⟩ := h false
    exact ⟨t, .num sign text, range⟩

/-! ## Written doubles -/

/-- A double that is a number is written as a numeral in range. -/
theorem exists_derives_floatText {x : Float} (hx : x.isFinite = true) :
    ∃ t : Numeral, Derives (.value (.num t)) (floatText x) ∧ t.Doubles := by
  unfold floatText
  dsimp only
  split
  · have zero : Ranged (['0'] ++ '.' :: ['0']) :=
      ranged_point digits_zero (fun _ => rfl) digits_zero (by decide)
    exact zero.exists_derives _
  · rename_i nonzero
    obtain ⟨c, e, digits, range⟩ := Shortest.exists_digits hx (Bool.eq_false_iff.2 nonzero)
    have small := (Shortest.digits_bounds x).2
    rw [digits] at small ⊢
    dsimp only at small ⊢
    refine Ranged.exists_derives ?_ _
    split
    · rename_i position
      refine ranged_positional range.le (fun zero => ?_) position
      rw [range.zero zero, zero]
      rfl
    · rename_i far
      refine ranged_exponent (Nat.pos_of_ne_zero fun zero => far ?_) range rfl
        (Nat.le_trans small (by decide))
      rw [range.zero zero, zero]
      rfl

/-- Each double that is a number is written as a numeral that stands for some double. -/
theorem exists_respelled : ∃ f, Respelled (fun x => x.isFinite = true) f := by
  have each (x : Float) : ∃ y, x.isFinite = true → ∃ t : Numeral,
      Derives (.value (.num t)) (floatText x) ∧ t.value? = some (.float y) := by
    by_cases hx : x.isFinite = true
    · obtain ⟨t, text, y, hy⟩ := exists_derives_floatText hx
      exact ⟨y, fun _ => ⟨t, text, hy⟩⟩
    · exact ⟨x, fun h => absurd h hx⟩
  exact Classical.skolem.1 each

end TestChain.Reading
