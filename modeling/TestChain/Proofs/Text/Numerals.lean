import Mathlib.Algebra.Order.Field.Rat
import Mathlib.Tactic.FieldSimp
import Mathlib.Tactic.NormNum
import TestChain.Decimal
import TestChain.Proofs.Codec.Values

/-!
# The texts of decimals

`Numeral` says which texts are numerals and which number each stands for: digits, then nothing, a
point, or a point and at most eighteen places. `Decimal.parse` reads the numerals whose number fits
into 128 bits with eighteen places, but it also lets a plus sign stand in front of the digits and in
front of the places, where the sign takes up one place (`Decimal.parse_numerals`). So it reads
exactly the numerals unless the text has a plus sign and is read all the same.
-/

namespace TestChain

namespace Text

/-- One or more decimal digits, and the number that they stand for. -/
structure Digits (s : List Char) (n : Nat) : Prop where
  /-- There is a digit. -/
  nonempty : s ≠ []
  /-- There are digits alone. -/
  digit : ∀ c ∈ s, c.isDigit = true
  /-- The digits are those of the number, perhaps behind zeros. -/
  value : Nat.ofDigitChars 10 s 0 = n

variable {c : Char} {s : List Char} {n : Nat}

/-- The characters with a value below ten are the decimal digits. -/
theorem digitValue?_decimal_iff {d : Nat} :
    (digitValue? c = some d ∧ d < 10) ↔ c.isDigit = true ∧ c.toNat - '0'.toNat = d := by
  have digit : c.isDigit = true ↔ 48 ≤ c.toNat ∧ c.toNat ≤ 57 := by
    unfold Char.isDigit
    rw [Bool.and_eq_true, decide_eq_true_eq, decide_eq_true_eq]
    exact and_congr UInt32.le_iff_toNat_le UInt32.le_iff_toNat_le
  have zero : '0'.toNat = 48 := rfl
  rw [digitValue?_eq, digit, zero]
  -- A letter has a value of ten or more.
  split
  · rw [Option.some.injEq]
    omega
  · split
    · rw [Option.some.injEq]
      omega
    · split
      · rw [Option.some.injEq]
        omega
      · exact iff_of_false (fun h => Option.some_ne_none _ h.1.symm) (by omega)

/-- What is read from further characters: they are digits, and the number goes on with them. -/
theorem readDigits?_eq_some_iff {value : Nat} :
    readDigits? 10 value s = some n ↔
      (∀ c ∈ s, c.isDigit = true) ∧ Nat.ofDigitChars 10 s value = n := by
  induction s generalizing value with
  | nil => simp [readDigits?, Nat.ofDigitChars_nil]
  | cons c rest ih =>
    rw [List.forall_mem_cons, Nat.ofDigitChars_cons]
    by_cases h : c.isDigit = true
    · obtain ⟨read, small⟩ := digitValue?_decimal_iff.2 ⟨h, rfl⟩
      simp only [readDigits?, read, if_pos small, ih, h, true_and]
    · have none_read : readDigits? 10 value (c :: rest) = none := by
        unfold readDigits?
        split
        · next d read =>
          exact if_neg fun small => h (digitValue?_decimal_iff.1 ⟨read, small⟩).1
        · rfl
      simp only [none_read, h, reduceCtorEq, Bool.false_eq_true, false_and]

/-- What is read from a text: it consists of the digits of the number. -/
theorem readNat?_eq_some_iff : readNat? 10 s = some n ↔ Digits s n := by
  unfold readNat?
  cases s with
  | nil => exact iff_of_false (Option.some_ne_none n).symm fun h => h.nonempty rfl
  | cons c rest =>
    rw [List.isEmpty_cons, if_neg Bool.false_ne_true, readDigits?_eq_some_iff]
    exact ⟨fun h => ⟨List.cons_ne_nil _ _, h.1, h.2⟩, fun h => ⟨h.digit, h.value⟩⟩

/-- The number of some digits has no more of them. -/
theorem Digits.lt (h : Digits s n) : n < 10 ^ s.length := by
  have bound : ∀ (s : List Char) (value : Nat), (∀ c ∈ s, c.isDigit = true) →
      Nat.ofDigitChars 10 s value < (value + 1) * 10 ^ s.length := by
    intro s
    induction s with
    | nil => intro value _; simp [Nat.ofDigitChars_nil]
    | cons c rest ih =>
      intro value digit
      obtain ⟨hc, hrest⟩ := List.forall_mem_cons.1 digit
      have small := (digitValue?_decimal_iff.2 ⟨hc, rfl⟩).2
      rw [Nat.ofDigitChars_cons, List.length_cons, pow_succ']
      calc Nat.ofDigitChars 10 rest (10 * value + (c.toNat - '0'.toNat))
          < (10 * value + (c.toNat - '0'.toNat) + 1) * 10 ^ rest.length := ih _ hrest
        _ ≤ ((value + 1) * 10) * 10 ^ rest.length := Nat.mul_le_mul_right _ (by omega)
        _ = (value + 1) * (10 * 10 ^ rest.length) := by rw [Nat.mul_assoc]
  have := bound s 0 h.digit
  rwa [h.value, Nat.zero_add, Nat.one_mul] at this

/-- One of the given signs, and then digits, which stand for a number. -/
def Signed (signs : List (List Char)) (s : List Char) (n : Nat) : Prop :=
  ∃ a ∈ signs, ∃ w, s = a ++ w ∧ Digits w n

/-- There is something behind a sign. -/
theorem Signed.nonempty {signs : List (List Char)} (h : Signed signs s n) : s ≠ [] := by
  obtain ⟨a, -, w, rfl, hw⟩ := h
  exact List.append_ne_nil_of_right_ne_nil a hw.nonempty

/-- With the sign in front there are no fewer characters than digits. -/
theorem Signed.lt {signs : List (List Char)} (h : Signed signs s n) : n < 10 ^ s.length := by
  obtain ⟨a, -, w, rfl, hw⟩ := h
  refine Nat.lt_of_lt_of_le hw.lt (Nat.pow_le_pow_right (by decide) ?_)
  rw [List.length_append]
  exact Nat.le_add_left _ _

/-- The signs that a number can have in front when it is read with a bound. -/
def plusSigns : List (List Char) := [[], ['+']]

/-- What is read with a bound: one of the signs, and the digits of a number below the bound. -/
theorem readBounded?_eq_some_iff {bound : Nat} :
    readBounded? 10 bound s = some n ↔ n < bound ∧ Signed plusSigns s n := by
  have read : readBounded? 10 bound s = some n ↔ n < bound ∧ Digits (dropPlus s) n := by
    rw [← readNat?_eq_some_iff]
    unfold readBounded?
    split
    · next m h =>
      rw [h, Option.some.injEq]
      split
      · rw [Option.some.injEq]
        omega
      · exact iff_of_false (Option.some_ne_none n).symm (by omega)
    · next h => simp only [h, reduceCtorEq, and_false]
  have signed : Digits (dropPlus s) n ↔ Signed plusSigns s n := by
    constructor
    · intro h
      unfold dropPlus at h
      split at h
      · next rest => exact ⟨['+'], by decide, rest, rfl, h⟩
      · exact ⟨[], by decide, s, rfl, h⟩
    · rintro ⟨a, ha, w, rfl, h⟩
      rcases List.mem_pair.1 ha with rfl | rfl
      · rwa [List.nil_append, dropPlus_of_digits h.digit]
      · exact h
  rw [read, signed]

/-- Without a sign there are digits alone, so no plus sign. -/
theorem Signed.no_plus (h : Signed [[]] s n) : '+' ∉ s := by
  obtain ⟨a, ha, w, rfl, hw⟩ := h
  obtain rfl := List.mem_singleton.1 ha
  intro plus
  cases hw.digit '+' plus

/-- Where there is no plus sign, none is in front. -/
theorem Signed.of_no_plus (h : Signed plusSigns s n) (plus : '+' ∉ s) : Signed [[]] s n := by
  obtain ⟨a, ha, w, rfl, hw⟩ := h
  rcases List.mem_pair.1 ha with rfl | rfl
  · exact ⟨[], List.mem_singleton_self _, w, rfl, hw⟩
  · exact absurd List.mem_cons_self plus

/-- No sign is among the signs. -/
theorem Signed.plus (h : Signed [[]] s n) : Signed plusSigns s n := by
  obtain ⟨a, ha, w, rfl, hw⟩ := h
  exact ⟨a, List.mem_cons.2 (.inl (List.mem_singleton.1 ha)), w, rfl, hw⟩

/-- The point is neither a sign nor a digit. -/
theorem Signed.no_point (h : Signed plusSigns s n) : '.' ∉ s := by
  obtain ⟨a, ha, w, rfl, hw⟩ := h
  intro point
  rcases List.mem_append.1 point with point | point
  · rcases List.mem_pair.1 ha with rfl | rfl
    · cases point
    · cases List.mem_singleton.1 point
  · cases hw.digit '.' point

end Text

open Text

/-- The texts of a decimal and the number that each stands for, with one of the given signs in front
of the digits and in front of the places. A sign in front of the places counts as one of them. -/
inductive Numeral (signs : List (List Char)) : List Char → ℚ → Prop
  /-- A whole number. -/
  | whole {w : List Char} {n : Nat} (hw : Signed signs w n) : Numeral signs w n
  /-- A whole number and a point. -/
  | point {w : List Char} {n : Nat} (hw : Signed signs w n) : Numeral signs (w ++ ['.']) n
  /-- A whole number, a point and at most eighteen places. -/
  | places {w p : List Char} {n m : Nat} (hw : Signed signs w n) (hp : Signed signs p m)
      (short : p.length ≤ 18) : Numeral signs (w ++ '.' :: p) (n + m / 10 ^ p.length)

namespace Numeral

variable {s : List Char} {q : ℚ}

/-- A numeral without signs has no plus sign. -/
theorem no_plus (h : Numeral [[]] s q) : '+' ∉ s := by
  have point : '+' ≠ '.' := by decide
  cases h with
  | whole hw => exact hw.no_plus
  | point hw => simp only [List.mem_append, List.mem_singleton, hw.no_plus, point, or_self,
      not_false_eq_true]
  | places hw hp => simp only [List.mem_append, List.mem_cons, hw.no_plus, hp.no_plus, point,
      or_self, not_false_eq_true]

/-- Where there is no plus sign, plus signs may as well be allowed. -/
theorem plusSigns_iff (plus : '+' ∉ s) : Numeral plusSigns s q ↔ Numeral [[]] s q := by
  constructor
  · intro h
    cases h with
    | whole hw => exact .whole (hw.of_no_plus plus)
    | point hw =>
      exact .point (hw.of_no_plus fun h => plus (List.mem_append_left _ h))
    | places hw hp short =>
      exact .places (hw.of_no_plus fun h => plus (List.mem_append_left _ h))
        (hp.of_no_plus fun h => plus (List.mem_append_right _ (List.mem_cons_of_mem _ h))) short
  · intro h
    cases h with
    | whole hw => exact .whole hw.plus
    | point hw => exact .point hw.plus
    | places hw hp short => exact .places hw.plus hp.plus short

end Numeral

namespace Decimal

variable {s w p : List Char} {k v : Nat} {q : ℚ}

/-- Without a point the whole text is in front of it. -/
theorem splitPoint_of_no_point (h : '.' ∉ s) : splitPoint s = (s, []) := by
  induction s with
  | nil => rfl
  | cons c s ih =>
    obtain ⟨hc, hs⟩ := not_or.1 (mt List.mem_cons.2 h)
    rw [splitPoint, if_neg (Ne.symm hc), ih hs]

/-- What the places are worth: nothing if there are none, else as many units of the last place as
they say. -/
theorem placesValue?_eq_some_iff (short : p.length ≤ 18) :
    placesValue? p = some v ↔
      p = [] ∧ v = 0 ∨ ∃ m, Signed plusSigns p m ∧ v = m * 10 ^ (18 - p.length) := by
  unfold placesValue?
  cases hp : p with
  | nil =>
    have none_signed : ¬ ∃ m, Signed plusSigns [] m ∧ v = m * 10 ^ 18 :=
      fun ⟨m, h, _⟩ => h.nonempty rfl
    rw [List.isEmpty_nil, if_pos rfl, Option.some.injEq]
    exact ⟨fun h => .inl ⟨rfl, h.symm⟩, fun h => h.elim (·.2.symm) (absurd · none_signed)⟩
  | cons c rest =>
    rw [← hp]
    -- At most eighteen places are worth less than one, so the bound does not matter here.
    have fits : ∀ {m}, Signed plusSigns p m → m < decimalBound := fun h =>
      Nat.lt_of_lt_of_le h.lt (Nat.le_trans (Nat.pow_le_pow_right (by decide) short) (by decide))
    have some_places : p ≠ [] := hp ▸ List.cons_ne_nil _ _
    rw [if_neg (by simpa using some_places), Option.map_eq_some_iff]
    constructor
    · rintro ⟨m, h, rfl⟩
      exact .inr ⟨m, (readBounded?_eq_some_iff.1 h).2, rfl⟩
    · rintro (h | ⟨m, h, rfl⟩)
      · exact absurd h.1 some_places
      · exact ⟨m, readBounded?_eq_some_iff.2 ⟨fits h, h⟩, rfl⟩

/-- What a text is worth that is divided at its first point. -/
theorem atomics?_eq_some_iff (hs : splitPoint s = (w, p)) :
    atomics? s = some k ↔ p.length ≤ 18 ∧ ∃ n v, n < decimalBound ∧ Signed plusSigns w n ∧
      placesValue? p = some v ∧ k = n * decimalUnit + v := by
  unfold atomics?
  rw [hs]
  dsimp only
  split
  · next refused =>
    refine iff_of_false (Option.some_ne_none k).symm ?_
    rintro ⟨short, n, v, -, hn, -⟩
    rw [Bool.or_eq_true, List.isEmpty_iff, decide_eq_true_eq] at refused
    exact refused.elim hn.nonempty (Nat.not_lt.2 short)
  · next kept =>
    rw [Bool.or_eq_true, List.isEmpty_iff, decide_eq_true_eq, not_or, Nat.not_lt] at kept
    split
    · next n v hn hv =>
      obtain ⟨small, signed⟩ := readBounded?_eq_some_iff.1 hn
      rw [Option.some.injEq, hv]
      constructor
      · rintro rfl
        exact ⟨kept.2, n, v, small, signed, rfl, rfl⟩
      · rintro ⟨-, n', v', small', signed', hv', rfl⟩
        have hn' := readBounded?_eq_some_iff.2 ⟨small', signed'⟩
        rw [Option.some.inj (hn.symm.trans hn'), Option.some.inj hv']
    · next unread =>
      refine iff_of_false (Option.some_ne_none k).symm ?_
      rintro ⟨-, n, v, small, signed, hv, -⟩
      exact unread n v (readBounded?_eq_some_iff.2 ⟨small, signed⟩) hv

/-- One whole is not zero. -/
theorem unit_ne_zero : (decimalUnit : ℚ) ≠ 0 := by
  unfold decimalUnit
  norm_num

/-- Places are worth the same as a fraction of one whole. -/
theorem cast_places {l m : Nat} (short : l ≤ 18) :
    ((m * 10 ^ (18 - l) : Nat) : ℚ) = m / 10 ^ l * decimalUnit := by
  have unit : (decimalUnit : ℚ) = 10 ^ (18 - l) * 10 ^ l := by
    rw [← pow_add, Nat.sub_add_cancel short]
    unfold decimalUnit
    norm_num
  rw [unit, Nat.cast_mul, Nat.cast_pow]
  field_simp
  norm_num

/-- A text that is worth something is a numeral, of the number that is worth that. -/
theorem numeral_of_atomics? (h : atomics? s = some k) :
    Numeral plusSigns s (k / decimalUnit) := by
  have worth : ∀ {n v : Nat} {x : ℚ}, (v : ℚ) = x * decimalUnit →
      ((n * decimalUnit + v : Nat) : ℚ) / decimalUnit = n + x := by
    intro n v x hv
    rw [Nat.cast_add, Nat.cast_mul, hv, ← add_mul, mul_div_cancel_right₀ _ unit_ne_zero]
  by_cases point : '.' ∈ s
  · obtain ⟨w, p, rfl, first⟩ := List.eq_append_cons_of_mem point
    obtain ⟨short, n, v, -, hw, hv, rfl⟩ :=
      (atomics?_eq_some_iff (splitPoint_append first)).1 h
    obtain ⟨rfl, rfl⟩ | ⟨m, hp, rfl⟩ := (placesValue?_eq_some_iff short).1 hv
    · rw [worth (x := 0) (by simp), add_zero]
      exact .point hw
    · rw [worth (cast_places short)]
      exact .places hw hp short
  · obtain ⟨-, n, v, -, hw, hv, rfl⟩ := (atomics?_eq_some_iff (splitPoint_of_no_point point)).1 h
    obtain rfl : 0 = v := Option.some.inj hv
    rw [worth (x := 0) (by simp), add_zero]
    exact .whole hw

/-- A numeral whose number is small enough is worth that. -/
theorem atomics?_of_numeral (h : Numeral plusSigns s q) (small : q * decimalUnit < decimalBound) :
    ∃ k, atomics? s = some k ∧ (k : ℚ) = q * decimalUnit := by
  have below : ∀ {n v : Nat}, ((n * decimalUnit + v : Nat) : ℚ) < decimalBound →
      n < decimalBound := by
    intro n v h
    have : n * decimalUnit + v < decimalBound := by exact_mod_cast h
    unfold decimalUnit at this
    omega
  cases h with
  | @whole _ n hw =>
    have worth : ((n * decimalUnit + 0 : Nat) : ℚ) = n * decimalUnit := by simp
    exact ⟨_, (atomics?_eq_some_iff (splitPoint_of_no_point hw.no_point)).2
      ⟨by decide, n, 0, below (worth ▸ small), hw, rfl, rfl⟩, worth⟩
  | @point w n hw =>
    have worth : ((n * decimalUnit + 0 : Nat) : ℚ) = n * decimalUnit := by simp
    exact ⟨_, (atomics?_eq_some_iff (splitPoint_append hw.no_point)).2
      ⟨by decide, n, 0, below (worth ▸ small), hw, rfl, rfl⟩, worth⟩
  | @places w p n m hw hp short =>
    have worth : ((n * decimalUnit + m * 10 ^ (18 - p.length) : Nat) : ℚ) =
        (n + m / 10 ^ p.length) * decimalUnit := by
      rw [Nat.cast_add, Nat.cast_mul, cast_places short, add_mul]
    exact ⟨_, (atomics?_eq_some_iff (splitPoint_append hw.no_point)).2
      ⟨short, n, _, below (worth ▸ small), hw,
        (placesValue?_eq_some_iff short).2 (.inr ⟨m, hp, rfl⟩), rfl⟩, worth⟩

/-- A text that is read exactly as the numerals with the given signs say. -/
structure ReadBy (signs : List (List Char)) (s : String) : Prop where
  /-- A numeral whose number fits is read as that number. -/
  accepted : ∀ q, Numeral signs s.toList q → q * decimalUnit < decimalBound →
    ∃ d, parse s = .ok d ∧ (d.atomics : ℚ) = q * decimalUnit
  /-- All else is an error, which has the text. -/
  refused : (∀ q, Numeral signs s.toList q → decimalBound ≤ q * decimalUnit) →
    parse s = .error ⟨s⟩

/-- What is read is worth its scaled number. -/
theorem parse_ok_iff {s : String} {d : Decimal} :
    parse s = .ok d ↔ atomics? s.toList = some d.atomics := by
  unfold parse
  cases h : atomics? s.toList with
  | none => simp
  | some k =>
    rw [Option.bind_some, ofAtomics?]
    by_cases hk : k < decimalBound
    · rw [dif_pos hk]
      constructor
      · intro h
        cases h
        rfl
      · intro h
        cases h
        rfl
    · rw [dif_neg hk]
      refine iff_of_false (fun h => by cases h) fun h => hk ?_
      rw [Option.some.inj h]
      exact d.atomics_lt

/-- Every text that is not read is an error, which has the text. -/
theorem parse_error {s : String} (h : ∀ d, parse s ≠ .ok d) : parse s = .error ⟨s⟩ := by
  unfold parse at h ⊢
  split
  · next d hd => exact absurd (by rw [hd]) (h d)
  · rfl

/-- Every text is read exactly as the numerals with plus signs say, so what the numerals without
signs say holds of a text unless it has a plus sign and is read. -/
theorem parse_numerals (s : String) :
    ReadBy plusSigns s ∧
      (ReadBy [[]] s ↔ ('+' ∈ s.toList → parse s = .error ⟨s⟩)) := by
  have all : ReadBy plusSigns s := by
    refine ⟨fun q hq small => ?_, fun none_fits => parse_error fun d hd => ?_⟩
    · obtain ⟨k, hk, worth⟩ := atomics?_of_numeral hq small
      have bound : k < decimalBound := by
        rw [← worth] at small
        exact_mod_cast small
      exact ⟨⟨k, bound⟩, parse_ok_iff.2 hk, worth⟩
    · have large := none_fits _ (numeral_of_atomics? (parse_ok_iff.1 hd))
      rw [div_mul_cancel₀ _ unit_ne_zero] at large
      exact absurd d.atomics_lt (Nat.not_lt.2 (by exact_mod_cast large))
  refine ⟨all, fun h plus => h.refused fun q hq => absurd plus hq.no_plus, fun h => ?_⟩
  by_cases plus : '+' ∈ s.toList
  · exact ⟨fun q hq => absurd plus hq.no_plus, fun _ => h plus⟩
  · have same := fun q => Numeral.plusSigns_iff (q := q) plus
    exact ⟨fun q hq => all.accepted q ((same q).2 hq),
      fun none_fits => all.refused fun q hq => none_fits q ((same q).1 hq)⟩

/-- A plus sign in front of the places is read and takes up one of them: five units of the first
place become five units of the second. -/
theorem parse_plus_places :
    parse "1.+5" = .ok ⟨1050000000000000000, by decide⟩ ∧ ¬ ReadBy [[]] "1.+5" := by
  have read : parse "1.+5" = .ok ⟨1050000000000000000, by decide⟩ := by decide
  refine ⟨read, fun h => ?_⟩
  have refused := h.refused fun q hq => absurd (by decide) hq.no_plus
  rw [read] at refused
  cases refused

end Decimal

end TestChain
