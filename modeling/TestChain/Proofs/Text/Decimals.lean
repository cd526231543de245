import TestChain.Proofs.Text.Numerals

/-!
# Decimals are written exactly

A number has one text of digits without a zero in front (`Text.shortest_iff`), and one of a given
length (`Text.digits_length_iff`). So a decimal has one text in full (`Decimal.InFull`): the first
kind for what it is worth in whole ones, a point, and the second kind with eighteen places for the
rest. That is the text which is written for it, up to the largest decimal, and the decimal is read
back from it with nothing that goes beyond 128 bits on the way (`Decimal.text_exact`).
-/

namespace TestChain

namespace Text

variable {c : Char} {s t : List Char} {m n : Nat}

/-! ## The digits of a number -/

/-- The code of a digit is that of zero and its value more. -/
theorem toNat_of_isDigit (h : c.isDigit = true) :
    c.toNat = '0'.toNat + (c.toNat - '0'.toNat) ∧ c.toNat - '0'.toNat < 10 := by
  have zero : '0' ≤ c := by
    unfold Char.isDigit at h
    rw [Bool.and_eq_true, decide_eq_true_eq] at h
    exact h.1
  have small := (digitValue?_decimal_iff.2 ⟨h, rfl⟩).2
  have : '0'.toNat ≤ c.toNat := zero
  exact ⟨by omega, small⟩

/-- From the number that equally many digits give in the end, the digits are known and the number
they started from. -/
theorem eq_of_ofDigitChars_eq (hs : ∀ c ∈ s, c.isDigit = true) (ht : ∀ c ∈ t, c.isDigit = true)
    (size : s.length = t.length)
    (same : Nat.ofDigitChars 10 s m = Nat.ofDigitChars 10 t n) : m = n ∧ s = t := by
  induction s generalizing t m n with
  | nil =>
    obtain rfl := List.length_eq_zero_iff.1 size.symm
    exact ⟨same, rfl⟩
  | cons c s ih =>
    obtain ⟨c', t, rfl⟩ := List.exists_cons_of_length_eq_add_one size.symm
    obtain ⟨hc, hs⟩ := List.forall_mem_cons.1 hs
    obtain ⟨hc', ht⟩ := List.forall_mem_cons.1 ht
    rw [Nat.ofDigitChars_cons, Nat.ofDigitChars_cons] at same
    obtain ⟨last, rfl⟩ := ih hs ht (Nat.succ.inj size) same
    -- The first digit is the rest of a division by ten.
    obtain ⟨code, small⟩ := toNat_of_isDigit hc
    obtain ⟨code', small'⟩ := toNat_of_isDigit hc'
    obtain rfl : c = c' := Char.toNat_inj.1 (by omega)
    exact ⟨by omega, rfl⟩

/-- A number has one text of digits of a given length. -/
theorem Digits.ext (hs : Digits s n) (ht : Digits t n) (size : s.length = t.length) : s = t :=
  (eq_of_ofDigitChars_eq hs.digit ht.digit size (hs.value.trans ht.value.symm)).2

/-- Zeros in front do not count. -/
theorem Digits.zeros (h : Digits s n) (count : Nat) :
    Digits (List.replicate count '0' ++ s) n where
  nonempty := List.append_ne_nil_of_right_ne_nil _ h.nonempty
  digit c hc := by
    rcases List.mem_append.1 hc with hc | hc
    · rw [List.eq_of_mem_replicate hc]
      rfl
    · exact h.digit c hc
  value := by
    rw [Nat.ofDigitChars_append, Nat.ofDigitChars_replicate_zero, Nat.mul_zero]
    exact h.value

/-- Digits alone are a number with a sign, which may be none. -/
theorem Digits.signed (h : Digits s n) : Signed plusSigns s n :=
  ⟨[], List.mem_cons_self, s, rfl, h⟩

/-- The digits of a number with no zero in front, but for the one of zero itself. -/
structure Shortest (s : List Char) (n : Nat) : Prop extends Digits s n where
  /-- A zero stands in front of nothing. -/
  lead : ∀ rest, s = '0' :: rest → rest = []

/-- Digits without a zero in front are no more than other ones of the number. -/
theorem Shortest.length_le (hs : Shortest s n) (ht : Digits t n) : s.length ≤ t.length := by
  by_contra longer
  -- Filled up with zeros the other ones are the same, so a zero stands in front of them.
  obtain ⟨count, size⟩ := Nat.exists_eq_add_of_lt (Nat.not_le.1 longer)
  have same : s = List.replicate (count + 1) '0' ++ t := by
    refine hs.toDigits.ext (ht.zeros _) ?_
    rw [List.length_append, List.length_replicate]
    omega
  rw [List.replicate_succ, List.cons_append] at same
  exact List.append_ne_nil_of_right_ne_nil _ ht.nonempty (hs.lead _ same)

/-- The written digits of a number have no zero in front. -/
theorem shortest_natDigits (n : Nat) : Shortest (natDigits 10 n) n := by
  have digits : Digits (natDigits 10 n) n :=
    readNat?_eq_some_iff.1 (readNat?_natDigits (by decide) (by decide) n)
  refine ⟨digits, fun rest written => ?_⟩
  by_contra more
  -- Without the zero the digits would be those of the number too, but these are not fewer.
  have fewer : Digits rest n := by
    refine ⟨more, fun c hc => digits.digit c (written ▸ List.mem_cons_of_mem _ hc), ?_⟩
    have value := digits.value
    rw [written, Nat.ofDigitChars_cons] at value
    exact value
  have bound := (Nat.length_toDigits_le_iff (by decide) (List.length_pos_iff.2 more)).2 fewer.lt
  have size : (natDigits 10 n).length = rest.length + 1 := by rw [written, List.length_cons]
  exact absurd (size ▸ bound) (Nat.not_succ_le_self _)

/-- A number has one text of digits without a zero in front, which is the one that is written. -/
theorem shortest_iff : Shortest s n ↔ s = natDigits 10 n := by
  constructor
  · intro h
    have written := shortest_natDigits n
    exact h.toDigits.ext written.toDigits
      (Nat.le_antisymm (h.length_le written.toDigits) (written.length_le h.toDigits))
  · rintro rfl
    exact shortest_natDigits n

/-- A number that fits has one text of digits of a given length, which is the one that is written
with zeros in front. -/
theorem digits_length_iff {width : Nat} (hw : 0 < width) (hn : n < 10 ^ width) :
    (Digits s n ∧ s.length = width) ↔ s = padded 10 width n := by
  have written : Digits (padded 10 width n) n :=
    readNat?_eq_some_iff.1 (readNat?_padded (by decide) (by decide) width n)
  have size := length_padded (by decide) hw hn
  constructor
  · rintro ⟨h, rfl⟩
    exact h.ext written size.symm
  · rintro rfl
    exact ⟨written, size⟩

end Text

open Text

namespace Decimal

variable {s : List Char}

/-! ## The text of a decimal -/

/-- The text in full of a number of last places: what it is worth in whole ones, without a zero in
front, a point, and the eighteen places of the rest. -/
inductive InFull : List Char → Nat → Prop
  /-- The digits of both parts are given. -/
  | mk {w p : List Char} {k : Nat} (hw : Shortest w (k / decimalUnit))
    (hp : Digits p (k % decimalUnit)) (size : p.length = 18) : InFull (w ++ '.' :: p) k

/-- Less than a whole one has at most eighteen digits. -/
theorem mod_unit_lt (k : Nat) : k % decimalUnit < 10 ^ 18 :=
  Nat.mod_lt k (by decide)

/-- A decimal has one text in full, which is the one that is written. -/
theorem inFull_iff (d : Decimal) : InFull s d.atomics ↔ s = d.text.toList := by
  have places (p : List Char) := digits_length_iff (s := p) (by decide) (mod_unit_lt d.atomics)
  unfold text
  rw [String.toList_ofList]
  constructor
  · rintro ⟨hw, hp, size⟩
    rw [shortest_iff.1 hw, (places _).1 ⟨hp, size⟩]
  · rintro rfl
    obtain ⟨hp, size⟩ := (places _).2 rfl
    exact ⟨shortest_natDigits _, hp, size⟩

/-- Different decimals have different texts. -/
theorem text_injective : Function.Injective text := fun d e same => by
  have read := d.parse_text
  rw [same, e.parse_text] at read
  exact (Except.ok.inj read).symm

/-- Both parts of a text are read, all its places count as they stand, and neither the scaled whole
ones nor their sum with the places go beyond 128 bits. -/
def Fits (s : List Char) : Prop :=
  ∃ w p n m, splitPoint s = (w, p) ∧ readBounded? 10 decimalBound w = some n ∧
    readBounded? 10 decimalBound p = some m ∧ placesValue? p = some m ∧
    n * decimalUnit < decimalBound ∧ n * decimalUnit + m < decimalBound

/-- A decimal is written exactly and read back. -/
structure Exact (d : Decimal) : Prop where
  /-- What is written is the text in full, and no other text is that. -/
  text_iff : ∀ s : String, s = d.text ↔ InFull s.toList d.atomics
  /-- It is read back. -/
  parse_text : parse d.text = .ok d
  /-- Nothing that reading it computes goes beyond 128 bits. -/
  fits : Fits d.text.toList
  /-- It is stored as its text. -/
  encode : codec.encode d = .str d.text
  /-- It comes back from the text of what is stored. -/
  ofText : codec.ofText (codec.text d) = .ok d
  /-- It comes back from the value of what is stored. -/
  ofJson : codec.ofJson (codec.toJson d) = .ok d

/-- Reading a text in full does not go beyond 128 bits if its number does not. -/
theorem InFull.fits {k : Nat} (h : InFull s k) (hk : k < decimalBound) : Fits s := by
  obtain ⟨hw, hp, size⟩ := h
  have sum : k / decimalUnit * decimalUnit + k % decimalUnit = k := Nat.div_add_mod' _ _
  have whole := Nat.div_le_self k decimalUnit
  have rest := Nat.mod_le k decimalUnit
  refine ⟨_, _, _, _, splitPoint_append hw.toDigits.signed.no_point,
    readBounded?_eq_some_iff.2 ⟨by omega, hw.toDigits.signed⟩,
    readBounded?_eq_some_iff.2 ⟨by omega, hp.signed⟩, ?_, by omega, by omega⟩
  refine (placesValue?_eq_some_iff (Nat.le_of_eq size)).2 (.inr ⟨_, hp.signed, ?_⟩)
  rw [size, Nat.sub_self, Nat.pow_zero, Nat.mul_one]

/-- The decimals are the numbers of last places below two to the 128th. Each is written as its one
text in full and is read back from it and from what is stored of it, and different ones have
different texts. -/
theorem text_exact :
    (∀ k, k < decimalBound ↔ ∃ d : Decimal, d.atomics = k) ∧ (∀ d, Exact d) ∧
      Function.Injective text := by
  refine ⟨fun k => ⟨fun hk => ⟨⟨k, hk⟩, rfl⟩, ?_⟩, fun d => ?_, text_injective⟩
  · rintro ⟨d, rfl⟩
    exact d.atomics_lt
  · exact {
      text_iff := fun s => by rw [inFull_iff, String.toList_inj]
      parse_text := d.parse_text
      fits := (d.inFull_iff.2 rfl).fits d.atomics_lt
      encode := rfl
      ofText := (d.faithful_codec (d := 0)).ofText (by decide)
      ofJson := (d.faithful_codec (d := 0)).ofJson }

/-- The largest decimal has eighteen places like any other one. -/
example : text ⟨decimalBound - 1, by decide⟩ = "340282366920938463463.374607431768211455" := by
  decide

end Decimal

end TestChain
