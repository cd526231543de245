import TestChain.Json.Writer
import TestChain.Proofs.Json.Grammar
import TestChain.Proofs.Text.Digits

/-!
# Tokens of JSON texts are read

The reader takes the tokens of the grammar off the front of a text: the pieces of a text between
quotes (`readString_of_quoted`) and a numeral, as long as nothing follows that would go on with it
(`Follows`, `readNumber_of_text`). Texts and whole numbers are written as such tokens
(`quoted_escaped`, `numeralText_natDigits`), and their values are the texts and numbers that were
written (`join_map_pieceOf`, `value?_wholeNumeral`).
-/

namespace TestChain.Reading

/-! ## Texts -/

/-- A piece is taken off the front of a text. -/
theorem pieces_append {p : Piece} {w : List Char} (h : PieceText p w) (rest : List Char) :
    pieces (w ++ rest) = consPiece p (pieces rest) := by
  cases h with
  | @plain c hquote hslash hcontrol =>
    -- The character is no quote and begins no escape.
    rw [List.singleton_append, pieces.eq_def]
    split
    · rename_i heq; cases heq
    · rename_i heq; cases heq; exact absurd rfl hquote
    · rename_i heq; cases heq; exact absurd rfl hslash
    · rename_i heq; cases heq; exact absurd rfl hslash
    · rename_i heq
      cases heq
      rw [if_neg (by simp [Nat.not_lt.2 hcontrol, hslash])]
  | @letter c x h =>
    -- No letter stands for a unit, so the escape is this one.
    rw [List.cons_append, List.singleton_append, pieces.eq_def]
    split
    · rename_i heq; cases heq
    · rename_i heq; cases heq
    · rename_i heq
      cases heq
      cases h
    · rename_i heq
      cases heq
      rw [h]
    · rename_i hescape heq
      cases heq
      exact (hescape _ _ rfl rfl).elim
  | unit h => simp only [List.cons_append, List.nil_append, pieces, h]

/-- The pieces up to the closing quote are taken off the front of a text. -/
theorem pieces_of_quoted {ps : List Piece} {s : List Char} (h : Quoted ps s) (rest : List Char) :
    pieces (s ++ rest) = some (ps, rest) := by
  induction h with
  | close => rfl
  | piece hp _ ih =>
    rw [List.append_assoc, pieces_append hp, ih]
    rfl

/-- A text between quotes is read by its pieces. -/
theorem readString_of_quoted {ps : List Piece} {s : List Char} (h : Quoted ps s)
    (rest : List Char) : readString (s ++ rest) = some ((join ps).map String.ofList, rest) := by
  unfold readString
  rw [pieces_of_quoted h]

/-! ## Written texts -/

/-- The piece of a text that a character is written as. -/
def pieceOf (c : Char) : Piece :=
  if (escapeChar c).take 2 = ['\\', 'u'] then .unit c.toNat else .char c

/-- A control is written by its number in four hexadecimal digits. -/
theorem unit?_padded (n : Fin 32) :
    ∃ a b c d, Text.padded 16 4 n.val = [a, b, c, d] ∧ unit? a b c d = some n.val := by
  have all : ∀ n : Fin 32, Text.padded 16 4 n.val =
      [(Text.padded 16 4 n.val).getD 0 ' ', (Text.padded 16 4 n.val).getD 1 ' ',
        (Text.padded 16 4 n.val).getD 2 ' ', (Text.padded 16 4 n.val).getD 3 ' '] ∧
      unit? ((Text.padded 16 4 n.val).getD 0 ' ') ((Text.padded 16 4 n.val).getD 1 ' ')
        ((Text.padded 16 4 n.val).getD 2 ' ') ((Text.padded 16 4 n.val).getD 3 ' ') =
          some n.val := by
    decide
  exact ⟨_, _, _, _, (all n).1, (all n).2⟩

/-- A character is written as its piece. -/
theorem pieceText_escapeChar (c : Char) : PieceText (pieceOf c) (escapeChar c) := by
  unfold pieceOf escapeChar
  split
  · exact .letter (by simp_all [letter?])
  split
  · exact .letter (by simp_all [letter?])
  split
  · exact .letter (by simp_all [letter?])
  split
  · exact .letter (by simp_all [letter?])
  split
  · exact .letter (by simp_all [letter?])
  split
  · exact .letter (by simp_all [letter?])
  split
  · exact .letter (by simp_all [letter?])
  -- The other controls have no escape of their own and are written by their numbers.
  split
  · rename_i h
    obtain ⟨a, b, c', d, hpad, hunit⟩ := unit?_padded ⟨c.toNat, h⟩
    simp only at hpad hunit
    rw [hpad]
    exact .unit hunit
  · rename_i hquote hslash _ _ _ _ _ hcontrol
    rw [if_neg (by simp)]
    exact .plain hquote hslash (Nat.not_lt.1 hcontrol)

/-- A text is written as the pieces of its characters. -/
theorem quoted_escaped (s : List Char) :
    Quoted (s.map pieceOf) (s.flatMap escapeChar ++ ['"']) := by
  induction s with
  | nil => exact .close
  | cons c s ih =>
    rw [List.flatMap_cons, List.append_assoc]
    exact .piece (pieceText_escapeChar c) ih

/-- A character that is written by its number is a control. -/
theorem pieceOf_eq (c : Char) :
    pieceOf c = .char c ∨ (pieceOf c = .unit c.toNat ∧ c.toNat < 32) := by
  unfold pieceOf
  split
  · rename_i h
    refine .inr ⟨rfl, ?_⟩
    unfold escapeChar at h
    split at h <;> try cases h
    split at h <;> try cases h
    split at h <;> try cases h
    split at h <;> try cases h
    split at h <;> try cases h
    split at h <;> try cases h
    split at h <;> try cases h
    split at h
    · assumption
    · cases h
  · exact .inl rfl

/-- The pieces of a text are joined to it. -/
theorem join_map_pieceOf (s : List Char) : join (s.map pieceOf) = some s := by
  induction s with
  | nil => rfl
  | cons c s ih =>
    rw [List.map_cons]
    rcases pieceOf_eq c with h | ⟨h, hlt⟩
    · rw [h, join, ih]
      rfl
    · -- No control is a surrogate.
      have high : ¬(0xD800 ≤ c.toNat) := by omega
      have low : ¬(0xDC00 ≤ c.toNat) := by omega
      -- So it is neither the first nor the second half of a pair, whatever comes after it.
      rw [h, join.eq_def]
      split
      · rename_i heq; cases heq
      · rename_i heq; cases heq
      · rename_i n m rest heq
        obtain ⟨hn, htail⟩ := List.cons.inj heq
        rw [← Piece.unit.inj hn]
        simp only [high, low, decide_false, Bool.false_and, if_false, Bool.false_eq_true]
        rw [← htail, ih]
        simp [Char.ofNat_toNat]
      · rename_i n rest _ heq
        obtain ⟨hn, htail⟩ := List.cons.inj heq
        rw [← Piece.unit.inj hn]
        simp only [high, decide_false, Bool.false_and, if_false, Bool.false_eq_true]
        rw [← htail, ih]
        simp [Char.ofNat_toNat]

/-! ## Numerals -/

/-- A text does not go on with a number. -/
def Follows : List Char → Prop
  | [] => True
  | c :: _ => c.isDigit = false ∧ c ≠ '.' ∧ c ≠ 'e' ∧ c ≠ 'E'

/-- A text does not begin with a digit. -/
def NoDigit (s : List Char) : Prop :=
  ∀ c t, s = c :: t → c.isDigit = false

/-- Digits are read up to what follows them. -/
theorem spanDigits_append {s rest : List Char} (hs : ∀ c ∈ s, c.isDigit = true)
    (hrest : NoDigit rest) : spanDigits (s ++ rest) = (s, rest) := by
  unfold spanDigits
  induction s with
  | nil =>
    cases rest with
    | nil => rfl
    | cons c rest => simp [hrest c rest rfl]
  | cons c s ih =>
    have hc := hs c List.mem_cons_self
    obtain ⟨htake, hdrop⟩ := Prod.mk.inj (ih fun d hd => hs d (List.mem_cons_of_mem _ hd))
    simp only [List.cons_append, List.takeWhile_cons, hc, if_true, htake, List.dropWhile_cons,
      hdrop]

/-- What does not go on with a number does not begin with a digit. -/
theorem Follows.noDigit {rest : List Char} (h : Follows rest) : NoDigit rest := by
  rintro c t rfl
  exact h.1

/-- Digits begin with a digit. -/
theorem Digits.isDigit_front {ds rest t : List Char} {c : Char} (h : Digits ds)
    (heq : ds ++ rest = c :: t) : c.isDigit = true := by
  obtain ⟨d, ds, rfl⟩ := List.exists_cons_of_ne_nil h.1
  obtain ⟨rfl, -⟩ := List.cons.inj heq
  exact h.2 d List.mem_cons_self

/-- The exponent and what follows it begin without a digit and without a point. -/
theorem ExponentText.front {exponent : Option (Bool × List Char)} {e rest : List Char}
    (h : ExponentText exponent e) (hrest : Follows rest) :
    NoDigit (e ++ rest) ∧ ∀ t, e ++ rest ≠ '.' :: t := by
  have letter : ∀ {c : Char} {s : List Char}, c = 'e' ∨ c = 'E' →
      NoDigit (c :: s) ∧ ∀ t, c :: s ≠ '.' :: t := fun hc => by
    rcases hc with rfl | rfl
    all_goals
      refine ⟨fun c t h => ?_, fun t h => ?_⟩
      · cases h
        rfl
      · cases h
  cases h with
  | absent =>
    refine ⟨hrest.noDigit, fun t h => ?_⟩
    rw [List.nil_append] at h
    rw [h] at hrest
    exact hrest.2.1 rfl
  | bare hc _ => exact letter hc
  | plus hc _ => exact letter hc
  | minus hc _ => exact letter hc

/-- An exponent is taken off the front of a text. -/
theorem readExponent_append {exponent : Option (Bool × List Char)} {e rest : List Char}
    (h : ExponentText exponent e) (hrest : Follows rest) :
    readExponent (e ++ rest) = some (exponent, rest) := by
  cases h with
  | absent =>
    rw [List.nil_append]
    unfold readExponent
    split
    · rw [if_neg (by simp [hrest.2.2])]
    · rfl
  | @bare c ds hc h =>
    have read := spanDigits_append h.2 hrest.noDigit
    unfold readExponent
    simp only [List.cons_append, hc, decide_eq_true_eq, Bool.or_eq_true, if_true]
    -- A digit is no sign.
    split
    · rename_i heq
      cases h.isDigit_front heq
    · rename_i heq
      cases h.isDigit_front heq
    · simp only [read, List.isEmpty_iff, h.1, if_false]
  | @plus c ds hc h =>
    have read := spanDigits_append h.2 hrest.noDigit
    unfold readExponent
    simp only [List.cons_append, hc, decide_eq_true_eq, Bool.or_eq_true, if_true, read,
      List.isEmpty_iff, h.1, if_false]
  | @minus c ds hc h =>
    have read := spanDigits_append h.2 hrest.noDigit
    unfold readExponent
    simp only [List.cons_append, hc, decide_eq_true_eq, Bool.or_eq_true, if_true, read,
      List.isEmpty_iff, h.1, if_false]

/-- A fraction is taken off the front of a text. -/
theorem readFraction_append {fraction : Option (List Char)} {f rest : List Char}
    (h : FractionText fraction f) (hrest : NoDigit rest ∧ ∀ t, rest ≠ '.' :: t) :
    readFraction (f ++ rest) = some (fraction, rest) := by
  cases h with
  | absent =>
    rw [List.nil_append]
    unfold readFraction
    split
    · exact absurd rfl (hrest.2 _)
    · rfl
  | @point ds h =>
    have read := spanDigits_append h.2 hrest.1
    unfold readFraction
    simp only [List.cons_append, read, List.isEmpty_iff, h.1, if_false]

/-- A numeral is taken off the front of a text, after its sign. -/
theorem readNumeral_append {x : Numeral} {s rest : List Char} (h : NumeralText x s)
    (hrest : Follows rest) : readNumeral x.negative (s ++ rest) = some (x, rest) := by
  cases h with
  | @parts negative whole f e fraction exponent hwhole hzero hf he =>
    have front := he.front hrest
    have fraction := readFraction_append hf front
    have exponent := readExponent_append he hrest
    have digits : spanDigits (whole ++ (f ++ (e ++ rest))) = (whole, f ++ (e ++ rest)) := by
      refine spanDigits_append hwhole.2 ?_
      cases hf with
      | absent => exact front.1
      | point _ =>
        intro c t h
        cases h
        rfl
    unfold readNumeral
    rw [List.append_assoc, List.append_assoc, digits]
    dsimp only
    split
    · exact absurd rfl hwhole.1
    · cases hzero rfl
    · rw [fraction]
      dsimp only
      rw [exponent]

/-- A numeral is read, after its sign. -/
theorem readNumber_of_text {x : Numeral} {s rest : List Char} (h : NumeralText x s)
    (hrest : Follows rest) : readNumber x.negative (s ++ rest) = (numeralNode x, some rest) := by
  unfold readNumber numeralNode
  rw [readNumeral_append h hrest]
  dsimp only
  cases x.value? <;> rfl

/-! ## Written numbers -/

/-- The digits of a positive number do not begin with zero. -/
theorem head?_natDigits {n : Nat} (h : 0 < n) : (Text.natDigits 10 n).head? ≠ some '0' := by
  unfold Text.natDigits
  -- The induction is on the digits: the last one does not decide about the first.
  induction n using Nat.base_induction 10 (by decide) with
  | single m hm =>
    rw [Nat.toDigits_of_lt_base hm]
    simp only [List.head?_cons, ne_eq, Option.some.injEq, Nat.digitChar_eq_zero]
    omega
  | digit m k hk hm ih =>
    have first := ih hm
    rw [← Nat.toDigits_append_toDigits (by decide) hm hk]
    cases hd : Nat.toDigits 10 m with
    | nil => exact absurd hd Nat.toDigits_ne_nil
    | cons c rest =>
      rw [hd] at first
      simpa using first

/-- The digits of a number are a numeral. -/
theorem numeralText_natDigits (negative : Bool) (n : Nat) :
    NumeralText ⟨negative, Text.natDigits 10 n, none, none⟩ (Text.natDigits 10 n) := by
  have digits : Digits (Text.natDigits 10 n) :=
    ⟨Nat.toDigits_ne_nil, fun c hc => Text.isDigit_of_mem_natDigits hc⟩
  have zero : (Text.natDigits 10 n).head? = some '0' → Text.natDigits 10 n = ['0'] := fun h => by
    rcases Nat.eq_zero_or_pos n with rfl | hn
    · rfl
    · exact absurd h (head?_natDigits hn)
  have text : NumeralText ⟨negative, Text.natDigits 10 n, none, none⟩
      (Text.natDigits 10 n ++ ([] ++ [])) := .parts digits zero .absent .absent
  rwa [List.append_nil, List.append_nil] at text

/-- Digits of a number of 64 bits are read on to their end. -/
theorem significand_append {n m : Nat} {s t : List Char} (h : significand n s = (m, [])) :
    significand n (s ++ t) = significand m t := by
  induction s generalizing n with
  | nil =>
    cases h
    rfl
  | cons c s ih =>
    simp only [significand, List.cons_append] at h ⊢
    split at h
    · rename_i hle
      rw [if_pos hle]
      exact ih h
    · cases h

/-- The digits of a number of 64 bits are read to their end. -/
theorem significand_natDigits {n : Nat} (h : n ≤ maxSignificand) :
    significand 0 (Text.natDigits 10 n) = (n, []) := by
  -- Every number on the way is at most the whole number, so each digit is taken in.
  have digit (m k : Nat) (hk : k < 10) (hmk : 10 * m + k ≤ maxSignificand) :
      significand m [Nat.digitChar k] = (10 * m + k, []) := by
    unfold significand
    rw [Nat.toNat_digitChar_sub_48_of_lt_ten hk]
    dsimp only
    rw [if_pos hmk]
    rfl
  unfold Text.natDigits
  induction n using Nat.base_induction 10 (by decide) with
  | single m hm =>
    rw [Nat.toDigits_of_lt_base hm, digit 0 m hm (by omega)]
    simp
  | digit m k hk hm ih =>
    rw [← Nat.toDigits_append_toDigits (by decide) hm hk,
      significand_append (ih (by omega)), Nat.toDigits_of_lt_base hk]
    exact digit m k hk h

/-- A number that fits is a whole number. -/
theorem ofInt?_of_fits {i : Int} (fits : fitsWord i) : Number.ofInt? i = some (.whole i fits) :=
  dif_pos fits

/-- The numeral that a whole number is written as. -/
def wholeNumeral (i : Int) : Numeral :=
  ⟨i < 0, Text.natDigits 10 i.natAbs, none, none⟩

/-- The numeral that a whole number is written as stands for the number. -/
theorem value?_wholeNumeral {i : Int} (fits : fitsWord i) :
    (wholeNumeral i).value? = some (.whole i fits) := by
  have small : i.natAbs ≤ maxSignificand := by
    have := fits.1
    have := fits.2
    unfold maxSignificand
    omega
  have whole : (if decide (i < 0) then -(i.natAbs : Int) else i.natAbs) = i := by
    by_cases h : i < 0
    · rw [if_pos (decide_eq_true h)]
      omega
    · rw [if_neg (by rw [decide_eq_true_eq]; exact h)]
      omega
  -- Only zero has no digits but zero, and it is not negative.
  have zero : (decide (i < 0) && decide (i.natAbs = 0)) = false := by
    rw [Bool.and_eq_false_iff, decide_eq_false_iff_not, decide_eq_false_iff_not]
    omega
  unfold wholeNumeral Numeral.value?
  simp only [significand_natDigits small, whole, zero, ofInt?_of_fits fits, List.isEmpty_nil,
    if_true, if_false, Bool.false_eq_true]

end TestChain.Reading
