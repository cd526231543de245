import Mathlib.Data.List.TakeWhile
import TestChain.Proofs.Coins
import TestChain.Proofs.Text.Digits

/-!
# The texts of coins

A coin is written as its amount and its denomination with nothing between them, and a set as its
coins, divided by commas. A denomination begins with a letter and has no comma. So the digits with
which the text of a coin begins are its amount (`Coin.takeWhile_text`), the texts of the coins are
what the commas divide the text of a set into (`Coins.splitOn_text`), and sets of valid
denominations with the same text are the same, whatever the order of their coins
(`Coins.eq_of_text_eq`).
-/

namespace TestChain

open Text

/-! ## Denominations -/

/-- A letter is no digit. -/
theorem isDigit_of_isAlpha {c : Char} (h : c.isAlpha = true) : c.isDigit = false := by
  have code : 'A'.val.toNat = 65 ∧ 'Z'.val.toNat = 90 ∧ 'a'.val.toNat = 97 ∧ 'z'.val.toNat = 122 ∧
      '0'.val.toNat = 48 ∧ '9'.val.toNat = 57 := ⟨rfl, rfl, rfl, rfl, rfl, rfl⟩
  unfold Char.isAlpha Char.isUpper Char.isLower at h
  unfold Char.isDigit
  rw [Bool.eq_false_iff]
  simp only [Bool.or_eq_true, Bool.and_eq_true, decide_eq_true_eq, ne_eq, ge_iff_le,
    UInt32.le_iff_toNat_le, code] at h ⊢
  omega

/-- A denomination begins with a letter, and none of its characters is a comma. -/
theorem exists_cons_of_isDenom {denom : String} (h : isDenom denom = true) :
    ∃ c rest, denom.toList = c :: rest ∧ c.isAlpha = true ∧ ',' ∉ denom.toList := by
  unfold isDenom at h
  obtain ⟨-, chars⟩ := Bool.and_eq_true_iff.1 h
  split at chars
  · cases chars
  · next c rest parts =>
    obtain ⟨letter, others⟩ := Bool.and_eq_true_iff.1 chars
    refine ⟨c, rest, parts, letter, fun comma => ?_⟩
    rw [parts] at comma
    rcases List.mem_cons.1 comma with rfl | comma
    · cases letter
    · cases List.all_eq_true.1 others ',' comma

/-! ## One coin -/

namespace Coin

variable {c d : Coin}

/-- The text of a coin has the digits of its amount and then its denomination. -/
theorem toList_text (c : Coin) :
    c.text.toList = natDigits 10 c.amount.toNat ++ c.denom.toList := by
  unfold text
  rw [String.toList_append, Nat.toString_eq_repr, Nat.toList_repr]
  rfl

/-- The text of a coin is not empty. -/
theorem toList_text_ne_nil (c : Coin) : c.text.toList ≠ [] := by
  rw [toList_text]
  exact List.append_ne_nil_of_left_ne_nil Nat.toDigits_ne_nil _

/-- The digits with which the text of a coin begins are those of its amount. -/
theorem takeWhile_text (hc : isDenom c.denom = true) :
    c.text.toList.takeWhile Char.isDigit = natDigits 10 c.amount.toNat := by
  obtain ⟨first, rest, parts, letter, -⟩ := exists_cons_of_isDenom hc
  rw [toList_text, List.takeWhile_append_of_pos fun x hx => isDigit_of_mem_natDigits hx, parts,
    List.takeWhile_cons_of_neg (Bool.eq_false_iff.1 (isDigit_of_isAlpha letter)), List.append_nil]

/-- There is no comma in the text of a coin. -/
theorem comma_not_mem_text (hc : isDenom c.denom = true) : ',' ∉ c.text.toList := by
  obtain ⟨-, -, -, -, comma⟩ := exists_cons_of_isDenom hc
  rw [toList_text]
  intro mem
  rcases List.mem_append.1 mem with mem | mem
  · cases isDigit_of_mem_natDigits mem
  · exact comma mem

/-- Coins of valid denominations with the same text are the same. -/
theorem eq_of_text_eq (hc : isDenom c.denom = true) (hd : isDenom d.denom = true)
    (same : c.text.toList = d.text.toList) : c = d := by
  have digits : natDigits 10 c.amount.toNat = natDigits 10 d.amount.toNat := by
    rw [← takeWhile_text hc, same, takeWhile_text hd]
  have read := congrArg (readNat? 10) digits
  simp only [readNat?_natDigits (by decide : 1 < 10) (by decide)] at read
  have amounts : c.amount = d.amount := UInt64.toNat_inj.1 (Option.some.inj read)
  rw [toList_text, toList_text, digits, List.append_cancel_left_eq, String.toList_inj] at same
  obtain ⟨denom, amount⟩ := c
  exact congr (congrArg Coin.mk same) amounts

end Coin

/-! ## Sets -/

namespace Coins

variable {s t : Coins}

/-- All denominations of a set are valid. -/
def HasDenoms (s : Coins) : Prop :=
  ∀ c ∈ s.toList, isDenom c.denom = true

/-- The commas divide the text of a set into those of its coins. -/
theorem splitOn_text (hs : s.HasDenoms) (some_coins : s.toList ≠ []) :
    s.text.toList.splitOn ',' = s.toList.map fun c => c.text.toList := by
  unfold text
  rw [String.toList_intercalate, List.map_map]
  refine List.splitOn_intercalate ',' (fun part hpart => ?_) (mt List.map_eq_nil_iff.1 some_coins)
  obtain ⟨c, hc, rfl⟩ := List.mem_map.1 hpart
  exact Coin.comma_not_mem_text (hs c hc)

/-- Only the set without coins has an empty text. -/
theorem toList_text_eq_nil_iff (hs : s.HasDenoms) : s.text.toList = [] ↔ s.toList = [] := by
  constructor
  · intro empty
    by_contra some_coins
    have parts := splitOn_text hs some_coins
    obtain ⟨c, rest, coins⟩ := List.exists_cons_of_ne_nil some_coins
    rw [empty, coins, List.splitOn_nil, List.map_cons, List.cons.injEq] at parts
    exact c.toList_text_ne_nil parts.1.symm
  · intro none
    unfold text
    rw [none]
    rfl

/-- Lists of coins of valid denominations are the same if the texts of their coins are. -/
theorem eq_of_map_text_eq {cs ds : List Coin} (hcs : ∀ c ∈ cs, isDenom c.denom = true)
    (hds : ∀ d ∈ ds, isDenom d.denom = true)
    (same : (cs.map fun c => c.text.toList) = ds.map fun d => d.text.toList) : cs = ds := by
  induction cs generalizing ds with
  | nil => exact (List.map_eq_nil_iff.1 same.symm).symm
  | cons c cs ih =>
    cases ds with
    | nil => cases same
    | cons d ds =>
      obtain ⟨hc, hcs⟩ := List.forall_mem_cons.1 hcs
      obtain ⟨hd, hds⟩ := List.forall_mem_cons.1 hds
      obtain ⟨first, others⟩ := List.cons.inj same
      rw [Coin.eq_of_text_eq hc hd first, ih hcs hds others]

/-- Sets of valid denominations with the same text are the same. -/
theorem eq_of_text_eq (hs : s.HasDenoms) (ht : t.HasDenoms) (same : s.text = t.text) : s = t := by
  obtain ⟨cs⟩ := s
  obtain ⟨ds⟩ := t
  refine congrArg Coins.mk ?_
  have empty : cs = [] ↔ ds = [] := by
    rw [← toList_text_eq_nil_iff hs, ← toList_text_eq_nil_iff ht, same]
  by_cases none : cs = []
  · rw [none, empty.1 none]
  · refine eq_of_map_text_eq hs ht ?_
    rw [← splitOn_text hs none, same, splitOn_text ht (mt empty.2 none)]

/-- A denomination that begins with a digit could be taken for a part of the amount. -/
example : text ⟨[⟨"1abc", 1⟩]⟩ = text ⟨[⟨"abc", 11⟩]⟩ := by decide

end Coins

end TestChain
