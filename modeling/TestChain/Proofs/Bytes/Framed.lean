import Mathlib.Algebra.GroupWithZero.Nat
import Mathlib.Data.List.Forall2
import TestChain.Bytes

/-!
# Byte strings behind their lengths

A number is told from its bytes if they are enough for it (`bigEndian_inj`). A byte string with its
length in front is therefore told from whatever follows it (`framed_append_inj`), so that such
strings can be written one after the other and taken apart again. So can any parts that are told
from what follows them, if it is known how many they are (`flatMap_append_eq_iff`).
-/

namespace TestChain.Bytes

/-- A number is told from its bytes, the lowest first. -/
theorem toNatLittleEndian_littleEndian {count value : Nat} (h : value < 256 ^ count) :
    toNatLittleEndian (littleEndian count value) = value := by
  induction count generalizing value with
  | zero =>
    rw [pow_zero] at h
    exact (Nat.lt_one_iff.1 h).symm
  | succ count ih =>
    have rest : value / 256 < 256 ^ count := by
      rw [pow_succ] at h
      omega
    have low : value.toUInt8.toNat = value % 256 := rfl
    rw [littleEndian, toNatLittleEndian, List.foldr_cons, low]
    show value % 256 + 256 * toNatLittleEndian (littleEndian count (value / 256)) = value
    rw [ih rest, Nat.mod_add_div]

/-- Numbers that are not too large are told from their bytes, the highest first. -/
theorem bigEndian_inj {count m n : Nat} (hm : m < 256 ^ count) (hn : n < 256 ^ count)
    (h : bigEndian count m = bigEndian count n) : m = n := by
  have low : littleEndian count m = littleEndian count n := List.reverse_inj.1 h
  rw [← toNatLittleEndian_littleEndian hm, low, toNatLittleEndian_littleEndian hn]

/-- A number is told from what follows its bytes. -/
theorem bigEndian_append_inj {count m n : Nat} {r s : Bytes} (hm : m < 256 ^ count)
    (hn : n < 256 ^ count) (h : bigEndian count m ++ r = bigEndian count n ++ s) :
    m = n ∧ r = s := by
  have widths : (bigEndian count m).length = (bigEndian count n).length := by
    rw [length_bigEndian, length_bigEndian]
  obtain ⟨front, back⟩ := List.append_inj h widths
  exact ⟨bigEndian_inj hm hn front, back⟩

/-- A byte string behind its length is told from what follows it. -/
theorem framed_append_inj {count : Nat} {a b r s : Bytes} (ha : a.length < 256 ^ count)
    (hb : b.length < 256 ^ count)
    (h : bigEndian count a.length ++ a ++ r = bigEndian count b.length ++ b ++ s) :
    a = b ∧ r = s := by
  rw [List.append_assoc, List.append_assoc] at h
  obtain ⟨lengths, tails⟩ := bigEndian_append_inj ha hb h
  exact List.append_inj tails lengths

/-- Parts are told from what follows them if each one is, and there are as many on both sides. -/
theorem flatMap_append_eq_iff {α : Type} {f : α → Bytes} {R : α → α → Prop} {l m : List α}
    {r s : Bytes} (hlength : l.length = m.length)
    (told : ∀ a ∈ l, ∀ b ∈ m, ∀ r s, f a ++ r = f b ++ s ↔ R a b ∧ r = s) :
    l.flatMap f ++ r = m.flatMap f ++ s ↔ List.Forall₂ R l m ∧ r = s := by
  induction l generalizing m with
  | nil =>
    rw [List.eq_nil_of_length_eq_zero hlength.symm]
    exact (and_iff_right .nil).symm
  | cons a l ih =>
    cases m with
    | nil => cases hlength
    | cons b m =>
      have first := told a List.mem_cons_self b List.mem_cons_self
      have rest := ih (Nat.succ.inj hlength) fun a ha b hb =>
        told a (List.mem_cons_of_mem _ ha) b (List.mem_cons_of_mem _ hb)
      rw [List.flatMap_cons, List.flatMap_cons, List.append_assoc, List.append_assoc, first, rest,
        List.forall₂_cons, and_assoc]

end TestChain.Bytes
