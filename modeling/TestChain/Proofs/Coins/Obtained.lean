import TestChain.Proofs.Codec.Values
import TestChain.Proofs.Coins.Sums

/-!
# Where sets of coins come from

Sets of coins are made up from coins, decoded, and changed by adding and taking (`Coins.Obtained`).
What is made up is in order, and what is added and taken keeps the order. But a set is decoded as it
is written, whatever its order and also if a denomination comes twice, so the sets that are obtained
are those in order exactly if the decoded ones among them are in order
(`Coins.obtained_iff_sorted`).
-/

namespace TestChain

namespace Codec

variable {α : Type} {c : Codec α} {a : α}

/-- A value of a text is decoded from the text's tree. -/
theorem exists_decode_of_ofText {text : String} (h : c.ofText text = .ok a) :
    ∃ left, c.decode (Json.readText text.toList).1 0 = .ok (a, left) := by
  unfold ofText ofChars at h
  generalize Json.readText text.toList = read at h ⊢
  obtain ⟨value, hrun, hreturn⟩ := except_bind_ok_iff.1 h
  obtain ⟨⟨first, left⟩, hdecode, hfirst⟩ := except_bind_ok_iff.1 hrun
  cases hfirst
  -- What follows the value is looked at last and does not change it.
  cases whole : read.2 with
  | true =>
    rw [whole, if_pos rfl] at hreturn
    cases hreturn
    exact ⟨left, hdecode⟩
  | false =>
    rw [whole, if_neg Bool.false_ne_true] at hreturn
    cases hreturn

end Codec

namespace Coins

/-- The sets of coins that can be obtained, where of the sets that a decoder gives some are allowed.
-/
inductive Obtained (allowed : Coins → Prop) : Coins → Prop where
  /-- The set without coins. -/
  | empty : Obtained allowed .empty
  /-- The set of some coins. -/
  | ofList (cs : List Coin) : Obtained allowed (.ofList cs)
  /-- The set of one coin. -/
  | single (amount : UInt64) (denom : String) : Obtained allowed (.single amount denom)
  /-- A set that is decoded from a tree: that of a text or of a value, or a part of one. -/
  | decoded {s : Coins} (n : Node) (left left' : Nat) :
    codec.decode n left = .ok (s, left') → allowed s → Obtained allowed s
  /-- A set with a coin added. -/
  | addCoin {s : Coins} (c : Coin) : Obtained allowed s → Obtained allowed (s.addCoin c)
  /-- A set with another one added. -/
  | add {s t : Coins} : Obtained allowed s → Obtained allowed t → Obtained allowed (s.add t)
  /-- A set with a coin taken from it, or the set itself if it does not have as much. -/
  | sub {s : Coins} (c : Coin) : Obtained allowed s → Obtained allowed ((s.sub? c).getD s)

variable {allowed : Coins → Prop} {s : Coins}

namespace Obtained

/-- Whatever a text is decoded as can be obtained. -/
theorem ofText {text : String} (h : codec.ofText text = .ok s) (ha : allowed s) :
    Obtained allowed s := by
  obtain ⟨left, decode⟩ := Codec.exists_decode_of_ofText h
  exact .decoded _ _ _ decode ha

/-- Sets in order can be obtained without a decoder. -/
theorem of_sorted (h : s.Sorted) : Obtained allowed s := by
  rw [← h.ofList_toList]
  exact .ofList s.toList

end Obtained

/-- Trying to take a coin keeps the order, whether there is as much or not. -/
theorem Sorted.getD_sub? (h : s.Sorted) (c : Coin) : ((s.sub? c).getD s).Sorted := by
  cases hsub : s.sub? c with
  | none => exact h
  | some left => exact h.sub? hsub

/-- All sets that can be obtained are in order if the decoded ones are. -/
theorem Obtained.sorted (decoded : ∀ s, allowed s → s.Sorted) (h : Obtained allowed s) :
    s.Sorted := by
  induction h with
  | empty => exact List.Pairwise.nil
  | ofList cs => exact sorted_ofList cs
  | single amount denom => exact sorted_single amount denom
  | decoded _ _ _ _ ha => exact decoded _ ha
  | addCoin c _ ih => exact ih.addCoin c
  | add _ _ ih _ => exact ih.add _
  | sub c _ ih => exact ih.getD_sub? c

/-- Every set is decoded from its text and from its free value, whatever its order. -/
theorem decoded_as_written (s : Coins) :
    codec.ofText (codec.text s) = .ok s ∧ codec.ofJson (codec.toJson s) = .ok s :=
  ⟨s.faithful_codec.ofText (by decide), s.faithful_codec.ofJson⟩

/-- Every set whatsoever is decoded from its text and from its free value. So the sets that can be
obtained are the sets in order, with one entry for each denomination, exactly if all decoded sets
among them are. -/
theorem obtained_iff_sorted (allowed : Coins → Prop) :
    (∀ s, codec.ofText (codec.text s) = .ok s ∧ codec.ofJson (codec.toJson s) = .ok s) ∧
    ((∀ s, Obtained allowed s ↔ s.Sorted) ↔ ∀ s, allowed s → s.Sorted) := by
  refine ⟨decoded_as_written, fun same s ha => ?_, fun decoded s => ?_⟩
  · exact (same s).1 (.ofText (decoded_as_written s).1 ha)
  · exact ⟨Obtained.sorted decoded, .of_sorted⟩

/-- A text with two coins that are not in order is decoded as it is written. -/
theorem exists_obtained_unsorted :
    let text := "[\x7b\"denom\":\"ublk\",\"amount\":1\x7d,\x7b\"denom\":\"atom\",\"amount\":2\x7d]"
    let s : Coins := ⟨[⟨"ublk", 1⟩, ⟨"atom", 2⟩]⟩
    codec.ofText text = .ok s ∧ Obtained (fun _ => True) s ∧ ¬s.Sorted := by
  intro text s
  have written : codec.text s = text := by decide
  obtain ⟨read, -⟩ := decoded_as_written s
  refine ⟨written ▸ read, .ofText read trivial, ?_⟩
  unfold Sorted
  decide

end Coins

end TestChain
