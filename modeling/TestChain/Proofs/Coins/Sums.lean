import Mathlib.Data.List.Nodup
import TestChain.Proofs.Coins
import TestChain.Proofs.Text.Utf8

/-!
# Sets of coins as sums

A list of coins adds up to one set (`Coins.SumOf`): there is an entry for each denomination that the
list has, its amount is what the list holds of the denomination, up to the largest word, and the
denominations are strictly increasing byte by byte. `Coins.ofList` makes up this set
(`Coins.sumOf_ofList`), so the order of a list does not count, also where sums stop at the largest
word, and adding two sets is making up one from both lists. The main theorem is
`Coins.ofList_canonical`.
-/

namespace TestChain

namespace Coins

/-- Some coin of a list is of the denomination. -/
def Lists (denom : String) (cs : List Coin) : Prop :=
  ∃ c ∈ cs, c.denom = denom

/-- A set is the sum of a list of coins. -/
structure SumOf (cs : List Coin) (s : Coins) : Prop where
  /-- The denominations are strictly increasing, byte by byte. -/
  increasing : s.toList.Pairwise fun c d => Bytes.ofString c.denom < Bytes.ofString d.denom
  /-- The entries are those of the list's denominations, each with what the list holds of its
  denomination, up to the largest word. -/
  entry : ∀ denom amount, ⟨denom, amount⟩ ∈ s.toList ↔
    Lists denom cs ∧ amount.toNat = min (UInt64.size - 1) (total denom cs)

variable {s t : Coins} {c : Coin} {cs ds : List Coin} {denom : String}

/-! ## Denominations -/

/-- The empty list has no denomination. -/
theorem not_lists_nil : ¬Lists denom [] := by
  simp [Lists]

/-- A list has the denomination of its first coin and those of the others. -/
theorem lists_cons : Lists denom (c :: cs) ↔ c.denom = denom ∨ Lists denom cs := by
  simp [Lists]

/-- Two lists have the denominations of both. -/
theorem lists_append : Lists denom (cs ++ ds) ↔ Lists denom cs ∨ Lists denom ds := by
  simp [Lists, or_and_right, exists_or]

/-- The order of a list does not count for its denominations. -/
theorem lists_of_perm (h : cs.Perm ds) : Lists denom cs ↔ Lists denom ds := by
  simp only [Lists, h.mem_iff]

/-- Adding a coin adds its denomination to those that are there. -/
theorem lists_insert : Lists denom (insert c cs) ↔ c.denom = denom ∨ Lists denom cs := by
  induction cs with
  | nil => rw [insert, lists_cons]
  | cons d cs ih =>
    rw [insert]
    split
    · rw [lists_cons]
    · split
      · rename_i heq
        rw [lists_cons, lists_cons, heq, or_self_left]
      · rw [lists_cons, ih, lists_cons]
        exact or_left_comm

/-- Adding a set adds its denominations to those that are there. -/
theorem lists_add (sorted : s.Sorted) :
    Lists denom (s.add t).toList ↔ Lists denom s.toList ∨ Lists denom t.toList := by
  unfold Coins.add
  induction t.toList generalizing s with
  | nil => simp [not_lists_nil]
  | cons c cs ih =>
    have first : Lists denom (s.addCoin c).toList ↔ c.denom = denom ∨ Lists denom s.toList := by
      rw [addCoin_eq sorted, lists_insert]
    rw [List.foldl_cons, ih (sorted.addCoin c), first, lists_cons]
    exact or_assoc.trans or_left_comm

/-! ## Sums -/

/-- Two lists hold what both hold. -/
theorem total_append (denom : String) (cs ds : List Coin) :
    total denom (cs ++ ds) = total denom cs + total denom ds := by
  simp [total]

/-- The order of a list does not count for what it holds. -/
theorem total_of_perm (h : cs.Perm ds) : total denom cs = total denom ds :=
  (h.map _).sum_nat

/-- A list holds nothing of a denomination that it does not have. -/
theorem total_of_not_lists (h : ¬Lists denom cs) : total denom cs = 0 := by
  induction cs with
  | nil => rfl
  | cons c cs ih =>
    obtain ⟨hc, hcs⟩ := not_or.1 (mt lists_cons.2 h)
    rw [total_cons, if_neg hc, ih hcs]

/-! ## Sets in order -/

/-- The denominations of a set in order are strictly increasing byte by byte. -/
theorem sorted_iff_increasing :
    s.Sorted ↔ s.toList.Pairwise fun c d => Bytes.ofString c.denom < Bytes.ofString d.denom := by
  simp only [Sorted, Bytes.ofString_lt_iff]

/-- The amount of a denomination in a set in order is that of its entry. -/
theorem Sorted.amountOf_of_mem (h : s.Sorted) (hc : c ∈ s.toList) :
    s.amountOf c.denom = c.amount := by
  obtain ⟨cs⟩ := s
  unfold Sorted at h
  dsimp only at h hc
  induction cs with
  | nil => cases hc
  | cons d cs ih =>
    obtain ⟨hd, hcs⟩ := List.pairwise_cons.1 h
    rw [amountOf_cons]
    rcases List.mem_cons.1 hc with rfl | hc
    · rw [if_pos rfl]
    · -- An entry behind the first one is of another denomination.
      have behind : d.denom ≠ c.denom := String.ne_of_lt (hd c hc)
      rw [if_neg behind, ih hcs hc]

/-- The entries of a set in order are told from its denominations and amounts. -/
theorem Sorted.mem_iff (h : s.Sorted) {amount : UInt64} :
    ⟨denom, amount⟩ ∈ s.toList ↔ Lists denom s.toList ∧ s.amountOf denom = amount := by
  constructor
  · exact fun hmem => ⟨⟨_, hmem, rfl⟩, h.amountOf_of_mem hmem⟩
  · rintro ⟨⟨c, hc, rfl⟩, rfl⟩
    rw [h.amountOf_of_mem hc]
    exact hc

/-- Sets in order with the same entries are the same. -/
theorem Sorted.ext (hs : s.Sorted) (ht : t.Sorted)
    (h : ∀ denom amount, ⟨denom, amount⟩ ∈ s.toList ↔ ⟨denom, amount⟩ ∈ t.toList) : s = t := by
  have nodup {u : Coins} (hu : u.Sorted) : u.toList.Nodup :=
    hu.imp fun hlt heq => String.ne_of_lt hlt (congrArg Coin.denom heq)
  have perm : s.toList.Perm t.toList :=
    (List.perm_ext_iff_of_nodup (nodup hs) (nodup ht)).2 fun c => h c.denom c.amount
  have same : s.toList = t.toList :=
    perm.eq_of_pairwise (fun c d _ _ hcd hdc => absurd hdc (String.lt_asymm hcd)) hs ht
  obtain ⟨cs⟩ := s
  exact congrArg Coins.mk same

/-! ## Sets that are sums -/

/-- The sum of a list is the set in order with its denominations and with what it holds of each, up
to the largest word. -/
theorem sumOf_iff : SumOf cs s ↔ s.Sorted ∧ (∀ denom, Lists denom s.toList ↔ Lists denom cs) ∧
    ∀ denom, (s.amountOf denom).toNat = min (UInt64.size - 1) (total denom cs) := by
  constructor
  · intro h
    have sorted : s.Sorted := sorted_iff_increasing.2 h.increasing
    have lists (denom : String) : Lists denom s.toList ↔ Lists denom cs := by
      constructor
      · rintro ⟨c, hc, rfl⟩
        exact ((h.entry c.denom c.amount).1 hc).1
      · intro there
        refine ⟨⟨denom, Word.clamp (total denom cs)⟩, (h.entry _ _).2 ⟨there, ?_⟩, rfl⟩
        rw [Word.toNat_clamp, Nat.min_comm]
    refine ⟨sorted, lists, fun denom => ?_⟩
    by_cases there : Lists denom cs
    · exact ((h.entry _ _).1 (sorted.mem_iff.2 ⟨(lists denom).2 there, rfl⟩)).2
    · have none : s.amountOf denom = 0 :=
        amountOf_of_ne fun c hc hdenom => there ((lists denom).1 ⟨c, hc, hdenom⟩)
      rw [none, total_of_not_lists there, Nat.min_zero]
      rfl
  · rintro ⟨sorted, lists, amounts⟩
    refine ⟨sorted_iff_increasing.1 sorted, fun denom amount => ?_⟩
    rw [sorted.mem_iff, lists, ← amounts, UInt64.toNat_inj, eq_comm (a := amount)]

/-- A list has one sum. -/
theorem SumOf.unique (hs : SumOf cs s) (ht : SumOf cs t) : s = t :=
  (sumOf_iff.1 hs).1.ext (sumOf_iff.1 ht).1 fun denom amount =>
    (hs.entry denom amount).trans (ht.entry denom amount).symm

/-- The order of a list does not count for its sum. -/
theorem SumOf.of_perm (hs : SumOf cs s) (h : cs.Perm ds) : SumOf ds s := by
  refine ⟨hs.increasing, fun denom amount => ?_⟩
  rw [hs.entry, lists_of_perm h, total_of_perm h]

/-- The sum of a list to which a set is added is the sum of both. -/
theorem SumOf.add (hs : SumOf cs s) (t : Coins) : SumOf (cs ++ t.toList) (s.add t) := by
  obtain ⟨sorted, lists, amounts⟩ := sumOf_iff.1 hs
  refine sumOf_iff.2 ⟨sorted.add t, fun denom => ?_, fun denom => ?_⟩
  · rw [lists_add sorted, lists, lists_append]
  · -- It makes no difference whether the first sum stops at the largest word already.
    rw [toNat_amountOf_add sorted, amounts, total_append]
    omega

/-- The sum of two lists is that of one added to that of the other. -/
theorem SumOf.append (hs : SumOf cs s) (ht : SumOf ds t) : SumOf (cs ++ ds) (s.add t) := by
  obtain ⟨sortedSum, listsSum, amountsSum⟩ := sumOf_iff.1 (hs.add t)
  obtain ⟨sorted, lists, amounts⟩ := sumOf_iff.1 ht
  refine sumOf_iff.2 ⟨sortedSum, fun denom => ?_, fun denom => ?_⟩
  · rw [listsSum, lists_append, lists, lists_append]
  · have held : total denom t.toList = min (UInt64.size - 1) (total denom ds) := by
      rw [total_eq sorted, amounts]
    rw [amountsSum, total_append, total_append, held]
    omega

/-! ## Sets that are made up -/

/-- The set of some coins is their sum. -/
theorem sumOf_ofList (cs : List Coin) : SumOf cs (ofList cs) := by
  have none : SumOf [] .empty :=
    sumOf_iff.2 ⟨List.Pairwise.nil, fun _ => Iff.rfl, fun _ => rfl⟩
  exact none.add ⟨cs⟩

/-- The set of some coins is in order. -/
theorem sorted_ofList (cs : List Coin) : (ofList cs).Sorted :=
  (sumOf_iff.1 (sumOf_ofList cs)).1

/-- The order in which coins are added does not count. -/
theorem ofList_of_perm (h : cs.Perm ds) : ofList cs = ofList ds :=
  ((sumOf_ofList cs).of_perm h).unique (sumOf_ofList ds)

/-- Adding the sets of two lists is making up the set of both. -/
theorem ofList_add_ofList (cs ds : List Coin) :
    (ofList cs).add (ofList ds) = ofList (cs ++ ds) :=
  ((sumOf_ofList cs).append (sumOf_ofList ds)).unique (sumOf_ofList (cs ++ ds))

/-- A set in order is made up from its coins. -/
theorem Sorted.ofList_toList (h : s.Sorted) : ofList s.toList = s := by
  refine (sumOf_ofList s.toList).unique (sumOf_iff.2 ⟨h, fun _ => Iff.rfl, fun denom => ?_⟩)
  have bounded := (s.amountOf denom).toNat_lt_size
  rw [total_eq h]
  omega

/-- The set of some coins is their sum and no other set is. So it does not depend on their order,
adding such sets is commutative and associative, as it is making up one set from all coins, and the
amounts of a sum of two sets are the sums of their amounts, up to the largest word. -/
theorem ofList_canonical :
    (∀ cs s, s = ofList cs ↔ SumOf cs s) ∧
    (∀ cs ds : List Coin, cs.Perm ds → ofList cs = ofList ds) ∧
    (∀ cs ds, (ofList cs).add (ofList ds) = ofList (cs ++ ds)) ∧
    (∀ cs ds, (ofList cs).add (ofList ds) = (ofList ds).add (ofList cs)) ∧
    (∀ bs cs ds, ((ofList bs).add (ofList cs)).add (ofList ds) =
      (ofList bs).add ((ofList cs).add (ofList ds))) ∧
    ∀ cs ds denom, ((ofList cs).add (ofList ds)).amountOf denom =
      Word.addSat ((ofList cs).amountOf denom) ((ofList ds).amountOf denom) := by
  refine ⟨fun cs s => ?_, fun _ _ => ofList_of_perm, ofList_add_ofList, fun cs ds => ?_,
    fun bs cs ds => ?_, fun cs ds denom => ?_⟩
  · constructor
    · rintro rfl
      exact sumOf_ofList cs
    · exact fun h => h.unique (sumOf_ofList cs)
  · rw [ofList_add_ofList, ofList_add_ofList]
    exact ofList_of_perm List.perm_append_comm
  · simp only [ofList_add_ofList, List.append_assoc]
  · apply UInt64.toNat_inj.1
    rw [toNat_amountOf_add (sorted_ofList cs), total_eq (sorted_ofList ds), Word.toNat_addSat]

/-- Where a sum stops at the largest word is the same in any order. -/
example :
    ofList [⟨"ublk", 3⟩, ⟨"atom", 1⟩, ⟨"ublk", Word.max⟩] =
      ofList [⟨"ublk", Word.max⟩, ⟨"ublk", 3⟩, ⟨"atom", 1⟩] := by decide

end Coins

end TestChain
