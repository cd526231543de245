import TestChain.Proofs.Coins.Sums

/-!
# Sets of coins as differences

Taking a coin from a set in order leaves its one difference (`Coins.DifferenceOf`): the amount of
the coin's denomination falls by just as much, its entry goes where nothing is left, and all other
entries stay as they are. It can be taken exactly if there is as much (`Coins.sub?_isSome_iff`), and
a set is what is left of its sum with a coin (`Coins.differenceOf_addCoin_iff`), so taking undoes
adding. The main theorem is `Coins.taking_exact`.
-/

namespace TestChain

namespace Coins

variable {s t left : Coins} {c : Coin} {cs : List Coin} {denom : String}

/-- The coins of other denominations, in their order. -/
def others (denom : String) (cs : List Coin) : List Coin :=
  cs.filter fun c => c.denom ≠ denom

/-- A set is what is left of another one when a coin is taken from it. -/
structure DifferenceOf (s : Coins) (c : Coin) (left : Coins) : Prop where
  /-- The denominations are strictly increasing. -/
  sorted : left.Sorted
  /-- The amount of the denomination is lower by that of the coin. -/
  amount : (s.amountOf c.denom).toNat = (left.amountOf c.denom).toNat + c.amount.toNat
  /-- The denomination has no entry exactly if nothing of it is left. -/
  gone : ¬Lists c.denom left.toList ↔ left.amountOf c.denom = 0
  /-- The entries of other denominations are the same. -/
  others : others c.denom left.toList = others c.denom s.toList

/-! ## Other denominations -/

/-- A coin is one of the others if it is of another denomination. -/
theorem mem_others {d : Coin} : d ∈ others denom cs ↔ d ∈ cs ∧ d.denom ≠ denom := by
  unfold others
  rw [List.mem_filter, decide_eq_true_eq]

/-- The first coin is one of the others or not. -/
theorem others_cons (d : Coin) (cs : List Coin) :
    others denom (d :: cs) = if d.denom = denom then others denom cs else d :: others denom cs := by
  unfold others
  rw [List.filter_cons]
  by_cases h : d.denom = denom
  · simp only [h, ne_eq, not_true_eq_false, decide_false, if_true, Bool.false_eq_true, if_false]
  · simp only [h, ne_eq, not_false_eq_true, decide_true, if_true, if_false]

/-- Adding a coin leaves the others. -/
theorem others_insert (c : Coin) (cs : List Coin) :
    others c.denom (insert c cs) = others c.denom cs := by
  induction cs with
  | nil => rw [insert, others_cons, if_pos rfl]
  | cons d cs ih =>
    rw [insert]
    split
    · rw [others_cons, if_pos rfl]
    · split
      · next same => rw [others_cons, others_cons, if_pos same.symm, if_pos same.symm]
      · rw [others_cons, others_cons, ih]

/-- Taking a coin leaves the others. -/
theorem Taken.others {left : List Coin} (h : Taken c cs left) :
    others c.denom left = others c.denom cs := by
  induction h with
  | nothing => rfl
  | all d cs same => rw [others_cons, if_pos same.symm]
  | part d cs amount same => rw [others_cons, others_cons, if_pos same.symm, if_pos same.symm]
  | behind d other _ ih => rw [others_cons, others_cons, ih]

/-! ## The difference -/

/-- Neither smaller nor larger denominations have an entry of a denomination. -/
theorem not_mem_of_apart {front back : List Coin} (before : ∀ d ∈ front, d.denom < denom)
    (behind : ∀ d ∈ back, denom < d.denom) (amount : UInt64) :
    ⟨denom, amount⟩ ∉ front ∧ ⟨denom, amount⟩ ∉ back :=
  ⟨fun mem => String.lt_irrefl denom (before ⟨denom, amount⟩ mem),
    fun mem => String.lt_irrefl denom (behind ⟨denom, amount⟩ mem)⟩

/-- Taking a coin leaves no entry of its denomination without an amount. -/
theorem zero_not_mem_of_sub? (sorted : s.Sorted) (h : s.sub? c = some left) :
    ⟨c.denom, 0⟩ ∉ left.toList := by
  rw [sub?_eq sorted] at h
  obtain ⟨cs⟩ := s
  obtain ⟨rest, taken, rfl⟩ := Option.map_eq_some_iff.1 h
  dsimp only at taken ⊢
  obtain ⟨p, place⟩ : ∃ p, IsPlace c.denom cs p := ⟨_, isPlace_search sorted c.denom⟩
  cases place.divided sorted with
  | @found front back d same before behind =>
    obtain ⟨first, last⟩ := not_mem_of_apart before behind 0
    rw [remove?_append before, remove?_cons_of_eq same] at taken
    obtain ⟨tail, htail, rfl⟩ := Option.map_eq_some_iff.1 taken
    obtain ⟨amount, -, rfl⟩ := Option.map_eq_some_iff.1 htail
    split
    · simp only [List.mem_append, first, last, or_self, not_false_eq_true]
    · next more =>
      -- What is left of the entry has an amount.
      have kept : (⟨c.denom, 0⟩ : Coin) ≠ ⟨d.denom, amount⟩ :=
        fun same => more (congrArg Coin.amount same).symm
      simp only [List.mem_append, List.mem_cons, first, last, kept, or_self, not_false_eq_true]
  | @missing front back before behind =>
    obtain ⟨first, last⟩ := not_mem_of_apart before behind 0
    rw [remove?_append before, remove?_of_lt behind] at taken
    split at taken
    · cases taken
      simp only [List.mem_append, first, last, or_self, not_false_eq_true]
    · cases taken

/-- A denomination of a set in order has no amount exactly if it has no entry, unless there is one
without an amount. -/
theorem Sorted.not_lists_iff (h : s.Sorted) :
    (¬Lists denom s.toList ↔ s.amountOf denom = 0) ↔ ⟨denom, 0⟩ ∉ s.toList := by
  have absent : ¬Lists denom s.toList → s.amountOf denom = 0 :=
    fun absent => amountOf_of_ne fun c hc same => absent ⟨c, hc, same⟩
  rw [h.mem_iff]
  constructor
  · exact fun same zero => same.2 zero.2 zero.1
  · exact fun zero => ⟨absent, fun none there => zero ⟨there, none⟩⟩

/-- Taking a coin leaves the difference. -/
theorem differenceOf_of_sub? (sorted : s.Sorted) (h : s.sub? c = some left) :
    DifferenceOf s c left where
  sorted := sorted.sub? h
  amount := by rw [amountOf_sub? sorted h, if_pos rfl]
  gone := (sorted.sub? h).not_lists_iff.2 (zero_not_mem_of_sub? sorted h)
  others := by
    rw [sub?_eq sorted] at h
    obtain ⟨rest, taken, rfl⟩ := Option.map_eq_some_iff.1 h
    exact (taken_of_remove? taken).others

/-- There is one difference. -/
theorem DifferenceOf.unique (h : DifferenceOf s c left) (ht : DifferenceOf s c t) : left = t := by
  have amounts : left.amountOf c.denom = t.amountOf c.denom := by
    apply UInt64.toNat_inj.1
    have sum := h.amount
    have sum' := ht.amount
    omega
  refine h.sorted.ext ht.sorted fun denom amount => ?_
  by_cases same : denom = c.denom
  · subst same
    have lists : Lists c.denom left.toList ↔ Lists c.denom t.toList := by
      rw [← not_iff_not, h.gone, ht.gone, amounts]
    rw [h.sorted.mem_iff, ht.sorted.mem_iff, lists, amounts]
  · have kept := congrArg (⟨denom, amount⟩ ∈ ·) (h.others.trans ht.others.symm)
    simp only [mem_others, same, ne_eq, not_false_eq_true, and_true] at kept
    exact iff_of_eq kept

/-- A coin can be taken exactly if there is as much of its denomination. -/
theorem sub?_isSome_iff (sorted : s.Sorted) :
    (s.sub? c).isSome ↔ c.amount ≤ s.amountOf c.denom := by
  rw [sub?_eq sorted, Option.isSome_map, Option.isSome_iff_exists, exists_remove?_iff sorted,
    UInt64.le_iff_toNat_le]

/-- What is left when a coin is taken is the difference and nothing else. -/
theorem sub?_eq_some_iff (sorted : s.Sorted) : s.sub? c = some left ↔ DifferenceOf s c left := by
  refine ⟨differenceOf_of_sub? sorted, fun h => ?_⟩
  have enough : c.amount ≤ s.amountOf c.denom := by
    have sum := h.amount
    rw [UInt64.le_iff_toNat_le]
    omega
  obtain ⟨rest, taken⟩ := Option.isSome_iff_exists.1 ((sub?_isSome_iff sorted).2 enough)
  rw [taken, (differenceOf_of_sub? sorted taken).unique h]

/-- A set is the difference of its sum with a coin, unless the sum does not fit or the set has an
entry of the denomination without an amount. -/
theorem differenceOf_addCoin_iff (sorted : s.Sorted)
    (fits : (s.amountOf c.denom).toNat + c.amount.toNat < UInt64.size) :
    DifferenceOf (s.addCoin c) c s ↔ ⟨c.denom, 0⟩ ∉ s.toList := by
  rw [← sorted.not_lists_iff]
  refine ⟨DifferenceOf.gone, fun gone => ⟨sorted, ?_, gone, ?_⟩⟩
  · rw [amountOf_addCoin sorted, if_pos rfl, Word.toNat_addSat]
    omega
  · rw [addCoin_eq sorted, others_insert]

/-- Taking a coin from a set in order leaves the difference, and it succeeds exactly if there is as
much of the coin's denomination; else the set stays as it is. At the place of the denomination, be
it found by halving or in another way, only the entry there is changed. Taking undoes adding, but
for a sum that does not fit and for an entry without an amount, which would be gone. -/
theorem taking_exact (sorted : s.Sorted) :
    (∀ c left, s.sub? c = some left ↔ DifferenceOf s c left) ∧
    (∀ c, (s.sub? c).isSome ↔ c.amount ≤ s.amountOf c.denom) ∧
    (∀ denom, IsPlace denom s.toList (search denom s.toList)) ∧
    (∀ c p, IsPlace c.denom s.toList p →
      s.addAt c p = s.addCoin c ∧ s.takeAt c p = ((s.sub? c).isSome, (s.sub? c).getD s)) ∧
    ∀ c, (s.amountOf c.denom).toNat + c.amount.toNat < UInt64.size →
      ((s.addCoin c).sub? c = some s ↔ ⟨c.denom, 0⟩ ∉ s.toList) := by
  refine ⟨fun c left => sub?_eq_some_iff sorted, fun c => sub?_isSome_iff sorted,
    isPlace_search sorted, fun c p place => ⟨addAt_eq sorted place, takeAt_eq sorted place⟩,
    fun c fits => ?_⟩
  rw [sub?_eq_some_iff (sorted.addCoin c)]
  exact differenceOf_addCoin_iff sorted fits

/-- Of two coins one is taken whole and goes, but more cannot be taken, and a third one is added and
taken again. -/
theorem exists_taken :
    let s : Coins := ofList [⟨"ublk", 5⟩, ⟨"atom", 3⟩]
    s.Sorted ∧ DifferenceOf s ⟨"ublk", 5⟩ (single 3 "atom") ∧ s.sub? ⟨"ublk", 6⟩ = none ∧
      (s.addCoin ⟨"blk", 7⟩).sub? ⟨"blk", 7⟩ = some s := by
  intro s
  have sorted : s.Sorted := sorted_ofList _
  obtain ⟨exact_left, enough, -, -, undone⟩ := taking_exact sorted
  refine ⟨sorted, (exact_left _ _).1 (by decide), ?_,
    (undone ⟨"blk", 7⟩ (by decide)).2 (by decide)⟩
  rw [← Option.not_isSome_iff_eq_none, enough]
  decide

end Coins

end TestChain
