import Mathlib.Algebra.GroupWithZero.Nat
import TestChain.Proofs.Coins.Place
import TestChain.Proofs.Outcome

/-!
# Amounts of coins

What happens to the amounts when coins are added to a set and taken from it. In a set in order,
adding a list of coins raises the amount of every denomination by what the list holds of it, up to
the largest word (`toNat_amountOf_add`), and taking a list from it lowers every amount by just as
much (`amountOf_foldlM_sub?`). Both keep the order, whatever the order of the list.
-/

namespace TestChain

namespace Coins

/-- What a list of coins holds of a denomination. -/
def total (denom : String) (cs : List Coin) : Nat :=
  (cs.map fun c => if c.denom = denom then c.amount.toNat else 0).sum

/-- A list holds what its first coin and the others hold. -/
theorem total_cons (denom : String) (c : Coin) (cs : List Coin) :
    total denom (c :: cs) = (if c.denom = denom then c.amount.toNat else 0) + total denom cs := by
  simp only [total, List.map_cons, List.sum_cons]

/-- The amount is that of the first coin of the denomination. -/
theorem amountOf_cons (c : Coin) (cs : List Coin) (denom : String) :
    (Coins.mk (c :: cs)).amountOf denom =
      if c.denom = denom then c.amount else (Coins.mk cs).amountOf denom := by
  unfold amountOf
  dsimp only
  rw [List.find?_cons]
  by_cases h : c.denom = denom
  · simp only [h, decide_true, if_true]
  · simp only [h, decide_false, if_false]

/-- There is nothing of a denomination that no coin has. -/
theorem amountOf_of_ne {cs : List Coin} {denom : String} (h : ∀ c ∈ cs, c.denom ≠ denom) :
    (Coins.mk cs).amountOf denom = 0 := by
  induction cs with
  | nil => rfl
  | cons c cs ih =>
    have later := ih fun d hd => h d (List.mem_cons_of_mem _ hd)
    rw [amountOf_cons, if_neg (h c List.mem_cons_self), later]

/-- Two sets have the same amounts of all denominations if they have those of their coins. -/
theorem amountOf_eq_iff {s t : Coins} :
    (∀ denom, s.amountOf denom = t.amountOf denom) ↔
      ∀ c ∈ s.toList ++ t.toList, s.amountOf c.denom = t.amountOf c.denom := by
  refine ⟨fun h c _ => h c.denom, fun h denom => ?_⟩
  by_cases hmem : ∃ c ∈ s.toList ++ t.toList, c.denom = denom
  · obtain ⟨c, hc, rfl⟩ := hmem
    exact h c hc
  · have absent : ∀ c ∈ s.toList ++ t.toList, c.denom ≠ denom := fun c hc heq => hmem ⟨c, hc, heq⟩
    have none := amountOf_of_ne fun c hc => absent c (List.mem_append_left _ hc)
    have none' := amountOf_of_ne fun c hc => absent c (List.mem_append_right _ hc)
    rw [none, none']

/-- There is nothing of a denomination before the first. -/
theorem amountOf_of_lt {cs : List Coin} {denom : String} (h : ∀ c ∈ cs, denom < c.denom) :
    (Coins.mk cs).amountOf denom = 0 :=
  amountOf_of_ne fun c hc e => String.lt_irrefl denom (by simpa only [e] using h c hc)

/-- A set in order holds of a denomination what its list holds. -/
theorem total_eq {s : Coins} (h : s.Sorted) (denom : String) :
    total denom s.toList = (s.amountOf denom).toNat := by
  obtain ⟨cs⟩ := s
  unfold Sorted at h
  dsimp only at h ⊢
  induction cs with
  | nil => rfl
  | cons c cs ih =>
    obtain ⟨hc, hcs⟩ := List.pairwise_cons.1 h
    rw [total_cons, ih hcs, amountOf_cons]
    split
    · rename_i heq
      rw [amountOf_of_lt (heq ▸ hc)]
      rfl
    · exact Nat.zero_add _

/-! ## Adding -/

/-- A coin after adding one has its denomination or that of a coin before. -/
theorem denom_of_mem_insert {c d : Coin} {cs : List Coin} (h : d ∈ insert c cs) :
    d.denom = c.denom ∨ ∃ e ∈ cs, e.denom = d.denom := by
  induction cs with
  | nil =>
    rw [insert, List.mem_singleton] at h
    exact .inl (h ▸ rfl)
  | cons e cs ih =>
    rw [insert] at h
    split at h
    · rcases List.mem_cons.1 h with rfl | h
      · exact .inl rfl
      · exact .inr ⟨d, h, rfl⟩
    · split at h
      · rcases List.mem_cons.1 h with rfl | h
        · exact .inr ⟨e, List.mem_cons_self, rfl⟩
        · exact .inr ⟨d, List.mem_cons_of_mem _ h, rfl⟩
      · rcases List.mem_cons.1 h with rfl | h
        · exact .inr ⟨d, List.mem_cons_self, rfl⟩
        · rcases ih h with same | ⟨f, hf, hd⟩
          · exact .inl same
          · exact .inr ⟨f, List.mem_cons_of_mem _ hf, hd⟩

/-- Adding a coin keeps the order. -/
theorem Sorted.addCoin {s : Coins} (h : s.Sorted) (c : Coin) : (s.addCoin c).Sorted := by
  rw [addCoin_eq h]
  obtain ⟨cs⟩ := s
  unfold Sorted at *
  dsimp only at h ⊢
  induction cs with
  | nil => exact List.pairwise_singleton _ _
  | cons d cs ih =>
    obtain ⟨hd, hcs⟩ := List.pairwise_cons.1 h
    rw [insert]
    split
    · rename_i hlt
      -- The coin comes first, and the others are behind the coin that was first.
      refine List.pairwise_cons.2 ⟨fun e he => ?_, h⟩
      rcases List.mem_cons.1 he with rfl | he
      · exact hlt
      · exact String.lt_trans hlt (hd e he)
    · rename_i hnot
      split
      · exact List.pairwise_cons.2 ⟨hd, hcs⟩
      · rename_i hne
        -- What is added behind the first coin comes after it, by its denomination or as before.
        refine List.pairwise_cons.2 ⟨fun e he => ?_, ih hcs⟩
        rcases denom_of_mem_insert he with he | ⟨f, hf, he⟩
        · rw [he]
          exact lt_of_not_lt hnot hne
        · rw [← he]
          exact hd f hf

/-- A coin of a set to which a list was added has the denomination of a coin of either. -/
theorem denom_of_mem_add {s t : Coins} (sorted : s.Sorted) {d : Coin}
    (h : d ∈ (s.add t).toList) : ∃ e ∈ s.toList ++ t.toList, e.denom = d.denom := by
  obtain ⟨cs⟩ := t
  unfold Coins.add at h
  dsimp only at h ⊢
  induction cs generalizing s with
  | nil => exact ⟨d, List.mem_append_left _ h, rfl⟩
  | cons c cs ih =>
    obtain ⟨e, he, hd⟩ := ih (sorted.addCoin c) h
    rcases List.mem_append.1 he with he | he
    · rw [addCoin_eq sorted] at he
      rcases denom_of_mem_insert he with hc | ⟨f, hf, hc⟩
      · exact ⟨c, List.mem_append_right _ List.mem_cons_self, hc.symm.trans hd⟩
      · exact ⟨f, List.mem_append_left _ hf, hc.trans hd⟩
    · exact ⟨e, List.mem_append_right _ (List.mem_cons_of_mem _ he), hd⟩

/-- The denominations of coins are tested one by one. -/
theorem check_ok_iff {cs : Coins} : cs.check = .ok () ↔ ∀ c ∈ cs.toList, isDenom c.denom :=
  except_forM_ok_iff.trans (forall₂_congr fun _ _ => except_test_ok_iff)

/-- A set to which a list was added has valid denominations if both have. -/
theorem check_add {s t : Coins} (sorted : s.Sorted) (hs : s.check = .ok ())
    (ht : t.check = .ok ()) : (s.add t).check = .ok () := by
  refine except_forM_ok_iff.2 fun d hd => ?_
  obtain ⟨e, he, heq⟩ := denom_of_mem_add sorted hd
  unfold Coin.check
  rw [← heq]
  rcases List.mem_append.1 he with he | he
  · exact except_forM_ok_iff.1 hs e he
  · exact except_forM_ok_iff.1 ht e he

/-- The set of one coin has its amount of its denomination, and nothing else. -/
theorem amountOf_single (amount : UInt64) (denom other : String) :
    (single amount denom).amountOf other = if denom = other then amount else 0 :=
  amountOf_cons _ _ _

/-- The set of one coin is in order. -/
theorem sorted_single (amount : UInt64) (denom : String) : (single amount denom).Sorted :=
  List.pairwise_singleton _ _

/-- The set of one coin has valid denominations if it has a valid one. -/
theorem check_single {denom : String} (h : checkDenom denom = .ok ()) (amount : UInt64) :
    (single amount denom).check = .ok () :=
  except_forM_ok_iff.2 fun c hc => by
    rw [List.mem_singleton.1 hc]
    exact h

/-- Adding nothing to an amount changes it in no way. -/
theorem addSat_zero (n : UInt64) : Word.addSat 0 n = n := by
  apply UInt64.toNat_inj.1
  have := n.toNat_lt
  rw [Word.toNat_addSat]
  simp only [UInt64.toNat_zero, UInt64.size]
  omega

/-- Adding a coin raises the amount of its denomination, up to the largest word, and no other. -/
theorem amountOf_addCoin {s : Coins} (h : s.Sorted) (c : Coin) (denom : String) :
    (s.addCoin c).amountOf denom =
      if c.denom = denom then Word.addSat (s.amountOf denom) c.amount else s.amountOf denom := by
  rw [addCoin_eq h]
  obtain ⟨cs⟩ := s
  unfold Sorted at h
  dsimp only at h ⊢
  induction cs with
  | nil =>
    have none : (Coins.mk []).amountOf denom = 0 := rfl
    rw [insert, amountOf_cons, none, addSat_zero]
  | cons d cs ih =>
    obtain ⟨hd, hcs⟩ := List.pairwise_cons.1 h
    rw [insert]
    split
    · rename_i hlt
      rw [amountOf_cons c]
      split
      · rename_i heq
        -- A coin that comes before all others is of a new denomination.
        rw [amountOf_of_lt, addSat_zero]
        intro e he
        rw [← heq]
        rcases List.mem_cons.1 he with rfl | he
        · exact hlt
        · exact String.lt_trans hlt (hd e he)
      · rfl
    · split
      · rename_i heq
        rw [amountOf_cons, amountOf_cons, heq]
        split <;> rfl
      · rename_i hne
        rw [amountOf_cons, amountOf_cons, ih hcs]
        by_cases hdenom : d.denom = denom
        · have hc : c.denom ≠ denom := fun e => hne (e.trans hdenom.symm)
          rw [if_pos hdenom, if_neg hc, if_pos hdenom]
        · rw [if_neg hdenom, if_neg hdenom]

/-- Adding a list keeps the order. -/
theorem Sorted.add {s : Coins} (h : s.Sorted) (t : Coins) : (s.add t).Sorted := by
  unfold Coins.add
  induction t.toList generalizing s with
  | nil => exact h
  | cons c cs ih => exact ih (h.addCoin c)

/-- Adding a list raises every amount by what the list holds, up to the largest word. -/
theorem toNat_amountOf_add {s : Coins} (h : s.Sorted) (t : Coins) (denom : String) :
    ((s.add t).amountOf denom).toNat =
      min ((s.amountOf denom).toNat + total denom t.toList) (UInt64.size - 1) := by
  unfold Coins.add
  induction t.toList generalizing s with
  | nil =>
    have := (s.amountOf denom).toNat_lt
    simp only [List.foldl_nil, total, List.map_nil, List.sum_nil, UInt64.size]
    omega
  | cons c cs ih =>
    rw [List.foldl_cons, ih (h.addCoin c), amountOf_addCoin h, total_cons]
    split
    · rw [Word.toNat_addSat]
      omega
    · omega

/-! ## Taking -/

/-- What is left of a list of coins when a coin is taken from it. -/
inductive Taken (c : Coin) : List Coin → List Coin → Prop where
  /-- A coin without an amount takes nothing. -/
  | nothing (cs : List Coin) : c.amount = 0 → Taken c cs cs
  /-- All that there is of the denomination is taken. -/
  | all (d : Coin) (cs : List Coin) : c.denom = d.denom → d.amount.toNat = c.amount.toNat →
    Taken c (d :: cs) cs
  /-- A part of what there is of the denomination is taken. -/
  | part (d : Coin) (cs : List Coin) (amount : UInt64) : c.denom = d.denom →
    d.amount.toNat = amount.toNat + c.amount.toNat → Taken c (d :: cs) (⟨d.denom, amount⟩ :: cs)
  /-- It is taken from the coins behind one of another denomination. -/
  | behind (d : Coin) {cs left : List Coin} : c.denom ≠ d.denom → Taken c cs left →
    Taken c (d :: cs) (d :: left)

/-- A difference and what was taken make up the number. -/
theorem toNat_of_sub? {a b left : UInt64} (h : Word.sub? a b = some left) :
    a.toNat = left.toNat + b.toNat := by
  unfold Word.sub? at h
  split at h
  · rename_i hle
    rw [← Option.some.inj h, UInt64.toNat_sub_of_le _ _ hle]
    have := UInt64.le_iff_toNat_le.1 hle
    omega
  · cases h

/-- `remove?` takes a coin from a list. -/
theorem taken_of_remove? {c : Coin} {cs left : List Coin} (h : remove? c cs = some left) :
    Taken c cs left := by
  induction cs generalizing left with
  | nil =>
    rw [remove?] at h
    split at h
    · rename_i hzero
      cases h
      exact .nothing _ hzero
    · cases h
  | cons d cs ih =>
    rw [remove?] at h
    split at h
    · split at h
      · rename_i hzero
        cases h
        exact .nothing _ hzero
      · cases h
    · split at h
      -- A coin of which nothing is left goes, so that no amount of zero stays behind.
      · rename_i heq
        split at h
        · cases h
        · rename_i amount hamount
          have parts := toNat_of_sub? hamount
          rw [← Option.some.inj h]
          split
          · rename_i hzero
            rw [hzero, UInt64.toNat_zero, Nat.zero_add] at parts
            exact .all d cs heq parts
          · exact .part d cs amount heq parts
      · rename_i hne
        obtain ⟨rest, hrest, rfl⟩ := Option.map_eq_some_iff.1 h
        exact .behind d hne (ih hrest)

/-- A coin that is left has the denomination of a coin before. -/
theorem Taken.denom_of_mem {c d : Coin} {cs left : List Coin} (h : Taken c cs left)
    (hd : d ∈ left) : ∃ e ∈ cs, e.denom = d.denom := by
  induction h with
  | nothing cs _ => exact ⟨d, hd, rfl⟩
  | all e cs _ _ => exact ⟨d, List.mem_cons_of_mem _ hd, rfl⟩
  | part e cs amount _ _ =>
    rcases List.mem_cons.1 hd with rfl | hd
    · exact ⟨e, List.mem_cons_self, rfl⟩
    · exact ⟨d, List.mem_cons_of_mem _ hd, rfl⟩
  | behind e _ _ ih =>
    rcases List.mem_cons.1 hd with rfl | hd
    · exact ⟨d, List.mem_cons_self, rfl⟩
    · obtain ⟨f, hf, hdenom⟩ := ih hd
      exact ⟨f, List.mem_cons_of_mem _ hf, hdenom⟩

/-- Taking a coin from a list keeps the order. -/
theorem Taken.pairwise {c : Coin} {cs left : List Coin} (h : Taken c cs left)
    (hcs : cs.Pairwise fun a b => a.denom < b.denom) :
    left.Pairwise fun a b => a.denom < b.denom := by
  induction h with
  | nothing cs _ => exact hcs
  | all d cs _ _ => exact (List.pairwise_cons.1 hcs).2
  | part d cs amount _ _ =>
    -- The coin that is left has the denomination of the one that was there.
    exact List.pairwise_cons.2 (List.pairwise_cons.1 hcs)
  | behind d _ taken ih =>
    obtain ⟨hd, hcs⟩ := List.pairwise_cons.1 hcs
    refine List.pairwise_cons.2 ⟨fun e he => ?_, ih hcs⟩
    obtain ⟨f, hf, hdenom⟩ := taken.denom_of_mem he
    rw [← hdenom]
    exact hd f hf

/-- Taking a coin from a list lowers the amount of its denomination by as much, and no other. -/
theorem Taken.amountOf {c : Coin} {cs left : List Coin} (h : Taken c cs left)
    (hcs : cs.Pairwise fun a b => a.denom < b.denom) (denom : String) :
    (amountOf ⟨cs⟩ denom).toNat =
      (amountOf ⟨left⟩ denom).toNat + if c.denom = denom then c.amount.toNat else 0 := by
  induction h with
  | nothing cs hzero =>
    rw [hzero, UInt64.toNat_zero, ite_self, Nat.add_zero]
  | all d cs heq hall =>
    obtain ⟨hd, -⟩ := List.pairwise_cons.1 hcs
    rw [amountOf_cons, heq]
    split
    · -- No other coin of the list has the denomination.
      rename_i hdenom
      rw [amountOf_of_lt (hdenom ▸ hd), hall, UInt64.toNat_zero, Nat.zero_add]
    · rw [Nat.add_zero]
  | part d cs amount heq hpart =>
    rw [amountOf_cons, amountOf_cons, heq]
    split
    · exact hpart
    · rw [Nat.add_zero]
  | behind d hne _ ih =>
    rw [amountOf_cons, amountOf_cons]
    by_cases hdenom : d.denom = denom
    · have hc : c.denom ≠ denom := fun e => hne (e.trans hdenom.symm)
      rw [if_pos hdenom, if_pos hdenom, if_neg hc, Nat.add_zero]
    · rw [if_neg hdenom, if_neg hdenom]
      exact ih (List.pairwise_cons.1 hcs).2

/-- Taking a coin keeps the order. -/
theorem Sorted.sub? {s left : Coins} {c : Coin} (h : s.Sorted) (hleft : s.sub? c = some left) :
    left.Sorted := by
  rw [sub?_eq h] at hleft
  obtain ⟨rest, hrest, rfl⟩ := Option.map_eq_some_iff.1 hleft
  exact (taken_of_remove? hrest).pairwise h

/-- Taking a coin lowers the amount of its denomination by as much, and no other. -/
theorem amountOf_sub? {s left : Coins} {c : Coin} (h : s.Sorted) (hleft : s.sub? c = some left)
    (denom : String) :
    (s.amountOf denom).toNat =
      (left.amountOf denom).toNat + if c.denom = denom then c.amount.toNat else 0 := by
  rw [sub?_eq h] at hleft
  obtain ⟨rest, hrest, rfl⟩ := Option.map_eq_some_iff.1 hleft
  exact (taken_of_remove? hrest).amountOf h denom

/-- Taking the coins of a list one at a time keeps the order and lowers every amount by what the
list holds. -/
theorem amountOf_foldlM_sub? {s left : Coins} (h : s.Sorted) {cs : List Coin}
    (hleft : cs.foldlM sub? s = some left) :
    left.Sorted ∧ ∀ denom,
      (s.amountOf denom).toNat = (left.amountOf denom).toNat + total denom cs := by
  induction cs generalizing s with
  | nil =>
    obtain rfl : s = left := Option.some.inj hleft
    exact ⟨h, fun _ => rfl⟩
  | cons c cs ih =>
    rw [List.foldlM_cons] at hleft
    obtain ⟨next, hnext, hrest⟩ := Option.bind_eq_some_iff.1 hleft
    obtain ⟨hsorted, hamount⟩ := ih (h.sub? hnext) hrest
    refine ⟨hsorted, fun denom => ?_⟩
    rw [amountOf_sub? h hnext, hamount, total_cons]
    omega

/-- A coin can be taken exactly if there is as much of its denomination. -/
theorem exists_remove?_iff {c : Coin} {cs : List Coin}
    (h : cs.Pairwise fun a b => a.denom < b.denom) :
    (∃ left, remove? c cs = some left) ↔ c.amount.toNat ≤ (amountOf ⟨cs⟩ c.denom).toNat := by
  -- Of a denomination that is not there nothing can be taken.
  have absent (ds : List Coin) {amount : UInt64} (none : amount = 0) :
      (∃ left, (if c.amount = 0 then some ds else Option.none) = some left) ↔
        c.amount.toNat ≤ amount.toNat := by
    rw [none, UInt64.toNat_zero, Nat.le_zero, ← UInt64.toNat_zero, UInt64.toNat_inj]
    split
    · rename_i hzero
      exact iff_of_true ⟨_, rfl⟩ hzero
    · rename_i hsome
      exact iff_of_false (not_exists.2 fun _ => (Option.some_ne_none _).symm) hsome
  induction cs with
  | nil => exact absent [] rfl
  | cons d cs ih =>
    obtain ⟨hd, hcs⟩ := List.pairwise_cons.1 h
    rw [remove?]
    split
    · rename_i hlt
      refine absent _ (amountOf_of_lt fun e he => ?_)
      rcases List.mem_cons.1 he with rfl | he
      · exact hlt
      · exact String.lt_trans hlt (hd e he)
    split
    · rename_i heq
      rw [amountOf_cons, if_pos heq.symm, ← UInt64.le_iff_toNat_le]
      unfold Word.sub?
      split
      · rename_i hsub
        split at hsub
        · cases hsub
        · rename_i hle
          exact iff_of_false (not_exists.2 fun _ => (Option.some_ne_none _).symm) hle
      · rename_i hsub
        split at hsub
        · rename_i hle
          exact iff_of_true ⟨_, rfl⟩ hle
        · cases hsub
    · rename_i hne
      rw [amountOf_cons, if_neg fun heq => hne heq.symm]
      refine Iff.trans ?_ (ih hcs)
      simp only [Option.map_eq_some_iff]
      constructor
      · rintro ⟨_, left, hleft, -⟩
        exact ⟨left, hleft⟩
      · rintro ⟨left, hleft⟩
        exact ⟨_, left, hleft, rfl⟩

/-- The coins of a list can be taken one at a time exactly if there is as much of every denomination
as the list holds. -/
theorem exists_foldlM_sub?_iff {s : Coins} (h : s.Sorted) {cs : List Coin} :
    (∃ left, cs.foldlM sub? s = some left) ↔
      ∀ denom, total denom cs ≤ (s.amountOf denom).toNat := by
  constructor
  · rintro ⟨left, hleft⟩ denom
    have taken := (amountOf_foldlM_sub? h hleft).2 denom
    omega
  · intro enough
    induction cs generalizing s with
    | nil => exact ⟨s, rfl⟩
    | cons c cs ih =>
      have first := enough c.denom
      rw [total_cons, if_pos rfl] at first
      obtain ⟨rest, hrest⟩ := (exists_remove?_iff h).2 (Nat.le_trans (Nat.le_add_right _ _) first)
      have hnext : s.sub? c = some ⟨rest⟩ := by
        rw [sub?_eq h, hrest]
        rfl
      -- What the others take is still there behind the first.
      obtain ⟨left, hleft⟩ := ih (h.sub? hnext) fun denom => by
        have all := enough denom
        have taken := amountOf_sub? h hnext denom
        rw [total_cons] at all
        omega
      exact ⟨left, by rw [List.foldlM_cons, hnext]; exact hleft⟩

end Coins

end TestChain
