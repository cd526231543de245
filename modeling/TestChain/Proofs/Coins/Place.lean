import TestChain.Coin

/-!
# The place of a denomination

In a list of coins in order a denomination has a place: that of its coin, or the one between the
smaller denominations and the larger ones. Halving the part of the list where it can be finds the
place (`Coins.isPlace_search`), and whatever finds it, what happens there to a set in order is what
going through its list from the front does (`Coins.insert`, `Coins.remove?`). So adding and taking
are these recursions (`Coins.addCoin_eq`, `Coins.sub?_eq`), over which the proofs go.
-/

namespace TestChain

namespace Coins

/-- A place is that of a denomination: the place of a coin of it, or one behind all smaller
denominations and before all larger ones. -/
def IsPlace (denom : String) (cs : List Coin) : Place → Prop
  | .found i => ∃ c, cs[i]? = some c ∧ c.denom = denom
  | .missing i => i ≤ cs.length ∧ (∀ c ∈ cs.take i, c.denom < denom) ∧
      ∀ c ∈ cs.drop i, denom < c.denom

/-- Adds a coin to a list of coins in order, from the front. -/
def insert (c : Coin) : List Coin → List Coin
  | [] => [c]
  | d :: rest =>
    if c.denom < d.denom then c :: d :: rest
    else if c.denom = d.denom then ⟨d.denom, Word.addSat d.amount c.amount⟩ :: rest
    else d :: insert c rest

/-- Takes a coin from a list of coins in order, from the front, if it has as much; a denomination of
which nothing is left goes. -/
def remove? (c : Coin) : List Coin → Option (List Coin)
  | [] => if c.amount = 0 then some [] else none
  | d :: rest =>
    if c.denom < d.denom then
      -- The list does not have the denomination, and nothing of it can be taken.
      if c.amount = 0 then some (d :: rest) else none
    else if c.denom = d.denom then
      match Word.sub? d.amount c.amount with
      | none => none
      | some amount => some (if amount = 0 then rest else ⟨d.denom, amount⟩ :: rest)
    else (remove? c rest).map (d :: ·)

variable {s : Coins} {c d : Coin} {cs front back : List Coin} {denom : String} {p : Place}

/-- Denominations that are not in order one way and differ are in order the other way. -/
theorem lt_of_not_lt {d e : String} (h : ¬d < e) (hne : d ≠ e) : e < d :=
  Decidable.byContradiction fun h' => hne (Std.Trichotomous.trichotomous d e h h')

/-! ## Dividing a list -/

/-- A list that is divided at the place of a denomination. -/
inductive Divided (denom : String) : List Coin → Place → Prop where
  /-- The coin of the denomination stands between the smaller and the larger ones. -/
  | found {front back : List Coin} {c : Coin} (same : c.denom = denom)
    (before : ∀ d ∈ front, d.denom < denom) (behind : ∀ d ∈ back, denom < d.denom) :
    Divided denom (front ++ c :: back) (.found front.length)
  /-- There are only smaller ones and larger ones. -/
  | missing {front back : List Coin} (before : ∀ d ∈ front, d.denom < denom)
    (behind : ∀ d ∈ back, denom < d.denom) : Divided denom (front ++ back) (.missing front.length)

/-- A list is the coins before a place, the coin there and the coins behind it. -/
theorem eq_of_getElem? {i : Nat} (h : cs[i]? = some c) :
    cs = cs.take i ++ c :: cs.drop (i + 1) ∧ (cs.take i).length = i := by
  obtain ⟨hi, rfl⟩ := List.getElem?_eq_some_iff.1 h
  rw [← List.drop_eq_getElem_cons hi, List.take_append_drop, List.length_take]
  exact ⟨rfl, Nat.min_eq_left (Nat.le_of_lt hi)⟩

/-- The coins before a coin of a list in order have smaller denominations, those behind it larger
ones. -/
theorem apart_of_pairwise
    (sorted : (front ++ c :: back).Pairwise fun a b => a.denom < b.denom) :
    (∀ d ∈ front, d.denom < c.denom) ∧ ∀ d ∈ back, c.denom < d.denom := by
  obtain ⟨-, later, across⟩ := List.pairwise_append.1 sorted
  exact ⟨fun d hd => across d hd c List.mem_cons_self, (List.pairwise_cons.1 later).1⟩

/-- A list in order is divided at the place of a denomination. -/
theorem IsPlace.divided (h : IsPlace denom cs p)
    (sorted : cs.Pairwise fun a b => a.denom < b.denom) : Divided denom cs p := by
  cases p with
  | found i =>
    obtain ⟨c, hc, rfl⟩ := h
    obtain ⟨parts, size⟩ := eq_of_getElem? hc
    rw [parts] at sorted
    obtain ⟨before, behind⟩ := apart_of_pairwise sorted
    have divided := Divided.found rfl before behind
    rwa [← parts, size] at divided
  | missing i =>
    obtain ⟨hi, before, behind⟩ := h
    have divided := Divided.missing before behind
    rwa [List.take_append_drop, List.length_take, Nat.min_eq_left hi] at divided

/-! ## Halving -/

/-- The part of a list to which the search is narrowed: behind it all denominations are larger, and
its first coin is not larger unless it is the first of all. -/
structure Window (denom : String) (cs : List Coin) (base size : Nat) : Prop where
  /-- There is a coin in it. -/
  pos : 0 < size
  /-- It lies in the list. -/
  fits : base + size ≤ cs.length
  /-- Its first coin is not larger. -/
  low : base = 0 ∨ ∃ c, cs[base]? = some c ∧ ¬denom < c.denom
  /-- The coins behind it are. -/
  high : ∀ c ∈ cs.drop (base + size), denom < c.denom

/-- All coins of a list in order are larger from the first larger one on. -/
theorem larger_of_mem_drop (sorted : cs.Pairwise fun a b => a.denom < b.denom) {i : Nat}
    (h : cs[i]? = some c) (large : denom < c.denom) : ∀ d ∈ cs.drop i, denom < d.denom := by
  obtain ⟨hi, rfl⟩ := List.getElem?_eq_some_iff.1 h
  have later := sorted.sublist (List.drop_sublist i cs)
  rw [List.drop_eq_getElem_cons hi] at later ⊢
  intro d hd
  rcases List.mem_cons.1 hd with rfl | hd
  · exact large
  · exact String.lt_trans large ((List.pairwise_cons.1 later).1 d hd)

/-- The search is narrowed down to one coin. -/
theorem Window.narrow {base size : Nat} (sorted : cs.Pairwise fun a b => a.denom < b.denom)
    (h : Window denom cs base size) : Window denom cs (narrow denom cs base size) 1 := by
  fun_induction Coins.narrow denom cs base size with
  | case1 base size one =>
    obtain rfl : size = 1 := Nat.le_antisymm one h.pos
    exact h
  | case2 base size more middle larger ih =>
    have half : 0 < size - size / 2 ∧ middle + (size - size / 2) = base + size := by omega
    have inside : middle < cs.length := by
      have := h.fits
      omega
    have coin : cs[middle]? = some cs[middle] := List.getElem?_eq_getElem inside
    have larger_iff : larger = true ↔ denom < cs[middle].denom := by
      simp only [larger, coin, Option.any_some, decide_eq_true_eq]
    refine ih ?_
    split
    · next large =>
      -- Whether the coin in the middle is kept or not, all coins behind the rest are larger.
      have behind := larger_of_mem_drop sorted coin (larger_iff.1 large)
      have reaches : middle ≤ base + (size - size / 2) := by omega
      exact {
        pos := half.1
        fits := by
          have := h.fits
          omega
        low := h.low
        high := fun d hd => behind d ((List.drop_sublist_drop_left cs reaches).subset hd) }
    · next small =>
      exact {
        pos := half.1
        fits := half.2 ▸ h.fits
        low := .inr ⟨_, coin, mt larger_iff.2 small⟩
        high := half.2 ▸ h.high }

/-- Halving finds the place of a denomination in a list in order. -/
theorem isPlace_search (sorted : cs.Pairwise fun a b => a.denom < b.denom) (denom : String) :
    IsPlace denom cs (search denom cs) := by
  rcases Nat.eq_zero_or_pos cs.length with empty | pos
  · obtain rfl := List.length_eq_zero_iff.1 empty
    exact ⟨Nat.le_refl 0, List.forall_mem_nil _, List.forall_mem_nil _⟩
  have whole : Window denom cs 0 cs.length := {
    pos := pos
    fits := Nat.le_of_eq (Nat.zero_add _)
    low := .inl rfl
    high := by
      rw [Nat.zero_add, List.drop_length]
      exact List.forall_mem_nil _ }
  have last := whole.narrow sorted
  unfold search
  generalize Coins.narrow denom cs 0 cs.length = i at last
  have inside : i < cs.length := last.fits
  have coin : cs[i]? = some cs[i] := List.getElem?_eq_getElem inside
  obtain ⟨before, -⟩ := apart_of_pairwise ((eq_of_getElem? coin).1 ▸ sorted)
  dsimp only
  rw [coin]
  dsimp only
  split
  · next same => exact ⟨_, coin, same⟩
  split
  · next smaller =>
    refine ⟨last.fits, fun d hd => ?_, last.high⟩
    rw [List.take_succ_eq_append_getElem inside] at hd
    rcases List.mem_append.1 hd with hd | hd
    · exact String.lt_trans (before d hd) smaller
    · rwa [List.mem_singleton.1 hd]
  · next other smaller =>
    -- The coin is larger, so it is the first of all.
    have larger := lt_of_not_lt smaller other
    have first : i = 0 := last.low.resolve_right fun ⟨c, hc, small⟩ => by
      rw [coin, Option.some.injEq] at hc
      exact small (hc ▸ larger)
    subst first
    exact ⟨Nat.zero_le _, List.forall_mem_nil _, larger_of_mem_drop sorted coin larger⟩

/-- In a list out of order one coin is found and the other one is missed. -/
example : let cs := [⟨"ublk", 1⟩, ⟨"atom", 2⟩]
    search "atom" cs = .found 1 ∧ search "ublk" cs = .missing 2 := by
  decide

/-! ## Adding and taking behind smaller denominations -/

/-- A coin is added behind the smaller denominations. -/
theorem insert_append (before : ∀ d ∈ front, d.denom < c.denom) :
    insert c (front ++ back) = front ++ insert c back := by
  induction front with
  | nil => rfl
  | cons d front ih =>
    obtain ⟨smaller, before⟩ := List.forall_mem_cons.1 before
    rw [List.cons_append, insert, if_neg (String.lt_asymm smaller),
      if_neg (String.ne_of_lt smaller).symm, ih before, List.cons_append]

/-- A coin comes before larger denominations. -/
theorem insert_of_lt (behind : ∀ d ∈ back, c.denom < d.denom) : insert c back = c :: back := by
  cases back with
  | nil => rfl
  | cons d back => rw [insert, if_pos (behind d List.mem_cons_self)]

/-- A coin is taken behind the smaller denominations. -/
theorem remove?_append (before : ∀ d ∈ front, d.denom < c.denom) :
    remove? c (front ++ back) = (remove? c back).map (front ++ ·) := by
  induction front with
  | nil => exact (Option.map_id_apply).symm
  | cons d front ih =>
    obtain ⟨smaller, before⟩ := List.forall_mem_cons.1 before
    rw [List.cons_append, remove?, if_neg (String.lt_asymm smaller),
      if_neg (String.ne_of_lt smaller).symm, ih before, Option.map_map]
    rfl

/-- From larger denominations only a coin without an amount can be taken. -/
theorem remove?_of_lt (behind : ∀ d ∈ back, c.denom < d.denom) :
    remove? c back = if c.amount = 0 then some back else none := by
  cases back with
  | nil => rfl
  | cons d back => rw [remove?, if_pos (behind d List.mem_cons_self)]

/-- From the coin of its denomination a coin is taken if that has as much. -/
theorem remove?_cons_of_eq (same : d.denom = c.denom) :
    remove? c (d :: back) = (Word.sub? d.amount c.amount).map fun left =>
      if left = 0 then back else ⟨d.denom, left⟩ :: back := by
  rw [remove?, if_neg (same ▸ String.lt_irrefl _), if_pos same.symm]
  cases Word.sub? d.amount c.amount with
  | none => rfl
  | some left => rfl

/-! ## At the place -/

/-- At the place of its denomination a coin is added to a set in order as from the front. -/
theorem addAt_eq_insert (sorted : s.Sorted) (h : IsPlace c.denom s.toList p) :
    s.addAt c p = ⟨insert c s.toList⟩ := by
  obtain ⟨cs⟩ := s
  unfold addAt
  dsimp only at h ⊢
  refine congrArg Coins.mk ?_
  cases h.divided sorted with
  | @found front back d same before behind =>
    rw [insert_append before, insert, if_neg (same ▸ String.lt_irrefl _), if_pos same.symm]
    exact List.modifyTailIdx_add (List.modifyHead _) 0 front (d :: back)
  | @missing front back before behind =>
    rw [insert_append before, insert_of_lt behind]
    exact List.modifyTailIdx_add (List.cons c) 0 front back

/-- At the place of its denomination a coin is taken from a set in order as from the front. -/
theorem takeAt_eq_remove? (sorted : s.Sorted) (h : IsPlace c.denom s.toList p) :
    s.takeAt c p = ((remove? c s.toList).isSome, ((remove? c s.toList).map (⟨·⟩)).getD s) := by
  obtain ⟨cs⟩ := s
  unfold takeAt
  dsimp only at h ⊢
  cases h.divided sorted with
  | @found front back d same before behind =>
    have coin : (front ++ d :: back)[front.length]? = some d := by
      rw [List.getElem?_append_right (Nat.le_refl _), Nat.sub_self]
      rfl
    dsimp only
    rw [remove?_append before, remove?_cons_of_eq same, coin]
    dsimp only
    cases Word.sub? d.amount c.amount with
    | none => rfl
    | some left =>
      simp only [Option.map_some, Option.isSome_some, Option.getD_some]
      split
      · rw [List.eraseIdx_append_of_length_le (Nat.le_refl _), Nat.sub_self]
        rfl
      · rw [List.set_append_right _ _ (Nat.le_refl _), Nat.sub_self]
        rfl
  | @missing front back before behind =>
    rw [remove?_append before, remove?_of_lt behind]
    by_cases nothing : c.amount = 0
    · rw [if_pos nothing]
      simp only [nothing]
      rfl
    · rw [if_neg nothing]
      simp only [nothing]
      rfl

/-- A coin is added to a set in order as from the front. -/
theorem addCoin_eq (sorted : s.Sorted) (c : Coin) : s.addCoin c = ⟨insert c s.toList⟩ :=
  addAt_eq_insert sorted (isPlace_search sorted c.denom)

/-- A coin is taken from a set in order as from the front. -/
theorem sub?_eq (sorted : s.Sorted) (c : Coin) : s.sub? c = (remove? c s.toList).map (⟨·⟩) := by
  unfold sub?
  rw [takeAt_eq_remove? sorted (isPlace_search sorted c.denom)]
  cases remove? c s.toList with
  | none => rfl
  | some left => rfl

/-- Adding a coin to a set in order changes it at the place of its denomination. -/
theorem addAt_eq (sorted : s.Sorted) (h : IsPlace c.denom s.toList p) :
    s.addAt c p = s.addCoin c :=
  (addAt_eq_insert sorted h).trans (addCoin_eq sorted c).symm

/-- Taking a coin from a set in order changes it at the place of its denomination, if anything. -/
theorem takeAt_eq (sorted : s.Sorted) (h : IsPlace c.denom s.toList p) :
    s.takeAt c p = ((s.sub? c).isSome, (s.sub? c).getD s) := by
  rw [takeAt_eq_remove? sorted h, sub?_eq sorted, Option.isSome_map]

end Coins

end TestChain
