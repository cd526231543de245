import TestChain.Genesis.Validation
import TestChain.Proofs.Codec.Documents
import TestChain.Proofs.Coins
import TestChain.Proofs.Outcome

/-!
# What validation tests

Validation adds words up and stops where a sum does not fit. As sums of natural numbers its tests
are short: the balances of every denomination are the supply (`BankState.checkSupply_ok_iff`), and
the first balance of the pool of bonded tokens is what the validators have bonded
(`BankState.checkBondedPool_ok_iff`). A document is valid exactly if it passes all tests
(`GenesisDocument.validate_ok_iff`).
-/

namespace TestChain

/-- A sum of words is that of the numbers, if it fits. -/
theorem Word.add?_eq_some_iff {a b n : UInt64} :
    Word.add? a b = some n ↔ n.toNat = a.toNat + b.toNat := by
  unfold Word.add? Word.ofNat?
  have := n.toNat_lt
  split
  · rename_i h
    constructor
    · intro hn
      rw [← Option.some.inj hn, UInt64.toNat_ofNat_of_lt' h]
    · intro hn
      rw [← hn, UInt64.ofNat_toNat]
  · rename_i h
    constructor
    · exact fun hn => (nomatch hn)
    · intro hn
      exact absurd (hn ▸ this) h

/-- Two words have no sum exactly if that of the numbers does not fit. -/
theorem Word.add?_eq_none_iff {a b : UInt64} :
    Word.add? a b = none ↔ UInt64.size ≤ a.toNat + b.toNat := by
  unfold Word.add? Word.ofNat?
  split
  · rename_i h
    exact iff_of_false (fun hsome => (nomatch hsome)) (Nat.not_le.2 h)
  · rename_i h
    exact iff_of_true rfl (Nat.not_lt.1 h)

/-- A word times one is that word. -/
theorem Word.mul?_one (a : UInt64) : Word.mul? a (UInt64.ofNat 1) = some a := by
  have same : a.toNat * (UInt64.ofNat 1).toNat = a.toNat := Nat.mul_one _
  unfold Word.mul? Word.ofNat?
  rw [same, if_pos a.toNat_lt, UInt64.ofNat_toNat]

/-! ## Validators -/

/-- What a validator has bonded: its tokens if it takes part. -/
def Validator.stake (v : Validator) : Nat :=
  if v.isBonded then v.tokens.toNat else 0

/-- What some validators have bonded. -/
def Validator.bonded (vs : List Validator) : Nat :=
  (vs.map stake).sum

/-- The first of some validators and the others have bonded what all have. -/
theorem Validator.bonded_cons (v : Validator) (vs : List Validator) :
    bonded (v :: vs) = v.stake + bonded vs := by
  simp only [bonded, List.map_cons, List.sum_cons]

/-- The tokens of the bonded validators are added to a word one by one, if the sum fits. -/
theorem Validator.foldlM_tokens_eq_some_iff (vs : List Validator) {start n : UInt64} :
    (vs.filter isBonded).foldlM (fun sum v => Word.add? sum v.tokens) start = some n ↔
      n.toNat = start.toNat + bonded vs := by
  induction vs generalizing start with
  | nil =>
    show some start = some n ↔ n.toNat = start.toNat + 0
    rw [Nat.add_zero, Option.some.injEq, ← UInt64.toNat_inj, eq_comm]
  | cons v rest ih =>
    rw [bonded_cons, List.filter_cons, stake]
    split
    · rw [List.foldlM_cons]
      cases hadd : Word.add? start v.tokens with
      | none =>
        -- A sum that does not fit on the way does not fit at the end.
        have large := Word.add?_eq_none_iff.1 hadd
        have := n.toNat_lt
        refine iff_of_false (fun h => (nomatch h)) fun h => ?_
        simp only [UInt64.size] at large
        omega
      | some sum =>
        have added := Word.add?_eq_some_iff.1 hadd
        show (rest.filter isBonded).foldlM _ sum = some n ↔ _
        rw [ih, added, Nat.add_assoc]
    · rw [ih, Nat.zero_add]

/-- The sum of the bonded tokens is that of the numbers, if it fits. -/
theorem StakingState.bondedTokens?_eq_some_iff {s : StakingState} {n : UInt64} :
    s.bondedTokens? = some n ↔ n.toNat = Validator.bonded s.validators := by
  have none : (0 : UInt64).toNat = 0 := rfl
  unfold bondedTokens?
  rw [Validator.foldlM_tokens_eq_some_iff, none, Nat.zero_add]

/-- Every delegation is to a validator that is there. -/
theorem StakingState.checkDelegations_ok_iff {s : StakingState} :
    s.checkDelegations = .ok () ↔
      ∀ d ∈ s.delegations, ∃ v ∈ s.validators, v.operatorAddress = d.validator := by
  unfold checkDelegations
  rw [except_forM_ok_iff]
  refine forall_congr' fun d => imp_congr_right fun _ => ?_
  rw [except_test_ok_iff]
  simp only [List.any_eq_true, decide_eq_true_eq]

/-! ## Balances -/

/-- What some balances hold of a denomination. -/
def Balance.sum (denom : String) (bs : List Balance) : Nat :=
  (bs.map fun b => (b.coins.amountOf denom).toNat).sum

/-- Two lists of balances hold together what each of them holds. -/
theorem Balance.sum_append (denom : String) (bs cs : List Balance) :
    sum denom (bs ++ cs) = sum denom bs + sum denom cs := by
  simp only [sum, List.map_append, List.sum_append]

/-- The coins of balances in order hold what the balances hold. -/
theorem Balance.total_flatMap {bs : List Balance} (h : ∀ b ∈ bs, b.coins.Sorted) (denom : String) :
    Coins.total denom (bs.flatMap fun b => b.coins.toList) = Balance.sum denom bs := by
  induction bs with
  | nil => rfl
  | cons b rest ih =>
    have here := Coins.total_eq (h b List.mem_cons_self) denom
    have later := ih fun c hc => h c (List.mem_cons_of_mem _ hc)
    simp only [Coins.total, Balance.sum] at here later ⊢
    rw [List.flatMap_cons, List.map_append, List.sum_append, here, later, List.map_cons,
      List.sum_cons]

/-- A coin is added if the amount of its denomination fits. -/
theorem BankState.addCoin?_eq (s : Coins) (c : Coin) :
    addCoin? s c =
      if (s.amountOf c.denom).toNat + c.amount.toNat < UInt64.size then some (s.addCoin c)
      else none := by
  unfold BankState.addCoin?
  cases hadd : Word.add? (s.amountOf c.denom) c.amount with
  | none => rw [if_neg (Nat.not_lt.2 (Word.add?_eq_none_iff.1 hadd))]
  | some sum =>
    have fits := Word.add?_eq_some_iff.1 hadd
    rw [← fits, if_pos sum.toNat_lt]

/-- A coin that fits raises the amounts by what it holds. -/
theorem Coins.toNat_amountOf_addCoin {s : Coins} (h : s.Sorted) {c : Coin}
    (hfit : (s.amountOf c.denom).toNat + c.amount.toNat < UInt64.size) (denom : String) :
    ((s.addCoin c).amountOf denom).toNat =
      (s.amountOf denom).toNat + if c.denom = denom then c.amount.toNat else 0 := by
  rw [amountOf_addCoin h]
  split
  · rename_i heq
    rw [← heq, Word.toNat_addSat]
    omega
  · rw [Nat.add_zero]

/-- Coins are added one by one as long as every amount fits, which is so at the end if it is so at
all. -/
theorem Coins.foldlM_addCoin?_eq_some_iff {s t : Coins} (h : s.Sorted) {cs : List Coin} :
    cs.foldlM BankState.addCoin? s = some t ↔
      (∀ denom, (s.amountOf denom).toNat + total denom cs < UInt64.size) ∧ s.add ⟨cs⟩ = t := by
  induction cs generalizing s with
  | nil =>
    have fits : ∀ denom, (s.amountOf denom).toNat + total denom [] < UInt64.size := fun denom =>
      (s.amountOf denom).toNat_lt
    show some s = some t ↔ _ ∧ s = t
    rw [Option.some.injEq, and_iff_right fits]
  | cons c rest ih =>
    rw [List.foldlM_cons, BankState.addCoin?_eq]
    split
    · rename_i hfit
      show rest.foldlM _ (s.addCoin c) = some t ↔ _
      rw [ih (h.addCoin c)]
      simp only [toNat_amountOf_addCoin h hfit, total_cons, Nat.add_assoc]
      rfl
    -- A coin that does not fit stops the sum, and no later coin lowers the amount again.
    · rename_i hfit
      refine iff_of_false (fun hnone => (nomatch hnone)) fun hfits => hfit ?_
      have fits := hfits.1 c.denom
      rw [total_cons, if_pos rfl] at fits
      omega

namespace BankState

/-- The sum of the balances fits exactly if it fits in every denomination, and has these amounts. -/
theorem sumBalances?_eq_some {s : BankState} (h : ∀ b ∈ s.balances, b.coins.Sorted) :
    (∀ total, s.sumBalances? = some total →
      total.Sorted ∧ ∀ denom, (total.amountOf denom).toNat = Balance.sum denom s.balances) ∧
    ((∀ denom, Balance.sum denom s.balances < UInt64.size) →
      ∃ total, s.sumBalances? = some total) := by
  have start : Coins.empty.Sorted := .nil
  have none : ∀ denom, (Coins.empty.amountOf denom).toNat = 0 := fun _ => rfl
  unfold sumBalances?
  refine ⟨fun total htotal => ?_, fun hfits => ⟨_, (Coins.foldlM_addCoin?_eq_some_iff start).2
    ⟨fun denom => ?_, rfl⟩⟩⟩
  · obtain ⟨hfits, rfl⟩ := (Coins.foldlM_addCoin?_eq_some_iff start).1 htotal
    refine ⟨start.add _, fun denom => ?_⟩
    have fits := hfits denom
    rw [none, Nat.zero_add] at fits
    rw [Coins.toNat_amountOf_add start, none, Nat.zero_add, ← Balance.total_flatMap h]
    dsimp only
    omega
  · rw [none, Nat.zero_add, Balance.total_flatMap h]
    exact hfits denom

/-- The sum of balances with valid denominations has valid denominations. -/
theorem check_sumBalances? {s : BankState} (h : ∀ b ∈ s.balances, b.coins.check = .ok ())
    {total : Coins} (hsum : s.sumBalances? = some total) : total.check = .ok () := by
  have start : Coins.empty.Sorted := .nil
  unfold sumBalances? at hsum
  obtain ⟨-, rfl⟩ := (Coins.foldlM_addCoin?_eq_some_iff start).1 hsum
  refine Coins.check_add start rfl (except_forM_ok_iff.2 fun c hc => ?_)
  obtain ⟨b, hb, hcoin⟩ := List.mem_flatMap.1 hc
  exact except_forM_ok_iff.1 (h b hb) c hcoin

/-- The denominations of two sets are those of their coins. -/
theorem mem_denoms_iff {s t : Coins} {denom : String} :
    denom ∈ denoms s t ↔ ∃ c ∈ s.toList ++ t.toList, c.denom = denom := by
  unfold denoms
  rw [Members.mem_names_sorted]
  simp only [Members.names, List.map_map, List.mem_map, Function.comp_apply]

/-- The supply is tested to be the sum of the balances. -/
theorem checkSupply_ok_iff {s : BankState} (h : ∀ b ∈ s.balances, b.coins.Sorted) :
    s.checkSupply = .ok () ↔
      ∀ denom, Balance.sum denom s.balances = (s.supply.amountOf denom).toNat := by
  obtain ⟨hamounts, hfits⟩ := sumBalances?_eq_some h
  unfold checkSupply
  cases hsum : s.sumBalances? with
  | none =>
    refine ⟨fun hok => (nomatch hok), fun heq => ?_⟩
    obtain ⟨total, htotal⟩ := hfits fun denom => heq denom ▸ (s.supply.amountOf denom).toNat_lt
    rw [hsum] at htotal
    cases htotal
  | some total =>
    obtain ⟨-, amounts⟩ := hamounts total hsum
    dsimp only
    rw [except_forM_ok_iff]
    -- Denominations that neither set has are of amount zero in both.
    have compared : (∀ denom ∈ denoms total s.supply,
        total.amountOf denom = s.supply.amountOf denom) ↔
          ∀ denom, total.amountOf denom = s.supply.amountOf denom := by
      rw [Coins.amountOf_eq_iff]
      constructor
      · exact fun hall c hc => hall c.denom (mem_denoms_iff.2 ⟨c, hc, rfl⟩)
      · intro hall denom hmem
        obtain ⟨c, hc, rfl⟩ := mem_denoms_iff.1 hmem
        exact hall c hc
    simp only [except_test_ok_iff, eq_comm (a := s.supply.amountOf _)]
    rw [compared]
    refine forall_congr' fun denom => ?_
    rw [← amounts denom, UInt64.toNat_inj]

/-- A balance behind those of other addresses is the first of its address. -/
theorem balanceOf?_of_append {s : BankState} {bs : List Balance} {b : Balance}
    (hs : s.balances = bs ++ [b]) (h : ∀ c ∈ bs, c.address ≠ b.address) :
    s.balanceOf? b.address = some b.coins := by
  have none : bs.find? (fun c => c.address = b.address) = none :=
    List.find?_eq_none.2 fun c hc heq => h c hc (of_decide_eq_true heq)
  have own : decide (b.address = b.address) = true := decide_eq_true rfl
  unfold balanceOf?
  rw [hs, List.find?_append, none, Option.none_or, List.find?_cons, own]
  rfl

/-- The pool of bonded tokens is tested to have what the validators have bonded, in its first
balance. -/
theorem checkBondedPool_ok_iff {s : BankState} {staking : StakingState} :
    s.checkBondedPool staking = .ok () ↔
      (((s.balanceOf? bondedPoolAddress).getD .empty).amountOf staking.params.bondDenom).toNat =
        Validator.bonded staking.validators := by
  have pooled : ((s.balanceOf? bondedPoolAddress).map
      fun cs => cs.amountOf staking.params.bondDenom).getD 0 =
        ((s.balanceOf? bondedPoolAddress).getD .empty).amountOf staking.params.bondDenom := by
    cases s.balanceOf? bondedPoolAddress with
    | none => rfl
    | some cs => rfl
  unfold checkBondedPool
  cases hsum : staking.bondedTokens? with
  | none =>
    refine ⟨fun hok => (nomatch hok), fun heq => ?_⟩
    rw [StakingState.bondedTokens?_eq_some_iff.2 heq] at hsum
    cases hsum
  | some expected =>
    rw [← StakingState.bondedTokens?_eq_some_iff.1 hsum, UInt64.toNat_inj, ← pooled]
    exact except_test_ok_iff.trans eq_comm

/-- The denominations of the balances and of the supply are tested. -/
theorem checkDenoms_ok_iff {s : BankState} :
    s.checkDenoms = .ok () ↔
      (∀ b ∈ s.balances, b.coins.check = .ok ()) ∧ s.supply.check = .ok () := by
  unfold checkDenoms
  rw [mapError_ok_iff, except_bind_ok_iff, ← except_forM_ok_iff]
  exact ⟨fun ⟨_, hall, hsupply⟩ => ⟨hall, hsupply⟩, fun ⟨hall, hsupply⟩ => ⟨⟨⟩, hall, hsupply⟩⟩

end BankState

/-- A document is valid exactly if it has the states of staking and of the bank, there is a
validator, and all tests are passed; the answer is its hash. -/
theorem GenesisDocument.validate_ok_iff {d : GenesisDocument} {hash : Hash} :
    d.validate = .ok hash ↔
      ∃ staking bank, d.get stakingModule StakingState.codec = .ok staking ∧
        d.get bankModule BankState.codec = .ok bank ∧ staking.validators ≠ [] ∧
        staking.checkDelegations = .ok () ∧ bank.checkDenoms = .ok () ∧
        bank.checkSupply = .ok () ∧ bank.checkBondedPool staking = .ok () ∧
        hash = d.stateHash := by
  unfold validate
  constructor
  · intro hok
    obtain ⟨staking, hstaking, hok⟩ := except_bind_ok_iff.1 hok
    obtain ⟨bank, hbank, hok⟩ := except_bind_ok_iff.1 hok
    split at hok
    · obtain ⟨_, hthrow, -⟩ := except_bind_ok_iff.1 hok
      cases hthrow
    · rename_i hsome
      obtain ⟨_, hdelegations, hok⟩ := except_bind_ok_iff.1 hok
      obtain ⟨_, hdenoms, hok⟩ := except_bind_ok_iff.1 hok
      obtain ⟨_, hsupply, hok⟩ := except_bind_ok_iff.1 hok
      obtain ⟨_, hpool, hok⟩ := except_bind_ok_iff.1 hok
      exact ⟨staking, bank, hstaking, hbank, fun h => hsome (List.isEmpty_iff.2 h), hdelegations,
        hdenoms, hsupply, hpool, (Except.ok.inj hok).symm⟩
  · rintro ⟨staking, bank, hstaking, hbank, hsome, hdelegations, hdenoms, hsupply, hpool, rfl⟩
    have some : ¬staking.validators.isEmpty = true := fun h => hsome (List.isEmpty_iff.1 h)
    rw [hstaking, hbank]
    simp only [bind, Except.bind, if_neg some, hdelegations, hdenoms, hsupply, hpool]
    rfl

end TestChain
