import Mathlib.Tactic.ByContra
import TestChain.Genesis.Builder
import TestChain.Proofs.Codec.States
import TestChain.Proofs.Genesis.Validation

/-!
# The verdict on a document

Validation makes its tests one after the other and answers with the first that fails. What it tests
is stated here in natural numbers: a document is accepted exactly if it is sound
(`GenesisDocument.Sound`), and refused with exactly its first fault (`GenesisDocument.Refused`). A
sum that does not fit in a word is found before anything is compared with it, in whatever
denomination the one or the other is.
-/

namespace TestChain

/-! ## The first delegation and the first denomination -/

/-- The refusal is that of the first delegation to no validator. -/
theorem StakingState.checkDelegations_error_iff {s : StakingState} {e : GenesisError} :
    s.checkDelegations = .error e ↔
      ∃ d, (s.delegations.find? fun d =>
          ¬s.validators.any fun v => v.operatorAddress = d.validator) = some d ∧
        .unknownValidator d.delegator d.validator = e :=
  except_forM_test_error_iff

/-- The bonded tokens have no sum exactly if that of the numbers does not fit. -/
theorem StakingState.bondedTokens?_eq_none_iff {s : StakingState} :
    s.bondedTokens? = none ↔ UInt64.size ≤ Validator.bonded s.validators := by
  constructor
  · intro hnone
    by_contra hsmall
    have fits : (UInt64.ofNat (Validator.bonded s.validators)).toNat =
        Validator.bonded s.validators := UInt64.toNat_ofNat_of_lt' (Nat.not_le.1 hsmall)
    have sum := bondedTokens?_eq_some_iff.2 fits
    rw [hnone] at sum
    cases sum
  · intro hlarge
    cases hsum : s.bondedTokens? with
    | none => rfl
    | some n =>
      have sum := bondedTokens?_eq_some_iff.1 hsum
      have small := n.toNat_lt
      simp only [UInt64.size] at hlarge
      omega

namespace BankState

/-- All coins of the bank, those of the balances before those of the supply. -/
def coins (s : BankState) : List Coin :=
  (s.balances.flatMap fun b => b.coins.toList) ++ s.supply.toList

/-- The denominations are tested coin by coin. -/
theorem checkDenoms_eq (s : BankState) :
    s.checkDenoms = (s.coins.forM Coin.check).mapError .invalidDenom := by
  have append (cs ds : List Coin) : (cs ++ ds).forM Coin.check =
      (cs.forM Coin.check >>= fun _ => ds.forM Coin.check) := List.forM_append
  have balances (bs : List Balance) : bs.forM (fun b => b.coins.check) =
      (bs.flatMap fun b => b.coins.toList).forM Coin.check := by
    induction bs with
    | nil => rfl
    | cons b rest ih =>
      rw [List.flatMap_cons, append, ← ih]
      rfl
  unfold checkDenoms coins
  rw [balances, append]
  rfl

/-- The refusal is that of the first coin whose denomination is none. -/
theorem checkDenoms_error_iff {s : BankState} {e : GenesisError} :
    s.checkDenoms = .error e ↔
      ∃ c, (s.coins.find? fun c => ¬isDenom c.denom) = some c ∧ .invalidDenom ⟨c.denom⟩ = e := by
  have first {e : InvalidDenom} : s.coins.forM Coin.check = .error e ↔
      ∃ c, (s.coins.find? fun c => ¬isDenom c.denom) = some c ∧ ⟨c.denom⟩ = e :=
    except_forM_test_error_iff
  rw [checkDenoms_eq, mapError_error_iff]
  simp only [first]
  constructor
  · rintro ⟨_, ⟨c, hc, rfl⟩, rfl⟩
    exact ⟨c, hc, rfl⟩
  · rintro ⟨c, hc, rfl⟩
    exact ⟨_, ⟨c, hc, rfl⟩, rfl⟩

/-- The denominations are tested to be ones. -/
theorem checkDenoms_ok_iff_isDenom {s : BankState} :
    s.checkDenoms = .ok () ↔ ∀ c ∈ s.coins, isDenom c.denom := by
  rw [checkDenoms_eq, mapError_ok_iff, except_forM_ok_iff]
  exact forall₂_congr fun _ _ => except_test_ok_iff

/-! ## The supply -/

/-- The balances and the supply differ in a denomination. -/
def Differs (s : BankState) (denom : String) : Prop :=
  Balance.sum denom s.balances ≠ (s.supply.amountOf denom).toNat

/-- The sum of the balances does not fit exactly if it does not in some denomination. -/
theorem sumBalances?_eq_none_iff {s : BankState} (h : ∀ b ∈ s.balances, b.coins.Sorted) :
    s.sumBalances? = none ↔ ∃ denom, UInt64.size ≤ Balance.sum denom s.balances := by
  obtain ⟨amounts, fits⟩ := sumBalances?_eq_some h
  constructor
  · intro hnone
    by_contra hsmall
    obtain ⟨total, htotal⟩ := fits fun denom =>
      Nat.not_le.1 fun hlarge => hsmall ⟨denom, hlarge⟩
    rw [hnone] at htotal
    cases htotal
  · rintro ⟨denom, hlarge⟩
    cases hsum : s.sumBalances? with
    | none => rfl
    | some total =>
      have sum := (amounts total hsum).2 denom
      have small := (total.amountOf denom).toNat_lt
      simp only [UInt64.size] at hlarge
      omega

/-- The denominations are compared in increasing order. -/
theorem pairwise_denoms (s t : Coins) : (denoms s t).Pairwise (· < ·) := by
  have inOrder := Members.inOrder_sorted ((s.toList ++ t.toList).map fun c => (c.denom, ()))
  exact List.Pairwise.map Prod.fst (fun _ _ hlt => hlt) inOrder

/-- The first denomination in which two sets are seen to differ is the least of all. -/
theorem find?_denoms_eq_some_iff {s t : Coins} {denom : String} :
    ((denoms s t).find? fun denom => ¬t.amountOf denom = s.amountOf denom) = some denom ↔
      t.amountOf denom ≠ s.amountOf denom ∧
        ∀ other, other < denom → t.amountOf other = s.amountOf other := by
  have inOrder := pairwise_denoms s t
  -- In a denomination of neither set there is nothing to differ in.
  have named : ∀ {other}, t.amountOf other ≠ s.amountOf other → other ∈ denoms s t := by
    intro other hne
    by_contra hnone
    have absent : ∀ c ∈ s.toList ++ t.toList, c.denom ≠ other := fun c hc heq =>
      hnone (mem_denoms_iff.2 ⟨c, hc, heq⟩)
    apply hne
    calc t.amountOf other = 0 :=
          Coins.amountOf_of_ne fun c hc => absent c (List.mem_append_right _ hc)
      _ = s.amountOf other :=
          (Coins.amountOf_of_ne fun c hc => absent c (List.mem_append_left _ hc)).symm
  rw [List.find?_eq_some_iff_append]
  simp only [decide_eq_true_eq, decide_not, Bool.not_not, Bool.not_eq_true',
    decide_eq_false_iff_not]
  constructor
  · rintro ⟨hne, before, after, hsplit, hbefore⟩
    rw [hsplit] at inOrder
    have later := (List.pairwise_cons.1 (List.pairwise_append.1 inOrder).2.1).1
    refine ⟨hne, fun other hlt => ?_⟩
    by_contra hother
    have mem := named hother
    rw [hsplit] at mem
    rcases List.mem_append.1 mem with mem | mem
    · exact hother (hbefore other mem)
    rcases List.mem_cons.1 mem with rfl | mem
    · exact String.lt_irrefl other hlt
    · exact String.lt_asymm hlt (later other mem)
  · rintro ⟨hne, hleast⟩
    obtain ⟨before, after, hsplit⟩ := List.append_of_mem (named hne)
    rw [hsplit] at inOrder
    refine ⟨hne, before, after, hsplit, fun other hother => ?_⟩
    exact hleast other ((List.pairwise_append.1 inOrder).2.2 other hother denom List.mem_cons_self)

/-- The supply is refused for a sum that does not fit, or else at the least denomination in which it
differs from the balances. -/
theorem checkSupply_error_iff {s : BankState} (h : ∀ b ∈ s.balances, b.coins.Sorted)
    {e : GenesisError} :
    s.checkSupply = .error e ↔
      (∃ denom, UInt64.size ≤ Balance.sum denom s.balances) ∧ .balanceOverflow = e ∨
      (∀ denom, Balance.sum denom s.balances < UInt64.size) ∧
        ∃ denom, (s.Differs denom ∧ ∀ other, other < denom → ¬s.Differs other) ∧
          .supplyMismatch denom (s.supply.amountOf denom)
            (UInt64.ofNat (Balance.sum denom s.balances)) = e := by
  unfold checkSupply
  cases hsum : s.sumBalances? with
  | none =>
    have large := (sumBalances?_eq_none_iff h).1 hsum
    have not_small : ¬∀ denom, Balance.sum denom s.balances < UInt64.size := by
      obtain ⟨denom, hlarge⟩ := large
      exact fun hsmall => Nat.not_le.2 (hsmall denom) hlarge
    constructor
    · exact fun heq => .inl ⟨large, Except.error.inj heq⟩
    · rintro (⟨-, rfl⟩ | ⟨hsmall, -⟩)
      · rfl
      · exact absurd hsmall not_small
  | some total =>
    have amounts := ((sumBalances?_eq_some h).1 total hsum).2
    have small : ∀ denom, Balance.sum denom s.balances < UInt64.size := fun denom => by
      rw [← amounts denom]
      exact (total.amountOf denom).toNat_lt
    have not_large : ¬∃ denom, UInt64.size ≤ Balance.sum denom s.balances := fun ⟨denom, hlarge⟩ =>
      Nat.not_le.2 (small denom) hlarge
    have differs : ∀ denom, s.Differs denom ↔ s.supply.amountOf denom ≠ total.amountOf denom := by
      intro denom
      unfold Differs
      rw [← amounts denom, ne_eq, UInt64.toNat_inj, eq_comm]
    have computed : ∀ denom, UInt64.ofNat (Balance.sum denom s.balances) =
        total.amountOf denom := fun denom => by
      rw [← amounts denom, UInt64.ofNat_toNat]
    dsimp only
    rw [except_forM_test_error_iff]
    simp only [find?_denoms_eq_some_iff, differs, computed, not_large, false_and, false_or, not_not]
    exact (and_iff_right small).symm

/-! ## The pool of bonded tokens -/

/-- What the first balance of the pool of bonded tokens has of a denomination. -/
def pooled (s : BankState) (denom : String) : UInt64 :=
  ((s.balanceOf? bondedPoolAddress).getD .empty).amountOf denom

/-- The pool is refused for a sum that does not fit, or else if it does not hold that sum. -/
theorem checkBondedPool_error_iff {s : BankState} {staking : StakingState} {e : GenesisError} :
    s.checkBondedPool staking = .error e ↔
      UInt64.size ≤ Validator.bonded staking.validators ∧ .balanceOverflow = e ∨
      Validator.bonded staking.validators < UInt64.size ∧
        Validator.bonded staking.validators ≠ (s.pooled staking.params.bondDenom).toNat ∧
        .bondedPoolMismatch staking.params.bondDenom
          (UInt64.ofNat (Validator.bonded staking.validators))
          (s.pooled staking.params.bondDenom) = e := by
  have actual : ((s.balanceOf? bondedPoolAddress).map
      fun cs => cs.amountOf staking.params.bondDenom).getD 0 =
        s.pooled staking.params.bondDenom := by
    unfold pooled
    cases s.balanceOf? bondedPoolAddress with
    | none => rfl
    | some cs => rfl
  unfold checkBondedPool
  cases hsum : staking.bondedTokens? with
  | none =>
    have large := StakingState.bondedTokens?_eq_none_iff.1 hsum
    simp only [large, true_and, Nat.not_lt.2 large, false_and, or_false, Except.error.injEq]
  | some expected =>
    have bonded := StakingState.bondedTokens?_eq_some_iff.1 hsum
    have small : Validator.bonded staking.validators < UInt64.size := bonded ▸ expected.toNat_lt
    have same : UInt64.ofNat (Validator.bonded staking.validators) = expected := by
      rw [← bonded, UInt64.ofNat_toNat]
    dsimp only
    rw [actual, same, ← bonded]
    simp only [Nat.not_le.2 (bonded ▸ small), false_and, false_or, bonded ▸ small, true_and, ne_eq,
      UInt64.toNat_inj]
    by_cases heq : expected = s.pooled staking.params.bondDenom
    · simp only [heq, if_true, not_true_eq_false, false_and, reduceCtorEq]
    · simp only [heq, if_false, not_false_eq_true, true_and, Except.error.injEq]

end BankState

/-! ## The verdict -/

/-- There is a validator, and every delegation is to one that is listed. -/
structure StakingState.Closed (s : StakingState) : Prop where
  /-- There is a validator. -/
  validators : s.validators ≠ []
  /-- Every delegation is to a validator that is listed. -/
  delegations : ∀ d ∈ s.delegations, ∃ v ∈ s.validators, v.operatorAddress = d.validator

namespace GenesisDocument

/-- What is demanded of the states of staking and of the bank. -/
structure Sound (staking : StakingState) (bank : BankState) : Prop where
  /-- There are validators for all delegations. -/
  closed : staking.Closed
  /-- All denominations are ones. -/
  denoms : ∀ c ∈ bank.coins, isDenom c.denom
  /-- The balances of every denomination fit in a word and are its supply. -/
  supply : ∀ denom, Balance.sum denom bank.balances < UInt64.size ∧
    Balance.sum denom bank.balances = (bank.supply.amountOf denom).toNat
  /-- What the validators have bonded fits in a word and is in the pool. -/
  pool : Validator.bonded staking.validators < UInt64.size ∧
    Validator.bonded staking.validators = (bank.pooled staking.params.bondDenom).toNat

/-- The first demand that the states of staking and of the bank fail, as the error that says so. -/
inductive Fault (staking : StakingState) (bank : BankState) : GenesisError → Prop where
  /-- There is no validator. -/
  | noValidator : staking.validators = [] → Fault staking bank .emptyValidatorSet
  /-- A delegation, the first of these, is to a validator that is not listed. -/
  | delegation {d : Delegation} : staking.validators ≠ [] →
    (staking.delegations.find? fun d =>
      ¬staking.validators.any fun v => v.operatorAddress = d.validator) = some d →
    Fault staking bank (.unknownValidator d.delegator d.validator)
  /-- A denomination, the first of these, is none. -/
  | denom {c : Coin} : staking.Closed → (bank.coins.find? fun c => ¬isDenom c.denom) = some c →
    Fault staking bank (.invalidDenom ⟨c.denom⟩)
  /-- The balances of some denomination do not fit in a word. -/
  | overflow {denom : String} : staking.Closed → (∀ c ∈ bank.coins, isDenom c.denom) →
    UInt64.size ≤ Balance.sum denom bank.balances → Fault staking bank .balanceOverflow
  /-- All balances fit, and those of a denomination, the least of these, are not its supply. -/
  | supply {denom : String} : staking.Closed → (∀ c ∈ bank.coins, isDenom c.denom) →
    (∀ denom, Balance.sum denom bank.balances < UInt64.size) →
    bank.Differs denom → (∀ other, other < denom → ¬bank.Differs other) →
    Fault staking bank (.supplyMismatch denom (bank.supply.amountOf denom)
      (UInt64.ofNat (Balance.sum denom bank.balances)))
  /-- What the validators have bonded does not fit in a word. -/
  | bondOverflow : staking.Closed → (∀ c ∈ bank.coins, isDenom c.denom) →
    (∀ denom, ¬bank.Differs denom) → UInt64.size ≤ Validator.bonded staking.validators →
    Fault staking bank .balanceOverflow
  /-- What the validators have bonded fits and is not what is in the pool. -/
  | pool : staking.Closed → (∀ c ∈ bank.coins, isDenom c.denom) → (∀ denom, ¬bank.Differs denom) →
    Validator.bonded staking.validators < UInt64.size →
    Validator.bonded staking.validators ≠ (bank.pooled staking.params.bondDenom).toNat →
    Fault staking bank (.bondedPoolMismatch staking.params.bondDenom
      (UInt64.ofNat (Validator.bonded staking.validators)) (bank.pooled staking.params.bondDenom))

/-- The first fault of a document, as the error that says so. -/
inductive Refused (d : GenesisDocument) : GenesisError → Prop where
  /-- It has no state of staking. -/
  | staking {e : GenesisError} : d.get stakingModule StakingState.codec = .error e → Refused d e
  /-- It has none of the bank. -/
  | bank {e : GenesisError} {staking : StakingState} :
    d.get stakingModule StakingState.codec = .ok staking →
    d.get bankModule BankState.codec = .error e → Refused d e
  /-- These states fail a demand. -/
  | states {e : GenesisError} {staking : StakingState} {bank : BankState} :
    d.get stakingModule StakingState.codec = .ok staking →
    d.get bankModule BankState.codec = .ok bank → Fault staking bank e → Refused d e

/-- The tests of the states of staking and of the bank, in their order. -/
def demand (staking : StakingState) (bank : BankState) : Except GenesisError Unit := do
  if staking.validators.isEmpty then throw .emptyValidatorSet
  staking.checkDelegations
  bank.checkDenoms
  bank.checkSupply
  bank.checkBondedPool staking

/-- Validation makes these tests if there are such states, and then answers with the hash. -/
theorem validate_eq (d : GenesisDocument) :
    d.validate = do
      let staking ← d.get stakingModule StakingState.codec
      let bank ← d.get bankModule BankState.codec
      demand staking bank
      return d.stateHash := by
  unfold validate demand
  cases d.get stakingModule StakingState.codec with
  | error e => rfl
  | ok staking =>
  cases d.get bankModule BankState.codec with
  | error e => rfl
  | ok bank =>
  dsimp only [bind, Except.bind]
  by_cases hnone : staking.validators.isEmpty = true
  · rw [if_pos hnone, if_pos hnone]
    rfl
  · rw [if_neg hnone, if_neg hnone]
    cases staking.checkDelegations with
    | error e => rfl
    | ok _ =>
    cases bank.checkDenoms with
    | error e => rfl
    | ok _ =>
    cases bank.checkSupply with
    | error e => rfl
    | ok _ => rfl

section

variable {staking : StakingState} {bank : BankState}

/-- The tests are passed exactly by sound states. -/
theorem demand_ok_iff (h : ∀ b ∈ bank.balances, b.coins.Sorted) :
    demand staking bank = .ok () ↔ Sound staking bank := by
  unfold demand
  have empty : staking.validators.isEmpty = true ↔ staking.validators = [] := List.isEmpty_iff
  constructor
  · intro hok
    split at hok
    · obtain ⟨_, hthrow, -⟩ := except_bind_ok_iff.1 hok
      cases hthrow
    rename_i hsome
    obtain ⟨_, delegations, hok⟩ := except_bind_ok_iff.1 hok
    obtain ⟨_, denoms, hok⟩ := except_bind_ok_iff.1 hok
    obtain ⟨_, supply, pool⟩ := except_bind_ok_iff.1 hok
    have covered := (BankState.checkSupply_ok_iff h).1 supply
    have pooled := BankState.checkBondedPool_ok_iff.1 pool
    constructor
    · exact ⟨fun hnone => hsome (empty.2 hnone), StakingState.checkDelegations_ok_iff.1 delegations⟩
    · exact BankState.checkDenoms_ok_iff_isDenom.1 denoms
    · intro denom
      refine ⟨?_, covered denom⟩
      rw [covered denom]
      exact UInt64.toNat_lt _
    · refine ⟨?_, pooled.symm⟩
      rw [← pooled]
      exact UInt64.toNat_lt _
  · rintro ⟨closed, denoms, supply, pool⟩
    have hsome : ¬staking.validators.isEmpty = true := fun hnone =>
      closed.validators (empty.1 hnone)
    have hsupply := (BankState.checkSupply_ok_iff h).2 fun denom => (supply denom).2
    have hpool := (BankState.checkBondedPool_ok_iff (s := bank)).2 pool.2.symm
    rw [if_neg hsome, StakingState.checkDelegations_ok_iff.2 closed.delegations]
    simp only [bind, Except.bind, BankState.checkDenoms_ok_iff_isDenom.2 denoms, hsupply, hpool]

/-- With validators for all delegations, the coins are tested. -/
theorem demand_of_closed (h : staking.Closed) :
    demand staking bank =
      (bank.checkDenoms >>= fun _ => bank.checkSupply >>= fun _ =>
        bank.checkBondedPool staking) := by
  have hsome : ¬staking.validators.isEmpty = true := fun hnone =>
    h.validators (List.isEmpty_iff.1 hnone)
  unfold demand
  rw [if_neg hsome, except_bind_of_ok (StakingState.checkDelegations_ok_iff.2 h.delegations)]

/-- Where all denominations are ones, too, the sums are tested. -/
theorem demand_of_denoms (h : staking.Closed) (hdenoms : ∀ c ∈ bank.coins, isDenom c.denom) :
    demand staking bank =
      (bank.checkSupply >>= fun _ => bank.checkBondedPool staking) := by
  rw [demand_of_closed h, except_bind_of_ok (BankState.checkDenoms_ok_iff_isDenom.2 hdenoms)]

/-- The supply is found to be that of the balances exactly if they differ in no denomination. -/
theorem checkSupply_ok_iff_differs (h : ∀ b ∈ bank.balances, b.coins.Sorted) :
    bank.checkSupply = .ok () ↔ ∀ denom, ¬bank.Differs denom := by
  rw [BankState.checkSupply_ok_iff h]
  exact forall_congr' fun _ => not_not.symm

/-- A test fails only with the first fault. -/
theorem fault_of_demand (h : ∀ b ∈ bank.balances, b.coins.Sorted) {e : GenesisError}
    (he : demand staking bank = .error e) : Fault staking bank e := by
  unfold demand at he
  split at he
  · rename_i hnone
    cases he
    exact .noValidator (List.isEmpty_iff.1 hnone)
  rename_i hnone
  have hsome : staking.validators ≠ [] := fun hempty => hnone (List.isEmpty_iff.2 hempty)
  rcases except_bind_error_iff.1 he with he | ⟨_, hlisted, he⟩
  · obtain ⟨d, hfirst, rfl⟩ := StakingState.checkDelegations_error_iff.1 he
    exact .delegation hsome hfirst
  have closed : staking.Closed := ⟨hsome, StakingState.checkDelegations_ok_iff.1 hlisted⟩
  rcases except_bind_error_iff.1 he with he | ⟨_, hdenoms, he⟩
  · obtain ⟨c, hfirst, rfl⟩ := BankState.checkDenoms_error_iff.1 he
    exact .denom closed hfirst
  have denoms := BankState.checkDenoms_ok_iff_isDenom.1 hdenoms
  rcases except_bind_error_iff.1 he with he | ⟨_, hsupply, he⟩
  · rcases (BankState.checkSupply_error_iff h).1 he with
      ⟨⟨denom, hlarge⟩, rfl⟩ | ⟨hsmall, denom, ⟨hdiffers, hleast⟩, rfl⟩
    · exact .overflow closed denoms hlarge
    · exact .supply closed denoms hsmall hdiffers hleast
  have same := (checkSupply_ok_iff_differs h).1 hsupply
  rcases BankState.checkBondedPool_error_iff.1 he with ⟨hlarge, rfl⟩ | ⟨hsmall, hne, rfl⟩
  · exact .bondOverflow closed denoms same hlarge
  · exact .pool closed denoms same hsmall hne

/-- The first fault is found. -/
theorem Fault.demand (h : ∀ b ∈ bank.balances, b.coins.Sorted) {e : GenesisError}
    (he : Fault staking bank e) : demand staking bank = .error e := by
  cases he with
  | noValidator hnone =>
    unfold GenesisDocument.demand
    rw [if_pos (List.isEmpty_iff.2 hnone)]
    rfl
  | delegation hsome hfirst =>
    unfold GenesisDocument.demand
    rw [if_neg fun hempty => hsome (List.isEmpty_iff.1 hempty)]
    apply except_bind_error_iff.2
    exact .inl (StakingState.checkDelegations_error_iff.2 ⟨_, hfirst, rfl⟩)
  | denom closed hfirst =>
    rw [demand_of_closed closed]
    apply except_bind_error_iff.2
    exact .inl (BankState.checkDenoms_error_iff.2 ⟨_, hfirst, rfl⟩)
  | overflow closed denoms hlarge =>
    rw [demand_of_denoms closed denoms]
    apply except_bind_error_iff.2
    exact .inl ((BankState.checkSupply_error_iff h).2 (.inl ⟨⟨_, hlarge⟩, rfl⟩))
  | supply closed denoms hsmall hdiffers hleast =>
    rw [demand_of_denoms closed denoms]
    apply except_bind_error_iff.2
    exact .inl ((BankState.checkSupply_error_iff h).2
      (.inr ⟨hsmall, _, ⟨hdiffers, hleast⟩, rfl⟩))
  | bondOverflow closed denoms same hlarge =>
    rw [demand_of_denoms closed denoms,
      except_bind_of_ok ((checkSupply_ok_iff_differs h).2 same)]
    exact BankState.checkBondedPool_error_iff.2 (.inl ⟨hlarge, rfl⟩)
  | pool closed denoms same hsmall hne =>
    rw [demand_of_denoms closed denoms,
      except_bind_of_ok ((checkSupply_ok_iff_differs h).2 same)]
    exact BankState.checkBondedPool_error_iff.2 (.inr ⟨hsmall, hne, rfl⟩)

end

/-- Where the coins of the balances are in order, a document is accepted, with its hash, exactly if
it has sound states of staking and of the bank, and it is refused with exactly its first fault. -/
theorem validate_verdict (d : GenesisDocument)
    (h : ∀ bank, d.get bankModule BankState.codec = .ok bank →
      ∀ b ∈ bank.balances, b.coins.Sorted) :
    (∀ hash, d.validate = .ok hash ↔
      (∃ staking bank, d.get stakingModule StakingState.codec = .ok staking ∧
        d.get bankModule BankState.codec = .ok bank ∧ Sound staking bank) ∧
      hash = d.stateHash) ∧
    ∀ e, d.validate = .error e ↔ d.Refused e := by
  rw [validate_eq]
  constructor
  · intro hash
    constructor
    · intro hok
      obtain ⟨staking, hstaking, hok⟩ := except_bind_ok_iff.1 hok
      obtain ⟨bank, hbank, hok⟩ := except_bind_ok_iff.1 hok
      obtain ⟨_, hdemand, hok⟩ := except_bind_ok_iff.1 hok
      have sound := (demand_ok_iff (h bank hbank)).1 hdemand
      exact ⟨⟨staking, bank, hstaking, hbank, sound⟩, (Except.ok.inj hok).symm⟩
    · rintro ⟨⟨staking, bank, hstaking, hbank, sound⟩, rfl⟩
      have passed := (demand_ok_iff (h bank hbank)).2 sound
      rw [except_bind_of_ok hstaking, except_bind_of_ok hbank, except_bind_of_ok passed]
      rfl
  · intro e
    constructor
    · intro he
      rcases except_bind_error_iff.1 he with he | ⟨staking, hstaking, he⟩
      · exact .staking he
      rcases except_bind_error_iff.1 he with he | ⟨bank, hbank, he⟩
      · exact .bank hstaking he
      rcases except_bind_error_iff.1 he with he | ⟨_, _, he⟩
      · exact .states hstaking hbank (fault_of_demand (h bank hbank) he)
      · cases he
    · intro he
      cases he with
      | staking he => exact except_bind_error_iff.2 (.inl he)
      | bank hstaking he =>
        rw [except_bind_of_ok hstaking]
        exact except_bind_error_iff.2 (.inl he)
      | states hstaking hbank hfault =>
        rw [except_bind_of_ok hstaking, except_bind_of_ok hbank]
        exact except_bind_error_iff.2 (.inl (hfault.demand (h _ hbank)))

/-- A balance of the pool of bonded tokens. -/
def filledPool : Balance :=
  ⟨bondedPoolAddress, .single Validator.powerReduction defaultBondDenom⟩

/-- A validator that has bonded as much, with a delegation to it. -/
def loneStaking : StakingState :=
  GenesisConfig.fresh.stakingState .fresh (ValidatorKey.generate (.ofSeed 1)).1 bondedPoolAddress

/-- The document of the two, with some supply. -/
def pooling (supply : Coins) : GenesisDocument :=
  empty
    |>.insert stakingModule StakingState.codec loneStaking
    |>.insert bankModule BankState.codec ⟨.fresh, [filledPool], supply⟩

/-- It has these states. -/
theorem get_pooling (supply : Coins) :
    (pooling supply).get stakingModule StakingState.codec = .ok loneStaking ∧
      (pooling supply).get bankModule BankState.codec = .ok ⟨.fresh, [filledPool], supply⟩ := by
  unfold pooling
  constructor
  · rw [get_insert_of_ne (by decide)]
    exact get_insert (StakingState.faithful_codec _) _ _
  · exact get_insert (BankState.faithful_codec _) _ _

/-- Its coins are in order. -/
theorem sorted_pooling {supply : Coins} {bank : BankState}
    (h : (pooling supply).get bankModule BankState.codec = .ok bank) :
    ∀ b ∈ bank.balances, b.coins.Sorted := by
  intro b hb
  rw [← Except.ok.inj ((get_pooling supply).2.symm.trans h)] at hb
  rw [List.mem_singleton.1 hb]
  exact Coins.sorted_single _ _

/-- Its delegation is to its validator. -/
theorem closed_loneStaking : loneStaking.Closed := by
  refine ⟨List.cons_ne_nil _ _, fun d hd => ⟨_, List.mem_cons_self, ?_⟩⟩
  rw [List.mem_singleton.1 hd]
  rfl

/-- The balance is of one denomination. -/
theorem sum_filledPool (denom : String) :
    Balance.sum denom [filledPool] = if defaultBondDenom = denom then 1000000 else 0 := by
  show ((Coins.single _ _).amountOf denom).toNat + 0 = _
  rw [Coins.amountOf_single]
  split
  · rfl
  · rfl

/-- What the validator has bonded is there. -/
theorem pooled_filledPool (supply : Coins) :
    Validator.bonded loneStaking.validators =
      ((⟨.fresh, [filledPool], supply⟩ : BankState).pooled defaultBondDenom).toNat := by
  have first : (⟨.fresh, [filledPool], supply⟩ : BankState).balanceOf? filledPool.address =
      some filledPool.coins :=
    BankState.balanceOf?_of_append (show _ = [] ++ [filledPool] from rfl)
      fun _ hmem => (nomatch hmem)
  unfold BankState.pooled
  rw [show bondedPoolAddress = filledPool.address from rfl, first]
  rfl

/-- With the supply of its balance the document is accepted, and without any it is refused for the
denomination that is missing. -/
theorem verdicts_pooling :
    (pooling filledPool.coins).validate = .ok (pooling filledPool.coins).stateHash ∧
      (pooling .empty).validate =
        .error (.supplyMismatch defaultBondDenom 0 Validator.powerReduction) := by
  have denoms : ∀ c ∈ filledPool.coins.toList, isDenom c.denom := by decide
  constructor
  · obtain ⟨staking, bank⟩ := get_pooling filledPool.coins
    apply ((validate_verdict (pooling filledPool.coins) fun _ => sorted_pooling).1 _).2
    refine ⟨⟨_, _, staking, bank, closed_loneStaking, fun c hc => ?_, fun denom => ?_, ?_⟩, rfl⟩
    · rcases List.mem_append.1 hc with hc | hc
      · exact denoms c hc
      · exact denoms c hc
    · exact ⟨(filledPool.coins.amountOf denom).toNat_lt, rfl⟩
    · exact ⟨by decide, pooled_filledPool _⟩
  · obtain ⟨staking, bank⟩ := get_pooling .empty
    apply ((validate_verdict (pooling .empty) fun _ => sorted_pooling).2 _).2
    have none (denom : String) : (Coins.empty.amountOf denom).toNat = 0 := rfl
    have fault : Fault loneStaking ⟨.fresh, [filledPool], .empty⟩
        (.supplyMismatch defaultBondDenom _ _) := .supply closed_loneStaking
      (fun c hc => denoms c ((List.mem_append.1 hc).resolve_right fun h => (nomatch h)))
      (fun denom => (filledPool.coins.amountOf denom).toNat_lt)
      (by
        unfold BankState.Differs
        rw [sum_filledPool, none, if_pos rfl]
        decide)
      fun other hlt => by
        have hne : defaultBondDenom ≠ other := fun heq => String.lt_irrefl other (heq ▸ hlt)
        unfold BankState.Differs
        rw [sum_filledPool, none, if_neg hne]
        exact fun h => h rfl
    rw [sum_filledPool] at fault
    exact .states staking bank fault

end GenesisDocument

end TestChain
