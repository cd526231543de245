import TestChain.Proofs.Genesis.Building

/-!
# When a document is built

The builder tests its configuration, adds all balances up, adds what is bonded and has the document
validated. Where no state is replaced and no further balance is the pool's, that comes to one
condition (`GenesisConfig.Possible`): the denominations are ones, something is bonded, and
everything there is to be of a denomination fits in a word. A document is built exactly then, and it
says what the configuration says (`GenesisConfig.build_exact`).
-/

namespace TestChain

namespace GenesisConfig

variable {c : GenesisConfig} {funded : AccountAddress}

/-! ## What there is to be -/

/-- Everything there is to be of a denomination: the further balances and, of the denomination that
is bonded, what the funded account and the validator have. -/
def supplyOf (c : GenesisConfig) (denom : String) : Nat :=
  Balance.sum denom c.extraBalances +
    if c.bondDenom = denom then c.fundedBalance.toNat + c.bondAmount.toNat else 0

/-- The balances before that of the pool have what is not bonded. -/
theorem sum_balances (c : GenesisConfig) (funded : AccountAddress) (denom : String) :
    Balance.sum denom (c.balances funded) =
      Balance.sum denom c.extraBalances +
        if c.bondDenom = denom then c.fundedBalance.toNat else 0 := by
  have cons (b : Balance) (bs : List Balance) : Balance.sum denom (b :: bs) =
      (b.coins.amountOf denom).toNat + Balance.sum denom bs := by
    simp only [Balance.sum, List.map_cons, List.sum_cons]
  unfold balances
  split
  · rename_i hzero
    rw [hzero, UInt64.toNat_zero, ite_self, Nat.add_zero]
  · rw [cons, Coins.amountOf_single, Nat.add_comm]
    split
    · rfl
    · rfl

/-- With what is bonded, they have everything. -/
theorem sum_balances_add (c : GenesisConfig) (funded : AccountAddress) (denom : String) :
    Balance.sum denom (c.balances funded) +
        (if c.bondDenom = denom then c.bondAmount.toNat else 0) = c.supplyOf denom := by
  rw [sum_balances, supplyOf]
  split
  · rw [Nat.add_assoc]
  · rfl

/-- With the balance of the pool, they have everything. -/
theorem sum_listed (c : GenesisConfig) (funded : AccountAddress) (denom : String) :
    Balance.sum denom (c.balances funded ++ [c.poolBalance]) = c.supplyOf denom := by
  have pool : Balance.sum denom [c.poolBalance] =
      if c.bondDenom = denom then c.bondAmount.toNat else 0 := by
    show ((Coins.single _ _).amountOf denom).toNat + 0 = _
    rw [Coins.amountOf_single]
    split
    · rfl
    · rfl
  rw [Balance.sum_append, pool, sum_balances_add]

/-- What is needed to build a document, in natural numbers. -/
structure Possible (c : GenesisConfig) : Prop where
  /-- The bonded denomination is one. -/
  bondDenom : isDenom c.bondDenom
  /-- The denominations of the further balances are ones. -/
  denoms : ∀ b ∈ c.extraBalances, ∀ coin ∈ b.coins.toList, isDenom coin.denom
  /-- Something is bonded. -/
  bondAmount : 0 < c.bondAmount.toNat
  /-- Everything there is to be of a denomination fits in a word. -/
  fits : ∀ denom, c.supplyOf denom < UInt64.size

/-! ## What the builder tests -/

/-- A configuration is tested for its denomination and for what it bonds. -/
theorem check_ok_iff : c.check = .ok () ↔ isDenom c.bondDenom ∧ c.bondAmount ≠ 0 := by
  have denom : (checkDenom c.bondDenom).mapError GenesisError.invalidDenom = .ok () ↔
      isDenom c.bondDenom := mapError_ok_iff.trans except_test_ok_iff
  unfold check
  rw [except_bind_ok_iff]
  constructor
  · rintro ⟨_, hdenom, hamount⟩
    refine ⟨denom.1 hdenom, fun hzero => ?_⟩
    rw [if_pos hzero] at hamount
    cases hamount
  · rintro ⟨hdenom, hamount⟩
    refine ⟨_, denom.2 hdenom, ?_⟩
    rw [if_neg hamount]
    rfl

/-- The state of the bank is only made if everything of a denomination fits in a word. -/
theorem bankState?_eq_some (hsorted : ∀ b ∈ c.extraBalances, b.coins.Sorted) {bank : BankState}
    (h : c.bankState? .fresh funded 1 = some bank) :
    bank.balances = c.balances funded ++ [c.poolBalance] ∧
      ∀ denom, c.supplyOf denom < UInt64.size := by
  have sorted : ∀ b ∈ c.balances funded, b.coins.Sorted := by
    intro b hb
    rcases c.mem_balances hb with rfl | hb
    · exact Coins.sorted_single _ _
    · exact hsorted b hb
  unfold bankState? at h
  obtain ⟨total, htotal, h⟩ := Option.bind_eq_some_iff.1 h
  obtain ⟨bonded, hbonded, h⟩ := Option.bind_eq_some_iff.1 h
  obtain ⟨supply, hsupply, h⟩ := Option.bind_eq_some_iff.1 h
  obtain rfl : c.bondAmount = bonded := Option.some.inj ((Word.mul?_one _).symm.trans hbonded)
  cases h
  refine ⟨rfl, fun denom => ?_⟩
  have amounts := ((BankState.sumBalances?_eq_some sorted).1 total htotal).2 denom
  rw [BankState.addCoin?_eq] at hsupply
  split at hsupply
  · rename_i hfit
    rw [← sum_balances_add c funded denom]
    dsimp only at amounts
    rw [← amounts]
    split
    · rename_i heq
      rw [← heq]
      exact hfit
    · exact UInt64.toNat_lt _
  · cases hsupply

/-- What the builder does once it has drawn a key and an account: whatever they were drawn from. -/
def buildFor (c : GenesisConfig) (defaults : GenesisDocument) (key : ValidatorKey)
    (funded : AccountAddress) : Except GenesisError (GenesisDocument × ValidatorKey) := do
  c.check
  let d ← c.assemble defaults key funded
  let _ ← d.validate
  return (d, key)

/-- The builder does it with what it draws. -/
theorem fst_build (c : GenesisConfig) (defaults : GenesisDocument) (g : Generator) :
    (c.build defaults g).1 = c.buildFor defaults (drawnKey g) (drawnAddress g) := by
  unfold build buildFor
  cases c.check with
  | error e => rfl
  | ok _ => rfl

/-- A document is given out exactly if nothing is refused. -/
theorem buildFor_ok_iff {defaults d : GenesisDocument} {key k : ValidatorKey} :
    c.buildFor defaults key funded = .ok (d, k) ↔
      c.check = .ok () ∧ c.assemble defaults key funded = .ok d ∧
        (∃ hash, d.validate = .ok hash) ∧ key = k := by
  unfold buildFor
  rw [except_bind_ok_iff]
  constructor
  · rintro ⟨_, hcheck, h⟩
    obtain ⟨d', hmade, h⟩ := except_bind_ok_iff.1 h
    obtain ⟨hash, hvalid, h⟩ := except_bind_ok_iff.1 h
    cases h
    exact ⟨hcheck, hmade, ⟨hash, hvalid⟩, rfl⟩
  · rintro ⟨hcheck, hmade, ⟨hash, hvalid⟩, rfl⟩
    refine ⟨_, hcheck, ?_⟩
    rw [except_bind_of_ok hmade, except_bind_of_ok hvalid]
    rfl

/-- A document is only built where it is possible to. -/
theorem possible_of_buildFor {d : GenesisDocument} {key k : ValidatorKey}
    (overrides : c.moduleOverrides = []) (sorted : ∀ b ∈ c.extraBalances, b.coins.Sorted)
    (h : c.buildFor .defaults key funded = .ok (d, k)) : c.Possible := by
  obtain ⟨hcheck, hmade, ⟨hash, hvalid⟩, -⟩ := buildFor_ok_iff.1 h
  obtain ⟨hdenom, hamount⟩ := check_ok_iff.1 hcheck
  rw [assemble_defaults, overrides] at hmade
  cases hbank : c.bankState? .fresh funded 1 with
  | none =>
    rw [hbank] at hmade
    cases hmade
  | some bank =>
    rw [hbank] at hmade
    cases hmade
    obtain ⟨hbalances, hfits⟩ := bankState?_eq_some sorted hbank
    obtain ⟨_, bank', -, hget, -, -, hdenoms, -⟩ := GenesisDocument.validate_ok_iff.1 hvalid
    -- The balances whose denominations were tested are those of the configuration.
    have made := (c.get_document key funded bank).2.1
    obtain rfl : bank = bank' := Except.ok.inj (made.symm.trans hget)
    have tested := (BankState.checkDenoms_ok_iff.1 hdenoms).1
    rw [hbalances] at tested
    have listed : ∀ b ∈ c.extraBalances, b ∈ c.balances funded := by
      unfold balances
      split
      · exact fun _ hb => hb
      · exact fun _ hb => List.mem_cons_of_mem _ hb
    constructor
    · exact hdenom
    · intro b hb
      exact Coins.check_ok_iff.1 (tested b (List.mem_append_left _ (listed b hb)))
    · exact Nat.pos_of_ne_zero fun hzero => hamount (UInt64.toNat_inj.1 hzero)
    · exact hfits

/-- Where it is possible to, everything is there that a document is built from. -/
theorem Possible.buildable (h : c.Possible) (overrides : c.moduleOverrides = [])
    (sorted : ∀ b ∈ c.extraBalances, b.coins.Sorted)
    (pool : ∀ b ∈ c.extraBalances, b.address ≠ bondedPoolAddress)
    (hfunded : funded ≠ bondedPoolAddress) : c.Buildable funded := by
  constructor
  · refine check_ok_iff.2 ⟨h.bondDenom, fun hzero => ?_⟩
    have positive := h.bondAmount
    rw [hzero] at positive
    exact Nat.lt_irrefl 0 positive
  · exact overrides
  · exact sorted
  · exact fun b hb => Coins.check_ok_iff.2 (h.denoms b hb)
  · intro denom
    rw [sum_balances_add]
    exact h.fits denom
  · intro b hb
    rw [poolBalance_address]
    rcases c.mem_balances hb with rfl | hb
    · exact hfunded
    · exact pool b hb

/-! ## What the document says -/

/-- The accounts have the addresses, in order. -/
theorem map_address_numbered (addresses : List AccountAddress) :
    (numbered addresses).map Account.address = addresses := by
  unfold numbered
  rw [List.map_map]
  exact List.zipIdx_map_fst 0 addresses

/-- They are numbered from zero. -/
theorem map_number_numbered (addresses : List AccountAddress) :
    (numbered addresses).map Account.number =
      (List.range addresses.length).map UInt64.ofNat := by
  unfold numbered
  rw [List.map_map, List.range_eq_range', ← List.zipIdx_map_snd, List.map_map]
  rfl

/-- What a document says that was built for a funded account and the key of a validator. -/
structure Built (c : GenesisConfig) (funded : AccountAddress) (key : ValidatorKey)
    (d : GenesisDocument) : Prop where
  /-- It is valid. -/
  valid : d.validate = .ok d.stateHash
  /-- The supply of a denomination is everything there is to be of it. -/
  bank : ∃ bank, d.get bankModule BankState.codec = .ok bank ∧
    ∀ denom, (bank.supply.amountOf denom).toNat = c.supplyOf denom
  /-- The only validator is that of the key, takes part and has the bonded amount, and the funded
  account's is the only delegation. -/
  staking : ∃ staking v delegation, d.get stakingModule StakingState.codec = .ok staking ∧
    staking.params.bondDenom = c.bondDenom ∧ staking.validators = [v] ∧
    v.operatorAddress = key.operatorAddress ∧ v.status = .bonded ∧ v.jailed = false ∧
    v.tokens = c.bondAmount ∧ staking.delegations = [delegation] ∧
    delegation.delegator = funded ∧ delegation.validator = v.operatorAddress
  /-- The accounts are the funded one and those of the further balances, numbered from zero. -/
  auth : ∃ auth, d.get authModule AuthState.codec = .ok auth ∧
    auth.accounts.map Account.address = funded :: c.extraBalances.map Balance.address ∧
    auth.accounts.map Account.number =
      (List.range (c.extraBalances.length + 1)).map UInt64.ofNat
  /-- What is minted is of the bonded denomination. -/
  mint : ∃ mint, d.get mintModule MintState.codec = .ok mint ∧ mint.params.mintDenom = c.bondDenom

/-- The document with all balances says what the configuration says, if it is valid. -/
theorem built_document (key : ValidatorKey) {supply : Coins}
    (hvalid : (c.document key funded
      ⟨.fresh, c.balances funded ++ [c.poolBalance], supply⟩).validate = .ok (c.document key funded
        ⟨.fresh, c.balances funded ++ [c.poolBalance], supply⟩).stateHash)
    (hsum : ∀ denom, (supply.amountOf denom).toNat = c.supplyOf denom) :
    c.Built funded key
      (c.document key funded ⟨.fresh, c.balances funded ++ [c.poolBalance], supply⟩) := by
  obtain ⟨auth, bank, staking, mint⟩ := c.get_document key funded
    ⟨.fresh, c.balances funded ++ [c.poolBalance], supply⟩
  refine ⟨hvalid, ⟨_, bank, hsum⟩,
    ⟨_, _, _, staking, rfl, rfl, rfl, rfl, rfl, rfl, rfl, rfl, rfl⟩, ?_, ?_⟩
  · refine ⟨_, auth, map_address_numbered _, ?_⟩
    have length : (funded :: c.extraBalances.map Balance.address).length =
        c.extraBalances.length + 1 := by
      rw [List.length_cons, List.length_map]
    rw [← length]
    exact map_number_numbered _
  · refine ⟨_, mint, ?_⟩
    unfold mintState
    split
    · rfl
    · rfl

/-- Where it is possible to, a document is built, for all keys of the validator, and it says what
the configuration says. -/
theorem Possible.exists_built (h : c.Possible) (overrides : c.moduleOverrides = [])
    (sorted : ∀ b ∈ c.extraBalances, b.coins.Sorted)
    (pool : ∀ b ∈ c.extraBalances, b.address ≠ bondedPoolAddress)
    (hfunded : funded ≠ bondedPoolAddress) (key : ValidatorKey) :
    ∃ d, c.buildFor .defaults key funded = .ok (d, key) ∧ c.Built funded key d := by
  have buildable := h.buildable overrides sorted pool hfunded
  obtain ⟨supply, assembled, -, hvalid, hsum⟩ := buildable.exists_document key
  have amounts (denom : String) : (supply.amountOf denom).toNat = c.supplyOf denom :=
    (hsum denom).trans (c.sum_listed funded denom)
  exact ⟨_, buildFor_ok_iff.2 ⟨buildable.check, assembled, ⟨_, hvalid⟩, rfl⟩,
    built_document key hvalid amounts⟩

/-- From the defaults of an application, without states that are replaced and with no other balance
of the pool's, a document is built exactly where it is possible to, and it says what the
configuration says, whatever is drawn. -/
theorem build_exact (c : GenesisConfig) (overrides : c.moduleOverrides = [])
    (sorted : ∀ b ∈ c.extraBalances, b.coins.Sorted)
    (pool : ∀ b ∈ c.extraBalances, b.address ≠ bondedPoolAddress) :
    (∀ key funded, funded ≠ bondedPoolAddress →
      ((∃ d k, c.buildFor .defaults key funded = .ok (d, k)) ↔ c.Possible) ∧
        ∀ d k, c.buildFor .defaults key funded = .ok (d, k) → k = key ∧ c.Built funded k d) ∧
    ∀ g, (c.build .defaults g).1 = c.buildFor .defaults (drawnKey g) (drawnAddress g) := by
  refine ⟨fun key funded hfunded => ⟨⟨?_, ?_⟩, ?_⟩, c.fst_build .defaults⟩
  · rintro ⟨d, k, h⟩
    exact possible_of_buildFor overrides sorted h
  · intro possible
    obtain ⟨d, h, -⟩ := possible.exists_built overrides sorted pool hfunded key
    exact ⟨d, key, h⟩
  · intro d k h
    have possible := possible_of_buildFor overrides sorted h
    obtain ⟨d', h', built⟩ := possible.exists_built overrides sorted pool hfunded key
    cases h.symm.trans h'
    exact ⟨rfl, built⟩

/-- A configuration in which the funded account has an amount and another address two coins. -/
def paying (amount : UInt64) : GenesisConfig :=
  { fresh with
    fundedBalance := amount
    extraBalances := [⟨⟨Vector.replicate 20 17⟩, ⟨[⟨"uatom", 7⟩, ⟨defaultBondDenom, 7⟩]⟩⟩] }

/-- The address that is drawn for the funded account from a seed is not the pool's. -/
theorem drawnAddress_ne_pool : drawnAddress (.ofSeed 1) ≠ bondedPoolAddress := by
  rw [bondedPoolAddress_eq]
  decide +kernel

/-- It is possible to build a document exactly if the amount leaves room for the other coins of its
denomination. -/
theorem possible_paying_iff (amount : UInt64) :
    (paying amount).Possible ↔ amount.toNat + 1000007 < UInt64.size := by
  have supply (denom : String) : (paying amount).supplyOf denom =
      ((⟨[⟨"uatom", 7⟩, ⟨defaultBondDenom, 7⟩]⟩ : Coins).amountOf denom).toNat +
        if defaultBondDenom = denom then amount.toNat + 1000000 else 0 := rfl
  have bonded : ((⟨[⟨"uatom", 7⟩, ⟨defaultBondDenom, 7⟩]⟩ : Coins).amountOf
      defaultBondDenom).toNat = 7 := by decide
  constructor
  · intro h
    have fits := h.fits defaultBondDenom
    rw [supply, if_pos rfl, bonded, Nat.add_left_comm] at fits
    exact fits
  · intro hfits
    refine ⟨?_, fun b hb => ?_, ?_, fun denom => ?_⟩
    · show isDenom defaultBondDenom = true
      decide
    · rw [List.mem_singleton.1 hb]
      decide
    · show 0 < Validator.powerReduction.toNat
      decide
    · rw [supply]
      split
      · rename_i heq
        rw [← heq, bonded, Nat.add_left_comm]
        exact hfits
      · exact UInt64.toNat_lt _

/-- A document is built if the amount is small, and none if it is the largest. -/
theorem exists_built_paying :
    (∃ d key, ((paying 5).build .defaults (.ofSeed 1)).1 = .ok (d, key) ∧
      (paying 5).Built (drawnAddress (.ofSeed 1)) key d) ∧
    ¬∃ d key, ((paying Word.max).build .defaults (.ofSeed 1)).1 = .ok (d, key) := by
  have sorted (amount : UInt64) : ∀ b ∈ (paying amount).extraBalances, b.coins.Sorted := by
    intro b hb
    rw [List.mem_singleton.1 hb]
    unfold Coins.Sorted
    decide
  have pool (amount : UInt64) : ∀ b ∈ (paying amount).extraBalances,
      b.address ≠ bondedPoolAddress := by
    intro b hb
    rw [List.mem_singleton.1 hb, bondedPoolAddress_eq]
    decide
  have exact (amount : UInt64) :=
    build_exact (paying amount) rfl (sorted amount) (pool amount)
  have drawn (amount : UInt64) := (exact amount).1 (drawnKey (.ofSeed 1)) _ drawnAddress_ne_pool
  rw [(exact 5).2, (exact Word.max).2]
  constructor
  · obtain ⟨d, key, h⟩ := (drawn 5).1.2 ((possible_paying_iff 5).2 (by decide))
    exact ⟨d, key, h, ((drawn 5).2 d key h).2⟩
  · rw [(drawn Word.max).1, possible_paying_iff]
    decide

end GenesisConfig

end TestChain
