import TestChain.Genesis.Builder
import TestChain.Proofs.App.Opened
import TestChain.Proofs.Codec.States

/-!
# What the builder makes

From the defaults of an application the builder makes a document whose states are known
(`GenesisConfig.assemble_defaults`). Where the denominations are valid, the sums fit and no further
balance is the pool's (`GenesisConfig.Buildable`), the document is valid
(`GenesisConfig.Buildable.validate`) and is read back from its text with the states that it was made
with.
-/

namespace TestChain

/-! ## The defaults -/

namespace GenesisDocument

/-- The defaults have the fresh state of every module. -/
theorem get_defaults :
    defaults.get authModule AuthState.codec = .ok .fresh ∧
      defaults.get bankModule BankState.codec = .ok .fresh ∧
      defaults.get stakingModule StakingState.codec = .ok .fresh ∧
      defaults.get slashingModule SlashingState.codec = .ok .fresh ∧
      defaults.get mintModule MintState.codec = .ok .fresh ∧
      defaults.get distributionModule DistributionState.codec = .ok .fresh ∧
      defaults.get wasmModule WasmState.codec = .ok .fresh := by
  -- Each state is found under the states that were inserted after it, which have other names.
  unfold defaults
  refine ⟨?_, ?_, ?_, ?_, ?_, ?_, ?_⟩
  · repeat rw [get_insert_of_ne (by decide)]
    exact get_insert (AuthState.faithful_codec _) _ _
  · repeat rw [get_insert_of_ne (by decide)]
    exact get_insert (BankState.faithful_codec _) _ _
  · repeat rw [get_insert_of_ne (by decide)]
    exact get_insert (StakingState.faithful_codec _) _ _
  · repeat rw [get_insert_of_ne (by decide)]
    exact get_insert (SlashingState.faithful_codec _) _ _
  · repeat rw [get_insert_of_ne (by decide)]
    exact get_insert (MintState.faithful_codec _) _ _
  · repeat rw [get_insert_of_ne (by decide)]
    exact get_insert (DistributionState.faithful_codec _) _ _
  · repeat rw [get_insert_of_ne (by decide)]
    exact get_insert (WasmState.faithful_codec _) _ _

/-- The defaults can be written and read back. -/
theorem tidy_defaults : defaults.Tidy := by
  have empty : GenesisDocument.empty.Tidy := fun _ h => (nomatch h)
  unfold defaults
  exact empty.insert (AuthState.faithful_codec _) (by decide) _
    |>.insert (BankState.faithful_codec _) (by decide) _
    |>.insert (StakingState.faithful_codec _) (by decide) _
    |>.insert (SlashingState.faithful_codec _) (by decide) _
    |>.insert (MintState.faithful_codec _) (by decide) _
    |>.insert (DistributionState.faithful_codec _) (by decide) _
    |>.insert (WasmState.faithful_codec _) (by decide) _
    |>.insert (RewardsState.faithful_codec _) (by decide) _

end GenesisDocument

namespace GenesisConfig

/-! ## The document -/

variable (c : GenesisConfig) (key : ValidatorKey) (funded : AccountAddress)

/-- The document with a state of the bank, before states of modules are replaced. -/
def document (bank : BankState) : GenesisDocument :=
  let d := GenesisDocument.defaults
    |>.insert authModule AuthState.codec (c.authState .fresh funded)
    |>.insert stakingModule StakingState.codec (c.stakingState .fresh key funded)
    |>.insert mintModule MintState.codec (c.mintState .fresh)
  let d :=
    if c.isTuned then d.insert distributionModule DistributionState.codec (distributionState .fresh)
    else d
  d |>.insert wasmModule WasmState.codec { WasmState.fresh with params := .permissionless }
    |>.insert bankModule BankState.codec bank

/-- The builder makes the document, unless the sums do not fit. -/
theorem assemble_defaults :
    c.assemble .defaults key funded =
      match c.bankState? .fresh funded 1 with
      | none => .error .balanceOverflow
      | some bank =>
        .ok (c.moduleOverrides.foldl (fun d m => d.insertRaw m.1 m.2)
          (c.document key funded bank)) := by
  obtain ⟨auth, bank, staking, -, mint, distribution, wasm⟩ := GenesisDocument.get_defaults
  have skip {α β : Type} {d : GenesisDocument} {name other : String} {e : Codec β} {x : Codec α}
      {a : α} {b : β} (h : d.get other e = .ok b) (hne : other ≠ name) :
      (d.insert name x a).get other e = .ok b :=
    (GenesisDocument.get_insert_of_ne hne _ _ _ _).trans h
  have found {α β : Type} {d : GenesisDocument} {name : String} {e : Codec β} {b b' : β}
      (h : d.get name e = .ok b) (f : β → Except GenesisError α) :
      (d.getD name e b' >>= f) = f b :=
    except_bind_of_ok (GenesisDocument.getD_of_get h b') f
  unfold assemble document
  rw [found auth, found (skip staking (by decide))]
  rw [found (skip (skip mint (by decide)) (by decide))]
  dsimp only
  -- With the parameters of the application one state less is put in.
  cases c.isTuned with
  | true =>
    rw [if_pos rfl, if_pos rfl,
      found (skip (skip (skip distribution (by decide)) (by decide)) (by decide)), pure_bind,
      found (skip (skip (skip (skip wasm (by decide)) (by decide)) (by decide)) (by decide)),
      found (skip (skip (skip (skip (skip bank (by decide)) (by decide)) (by decide)) (by decide))
        (by decide))]
    rfl
  | false =>
    rw [if_neg Bool.false_ne_true, if_neg Bool.false_ne_true, pure_bind,
      found (skip (skip (skip wasm (by decide)) (by decide)) (by decide)),
      found (skip (skip (skip (skip bank (by decide)) (by decide)) (by decide)) (by decide))]
    rfl

/-- The last states that are put in the document leave those of other modules. -/
theorem get_document_of_ne {α : Type} {name : String} (hbank : name ≠ bankModule)
    (hwasm : name ≠ wasmModule) (hdistribution : name ≠ distributionModule) (bank : BankState)
    (e : Codec α) :
    (c.document key funded bank).get name e =
      (GenesisDocument.defaults
        |>.insert authModule AuthState.codec (c.authState .fresh funded)
        |>.insert stakingModule StakingState.codec (c.stakingState .fresh key funded)
        |>.insert mintModule MintState.codec (c.mintState .fresh)).get name e := by
  unfold document
  dsimp only
  rw [GenesisDocument.get_insert_of_ne hbank, GenesisDocument.get_insert_of_ne hwasm]
  split
  · exact GenesisDocument.get_insert_of_ne hdistribution _ _ _ _
  · rfl

/-- The document has the states that it was made with. -/
theorem get_document (bank : BankState) :
    (c.document key funded bank).get authModule AuthState.codec =
        .ok (c.authState .fresh funded) ∧
      (c.document key funded bank).get bankModule BankState.codec = .ok bank ∧
      (c.document key funded bank).get stakingModule StakingState.codec =
        .ok (c.stakingState .fresh key funded) ∧
      (c.document key funded bank).get mintModule MintState.codec =
        .ok (c.mintState .fresh) := by
  refine ⟨?_, GenesisDocument.get_insert (BankState.faithful_codec _) _ _, ?_, ?_⟩
  · rw [get_document_of_ne c key funded (by decide) (by decide) (by decide)]
    repeat rw [GenesisDocument.get_insert_of_ne (by decide)]
    exact GenesisDocument.get_insert (AuthState.faithful_codec _) _ _
  · rw [get_document_of_ne c key funded (by decide) (by decide) (by decide)]
    repeat rw [GenesisDocument.get_insert_of_ne (by decide)]
    exact GenesisDocument.get_insert (StakingState.faithful_codec _) _ _
  · rw [get_document_of_ne c key funded (by decide) (by decide) (by decide)]
    exact GenesisDocument.get_insert (MintState.faithful_codec _) _ _

/-- The ledger begins with these states. -/
theorem ofDocument_document (bank : BankState) :
    Ledger.Opening.ofDocument (c.document key funded bank) =
      .ok ⟨c.authState .fresh funded, bank, c.stakingState .fresh key funded, .fresh⟩ := by
  obtain ⟨auth, bank', staking, -⟩ := c.get_document key funded bank
  have slashing : (c.document key funded bank).get slashingModule SlashingState.codec =
      .ok .fresh := by
    rw [get_document_of_ne c key funded (by decide) (by decide) (by decide)]
    repeat rw [GenesisDocument.get_insert_of_ne (by decide)]
    exact GenesisDocument.get_defaults.2.2.2.1
  unfold Ledger.Opening.ofDocument
  rw [auth, bank', staking, GenesisDocument.getD_of_get slashing]
  rfl

/-- The document can be written and read back. -/
theorem tidy_document (bank : BankState) : (c.document key funded bank).Tidy := by
  have first := GenesisDocument.tidy_defaults
    |>.insert (AuthState.faithful_codec (c.authState .fresh funded)) (by decide) authModule
    |>.insert (StakingState.faithful_codec (c.stakingState .fresh key funded)) (by decide)
      stakingModule
    |>.insert (MintState.faithful_codec (c.mintState .fresh)) (by decide) mintModule
  have second : ∀ {d : GenesisDocument}, d.Tidy →
      ((d.insert wasmModule WasmState.codec { WasmState.fresh with params := .permissionless })
        |>.insert bankModule BankState.codec bank).Tidy := fun h =>
    h.insert (WasmState.faithful_codec _) (by decide) _
      |>.insert (BankState.faithful_codec _) (by decide) _
  unfold document
  cases c.isTuned with
  | false => exact second first
  | true => exact second (first.insert (DistributionState.faithful_codec _) (by decide) _)

/-! ## Where a document can be built -/

/-- The address of the pool of bonded tokens. -/
theorem bondedPoolAddress_eq : bondedPoolAddress =
    ⟨#v[186, 253, 218, 175, 127, 83, 155, 17, 105, 242, 87, 132, 163, 193, 245, 193, 173, 141, 81,
      142]⟩ := by
  decide +kernel

/-- The balance of the pool of bonded tokens. -/
def poolBalance : Balance :=
  ⟨bondedPoolAddress, .single c.bondAmount c.bondDenom⟩

/-- It is the pool's. -/
theorem poolBalance_address : c.poolBalance.address = bondedPoolAddress := by
  unfold poolBalance
  rfl

variable {funded} in
/-- A balance before that of the pool is the funded account's or one of the further ones. -/
theorem mem_balances {b : Balance} (h : b ∈ c.balances funded) :
    b = ⟨funded, .single c.fundedBalance c.bondDenom⟩ ∨ b ∈ c.extraBalances := by
  unfold balances at h
  split at h
  · exact .inr h
  · exact List.mem_cons.1 h

/-- The supply is the sum of the balances, with what is bonded added to it. -/
theorem bankState?_of_sum {total supply : Coins}
    (htotal : (⟨.fresh, c.balances funded, .empty⟩ : BankState).sumBalances? = some total)
    (hadded : BankState.addCoin? total ⟨c.bondDenom, c.bondAmount⟩ = some supply) :
    c.bankState? .fresh funded 1 =
      some ⟨.fresh, c.balances funded ++ [c.poolBalance], supply⟩ := by
  unfold bankState?
  show ((⟨.fresh, c.balances funded, .empty⟩ : BankState).sumBalances? >>= _) = _
  rw [htotal]
  show (Word.mul? c.bondAmount (UInt64.ofNat 1) >>= _) = _
  rw [Word.mul?_one]
  show (BankState.addCoin? total ⟨c.bondDenom, c.bondAmount⟩ >>= _) = _
  rw [hadded]
  rfl

/-- A state of staking fits the configuration: the pool is credited with what its validators have
bonded. -/
structure Staked (staking : StakingState) : Prop where
  /-- There is a validator. -/
  validators : staking.validators ≠ []
  /-- Delegations are to validators. -/
  delegations : staking.checkDelegations = .ok ()
  /-- The bonded denomination is that of the configuration. -/
  denom : staking.params.bondDenom = c.bondDenom
  /-- The validators have bonded its amount. -/
  bonded : Validator.bonded staking.validators = c.bondAmount.toNat

/-- The state of staking that the builder makes fits. -/
theorem staked_stakingState : c.Staked (c.stakingState .fresh key funded) where
  validators := List.cons_ne_nil _ _
  delegations := StakingState.checkDelegations_ok_iff.2 fun d hd => by
    rw [List.mem_singleton.1 hd]
    exact ⟨_, List.mem_cons_self, rfl⟩
  denom := rfl
  bonded := Nat.add_zero _

/-- What a document can be built from, for a funded account. -/
structure Buildable : Prop where
  /-- The bonded denomination is one, and an amount of it is bonded. -/
  check : c.check = .ok ()
  /-- No state is replaced. -/
  overrides : c.moduleOverrides = []
  /-- The further balances are in order. -/
  sorted : ∀ b ∈ c.extraBalances, b.coins.Sorted
  /-- Their denominations are ones. -/
  denoms : ∀ b ∈ c.extraBalances, b.coins.check = .ok ()
  /-- Nothing has more than fits in a word, with what is bonded. -/
  fits : ∀ denom, Balance.sum denom (c.balances funded) +
    (if c.bondDenom = denom then c.bondAmount.toNat else 0) < UInt64.size
  /-- The pool has no other balance. -/
  pool : ∀ b ∈ c.balances funded, b.address ≠ c.poolBalance.address

namespace Buildable

variable {c funded}

/-- The bonded denomination is one. -/
theorem checkDenom (h : c.Buildable funded) : TestChain.checkDenom c.bondDenom = .ok () := by
  have check := h.check
  unfold GenesisConfig.check at check
  obtain ⟨u, hdenom, -⟩ := except_bind_ok_iff.1 check
  exact mapError_ok_iff.1 hdenom

/-- All balances are in order. -/
theorem sorted_balances (h : c.Buildable funded) : ∀ b ∈ c.balances funded, b.coins.Sorted := by
  intro b hb
  rcases c.mem_balances hb with rfl | hb
  · exact Coins.sorted_single _ _
  · exact h.sorted b hb

/-- All balances are in order, with that of the pool. -/
theorem sorted_listed (h : c.Buildable funded) :
    ∀ b ∈ c.balances funded ++ [c.poolBalance], b.coins.Sorted := by
  intro b hb
  rcases List.mem_append.1 hb with hb | hb
  · exact h.sorted_balances b hb
  · rw [List.mem_singleton.1 hb]
    exact Coins.sorted_single _ _

/-- The denominations of all balances are ones. -/
theorem denoms_balances (h : c.Buildable funded) :
    ∀ b ∈ c.balances funded, b.coins.check = .ok () := by
  intro b hb
  rcases c.mem_balances hb with rfl | hb
  · exact Coins.check_single h.checkDenom _
  · exact h.denoms b hb

/-- The supply is made up of all balances, is in order and has valid denominations. -/
theorem exists_supply (h : c.Buildable funded) :
    ∃ supply : Coins, c.bankState? .fresh funded 1 =
        some ⟨.fresh, c.balances funded ++ [c.poolBalance], supply⟩ ∧
      supply.Sorted ∧ supply.check = .ok () ∧
      ∀ denom, (supply.amountOf denom).toNat =
        Balance.sum denom (c.balances funded ++ [c.poolBalance]) := by
  -- The supply begins with the balances before that of the pool.
  obtain ⟨hamounts, hfits⟩ := BankState.sumBalances?_eq_some
    (s := ⟨.fresh, c.balances funded, .empty⟩) h.sorted_balances
  obtain ⟨total, htotal⟩ := hfits fun denom =>
    Nat.lt_of_le_of_lt (Nat.le_add_right _ _) (h.fits denom)
  obtain ⟨sorted, amounts⟩ := hamounts total htotal
  have fits (denom : String) : (total.amountOf denom).toNat +
      Coins.total denom [⟨c.bondDenom, c.bondAmount⟩] < UInt64.size := by
    rw [amounts denom]
    exact h.fits denom
  have pool (denom : String) : Balance.sum denom [c.poolBalance] =
      Coins.total denom [⟨c.bondDenom, c.bondAmount⟩] :=
    congrArg (· + 0) (Coins.total_eq (Coins.sorted_single c.bondAmount c.bondDenom) denom).symm
  have added := (Coins.foldlM_addCoin?_eq_some_iff sorted).2 ⟨fits, rfl⟩
  rw [List.foldlM_cons] at added
  simp only [List.foldlM_nil, bind_pure] at added
  refine ⟨_, bankState?_of_sum c funded htotal added, sorted.add _, ?_, fun denom => ?_⟩
  · exact Coins.check_add sorted (BankState.check_sumBalances? h.denoms_balances htotal)
      (Coins.check_single h.checkDenom _)
  · have sum := amounts denom
    have fit := fits denom
    rw [Coins.toNat_amountOf_add sorted, Balance.sum_append, pool]
    dsimp only at sum ⊢
    omega

/-- A document with such a supply and a state of staking that fits the configuration is valid. -/
theorem validate (h : c.Buildable funded) {d : GenesisDocument} {staking : StakingState}
    {supply : Coins} (staked : c.Staked staking)
    (hstaking : d.get stakingModule StakingState.codec = .ok staking)
    (hbank : d.get bankModule BankState.codec =
      .ok ⟨.fresh, c.balances funded ++ [c.poolBalance], supply⟩)
    (hcheck : supply.check = .ok ())
    (hsum : ∀ denom, (supply.amountOf denom).toNat =
      Balance.sum denom (c.balances funded ++ [c.poolBalance])) :
    d.validate = .ok d.stateHash := by
  refine GenesisDocument.validate_ok_iff.2
    ⟨_, _, hstaking, hbank, staked.validators, staked.delegations, ?_, ?_, ?_, rfl⟩
  · refine BankState.checkDenoms_ok_iff.2 ⟨fun b hb => ?_, hcheck⟩
    rcases List.mem_append.1 hb with hb | hb
    · exact h.denoms_balances b hb
    · rw [List.mem_singleton.1 hb]
      exact Coins.check_single h.checkDenom _
  · exact (BankState.checkSupply_ok_iff h.sorted_listed).2 fun denom => (hsum denom).symm
  · have first := BankState.balanceOf?_of_append
      (s := ⟨.fresh, c.balances funded ++ [c.poolBalance], supply⟩) (b := c.poolBalance) rfl h.pool
    refine BankState.checkBondedPool_ok_iff.2 ?_
    rw [staked.bonded, staked.denom, ← poolBalance_address c, first]
    unfold poolBalance
    rw [Option.getD_some, Coins.amountOf_single, if_pos rfl]

/-- Where a document can be built, it is made for all keys of the validator and is valid, with the
sums of all balances as its supply. -/
theorem exists_document (h : c.Buildable funded) (key : ValidatorKey) :
    ∃ supply : Coins,
      let d := c.document key funded ⟨.fresh, c.balances funded ++ [c.poolBalance], supply⟩
      c.assemble .defaults key funded = .ok d ∧ supply.Sorted ∧ d.validate = .ok d.stateHash ∧
        ∀ denom, (supply.amountOf denom).toNat =
          Balance.sum denom (c.balances funded ++ [c.poolBalance]) := by
  obtain ⟨supply, hbank, sorted, hcheck, hsum⟩ := h.exists_supply
  obtain ⟨-, bank, staking, -⟩ := c.get_document key funded
    ⟨.fresh, c.balances funded ++ [c.poolBalance], supply⟩
  refine ⟨supply, ?_, sorted, h.validate (c.staked_stakingState _ _) staking bank hcheck hsum, hsum⟩
  rw [assemble_defaults, hbank, h.overrides]
  rfl

end Buildable

/-- The key that the builder draws for the validator. -/
def drawnKey (g : Generator) : ValidatorKey :=
  (ValidatorKey.generate g).1

/-- The address that the builder draws for the funded account. -/
def drawnAddress (g : Generator) : AccountAddress :=
  (PrivateKey.generate (ValidatorKey.generate g).2).1.publicKey.accountAddress

variable {c}

/-- A configuration that is not refused builds a document that can be made and is valid. -/
theorem build_of_assemble {defaults d : GenesisDocument} {g : Generator} {hash : Hash}
    (hcheck : c.check = .ok ())
    (hmade : c.assemble defaults (drawnKey g) (drawnAddress g) = .ok d)
    (hvalid : d.validate = .ok hash) :
    c.build defaults g =
      (.ok (d, drawnKey g), (PrivateKey.generate (ValidatorKey.generate g).2).2) := by
  unfold build
  rw [hcheck]
  refine Prod.ext ?_ rfl
  show (c.assemble defaults (drawnKey g) (drawnAddress g) >>= _) = _
  rw [except_bind_of_ok hmade, except_bind_of_ok hvalid]
  rfl

/-- Where a document can be built, the builder makes it, and it is accepted as it is written. -/
theorem Buildable.build {g : Generator} (h : c.Buildable (drawnAddress g)) :
    ∃ supply g' hash, supply.Sorted ∧ c.build .defaults g =
        (.ok (c.document (drawnKey g) (drawnAddress g)
          ⟨.fresh, c.balances (drawnAddress g) ++ [c.poolBalance], supply⟩, drawnKey g), g') ∧
      (c.document (drawnKey g) (drawnAddress g)
        ⟨.fresh, c.balances (drawnAddress g) ++ [c.poolBalance], supply⟩).validate = .ok hash := by
  obtain ⟨supply, made, sorted, hvalid, -⟩ := h.exists_document (drawnKey g)
  exact ⟨supply, _, _, sorted, build_of_assemble h.check made hvalid, hvalid⟩

/-! ## Another state of staking -/

/-- The configuration with a state that replaces that of the staking module. -/
def restaked (c : GenesisConfig) (staking : StakingState) : GenesisConfig :=
  { c with moduleOverrides := [(stakingModule, StakingState.codec.toJson staking)] }

/-- The ledger begins with a state of staking that is put into its document. -/
theorem ofDocument_insert_staking {d : GenesisDocument} {o : Ledger.Opening}
    (ho : Ledger.Opening.ofDocument d = .ok o) (staking : StakingState) :
    Ledger.Opening.ofDocument (d.insert stakingModule StakingState.codec staking) =
      .ok { o with staking := staking } := by
  unfold Ledger.Opening.ofDocument at ho ⊢
  obtain ⟨auth, hauth, ho⟩ := except_bind_ok_iff.1 ho
  obtain ⟨bank, hbank, ho⟩ := except_bind_ok_iff.1 ho
  obtain ⟨other, -, ho⟩ := except_bind_ok_iff.1 ho
  obtain ⟨slashing, hslashing, ho⟩ := except_bind_ok_iff.1 ho
  cases ho
  have kept : (d.insert stakingModule StakingState.codec staking).getRaw? slashingModule =
      d.getRaw? slashingModule := by
    unfold GenesisDocument.insert
    rw [GenesisDocument.getRaw?_insertRaw, if_neg (by decide)]
  unfold GenesisDocument.getD at hslashing ⊢
  rw [GenesisDocument.get_insert_of_ne (by decide), hauth,
    GenesisDocument.get_insert_of_ne (by decide), hbank,
    GenesisDocument.get_insert (StakingState.faithful_codec staking), kept]
  dsimp only [bind, Except.bind]
  rw [hslashing]
  rfl

/-- Where a document can be built, it can be built with any state of staking that fits. -/
theorem Buildable.build_restaked {g : Generator} (h : c.Buildable (drawnAddress g))
    {staking : StakingState} (staked : c.Staked staking) :
    ∃ supply g' hash,
      let d := (c.document (drawnKey g) (drawnAddress g)
        ⟨.fresh, c.balances (drawnAddress g) ++ [c.poolBalance], supply⟩).insert stakingModule
          StakingState.codec staking
      (c.restaked staking).build .defaults g = (.ok (d, drawnKey g), g') ∧
        d.validate = .ok hash := by
  obtain ⟨supply, hbank, -, hcheck, hsum⟩ := h.exists_supply
  let d := c.document (drawnKey g) (drawnAddress g)
    ⟨.fresh, c.balances (drawnAddress g) ++ [c.poolBalance], supply⟩
  have bank : (d.insert stakingModule StakingState.codec staking).get bankModule BankState.codec =
      .ok ⟨.fresh, c.balances (drawnAddress g) ++ [c.poolBalance], supply⟩ := by
    rw [GenesisDocument.get_insert_of_ne (by decide)]
    exact (c.get_document (drawnKey g) (drawnAddress g) _).2.1
  have hvalid := h.validate staked
    (GenesisDocument.get_insert (StakingState.faithful_codec staking) d stakingModule) bank hcheck
    hsum
  -- Neither the check nor the states depend on what replaces them in the end.
  have made : (c.restaked staking).assemble .defaults (drawnKey g) (drawnAddress g) =
      .ok (d.insert stakingModule StakingState.codec staking) := by
    have supplied : (c.restaked staking).bankState? .fresh (drawnAddress g) 1 =
        some ⟨.fresh, c.balances (drawnAddress g) ++ [c.poolBalance], supply⟩ := hbank
    rw [assemble_defaults, supplied]
    rfl
  exact ⟨supply, _, _, build_of_assemble (c := c.restaked staking) h.check made hvalid, hvalid⟩

end GenesisConfig

end TestChain
