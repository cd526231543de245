import TestChain.Genesis.Defaults

/-!
# Validation of genesis documents

`GenesisDocument.validate` accepts a document in which the validators exist that delegations name,
the denominations are valid, the supply is the sum of the balances and the pool of bonded tokens
holds what the validators have bonded. The answer is the document's state hash.
-/

namespace TestChain

/-- Refuses a delegation to an operator that is no validator's. -/
def StakingState.checkDelegations (s : StakingState) : Except GenesisError Unit :=
  s.delegations.forM fun d =>
    if s.validators.any fun v => v.operatorAddress = d.validator then .ok ()
    else .error (.unknownValidator d.delegator d.validator)

namespace BankState

/-- Refuses an invalid denomination among the balances and the supply. -/
def checkDenoms (s : BankState) : Except GenesisError Unit :=
  (do
    s.balances.forM fun b => b.coins.check
    s.supply.check : Except InvalidDenom Unit).mapError .invalidDenom

/-- The denominations of two sets, in increasing order and each once. -/
def denoms (s t : Coins) : List String :=
  (Members.sorted ((s.toList ++ t.toList).map fun c => (c.denom, ()))).names

/-- Refuses a supply that is not the sum of the balances, at the first denomination that differs. -/
def checkSupply (s : BankState) : Except GenesisError Unit :=
  match s.sumBalances? with
  | none => .error .balanceOverflow
  | some total =>
    (denoms total s.supply).forM fun denom =>
      let declared := s.supply.amountOf denom
      let computed := total.amountOf denom
      if declared = computed then .ok () else .error (.supplyMismatch denom declared computed)

/-- Refuses a pool of bonded tokens that does not hold what the validators have bonded. -/
def checkBondedPool (s : BankState) (staking : StakingState) : Except GenesisError Unit :=
  match staking.bondedTokens? with
  | none => .error .balanceOverflow
  | some expected =>
    let denom := staking.params.bondDenom
    let actual := ((s.balanceOf? bondedPoolAddress).map (·.amountOf denom)).getD 0
    if expected = actual then .ok () else .error (.bondedPoolMismatch denom expected actual)

end BankState

/-- Accepts a document or gives the first fault; the answer is the document's state hash. -/
def GenesisDocument.validate (d : GenesisDocument) : Except GenesisError Hash := do
  let staking ← d.get stakingModule StakingState.codec
  let bank ← d.get bankModule BankState.codec
  if staking.validators.isEmpty then throw .emptyValidatorSet
  staking.checkDelegations
  bank.checkDenoms
  bank.checkSupply
  bank.checkBondedPool staking
  return d.stateHash

end TestChain
