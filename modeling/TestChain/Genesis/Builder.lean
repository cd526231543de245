import TestChain.Genesis.Validation

/-!
# Building a genesis document

`GenesisConfig.build` makes the genesis of a chain with one validator from the defaults of an
application: the validator has bonded an amount, which a delegation and the pool of bonded tokens
account for, a funded account and further addresses have balances, and the supply is the sum of all
balances. The states of single modules can be replaced in the end. The document is validated before
it is given out.
-/

namespace TestChain

/-- Which parameters the chain gets. -/
inductive ParamProfile where
  /-- Parameters for tests. -/
  | tuned
  /-- The parameters of the application. -/
  | appDefaults
  deriving DecidableEq, Repr

namespace ParamProfile

/-- The name of a profile. -/
def name : ParamProfile → String
  | .tuned => "tuned"
  | .appDefaults => "app_defaults"

/-- The profile of a name. -/
def ofName? : String → Option ParamProfile
  | "tuned" => some .tuned
  | "app_defaults" => some .appDefaults
  | _ => none

/-- Profiles are written by name. -/
def codec : Codec ParamProfile := .enumeration name ofName?

end ParamProfile

/-- How a genesis document is built. -/
structure GenesisConfig where
  /-- The denomination that is bonded. -/
  bondDenom : String
  /-- The amount that the validator has bonded. -/
  bondAmount : UInt64
  /-- The amount that the funded account holds. -/
  fundedBalance : UInt64
  /-- Which parameters the chain gets. -/
  paramProfile : ParamProfile
  /-- Further balances. -/
  extraBalances : List Balance
  /-- States that replace those of modules. -/
  moduleOverrides : Members Json

namespace GenesisConfig

/-- The configuration that holds unless another one is chosen. -/
def fresh : GenesisConfig :=
  ⟨defaultBondDenom, Validator.powerReduction, 0, .tuned, [], []⟩

/-- Configurations are written as records whose fields may be missing. -/
def codec : Codec GenesisConfig :=
  .record <|
    (Fields.and (.defaulted "bond_denom" .string fresh.bondDenom) <|
      .and (.defaulted "bond_amount" .uint64 fresh.bondAmount) <|
      .and (.defaulted "funded_account_balance" .uint64 fresh.fundedBalance) <|
      .and (.defaulted "param_profile" ParamProfile.codec fresh.paramProfile) <|
      .and (.defaulted "extra_balances" (.list Balance.codec) fresh.extraBalances)
        (.defaulted "module_overrides" (.dictionary .json) fresh.moduleOverrides)).map
      (fun (d, a, f, p, b, o) => ⟨d, a, f, p, b, o⟩)
      (fun c => (c.bondDenom, c.bondAmount, c.fundedBalance, c.paramProfile, c.extraBalances,
        c.moduleOverrides))

/-- Whether the chain gets parameters for tests. -/
def isTuned (c : GenesisConfig) : Bool :=
  c.paramProfile = .tuned

/-- The commission of the validator. -/
def rates (c : GenesisConfig) : CommissionRates :=
  if c.isTuned then ⟨.withPrecision 5 2, .withPrecision 20 2, .withPrecision 1 2⟩ else .none

/-- The validator of a key. -/
def validator (c : GenesisConfig) (key : ValidatorKey) : Validator where
  operatorAddress := key.operatorAddress
  consensusKey := key.publicKey
  jailed := false
  status := .bonded
  tokens := c.bondAmount
  delegatorShares := .one
  unbondingHeight := 0
  unbondingTime := 0
  commission := ⟨c.rates, 0⟩
  minSelfDelegation := 0

/-- The accounts of some addresses, numbered from zero. -/
def numbered (addresses : List AccountAddress) : List Account :=
  addresses.zipIdx.map fun p => .fresh p.1 (UInt64.ofNat p.2)

/-- The state of the auth module, with the funded account and those of the further balances. -/
def authState (c : GenesisConfig) (base : AuthState) (funded : AccountAddress) : AuthState :=
  { base with accounts := numbered (funded :: c.extraBalances.map Balance.address) }

/-- The state of the staking module, with the validator and a delegation to it. -/
def stakingState (c : GenesisConfig) (base : StakingState) (key : ValidatorKey)
    (funded : AccountAddress) : StakingState where
  params := { base.params with bondDenom := c.bondDenom }
  validators := [c.validator key]
  delegations := [⟨funded, key.operatorAddress, .one⟩]

/-- The state of the mint module. -/
def mintState (c : GenesisConfig) (base : MintState) : MintState :=
  let params := { base.params with mintDenom := c.bondDenom }
  if c.isTuned then
    { minter := ⟨.withPrecision 13 2, .zero⟩
      params := { params with
        inflationRateChange := .withPrecision 13 2
        inflationMax := .withPrecision 20 2
        inflationMin := .withPrecision 7 2
        goalBonded := .withPrecision 67 2 } }
  else { base with params := params }

/-- The state of the distribution module of a chain with parameters for tests. -/
def distributionState (base : DistributionState) : DistributionState :=
  { base with params := ⟨.withPrecision 2 2, .withPrecision 1 2, .withPrecision 4 2, true⟩ }

/-- The balances of the funded account and of the further addresses. -/
def balances (c : GenesisConfig) (funded : AccountAddress) : List Balance :=
  if c.fundedBalance = 0 then c.extraBalances
  else ⟨funded, .single c.fundedBalance c.bondDenom⟩ :: c.extraBalances

/-- The state of the bank module, with the pool of bonded tokens, if all sums fit. -/
def bankState? (c : GenesisConfig) (base : BankState) (funded : AccountAddress)
    (delegations : Nat) : Option BankState := do
  let balances := c.balances funded
  let supply ← { base with balances := balances }.sumBalances?
  let bonded ← Word.mul? c.bondAmount (UInt64.ofNat delegations)
  let supply ← BankState.addCoin? supply ⟨c.bondDenom, bonded⟩
  return { base with
    balances := balances ++ [⟨bondedPoolAddress, .single bonded c.bondDenom⟩]
    supply := supply }

/-- Builds the document from the defaults of an application and a key for the validator. -/
def assemble (c : GenesisConfig) (defaults : GenesisDocument) (key : ValidatorKey)
    (funded : AccountAddress) : Except GenesisError GenesisDocument := do
  let auth ← defaults.getD authModule AuthState.codec .fresh
  let doc := defaults.insert authModule AuthState.codec (c.authState auth funded)
  let staking ← doc.getD stakingModule StakingState.codec .fresh
  let staking := c.stakingState staking key funded
  let doc := doc.insert stakingModule StakingState.codec staking
  let mint ← doc.getD mintModule MintState.codec .fresh
  let doc := doc.insert mintModule MintState.codec (c.mintState mint)
  let doc ←
    if c.isTuned then do
      let distribution ← doc.getD distributionModule DistributionState.codec .fresh
      pure (doc.insert distributionModule DistributionState.codec (distributionState distribution))
    else pure doc
  let wasm ← doc.getD wasmModule WasmState.codec .fresh
  let doc := doc.insert wasmModule WasmState.codec { wasm with params := .permissionless }
  let bank ← doc.getD bankModule BankState.codec .fresh
  match c.bankState? bank funded staking.delegations.length with
  | none => throw .balanceOverflow
  | some bank =>
    let doc := doc.insert bankModule BankState.codec bank
    return c.moduleOverrides.foldl (fun d m => d.insertRaw m.1 m.2) doc

/-- Refuses a configuration that no document can be built from. -/
def check (c : GenesisConfig) : Except GenesisError Unit := do
  (checkDenom c.bondDenom).mapError .invalidDenom
  if c.bondAmount = 0 then throw (.invalidBondAmount c.bondAmount)

/-- Draws the validator's key and the funded account's, then builds and validates the document. A
configuration that is refused at once draws nothing. -/
def build (c : GenesisConfig) (defaults : GenesisDocument) (g : Generator) :
    Except GenesisError (GenesisDocument × ValidatorKey) × Generator :=
  match c.check with
  | .error e => (.error e, g)
  | .ok () =>
    -- The keys are drawn before the document is made, and stay drawn where it is refused.
    let (key, g) := ValidatorKey.generate g
    let (funded, g) := PrivateKey.generate g
    let doc := do
      let doc ← c.assemble defaults key funded.publicKey.accountAddress
      let _ ← doc.validate
      return (doc, key)
    (doc, g)

end GenesisConfig

end TestChain
