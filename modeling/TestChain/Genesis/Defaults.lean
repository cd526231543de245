import TestChain.Genesis.Auth
import TestChain.Genesis.Bank
import TestChain.Genesis.Document
import TestChain.Genesis.Economy
import TestChain.Genesis.Wasm

/-!
# The genesis of a fresh application

`GenesisDocument.defaults` holds the fresh state of every module of the application.
-/

namespace TestChain

/-! ## The names of the modules -/

/-- The name of the auth module. -/
def authModule : String := "auth"

/-- The name of the bank module. -/
def bankModule : String := "bank"

/-- The name of the staking module. -/
def stakingModule : String := "staking"

/-- The name of the slashing module. -/
def slashingModule : String := "slashing"

/-- The name of the mint module. -/
def mintModule : String := "mint"

/-- The name of the distribution module. -/
def distributionModule : String := "distribution"

/-- The name of the contract module. -/
def wasmModule : String := "wasm"

/-- The name of the rewards module. -/
def rewardsModule : String := "rewards"

/-- The name of the pool that holds the bonded tokens. -/
def bondedPool : String := "bonded_tokens_pool"

/-- The address of the pool that holds the bonded tokens. -/
def bondedPoolAddress : AccountAddress := .ofModule bondedPool

/-- The genesis of a fresh application. -/
def GenesisDocument.defaults : GenesisDocument :=
  empty
    |>.insert authModule AuthState.codec .fresh
    |>.insert bankModule BankState.codec .fresh
    |>.insert stakingModule StakingState.codec .fresh
    |>.insert slashingModule SlashingState.codec .fresh
    |>.insert mintModule MintState.codec .fresh
    |>.insert distributionModule DistributionState.codec .fresh
    |>.insert wasmModule WasmState.codec .fresh
    |>.insert rewardsModule RewardsState.codec .fresh

end TestChain
