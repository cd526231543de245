import TestChain.Genesis.Error
import TestChain.Phase

/-!
# Errors of the application
-/

namespace TestChain

/-- What is wrong with a request. -/
inductive RequestFault where
  /-- A chain without a name. -/
  | emptyChainId
  /-- A chain is to begin under the name of another one. -/
  | otherChain (given own : String)
  /-- A block belongs to another chain. -/
  | blockOfOtherChain (given own : String)
  /-- A block to be opened is not the next one. -/
  | wrongHeight (expected given : UInt64)
  /-- A block to be finalized is not the next one. -/
  | cannotFinalize (given last : UInt64)
  /-- There is no finalized block to commit. -/
  | nothingFinalized
  deriving DecidableEq, Repr

/-- The wording of the fault. -/
def RequestFault.message : RequestFault → String
  | .emptyChainId => "empty chain id"
  | .otherChain given own => "chain id " ++ given ++ " does not match " ++ own
  | .blockOfOtherChain given own => "block for chain " ++ given ++ " on " ++ own
  | .wrongHeight expected given =>
    "expected height " ++ toString expected.toNat ++ ", got " ++ toString given.toNat
  | .cannotFinalize given last =>
    "cannot finalize height " ++ toString given.toNat ++ " after " ++ toString last.toNat
  | .nothingFinalized => "commit without a finalized block"

/-- Why the application refuses a call. -/
inductive AppError where
  /-- The genesis document cannot be used. -/
  | invalidGenesis (error : GenesisError)
  /-- The chain has not begun. -/
  | notInitialized
  /-- The chain has begun already. -/
  | alreadyInitialized
  /-- No validator has the address. -/
  | unknownValidator (address : ConsensusAddress)
  /-- An account does not hold what it is to pay. -/
  | insufficientFunds (address : AccountAddress) (needed : Coins)
  /-- The request does not fit. -/
  | invalidRequest (fault : RequestFault)
  /-- The call was made to fail. -/
  | aborted (phase : Phase)
  /-- A denomination is invalid. -/
  | coins (error : InvalidDenom)
  /-- A stored value does not have the shape of its type. -/
  | json (error : DecodeError)
  deriving DecidableEq, Repr

/-- The wording of the error. -/
def AppError.message : AppError → String
  | .invalidGenesis error => "Invalid genesis state: " ++ error.message
  | .notInitialized => "Chain is not initialized"
  | .alreadyInitialized => "Chain is already initialized"
  | .unknownValidator address => "Unknown validator " ++ address.text
  | .insufficientFunds address needed =>
    "Insufficient funds on " ++ address.text ++ ": needed " ++ needed.text
  | .invalidRequest fault => "Invalid request: " ++ fault.message
  | .aborted phase => "injected failure during " ++ phase.text
  | .coins error => error.message
  | .json error => error.message

end TestChain
