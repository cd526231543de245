import TestChain.Coin
import TestChain.Key

/-!
# Errors of genesis documents
-/

namespace TestChain

/-- Why a genesis document cannot be used. -/
inductive GenesisError where
  /-- A delegation goes to an operator that is no validator's. -/
  | unknownValidator (delegator : AccountAddress) (validator : ValidatorAddress)
  /-- The supply of a denomination is not the sum of its balances. -/
  | supplyMismatch (denom : String) (declared computed : UInt64)
  /-- The pool of bonded tokens does not hold what the validators have bonded. -/
  | bondedPoolMismatch (denom : String) (expected actual : UInt64)
  /-- A sum does not fit in a word. -/
  | balanceOverflow
  /-- There is no validator. -/
  | emptyValidatorSet
  /-- The amount to be bonded is zero. -/
  | invalidBondAmount (amount : UInt64)
  /-- A module comes twice. -/
  | duplicateModule (name : String)
  /-- A module that is needed is missing. -/
  | missingModule (name : String)
  /-- The state of a module does not have the shape of its type. -/
  | invalidModuleState (name : String) (error : DecodeError)
  /-- A denomination is invalid. -/
  | invalidDenom (error : InvalidDenom)
  /-- The text of the document is malformed. -/
  | json (error : DecodeError)
  deriving DecidableEq, Repr

namespace GenesisError

/-- The wording of the error. -/
def message : GenesisError → String
  | .unknownValidator delegator validator =>
    "Delegation from " ++ delegator.text ++ " references unknown validator " ++ validator.text
  | .supplyMismatch denom declared computed =>
    "Supply mismatch for " ++ denom ++ ": declared " ++ toString declared.toNat ++
      ", balances sum to " ++ toString computed.toNat
  | .bondedPoolMismatch denom expected actual =>
    "Bonded pool holds " ++ toString actual.toNat ++ denom ++ " but bonded validators hold " ++
      toString expected.toNat ++ denom
  | .balanceOverflow => "Balance overflow: total allocations would exceed maximum supply"
  | .emptyValidatorSet => "Genesis has no validators"
  | .invalidBondAmount amount => "Invalid bond amount: " ++ toString amount.toNat
  | .duplicateModule name => "Duplicate module in genesis: " ++ name
  | .missingModule name => "Missing module in genesis: " ++ name
  | .invalidModuleState name error => "Invalid state for module " ++ name ++ ": " ++ error.message
  | .invalidDenom error => error.message
  | .json error => "JSON error: " ++ error.message

/-- The wordings of the errors that caused this one. -/
def causes : GenesisError → List String
  | .invalidModuleState _ error => [error.message]
  | .json error => [error.message]
  | _ => []

end GenesisError

end TestChain
