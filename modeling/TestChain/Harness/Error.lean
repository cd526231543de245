import TestChain.App.Error
import TestChain.Block.Message
import TestChain.Harness.Config

/-!
# Errors of the harness

An error is the rejection of a proposal, a misuse of the cycle of blocks or else fatal
(`HarnessError.errorClass`).
-/

namespace TestChain

/-- Where the cycle of blocks stands. -/
inductive CycleState where
  /-- No block is open. -/
  | idle
  /-- A block is open and takes transactions. -/
  | accumulating
  /-- A block failed; there will be no other. -/
  | halted
  deriving DecidableEq, Repr

namespace CycleState

/-- The name of a state. -/
def name : CycleState → String
  | .idle => "idle"
  | .accumulating => "accumulating"
  | .halted => "halted"

/-- The state of a name. -/
def ofName? : String → Option CycleState
  | "idle" => some .idle
  | "accumulating" => some .accumulating
  | "halted" => some .halted
  | _ => none

/-- States are written by name. -/
def codec : Codec CycleState := .enumeration name ofName?

end CycleState

/-- What a harness does with a block. -/
inductive BlockOperation where
  /-- It opens the block. -/
  | beginBlock
  /-- It queues a transaction. -/
  | execute
  /-- It closes the block. -/
  | endBlock
  deriving DecidableEq, Repr

/-- An operation in words. -/
def BlockOperation.text : BlockOperation → String
  | .beginBlock => "begin a block"
  | .execute => "execute a transaction"
  | .endBlock => "end a block"

/-- Why a harness refuses an operation. -/
inductive HarnessError where
  /-- The application did not accept a proposal. -/
  | proposalRejected (height : UInt64) (status : ProposalStatus)
  /-- The operation does not fit where the cycle stands. -/
  | invalidPhase (operation : BlockOperation) (state : CycleState)
  /-- A block failed before. -/
  | halted
  /-- The genesis document cannot be built. -/
  | genesis (error : GenesisError)
  /-- The application refused a call. -/
  | application (phase : Phase) (error : AppError)
  /-- The application refused to credit an account. -/
  | funding (address : AccountAddress) (error : AppError)
  /-- No validator has the operator. -/
  | unknownValidator (operator : ValidatorAddress)
  /-- There are not so many validator keys. -/
  | noSuchKey (index : Nat)
  /-- No validator can propose a block. -/
  | noValidators
  /-- The parameters of a module are registered already. -/
  | duplicateParamSet (name : String)
  /-- The configuration cannot be used. -/
  | invalidConfig (fault : ConfigFault)
  deriving DecidableEq, Repr

/-- The classes of errors. -/
inductive ErrorClass where
  /-- A proposal was rejected. -/
  | rejection
  /-- The cycle of blocks was misused. -/
  | misuse
  /-- Anything else. -/
  | fatal
  deriving DecidableEq, Repr

/-- The name of a class. -/
def ErrorClass.name : ErrorClass → String
  | .rejection => "rejection"
  | .misuse => "misuse"
  | .fatal => "fatal"

namespace HarnessError

/-- The wording of the error. -/
def message : HarnessError → String
  | .proposalRejected height status =>
    "Proposal for height " ++ toString height.toNat ++ " was not accepted: " ++ status.text
  | .invalidPhase operation state =>
    "Cannot " ++ operation.text ++ " while the block cycle is " ++ state.name
  | .halted => "Harness is halted after a failed block cycle"
  | .genesis error => "Genesis error: " ++ error.message
  | .application phase error => "Application failed during " ++ phase.text ++ ": " ++ error.message
  | .funding address error => "Failed to fund account " ++ address.text ++ ": " ++ error.message
  | .unknownValidator operator => "Unknown validator " ++ operator.text
  | .noSuchKey index => "Unknown validator #" ++ toString index
  | .noValidators => "No validator available to propose"
  | .duplicateParamSet name => "Parameter set already registered for module " ++ name
  | .invalidConfig fault => "Invalid harness configuration: " ++ fault.message

/-- The wordings of the errors that caused this one, the nearest first. -/
def causes : HarnessError → List String
  | .genesis error => error.message :: error.causes
  | .application _ error => [error.message]
  | .funding _ error => [error.message]
  | _ => []

/-- The class of the error. -/
def errorClass : HarnessError → ErrorClass
  | .proposalRejected .. => .rejection
  | .invalidPhase .. => .misuse
  | .halted => .misuse
  | _ => .fatal

end HarnessError

end TestChain
