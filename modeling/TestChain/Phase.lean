import TestChain.Codec.Basic

/-!
# Phases

The calls that an application answers, each a phase of the life of a chain. Errors name the phase in
which they arose.
-/

namespace TestChain

/-- A call to the application. -/
inductive Phase where
  /-- Making the application. -/
  | newApp
  /-- Beginning the chain. -/
  | initChain
  /-- Writing a validator's signing info. -/
  | signingInfo
  /-- Opening a block. -/
  | beginBlock
  /-- Preparing a proposal. -/
  | prepare
  /-- Processing a proposal. -/
  | process
  /-- Finalizing a block. -/
  | finalize
  /-- Committing a block. -/
  | commit
  /-- Crediting an account. -/
  | funding
  /-- Looking something up. -/
  | query
  deriving DecidableEq, Repr

namespace Phase

/-- The name of a phase. -/
def name : Phase → String
  | .newApp => "new_app"
  | .initChain => "init_chain"
  | .signingInfo => "signing_info"
  | .beginBlock => "begin_block"
  | .prepare => "prepare"
  | .process => "process"
  | .finalize => "finalize"
  | .commit => "commit"
  | .funding => "funding"
  | .query => "query"

/-- The phase of a name. -/
def ofName? : String → Option Phase
  | "new_app" => some .newApp
  | "init_chain" => some .initChain
  | "signing_info" => some .signingInfo
  | "begin_block" => some .beginBlock
  | "prepare" => some .prepare
  | "process" => some .process
  | "finalize" => some .finalize
  | "commit" => some .commit
  | "funding" => some .funding
  | "query" => some .query
  | _ => none

/-- A phase in words. -/
def text : Phase → String
  | .newApp => "app creation"
  | .initChain => "chain initialization"
  | .signingInfo => "signing info setup"
  | .beginBlock => "begin block"
  | .prepare => "prepare proposal"
  | .process => "process proposal"
  | .finalize => "finalize block"
  | .commit => "commit"
  | .funding => "funding"
  | .query => "query"

/-- Phases are written by name. -/
def codec : Codec Phase := .enumeration name ofName?

end Phase

end TestChain
