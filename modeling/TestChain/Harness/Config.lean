import TestChain.Block.Message
import TestChain.Genesis.Builder

/-!
# The configuration of a harness
-/

namespace TestChain

/-- Whether the gas of a block is limited. -/
inductive GasMode where
  /-- There is no limit. -/
  | unlimited
  /-- There is a fixed limit. -/
  | fixed
  deriving DecidableEq, Repr

namespace GasMode

/-- The name of a mode. -/
def name : GasMode → String
  | .unlimited => "unlimited"
  | .fixed => "fixed"

/-- The mode of a name. -/
def ofName? : String → Option GasMode
  | "unlimited" => some .unlimited
  | "fixed" => some .fixed
  | _ => none

/-- Modes are written by name. -/
def codec : Codec GasMode := .enumeration name ofName?

/-- The parameters of the consensus in a mode. -/
def consensusParams : GasMode → ConsensusParams
  | .unlimited => .unlimitedGas
  | .fixed => .fixedGas

end GasMode

/-- How the proposer of a block is chosen. -/
inductive ProposerSelection where
  /-- There is no proposer. -/
  | none
  /-- The first validator proposes every block. -/
  | firstValidator
  /-- The validators that take part propose in turn. -/
  | roundRobin
  /-- The validator of an operator proposes every block. -/
  | fixed (operator : ValidatorAddress)
  deriving DecidableEq, Repr

namespace ProposerSelection

/-- The selection of a name that goes without an operator. -/
def ofName? : String → Option ProposerSelection
  | "none" => some .none
  | "first_validator" => some .firstValidator
  | "round_robin" => some .roundRobin
  | _ => Option.none

/-- Decodes the selection of a name with what goes with it. -/
def ofPart (name : String) (part : Node) : Decoding ProposerSelection :=
  if name = "fixed" then .fixed <$> (Address.codec .validator).decode part
  else Codec.decodeCase ofName? (.tagged (.own name) part)

/-- Decodes a selection: its name, or an object whose only member has its name. Of a value whose
parts are known the number of members is looked at first. -/
def decode (n : Node) : Decoding ProposerSelection := do
  match ← n.reached with
  | .map ((name, part) :: rest) origin =>
    if origin = .yaml || (origin = .value && !rest.isEmpty) then throw .malformed
    let s ← ofPart (← name.text) part
    origin.close
    if rest.isEmpty then return s else throw .malformed
  | .tagged (.own name) part => ofPart name part
  | n => Codec.decodeCase ofName? n

/-- Selections are written by name; one with an operator is written as an object. -/
def codec : Codec ProposerSelection where
  encode
    | .none => .str "none"
    | .firstValidator => .str "first_validator"
    | .roundRobin => .str "round_robin"
    | .fixed operator => .obj [("fixed", .str operator.text)]
  decode := decode

end ProposerSelection

/-- Why a configuration cannot be used. -/
inductive ConfigFault where
  /-- The chain has no name. -/
  | emptyChainId
  /-- A block would take no time. -/
  | zeroBlockTime
  deriving DecidableEq, Repr

/-- The wording of the fault. -/
def ConfigFault.message : ConfigFault → String
  | .emptyChainId => "chain id must not be empty"
  | .zeroBlockTime => "block time must be at least one second"

/-- The configuration of a harness. -/
structure HarnessConfig where
  /-- The name of the chain. -/
  chainId : String
  /-- The directory that the application may use. -/
  nodeHome : Option String
  /-- How the genesis document is built. -/
  genesis : GenesisConfig
  /-- Whether the gas of a block is limited. -/
  gasMode : GasMode
  /-- Whether the gas of a simulation is not limited. -/
  unlimitedSimulationGas : Bool
  /-- The time at which the chain begins. -/
  genesisTime : Option UInt64
  /-- How proposers are chosen. -/
  proposer : ProposerSelection
  /-- The amount that a validator is credited with when it is funded. -/
  fundAmount : UInt64
  /-- The seconds from a block to one that is skipped. -/
  blockTimeSeconds : UInt64
  /-- The seed of the generator. -/
  seed : Option UInt64

namespace HarnessConfig

/-- The configuration that holds unless another one is chosen. -/
def fresh : HarnessConfig where
  chainId := "blocksim-1"
  nodeHome := none
  genesis := .fresh
  gasMode := .fixed
  unlimitedSimulationGas := true
  genesisTime := none
  proposer := .firstValidator
  fundAmount := 9223372036854775807
  blockTimeSeconds := 5
  seed := none

/-- Configurations are written as records whose fields may be missing. -/
def codec : Codec HarnessConfig :=
  .record <|
    (Fields.and (.defaulted "chain_id" .string fresh.chainId) <|
      .and (.defaulted "node_home" Codec.string.option fresh.nodeHome) <|
      .and (.defaulted "genesis" GenesisConfig.codec fresh.genesis) <|
      .and (.defaulted "gas_mode" GasMode.codec fresh.gasMode) <|
      .and (.defaulted "unlimited_simulation_gas" .bool fresh.unlimitedSimulationGas) <|
      .and (.defaulted "genesis_time" Codec.uint64.option fresh.genesisTime) <|
      .and (.defaulted "proposer" ProposerSelection.codec fresh.proposer) <|
      .and (.defaulted "fund_amount" .uint64 fresh.fundAmount) <|
      .and (.defaulted "block_time_seconds" .uint64 fresh.blockTimeSeconds)
        (.defaulted "seed" Codec.uint64.option fresh.seed)).map
      (fun (c, n, g, m, u, t, p, f, b, s) => ⟨c, n, g, m, u, t, p, f, b, s⟩)
      (fun c => (c.chainId, c.nodeHome, c.genesis, c.gasMode, c.unlimitedSimulationGas,
        c.genesisTime, c.proposer, c.fundAmount, c.blockTimeSeconds, c.seed))

/-- The denomination that is bonded. -/
def bondDenom (c : HarnessConfig) : String :=
  c.genesis.bondDenom

/-- Refuses a configuration that cannot be used. -/
def check (c : HarnessConfig) : Except ConfigFault Unit := do
  if c.chainId.isEmpty then throw .emptyChainId
  if c.blockTimeSeconds = 0 then throw .zeroBlockTime

end HarnessConfig

end TestChain
