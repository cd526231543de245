import TestChain.App
import TestChain.Harness.Cycle
import TestChain.Harness.Registry
import TestChain.Random.Seed

/-!
# The harness

A `Harness` drives an application block by block, in place of a consensus and a network: it builds
the genesis of a chain with one validator, begins the chain, opens blocks, queues transactions and
closes blocks. Closing a block prepares, processes, finalizes and commits it; where one of these
fails or the proposal is not accepted, the harness is halted. Each operation is a `Harness.Call`,
which says also what a failed operation leaves behind.
-/

namespace TestChain

/-- A round of crediting accounts. -/
structure FundingRound where
  /-- The denomination. -/
  denom : String
  /-- The amount for each account. -/
  amount : UInt64

/-- The coins for each account. -/
def FundingRound.coins (r : FundingRound) : Coins :=
  .single r.amount r.denom

/-- What a configuration may leave open. -/
structure Surroundings where
  /-- The time now. -/
  time : UInt64
  /-- A seed for the generator. -/
  seed : UInt64

/-- A chain that is driven block by block. -/
structure Harness where
  /-- The application. -/
  app : App
  /-- The context of the last block that was opened. -/
  context : BlockContext
  /-- Where the cycle of blocks stands. -/
  cycle : Cycle
  /-- The key of the validator that the chain began with. -/
  genesisKey : ValidatorKey
  /-- The validator keys that were added. -/
  moreKeys : List ValidatorKey
  /-- The registered parameters. -/
  registry : Registry
  /-- The configuration. -/
  config : HarnessConfig
  /-- The time at which the chain began. -/
  genesisTime : UInt64
  /-- The random generator. -/
  rng : SeededRng

namespace Harness

/-- An operation of the harness. -/
abbrev Call (α : Type) := EStateM HarnessError Harness α

/-! ## Setting up -/

/-- The application of a configuration. -/
def newApp (c : HarnessConfig) : Except HarnessError App :=
  (App.new c.chainId (.debugging c.unlimitedSimulationGas)).mapError (.application .newApp)

/-- Writes a fresh signing info for each validator of an application. -/
def seedSigningInfos (height : UInt64) : App.Call Unit := do
  let validators ← App.onLedger (Ledger.ask Ledger.validators)
  validators.forM fun v => App.setSigningInfo (.fresh v.consensusAddress height)

/-- The result of a call by which the chain is set up. -/
def settingUp {α : Type} (p : Phase) (x : App.Call α) (a : App) : Except HarnessError (α × App) :=
  match x a with
  | .ok r a => .ok (r, a)
  | .error e _ => .error (.application p e)

/-- Begins the chain of an application: builds its genesis document, hands it over and writes the
signing infos of its validators. -/
def init (around : Surroundings) (app : App) (c : HarnessConfig) : Except HarnessError Harness := do
  c.check.mapError .invalidConfig
  let rng := SeededRng.ofSeed (c.seed.getD around.seed)
  let time := c.genesisTime.getD around.time
  let (built, rng) := rng.draw (c.genesis.build .defaults)
  let (doc, key) ← built.mapError .genesis
  let (_, app) ← settingUp .initChain (App.initChain {
    chainId := c.chainId
    time := time
    consensusParams := c.gasMode.consensusParams
    appState := doc.text.toUTF8
    initialHeight := 1 }) app
  let context := BlockContext.genesis c.chainId time
  let (_, app) ← settingUp .signingInfo (seedSigningInfos context.height) app
  let registry ← Registry.empty.register .rewards
  return {
    app := app
    context := context
    cycle := .idle
    genesisKey := key
    moreKeys := []
    registry := registry
    config := c
    genesisTime := time
    rng := rng }

/-- Makes an application and begins its chain. -/
def start (around : Surroundings) (c : HarnessConfig) : Except HarnessError Harness := do
  c.check.mapError .invalidConfig
  let app ← newApp c
  init around app c

/-! ## Parts of operations -/

/-- Refuses what was found wrong. -/
def require {α : Type} : Except HarnessError α → Call α
  | .ok a => pure a
  | .error e => throw e

/-- Calls the application, whose errors are told in a wording of the harness. -/
def call {α : Type} (wrap : AppError → HarnessError) (x : App.Call α) : Call α := fun h =>
  match x h.app with
  | .ok r a => .ok r { h with app := a }
  | .error e a => .error (wrap e) { h with app := a }

/-- Asks the ledger of the application. -/
def ask {α : Type} (q : Ledger.Query α) : Call α := do
  require ((q (← get).app.store).mapError (.application .query))

/-- Gives up the cycle of blocks. -/
def halt {α : Type} (e : HarnessError) : Call α := fun h =>
  .error e { h with cycle := .halted }

/-- Calls the application for the cycle of blocks, which is halted when the application refuses. -/
def callOrHalt {α : Type} (p : Phase) (x : App.Call α) : Call α := fun h =>
  match x h.app with
  | .ok r a => .ok r { h with app := a }
  | .error e a => halt (.application p e) { h with app := a }

/-- Refuses an operation after a block that failed. -/
def ensureReady : Call Unit := do
  require (← get).cycle.ensureReady

/-- The validator keys, that of the genesis first. -/
def keys (h : Harness) : List ValidatorKey :=
  h.genesisKey :: h.moreKeys

/-! ## Proposers -/

/-- The consensus address of an operator's validator. -/
def consensusAddressOf (operator : ValidatorAddress) : Call ConsensusAddress := do
  match ← ask (Ledger.validator? operator) with
  | some v => return v.consensusAddress
  | none => throw (.unknownValidator operator)

/-- The validator whose turn it is at a height. -/
def inTurn? (validators : List Validator) (height : UInt64) : Option Validator :=
  let eligible := validators.filter fun v => v.isBonded && !v.jailed
  eligible[height.toNat % eligible.length]?

/-- Chooses the proposer of the block after the current height. -/
def selectProposer : Call (Option ConsensusAddress) := do
  match (← get).config.proposer with
  | .none => return none
  | .firstValidator =>
    match (← ask Ledger.validators).head? with
    | some v => return some v.consensusAddress
    | none => throw .noValidators
  | .roundRobin =>
    -- The turn is that of the height before the block.
    match inTurn? (← ask Ledger.validators) (← get).context.height with
    | some v => return some v.consensusAddress
    | none => throw .noValidators
  | .fixed operator => some <$> consensusAddressOf operator

/-! ## Blocks -/

/-- The seconds from a block to the first of a new epoch. -/
def epochSeconds : UInt64 := 1

/-- The context of the next block. -/
def nextContext (c : BlockContext) (epoch : Bool) (seconds : UInt64)
    (proposer : Option ConsensusAddress) : BlockContext :=
  let next := c.next (if epoch then epochSeconds else seconds)
  match proposer with
  | some p => next.withProposer p [⟨p, proposerPower, .commit⟩]
  | none => next

/-- Opens the next block for a proposer. -/
def openBlock (epoch : Bool) (seconds : UInt64) (proposer : Option ConsensusAddress) :
    Call Unit := do
  require ((← get).cycle.ensureIdle .beginBlock)
  let next := nextContext (← get).context epoch seconds proposer
  callOrHalt .beginBlock (App.beginBlock next)
  modify fun h => { h with context := next, cycle := .building (.empty next.height next.time) }

/-- Opens the next block, some seconds after the last or, at an epoch's beginning, one second. -/
def beginBlock (epoch : Bool) (seconds : UInt64) : Call Unit := do
  ensureReady
  let proposer ← selectProposer
  openBlock epoch seconds proposer

/-- Opens the next block with the validator of an operator as its proposer. -/
def beginBlockWith (operator : ValidatorAddress) (epoch : Bool) (seconds : UInt64) : Call Unit := do
  ensureReady
  let proposer ← consensusAddressOf operator
  openBlock epoch seconds (some proposer)

/-- Queues a transaction in the open block. -/
def execute (tx : Tx) : Call Unit := do
  let cycle ← require ((← get).cycle.push tx)
  modify fun h => { h with cycle := cycle }

/-- The most bytes of transactions in a proposal. -/
def maxPrepareBytes : Int64 := 10048576

/-- Closes the open block: prepares, processes, finalizes and commits it. All queued transactions
are finalized, also those that the proposal leaves out. -/
def endBlock : Call FinalizeResponse := do
  let block ← require ((← get).cycle.block .endBlock)
  let context := (← get).context
  let proposed ← callOrHalt .prepare <| App.prepareProposal
    ⟨maxPrepareBytes, block.txs, block.height, block.time, context.proposer⟩
  let status ← callOrHalt .process <| App.processProposal
    ⟨proposed, block.height, block.time, context.proposer⟩
  -- The application stays as it is after a rejection; only the cycle is given up.
  if !status.isAccepted then halt (.proposalRejected block.height status)
  let response ← callOrHalt .finalize <| App.finalizeBlock
    ⟨block.txs, block.height, block.time, context.proposer, context.votes⟩
  let _ ← callOrHalt .commit App.commit
  modify fun h => { h with cycle := .idle }
  return response

/-- Makes an empty block some seconds after the last. -/
def increaseTime (seconds : UInt64) : Call FinalizeResponse := do
  beginBlock false seconds
  endBlock

/-- Makes an empty block at the usual distance. -/
def skipBlock : Call FinalizeResponse := do
  increaseTime (← get).config.blockTimeSeconds

/-- Makes a number of empty blocks. -/
def skipBlocks : Nat → Call Unit
  | 0 => pure ()
  | n + 1 => do
    let _ ← skipBlock
    skipBlocks n

/-! ## Accounts -/

/-- Creates coins on an account. -/
def fund (address : AccountAddress) (coins : Coins) : Call Unit :=
  call (.funding address) (App.fundAccount address coins)

/-- Creates coins on an account, unless the harness is halted. -/
def fundAccount (address : AccountAddress) (coins : Coins) : Call Unit := do
  ensureReady
  fund address coins

/-- The coins that each validator is credited with. -/
def fundingRound (h : Harness) : FundingRound :=
  ⟨h.config.bondDenom, h.config.fundAmount⟩

/-- Credits the account of every validator key. -/
def fundValidators : Call Unit := do
  ensureReady
  let h ← get
  h.keys.forM fun k => fund k.accountAddress h.fundingRound.coins

/-- Draws the key of a new account and creates coins on it. -/
def initAccount (coins : Coins) : Call PrivateKey := do
  ensureReady
  let h ← get
  let (key, rng) := h.rng.draw PrivateKey.generate
  set { h with rng := rng }
  fund key.publicKey.accountAddress coins
  return key

/-- Makes a number of new accounts. -/
def initAccounts (coins : Coins) : Nat → Call (List PrivateKey)
  | 0 => pure []
  | n + 1 => do
    let key ← initAccount coins
    let keys ← initAccounts coins n
    return key :: keys

/-- Adds a validator key. -/
def addKey (key : ValidatorKey) (h : Harness) : Harness :=
  { h with moreKeys := h.moreKeys ++ [key] }

/-! ## Looking up -/

/-- The operators of the validators. -/
def validatorAddresses : Call (List ValidatorAddress) := do
  return (← ask Ledger.validators).map Validator.operatorAddress

/-- The balance of an account in a denomination. -/
def balance (address : AccountAddress) (denom : String) : Call UInt64 :=
  ask (Ledger.balance address denom)

/-- The balance of the account of a validator key in the bonded denomination. -/
def validatorBalance (index : Nat) : Call UInt64 := do
  let h ← get
  match h.keys[index]? with
  | some k => balance k.accountAddress h.config.bondDenom
  | none => throw (.noSuchKey index)

/-- Registers the parameters of a module. -/
def register (s : ParamSet) : Call Unit := do
  let registry ← require ((← get).registry.register s)
  modify fun h => { h with registry := registry }

/-- Changes the application from outside. -/
def onApp (f : App → App) (h : Harness) : Harness :=
  { h with app := f h.app }

end Harness

end TestChain
