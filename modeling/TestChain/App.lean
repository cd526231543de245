import TestChain.App.Ledger
import TestChain.Options
import TestChain.Word

/-!
# The application

An `App` is a chain's state machine in memory: its ledger lies in a store, and it is driven by the
calls of a block's life. Each call is an `App.Call`, which changes the application also where it
fails: a failure that was injected is used up by the call that it meets. Apart from its errors the
application can be told to reject proposals, and it remembers the last request of each kind.
-/

namespace TestChain

/-- The application. -/
structure App where
  /-- The name of the chain. -/
  chainId : String
  /-- Whether it traces what it does. -/
  trace : Bool
  /-- The most gas for a simulation. -/
  gasLimit : Option UInt64
  /-- The store. -/
  store : Store
  /-- The parameters of the consensus, once the chain has begun. -/
  consensusParams : Option ConsensusParams
  /-- The height of the last committed block. -/
  lastHeight : UInt64
  /-- The hash of the last committed state. -/
  lastAppHash : Hash
  /-- The block that is open. -/
  current : Option BlockContext
  /-- The height of the block that is finalized and not committed. -/
  finalized : Option UInt64
  /-- The answer to proposals. -/
  verdict : ProposalStatus
  /-- Whether the next proposal is rejected. -/
  rejectNext : Bool
  /-- The phases in which the next call fails. -/
  failures : List Phase
  /-- The last request to prepare a proposal. -/
  lastPrepare : Option PrepareRequest
  /-- The last request to process a proposal. -/
  lastProcess : Option ProcessRequest
  /-- The last request to finalize a block. -/
  lastFinalize : Option FinalizeRequest

namespace App

/-- A call to the application. -/
abbrev Call (α : Type) := EStateM AppError App α

/-- The application of a chain that has not begun. -/
def new (chainId : String) (options : Options) : Except AppError App :=
  if chainId.isEmpty then .error (.invalidRequest .emptyChainId)
  else .ok {
    chainId := chainId
    trace := options.isTrue Options.trace
    gasLimit := options.number? Options.simulationGasLimit
    store := .fresh
    consensusParams := none
    lastHeight := 0
    lastAppHash := .zero
    current := none
    finalized := none
    verdict := .accept
    rejectNext := false
    failures := []
    lastPrepare := none
    lastProcess := none
    lastFinalize := none }

/-- Whether the chain has begun. -/
def isInitialized (a : App) : Bool :=
  a.consensusParams.isSome

/-- The height of the next block. -/
def nextHeight (a : App) : UInt64 :=
  a.lastHeight + 1

/-! ## What tests can set -/

/-- The application with another answer to proposals. -/
def setVerdict (a : App) (status : ProposalStatus) : App :=
  { a with verdict := status }

/-- The application that rejects the next proposal. -/
def rejectNextProposal (a : App) : App :=
  { a with rejectNext := true }

/-- The application whose next call in a phase fails. -/
def injectFailure (a : App) (p : Phase) : App :=
  { a with failures := p :: a.failures.filter (· ≠ p) }

/-- The application without injected failures. -/
def clearFailures (a : App) : App :=
  { a with failures := [] }

/-! ## Calls -/

/-- Refuses a call before the chain has begun. -/
def ensureInitialized : Call Unit := do
  if !(← get).isInitialized then throw .notInitialized

/-- Fails, once, where a failure was injected. -/
def checkFailure (p : Phase) : Call Unit := do
  let a ← get
  if a.failures.contains p then
    set { a with failures := a.failures.filter (· ≠ p) }
    throw (.aborted p)

/-- A change of the ledger in the application's store. -/
def onLedger {α : Type} (x : Ledger.Action α) : Call α := fun a =>
  match x a.store with
  | .ok r s => .ok r { a with store := s }
  | .error e s => .error e { a with store := s }

/-- Begins the chain from the text of a genesis document. -/
def initChain (r : InitRequest) : Call InitResponse := do
  if (← get).isInitialized then throw .alreadyInitialized
  checkFailure .initChain
  let own := (← get).chainId
  if r.chainId ≠ own then throw (.invalidRequest (.otherChain r.chainId own))
  -- A document is read and tested before anything is written.
  let validated := do
    let doc ← GenesisDocument.ofBytes r.appState
    let _ ← doc.validate
    return doc
  match validated with
  | .error e => throw (.invalidGenesis e)
  | .ok doc =>
    let validators ← onLedger (Ledger.applyGenesis doc)
    modify fun a =>
      let store := a.store.commit
      { a with
        store := store
        consensusParams := some r.consensusParams
        -- The first block has the initial height.
        lastHeight := if r.initialHeight = 0 then 0 else r.initialHeight - 1
        lastAppHash := store.root }
    return ⟨validators, (← get).lastAppHash⟩

/-- Opens the next block. -/
def beginBlock (c : BlockContext) : Call Unit := do
  ensureInitialized
  checkFailure .beginBlock
  let a ← get
  if c.chainId ≠ a.chainId then
    throw (.invalidRequest (.blockOfOtherChain c.chainId a.chainId))
  if c.height ≠ a.nextHeight then
    throw (.invalidRequest (.wrongHeight a.nextHeight c.height))
  set { a with current := some c }

/-- The transactions from the front as long as all of them fit in a number of bytes. -/
def fitting : Int → List Tx → List Tx
  | _, [] => []
  | budget, tx :: rest =>
    if budget < tx.size then [] else tx :: fitting (budget - tx.size) rest

/-- Chooses the transactions of a proposal. -/
def prepareProposal (r : PrepareRequest) : Call (List Tx) := do
  ensureInitialized
  checkFailure .prepare
  modify fun a => { a with lastPrepare := some r }
  return fitting r.maxTxBytes.toInt r.txs

/-- The answer to a proposal for a height. -/
def judge (a : App) (height : UInt64) : ProposalStatus :=
  if height ≠ a.nextHeight || a.rejectNext then .reject else a.verdict

/-- Answers a proposal. One for another height than the next leaves a rejection that was asked for
to a later one. -/
def processProposal (r : ProcessRequest) : Call ProposalStatus := do
  ensureInitialized
  checkFailure .process
  let a ← get
  set { a with
    rejectNext := a.rejectNext && r.height ≠ a.nextHeight
    lastProcess := some r }
  return a.judge r.height

/-- The event of a block. -/
def blockEvent (r : FinalizeRequest) : Event :=
  .ofFacts "finalize_block" <|
    [("height", toString r.height.toNat), ("txs", toString r.txs.length)] ++
      (r.proposer.map fun p => ("proposer", p.text)).toList

/-- Counts the votes for the block before and executes the transactions of a block. -/
def finalizeBlock (r : FinalizeRequest) : Call FinalizeResponse := do
  ensureInitialized
  checkFailure .finalize
  let a ← get
  if r.height ≠ a.nextHeight then
    throw (.invalidRequest (.cannotFinalize r.height a.lastHeight))
  -- The votes are for the block before, so they are counted before the transactions are executed.
  onLedger (Ledger.recordVotes r.votes)
  let a ← get
  let (results, store) := Ledger.executeAll r.txs a.store
  set { a with store := store, finalized := some r.height, lastFinalize := some r }
  return ⟨[blockEvent r], results, [], store.previewRoot⟩

/-- Commits the finalized block; gives the height up to which blocks need not be kept. -/
def commit : Call UInt64 := do
  ensureInitialized
  checkFailure .commit
  let a ← get
  match a.finalized with
  | none => throw (.invalidRequest .nothingFinalized)
  | some height =>
    let store := a.store.commit
    set { a with
      store := store
      finalized := none
      lastHeight := height
      lastAppHash := store.root
      current := none }
    return 0

/-- Replaces the signing info of a known validator. -/
def setSigningInfo (i : SigningInfo) : Call Unit := do
  ensureInitialized
  checkFailure .signingInfo
  onLedger (Ledger.setSigningInfo i)

/-- Creates coins on an account. -/
def fundAccount (address : AccountAddress) (coins : Coins) : Call Unit := do
  ensureInitialized
  checkFailure .funding
  onLedger (Ledger.mint address coins)

/-- The transactions that fit are the first ones. -/
theorem fitting_isPrefix (budget : Int) (txs : List Tx) : fitting budget txs <+: txs := by
  induction txs generalizing budget with
  | nil => exact List.prefix_rfl
  | cons tx rest ih =>
    unfold fitting
    split
    · exact List.nil_prefix
    · exact List.cons_prefix_cons.2 ⟨rfl, ih _⟩

end App

end TestChain
