import TestChain.Proofs.App.Votes
import TestChain.Proofs.Harness.EmptyBlock
import TestChain.Proofs.Harness.Moments
import TestChain.Proofs.Harness.Stored

/-!
# Blocks that go through

A block is opened, transactions are queued in it and it is closed. In a harness that is `Calm`, with
no block open, no failure injected and no rejection to come, this succeeds for every list of
transactions as soon as a proposer is found (`Calm.block`), and leaves a calm harness. The store is
then the one on which the transactions were executed after the votes, committed.
-/

namespace TestChain

namespace Harness

/-! ## The parts of a block -/

/-- How the next block is opened. -/
structure Start where
  /-- The operator of its proposer, unless it is the one that is chosen. -/
  operator : Option ValidatorAddress
  /-- Whether it begins an epoch. -/
  epoch : Bool
  /-- The seconds from the block before. -/
  seconds : UInt64

/-- Opens the next block. -/
def Start.call (s : Start) : Call Unit :=
  match s.operator with
  | none => beginBlock s.epoch s.seconds
  | some o => beginBlockWith o s.epoch s.seconds

/-- Makes a block of transactions. -/
def Start.block (s : Start) (txs : List Tx) : Call FinalizeResponse := do
  s.call
  txs.forM execute
  endBlock

/-- A proposer is found for the block. -/
def Start.Resolves (s : Start) (c : HarnessConfig) (store : Store) : Prop :=
  match s.operator with
  | none => Chooses c store
  | some o => ∃ v, Ledger.validator? o store = .ok (some v)

/-- Without proposers none has to be found. -/
theorem Start.resolves_of_none {s : Start} {c : HarnessConfig} (hs : s.operator = none)
    (hc : c.proposer = .none) (store : Store) : s.Resolves c store := by
  unfold Start.Resolves Chooses
  rw [hs, hc]
  trivial

/-- Whether a proposer is found is a matter of the validators. -/
theorem Start.Resolves.of_same {s : Start} {c : HarnessConfig} {store store' : Store}
    (h : s.Resolves c store)
    (same : store'.scan Ledger.validatorLead = store.scan Ledger.validatorLead) :
    s.Resolves c store' := by
  unfold Start.Resolves at h ⊢
  cases ho : s.operator with
  | none =>
    rw [ho] at h
    exact Chooses.of_same h same
  | some o =>
    rw [ho] at h
    have lead := List.isPrefixOf_iff_prefix.2 (Ledger.validatorKey_begins o)
    have one : Ledger.validator? o store' = Ledger.validator? o store := by
      unfold Ledger.validator? Ledger.value? Store.read?
      rw [Store.get?_eq_of_scan_eq lead same]
    show ∃ v, Ledger.validator? o store' = .ok (some v)
    rw [one]
    exact h

/-- Where a proposer is found, opening the next block is opening it for that proposer. -/
theorem Start.call_eq (s : Start) {h : Harness} (idle : h.cycle = .idle)
    (resolves : s.Resolves h.config h.app.store) :
    ∃ p, s.call h = openBlock s.epoch s.seconds p h ∧
      (s.operator = none → h.config.proposer = .none → p = none) := by
  have ready := ensureReady_of_idle idle
  unfold Start.Resolves at resolves
  unfold Start.call
  cases ho : s.operator with
  | none =>
    rw [ho] at resolves
    obtain ⟨p, h', selected⟩ := (exists_selectProposer_iff h).2 resolves
    have same : h' = h := (stateAfter_of_ok selected).symm.trans (ReadOnly.selectProposer h)
    rw [same] at selected
    refine ⟨p, ?_, fun _ hnone => ?_⟩
    · show beginBlock s.epoch s.seconds h = _
      unfold beginBlock
      rw [bind_of_ok ready, bind_of_ok selected]
    · cases (selectProposer_ok_iff.1 selected).2 with
      | none _ => rfl
      | first hc _ => cases hnone.symm.trans hc
      | turn hc _ _ => cases hnone.symm.trans hc
      | fixed hc _ => cases hnone.symm.trans hc
  | some o =>
    rw [ho] at resolves
    obtain ⟨v, hv⟩ := resolves
    have found : consensusAddressOf o h = .ok v.consensusAddress h :=
      consensusAddressOf_ok_iff.2 ⟨v, hv, rfl, rfl⟩
    refine ⟨some v.consensusAddress, ?_, fun hnone => nomatch hnone⟩
    show beginBlockWith o s.epoch s.seconds h = _
    unfold beginBlockWith
    rw [bind_of_ok ready, bind_of_ok found]

/-- The harness that builds a block. -/
def building (h : Harness) (b : PendingBlock) : Harness :=
  { h with cycle := .building b }

/-- In an open block all transactions are queued behind those that are there. -/
theorem forM_execute {h : Harness} {b : PendingBlock} (hb : h.cycle = .building b)
    (txs : List Tx) :
    txs.forM execute h = .ok ⟨⟩ (h.building { b with txs := b.txs ++ txs }) := by
  induction txs generalizing h b with
  | nil =>
    unfold building
    rw [List.append_nil, ← hb]
    rfl
  | cons tx rest ih =>
    have first : execute tx h = .ok () (h.building (b.push tx)) :=
      execute_ok_iff.2 ⟨b, hb, rfl⟩
    show (execute tx >>= fun _ => rest.forM execute) h = _
    rw [bind_of_ok first, ih (b := b.push tx) rfl]
    unfold PendingBlock.push
    rw [List.append_assoc]
    rfl

/-- The harness that has closed a block: its application has answered the proposal, executed the
block on a store in which its votes are counted and committed it. -/
def closed (h : Harness) (b : PendingBlock) (s : Store) : Harness :=
  let prepared : App := { h.app with lastPrepare := some (h.prepareRequest b) }
  let answered := prepared.answered
    (h.processRequest b (App.fitting maxPrepareBytes.toInt b.txs))
  { h with app := (answered.executed (h.finalizeRequest b) s).sealed b.height, cycle := .idle }

/-- The open block of a harness in step is closed, unless a failure is injected, the proposal is
not accepted or the votes cannot be counted. -/
theorem InStep.closes {h : Harness} (hs : h.InStep) {b : PendingBlock}
    (building : h.cycle = .building b) (spared : h.app.failures = [])
    (accepts : h.app.answer = .accept) {s : Store}
    (counted : Ledger.recordVotes h.context.votes h.app.store = .ok () s) :
    endBlock h = .ok (App.response (h.finalizeRequest b) s) (h.closed b s) := by
  obtain ⟨hheight, -, hnext, -⟩ := hs.of_building building
  have next : b.height = h.app.nextHeight := hheight.trans hnext
  -- No call is stopped, whichever of them the application has answered before.
  have answers : ∀ (a : App), a.consensusParams = h.app.consensusParams →
      a.failures = h.app.failures → ∀ p, a.Answers p := fun a params failures p =>
    ⟨by unfold App.isInitialized; rw [params]; exact hs.begun, by rw [failures, spared]; rfl⟩
  let proposed := App.fitting maxPrepareBytes.toInt b.txs
  let a₁ : App := { h.app with lastPrepare := some (h.prepareRequest b) }
  let a₂ : App := a₁.answered (h.processRequest b proposed)
  let a₃ : App := a₂.executed (h.finalizeRequest b) s
  have prepared : App.prepareProposal (h.prepareRequest b) h.app = .ok proposed a₁ :=
    App.prepareProposal_ok_iff.2 ⟨answers h.app rfl rfl .prepare, rfl, rfl⟩
  -- The answer to the proposal is the one that was set, since it is for the next block.
  have judged : a₁.judge b.height = .accept := by
    rw [next, ← accepts]
    exact judge_nextHeight h.app
  have processed : App.processProposal (h.processRequest b proposed) a₁ = .ok .accept a₂ :=
    App.processProposal_ok_iff.2 ⟨answers a₁ rfl rfl .process, judged.symm, rfl⟩
  have finalized : App.finalizeBlock (h.finalizeRequest b) a₂ =
      .ok (App.response (h.finalizeRequest b) s) a₃ :=
    App.finalizeBlock_ok_iff.2 ⟨answers a₂ rfl rfl .finalize, next, s, counted, rfl, rfl⟩
  have committed : App.commit a₃ = .ok 0 (a₃.sealed b.height) :=
    App.commit_ok_iff.2 ⟨answers a₃ rfl rfl .commit, rfl, b.height, rfl, rfl⟩
  have accepted : ProposalStatus.accept.isAccepted = true := rfl
  rw [endBlock_eq h b building, prepared]
  dsimp only
  rw [processed]
  dsimp only
  rw [if_pos accepted, finalized]
  dsimp only
  rw [committed]
  rfl

/-! ## A whole block -/

/-- No block is open, no failure is injected and no rejection is to come. -/
structure Calm (h : Harness) : Prop where
  /-- The harness is in step. -/
  inStep : h.InStep
  /-- No block is open. -/
  idle : h.cycle = .idle
  /-- No failure is injected. -/
  spared : h.app.failures = []
  /-- Proposals are accepted. -/
  verdict : h.app.verdict = .accept
  /-- The next one is not to be rejected. -/
  unarmed : h.app.rejectNext = false
  /-- The signing infos can be read. -/
  readable : Ledger.Readable h.app.store

/-- A run without an open block, an injected failure or a rejection to come is calm. -/
theorem Run.calm (r : Run) (idle : r.now.cycle = .idle) (spared : r.now.app.failures = [])
    (verdict : r.now.app.verdict = .accept) (unarmed : r.now.app.rejectNext = false) :
    r.now.Calm :=
  ⟨r.inStep, idle, spared, verdict, unarmed, r.wellTyped.readable⟩

/-- What a block of transactions leaves, and what it answers. -/
structure Made (h : Harness) (txs : List Tx) (f : FinalizeResponse) (s : Store) (h' : Harness) :
    Prop where
  /-- The harness is calm again. -/
  calm : h'.Calm
  /-- The configuration stays. -/
  config : h'.config = h.config
  /-- Counting the votes changed nothing but signing infos. -/
  counted : h.app.store.AgreeOn Ledger.Unsigned s
  /-- The transactions were executed on what counting the votes left. -/
  results : f.results = (Ledger.executeAll txs s).1
  /-- The store is what they left, committed. -/
  store : h'.app.store = (Ledger.executeAll txs s).2.commit
  /-- The hash is that of the store. -/
  appHash : h'.app.lastAppHash = h'.app.store.root

/-- A calm harness makes a block of any transactions for which a proposer is found. Without a
proposer there are no votes to be counted. -/
theorem Calm.block {h : Harness} (calm : h.Calm) (s : Start)
    (resolves : s.Resolves h.config h.app.store) (txs : List Tx) :
    ∃ f store h', s.block txs h = .ok f h' ∧ h.Made txs f store h' ∧
      (s.operator = none → h.config.proposer = .none → store = h.app.store) := by
  obtain ⟨p, hcall, unproposed⟩ := s.call_eq calm.idle resolves
  have spared : h.app.failures.contains .beginBlock = false := by
    rw [calm.spared]
    rfl
  have hopen := calm.inStep.opens calm.idle spared s.epoch s.seconds p
  let c := nextContext h.context s.epoch s.seconds p
  let b : PendingBlock := ⟨txs, c.height, c.time⟩
  have queued : txs.forM execute (h.opened c) = .ok ⟨⟩ ((h.opened c).building b) :=
    forM_execute (h := h.opened c) (b := .empty c.height c.time) rfl txs
  have inStep : ((h.opened c).building b).InStep := by
    have opened := (inStep_openBlock s.epoch s.seconds p).of_ok calm.inStep hopen
    obtain ⟨-, -, hnext, hcurrent⟩ := opened.of_building rfl
    exact ⟨opened.begun, opened.chainId, rfl, rfl, hnext, hcurrent⟩
  obtain ⟨store, counted, readable, same⟩ :=
    Ledger.recordVotes_of_readable c.votes calm.readable
  have accepts : h.app.answer = .accept := by
    unfold App.answer
    rw [calm.unarmed, calm.verdict]
    rfl
  let h₁ := (h.opened c).building b
  have closed : endBlock h₁ = .ok (App.response (h₁.finalizeRequest b) store) (h₁.closed b store) :=
    inStep.closes rfl calm.spared accepts counted
  have made : s.block txs h = .ok (App.response (h₁.finalizeRequest b) store) (h₁.closed b store) :=
    by
      unfold Start.block
      rw [bind_of_ok (hcall.trans hopen), bind_of_ok queued]
      exact closed
  have calm' : (h₁.closed b store).Calm := by
    refine ⟨inStep_endBlock.of_ok inStep closed, rfl, calm.spared, calm.verdict, ?_, ?_⟩
    · show (h.app.rejectNext && _) = false
      rw [calm.unarmed, Bool.false_and]
    · exact (readable.of_agree (Ledger.quiet_executeAll txs store)).of_agree (.commit _)
  refine ⟨_, store, _, made, ⟨calm', rfl, same, rfl, rfl, rfl⟩, fun hnone hconfig => ?_⟩
  have votes : c.votes = [] := by
    show (nextContext h.context s.epoch s.seconds p).votes = []
    rw [unproposed hnone hconfig]
    rfl
  rw [votes] at counted
  cases counted
  rfl

/-- Without proposers a block that a calm harness makes executes its transactions on the store as it
is, and commits what they leave. -/
theorem Calm.executed {h h' : Harness} (calm : h.Calm) {s : Start} {txs : List Tx}
    {f : FinalizeResponse} (chosen : s.operator = none) (unproposed : h.config.proposer = .none)
    (hblock : s.block txs h = .ok f h') :
    f.results = (Ledger.executeAll txs h.app.store).1 ∧
      h'.app.store = (Ledger.executeAll txs h.app.store).2.commit := by
  obtain ⟨f₁, store, h₁, hmade, made, unvoted⟩ :=
    calm.block s (Start.resolves_of_none chosen unproposed _) txs
  obtain ⟨rfl, rfl⟩ := EStateM.Result.ok.inj (hblock.symm.trans hmade)
  rw [made.results, made.store, unvoted chosen unproposed]
  exact ⟨rfl, rfl⟩

/-- A block leaves the validators. -/
theorem Made.validators {h h' : Harness} {txs : List Tx} {f : FinalizeResponse} {s : Store}
    (made : h.Made txs f s h') :
    h'.app.store.scan Ledger.validatorLead = h.app.store.scan Ledger.validatorLead := by
  have counted := made.counted.scan fun k hk => Ledger.unsigned_validator hk
  have executed := (Ledger.quiet_executeAll txs s).scan fun k hk => Ledger.quiet_validator hk
  rw [made.store, Store.scan_commit, executed, counted]

/-! ## Empty blocks -/

/-- A harness makes an empty block for a proposer. -/
structure Skips (h : Harness) (p : Option ConsensusAddress) (h' : Harness) : Prop where
  /-- A block is opened for the proposer and closed. -/
  made : ∃ h₁ f, beginBlock false h.config.blockTimeSeconds h = .ok () h₁ ∧
    h₁.context = nextContext h.context false h.config.blockTimeSeconds p ∧ endBlock h₁ = .ok f h'
  /-- The harness is calm again. -/
  calm : h'.Calm
  /-- The configuration stays. -/
  config : h'.config = h.config
  /-- The context is that of the block. -/
  context : h'.context = nextContext h.context false h.config.blockTimeSeconds p
  /-- The validators stay. -/
  validators : Ledger.validators h'.app.store = Ledger.validators h.app.store

/-- A calm harness makes an empty block for the proposer that is chosen. -/
theorem Calm.exists_skips {h : Harness} (calm : h.Calm) {p : Option ConsensusAddress}
    (chosen : Chosen h.config h.context.height h.app.store p) : ∃ h', h.Skips p h' := by
  have selected : selectProposer h = .ok p h := selectProposer_ok_iff.2 ⟨rfl, chosen⟩
  let start : Start := ⟨none, false, h.config.blockTimeSeconds⟩
  have resolves : start.Resolves h.config h.app.store :=
    (exists_selectProposer_iff h).1 ⟨p, h, selected⟩
  obtain ⟨f, s, h', block, made, -⟩ := calm.block start resolves []
  obtain ⟨_, h₁, opens, rest⟩ := bind_ok_iff.1 block
  have closes : endBlock h₁ = .ok f h' := rest
  obtain ⟨q, found, opened⟩ := beginBlock_ok opens
  cases found.symm.trans selected
  obtain ⟨-, a, -, after⟩ := openBlock_ok_iff.1 opened
  have context : h₁.context = nextContext h.context false h.config.blockTimeSeconds p := by
    rw [after]
  obtain ⟨b, a', -, -, closed⟩ := endBlock_ok closes
  refine ⟨h', ⟨h₁, f, opens, context, closes⟩, made.calm, made.config, ?_, ?_⟩
  · rw [closed]
    exact context
  · unfold Ledger.validators Ledger.values
    rw [Store.readAll_eq_of_scan_eq _ made.validators]

/-- After the moments of an empty block that is made follow those from where it ends. -/
theorem Skips.moments {h h' : Harness} {p : Option ConsensusAddress} (skips : h.Skips p h') :
    Op.skipBlock.next h = h' ∧ ∃ h₁, h₁.context.proposer = p ∧ (∃ f, endBlock h₁ = .ok f h') ∧
      (Moment.mk (.beginBlock false h.config.blockTimeSeconds) h).opening? =
        some h.config.blockTimeSeconds ∧
      ∀ rest, Harness.moments (.skipBlock :: rest) h =
        ⟨.beginBlock false h.config.blockTimeSeconds, h⟩ :: ⟨.endBlock, h₁⟩ ::
          Harness.moments rest h' := by
  obtain ⟨h₁, f, opens, context, closes⟩ := skips.made
  obtain ⟨succeeds, -⟩ :=
    Moment.of_ok (.beginBlock false h.config.blockTimeSeconds) (bind_of_ok opens _)
  have after : Op.endBlock.next h₁ = h' := stateAfter_of_ok (bind_of_ok closes _)
  refine ⟨(next_skipBlock opens).trans after, h₁, ?_, ⟨f, closes⟩,
    Moment.opening?_eq_some_iff.2 ⟨succeeds, rfl⟩, fun rest => ?_⟩
  · rw [context]
    exact nextContext_proposer _ _ _ _
  · rw [moments_skipBlock opens, after]

/-- A harness that opens a block and queues transactions builds a block of them. -/
theorem afterAll_executes {h h₁ : Harness} {b : PendingBlock} {epoch : Bool} {seconds : UInt64}
    (opens : beginBlock epoch seconds h = .ok () h₁) (hb : h₁.cycle = .building b) (txs : List Tx) :
    afterAll (.beginBlock epoch seconds :: txs.map .execute) h =
      h₁.building { b with txs := b.txs ++ txs } := by
  have opened : Op.next (.beginBlock epoch seconds) h = h₁ :=
    stateAfter_of_ok (bind_of_ok opens _)
  show afterAll (txs.map .execute) (Op.next (.beginBlock epoch seconds) h) = _
  rw [opened]
  clear opens opened
  induction txs generalizing h₁ b with
  | nil =>
    unfold building
    rw [List.append_nil, ← hb]
    rfl
  | cons tx rest ih =>
    have queues : execute tx h₁ = .ok () (h₁.building (b.push tx)) := execute_ok_iff.2 ⟨b, hb, rfl⟩
    have next : Op.next (.execute tx) h₁ = h₁.building (b.push tx) :=
      stateAfter_of_ok (bind_of_ok queues _)
    show afterAll (rest.map .execute) (Op.next (.execute tx) h₁) = _
    rw [next, ih (b := b.push tx) rfl]
    unfold PendingBlock.push
    rw [List.append_assoc]
    rfl

/-! ## Runs to begin with -/

/-- A run begins without an open block, an injected failure or a rejection to come, and without
proposers. An account in it has five coins, and another address has nothing, not even an account. -/
theorem exists_paying_run :
    ∃ (r : Run) (b : AccountAddress), r.ops = [] ∧ r.now.cycle = .idle ∧
      r.now.config.proposer = .none ∧ r.now.app.failures = [] ∧ r.now.app.verdict = .accept ∧
      r.now.app.rejectNext = false ∧ b ≠ seventeens ∧
      Ledger.balances seventeens r.now.app.store = .ok (.single 5 defaultBondDenom) ∧
      Ledger.balances b r.now.app.store = .ok .empty ∧
      Ledger.account? b r.now.app.store = .ok none := by
  obtain ⟨l, h, b, hinit, fresh, hne, five, nothing, new⟩ := exists_paying_start
  refine ⟨⟨l, _, _, h, hinit, []⟩, b, rfl, fresh.idle, ?_, fresh.failures, fresh.verdict,
    fresh.unarmed, hne, five, nothing, new⟩
  show h.config.proposer = .none
  rw [fresh.config]
  rfl

/-- A calm harness lets some validators propose in turn, at a height. -/
structure Seats (h : Harness) (vs : List Validator) (height : UInt64) : Prop where
  /-- It is calm. -/
  calm : h.Calm
  /-- Proposers take turns. -/
  robin : h.config.proposer = .roundRobin
  /-- These are the validators. -/
  validators : Ledger.validators h.app.store = .ok vs
  /-- This is the height. -/
  height : h.context.height = height

/-- Such a harness makes an empty block for the validator whose turn it is. -/
theorem Seats.exists_skips {h : Harness} {vs : List Validator} {height : UInt64}
    (seats : h.Seats vs height) {v : Validator} (turn : inTurn? vs height = some v) :
    ∃ h', h.Skips (some v.consensusAddress) h' ∧ h'.Seats vs (height + 1) := by
  rw [← seats.height] at turn
  obtain ⟨h', skips⟩ := seats.calm.exists_skips (.turn seats.robin seats.validators turn)
  refine ⟨h', skips, skips.calm, skips.config ▸ seats.robin,
    skips.validators ▸ seats.validators, ?_⟩
  rw [skips.context, nextContext_height, seats.height]

/-- A run begins in which the validators of the committee propose in turn. -/
theorem exists_seats :
    ∃ r : Run, r.ops = [] ∧ r.config.proposer = .roundRobin ∧ r.begun.Seats committee 0 := by
  obtain ⟨l, h, hinit, fresh, validators⟩ := exists_committee
  let r : Run := ⟨l, _, _, h, hinit, []⟩
  have context : h.context = .genesis r.config.chainId r.genesisTime := r.begun_context.2
  refine ⟨r, rfl, rfl, r.calm fresh.idle fresh.failures fresh.verdict fresh.unarmed, ?_, validators,
    ?_⟩
  · show h.config.proposer = .roundRobin
    rw [fresh.config]
    rfl
  · show h.context.height = 0
    rw [context]
    rfl

end Harness

end TestChain
