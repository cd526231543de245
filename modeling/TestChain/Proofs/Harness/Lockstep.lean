import TestChain.Proofs.Harness.Run

/-!
# Driver and application in lockstep

The cycle of blocks, the context of the last block and the application are three accounts of where
the chain is. `InStep` says that they agree; every part of an operation keeps it, whether it
succeeds or not (`inStep_keeps`), so it holds at every moment of a run (`Run.inStep`). The main
theorem `lockstep` reads it off for each state of the cycle, and draws the consequence that the
application never finds fault with what the harness asks of it.
-/

namespace TestChain

/-- An error that finds fault with the request itself. -/
def AppError.Misfit (e : AppError) : Prop :=
  ∃ f, e = .invalidRequest f

/-- A stopped call does not find fault with the request. -/
theorem App.Stopped.fits {p : Phase} {a a' : App} {e : AppError} (h : App.Stopped p a e a') :
    ¬e.Misfit := by
  rintro ⟨f, rfl⟩
  cases h

/-- The answer that an application gives to a proposal for the next block. -/
def App.answer (a : App) : ProposalStatus :=
  if a.rejectNext then .reject else a.verdict

namespace Ledger

/-- An action whose errors do not find fault with the request. -/
def Fits {α : Type} (x : Action α) : Prop :=
  Ends (fun _ => True) x (fun _ _ => True) fun e _ => ¬e.Misfit

/-- Asking for what is decoded does not. -/
theorem Fits.ask {α : Type} {q : Query α} (hq : Harness.Decodes q) : Fits (Ledger.ask q) := by
  intro s _
  unfold Ledger.ask
  cases hr : q s with
  | ok a => trivial
  | error e =>
    obtain ⟨d, rfl⟩ := hq s e hr
    rintro ⟨f, h⟩
    cases h

/-- The test of denominations does not. -/
theorem Fits.checkCoins (cs : Coins) : Fits (Ledger.checkCoins cs) := by
  intro s _
  unfold Ledger.checkCoins
  cases cs.check with
  | ok u => trivial
  | error e =>
    rintro ⟨f, h⟩
    cases h

/-- An action that cannot fail does not. -/
theorem Fits.put {α : Type} (c : Codec α) (k : Bytes) (a : α) : Fits (Ledger.put c k a) :=
  fun _ _ => trivial

/-- Opening an account does not. -/
theorem Fits.ensureAccount (a : AccountAddress) : Fits (Ledger.ensureAccount a) := by
  unfold Ledger.ensureAccount
  refine (Ends.get (Q := fun _ _ => True) fun _ _ => trivial).bind fun s => ?_
  split
  · exact Fits.put _ _ _
  · exact fun _ _ => trivial

/-- Creating coins does not. -/
theorem Fits.mint (a : AccountAddress) (cs : Coins) : Fits (Ledger.mint a cs) := by
  unfold Ledger.mint
  refine (Fits.checkCoins cs).bind fun _ => (Fits.ask ?_).bind fun held => (Fits.put _ _ _).bind
    fun _ => (Fits.ask ?_).bind fun total => (Fits.put _ _ _).bind fun _ => Fits.ensureAccount a
  · exact (Harness.Decodes.value? _ _).map _
  · exact (Harness.Decodes.value? _ _).map _

/-- Counting votes does not. -/
theorem Fits.recordVotes (votes : List Vote) : Fits (Ledger.recordVotes votes) := by
  refine Ends.forM fun v _ => ?_
  unfold Ledger.recordVote
  refine (Fits.ask (Harness.Decodes.value? _ _)).bind fun i => ?_
  cases i with
  | none => exact fun _ _ => trivial
  | some i => exact Fits.put _ _ _

end Ledger

namespace Harness

/-- An error that passes on that the application found fault with a request. -/
inductive Misfit : HarnessError → Prop where
  /-- In a phase of the cycle of blocks. -/
  | application (p : Phase) (f : RequestFault) : Misfit (.application p (.invalidRequest f))
  /-- When an account was to be credited. -/
  | funding (address : AccountAddress) (f : RequestFault) :
    Misfit (.funding address (.invalidRequest f))

/-- The application stands where the cycle of blocks does. -/
def Aligned (h : Harness) : Prop :=
  match h.cycle with
  | .idle =>
    h.app.current = none ∧ h.app.finalized = none ∧ h.context.height = h.app.lastHeight
  | .building b =>
    b.height = h.context.height ∧ b.time = h.context.time ∧
      h.context.height = h.app.lastHeight + 1 ∧ h.app.current = some h.context
  | .halted =>
    h.context.height = h.app.lastHeight ∨ h.context.height = h.app.lastHeight + 1

/-- The cycle of blocks, the context and the application agree on where the chain is. -/
structure InStep (h : Harness) : Prop where
  /-- The chain has begun. -/
  begun : h.app.isInitialized = true
  /-- The context is of the application's chain. -/
  chainId : h.context.chainId = h.app.chainId
  /-- The application stands where the cycle does. -/
  aligned : h.Aligned

/-- Where an operation may end with an error: in step, without fault found with a request. -/
def InStepWith (e : HarnessError) (h : Harness) : Prop :=
  h.InStep ∧ ¬Misfit e

/-- The next context is of the same chain. -/
theorem nextContext_chainId (c : BlockContext) (epoch : Bool) (seconds : UInt64)
    (proposer : Option ConsensusAddress) :
    (nextContext c epoch seconds proposer).chainId = c.chainId := by
  unfold nextContext
  cases proposer with
  | none => rfl
  | some p => rfl

/-- The next context is one block higher. -/
theorem nextContext_height (c : BlockContext) (epoch : Bool) (seconds : UInt64)
    (proposer : Option ConsensusAddress) :
    (nextContext c epoch seconds proposer).height = c.height + 1 := by
  unfold nextContext
  cases proposer with
  | none => rfl
  | some p => rfl

/-- The next context has the proposer that it is made for. -/
theorem nextContext_proposer (c : BlockContext) (epoch : Bool) (seconds : UInt64)
    (proposer : Option ConsensusAddress) :
    (nextContext c epoch seconds proposer).proposer = proposer := by
  unfold nextContext
  cases proposer with
  | none => rfl
  | some p => rfl

/-- A refusal does not find fault with a request to the application. -/
theorem Refusal.fits {e : HarnessError} (h : Refusal e) : ¬Misfit e := by
  intro hm
  cases hm with
  | application p f => cases h
  | funding address f => cases h

/-- An error of a phase finds fault with a request if the application's error does. -/
theorem not_misfit_application {p : Phase} {e : AppError} (h : ¬e.Misfit) :
    ¬Misfit (.application p e) := by
  intro hm
  cases hm with
  | application p f => exact h ⟨f, rfl⟩

/-- An idle harness in step is one whose application has no block. -/
theorem InStep.of_idle {h : Harness} (hs : h.InStep) (hc : h.cycle = .idle) :
    h.app.current = none ∧ h.app.finalized = none ∧ h.context.height = h.app.lastHeight := by
  have := hs.aligned
  unfold Aligned at this
  rw [hc] at this
  exact this

/-- A harness in step that builds a block is one whose application has opened it. -/
theorem InStep.of_building {h : Harness} (hs : h.InStep) {b : PendingBlock}
    (hc : h.cycle = .building b) :
    b.height = h.context.height ∧ b.time = h.context.time ∧
      h.context.height = h.app.lastHeight + 1 ∧ h.app.current = some h.context := by
  have := hs.aligned
  unfold Aligned at this
  rw [hc] at this
  exact this

/-- A harness in step is at the application's last block or at the one after it. -/
theorem InStep.height {h : Harness} (hs : h.InStep) :
    h.context.height = h.app.lastHeight ∨ h.context.height = h.app.lastHeight + 1 := by
  cases hc : h.cycle with
  | idle => exact .inl (hs.of_idle hc).2.2
  | building b => exact .inr (hs.of_building hc).2.2.1
  | halted =>
    have := hs.aligned
    unfold Aligned at this
    rw [hc] at this
    exact this

/-- A harness in step that is halted with its application at the same block is in step. -/
theorem InStep.halted {h : Harness} (hs : h.InStep) {a : App} (ha : h.app.SameBlock a) :
    InStep { h with app := a, cycle := .halted } where
  begun := ha.isInitialized.trans hs.begun
  chainId := hs.chainId.trans ha.chainId.symm
  aligned := by
    show h.context.height = a.lastHeight ∨ h.context.height = a.lastHeight + 1
    rw [ha.lastHeight]
    exact hs.height

/-- Opening a block keeps the harness in step. -/
theorem inStep_openBlock (epoch : Bool) (seconds : UInt64) (proposer : Option ConsensusAddress) :
    Ends InStep (openBlock epoch seconds proposer) (fun _ => InStep) InStepWith := by
  intro h hs
  cases hr : openBlock epoch seconds proposer h with
  | ok u h' =>
    obtain ⟨hc, a, ha, rfl⟩ := openBlock_ok_iff.1 hr
    obtain ⟨-, -, -, rfl⟩ := App.beginBlock_ok_iff.1 ha
    -- The new block has the height and the time of the new context by definition; what is left is
    -- that the context is of this chain and one block above the last committed one.
    refine ⟨hs.begun, ?_, rfl, rfl, ?_, rfl⟩
    · exact (nextContext_chainId _ _ _ _).trans hs.chainId
    · show (nextContext h.context epoch seconds proposer).height = h.app.lastHeight + 1
      rw [nextContext_height, (hs.of_idle hc).2.2]
  | error e h' =>
    rcases openBlock_error_iff.1 hr with ⟨hidle, rfl⟩ | ⟨hc, e', a, ha, rfl, rfl⟩
    · exact ⟨hs, (Refusal.of_ensureIdle hidle).fits⟩
    · -- A context is refused only for its chain or its height, and both are the right ones.
      refine ⟨hs.halted ((App.sameBlock_beginBlock _ _).of_error ha), not_misfit_application ?_⟩
      rcases App.beginBlock_error_iff.1 ha with stopped | ⟨-, -, ⟨hchain, -⟩ | ⟨-, hheight, -⟩⟩
      · exact stopped.fits
      · exact absurd ((nextContext_chainId _ _ _ _).trans hs.chainId) hchain
      · refine absurd ?_ hheight
        rw [nextContext_height, (hs.of_idle hc).2.2]
        rfl

/-- An application that has accepted a proposal is at the block at which it was. -/
theorem Accepted.sameBlock {h : Harness} {b : PendingBlock} {a : App} (ha : h.Accepted b a) :
    h.app.SameBlock a := by
  obtain ⟨proposed, status, a₁, hprepare, hprocess, -⟩ := ha.steps
  have first := (App.sameBlock_prepareProposal _ _).of_ok hprepare
  exact first.trans ((App.sameBlock_processProposal _ _).of_ok hprocess)

/-- Where closing a block fails, the application is at the block at which it was. -/
theorem Failure.sameBlock {h : Harness} {b : PendingBlock} {e : HarnessError} {a : App}
    (hf : h.Failure b e a) : h.app.SameBlock a := by
  cases hf with
  | prepare hprepare => exact (App.sameBlock_prepareProposal _ _).of_error hprepare
  | process hprepare hprocess =>
    have first := (App.sameBlock_prepareProposal _ _).of_ok hprepare
    exact first.trans ((App.sameBlock_processProposal _ _).of_error hprocess)
  | rejected hprepare hprocess refused =>
    have first := (App.sameBlock_prepareProposal _ _).of_ok hprepare
    exact first.trans ((App.sameBlock_processProposal _ _).of_ok hprocess)
  | finalize accepted hfinalize =>
    exact accepted.sameBlock.trans ((App.sameBlock_finalizeBlock _ _).of_error hfinalize)
  | commit accepted hfinalize hcommit =>
    have executed := (App.sameBlock_finalizeBlock _ _).of_ok hfinalize
    refine (accepted.sameBlock.trans executed).trans ?_
    -- A commit that fails has written nothing yet.
    rcases App.commit_error_iff.1 hcommit with stopped | ⟨-, -, rfl, -⟩
    · exact stopped.sameBlock
    · exact .refl _

/-- Where closing the block of a harness in step fails, no fault was found with a request. -/
theorem Failure.fits {h : Harness} (hs : h.InStep) {b : PendingBlock} (hc : h.cycle = .building b)
    {e : HarnessError} {a : App} (hf : h.Failure b e a) : ¬Misfit e := by
  cases hf with
  | prepare hprepare =>
    exact not_misfit_application (App.prepareProposal_error_iff.1 hprepare).fits
  | process hprepare hprocess =>
    exact not_misfit_application (App.processProposal_error_iff.1 hprocess).fits
  | rejected hprepare hprocess hs => exact fun hm => nomatch hm
  | @finalize e a₂ a accepted hfinalize =>
    refine not_misfit_application ?_
    rcases App.finalizeBlock_error_iff.1 hfinalize with
      stopped | ⟨-, ⟨hheight, -, -⟩ | ⟨-, s, hvotes, -⟩⟩
    · exact stopped.fits
    · -- The block has the height after the last committed one, which the proposal has not moved.
      refine absurd ?_ hheight
      obtain ⟨hb, -, hnext, -⟩ := hs.of_building hc
      show b.height = a₂.nextHeight
      rw [accepted.sameBlock.nextHeight, hb, hnext]
      rfl
    · exact (Ledger.Fits.recordVotes _).of_error trivial hvotes
  | @commit f e a₂ a₃ a accepted hfinalize hcommit =>
    refine not_misfit_application ?_
    rcases App.commit_error_iff.1 hcommit with stopped | ⟨-, hnone, -, -⟩
    · exact stopped.fits
    · obtain ⟨-, -, s, -, -, rfl⟩ := App.finalizeBlock_ok_iff.1 hfinalize
      cases hnone

/-- Closing a block keeps the harness in step. -/
theorem inStep_endBlock : Ends InStep endBlock (fun _ => InStep) InStepWith := by
  intro h hs
  cases hr : endBlock h with
  | ok f h' =>
    -- A block that is closed is committed with its own height, which is that of the context.
    obtain ⟨b, a, hc, closing, rfl⟩ := endBlock_ok hr
    obtain ⟨a₂, a₃, n, accepted, hfinalize, hcommit⟩ := closing.steps
    obtain ⟨-, -, s, -, -, rfl⟩ := App.finalizeBlock_ok_iff.1 hfinalize
    obtain ⟨-, -, height, hheight, rfl⟩ := App.commit_ok_iff.1 hcommit
    cases hheight
    refine ⟨accepted.sameBlock.isInitialized.trans hs.begun, ?_, rfl, rfl, ?_⟩
    · exact hs.chainId.trans accepted.sameBlock.chainId.symm
    · exact (hs.of_building hc).1.symm
  | error e h' =>
    rcases endBlock_error hr with ⟨hblock, rfl⟩ | ⟨b, a, hc, failure, rfl⟩
    · exact ⟨hs, (Refusal.of_block hblock).fits⟩
    · exact ⟨hs.halted failure.sameBlock, failure.fits hs hc⟩

/-- A harness in step stays so with another application at the same block, as far as that has the
same blocks in progress. -/
theorem InStep.onApp {h : Harness} (hs : h.InStep) {a : App} (ha : h.app.SameBlock a)
    (hcurrent : a.current = h.app.current) (hfinalized : a.finalized = h.app.finalized) :
    InStep { h with app := a } where
  begun := ha.isInitialized.trans hs.begun
  chainId := hs.chainId.trans ha.chainId.symm
  aligned := by
    have := hs.aligned
    unfold Aligned at this ⊢
    dsimp only
    rw [hcurrent, hfinalized, ha.lastHeight]
    exact this

/-- Crediting an account keeps the harness in step. -/
theorem inStep_fund (address : AccountAddress) (coins : Coins) :
    Ends InStep (fund address coins) (fun _ => InStep) InStepWith := by
  intro h hs
  have same := App.sameBlock_fundAccount address coins h.app
  unfold fund
  cases hr : call (.funding address) (App.fundAccount address coins) h with
  | ok u h' =>
    obtain ⟨a, ha, rfl⟩ := call_ok_iff.1 hr
    have left := same.of_ok ha
    obtain ⟨-, s, -, rfl⟩ := App.fundAccount_ok_iff.1 ha
    exact hs.onApp left rfl rfl
  | error e h' =>
    obtain ⟨e', a, ha, rfl, rfl⟩ := call_error_iff.1 hr
    have left := same.of_error ha
    rcases App.fundAccount_error_iff.1 ha with stopped | ⟨-, s, hmint, rfl⟩
    -- A stopped call uses up an injected failure at most.
    · have fits := stopped.fits
      refine ⟨?_, fun hm => ?_⟩
      · rcases stopped.state with rfl | rfl
        · exact hs
        · exact hs.onApp left rfl rfl
      · cases hm with
        | funding address f => exact fits ⟨f, rfl⟩
    · refine ⟨hs.onApp left rfl rfl, fun hm => ?_⟩
      have fits := (Ledger.Fits.mint address coins).of_error trivial hmint
      cases hm with
      | funding address f => exact fits ⟨f, rfl⟩

/-- The parts of the operations keep the harness in step. -/
theorem inStep_keeps : Keeps InStep InStepWith where
  refuse e h he hs := ⟨hs, he.fits⟩
  openBlock := inStep_openBlock
  push h b tx hc hs := by
    obtain ⟨hheight, htime, hnext, hcurrent⟩ := hs.of_building hc
    exact ⟨hs.begun, hs.chainId, hheight, htime, hnext, hcurrent⟩
  endBlock := inStep_endBlock
  fund := inStep_fund
  rng h rng hs := ⟨hs.begun, hs.chainId, hs.aligned⟩
  addKey h key hs := ⟨hs.begun, hs.chainId, hs.aligned⟩

/-- What a test sets in the application leaves the committed block. -/
theorem Knob.sameBlock_turn (k : Knob) (a : App) : a.SameBlock (k.turn a) := by
  cases k <;> exact ⟨rfl, rfl, rfl, rfl, .refl _⟩

/-- What a test sets in the application keeps the harness in step. -/
theorem inStep_turn (k : Knob) (h : Harness) (hs : h.InStep) : (onApp k.turn h).InStep := by
  have same := k.sameBlock_turn h.app
  cases k <;> exact hs.onApp same rfl rfl

/-- Every operation ends in step, and never because the application finds fault with a request. -/
theorem inStep_op (op : Op) : Ends InStep op.call (fun _ => InStep) InStepWith :=
  inStep_keeps.op (fun _ hs => hs) inStep_turn op

/-- A harness begins in step. -/
theorem inStep_init (l : App.Life) (around : Surroundings) (c : HarnessConfig) (h : Harness)
    (hok : init around l.now c = .ok h) : h.InStep := by
  obtain ⟨-, d, key, rng, v, app₁, app₂, registry, -, hinit, hseed, -, rfl⟩ := init_ok_iff.1 hok
  obtain ⟨hi, -, hchain, d', o, -, -, rfl, -⟩ := App.initChain_ok_iff.1 hinit
  obtain ⟨s, rfl⟩ := seedSigningInfos_ok hseed
  -- The application was blank, since its chain had not begun.
  have blank := l.blank hi
  refine ⟨rfl, hchain, blank.current, blank.finalized, ?_⟩
  show (0 : UInt64) = if (1 : UInt64) = 0 then 0 else 1 - 1
  decide

/-- At every moment of a run the harness is in step. -/
theorem Run.inStep (r : Run) : r.now.InStep := by
  refine r.induction inStep_init fun op h hs => ?_
  unfold Op.next
  exact stateAfter_cases (fun _ _ hok => (inStep_op op).of_ok hs hok)
    fun _ _ herror => ((inStep_op op).of_error hs herror).1

/-! ## Proposals -/

/-- A proposal for the next block gets the answer that was set. -/
theorem judge_nextHeight (a : App) : a.judge a.nextHeight = a.answer := by
  unfold App.judge App.answer
  simp

/-- The harness is in step and its application gives a certain answer to proposals. -/
def Answering (status : ProposalStatus) (h : Harness) : Prop :=
  h.InStep ∧ h.app.answer = status

/-- A proposal is rejected only with a certain answer. -/
def RejectedWith (status : ProposalStatus) (e : HarnessError) : Prop :=
  ∀ height given, e = .proposalRejected height given → given = status

/-- The application of a harness in step judges the proposal of the open block by what was set. -/
theorem processed_status {h : Harness} (hs : h.InStep) {b : PendingBlock}
    (hc : h.cycle = .building b) {proposed : List Tx} {status : ProposalStatus} {a₁ a : App}
    (hprepare : App.prepareProposal (h.prepareRequest b) h.app = .ok proposed a₁)
    (hprocess : App.processProposal (h.processRequest b proposed) a₁ = .ok status a) :
    status = h.app.answer := by
  obtain ⟨-, -, rfl⟩ := App.prepareProposal_ok_iff.1 hprepare
  obtain ⟨-, rfl, -⟩ := App.processProposal_ok_iff.1 hprocess
  obtain ⟨hb, -, hnext, -⟩ := hs.of_building hc
  have height : (h.processRequest b proposed).height = h.app.nextHeight := hb.trans hnext
  rw [← judge_nextHeight, ← height]
  rfl

/-- Closing a block keeps the answer to proposals, and rejects only with that answer. -/
theorem answering_endBlock (status : ProposalStatus) :
    Ends (Answering status) endBlock (fun _ => Answering status)
      fun e _ => RejectedWith status e := by
  rintro h ⟨hs, hstatus⟩
  cases hr : endBlock h with
  | ok f h' =>
    refine ⟨inStep_endBlock.of_ok hs hr, ?_⟩
    obtain ⟨b, a, hc, closing, rfl⟩ := endBlock_ok hr
    obtain ⟨a₂, a₃, n, accepted, hfinalize, hcommit⟩ := closing.steps
    obtain ⟨proposed, given, a₁, hprepare, hprocess, hgiven⟩ := accepted.steps
    have answer := processed_status hs hc hprepare hprocess
    -- Had a rejection been asked for, the proposal would not have been accepted.
    have spared : h.app.rejectNext = false := by
      cases hreject : h.app.rejectNext with
      | false => rfl
      | true =>
        unfold App.answer at answer
        rw [hreject, if_pos rfl] at answer
        rw [answer] at hgiven
        cases hgiven
    obtain ⟨-, -, rfl⟩ := App.prepareProposal_ok_iff.1 hprepare
    obtain ⟨-, -, rfl⟩ := App.processProposal_ok_iff.1 hprocess
    obtain ⟨-, -, s, -, -, rfl⟩ := App.finalizeBlock_ok_iff.1 hfinalize
    obtain ⟨-, -, height, -, rfl⟩ := App.commit_ok_iff.1 hcommit
    rw [← hstatus]
    unfold App.answer App.sealed App.executed App.answered
    simp [spared]
  | error e h' =>
    rintro height given rfl
    rcases endBlock_error hr with ⟨hblock, -⟩ | ⟨b, a, hc, failure, -⟩
    · cases Refusal.of_block hblock
    · cases failure with
      | rejected hprepare hprocess refused =>
        exact (processed_status hs hc hprepare hprocess).trans hstatus

/-- The parts of the operations keep the answer to proposals, and reject only with that answer. -/
theorem answering_keeps (status : ProposalStatus) :
    Keeps (Answering status) fun e _ => RejectedWith status e where
  refuse e h he hs := by
    rintro height given rfl
    cases he
  openBlock epoch seconds proposer := by
    rintro h ⟨hs, hstatus⟩
    cases hr : openBlock epoch seconds proposer h with
    | ok u h' =>
      refine ⟨(inStep_openBlock epoch seconds proposer).of_ok hs hr, ?_⟩
      obtain ⟨-, a, ha, rfl⟩ := openBlock_ok_iff.1 hr
      obtain ⟨-, -, -, rfl⟩ := App.beginBlock_ok_iff.1 ha
      exact hstatus
    | error e h' =>
      rintro height given rfl
      rcases openBlock_error_iff.1 hr with ⟨hidle, -⟩ | ⟨-, e', a, -, he, -⟩
      · cases Refusal.of_ensureIdle hidle
      · cases he
  push h b tx hc hs := ⟨inStep_keeps.push h b tx hc hs.1, hs.2⟩
  endBlock := answering_endBlock status
  fund address coins := by
    rintro h ⟨hs, hstatus⟩
    cases hr : fund address coins h with
    | ok u h' =>
      refine ⟨(inStep_fund address coins).of_ok hs hr, ?_⟩
      unfold fund at hr
      obtain ⟨a, ha, rfl⟩ := call_ok_iff.1 hr
      obtain ⟨-, s, -, rfl⟩ := App.fundAccount_ok_iff.1 ha
      exact hstatus
    | error e h' =>
      rintro height given rfl
      unfold fund at hr
      obtain ⟨e', a, -, he, -⟩ := call_error_iff.1 hr
      cases he
  rng h rng hs := ⟨inStep_keeps.rng h rng hs.1, hs.2⟩
  addKey h key hs := ⟨inStep_keeps.addKey h key hs.1, hs.2⟩

/-- An operation rejects a proposal only with the answer that was set before it. -/
theorem answering_op (status : ProposalStatus) (op : Op) :
    Ends (Answering status) op.call (fun _ _ => True) fun e _ => RejectedWith status e :=
  (answering_keeps status).op (fun _ _ => trivial) (fun _ _ _ => trivial) op

/-! ## The main theorem -/

/-- What each state of the cycle of blocks says of the pending block, the context and the
application. -/
structure Lockstep (h : Harness) : Prop where
  /-- An idle harness has no pending block, and its application no block at all. -/
  idle : h.cycle.state = .idle →
    h.cycle.pending? = none ∧ h.app.current = none ∧ h.app.finalized = none ∧
      h.context.height = h.app.lastHeight
  /-- A harness that takes transactions has the pending block that its application has opened. -/
  accumulating : h.cycle.state = .accumulating →
    ∃ b, h.cycle.pending? = some b ∧ b.height = h.context.height ∧
      h.context.height = h.app.lastHeight + 1 ∧ b.time = h.context.time ∧
      h.app.current = some h.context
  /-- A halted harness has no pending block, and is at its application's block or at the next. -/
  halted : h.cycle.state = .halted →
    h.cycle.pending? = none ∧
      (h.context.height = h.app.lastHeight ∨ h.context.height = h.app.lastHeight + 1)

/-- What holds of a harness in step, for each state of its cycle. -/
theorem InStep.inLockstep {h : Harness} (hs : h.InStep) : h.Lockstep where
  idle hc := by
    cases hcycle : h.cycle with
    | idle => exact ⟨rfl, hs.of_idle hcycle⟩
    | building b => rw [hcycle] at hc; cases hc
    | halted => rw [hcycle] at hc; cases hc
  accumulating hc := by
    cases hcycle : h.cycle with
    | idle => rw [hcycle] at hc; cases hc
    | building b =>
      obtain ⟨hheight, htime, hnext, hcurrent⟩ := hs.of_building hcycle
      exact ⟨b, rfl, hheight, hnext, htime, hcurrent⟩
    | halted => rw [hcycle] at hc; cases hc
  halted hc := by
    cases hcycle : h.cycle with
    | idle => rw [hcycle] at hc; cases hc
    | building b => rw [hcycle] at hc; cases hc
    | halted => exact ⟨rfl, hs.height⟩

/-- At every moment of a run driver and application are in lockstep. So no operation ever fails
because the application finds fault with a height, a chain or a missing block, and a proposal is
rejected only as it was set. -/
theorem lockstep (r : Run) :
    r.now.Lockstep ∧
      ∀ op e h', Op.call op r.now = .error e h' →
        ¬Misfit e ∧ ∀ height status, e = .proposalRejected height status →
          status = r.now.app.answer := by
  refine ⟨r.inStep.inLockstep, fun op e h' herror => ⟨?_, ?_⟩⟩
  · exact ((inStep_op op).of_error r.inStep herror).2
  · exact (answering_op _ op).of_error ⟨r.inStep, rfl⟩ herror

end Harness

end TestChain
