import TestChain.Invariant
import TestChain.Proofs.App.Moving
import TestChain.Proofs.Harness.Moments

/-!
# Failed cycles of blocks

Closing a block prepares, processes, finalizes and commits it, and may fail at any of these. The
calls before the commit do not move the application to another block, and those before the execution
do not write at all; the execution fails, after it has begun to write, only where the votes of
several validators have to be counted, and a block has at most one vote (`Run.fewVotes`). So a block
that cannot be closed commits nothing (`endBlock_commits_nothing`).
-/

namespace TestChain

/-- A vote that cannot be counted leaves the store. -/
theorem Ledger.recordVote_error {v : Vote} {s s' : Store} {e : AppError}
    (h : recordVote v s = .error e s') : s' = s := by
  unfold recordVote at h
  rcases bind_error_iff.1 h with h | ⟨i, s₁, -, h⟩
  · unfold ask at h
    cases hq : signingInfo? v.validator s with
    | ok i =>
      rw [hq] at h
      cases h
    | error e' =>
      rw [hq] at h
      cases h
      rfl
  · cases i with
    | none => cases h
    | some i => cases h

/-- A single vote that cannot be counted, or none, leaves the store. -/
theorem Ledger.recordVotes_error {votes : List Vote} (few : votes.length ≤ 1) {s s' : Store}
    {e : AppError} (h : recordVotes votes s = .error e s') : s' = s := by
  unfold recordVotes at h
  -- The first vote has nothing written before it; a second one would.
  match votes, few with
  | [], _ => cases h
  | [v], _ =>
    rcases bind_error_iff.1 h with h | ⟨_, s₁, -, h⟩
    · exact recordVote_error h
    · cases h

namespace Harness

/-- The block has no more than its proposer's vote. -/
def FewVotes (h : Harness) : Prop :=
  h.context.votes.length ≤ 1

/-- The next context has at most the proposer's vote. -/
theorem nextContext_votes (c : BlockContext) (epoch : Bool) (seconds : UInt64)
    (proposer : Option ConsensusAddress) :
    (nextContext c epoch seconds proposer).votes.length ≤ 1 := by
  unfold nextContext
  cases proposer with
  | none => exact Nat.zero_le 1
  | some p => exact Nat.le_refl 1

/-- The parts of the operations keep the number of votes small. -/
theorem fewVotes_keeps : Keeps FewVotes fun _ => FewVotes where
  refuse e h _ few := few
  openBlock epoch seconds proposer := by
    intro h few
    cases hr : openBlock epoch seconds proposer h with
    | ok u h' =>
      obtain ⟨-, a, -, rfl⟩ := openBlock_ok_iff.1 hr
      exact nextContext_votes _ _ _ _
    | error e h' =>
      rcases openBlock_error_iff.1 hr with ⟨-, rfl⟩ | ⟨-, e', a, -, -, rfl⟩
      · exact few
      · exact few
  push h b tx _ few := few
  endBlock := by
    intro h few
    cases hr : endBlock h with
    | ok f h' =>
      obtain ⟨b, a, -, -, rfl⟩ := endBlock_ok hr
      exact few
    | error e h' =>
      rcases endBlock_error hr with ⟨-, rfl⟩ | ⟨b, a, -, -, rfl⟩
      · exact few
      · exact few
  fund address coins := by
    intro h few
    unfold fund
    cases hr : call (.funding address) (App.fundAccount address coins) h with
    | ok u h' =>
      obtain ⟨a, -, rfl⟩ := call_ok_iff.1 hr
      exact few
    | error e h' =>
      obtain ⟨e', a, -, -, rfl⟩ := call_error_iff.1 hr
      exact few
  rng h _ few := few
  addKey h _ few := few

/-- At every moment of a run a block has at most one vote. -/
theorem Run.fewVotes (r : Run) : r.now.FewVotes := by
  refine r.induction (fun l around c h hok => ?_) fun op h few => ?_
  · obtain ⟨-, d, key, rng, v, app₁, app₂, registry, -, -, -, -, rfl⟩ := init_ok_iff.1 hok
    exact Nat.zero_le 1
  · exact (fewVotes_keeps.op (fun _ few => few) (fun _ _ few => few) op).stateAfter few

/-- A block failed to be closed before its commit was called for. -/
inductive BeforeCommit : HarnessError → Prop where
  /-- Its proposal was not accepted. -/
  | rejected (height : UInt64) (status : ProposalStatus) :
    BeforeCommit (.proposalRejected height status)
  /-- Its proposal was not prepared. -/
  | prepare (e : AppError) : BeforeCommit (.application .prepare e)
  /-- Its proposal was not answered. -/
  | process (e : AppError) : BeforeCommit (.application .process e)
  /-- It was not executed. -/
  | finalize (e : AppError) : BeforeCommit (.application .finalize e)

/-- A block failed to be closed before its execution was called for. -/
inductive BeforeFinalize : HarnessError → Prop where
  /-- Its proposal was not accepted. -/
  | rejected (height : UInt64) (status : ProposalStatus) :
    BeforeFinalize (.proposalRejected height status)
  /-- Its proposal was not prepared. -/
  | prepare (e : AppError) : BeforeFinalize (.application .prepare e)
  /-- Its proposal was not answered. -/
  | process (e : AppError) : BeforeFinalize (.application .process e)

/-- Two applications have the same store, and were last asked to execute the same block. -/
structure Untouched (a a' : App) : Prop where
  /-- The stores agree, the changes that are not committed included. -/
  store : a'.store = a.store
  /-- The requests agree. -/
  lastFinalize : a'.lastFinalize = a.lastFinalize

/-- A stopped call touches nothing. -/
theorem untouched_of_stopped {p : Phase} {a a' : App} {e : AppError} (h : App.Stopped p a e a') :
    Untouched a a' := by
  rcases h.state with rfl | rfl <;> exact ⟨rfl, rfl⟩

/-- What was untouched twice is untouched. -/
theorem Untouched.trans {a b c : App} (h : Untouched a b) (h' : Untouched b c) : Untouched a c :=
  ⟨h'.store.trans h.store, h'.lastFinalize.trans h.lastFinalize⟩

/-- A prepared proposal touches nothing. -/
theorem untouched_prepareProposal {r : PrepareRequest} {a a' : App} {txs : List Tx}
    (h : App.prepareProposal r a = .ok txs a') : Untouched a a' := by
  obtain ⟨-, -, rfl⟩ := App.prepareProposal_ok_iff.1 h
  exact ⟨rfl, rfl⟩

/-- An answered proposal touches nothing. -/
theorem untouched_processProposal {r : ProcessRequest} {a a' : App} {status : ProposalStatus}
    (h : App.processProposal r a = .ok status a') : Untouched a a' := by
  obtain ⟨-, -, rfl⟩ := App.processProposal_ok_iff.1 h
  exact ⟨rfl, rfl⟩

/-- An application that has accepted a proposal is untouched. -/
theorem Accepted.untouched {h : Harness} {b : PendingBlock} {a : App} (ha : h.Accepted b a) :
    Untouched h.app a := by
  obtain ⟨proposed, status, a₁, hprepare, hprocess, -⟩ := ha.steps
  exact (untouched_prepareProposal hprepare).trans (untouched_processProposal hprocess)

/-- Where closing a block fails before it is executed, the application is untouched. -/
theorem Failure.untouched {h : Harness} {b : PendingBlock} {e : HarnessError} {a : App}
    (hf : h.Failure b e a) (early : BeforeFinalize e) : Untouched h.app a := by
  cases hf with
  | prepare hprepare => exact untouched_of_stopped (App.prepareProposal_error_iff.1 hprepare)
  | process hprepare hprocess =>
    exact (untouched_prepareProposal hprepare).trans
      (untouched_of_stopped (App.processProposal_error_iff.1 hprocess))
  | rejected hprepare hprocess refused =>
    exact (untouched_prepareProposal hprepare).trans (untouched_processProposal hprocess)
  | finalize accepted hfinalize => cases early
  | commit accepted hfinalize hcommit => cases early

/-- Where closing a block of at most one vote fails before the commit, the store is as it was. -/
theorem Failure.store_eq {h : Harness} (few : h.FewVotes) {b : PendingBlock} {e : HarnessError}
    {a : App} (hf : h.Failure b e a) (early : BeforeCommit e) : a.store = h.app.store := by
  cases early with
  | rejected height status => exact (hf.untouched (.rejected height status)).store
  | prepare e => exact (hf.untouched (.prepare e)).store
  | process e => exact (hf.untouched (.process e)).store
  | finalize e =>
    cases hf with
    | finalize accepted hfinalize =>
      -- The block is executed on the store that the harness had, since preparing and answering the
      -- proposal write nothing.
      rw [← accepted.untouched.store]
      rcases App.finalizeBlock_error_iff.1 hfinalize with
        stopped | ⟨-, ⟨-, rfl, -⟩ | ⟨-, s, hvotes, rfl⟩⟩
      · exact (untouched_of_stopped stopped).store
      · rfl
      · exact Ledger.recordVotes_error few hvotes

/-- A block that cannot be closed commits nothing. The cycle is halted without a pending block, in
the context of that block, and the application is at the block at which it was. Up to the execution
the whole store stays as it was, so that every lookup answers as before, and as long as the proposal
is not accepted the application is not asked to execute anything. No test of an unchanged state
fails. -/
theorem endBlock_commits_nothing (r : Run) (b : PendingBlock) (e : HarnessError) (h' : Harness)
    (hopen : r.now.cycle = .building b) (herror : endBlock r.now = .error e h') :
    h'.cycle.state = .halted ∧ h'.cycle.pending? = none ∧ h'.context = r.now.context ∧
      h'.app.lastHeight = r.now.app.lastHeight ∧ h'.app.lastAppHash = r.now.app.lastAppHash ∧
      h'.app.store.committed = r.now.app.store.committed ∧
      h'.app.store.version = r.now.app.store.version ∧
      h'.app.store.root = r.now.app.store.root ∧
      (BeforeCommit e → h'.app.store = r.now.app.store) ∧
      (BeforeFinalize e → h'.app.lastFinalize = r.now.app.lastFinalize) ∧
      checkUnchanged (.of r.now) (.of h') = .ok () := by
  rcases endBlock_error herror with ⟨hblock, -⟩ | ⟨b', a, -, failure, rfl⟩
  · rw [hopen] at hblock
    cases hblock
  · have same := failure.sameBlock
    -- A snapshot has the height of the context and the hash of the last committed state.
    have unchanged : Snapshot.of r.now =
        Snapshot.of { r.now with app := a, cycle := .halted } := by
      unfold Snapshot.of
      rw [same.lastAppHash]
    refine ⟨rfl, rfl, rfl, same.lastHeight, same.lastAppHash, same.store.committed,
      same.store.version, same.store.root, fun early => failure.store_eq r.fewVotes early,
      fun early => (failure.untouched early).lastFinalize, ?_⟩
    unfold checkUnchanged
    rw [if_pos unchanged]

/-- A proposal that is accepted was not to be rejected. -/
theorem Accepted.unarmed {h : Harness} {b : PendingBlock} {a : App} (accepted : h.Accepted b a) :
    h.app.rejectNext = false := by
  obtain ⟨proposed, status, a₁, hprepare, hprocess, haccepted⟩ := accepted.steps
  obtain ⟨-, -, rfl⟩ := App.prepareProposal_ok_iff.1 hprepare
  obtain ⟨-, rfl, -⟩ := App.processProposal_ok_iff.1 hprocess
  cases armed : h.app.rejectNext with
  | false => rfl
  | true =>
    unfold App.judge at haccepted
    rw [armed, Bool.or_true, if_pos rfl] at haccepted
    cases haccepted

/-- A block whose proposal is to be rejected fails to be closed before its commit. -/
theorem endBlock_of_rejectNext {h : Harness} {b : PendingBlock} (building : h.cycle = .building b)
    (armed : h.app.rejectNext = true) : ∃ e h', endBlock h = .error e h' ∧ BeforeCommit e := by
  have refused {b : PendingBlock} {a : App} : ¬h.Accepted b a := fun accepted => by
    rw [accepted.unarmed] at armed
    cases armed
  cases hr : endBlock h with
  | ok f h' =>
    obtain ⟨b, a, -, closing, -⟩ := endBlock_ok hr
    obtain ⟨a₂, a₃, n, accepted, -, -⟩ := closing.steps
    exact absurd accepted refused
  | error e h' =>
    refine ⟨e, h', rfl, ?_⟩
    rcases endBlock_error hr with ⟨hblock, -⟩ | ⟨b', a, -, failure, -⟩
    · rw [building] at hblock
      cases hblock
    · cases failure with
      | prepare => exact .prepare _
      | process => exact .process _
      | rejected => exact .rejected _ _
      | finalize accepted => exact absurd accepted refused
      | commit accepted => exact absurd accepted refused

/-- So the harness is halted then. -/
theorem halted_of_rejectNext {h : Harness} {b : PendingBlock} (building : h.cycle = .building b)
    (armed : h.app.rejectNext = true) : (Op.next .endBlock h).cycle = .halted := by
  obtain ⟨e, h', herror, -⟩ := endBlock_of_rejectNext building armed
  have next : Op.next .endBlock h = h' := stateAfter_of_error (bind_of_error herror _)
  rcases endBlock_error herror with ⟨hblock, -⟩ | ⟨b', a, -, -, halted⟩
  · rw [building] at hblock
    cases hblock
  · rw [next, halted]

/-- The harness that has opened a block. -/
def opened (h : Harness) (c : BlockContext) : Harness :=
  { h with
    app := { h.app with current := some c }
    context := c
    cycle := .building (.empty c.height c.time) }

/-- An idle harness in step opens the next block for any proposer, unless a failure is injected. -/
theorem InStep.opens {h : Harness} (hs : h.InStep) (idle : h.cycle = .idle)
    (spared : h.app.failures.contains .beginBlock = false) (epoch : Bool) (seconds : UInt64)
    (proposer : Option ConsensusAddress) :
    openBlock epoch seconds proposer h =
      .ok () (h.opened (nextContext h.context epoch seconds proposer)) := by
  have chain := (nextContext_chainId h.context epoch seconds proposer).trans hs.chainId
  have height : (nextContext h.context epoch seconds proposer).height = h.app.nextHeight := by
    rw [nextContext_height, (hs.of_idle idle).2.2]
    rfl
  exact openBlock_ok_iff.2
    ⟨idle, _, App.beginBlock_ok_iff.2 ⟨⟨hs.begun, spared⟩, chain, height, rfl⟩, rfl⟩

/-- Without proposers and injected failures an idle harness in step begins the next block, which has
no proposer. -/
theorem InStep.begins {h : Harness} (hs : h.InStep) (idle : h.cycle = .idle)
    (spared : h.app.failures = []) (unproposed : h.config.proposer = .none) (epoch : Bool)
    (seconds : UInt64) :
    beginBlock epoch seconds h =
      .ok () (h.opened (nextContext h.context epoch seconds none)) := by
  have selected : selectProposer h = .ok none h := by
    unfold selectProposer
    rw [get_bind_eq, unproposed]
    rfl
  unfold beginBlock
  rw [bind_of_ok (ensureReady_of_idle idle), bind_of_ok selected]
  exact hs.opens idle (by rw [spared]; rfl) epoch seconds none

/-- A block with a transfer that has funds is rejected, and the recipient still has nothing. -/
theorem exists_failed_block :
    ∃ (r : Run) (t : Transfer) (b : PendingBlock) (e : HarnessError) (h' : Harness),
      r.now.cycle = .building b ∧ b.txs = [t.tx] ∧
      (Ledger.execute t.tx r.now.app.store).1.code = 0 ∧
      Ledger.balances t.recipient (Ledger.execute t.tx r.now.app.store).2 =
        .ok (.single 3 defaultBondDenom) ∧
      endBlock r.now = .error e h' ∧ Ledger.balances t.recipient h'.app.store = .ok .empty ∧
      h'.app.store.root = r.now.app.store.root ∧ checkUnchanged (.of r.now) (.of h') = .ok () := by
  obtain ⟨l, h, a, hinit, fresh, hne, five, nothing, -⟩ := exists_paying_start
  obtain ⟨t, -, rfl, -, -, code, -, credited, -⟩ := Ledger.exists_there_and_back hne five nothing
  -- The transfer is queued in the first block, and the proposal of that block is to be rejected.
  let r : Run := ⟨l, _, _, h, hinit, [.beginBlock false 1, .execute t.tx, .turn .rejectNext]⟩
  let c := nextContext h.context false 1 none
  let b : PendingBlock := (PendingBlock.empty c.height c.time).push t.tx
  have opens : beginBlock false 1 h = .ok () (h.opened c) :=
    (inStep_init l _ _ h hinit).begins fresh.idle fresh.failures (by rw [fresh.config]; rfl) false 1
  have opened : Op.next (.beginBlock false 1) h = h.opened c :=
    stateAfter_of_ok (bind_of_ok opens _)
  have queues : execute t.tx (h.opened c) = .ok () { h.opened c with cycle := .building b } :=
    execute_ok_iff.2 ⟨_, rfl, rfl⟩
  have now : r.now = onApp (Knob.turn .rejectNext) { h.opened c with cycle := .building b } := by
    show onApp (Knob.turn .rejectNext)
      (Op.next (.execute t.tx) (Op.next (.beginBlock false 1) h)) = _
    rw [opened]
    exact congrArg _ (stateAfter_of_ok (bind_of_ok queues _))
  have building : r.now.cycle = .building b := by rw [now]; rfl
  have store : r.now.app.store = h.app.store := by rw [now]; rfl
  obtain ⟨e, h', herror, early⟩ := endBlock_of_rejectNext building (by rw [now]; rfl)
  obtain ⟨-, -, -, -, -, -, -, root, same, -, unchanged⟩ :=
    endBlock_commits_nothing r b e h' building herror
  rw [← store] at code credited nothing
  refine ⟨r, t, b, e, h', building, rfl, code, credited, herror, ?_, root, unchanged⟩
  rw [same early]
  exact nothing

end Harness

end TestChain
