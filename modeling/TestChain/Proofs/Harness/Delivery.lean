import TestChain.Proofs.Harness.Blocks

/-!
# What becomes of queued transactions

The transactions that were queued since the last block was opened are those of the open block, in
order (`Run.holds`), so they are what the application is given when the block is closed: to prepare
a proposal, which may leave some out, and, whatever the proposal has, to execute them. Each of them
has its result, that of executing it after the votes and the transactions before it
(`Delivered`). The main theorem is `queued_delivered`.
-/

namespace TestChain.Harness

/-! ## The queue -/

/-- The queued transactions after an operation that succeeds. -/
def Op.queue : Op → List Tx → List Tx
  | .beginBlock _ _, _ => []
  | .beginBlockWith _ _ _, _ => []
  | .execute tx, txs => txs ++ [tx]
  | _, txs => txs

/-- The queued transactions after a moment: an operation that fails changes nothing. -/
def Moment.queue (m : Moment) (txs : List Tx) : List Tx :=
  if m.succeeds then m.op.queue txs else txs

/-- The transactions that were queued since the last block was opened, in order. -/
def queued (ms : List Moment) : List Tx :=
  ms.foldl (fun txs m => m.queue txs) []

/-- One moment more goes on with the queue. -/
theorem queued_snoc (past : List Moment) (m : Moment) :
    queued (past ++ [m]) = m.queue (queued past) := by
  unfold queued
  rw [List.foldl_append]
  rfl

/-- An operation that opens a block empties the queue. -/
theorem Op.queue_of_increment {op : Op} {s : UInt64} (h : op.increment? = some s)
    (txs : List Tx) : op.queue txs = [] := by
  cases op with
  | beginBlock epoch seconds => rfl
  | beginBlockWith operator epoch seconds => rfl
  | _ => cases h

/-- An operation aside leaves the queue. -/
theorem Op.Aside.queue_eq {op : Op} (aside : op.Aside) (txs : List Tx) : op.queue txs = txs := by
  cases aside <;> rfl

/-- The block that is built, if there is one, has the queued transactions. -/
def Holds (past : List Moment) (h : Harness) : Prop :=
  ∀ b, h.cycle = .building b → b.txs = queued past

/-- Each moment keeps the queued transactions in the block. -/
theorem Holds.step {past : List Moment} {m : Moment} (single : m.op.Single)
    (holds : Holds past m.before) : Holds (past ++ [m]) m.after := by
  intro b hb
  rw [queued_snoc]
  unfold Moment.queue
  cases m.course single with
  | opened epoch seconds p succeeds op_eq opened =>
    obtain ⟨-, a, -, after⟩ := openBlock_ok_iff.1 opened
    rw [after] at hb
    cases hb
    rw [if_pos succeeds, Op.queue_of_increment op_eq]
    rfl
  | queued tx b' op_eq succeeds building after_eq =>
    rw [after_eq] at hb
    cases hb
    rw [if_pos succeeds, op_eq, ← holds b' building]
    rfl
  | closed f op_eq succeeds closed =>
    obtain ⟨b', a, -, -, after⟩ := endBlock_ok closed
    rw [after] at hb
    cases hb
  | refused fails after_eq =>
    rw [after_eq] at hb
    rw [fails]
    exact holds b hb
  | broken a fails after_eq =>
    rw [after_eq] at hb
    cases hb
  | aside aside =>
    have same : m.after.cycle = m.before.cycle := (aside.samePlace m.before).cycle
    rw [same] at hb
    rw [aside.queue_eq, ite_self]
    exact holds b hb

/-- At each moment of a run the block that is built has the queued transactions. -/
theorem Run.holds (r : Run) {past : List Moment} {h : Harness} (upTo : Leads r.begun past h) :
    Holds past h := by
  refine upTo.of_start (fun past m single holds => holds.step single) ?_
  intro b hb
  rw [r.begun_context.1] at hb
  cases hb

/-- At each moment the harness of a run is in step. -/
theorem Run.inStep_at (r : Run) {past : List Moment} {h : Harness} (upTo : Leads r.begun past h) :
    h.InStep := by
  refine upTo.of_start (P := fun _ => InStep) (fun past m _ hs => ?_)
    (inStep_init r.app r.around r.config r.begun r.begun_eq)
  exact stateAfter_cases (fun _ _ hok => (inStep_op m.op).of_ok hs hok)
    fun _ _ herror => ((inStep_op m.op).of_error hs herror).1

/-! ## Closing the block -/

/-- Closing a block has taken transactions through the application. -/
structure Delivered (h : Harness) (txs : List Tx) (f : FinalizeResponse) (h' : Harness) :
    Prop where
  /-- The proposal was to be prepared from all of them. -/
  prepare : h'.app.lastPrepare =
    some ⟨maxPrepareBytes, txs, h.context.height, h.context.time, h.context.proposer⟩
  /-- What was prepared from them was to be judged. -/
  process : ∃ proposed a,
    App.prepareProposal
      ⟨maxPrepareBytes, txs, h.context.height, h.context.time, h.context.proposer⟩ h.app =
        .ok proposed a ∧
    h'.app.lastProcess =
      some ⟨proposed, h.context.height, h.context.time, h.context.proposer⟩
  /-- All of them were to be executed. -/
  finalize : h'.app.lastFinalize =
    some ⟨txs, h.context.height, h.context.time, h.context.proposer, h.context.votes⟩
  /-- Each of them has its result, that of executing it after the votes and those before it. -/
  results : f.results.length = txs.length ∧
    ∃ s, Ledger.recordVotes h.context.votes h.app.store = .ok () s ∧
      ∀ i (hi : i < txs.length), f.results[i]? =
        some (Ledger.execute txs[i] (Ledger.executeAll (txs.take i) s).2).1

/-- Closing the block of a harness in step takes its transactions through the application. -/
theorem InStep.delivered {h h' : Harness} (hs : h.InStep) {b : PendingBlock}
    {f : FinalizeResponse} (building : h.cycle = .building b) (hok : endBlock h = .ok f h') :
    Delivered h b.txs f h' := by
  obtain ⟨hheight, htime, -, -⟩ := hs.of_building building
  obtain ⟨b', a, hb', closing, rfl⟩ := endBlock_ok hok
  rw [building] at hb'
  cases hb'
  obtain ⟨a₂, a₃, n, accepted, hfinalize, hcommit⟩ := closing.steps
  obtain ⟨proposed, status, a₁, hprepare, hprocess, -⟩ := accepted.steps
  -- The block has the height and the time of the context.
  have prepare : h.prepareRequest b =
      ⟨maxPrepareBytes, b.txs, h.context.height, h.context.time, h.context.proposer⟩ := by
    rw [← hheight, ← htime]
    rfl
  have process : h.processRequest b proposed =
      ⟨proposed, h.context.height, h.context.time, h.context.proposer⟩ := by
    rw [← hheight, ← htime]
    rfl
  have finalize : h.finalizeRequest b =
      ⟨b.txs, h.context.height, h.context.time, h.context.proposer, h.context.votes⟩ := by
    rw [← hheight, ← htime]
    rfl
  rw [prepare] at hprepare
  rw [process] at hprocess
  rw [finalize] at hfinalize
  have prepared := hprepare
  obtain ⟨-, -, rfl⟩ := App.prepareProposal_ok_iff.1 hprepare
  obtain ⟨-, -, rfl⟩ := App.processProposal_ok_iff.1 hprocess
  obtain ⟨-, -, s, counted, rfl, rfl⟩ := App.finalizeBlock_ok_iff.1 hfinalize
  obtain ⟨-, -, height, -, rfl⟩ := App.commit_ok_iff.1 hcommit
  refine ⟨rfl, ⟨proposed, _, prepared, rfl⟩, rfl, Ledger.length_executeAll _ _, s, counted,
    fun i hi => Ledger.getElem?_executeAll hi s⟩

/-- Closing a block takes the transactions that were queued since it was opened through the
application, in whatever way earlier blocks have ended: wherever it succeeds in a run, be it as an
operation of its own or in making an empty block, and at the end of it. Where a block is opened no
transaction is queued. -/
theorem queued_delivered (r : Run) :
    (∀ f h', endBlock r.now = .ok f h' → Delivered r.now (queued r.moments) f h') ∧
      (∀ past m rest, r.moments = past ++ m :: rest → m.op = .endBlock → m.succeeds = true →
        ∃ f, endBlock m.before = .ok f m.after ∧ Delivered m.before (queued past) f m.after) ∧
      ∀ past m rest, r.moments = past ++ m :: rest → ∀ s, m.opening? = some s →
        queued (past ++ [m]) = [] ∧ ∃ b, m.after.cycle = .building b ∧ b.txs = [] := by
  have delivered : ∀ {past h f h'}, Leads r.begun past h → endBlock h = .ok f h' →
      Delivered h (queued past) f h' := by
    intro past h f h' upTo hok
    obtain ⟨b, -, building, -⟩ := endBlock_ok hok
    rw [← r.holds upTo b building]
    exact (r.inStep_at upTo).delivered building hok
  refine ⟨fun f h' hok => delivered r.leads hok, fun past m rest split op_eq succeeds => ?_,
    fun past m rest split s hopening => ?_⟩
  · obtain ⟨upTo, single⟩ := r.leads_upTo split
    cases m.course single with
    | closed f _ _ closed => exact ⟨f, closed, delivered upTo closed⟩
    | opened _ _ _ _ increment => rw [op_eq] at increment; cases increment
    | queued _ _ queue => rw [op_eq] at queue; cases queue
    | refused fails => rw [fails] at succeeds; cases succeeds
    | broken _ fails => rw [fails] at succeeds; cases succeeds
    | aside aside => rw [op_eq] at aside; cases aside
  · obtain ⟨-, single⟩ := r.leads_upTo split
    obtain ⟨succeeds, op_eq⟩ := Moment.opening?_eq_some_iff.1 hopening
    refine ⟨?_, ?_⟩
    · rw [queued_snoc]
      unfold Moment.queue
      rw [if_pos succeeds, Op.queue_of_increment op_eq]
    · cases m.course single with
      | opened _ _ _ _ _ opened =>
        obtain ⟨-, a, -, after⟩ := openBlock_ok_iff.1 opened
        exact ⟨_, by rw [after], rfl⟩
      | queued _ _ queue => rw [queue] at op_eq; cases op_eq
      | closed _ close => rw [close] at op_eq; cases op_eq
      | refused fails => rw [fails] at succeeds; cases succeeds
      | broken _ fails => rw [fails] at succeeds; cases succeeds
      | aside aside => rw [aside.increment?_eq] at op_eq; cases op_eq

/-- A run without operations, open block, injected failure, rejection to come and proposers can open
a block, queue transactions and close it, and their results are those of executing them. -/
theorem exists_closing (r : Run) (hops : r.ops = []) (calm : r.now.Calm)
    (unproposed : r.now.config.proposer = .none) (txs : List Tx) :
    ∃ (r' : Run) (f : FinalizeResponse) (h' : Harness),
      r'.ops = .beginBlock false 1 :: txs.map .execute ∧ endBlock r'.now = .ok f h' ∧
      queued r'.moments = txs ∧ f.results = (Ledger.executeAll txs r.now.app.store).1 := by
  obtain ⟨f, -, h', hblock, -, -⟩ := calm.block ⟨none, false, 1⟩
    (Start.resolves_of_none rfl unproposed _) txs
  let c := nextContext r.now.context false 1 none
  let b : PendingBlock := .empty c.height c.time
  have opens : beginBlock false 1 r.now = .ok () (r.now.opened c) :=
    calm.inStep.begins calm.idle calm.spared unproposed false 1
  let r' : Run := { r with ops := .beginBlock false 1 :: txs.map .execute }
  have begun : r.now = r.begun := by
    unfold Run.now
    rw [hops]
    rfl
  have now : r'.now = (r.now.opened c).building { b with txs := b.txs ++ txs } :=
    calc r'.now
        = afterAll r'.ops r.now := congrArg (afterAll r'.ops) begun.symm
      _ = (r.now.opened c).building { b with txs := b.txs ++ txs } :=
        afterAll_executes opens rfl txs
  refine ⟨r', f, h', rfl, ?_, (r'.holds r'.leads _ (by rw [now]; rfl)).symm,
    (calm.executed rfl unproposed hblock).1⟩
  obtain ⟨_, h₁, hopen, hrest⟩ := bind_ok_iff.1 hblock
  obtain ⟨_, h₂, hqueue, hend⟩ := bind_ok_iff.1 hrest
  have same : h₁ = r.now.opened c := (EStateM.Result.ok.inj (Eq.trans hopen.symm opens)).2
  rw [same, forM_execute (b := b) rfl txs] at hqueue
  rw [now, (EStateM.Result.ok.inj hqueue).2]
  exact hend

/-- A block with three transfers is closed: one of coins that its sender does not have yet, one that
brings them, and the first one again, which then goes through. -/
theorem exists_delivered :
    ∃ (r : Run) (early late : Transfer) (f : FinalizeResponse) (h' : Harness),
      r.ops = [.beginBlock false 1, .execute early.tx, .execute late.tx, .execute early.tx] ∧
      endBlock r.now = .ok f h' ∧ Delivered r.now [early.tx, late.tx, early.tx] f h' ∧
      f.results.map TxResult.code = [5, 0, 0] := by
  obtain ⟨r, b, hops, idle, unproposed, spared, verdict, unarmed, hne, five, nothing, -⟩ :=
    exists_paying_run
  -- The second transfer moves to the sender of the others what these are of.
  obtain ⟨late, early, -, first, same, second, third, -⟩ :=
    Ledger.exists_there_and_back hne five nothing
  obtain ⟨r', f, h', hops', hok, queue, results⟩ := exists_closing r hops
    (r.calm idle spared verdict unarmed) unproposed [early.tx, late.tx, early.tx]
  have delivered := (queued_delivered r').1 f h' hok
  rw [queue] at delivered
  refine ⟨r', early, late, f, h', hops', hok, delivered, ?_⟩
  rw [results]
  simp only [Ledger.executeAll_cons, List.map_cons, same, first, second, third]
  rfl

end TestChain.Harness
