import TestChain.Harness
import TestChain.Proofs.App.Life

/-!
# Operations of the harness

The outcomes of the parts from which the operations of a harness are made. Only two of them touch
the block that is built and the application together: `openBlock`, whose outcomes are
`openBlock_ok_iff` and `openBlock_error_iff`, and `endBlock`, which succeeds after four calls to the
application (`Closing`) or fails at one of five places (`Failure`).
-/

namespace TestChain.Harness

variable {α : Type}

/-! ## Parts -/

/-- A refusal of what was found wrong leaves the harness. -/
theorem require_ok_iff {x : Except HarnessError α} {h h' : Harness} {a : α} :
    require x h = .ok a h' ↔ x = .ok a ∧ h' = h := by
  unfold require
  cases x with
  | ok a' => simp [eq_comm]
  | error e =>
    dsimp only
    rw [throw_eq]
    simp

/-- What is not wrong leaves the harness. -/
theorem require_error_iff {x : Except HarnessError α} {h h' : Harness} {e : HarnessError} :
    require x h = .error e h' ↔ x = .error e ∧ h' = h := by
  unfold require
  cases x with
  | ok a' => simp
  | error e =>
    dsimp only
    rw [throw_eq]
    simp [eq_comm]

/-- A call to the application succeeds with the application that it leaves. -/
theorem call_ok_iff {wrap : AppError → HarnessError} {x : App.Call α} {h h' : Harness} {r : α} :
    call wrap x h = .ok r h' ↔ ∃ a, x h.app = .ok r a ∧ h' = { h with app := a } := by
  unfold call
  cases hx : x h.app with
  | ok r' a => simp [eq_comm, and_assoc]
  | error e a => simp

/-- A call to the application fails with the application that it leaves. -/
theorem call_error_iff {wrap : AppError → HarnessError} {x : App.Call α} {h h' : Harness}
    {e : HarnessError} :
    call wrap x h = .error e h' ↔
      ∃ e' a, x h.app = .error e' a ∧ e = wrap e' ∧ h' = { h with app := a } := by
  unfold call
  cases hx : x h.app with
  | ok r a => simp
  | error e' a => simp [eq_comm, and_assoc]

/-- A call in the cycle of blocks that succeeds leaves the application that it gives. -/
theorem callOrHalt_of_ok {p : Phase} {x : App.Call α} {h : Harness} {r : α} {a : App}
    (hx : x h.app = .ok r a) : callOrHalt p x h = .ok r { h with app := a } := by
  unfold callOrHalt
  rw [hx]

/-- A call in the cycle of blocks that fails halts the cycle. -/
theorem callOrHalt_of_error {p : Phase} {x : App.Call α} {h : Harness} {e : AppError} {a : App}
    (hx : x h.app = .error e a) :
    callOrHalt p x h = .error (.application p e) { h with app := a, cycle := .halted } := by
  unfold callOrHalt
  rw [hx]
  rfl

/-- A call in the cycle of blocks succeeds with the application that it leaves. -/
theorem callOrHalt_ok_iff {p : Phase} {x : App.Call α} {h h' : Harness} {r : α} :
    callOrHalt p x h = .ok r h' ↔ ∃ a, x h.app = .ok r a ∧ h' = { h with app := a } := by
  unfold callOrHalt
  cases hx : x h.app with
  | ok r' a => simp [eq_comm, and_assoc]
  | error e a => simp [halt]

/-- A call in the cycle of blocks fails with the application that it leaves, and halts the cycle. -/
theorem callOrHalt_error_iff {p : Phase} {x : App.Call α} {h h' : Harness} {e : HarnessError} :
    callOrHalt p x h = .error e h' ↔
      ∃ e' a, x h.app = .error e' a ∧ e = .application p e' ∧
        h' = { h with app := a, cycle := .halted } := by
  unfold callOrHalt
  cases hx : x h.app with
  | ok r a => simp
  | error e' a => simp [halt, eq_comm, and_assoc]

/-- A harness is ready unless its cycle is halted. -/
theorem ensureReady_ok_iff {h h' : Harness} {u : Unit} :
    ensureReady h = .ok u h' ↔ h.cycle.ensureReady = .ok () ∧ h' = h := by
  unfold ensureReady
  rw [get_bind_eq]
  exact require_ok_iff

/-- A harness whose cycle is not halted is ready. -/
theorem ensureReady_of_going {h : Harness} (going : h.cycle ≠ .halted) :
    ensureReady h = .ok () h := by
  have ready : h.cycle.ensureReady = .ok () := by
    cases hc : h.cycle with
    | idle => rfl
    | building b => rfl
    | halted => exact absurd hc going
  exact ensureReady_ok_iff.2 ⟨ready, rfl⟩

/-- An idle harness is ready. -/
theorem ensureReady_of_idle {h : Harness} (idle : h.cycle = .idle) : ensureReady h = .ok () h :=
  ensureReady_of_going fun halted => nomatch idle.symm.trans halted

/-- What is done once the harness was found to be ready begins with that harness. -/
theorem ensureReady_bind_ok_iff {f : Unit → Call α} {h h' : Harness} {r : α} :
    (ensureReady >>= f) h = .ok r h' ↔ h.cycle.ensureReady = .ok () ∧ f () h = .ok r h' := by
  rw [bind_ok_iff]
  constructor
  · rintro ⟨_, h₁, hready, hrest⟩
    obtain ⟨ready, rfl⟩ := ensureReady_ok_iff.1 hready
    exact ⟨ready, hrest⟩
  · rintro ⟨ready, hrest⟩
    exact ⟨(), h, ensureReady_ok_iff.2 ⟨ready, rfl⟩, hrest⟩

/-! ## Looking up -/

/-- An operation that leaves the harness as it is, whatever it answers. -/
def ReadOnly (x : Call α) : Prop :=
  ∀ h, stateAfter x h = h

/-- A lookup keeps every property. -/
theorem ReadOnly.ends {x : Call α} (hx : ReadOnly x) (P : Harness → Prop) :
    Ends P x (fun _ => P) fun _ => P :=
  .of_stateAfter fun h hP => by rwa [hx h]

/-- The application is asked, or a lookup is refused, without a change. -/
theorem ReadOnly.require (x : Except HarnessError α) : ReadOnly (Harness.require x) := by
  intro h
  cases x with
  | ok a => rfl
  | error e => rfl

/-- A lookup comes first and leaves the harness, also where it is refused. -/
theorem ReadOnly.bind_eq {β : Type} {x : Call α} (hx : ReadOnly x) (f : α → Call β)
    (h : Harness) :
    (∃ a, x h = .ok a h ∧ (x >>= f) h = f a h) ∨
      ∃ e, x h = .error e h ∧ (x >>= f) h = .error e h := by
  have same := hx h
  cases hr : x h with
  | ok a h' =>
    rw [stateAfter_of_ok hr] at same
    subst same
    exact .inl ⟨a, rfl, bind_of_ok hr f⟩
  | error e h' =>
    rw [stateAfter_of_error hr] at same
    subst same
    exact .inr ⟨e, rfl, bind_of_error hr f⟩

/-- Two lookups in order are a lookup. -/
theorem ReadOnly.bind {β : Type} {x : Call α} {f : α → Call β} (hx : ReadOnly x)
    (hf : ∀ a, ReadOnly (f a)) : ReadOnly (x >>= f) := by
  intro h
  rcases hx.bind_eq f h with ⟨a, -, same⟩ | ⟨e, -, refused⟩
  · unfold stateAfter
    rw [same]
    exact hf a h
  · exact stateAfter_of_error refused

/-- The test that the harness is ready is a lookup. -/
theorem ReadOnly.ensureReady : ReadOnly Harness.ensureReady :=
  .bind (fun _ => rfl) fun _ => .require _

/-- Asking the ledger is a lookup. -/
theorem ReadOnly.ask (q : Ledger.Query α) : ReadOnly (Harness.ask q) :=
  .bind (fun _ => rfl) fun _ => .require _

/-- The ledger is asked for what it has. -/
theorem ask_ok_iff {q : Ledger.Query α} {h h' : Harness} {a : α} :
    ask q h = .ok a h' ↔ q h.app.store = .ok a ∧ h' = h := by
  unfold ask
  rw [get_bind_eq, require_ok_iff, mapError_ok_iff]

/-- Finding an operator's validator is a lookup. -/
theorem ReadOnly.consensusAddressOf (operator : ValidatorAddress) :
    ReadOnly (Harness.consensusAddressOf operator) := by
  unfold Harness.consensusAddressOf
  refine .bind (.ask _) fun v => ?_
  cases v with
  | none => exact fun _ => rfl
  | some v => exact fun _ => rfl

/-- The consensus address of a known operator is found. -/
theorem consensusAddressOf_ok_iff {operator : ValidatorAddress} {h h' : Harness}
    {p : ConsensusAddress} :
    consensusAddressOf operator h = .ok p h' ↔
      ∃ v, Ledger.validator? operator h.app.store = .ok (some v) ∧ v.consensusAddress = p ∧
        h' = h := by
  unfold consensusAddressOf
  rw [bind_ok_iff]
  constructor
  · rintro ⟨found, h₁, hask, hfound⟩
    obtain ⟨hask, rfl⟩ := ask_ok_iff.1 hask
    cases found with
    | none => cases hfound
    | some v =>
      obtain ⟨rfl, rfl⟩ := EStateM.Result.ok.inj hfound
      exact ⟨v, hask, rfl, rfl⟩
  · rintro ⟨v, hv, rfl, rfl⟩
    exact ⟨some v, h', ask_ok_iff.2 ⟨hv, rfl⟩, rfl⟩

/-- Choosing a proposer is a lookup. -/
theorem ReadOnly.selectProposer : ReadOnly Harness.selectProposer := by
  unfold Harness.selectProposer
  refine .bind (fun _ => rfl) fun h => ?_
  cases h.config.proposer with
  | none => exact fun _ => rfl
  | firstValidator =>
    refine .bind (.ask _) fun vs => ?_
    cases vs.head? with
    | none => exact fun _ => rfl
    | some v => exact fun _ => rfl
  | roundRobin =>
    refine .bind (.ask _) fun vs => .bind (fun _ => rfl) fun h => ?_
    cases inTurn? vs h.context.height with
    | none => exact fun _ => rfl
    | some v => exact fun _ => rfl
  | fixed operator =>
    show ReadOnly (some <$> Harness.consensusAddressOf operator)
    rw [map_eq_pure_bind]
    exact .bind (.consensusAddressOf operator) fun _ => fun _ => rfl

/-! ## Opening a block -/

/-- The cycle is where a block can be opened exactly if it is idle. -/
theorem ensureIdle_ok_iff {operation : BlockOperation} {c : Cycle} :
    c.ensureIdle operation = .ok () ↔ c = .idle := by
  cases c with
  | idle => exact iff_of_true rfl rfl
  | building b => exact iff_of_false (fun h => (nomatch h)) fun h => (nomatch h)
  | halted => exact iff_of_false (fun h => (nomatch h)) fun h => (nomatch h)

/-- A block is opened exactly if the cycle is idle and the application opens it. -/
theorem openBlock_ok_iff {epoch : Bool} {seconds : UInt64} {proposer : Option ConsensusAddress}
    {h h' : Harness} {u : Unit} :
    openBlock epoch seconds proposer h = .ok u h' ↔
      h.cycle = .idle ∧ ∃ a, App.beginBlock (nextContext h.context epoch seconds proposer) h.app =
        .ok () a ∧
        h' = { h with
          app := a
          context := nextContext h.context epoch seconds proposer
          cycle := .building (.empty (nextContext h.context epoch seconds proposer).height
            (nextContext h.context epoch seconds proposer).time) } := by
  unfold openBlock
  rw [get_bind_eq, bind_ok_iff]
  constructor
  · rintro ⟨_, h₁, h₁_eq, hrest⟩
    obtain ⟨hidle, rfl⟩ := require_ok_iff.1 h₁_eq
    rw [get_bind_eq] at hrest
    obtain ⟨_, h₂, hcall, hrest⟩ := bind_ok_iff.1 hrest
    obtain ⟨a, ha, rfl⟩ := callOrHalt_ok_iff.1 hcall
    rw [modify_eq] at hrest
    cases hrest
    exact ⟨ensureIdle_ok_iff.1 hidle, a, ha, rfl⟩
  · rintro ⟨idle, a, ha, rfl⟩
    refine ⟨(), h, require_ok_iff.2 ⟨ensureIdle_ok_iff.2 idle, rfl⟩, ?_⟩
    rw [get_bind_eq, bind_of_ok (callOrHalt_ok_iff.2 ⟨a, ha, rfl⟩)]
    rfl

/-- A block is not opened where the cycle is not idle, which changes nothing, and where the
application refuses it, which halts the cycle. -/
theorem openBlock_error_iff {epoch : Bool} {seconds : UInt64} {proposer : Option ConsensusAddress}
    {h h' : Harness} {e : HarnessError} :
    openBlock epoch seconds proposer h = .error e h' ↔
      (h.cycle.ensureIdle .beginBlock = .error e ∧ h' = h) ∨
        (h.cycle = .idle ∧ ∃ e' a,
          App.beginBlock (nextContext h.context epoch seconds proposer) h.app = .error e' a ∧
            e = .application .beginBlock e' ∧ h' = { h with app := a, cycle := .halted }) := by
  unfold openBlock
  rw [get_bind_eq, bind_error_iff]
  refine or_congr require_error_iff ?_
  constructor
  · rintro ⟨_, h₁, h₁_eq, hrest⟩
    obtain ⟨hidle, rfl⟩ := require_ok_iff.1 h₁_eq
    rw [get_bind_eq] at hrest
    -- What follows the call to the application cannot fail.
    rcases bind_error_iff.1 hrest with hrest | ⟨_, _, _, hrest⟩
    · exact ⟨ensureIdle_ok_iff.1 hidle, callOrHalt_error_iff.1 hrest⟩
    · cases hrest
  · rintro ⟨hidle, hcall⟩
    refine ⟨(), h, require_ok_iff.2 ⟨ensureIdle_ok_iff.2 hidle, rfl⟩, ?_⟩
    rw [get_bind_eq]
    exact bind_error_iff.2 (.inl (callOrHalt_error_iff.2 hcall))

/-! ## Closing a block -/

/-- The request to prepare the proposal of a block. -/
def prepareRequest (h : Harness) (b : PendingBlock) : PrepareRequest :=
  ⟨maxPrepareBytes, b.txs, b.height, b.time, h.context.proposer⟩

/-- The request to accept the proposal of a block. -/
def processRequest (h : Harness) (b : PendingBlock) (proposed : List Tx) : ProcessRequest :=
  ⟨proposed, b.height, b.time, h.context.proposer⟩

/-- The request to execute a block. -/
def finalizeRequest (h : Harness) (b : PendingBlock) : FinalizeRequest :=
  ⟨b.txs, b.height, b.time, h.context.proposer, h.context.votes⟩

/-- The application has accepted the proposal of a block. -/
structure Accepted (h : Harness) (b : PendingBlock) (a : App) : Prop where
  /-- It has prepared the proposal and then judged it. -/
  steps : ∃ proposed status a₁,
    App.prepareProposal (h.prepareRequest b) h.app = .ok proposed a₁ ∧
      App.processProposal (h.processRequest b proposed) a₁ = .ok status a ∧
      status.isAccepted = true

/-- A block was closed, with a response and an application. -/
structure Closing (h : Harness) (b : PendingBlock) (f : FinalizeResponse) (a : App) : Prop where
  /-- Its proposal was accepted, and the application executed and committed it. -/
  steps : ∃ a₂ a₃ n, h.Accepted b a₂ ∧
    App.finalizeBlock (h.finalizeRequest b) a₂ = .ok f a₃ ∧ App.commit a₃ = .ok n a

/-- Closing a block failed, with an error and an application. -/
inductive Failure (h : Harness) (b : PendingBlock) : HarnessError → App → Prop where
  /-- The proposal was not prepared. -/
  | prepare {e : AppError} {a : App}
    (prepared : App.prepareProposal (h.prepareRequest b) h.app = .error e a) :
    Failure h b (.application .prepare e) a
  /-- The proposal was not judged. -/
  | process {proposed : List Tx} {e : AppError} {a₁ a : App}
    (prepared : App.prepareProposal (h.prepareRequest b) h.app = .ok proposed a₁)
    (processed : App.processProposal (h.processRequest b proposed) a₁ = .error e a) :
    Failure h b (.application .process e) a
  /-- The proposal was not accepted. -/
  | rejected {proposed : List Tx} {status : ProposalStatus} {a₁ a : App}
    (prepared : App.prepareProposal (h.prepareRequest b) h.app = .ok proposed a₁)
    (processed : App.processProposal (h.processRequest b proposed) a₁ = .ok status a)
    (refused : status.isAccepted = false) :
    Failure h b (.proposalRejected b.height status) a
  /-- The block was not executed. -/
  | finalize {e : AppError} {a₂ a : App} (accepted : h.Accepted b a₂)
    (finalized : App.finalizeBlock (h.finalizeRequest b) a₂ = .error e a) :
    Failure h b (.application .finalize e) a
  /-- The block was not committed. -/
  | commit {f : FinalizeResponse} {e : AppError} {a₂ a₃ a : App} (accepted : h.Accepted b a₂)
    (finalized : App.finalizeBlock (h.finalizeRequest b) a₂ = .ok f a₃)
    (committed : App.commit a₃ = .error e a) :
    Failure h b (.application .commit e) a

/-- The outcome of closing the block that is built, call by call. -/
theorem endBlock_eq (h : Harness) (b : PendingBlock) (hb : h.cycle = .building b) :
    endBlock h =
      match App.prepareProposal (h.prepareRequest b) h.app with
      | .error e a => .error (.application .prepare e) { h with app := a, cycle := .halted }
      | .ok proposed a₁ =>
        match App.processProposal (h.processRequest b proposed) a₁ with
        | .error e a => .error (.application .process e) { h with app := a, cycle := .halted }
        | .ok status a₂ =>
          if status.isAccepted then
            match App.finalizeBlock (h.finalizeRequest b) a₂ with
            | .error e a => .error (.application .finalize e) { h with app := a, cycle := .halted }
            | .ok f a₃ =>
              match App.commit a₃ with
              | .error e a => .error (.application .commit e) { h with app := a, cycle := .halted }
              | .ok _ a => .ok f { h with app := a, cycle := .idle }
          else
            .error (.proposalRejected b.height status) { h with app := a₂, cycle := .halted } := by
  have built : require (h.cycle.block .endBlock) h = .ok b h :=
    require_ok_iff.2 ⟨by rw [hb]; rfl, rfl⟩
  unfold endBlock prepareRequest processRequest finalizeRequest
  rw [get_bind_eq, bind_of_ok built, get_bind_eq]
  cases hprepare : App.prepareProposal ⟨maxPrepareBytes, b.txs, b.height, b.time,
      h.context.proposer⟩ h.app with
  | error e a => rw [bind_of_error (callOrHalt_of_error hprepare)]
  -- Each call that succeeds leaves the application to the next one.
  | ok proposed a₁ =>
    rw [bind_of_ok (callOrHalt_of_ok hprepare)]
    dsimp only
    cases hprocess : App.processProposal ⟨proposed, b.height, b.time, h.context.proposer⟩ a₁ with
    | error e a => rw [bind_of_error (callOrHalt_of_error hprocess)]
    | ok status a₂ =>
      rw [bind_of_ok (callOrHalt_of_ok hprocess)]
      dsimp only
      cases hs : status.isAccepted with
      | false => rfl
      | true =>
        rw [if_neg (by simp), if_pos rfl]
        cases hfinalize : App.finalizeBlock ⟨b.txs, b.height, b.time, h.context.proposer,
            h.context.votes⟩ a₂ with
        | error e a => rw [bind_of_error (callOrHalt_of_error hfinalize)]
        | ok f a₃ =>
          rw [bind_of_ok (callOrHalt_of_ok hfinalize)]
          dsimp only
          cases hcommit : App.commit a₃ with
          | error e a => rw [bind_of_error (callOrHalt_of_error hcommit)]
          | ok n a =>
            rw [bind_of_ok (callOrHalt_of_ok hcommit)]
            rfl

/-- Without a block that is built there is nothing to close. -/
theorem endBlock_of_error {h : Harness} {e : HarnessError}
    (he : h.cycle.block .endBlock = .error e) : endBlock h = .error e h := by
  unfold endBlock
  rw [get_bind_eq, bind_of_error (require_error_iff.2 ⟨he, rfl⟩)]

/-- A block that was closed had its proposal accepted, was executed and committed, and the cycle is
idle. -/
theorem endBlock_ok {h h' : Harness} {f : FinalizeResponse} (hok : endBlock h = .ok f h') :
    ∃ b a, h.cycle = .building b ∧ h.Closing b f a ∧ h' = { h with app := a, cycle := .idle } := by
  cases hc : h.cycle with
  | idle =>
    rw [endBlock_of_error (e := .invalidPhase .endBlock .idle) (by rw [hc]; rfl)] at hok
    cases hok
  | halted =>
    rw [endBlock_of_error (e := .halted) (by rw [hc]; rfl)] at hok
    cases hok
  | building b =>
    -- What is called from here on has to succeed call by call, in the order of the phases.
    rw [endBlock_eq h b hc] at hok
    split at hok
    · cases hok
    · rename_i proposed a₁ hprepare
      split at hok
      · cases hok
      · rename_i status a₂ hprocess
        split at hok
        · rename_i hs
          split at hok
          · cases hok
          · rename_i f' a₃ hfinalize
            split at hok
            · cases hok
            · rename_i n a hcommit
              cases hok
              have accepted : h.Accepted b a₂ := ⟨⟨proposed, status, a₁, hprepare, hprocess, hs⟩⟩
              exact ⟨b, a, rfl, ⟨⟨a₂, a₃, n, accepted, hfinalize, hcommit⟩⟩, rfl⟩
        · cases hok

/-- Closing a block is refused where no block is built, or fails at one of its calls to the
application; then the cycle is halted. -/
theorem endBlock_error {h h' : Harness} {e : HarnessError} (herror : endBlock h = .error e h') :
    (h.cycle.block .endBlock = .error e ∧ h' = h) ∨
      ∃ b a, h.cycle = .building b ∧ h.Failure b e a ∧
        h' = { h with app := a, cycle := .halted } := by
  cases hc : h.cycle with
  | idle =>
    rw [endBlock_of_error (e := .invalidPhase .endBlock .idle) (by rw [hc]; rfl)] at herror
    cases herror
    exact .inl ⟨rfl, rfl⟩
  | halted =>
    rw [endBlock_of_error (e := .halted) (by rw [hc]; rfl)] at herror
    cases herror
    exact .inl ⟨rfl, rfl⟩
  | building b =>
    -- Each call that fails halts the cycle, as an answer does that rejects, and is a failure.
    rw [endBlock_eq h b hc] at herror
    refine .inr ⟨b, h'.app, rfl, ?_⟩
    split at herror
    · rename_i e a hprepare
      cases herror
      exact ⟨.prepare hprepare, rfl⟩
    · rename_i proposed a₁ hprepare
      split at herror
      · rename_i e a hprocess
        cases herror
        exact ⟨.process hprepare hprocess, rfl⟩
      · rename_i status a₂ hprocess
        split at herror
        · rename_i hs
          have accepted : h.Accepted b a₂ := ⟨⟨proposed, status, a₁, hprepare, hprocess, hs⟩⟩
          split at herror
          · rename_i e a hfinalize
            cases herror
            exact ⟨.finalize accepted hfinalize, rfl⟩
          · rename_i f a₃ hfinalize
            split at herror
            · rename_i e a hcommit
              cases herror
              exact ⟨.commit accepted hfinalize hcommit, rfl⟩
            · cases herror
        · rename_i hs
          cases herror
          exact ⟨.rejected hprepare hprocess (by simpa using hs), rfl⟩

/-! ## Where the parts of operations end -/

section

variable {P Q : Harness → Prop} {E : HarnessError → Harness → Prop}

/-- Opening a block ends where it is refused, or with what the application's call leaves. -/
theorem ends_openBlock {epoch : Bool} {seconds : UInt64} {proposer : Option ConsensusAddress}
    (refused : ∀ h e, P h → h.cycle.ensureIdle .beginBlock = .error e → E e h)
    (failed : ∀ h e a, P h → h.cycle = .idle →
      App.beginBlock (nextContext h.context epoch seconds proposer) h.app = .error e a →
        E (.application .beginBlock e) { h with app := a, cycle := .halted })
    (opened : ∀ h a, P h → h.cycle = .idle →
      App.beginBlock (nextContext h.context epoch seconds proposer) h.app = .ok () a →
        Q { h with
          app := a
          context := nextContext h.context epoch seconds proposer
          cycle := .building (.empty (nextContext h.context epoch seconds proposer).height
            (nextContext h.context epoch seconds proposer).time) }) :
    Ends P (openBlock epoch seconds proposer) (fun _ => Q) E := by
  intro h hP
  cases hr : openBlock epoch seconds proposer h with
  | ok u h' =>
    obtain ⟨hidle, a, ha, rfl⟩ := openBlock_ok_iff.1 hr
    exact opened h a hP hidle ha
  | error e h' =>
    rcases openBlock_error_iff.1 hr with ⟨hidle, rfl⟩ | ⟨hidle, e', a, ha, rfl, rfl⟩
    · exact refused h' e hP hidle
    · exact failed h e' a hP hidle ha

/-- Closing a block ends where it is refused, where one of its calls failed or where all of them
were made. -/
theorem ends_endBlock
    (refused : ∀ h e, P h → h.cycle.block .endBlock = .error e → E e h)
    (failed : ∀ h b e a, P h → h.cycle = .building b → h.Failure b e a →
      E e { h with app := a, cycle := .halted })
    (closed : ∀ h b f a, P h → h.cycle = .building b → h.Closing b f a →
      Q { h with app := a, cycle := .idle }) :
    Ends P endBlock (fun _ => Q) E := by
  intro h hP
  cases hr : endBlock h with
  | ok f h' =>
    obtain ⟨b, a, hb, closing, rfl⟩ := endBlock_ok hr
    exact closed h b f a hP hb closing
  | error e h' =>
    rcases endBlock_error hr with ⟨hblock, rfl⟩ | ⟨b, a, hb, failure, rfl⟩
    · exact refused h' e hP hblock
    · exact failed h b e a hP hb failure

/-- Crediting an account ends with what the application's call leaves. -/
theorem ends_fund {address : AccountAddress} {coins : Coins}
    (failed : ∀ h e a, P h → App.fundAccount address coins h.app = .error e a →
      E (.funding address e) { h with app := a })
    (credited : ∀ h a, P h → App.fundAccount address coins h.app = .ok () a →
      Q { h with app := a }) :
    Ends P (fund address coins) (fun _ => Q) E := by
  intro h hP
  unfold fund
  cases hr : call (.funding address) (App.fundAccount address coins) h with
  | ok u h' =>
    obtain ⟨a, ha, rfl⟩ := call_ok_iff.1 hr
    exact credited h a hP ha
  | error e h' =>
    obtain ⟨e', a, ha, rfl, rfl⟩ := call_error_iff.1 hr
    exact failed h e' a hP ha

end

end TestChain.Harness
