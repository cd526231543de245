import TestChain.Proofs.Harness.Run

/-!
# Halted harnesses

A harness whose cycle of blocks is halted refuses everything that is asked of it
(`call_of_halted`), and stays halted whatever is done to it (`halted_afterAll`). It gets there by
every error that is not a refusal and comes from the cycle: a block that the application does not
open, or one that cannot be closed (`Breaks`, `halted_of_breaks`).
-/

namespace TestChain.Harness

/-! ## What a halted harness does -/

/-- An operation asks for a block or for coins, if a count is given for at least one. -/
def Op.Drives : Op → Prop
  | .skipBlocks n => 0 < n
  | .initAccounts _ n => 0 < n
  | .addKey _ => False
  | .turn _ => False
  | _ => True

/-- A halted harness is not ready. -/
theorem ensureReady_of_halted {h : Harness} (hc : h.cycle = .halted) :
    ensureReady h = .error .halted h := by
  unfold ensureReady
  rw [get_bind_eq, hc]
  rfl

/-- A halted harness does not make a block. -/
theorem increaseTime_of_halted {h : Harness} (hc : h.cycle = .halted) (seconds : UInt64) :
    increaseTime seconds h = .error .halted h :=
  bind_of_error (bind_of_error (ensureReady_of_halted hc) _) _

/-- A halted harness refuses every operation that asks for something. -/
theorem call_of_halted {op : Op} (hop : op.Drives) {h : Harness} (hc : h.cycle = .halted) :
    op.call h = .error .halted h := by
  have ready := ensureReady_of_halted hc
  cases op with
  | beginBlock epoch seconds => exact bind_of_error (bind_of_error ready _) _
  | beginBlockWith operator epoch seconds => exact bind_of_error (bind_of_error ready _) _
  | execute tx =>
    refine bind_of_error ?_ _
    unfold execute Cycle.push
    rw [get_bind_eq, hc]
    rfl
  | endBlock =>
    have blocked : h.cycle.block .endBlock = .error .halted := by
      rw [hc]
      rfl
    exact bind_of_error (endBlock_of_error blocked) _
  | skipBlock =>
    have refused : Harness.skipBlock h = .error .halted h := increaseTime_of_halted hc _
    exact bind_of_error refused _
  | skipBlocks n =>
    -- Of the blocks that are asked for already the first one is refused.
    cases n with
    | zero => exact absurd hop (Nat.lt_irrefl 0)
    | succ n =>
      have first : skipBlock h = .error .halted h := increaseTime_of_halted hc _
      exact bind_of_error (bind_of_error first _) _
  | increaseTime seconds => exact bind_of_error (increaseTime_of_halted hc seconds) _
  | fundValidators => exact bind_of_error (bind_of_error ready _) _
  | fundAccount address coins => exact bind_of_error (bind_of_error ready _) _
  | initAccount coins => exact bind_of_error (bind_of_error ready _) _
  | initAccounts coins n =>
    cases n with
    | zero => exact absurd hop (Nat.lt_irrefl 0)
    | succ n =>
      have first : initAccount coins h = .error .halted h := bind_of_error ready _
      exact bind_of_error (bind_of_error first _) _
  | addKey key => exact hop.elim
  | turn k => exact hop.elim

/-- A halted harness stays halted. -/
theorem halted_next (op : Op) {h : Harness} (hc : h.cycle = .halted) :
    (op.next h).cycle = .halted := by
  have refused : op.Drives → (op.next h).cycle = .halted := fun hop => by
    unfold Op.next
    rw [stateAfter_of_error (call_of_halted hop hc)]
    exact hc
  cases op with
  | skipBlocks n =>
    cases n with
    | zero => exact hc
    | succ n => exact refused n.succ_pos
  | initAccounts coins n =>
    cases n with
    | zero => exact hc
    | succ n => exact refused n.succ_pos
  -- What asks for nothing leaves the cycle.
  | addKey key => exact hc
  | turn k => exact hc
  | _ => exact refused trivial

/-- A halted harness stays halted for good. -/
theorem halted_afterAll (ops : List Op) {h : Harness} (hc : h.cycle = .halted) :
    (afterAll ops h).cycle = .halted :=
  afterAll_induction (P := fun h => h.cycle = .halted) (fun op _ => halted_next op) ops hc

/-! ## How a harness is halted -/

/-- An error that ends the cycle of blocks. -/
inductive Breaks : HarnessError → Prop where
  /-- The application did not open a block. -/
  | beginBlock (e : AppError) : Breaks (.application .beginBlock e)
  /-- A proposal was not prepared. -/
  | prepare (e : AppError) : Breaks (.application .prepare e)
  /-- A proposal was not answered. -/
  | process (e : AppError) : Breaks (.application .process e)
  /-- A proposal was not accepted. -/
  | rejected (height : UInt64) (status : ProposalStatus) : Breaks (.proposalRejected height status)
  /-- A block was not executed. -/
  | finalize (e : AppError) : Breaks (.application .finalize e)
  /-- A block was not committed. -/
  | commit (e : AppError) : Breaks (.application .commit e)

/-- A refusal does not end the cycle. -/
theorem Refusal.not_breaks {e : HarnessError} (h : Refusal e) : ¬Breaks e := by
  intro hb
  cases hb <;> cases h

/-- A block that cannot be closed ends the cycle. -/
theorem Failure.breaks {h : Harness} {b : PendingBlock} {e : HarnessError} {a : App}
    (hf : h.Failure b e a) : Breaks e := by
  cases hf with
  | prepare prepared => exact .prepare _
  | process prepared processed => exact .process _
  | rejected prepared processed refused => exact .rejected _ _
  | finalize accepted finalized => exact .finalize _
  | commit accepted finalized committed => exact .commit _

/-- What is wrong with closing a block is a misuse, or it ends the cycle. -/
theorem breaks_of_endBlock {h h' : Harness} {e : HarnessError} (herror : endBlock h = .error e h')
    (hclass : e.errorClass ≠ .misuse) : Breaks e := by
  rcases endBlock_error herror with ⟨hblock, -⟩ | ⟨b, a, -, failure, -⟩
  · -- Without a block that is built the operation does not fit, or the cycle is halted already.
    refine absurd ?_ hclass
    unfold Cycle.block at hblock
    split at hblock
    · cases hblock
      rfl
    · cases hblock
    · cases hblock
      rfl
  · exact failure.breaks

/-- The parts of the operations end halted where an error ends the cycle. -/
theorem halted_keeps : Keeps (fun _ => True) fun e h => Breaks e → h.cycle = .halted where
  refuse e h refusal _ hb := absurd hb refusal.not_breaks
  openBlock epoch seconds proposer := by
    refine ends_openBlock ?refused ?failed ?opened
    case refused =>
      intro h e _ hidle hb
      exact absurd hb (Refusal.of_ensureIdle hidle).not_breaks
    case failed =>
      intros
      rfl
    case opened =>
      intros
      trivial
  push h b tx _ _ := trivial
  endBlock := by
    refine ends_endBlock ?refused ?failed ?closed
    case refused =>
      intro h e _ hblock hb
      exact absurd hb (Refusal.of_block hblock).not_breaks
    case failed =>
      intros
      rfl
    case closed =>
      intros
      trivial
  fund address coins := by
    refine ends_fund ?failed ?credited
    case failed =>
      -- The error is one of crediting, which ends nothing.
      intro h e a _ _ hb
      cases hb
    case credited =>
      intros
      trivial
  rng h rng _ := trivial
  addKey h key _ := trivial

/-- An operation with an error that ends the cycle leaves the harness halted. -/
theorem halted_of_breaks {op : Op} {h h' : Harness} {e : HarnessError}
    (herror : op.call h = .error e h') (hb : Breaks e) : h'.cycle = .halted :=
  (halted_keeps.op (fun _ _ => trivial) (fun _ _ _ => trivial) op).of_error trivial herror hb

end TestChain.Harness
