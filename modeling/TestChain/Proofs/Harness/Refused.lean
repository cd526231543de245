import TestChain.Proofs.Harness.EmptyBlock

/-!
# Refused operations

An operation that does not fit where the cycle of blocks stands, or for which no proposer is found,
is refused, and leaves the harness as it was (`harmless_op`). Only operations in several steps could
have done something before: that they are not refused after their first step is told by what the
step leaves, a harness that is awake or one that is ready for the next block. So in any sequence of
operations the refused ones can be left out (`answers_unrefused`). The main theorem is
`refused_invisible`.
-/

namespace TestChain

/-- The operation does not fit where the cycle of blocks stands, or no proposer is found. -/
def HarnessError.refuses : HarnessError → Bool
  | .invalidPhase .. => true
  | .halted => true
  | .unknownValidator _ => true
  | .noValidators => true
  | _ => false

namespace Harness

/-- Such an error is a refusal. -/
theorem Refusal.of_refuses {e : HarnessError} (h : e.refuses = true) : Refusal e := by
  cases e with
  | invalidPhase operation state => exact .invalidPhase operation state
  | halted => exact .halted
  | unknownValidator operator => exact .unknownValidator operator
  | noValidators => exact .noValidators
  | _ => cases h

/-! ## Operations in one step -/

/-- A call that leaves the harness as it was where it is refused. -/
def Harmless {α : Type} (x : Call α) : Prop :=
  ∀ h e h', x h = .error e h' → Refusal e → h' = h

variable {α β : Type}

/-- A call after a lookup is harmless. -/
theorem Harmless.after {x : Call α} {f : α → Call β} (hx : ReadOnly x)
    (hf : ∀ a, Harmless (f a)) : Harmless (x >>= f) := by
  intro h e h' herror refusal
  rcases hx.bind_eq f h with ⟨a, -, same⟩ | ⟨e', -, refused⟩
  · rw [same] at herror
    exact hf a h e h' herror refusal
  · rw [refused] at herror
    cases herror
    rfl

/-- An answer does not make a call less harmless. -/
theorem Harmless.answered {x : Call α} (hx : Harmless x) (f : α → β) :
    Harmless (do return f (← x)) := by
  intro h e h' herror refusal
  rcases bind_error_iff.1 herror with herror | ⟨a, h₁, -, herror⟩
  · exact hx h e h' herror refusal
  · cases herror

/-- Opening a block is harmless. -/
theorem harmless_openBlock (epoch : Bool) (seconds : UInt64) (proposer : Option ConsensusAddress) :
    Harmless (openBlock epoch seconds proposer) := by
  intro h e h' herror refusal
  rcases openBlock_error_iff.1 herror with ⟨-, same⟩ | ⟨-, e', a, -, rfl, -⟩
  · exact same
  · exact absurd (.beginBlock e') refusal.not_breaks

/-- Opening the next block is harmless. -/
theorem harmless_beginBlock (epoch : Bool) (seconds : UInt64) :
    Harmless (beginBlock epoch seconds) :=
  .after .ensureReady fun _ => .after .selectProposer fun p => harmless_openBlock epoch seconds p

/-- Opening the next block for a proposer is harmless. -/
theorem harmless_beginBlockWith (operator : ValidatorAddress) (epoch : Bool) (seconds : UInt64) :
    Harmless (beginBlockWith operator epoch seconds) :=
  .after .ensureReady fun _ => .after (.consensusAddressOf operator) fun p =>
    harmless_openBlock epoch seconds (some p)

/-- Queueing a transaction is harmless. -/
theorem harmless_execute (tx : Tx) : Harmless (execute tx) :=
  .after (fun _ => rfl) fun _ => .after (.require _) fun _ _ _ _ herror => nomatch herror

/-- Closing a block is harmless. -/
theorem harmless_endBlock : Harmless endBlock := by
  intro h e h' herror refusal
  rcases endBlock_error herror with ⟨-, same⟩ | ⟨b, a, -, failure, -⟩
  · exact same
  · exact absurd failure.breaks refusal.not_breaks

/-! ## Operations in several steps -/

/-- A call is harmless that is not refused from some harnesses and does nothing from the others. -/
theorem Harmless.of_ends {P : Harness → Prop} {x : Call α} {Q : α → Harness → Prop}
    (within : Ends P x Q fun e _ => ¬Refusal e) (outside : ∀ h, ¬P h → stateAfter x h = h) :
    Harmless x := by
  intro h e h' herror refusal
  by_cases hP : P h
  · exact absurd refusal (within.of_error hP herror)
  · rw [← stateAfter_of_error herror]
    exact outside h hP

/-- Making an empty block is harmless. -/
theorem harmless_increaseTime (seconds : UInt64) : Harmless (increaseTime seconds) := by
  refine .of_ends (ready_increaseTime seconds) fun h hr => ?_
  obtain ⟨e, refused⟩ := increaseTime_of_not_ready hr seconds
  exact stateAfter_of_error refused

/-- Skipping a block is harmless. -/
theorem harmless_skipBlock : Harmless skipBlock :=
  fun h => harmless_increaseTime h.config.blockTimeSeconds h

/-- Skipping blocks is harmless: after the first one no other is refused. -/
theorem harmless_skipBlocks (n : Nat) : Harmless (skipBlocks n) := by
  refine .of_ends (ready_skipBlocks n) fun h hr => ?_
  cases n with
  | zero => rfl
  | succ n =>
    obtain ⟨e, refused⟩ := increaseTime_of_not_ready hr h.config.blockTimeSeconds
    have first : skipBlock h = .error e h := refused
    exact stateAfter_of_error (bind_of_error first _)

/-- The cycle of blocks goes on. -/
def Awake (h : Harness) : Prop :=
  h.cycle ≠ .halted

/-- A harness that is awake passes the test that it is ready. -/
theorem awake_ensureReady : Ends Awake ensureReady (fun _ => Awake) fun e _ => ¬Refusal e := by
  intro h awake
  cases hc : h.cycle with
  | halted => exact absurd hc awake
  | _ =>
    have passed : ensureReady h = .ok () h := by
      rw [ensureReady_ok_iff, hc]
      exact ⟨rfl, rfl⟩
    rw [passed]
    exact awake

/-- Crediting an account fails only in the application, and leaves the cycle. -/
theorem awake_fund (address : AccountAddress) (coins : Coins) :
    Ends Awake (fund address coins) (fun _ => Awake) fun e _ => ¬Refusal e := by
  refine ends_fund ?failed ?credited
  case failed =>
    intro h e a _ _ refusal
    cases refusal
  case credited => exact fun h a awake _ => awake

/-- Making an account fails only in the application, and leaves the cycle. -/
theorem awake_initAccount (coins : Coins) :
    Ends Awake (initAccount coins) (fun _ => Awake) fun e _ => ¬Refusal e := by
  refine awake_ensureReady.bind fun _ h awake => ?_
  rw [get_bind_eq]
  -- The generator goes on before the account is credited.
  have drawn : Awake { h with rng := (h.rng.draw PrivateKey.generate).2 } := awake
  exact ((awake_fund _ coins).bind fun _ => .pure fun _ awake => awake) _ drawn

/-- Making accounts fails only in the application, and leaves the cycle. -/
theorem awake_initAccounts (coins : Coins) (n : Nat) :
    Ends Awake (initAccounts coins n) (fun _ => Awake) fun e _ => ¬Refusal e := by
  induction n with
  | zero => exact .pure fun _ awake => awake
  | succ n ih =>
    exact (awake_initAccount coins).bind fun _ => ih.bind fun _ => .pure fun _ awake => awake

/-- A call is harmless that tests the cycle at its beginning and is not refused later. -/
theorem Harmless.of_awake {f : Unit → Call α} {Q : α → Harness → Prop}
    (within : Ends Awake (ensureReady >>= f) Q fun e _ => ¬Refusal e) :
    Harmless (ensureReady >>= f) := by
  refine .of_ends within fun h asleep => ?_
  exact stateAfter_of_error (bind_of_error (ensureReady_of_halted (not_not.1 asleep)) f)

/-- Crediting an account is harmless. -/
theorem harmless_fundAccount (address : AccountAddress) (coins : Coins) :
    Harmless (fundAccount address coins) :=
  .of_awake (awake_ensureReady.bind fun _ => awake_fund address coins)

/-- Crediting the validators is harmless. -/
theorem harmless_fundValidators : Harmless fundValidators :=
  .of_awake <| awake_ensureReady.bind fun _ =>
    (Ends.get (Q := fun _ => Awake) fun _ awake => awake).bind fun _ =>
      .forM fun k _ => awake_fund k.accountAddress _

/-- Making an account is harmless. -/
theorem harmless_initAccount (coins : Coins) : Harmless (initAccount coins) :=
  .of_awake (awake_initAccount coins)

/-- Making accounts is harmless. -/
theorem harmless_initAccounts (coins : Coins) (n : Nat) : Harmless (initAccounts coins n) := by
  refine .of_ends (awake_initAccounts coins n) fun h asleep => ?_
  cases n with
  | zero => rfl
  | succ n =>
    have first : initAccount coins h = .error .halted h :=
      bind_of_error (ensureReady_of_halted (not_not.1 asleep)) _
    exact stateAfter_of_error (bind_of_error first _)

/-- Every operation is harmless. -/
theorem harmless_op (op : Op) : Harmless op.call := by
  cases op with
  | beginBlock epoch seconds => exact (harmless_beginBlock epoch seconds).answered _
  | beginBlockWith operator epoch seconds =>
    exact (harmless_beginBlockWith operator epoch seconds).answered _
  | execute tx => exact (harmless_execute tx).answered _
  | endBlock => exact harmless_endBlock.answered _
  | skipBlock => exact harmless_skipBlock.answered _
  | skipBlocks n => exact (harmless_skipBlocks n).answered _
  | increaseTime seconds => exact (harmless_increaseTime seconds).answered _
  | fundValidators => exact harmless_fundValidators.answered _
  | fundAccount address coins => exact (harmless_fundAccount address coins).answered _
  | initAccount coins => exact (harmless_initAccount coins).answered _
  | initAccounts coins n => exact (harmless_initAccounts coins n).answered _
  -- These do not fail.
  | addKey key => exact fun _ _ _ herror => nomatch herror
  | turn k => exact fun _ _ _ herror => nomatch herror

/-! ## Leaving out what is refused -/

/-- What an operation answers. -/
def Op.answer (op : Op) (h : Harness) : Except HarnessError Reply :=
  match op.call h with
  | .ok r _ => .ok r
  | .error e _ => .error e

/-- The answer is a refusal. -/
def isRefused : Except HarnessError Reply → Bool
  | .ok _ => false
  | .error e => e.refuses

/-- Operations in order, each with its answer. -/
def answers : List Op → Harness → List (Op × Except HarnessError Reply)
  | [], _ => []
  | op :: rest, h => (op, op.answer h) :: answers rest (op.next h)

/-- The operations that are not refused, each with its answer. -/
def unrefused (ops : List Op) (h : Harness) : List (Op × Except HarnessError Reply) :=
  (answers ops h).filter fun a => !isRefused a.2

/-- A refused operation leaves the harness as it was. -/
theorem next_of_isRefused {op : Op} {h : Harness} (hr : isRefused (op.answer h) = true) :
    op.next h = h := by
  unfold Op.answer at hr
  unfold Op.next
  cases hcall : op.call h with
  | ok r h' =>
    rw [hcall] at hr
    cases hr
  | error e h' =>
    rw [hcall] at hr
    rw [stateAfter_of_error hcall]
    exact harmless_op op h e h' hcall (.of_refuses hr)

/-- A refused operation is left out. -/
theorem unrefused_cons_of_isRefused {op : Op} {h : Harness} (hr : isRefused (op.answer h) = true)
    (rest : List Op) : unrefused (op :: rest) h = unrefused rest h := by
  show ((op, op.answer h) :: answers rest (op.next h)).filter _ = _
  rw [List.filter_cons_of_neg (by simp [hr]), next_of_isRefused hr]
  rfl

/-- Another operation stays. -/
theorem unrefused_cons_of_not {op : Op} {h : Harness} (hr : isRefused (op.answer h) = false)
    (rest : List Op) :
    unrefused (op :: rest) h = (op, op.answer h) :: unrefused rest (op.next h) :=
  List.filter_cons_of_pos (by simp [hr])

/-- Without the refused operations the harness ends where it does with them, and every other
operation is answered as it was. -/
theorem answers_unrefused (ops : List Op) (h : Harness) :
    afterAll ((unrefused ops h).map Prod.fst) h = afterAll ops h ∧
      answers ((unrefused ops h).map Prod.fst) h = unrefused ops h := by
  induction ops generalizing h with
  | nil => exact ⟨rfl, rfl⟩
  | cons op rest ih =>
    cases hr : isRefused (op.answer h) with
    | true =>
      have left : afterAll (op :: rest) h = afterAll rest h :=
        congrArg (afterAll rest) (next_of_isRefused hr)
      rw [unrefused_cons_of_isRefused hr, left]
      exact ih h
    | false =>
      obtain ⟨state, others⟩ := ih (op.next h)
      rw [unrefused_cons_of_not hr]
      exact ⟨state, congrArg ((op, op.answer h) :: ·) others⟩

/-! ## The main theorem -/

/-- From every harness, so from each that a run comes to: an operation that is refused, since it
does not fit where the cycle of blocks stands or no proposer is found, leaves the whole harness as
it was; so without the refused operations any sequence of operations ends in the same harness, and
every other operation is answered in the same way. After a block that was not opened by the
application or that could not be closed, whatever is done next, every operation that asks for a
block or for coins is refused because the harness is halted. -/
theorem refused_invisible (h : Harness) :
    (∀ op e h', Op.call op h = .error e h' → e.refuses = true → h' = h) ∧
      (∀ ops, afterAll ((unrefused ops h).map Prod.fst) h = afterAll ops h ∧
        answers ((unrefused ops h).map Prod.fst) h = unrefused ops h) ∧
      ∀ op e h', Op.call op h = .error e h' →
        Breaks e ∨ (op = .endBlock ∧ e.errorClass ≠ .misuse) →
          ∀ ops later, Op.Drives later →
            later.call (afterAll ops h') = .error .halted (afterAll ops h') := by
  refine ⟨fun op e h' herror hrefuses => harmless_op op h e h' herror (.of_refuses hrefuses),
    fun ops => answers_unrefused ops h, fun op e h' herror hbreaks ops later drives => ?_⟩
  have breaks : Breaks e := by
    rcases hbreaks with hbreaks | ⟨rfl, hclass⟩
    · exact hbreaks
    · rcases bind_error_iff.1 herror with hend | ⟨f, h₁, -, hreply⟩
      · exact breaks_of_endBlock hend hclass
      · cases hreply
  exact call_of_halted drives (halted_afterAll ops (halted_of_breaks herror breaks))

end Harness

end TestChain
