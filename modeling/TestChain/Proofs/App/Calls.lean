import TestChain.App
import TestChain.Proofs.Outcome

/-!
# Calls to the application

Every call but the one that begins the chain passes the same two tests first: the chain has begun,
and no failure is injected for the phase of the call. `Stopped` is what comes of a call that does
not pass them, and `guarded_ok_iff` and `guarded_error_iff` divide a call into the tests and the
rest. From them come the complete outcomes of each call: when it succeeds and with which
application, and how it fails. No call changes the application's place in the chain where it fails.
-/

namespace TestChain.App

variable {α : Type}

/-- The application whose injected failure in a phase is used up. -/
def spent (a : App) (p : Phase) : App :=
  { a with failures := a.failures.filter (· ≠ p) }

/-- The application answers calls in a phase. -/
structure Answers (a : App) (p : Phase) : Prop where
  /-- The chain has begun. -/
  begun : a.isInitialized = true
  /-- No failure is injected. -/
  spared : a.failures.contains p = false

/-- A call in a phase is stopped before it does anything, with an error and an application. -/
inductive Stopped (p : Phase) (a : App) : AppError → App → Prop where
  /-- The chain has not begun. -/
  | notInitialized (h : a.isInitialized = false) : Stopped p a .notInitialized a
  /-- A failure is injected, which is used up. -/
  | aborted (h : a.isInitialized = true) (hp : a.failures.contains p = true) :
    Stopped p a (.aborted p) (a.spent p)

/-- What a stopped call leaves is the application, but for the injected failure. -/
theorem Stopped.state {p : Phase} {a a' : App} {e : AppError} (h : Stopped p a e a') :
    a' = a ∨ a' = a.spent p := by
  cases h with
  | notInitialized h => exact .inl rfl
  | aborted h hp => exact .inr rfl

/-! ## The tests before a call -/

/-- The test that the chain has begun. -/
theorem ensureInitialized_eq (a : App) :
    ensureInitialized a = if a.isInitialized then .ok () a else .error .notInitialized a := by
  unfold ensureInitialized
  rw [get_bind_eq]
  cases a.isInitialized with
  | true => rfl
  | false => rfl

/-- The test that no failure is injected. -/
theorem checkFailure_eq (p : Phase) (a : App) :
    checkFailure p a =
      if a.failures.contains p then .error (.aborted p) (a.spent p) else .ok () a := by
  unfold checkFailure
  rw [get_bind_eq]
  by_cases hp : a.failures.contains p = true
  · rw [if_pos hp, if_pos hp]
    rfl
  · rw [if_neg hp, if_neg hp]
    rfl

/-- A call behind the two tests succeeds exactly if the tests are passed and the rest succeeds. -/
theorem guarded_ok_iff {p : Phase} {x : Call α} {a a' : App} {r : α} :
    (do ensureInitialized; checkFailure p; x : Call α) a = .ok r a' ↔
      a.Answers p ∧ x a = .ok r a' := by
  rw [bind_eq, ensureInitialized_eq]
  cases hi : a.isInitialized with
  | false => simpa using fun h : a.Answers p => absurd h.begun (by simp [hi])
  | true =>
    simp only [if_true]
    rw [bind_eq, checkFailure_eq]
    by_cases hp : a.failures.contains p = true
    · simp only [if_pos hp]
      refine ⟨fun h => (by cases h), fun h => ?_⟩
      have := h.1.spared
      rw [hp] at this
      cases this
    · simp only [if_neg hp]
      exact ⟨fun h => ⟨⟨hi, by simpa using hp⟩, h⟩, fun h => h.2⟩

/-- A call behind the two tests fails exactly if it is stopped or the rest fails. -/
theorem guarded_error_iff {p : Phase} {x : Call α} {a a' : App} {e : AppError} :
    (do ensureInitialized; checkFailure p; x : Call α) a = .error e a' ↔
      Stopped p a e a' ∨ (a.Answers p ∧ x a = .error e a') := by
  -- The tests come in this order: a chain that has not begun does not use up a failure.
  rw [bind_eq, ensureInitialized_eq]
  cases hi : a.isInitialized with
  | false =>
    simp only [Bool.false_eq_true, if_false]
    constructor
    · rintro ⟨rfl, rfl⟩
      exact .inl (.notInitialized hi)
    · rintro (h | ⟨h, -⟩)
      · cases h with
        | notInitialized h => rfl
        | aborted h hp => simp [hi] at h
      · exact absurd h.begun (by simp [hi])
  | true =>
    simp only [if_true]
    rw [bind_eq, checkFailure_eq]
    by_cases hp : a.failures.contains p = true
    · simp only [if_pos hp]
      constructor
      · rintro ⟨rfl, rfl⟩
        exact .inl (.aborted hi hp)
      · rintro (h | ⟨h, -⟩)
        · cases h with
          | notInitialized h => simp [hi] at h
          | aborted h hp => rfl
        · exact absurd h.spared (by simp only [hp, Bool.true_eq_false, not_false_eq_true])
    · simp only [if_neg hp]
      constructor
      · exact fun h => .inr ⟨⟨hi, by simpa using hp⟩, h⟩
      · rintro (h | ⟨-, h⟩)
        · cases h with
          | notInitialized h => simp [hi] at h
          | aborted h hp' => exact absurd hp' hp
        · exact h

/-- A change of the ledger succeeds with the store that it leaves. -/
theorem onLedger_ok_iff {x : Ledger.Action α} {a a' : App} {r : α} :
    onLedger x a = .ok r a' ↔ ∃ s, x a.store = .ok r s ∧ a' = { a with store := s } := by
  unfold onLedger
  cases hx : x a.store with
  | ok r' s => simp [eq_comm, and_assoc]
  | error e s => simp

/-- A change of the ledger fails with the store that it leaves. -/
theorem onLedger_error_iff {x : Ledger.Action α} {a a' : App} {e : AppError} :
    onLedger x a = .error e a' ↔ ∃ s, x a.store = .error e s ∧ a' = { a with store := s } := by
  unfold onLedger
  cases hx : x a.store with
  | ok r' s => simp
  | error e' s => simp [eq_comm, and_assoc]

/-! ## Blocks -/

/-- A block is opened exactly if it is the next one of the chain. -/
theorem beginBlock_ok_iff {c : BlockContext} {a a' : App} {u : Unit} :
    beginBlock c a = .ok u a' ↔
      a.Answers .beginBlock ∧ c.chainId = a.chainId ∧ c.height = a.nextHeight ∧
        a' = { a with current := some c } := by
  unfold beginBlock
  rw [guarded_ok_iff]
  refine and_congr_right fun _ => ?_
  rw [get_bind_eq]
  by_cases hc : c.chainId = a.chainId
  · by_cases hh : c.height = a.nextHeight
    · simp only [hc, hh, ne_eq, not_true_eq_false, if_false]
      rw [set_eq]
      simp [eq_comm]
    · simp only [hc, hh, ne_eq, not_true_eq_false, not_false_eq_true, if_false, if_true]
      rw [throw_bind_eq]
      simp
  · rw [if_pos hc, throw_bind_eq]
    simp [hc]

/-- A block is refused if it belongs to another chain or is not the next one. -/
theorem beginBlock_error_iff {c : BlockContext} {a a' : App} {e : AppError} :
    beginBlock c a = .error e a' ↔
      Stopped .beginBlock a e a' ∨
        (a.Answers .beginBlock ∧ a' = a ∧
          ((c.chainId ≠ a.chainId ∧ e = .invalidRequest (.blockOfOtherChain c.chainId a.chainId)) ∨
            (c.chainId = a.chainId ∧ c.height ≠ a.nextHeight ∧
              e = .invalidRequest (.wrongHeight a.nextHeight c.height)))) := by
  unfold beginBlock
  rw [guarded_error_iff]
  refine or_congr_right (and_congr_right fun _ => ?_)
  rw [get_bind_eq]
  by_cases hc : c.chainId = a.chainId
  · by_cases hh : c.height = a.nextHeight
    · simp only [hc, hh, ne_eq, not_true_eq_false, if_false]
      rw [set_eq]
      simp
    · simp only [hc, hh, ne_eq, not_true_eq_false, not_false_eq_true, if_false, if_true]
      rw [throw_bind_eq]
      simp [eq_comm, and_comm]
  · rw [if_pos hc, throw_bind_eq]
    simp [hc, eq_comm, and_comm]

/-- A proposal is prepared wherever the call is not stopped. -/
theorem prepareProposal_ok_iff {r : PrepareRequest} {a a' : App} {txs : List Tx} :
    prepareProposal r a = .ok txs a' ↔
      a.Answers .prepare ∧ txs = fitting r.maxTxBytes.toInt r.txs ∧
        a' = { a with lastPrepare := some r } := by
  unfold prepareProposal
  rw [guarded_ok_iff]
  simp [eq_comm]

/-- Preparing a proposal fails only where it is stopped. -/
theorem prepareProposal_error_iff {r : PrepareRequest} {a a' : App} {e : AppError} :
    prepareProposal r a = .error e a' ↔ Stopped .prepare a e a' := by
  unfold prepareProposal
  rw [guarded_error_iff]
  simp

/-- The application that has answered a proposal. -/
def answered (a : App) (r : ProcessRequest) : App :=
  { a with
    rejectNext := a.rejectNext && r.height ≠ a.nextHeight
    lastProcess := some r }

/-- A proposal is judged wherever the call is not stopped. -/
theorem processProposal_ok_iff {r : ProcessRequest} {a a' : App} {status : ProposalStatus} :
    processProposal r a = .ok status a' ↔
      a.Answers .process ∧ status = a.judge r.height ∧ a' = a.answered r := by
  unfold processProposal answered
  rw [guarded_ok_iff, get_bind_eq]
  simp only [set_bind_eq, pure_eq]
  simp [eq_comm]

/-- Judging a proposal fails only where it is stopped. -/
theorem processProposal_error_iff {r : ProcessRequest} {a a' : App} {e : AppError} :
    processProposal r a = .error e a' ↔ Stopped .process a e a' := by
  unfold processProposal
  rw [guarded_error_iff, get_bind_eq]
  simp only [set_bind_eq, pure_eq]
  simp

/-- The application that has executed a block on a store in which its votes are counted. -/
def executed (a : App) (r : FinalizeRequest) (s : Store) : App :=
  { a with
    store := (Ledger.executeAll r.txs s).2
    finalized := some r.height
    lastFinalize := some r }

/-- The response for a block that is executed on a store in which its votes are counted. -/
def response (r : FinalizeRequest) (s : Store) : FinalizeResponse :=
  ⟨[blockEvent r], (Ledger.executeAll r.txs s).1, [], (Ledger.executeAll r.txs s).2.previewRoot⟩

/-- A block is finalized exactly if it is the next one and its votes can be counted. -/
theorem finalizeBlock_ok_iff {r : FinalizeRequest} {a a' : App} {f : FinalizeResponse} :
    finalizeBlock r a = .ok f a' ↔
      a.Answers .finalize ∧ r.height = a.nextHeight ∧
        ∃ s, Ledger.recordVotes r.votes a.store = .ok () s ∧ f = response r s ∧
          a' = a.executed r s := by
  unfold finalizeBlock executed response
  rw [guarded_ok_iff]
  refine and_congr_right fun _ => ?_
  rw [get_bind_eq]
  by_cases hh : r.height = a.nextHeight
  · simp only [hh, ne_eq, not_true_eq_false, if_false, true_and]
    rw [bind_ok_iff]
    simp only [onLedger_ok_iff]
    -- Once the votes are counted nothing fails any more.
    constructor
    · rintro ⟨_, _, ⟨s, hs, rfl⟩, h⟩
      simp only [get_bind_eq, set_bind_eq, pure_eq] at h
      cases h
      exact ⟨s, hs, rfl, rfl⟩
    · rintro ⟨s, hs, rfl, rfl⟩
      exact ⟨(), _, ⟨s, hs, rfl⟩, rfl⟩
  · rw [if_pos hh, throw_bind_eq]
    simp [hh]

/-- Finalizing a block fails where it is stopped, for a block that is not the next one, and where
its votes cannot be counted; the application has then no more than counted votes. -/
theorem finalizeBlock_error_iff {r : FinalizeRequest} {a a' : App} {e : AppError} :
    finalizeBlock r a = .error e a' ↔
      Stopped .finalize a e a' ∨
        (a.Answers .finalize ∧
          ((r.height ≠ a.nextHeight ∧ a' = a ∧
              e = .invalidRequest (.cannotFinalize r.height a.lastHeight)) ∨
            (r.height = a.nextHeight ∧ ∃ s, Ledger.recordVotes r.votes a.store = .error e s ∧
              a' = { a with store := s }))) := by
  unfold finalizeBlock
  rw [guarded_error_iff]
  refine or_congr_right (and_congr_right fun _ => ?_)
  rw [get_bind_eq]
  by_cases hh : r.height = a.nextHeight
  · simp only [hh, ne_eq, not_true_eq_false, if_false, true_and, false_and, false_or]
    rw [bind_error_iff]
    simp only [onLedger_error_iff]
    -- The execution itself does not fail, so the error is that of the votes.
    constructor
    · rintro (h | ⟨_, _, -, h⟩)
      · exact h
      · cases h
    · exact .inl
  · rw [if_pos hh, throw_bind_eq]
    simp [hh, eq_comm, and_comm]

/-- The application that has committed a block. -/
def sealed (a : App) (height : UInt64) : App :=
  { a with
    store := a.store.commit
    finalized := none
    lastHeight := height
    lastAppHash := a.store.commit.root
    current := none }

/-- A block is committed exactly if one is finalized. -/
theorem commit_ok_iff {a a' : App} {n : UInt64} :
    commit a = .ok n a' ↔
      a.Answers .commit ∧ n = 0 ∧ ∃ height, a.finalized = some height ∧ a' = a.sealed height := by
  unfold commit sealed
  rw [guarded_ok_iff]
  refine and_congr_right fun _ => ?_
  rw [get_bind_eq]
  cases hf : a.finalized with
  | none =>
    dsimp only
    rw [throw_eq]
    simp
  | some height =>
    simp only [set_bind_eq, pure_eq]
    simp [eq_comm]

/-- Committing fails where it is stopped and where no block is finalized. -/
theorem commit_error_iff {a a' : App} {e : AppError} :
    commit a = .error e a' ↔
      Stopped .commit a e a' ∨
        (a.Answers .commit ∧ a.finalized = none ∧ a' = a ∧
          e = .invalidRequest .nothingFinalized) := by
  unfold commit
  rw [guarded_error_iff]
  refine or_congr_right (and_congr_right fun _ => ?_)
  rw [get_bind_eq]
  cases hf : a.finalized with
  | none =>
    dsimp only
    rw [throw_eq]
    simp [eq_comm, and_comm]
  | some height =>
    simp only [set_bind_eq, pure_eq]
    simp

/-! ## The ledger -/

/-- A guarded change of the ledger ends where it is stopped, or with the ledger that the change
leaves, whether it succeeds or not. -/
theorem onLedger_cases {P : App → Prop} {p : Phase} {x : Ledger.Action α} {a : App}
    (stopped : ∀ e a', Stopped p a e a' → P a')
    (changed : P { a with store := stateAfter x a.store }) :
    P (stateAfter (do ensureInitialized; checkFailure p; onLedger x : Call α) a) := by
  refine stateAfter_cases (fun r a' h => ?_) (fun e a' h => ?_)
  · obtain ⟨s, hs, rfl⟩ := onLedger_ok_iff.1 (guarded_ok_iff.1 h).2
    rw [stateAfter_of_ok hs] at changed
    exact changed
  · rcases guarded_error_iff.1 h with h | ⟨-, h⟩
    · exact stopped e a' h
    · obtain ⟨s, hs, rfl⟩ := onLedger_error_iff.1 h
      rw [stateAfter_of_error hs] at changed
      exact changed

/-- The signing info of a validator is replaced exactly if the ledger does so. -/
theorem setSigningInfo_ok_iff {i : SigningInfo} {a a' : App} {u : Unit} :
    setSigningInfo i a = .ok u a' ↔
      a.Answers .signingInfo ∧
        ∃ s, Ledger.setSigningInfo i a.store = .ok u s ∧ a' = { a with store := s } := by
  unfold setSigningInfo
  rw [guarded_ok_iff, onLedger_ok_iff]

/-- An account is credited exactly if the ledger does so. -/
theorem fundAccount_ok_iff {address : AccountAddress} {cs : Coins} {a a' : App} {u : Unit} :
    fundAccount address cs a = .ok u a' ↔
      a.Answers .funding ∧
        ∃ s, Ledger.mint address cs a.store = .ok u s ∧ a' = { a with store := s } := by
  unfold fundAccount
  rw [guarded_ok_iff, onLedger_ok_iff]

/-- Crediting an account fails where it is stopped and where the ledger refuses. -/
theorem fundAccount_error_iff {address : AccountAddress} {cs : Coins} {a a' : App} {e : AppError} :
    fundAccount address cs a = .error e a' ↔
      Stopped .funding a e a' ∨
        (a.Answers .funding ∧
          ∃ s, Ledger.mint address cs a.store = .error e s ∧ a' = { a with store := s }) := by
  unfold fundAccount
  rw [guarded_error_iff, onLedger_error_iff]

end TestChain.App
