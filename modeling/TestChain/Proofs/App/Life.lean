import TestChain.Proofs.App.Layers

/-!
# Lives of an application

A `Request` is a call to the application or something that a test sets, and a `Life` is an
application with the requests made to it since it was made, each of which may have failed. What the
making establishes and every request keeps holds at any moment of a life (`Life.induction`); the
first such fact is that an application whose chain has not begun is blank (`Life.blank`).
-/

namespace TestChain

namespace App

variable {α : Type}

/-- A call to an application, or something that a test sets. -/
inductive Request where
  /-- The chain is to begin. -/
  | initChain (r : InitRequest)
  /-- A block is to be opened. -/
  | beginBlock (c : BlockContext)
  /-- A proposal is to be prepared. -/
  | prepare (r : PrepareRequest)
  /-- A proposal is to be answered. -/
  | process (r : ProcessRequest)
  /-- A block is to be executed. -/
  | finalize (r : FinalizeRequest)
  /-- The finalized block is to be committed. -/
  | commit
  /-- The signing info of a validator is to be replaced. -/
  | setSigningInfo (i : SigningInfo)
  /-- An account is to be credited. -/
  | fund (address : AccountAddress) (coins : Coins)
  /-- The answer to proposals is set. -/
  | setVerdict (status : ProposalStatus)
  /-- The next proposal is to be rejected. -/
  | rejectNext
  /-- The next call in a phase is to fail. -/
  | injectFailure (p : Phase)
  /-- No call is to fail any more. -/
  | clearFailures

/-- The application after a request, whether it succeeded or not. -/
def Request.next : Request → App → App
  | .initChain r => stateAfter (App.initChain r)
  | .beginBlock c => stateAfter (App.beginBlock c)
  | .prepare r => stateAfter (prepareProposal r)
  | .process r => stateAfter (processProposal r)
  | .finalize r => stateAfter (finalizeBlock r)
  | .commit => stateAfter App.commit
  | .setSigningInfo i => stateAfter (App.setSigningInfo i)
  | .fund address coins => stateAfter (fundAccount address coins)
  | .setVerdict status => fun a => a.setVerdict status
  | .rejectNext => App.rejectNextProposal
  | .injectFailure p => fun a => a.injectFailure p
  | .clearFailures => App.clearFailures

/-- The application after some requests in order. -/
def afterAll (requests : List Request) (a : App) : App :=
  requests.foldl (fun a r => r.next a) a

/-- What every request keeps, requests in order keep. -/
theorem afterAll_induction {P : App → Prop} (step : ∀ r a, P a → P (Request.next r a))
    (requests : List Request) {a : App} (h : P a) : P (afterAll requests a) := by
  induction requests generalizing a with
  | nil => exact h
  | cons r rest ih => exact ih (step r a h)

/-- An application and the requests made to it since it was made. -/
structure Life where
  /-- The name of the chain. -/
  chainId : String
  /-- The options that it was made with. -/
  options : Options
  /-- The application as it was made. -/
  made : App
  /-- It was made from the name and the options. -/
  made_eq : App.new chainId options = .ok made
  /-- The requests, in order. -/
  requests : List Request

/-- The application now. -/
def Life.now (l : Life) : App :=
  afterAll l.requests l.made

/-- What holds of every new application and is kept by every request holds at every moment. -/
theorem Life.induction {P : App → Prop}
    (start : ∀ chainId options a, App.new chainId options = .ok a → P a)
    (step : ∀ r a, P a → P (Request.next r a)) (l : Life) : P l.now :=
  afterAll_induction step l.requests (start l.chainId l.options l.made l.made_eq)

/-! ## What no request changes -/

/-- Once a chain has begun, every request leaves its parameters. -/
theorem Request.next_params (r : Request) {a : App} (begun : a.isInitialized = true) :
    (r.next a).consensusParams = a.consensusParams := by
  cases r with
  | initChain r =>
    refine stateAfter_cases (P := fun a' : App => a'.consensusParams = a.consensusParams)
      (fun v a' h => ?_) (fun e a' h => ?_)
    -- The parameters are set here, but only where the chain had not begun.
    · obtain ⟨hi, -⟩ := initChain_ok_iff.1 h
      rw [begun] at hi
      cases hi
    · rcases initChain_error h with rfl | rfl <;> rfl
  | beginBlock c => exact (sameBlock_beginBlock c a).params
  | prepare r => exact (sameBlock_prepareProposal r a).params
  | process r => exact (sameBlock_processProposal r a).params
  | finalize r => exact (sameBlock_finalizeBlock r a).params
  | commit =>
    refine stateAfter_cases (P := fun a' : App => a'.consensusParams = a.consensusParams)
      (fun n a' h => ?_) (fun e a' h => ?_)
    · obtain ⟨-, -, height, -, rfl⟩ := commit_ok_iff.1 h
      rfl
    · rcases commit_error_iff.1 h with h | ⟨-, -, rfl, -⟩
      · exact h.sameBlock.params
      · rfl
  | setSigningInfo i => exact (sameBlock_setSigningInfo i a).params
  | fund address coins => exact (sameBlock_fundAccount address coins a).params
  | setVerdict status => rfl
  | rejectNext => rfl
  | injectFailure p => rfl
  | clearFailures => rfl

/-- A chain that has begun has begun for good. -/
theorem Request.next_begun (r : Request) {a : App} (h : a.isInitialized = true) :
    (r.next a).isInitialized = true := by
  unfold isInitialized at h ⊢
  rw [r.next_params h]
  exact h

/-! ## The ledger of a begun chain -/

/-- Every change that a begun chain makes to its ledger keeps the property. -/
structure Kept (P : Store → Prop) : Prop where
  /-- Crediting an account does. -/
  mint : ∀ address coins s, P s → P (stateAfter (Ledger.mint address coins) s)
  /-- Executing a transaction does. -/
  execute : ∀ tx s, P s → P (Ledger.execute tx s).2
  /-- Counting votes does. -/
  recordVotes : ∀ votes s, P s → P (stateAfter (Ledger.recordVotes votes) s)
  /-- Replacing a signing info does. -/
  setSigningInfo : ∀ i s, P s → P (stateAfter (Ledger.setSigningInfo i) s)
  /-- A commit does. -/
  commit : ∀ s, P s → P s.commit

namespace Kept

variable {P : Store → Prop}

/-- Where each of several properties is kept, one of them is. -/
theorem any.{u} {ι : Sort u} {P : ι → Store → Prop} (h : ∀ i, Kept (P i)) :
    Kept fun s => ∃ i, P i s where
  mint a cs s := fun ⟨i, hs⟩ => ⟨i, (h i).mint a cs s hs⟩
  execute tx s := fun ⟨i, hs⟩ => ⟨i, (h i).execute tx s hs⟩
  recordVotes votes s := fun ⟨i, hs⟩ => ⟨i, (h i).recordVotes votes s hs⟩
  setSigningInfo info s := fun ⟨i, hs⟩ => ⟨i, (h i).setSigningInfo info s hs⟩
  commit s := fun ⟨i, hs⟩ => ⟨i, (h i).commit s hs⟩

/-- Executing transactions in order keeps what executing one does. -/
theorem executeAll (h : Kept P) (txs : List Tx) {s : Store} (hs : P s) :
    P (Ledger.executeAll txs s).2 := by
  induction txs generalizing s with
  | nil => exact hs
  | cons tx rest ih => exact ih (h.execute tx s hs)

/-- What is kept holds after a request to a begun chain, successful or not. -/
theorem next (h : Kept P) (r : Request) {a : App} (begun : a.isInitialized = true)
    (ha : P a.store) : P (r.next a).store := by
  -- A stopped call leaves the store.
  have stopped : ∀ {p : Phase} {e : AppError} {a' : App}, Stopped p a e a' → P a'.store := by
    intro p e a' hstop
    rcases hstop.state with rfl | rfl <;> exact ha
  cases r with
  | initChain r =>
    refine stateAfter_cases (P := fun b : App => P b.store) (fun v a' hx => ?_) (fun e a' hx => ?_)
    · obtain ⟨hi, -⟩ := initChain_ok_iff.1 hx
      rw [begun] at hi
      cases hi
    · rcases initChain_error hx with rfl | rfl <;> exact ha
  | beginBlock c =>
    refine stateAfter_cases (P := fun b : App => P b.store) (fun u a' hx => ?_) (fun e a' hx => ?_)
    · obtain ⟨-, -, -, rfl⟩ := beginBlock_ok_iff.1 hx
      exact ha
    · rcases beginBlock_error_iff.1 hx with hx | ⟨-, rfl, -⟩
      · exact stopped hx
      · exact ha
  | prepare r =>
    refine stateAfter_cases (P := fun b : App => P b.store) (fun u a' hx => ?_) (fun e a' hx => ?_)
    · obtain ⟨-, -, rfl⟩ := prepareProposal_ok_iff.1 hx
      exact ha
    · exact stopped (prepareProposal_error_iff.1 hx)
  | process r =>
    refine stateAfter_cases (P := fun b : App => P b.store) (fun u a' hx => ?_) (fun e a' hx => ?_)
    · obtain ⟨-, -, rfl⟩ := processProposal_ok_iff.1 hx
      exact ha
    · exact stopped (processProposal_error_iff.1 hx)
  | finalize r =>
    have counted := h.recordVotes r.votes a.store ha
    refine stateAfter_cases (P := fun b : App => P b.store) (fun f a' hx => ?_) (fun e a' hx => ?_)
    · obtain ⟨-, -, s, hs, -, rfl⟩ := finalizeBlock_ok_iff.1 hx
      rw [stateAfter_of_ok hs] at counted
      exact h.executeAll r.txs counted
    · rcases finalizeBlock_error_iff.1 hx with hx | ⟨-, ⟨-, rfl, -⟩ | ⟨-, s, hs, rfl⟩⟩
      · exact stopped hx
      · exact ha
      · rw [stateAfter_of_error hs] at counted
        exact counted
  -- Only a commit moves the store itself; the other requests write to it or leave it.
  | commit =>
    refine stateAfter_cases (P := fun b : App => P b.store) (fun u a' hx => ?_) (fun e a' hx => ?_)
    · obtain ⟨-, -, height, -, rfl⟩ := commit_ok_iff.1 hx
      exact h.commit a.store ha
    · rcases commit_error_iff.1 hx with hx | ⟨-, -, rfl, -⟩
      · exact stopped hx
      · exact ha
  | setSigningInfo i =>
    exact onLedger_cases (P := fun b : App => P b.store) (fun _ _ hx => stopped hx)
      (h.setSigningInfo i a.store ha)
  | fund address coins =>
    exact onLedger_cases (P := fun b : App => P b.store) (fun _ _ hx => stopped hx)
      (h.mint address coins a.store ha)
  | setVerdict status => exact ha
  | rejectNext => exact ha
  | injectFailure p => exact ha
  | clearFailures => exact ha

/-- What is kept holds after any requests to a begun chain. -/
theorem afterAll (h : Kept P) (requests : List Request) {a : App} (begun : a.isInitialized = true)
    (ha : P a.store) : P (App.afterAll requests a).store :=
  (afterAll_induction (P := fun a => a.isInitialized = true ∧ P a.store)
    (fun r _ hb => ⟨r.next_begun hb.1, h.next r hb.1 hb.2⟩) requests ⟨begun, ha⟩).2

end Kept

/-! ## Before the chain begins -/

/-- Nothing was written, no block was opened. -/
structure Blank (a : App) : Prop where
  /-- The store is fresh. -/
  store : a.store = .fresh
  /-- No block is open. -/
  current : a.current = none
  /-- No block is finalized. -/
  finalized : a.finalized = none
  /-- No block is committed. -/
  lastHeight : a.lastHeight = 0
  /-- No state is committed. -/
  lastAppHash : a.lastAppHash = .zero

/-- Before the chain begins, a guarded call changes nothing. -/
theorem stateAfter_guarded {p : Phase} (x : Call α) {a : App} (hi : a.isInitialized = false) :
    stateAfter (do ensureInitialized; checkFailure p; x : Call α) a = a := by
  refine stateAfter_of_error (e := .notInitialized) (guarded_error_iff.2 (.inl ?_))
  exact .notInitialized hi

/-- Before the chain begins, a request that does not begin it changes nothing but what tests set. -/
theorem Request.next_blank (r : Request) {a : App} (h : a.isInitialized = false → a.Blank) :
    (r.next a).isInitialized = false → (r.next a).Blank := by
  intro hn
  cases hi : a.isInitialized with
  | true =>
    rw [r.next_begun hi] at hn
    cases hn
  | false =>
    have hb := h hi
    -- What is left of the guarded calls is the application as it was.
    have unchanged : ∀ {b : App}, b = a → b.Blank := fun hba => hba ▸ hb
    cases r with
    | initChain r =>
      revert hn
      refine stateAfter_cases (P := fun b : App => b.isInitialized = false → b.Blank)
        (fun v a' h => ?_) (fun e a' h => ?_)
      · obtain ⟨-, -, -, d, o, -, -, rfl, -⟩ := initChain_ok_iff.1 h
        intro hn
        cases hn
      · rcases initChain_error h with rfl | rfl
        · exact fun _ => hb
        · exact fun _ => ⟨hb.store, hb.current, hb.finalized, hb.lastHeight, hb.lastAppHash⟩
    | beginBlock c => exact unchanged (stateAfter_guarded _ hi)
    | prepare r => exact unchanged (stateAfter_guarded _ hi)
    | process r => exact unchanged (stateAfter_guarded _ hi)
    | finalize r => exact unchanged (stateAfter_guarded _ hi)
    | commit => exact unchanged (stateAfter_guarded _ hi)
    | setSigningInfo i => exact unchanged (stateAfter_guarded _ hi)
    | fund address coins => exact unchanged (stateAfter_guarded _ hi)
    | setVerdict status =>
      exact ⟨hb.store, hb.current, hb.finalized, hb.lastHeight, hb.lastAppHash⟩
    | rejectNext => exact ⟨hb.store, hb.current, hb.finalized, hb.lastHeight, hb.lastAppHash⟩
    | injectFailure p => exact ⟨hb.store, hb.current, hb.finalized, hb.lastHeight, hb.lastAppHash⟩
    | clearFailures => exact ⟨hb.store, hb.current, hb.finalized, hb.lastHeight, hb.lastAppHash⟩

/-- As long as its chain has not begun, an application is blank. -/
theorem Life.blank (l : Life) : l.now.isInitialized = false → l.now.Blank := by
  refine l.induction (P := fun a => a.isInitialized = false → a.Blank)
    (fun chainId options a h => ?_) fun r a h => r.next_blank h
  unfold App.new at h
  split at h
  · cases h
  · cases h
    exact fun _ => ⟨rfl, rfl, rfl, rfl, rfl⟩

end App

end TestChain
