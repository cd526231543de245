import TestChain.Proofs.App.Genesis

/-!
# The committed layer

The ledger writes to the changes that lie on top of what is committed, and never to the committed
entries (`Ledger.OnTop`). So of the calls of a block's life only the commit moves the application to
another committed block; every other one, successful or not, leaves it at the same (`SameBlock`).
-/

namespace TestChain

/-- Two stores have the same last commit. -/
structure Store.SameCommit (s s' : Store) : Prop where
  /-- The committed entries agree. -/
  committed : s'.committed = s.committed
  /-- The numbers of commits agree. -/
  version : s'.version = s.version
  /-- The hashes of the last commits agree. -/
  root : s'.root = s.root

namespace Store

/-- A store has the last commit that it has. -/
theorem SameCommit.refl (s : Store) : s.SameCommit s := ⟨rfl, rfl, rfl⟩

/-- Having the same last commit carries over. -/
theorem SameCommit.trans {s t u : Store} (h : s.SameCommit t) (h' : t.SameCommit u) :
    s.SameCommit u :=
  ⟨h'.committed.trans h.committed, h'.version.trans h.version, h'.root.trans h.root⟩

/-- Writing a value leaves the last commit. -/
theorem sameCommit_write {α : Type} (s : Store) (c : Codec α) (k : Bytes) (a : α) :
    s.SameCommit (s.write c k a) := ⟨rfl, rfl, rfl⟩

end Store

namespace Ledger

variable {α β : Type}

/-- An action that leaves the last commit, whether it succeeds or not. -/
def OnTop (x : Action α) : Prop :=
  ∀ s : Store, s.SameCommit (stateAfter x s)

namespace OnTop

/-- An action that changes nothing is one. -/
theorem of_eq {x : Action α} (h : ∀ s, stateAfter x s = s) : OnTop x := by
  intro s
  rw [h s]
  exact .refl s

/-- Two such actions in order are one. -/
theorem bind {x : Action α} {f : α → Action β} (hx : OnTop x) (hf : ∀ a, OnTop (f a)) :
    OnTop (x >>= f) := by
  intro s
  have hxs := hx s
  cases hr : x s with
  | ok a s' =>
    rw [stateAfter_of_ok hr] at hxs
    unfold stateAfter
    rw [bind_of_ok hr]
    exact hxs.trans (hf a s')
  | error e s' =>
    rw [stateAfter_of_error hr] at hxs
    rw [stateAfter_of_error (bind_of_error hr f)]
    exact hxs

/-- Asking is one. -/
theorem ask (q : Query α) : OnTop (Ledger.ask q) := by
  refine of_eq fun s => ?_
  unfold stateAfter Ledger.ask
  cases q s with
  | ok a => rfl
  | error e => rfl

/-- Writing a value is one. -/
theorem put (c : Codec α) (k : Bytes) (a : α) : OnTop (Ledger.put c k a) :=
  fun s => s.sameCommit_write c k a

/-- The test of denominations is one. -/
theorem checkCoins (cs : Coins) : OnTop (Ledger.checkCoins cs) := by
  refine of_eq fun s => ?_
  unfold stateAfter Ledger.checkCoins
  cases cs.check with
  | ok u => rfl
  | error e => rfl

/-- Such actions for the elements of a list are one. -/
theorem forM {l : List β} {f : β → Action PUnit} (h : ∀ b ∈ l, OnTop (f b)) :
    OnTop (l.forM f) := by
  induction l with
  | nil => exact of_eq fun s => rfl
  | cons b rest ih =>
    refine bind (h b List.mem_cons_self) fun _ => ?_
    exact ih fun c hc => h c (List.mem_cons_of_mem _ hc)

/-- Opening an account is one. -/
theorem ensureAccount (a : AccountAddress) : OnTop (Ledger.ensureAccount a) := by
  unfold Ledger.ensureAccount
  refine bind (of_eq fun s => rfl) fun s => ?_
  split
  · exact put _ _ _
  · exact of_eq fun s => rfl

/-- Creating coins is one. -/
theorem mint (a : AccountAddress) (cs : Coins) : OnTop (Ledger.mint a cs) := by
  unfold Ledger.mint
  refine bind (checkCoins cs) fun _ => bind (ask _) fun held => bind (put _ _ _) fun _ => ?_
  exact bind (ask _) fun total => bind (put _ _ _) fun _ => ensureAccount a

/-- Moving coins is one. -/
theorem transfer (t : Transfer) : OnTop (Ledger.transfer t) := by
  unfold Ledger.transfer
  refine bind (checkCoins _) fun _ => bind (ask _) fun held => ?_
  cases subAll? held t.amount with
  | none => exact of_eq fun s => rfl
  | some rest =>
    refine bind (put _ _ _) fun _ => bind (ask _) fun received => ?_
    exact bind (put _ _ _) fun _ => ensureAccount _

/-- Counting a vote is one. -/
theorem recordVote (v : Vote) : OnTop (Ledger.recordVote v) := by
  unfold Ledger.recordVote
  refine bind (ask _) fun i => ?_
  cases i with
  | none => exact of_eq fun s => rfl
  | some i => exact put _ _ _

/-- Counting votes is one. -/
theorem recordVotes (votes : List Vote) : OnTop (Ledger.recordVotes votes) :=
  forM fun v _ => recordVote v

/-- Replacing a signing info is one. -/
theorem setSigningInfo (i : SigningInfo) : OnTop (Ledger.setSigningInfo i) := by
  unfold Ledger.setSigningInfo
  refine bind (ask _) fun known => ?_
  split
  · exact put _ _ _
  · exact of_eq fun s => rfl

end OnTop

/-- A transaction leaves the last commit. -/
theorem sameCommit_execute (tx : Tx) (s : Store) : s.SameCommit (execute tx s).2 := by
  unfold execute
  split
  · exact .refl s
  · rename_i t _
    have := OnTop.transfer t s
    cases hr : Ledger.transfer t s with
    | ok u s' =>
      rw [stateAfter_of_ok hr] at this
      exact this
    | error e s' =>
      rw [stateAfter_of_error hr] at this
      exact this

/-- Transactions leave the last commit. -/
theorem sameCommit_executeAll (txs : List Tx) (s : Store) :
    s.SameCommit (executeAll txs s).2 := by
  induction txs generalizing s with
  | nil => exact .refl s
  | cons tx rest ih => exact (sameCommit_execute tx s).trans (ih _)

end Ledger

namespace App

/-- Two applications of one chain are at the same committed block. -/
structure SameBlock (a a' : App) : Prop where
  /-- The names of the chains agree. -/
  chainId : a'.chainId = a.chainId
  /-- The parameters of the consensus agree. -/
  params : a'.consensusParams = a.consensusParams
  /-- The heights of the last committed blocks agree. -/
  lastHeight : a'.lastHeight = a.lastHeight
  /-- The hashes of the last committed states agree. -/
  lastAppHash : a'.lastAppHash = a.lastAppHash
  /-- The stores have the same last commit. -/
  store : a.store.SameCommit a'.store

/-- An application is at the block at which it is. -/
theorem SameBlock.refl (a : App) : a.SameBlock a := ⟨rfl, rfl, rfl, rfl, .refl _⟩

/-- Being at the same block carries over. -/
theorem SameBlock.trans {a b c : App} (h : a.SameBlock b) (h' : b.SameBlock c) : a.SameBlock c :=
  ⟨h'.chainId.trans h.chainId, h'.params.trans h.params, h'.lastHeight.trans h.lastHeight,
    h'.lastAppHash.trans h.lastAppHash, h.store.trans h'.store⟩

/-- The next height is that of the block at which the application is. -/
theorem SameBlock.nextHeight {a a' : App} (h : a.SameBlock a') : a'.nextHeight = a.nextHeight := by
  unfold App.nextHeight
  rw [h.lastHeight]

/-- Whether the chain has begun is a matter of its parameters. -/
theorem SameBlock.isInitialized {a a' : App} (h : a.SameBlock a') :
    a'.isInitialized = a.isInitialized := by
  unfold App.isInitialized
  rw [h.params]

/-- Another store with the same last commit leaves the block. -/
theorem sameBlock_store {a : App} {s : Store} (h : a.store.SameCommit s) :
    a.SameBlock { a with store := s } := ⟨rfl, rfl, rfl, rfl, h⟩

/-- A call that leaves the block leaves it where it succeeds. -/
theorem SameBlock.of_ok {α : Type} {x : Call α} {a a' : App} {r : α}
    (h : a.SameBlock (stateAfter x a)) (hx : x a = .ok r a') : a.SameBlock a' := by
  rw [stateAfter_of_ok hx] at h
  exact h

/-- A call that leaves the block leaves it where it fails. -/
theorem SameBlock.of_error {α : Type} {x : Call α} {a a' : App} {e : AppError}
    (h : a.SameBlock (stateAfter x a)) (hx : x a = .error e a') : a.SameBlock a' := by
  rw [stateAfter_of_error hx] at h
  exact h

/-- A stopped call leaves the block. -/
theorem Stopped.sameBlock {p : Phase} {a a' : App} {e : AppError} (h : Stopped p a e a') :
    a.SameBlock a' := by
  rcases h.state with rfl | rfl <;> exact ⟨rfl, rfl, rfl, rfl, .refl _⟩

/-- Opening a block leaves the committed one. -/
theorem sameBlock_beginBlock (c : BlockContext) (a : App) :
    a.SameBlock (stateAfter (beginBlock c) a) := by
  refine stateAfter_cases (fun u a' h => ?_) (fun e a' h => ?_)
  · obtain ⟨-, -, -, rfl⟩ := beginBlock_ok_iff.1 h
    exact ⟨rfl, rfl, rfl, rfl, .refl _⟩
  · rcases beginBlock_error_iff.1 h with h | ⟨-, rfl, -⟩
    · exact h.sameBlock
    · exact .refl _

/-- Preparing a proposal leaves the committed block. -/
theorem sameBlock_prepareProposal (r : PrepareRequest) (a : App) :
    a.SameBlock (stateAfter (prepareProposal r) a) := by
  refine stateAfter_cases (fun txs a' h => ?_) (fun e a' h => ?_)
  · obtain ⟨-, -, rfl⟩ := prepareProposal_ok_iff.1 h
    exact ⟨rfl, rfl, rfl, rfl, .refl _⟩
  · exact (prepareProposal_error_iff.1 h).sameBlock

/-- Answering a proposal leaves the committed block. -/
theorem sameBlock_processProposal (r : ProcessRequest) (a : App) :
    a.SameBlock (stateAfter (processProposal r) a) := by
  refine stateAfter_cases (fun status a' h => ?_) (fun e a' h => ?_)
  · obtain ⟨-, -, rfl⟩ := processProposal_ok_iff.1 h
    exact ⟨rfl, rfl, rfl, rfl, .refl _⟩
  · exact (processProposal_error_iff.1 h).sameBlock

/-- Executing a block leaves the committed one. -/
theorem sameBlock_finalizeBlock (r : FinalizeRequest) (a : App) :
    a.SameBlock (stateAfter (finalizeBlock r) a) := by
  refine stateAfter_cases (fun f a' h => ?_) (fun e a' h => ?_)
  · obtain ⟨-, -, s, hs, -, rfl⟩ := finalizeBlock_ok_iff.1 h
    -- The votes are counted first, and the transactions are executed on top of them.
    have counted := Ledger.OnTop.recordVotes r.votes a.store
    rw [stateAfter_of_ok hs] at counted
    exact ⟨rfl, rfl, rfl, rfl, counted.trans (Ledger.sameCommit_executeAll r.txs s)⟩
  · rcases finalizeBlock_error_iff.1 h with h | ⟨-, ⟨-, rfl, -⟩ | ⟨-, s, hs, rfl⟩⟩
    · exact h.sameBlock
    · exact .refl _
    · have counted := Ledger.OnTop.recordVotes r.votes a.store
      rw [stateAfter_of_error hs] at counted
      exact sameBlock_store counted

/-- Replacing a signing info leaves the committed block. -/
theorem sameBlock_setSigningInfo (i : SigningInfo) (a : App) :
    a.SameBlock (stateAfter (setSigningInfo i) a) :=
  onLedger_cases (fun _ _ h => h.sameBlock)
    (sameBlock_store (Ledger.OnTop.setSigningInfo i a.store))

/-- Crediting an account leaves the committed block. -/
theorem sameBlock_fundAccount (address : AccountAddress) (coins : Coins) (a : App) :
    a.SameBlock (stateAfter (fundAccount address coins) a) :=
  onLedger_cases (fun _ _ h => h.sameBlock)
    (sameBlock_store (Ledger.OnTop.mint address coins a.store))

end App

end TestChain
