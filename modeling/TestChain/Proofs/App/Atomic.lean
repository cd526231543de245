import TestChain.Proofs.App.Begun
import TestChain.Proofs.Harness.Beginning

/-!
# Calls that fail change nothing

Some calls read stored values between their writes, so a value of a wrong type would leave them half
done. The store of an application is always well typed (`App.Life.wellTyped`), so once such a call
has written something it cannot fail any more, and a call that fails leaves the application as it
was, but for an injected failure that it has met (`App.Atomic`). A chain that could not begin can
begin with the next request as it would have before (`App.Life.calls_atomic`).
-/

namespace TestChain

namespace App

variable {α : Type}

/-- Where a call in a phase fails, the application stays as it was; an injected failure of the phase
is used up if it is the reason. -/
def Atomic (p : Phase) (x : Call α) (a : App) : Prop :=
  ∀ e a', x a = .error e a' →
    a' = a ∨ (e = .aborted p ∧ a.failures.contains p = true ∧ a' = a.spent p)

/-- A stopped call changes nothing but the injected failure that has stopped it. -/
theorem Stopped.atomic {p : Phase} {a a' : App} {e : AppError} (h : Stopped p a e a') :
    a' = a ∨ (e = .aborted p ∧ a.failures.contains p = true ∧ a' = a.spent p) := by
  cases h with
  | notInitialized h => exact .inl rfl
  | aborted h hp => exact .inr ⟨rfl, hp, rfl⟩

/-- A change of the ledger that is refused before it writes is atomic. -/
theorem atomic_onLedger {p : Phase} {x : Ledger.Action α} {a : App}
    (hx : ∀ e s, x a.store = .error e s → s = a.store) :
    Atomic p (do ensureInitialized; checkFailure p; onLedger x : Call α) a := by
  intro e a' h
  rcases guarded_error_iff.1 h with h | ⟨-, h⟩
  · exact h.atomic
  · obtain ⟨s, hs, rfl⟩ := onLedger_error_iff.1 h
    rw [hx e s hs]
    exact .inl rfl

/-- The chain begins, or nothing is written. -/
theorem atomic_initChain (r : InitRequest) (a : App) : Atomic .initChain (initChain r) a := by
  intro e a' h
  -- The tests come first, and what the document writes cannot fail.
  rw [initChain_eq] at h
  split at h
  · cases h
    exact .inl rfl
  split at h
  · cases h
    exact .inr ⟨rfl, ‹_›, rfl⟩
  split at h
  · cases h
    exact .inl rfl
  split at h
  · cases h
    exact .inl rfl
  · split at h
    · cases h
      exact .inl rfl
    · cases h

/-- A block is opened, or nothing happens. -/
theorem atomic_beginBlock (c : BlockContext) (a : App) : Atomic .beginBlock (beginBlock c) a := by
  intro e a' h
  rcases beginBlock_error_iff.1 h with h | ⟨-, rfl, -⟩
  · exact h.atomic
  · exact .inl rfl

/-- A block is committed, or nothing happens. -/
theorem atomic_commit (a : App) : Atomic .commit commit a := by
  intro e a' h
  rcases commit_error_iff.1 h with h | ⟨-, -, rfl, -⟩
  · exact h.atomic
  · exact .inl rfl

/-- A block is finalized, or no vote is counted, if the store is well typed. -/
theorem atomic_finalizeBlock {t : Ledger.Typing} {a : App} (typed : Ledger.WellTyped t a.store)
    (r : FinalizeRequest) : Atomic .finalize (finalizeBlock r) a := by
  intro e a' h
  rcases finalizeBlock_error_iff.1 h with h | ⟨-, ⟨-, rfl, -⟩ | ⟨-, s, hs, rfl⟩⟩
  · exact h.atomic
  · exact .inl rfl
  · obtain ⟨s', counted, -⟩ := typed.recordVotes r.votes
    rw [hs] at counted
    cases counted

/-- What is refused without a write, or else succeeds, is refused without a write. -/
theorem store_of_error {t : Ledger.Typing} {x : Ledger.Action Unit} {s s' : Store} {e : AppError}
    (hx : (∃ e, x s = .error e s) ∨ ∃ s', x s = .ok () s' ∧ Ledger.WellTyped t s')
    (h : x s = .error e s') : s' = s := by
  rcases hx with ⟨f, hx⟩ | ⟨s'', hx, -⟩
  · rw [hx] at h
    cases h
    rfl
  · rw [hx] at h
    cases h

/-- Before a chain has begun, a request that cannot begin it leaves the application as it is without
an injected failure. -/
theorem initChain_error_of_not_begun {r : InitRequest} {a a' : App} {e : AppError}
    (hi : a.isInitialized = false) (h : initChain r a = .error e a') :
    a' = a.spent .initChain := by
  rcases atomic_initChain r a e a' h with rfl | ⟨-, -, rfl⟩
  · -- Nothing was injected, or it would have been the reason.
    cases hf : a'.failures.contains .initChain with
    | true =>
      rw [initChain_eq, if_neg (by simp only [hi, Bool.false_eq_true, not_false_eq_true]),
        if_pos hf] at h
      exact (EStateM.Result.error.inj h).2.symm
    | false =>
      have same : a'.failures.filter (· ≠ Phase.initChain) = a'.failures :=
        List.filter_eq_self.2 fun p hp => decide_eq_true fun hpe => by
          rw [← hpe, List.contains_iff_mem.2 hp] at hf
          cases hf
      unfold spent
      rw [same]
  · rfl

/-- Every call to an application is atomic, at every moment. In particular, after a request that has
not begun the chain the application is as it was, without an injected failure, and a request with
an acceptable document begins the chain with the states of this document alone. -/
theorem Life.calls_atomic (l : Life) :
    (∀ r, Atomic .initChain (initChain r) l.now) ∧
      (∀ c, Atomic .beginBlock (beginBlock c) l.now) ∧
      (∀ r, Atomic .prepare (prepareProposal r) l.now) ∧
      (∀ r, Atomic .process (processProposal r) l.now) ∧
      (∀ r, Atomic .finalize (finalizeBlock r) l.now) ∧
      Atomic .commit commit l.now ∧
      (∀ i, Atomic .signingInfo (setSigningInfo i) l.now) ∧
      (∀ address cs, Atomic .funding (fundAccount address cs) l.now) ∧
      ∀ r e a', initChain r l.now = .error e a' → l.now.isInitialized = false →
        a' = l.now.spent .initChain ∧
          ∀ r' d o, r'.chainId = l.now.chainId → acceptedDocument r' = .ok d →
            Ledger.Opening.ofDocument d = .ok o →
            ∃ v, initChain r' a' = .ok v (a'.opened r' (Ledger.genesisStore d o .fresh)) := by
  have typed := l.wellTyped (Ledger.Typing.closed_true fun _ => True)
    (fun _ _ _ _ => ⟨fun _ _ => trivial, trivial⟩) fun _ _ _ _ => trivial
  refine ⟨fun r => atomic_initChain r _, fun c => atomic_beginBlock c _, fun r e a' h => ?_,
    fun r e a' h => ?_, atomic_finalizeBlock typed, atomic_commit _, fun i => ?_,
    fun address cs => ?_, fun r e a' h hi => ?_⟩
  · exact (prepareProposal_error_iff.1 h).atomic
  · exact (processProposal_error_iff.1 h).atomic
  · exact atomic_onLedger fun e s => store_of_error (typed.setSigningInfo i)
  · exact atomic_onLedger fun e s =>
      store_of_error (typed.mint (Ledger.Typing.closed_true _) address cs)
  · have left := initChain_error_of_not_begun hi h
    refine ⟨left, fun r' d o hchain hd ho => ?_⟩
    have spared : a'.failures.contains .initChain = false := by
      rw [left]
      simp [spent]
    have blank : a'.store = .fresh := by
      rw [left]
      exact (l.blank hi).store
    refine ⟨_, initChain_ok_iff.2 ⟨?_, spared, ?_, d, o, hd, ho, ?_, rfl⟩⟩
    · rw [left]
      exact hi
    · rw [left]
      exact hchain
    · rw [blank]

/-- A request with an acceptable document fails where a failure is injected, and succeeds when it is
made once more. -/
theorem exists_retried_beginning :
    ∃ (l : Life) (r : InitRequest) (a' b : App) (v : InitResponse),
      initChain r l.now = .error (.aborted .initChain) a' ∧ a' ≠ l.now ∧
        initChain r a' = .ok v b := by
  have buildable := Harness.buildable_crediting [] (by decide)
    (Harness.fundedAddress ⟨1700000000000, 1⟩ (Harness.crediting []))
  obtain ⟨r, d, o, hr, haccepted, ho⟩ : ∃ r d o,
      r.chainId = (Harness.crediting []).chainId ∧ acceptedDocument r = .ok d ∧
        Ledger.Opening.ofDocument d = .ok o := by
    obtain ⟨d, key, o, builds, -⟩ := Harness.builds_of_buildable buildable
    exact ⟨_, d, o, rfl, builds.accepted, builds.opening⟩
  obtain ⟨l, h, hnew, -, -⟩ := Harness.start_of_buildable rfl buildable
  obtain ⟨hi, -, hfailures, hchain⟩ := Harness.newApp_ok hnew
  have injected : ∃ l' : Life, l'.now = l.now.injectFailure .initChain := by
    refine ⟨{ l with requests := l.requests ++ [.injectFailure .initChain] }, ?_⟩
    exact List.foldl_append
  obtain ⟨l', hl'⟩ := injected
  have hi' : l'.now.isInitialized = false := by
    rw [hl']
    exact hi
  have fails : initChain r l'.now = .error (.aborted .initChain) (l'.now.spent .initChain) := by
    have stopped : l'.now.failures.contains .initChain = true := by
      rw [hl']
      simp [injectFailure]
    rw [initChain_eq, hi', if_neg Bool.false_ne_true, if_pos stopped]
  obtain ⟨-, -, -, -, -, -, -, -, retried⟩ := l'.calls_atomic
  obtain ⟨left, retry⟩ := retried _ _ _ fails hi'
  obtain ⟨v, again⟩ := retry r d o (by rw [hr, hl']; exact hchain) haccepted ho
  refine ⟨l', r, _, _, v, fails, fun same => ?_, again⟩
  -- The injected failure is used up.
  have failures := congrArg App.failures same
  rw [hl', spent, injectFailure] at failures
  simp at failures

end App

end TestChain
