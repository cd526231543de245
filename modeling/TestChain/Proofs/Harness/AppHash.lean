import TestChain.Proofs.Harness.Lockstep
import TestChain.Proofs.Store.Root

/-!
# The hash of the application

The hash of the last committed state is computed three times: the store hashes its entries when it
commits, the application keeps what the commit gave, and the response for an executed block has the
preview of the commit to come. `HashAgrees` says that the first two agree with what is committed.
Only the beginning of a chain and a commit change any of them, so it holds at every moment of a run
(`Run.hashAgrees`); then the preview is right, since a store whose root is the hash of its entries
may take the root as it is where nothing is pending. The main theorem is `appHash_agrees`.
-/

namespace TestChain

namespace App

/-- The application has the root of its store as its hash, and that is the hash of the committed
entries. -/
structure HashAgrees (a : App) : Prop where
  /-- The application's hash is the root. -/
  root : a.lastAppHash = a.store.root
  /-- The root is the hash of the entries. -/
  rooted : a.store.Rooted

/-- At the same committed block the hashes agree alike. -/
theorem HashAgrees.of_sameBlock {a a' : App} (h : a.HashAgrees) (same : a.SameBlock a') :
    a'.HashAgrees where
  root := by rw [same.lastAppHash, same.store.root, h.root]
  rooted := by
    unfold Store.Rooted
    rw [same.store.root, same.store.committed]
    exact h.rooted

/-- A commit makes the hashes agree. -/
theorem hashAgrees_sealed (a : App) (height : UInt64) : (a.sealed height).HashAgrees :=
  ⟨rfl, Store.rooted_commit _⟩

/-- The beginning of a chain makes the hashes agree. -/
theorem hashAgrees_initChain {r : InitRequest} {a a' : App} {v : InitResponse}
    (h : initChain r a = .ok v a') : a'.HashAgrees := by
  obtain ⟨-, -, -, d, o, -, -, rfl, -⟩ := initChain_ok_iff.1 h
  exact ⟨rfl, Store.rooted_commit _⟩

/-- The response for an executed block has the hash that its commit gives. -/
theorem appHash_of_commit {r : FinalizeRequest} {f : FinalizeResponse} {a a₁ a₂ : App} {n : UInt64}
    (agrees : a.HashAgrees) (hfinalize : finalizeBlock r a = .ok f a₁)
    (hcommit : commit a₁ = .ok n a₂) : f.appHash = a₂.lastAppHash := by
  -- The execution writes on top of the commit before it, so the root is still right.
  have executed := agrees.of_sameBlock ((sameBlock_finalizeBlock r a).of_ok hfinalize)
  obtain ⟨-, -, s, -, rfl, rfl⟩ := finalizeBlock_ok_iff.1 hfinalize
  obtain ⟨-, -, height, -, rfl⟩ := commit_ok_iff.1 hcommit
  exact (Store.previewRoot_eq_iff _).2 (.inr executed.rooted)

/-- A commit raises the version by one. -/
theorem version_of_commit {a a' : App} {n : UInt64} (h : commit a = .ok n a') :
    a'.store.version = a.store.version + 1 := by
  obtain ⟨-, -, height, -, rfl⟩ := commit_ok_iff.1 h
  rfl

end App

namespace Harness

/-- Seeding the signing infos leaves the committed block. -/
theorem sameBlock_seedSigningInfos (height : UInt64) (a : App) :
    a.SameBlock (stateAfter (seedSigningInfos height) a) := by
  have ask : Ends a.SameBlock (App.onLedger (Ledger.ask Ledger.validators))
      (fun _ => a.SameBlock) fun _ => a.SameBlock := by
    refine .of_stateAfter fun b hb => hb.trans ?_
    refine stateAfter_cases (fun vs b' h => ?_) (fun e b' h => ?_)
    · obtain ⟨s, hs, rfl⟩ := App.onLedger_ok_iff.1 h
      have top := Ledger.OnTop.ask Ledger.validators b.store
      rw [stateAfter_of_ok hs] at top
      exact App.sameBlock_store top
    · obtain ⟨s, hs, rfl⟩ := App.onLedger_error_iff.1 h
      have top := Ledger.OnTop.ask Ledger.validators b.store
      rw [stateAfter_of_error hs] at top
      exact App.sameBlock_store top
  refine (ask.bind fun vs => .forM fun v _ => ?_).stateAfter (App.SameBlock.refl a)
  exact .of_stateAfter fun b hb => hb.trans (App.sameBlock_setSigningInfo _ b)

/-- The hashes of the application of a harness agree. -/
def HashAgrees (h : Harness) : Prop :=
  h.app.HashAgrees

/-- The parts of the operations keep the hashes in agreement. -/
theorem hashAgrees_keeps : Keeps HashAgrees fun _ => HashAgrees where
  refuse e h _ agrees := agrees
  openBlock epoch seconds proposer := by
    refine ends_openBlock ?refused ?failed ?opened
    case refused => exact fun h e agrees _ => agrees
    case failed =>
      intro h e a agrees _ ha
      exact agrees.of_sameBlock ((App.sameBlock_beginBlock _ _).of_error ha)
    case opened =>
      intro h a agrees _ ha
      exact agrees.of_sameBlock ((App.sameBlock_beginBlock _ _).of_ok ha)
  push h b tx _ agrees := agrees
  endBlock := by
    refine ends_endBlock ?refused ?failed ?closed
    case refused => exact fun h e agrees _ => agrees
    case failed => exact fun h b e a agrees _ failure => agrees.of_sameBlock failure.sameBlock
    case closed =>
      intro h b f a _ _ closing
      obtain ⟨a₂, a₃, n, -, -, hcommit⟩ := closing.steps
      obtain ⟨-, -, height, -, rfl⟩ := App.commit_ok_iff.1 hcommit
      exact App.hashAgrees_sealed a₃ height
  fund address coins := by
    refine ends_fund ?failed ?credited
    case failed =>
      intro h e a agrees ha
      exact agrees.of_sameBlock ((App.sameBlock_fundAccount address coins h.app).of_error ha)
    case credited =>
      intro h a agrees ha
      exact agrees.of_sameBlock ((App.sameBlock_fundAccount address coins h.app).of_ok ha)
  rng h rng agrees := agrees
  addKey h key agrees := agrees

/-- At every moment of a run the hashes agree. -/
theorem Run.hashAgrees (r : Run) : r.now.HashAgrees := by
  refine r.induction (fun l around c h hok => ?_) fun op h agrees => ?_
  · obtain ⟨-, d, key, rng, v, app₁, app₂, registry, -, hinit, hseed, -, rfl⟩ := init_ok_iff.1 hok
    have seeded := (sameBlock_seedSigningInfos 0 app₁).of_ok hseed
    exact (App.hashAgrees_initChain hinit).of_sameBlock seeded
  · have turned : ∀ (k : Knob) h, HashAgrees h → HashAgrees (onApp k.turn h) := fun k h agrees =>
      agrees.of_sameBlock (k.sameBlock_turn h.app)
    exact (hashAgrees_keeps.op (fun _ agrees => agrees) turned op).stateAfter agrees

/-- At every moment of a run the hash of the application is the root of its store, and that is the
hash of the committed entries in the order of their keys: of each entry the key and then the value,
each behind its length in eight bytes, the highest first. Closing a block, whatever is in it,
answers with the hash that the application has afterwards, and raises the version of the store by
one. -/
theorem appHash_agrees (r : Run) :
    r.now.app.lastAppHash = r.now.app.store.root ∧
      r.now.app.store.root = .of (r.now.app.store.committed.toList.flatMap fun e =>
        Bytes.bigEndian 8 e.1.length ++ e.1 ++ (Bytes.bigEndian 8 e.2.length ++ e.2)) ∧
      ∀ f h', endBlock r.now = .ok f h' →
        f.appHash = h'.app.lastAppHash ∧
          h'.app.store.version = r.now.app.store.version + 1 := by
  have agrees : r.now.app.HashAgrees := r.hashAgrees
  refine ⟨agrees.root, agrees.rooted.root_eq, fun f h' hok => ?_⟩
  obtain ⟨b, a, -, closing, rfl⟩ := endBlock_ok hok
  obtain ⟨a₂, a₃, n, accepted, hfinalize, hcommit⟩ := closing.steps
  refine ⟨App.appHash_of_commit (agrees.of_sameBlock accepted.sameBlock) hfinalize hcommit, ?_⟩
  -- Up to the commit the version stays.
  have executed := accepted.sameBlock.trans ((App.sameBlock_finalizeBlock _ _).of_ok hfinalize)
  show a.store.version = r.now.app.store.version + 1
  rw [App.version_of_commit hcommit, executed.store.version]

end Harness

end TestChain
