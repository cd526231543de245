import TestChain.Proofs.App.Typed
import TestChain.Proofs.Harness.Lockstep

/-!
# What is kept of the store

The operations of a harness change the store of its application only by requests to it. So what
every change of the ledger keeps (`App.Kept`), every operation keeps, whether it succeeds or not
(`stored_keeps`), and what the genesis has besides holds at every moment of a run (`Run.stored`):
what is stored for a record is one (`Run.wellTyped`).
-/

namespace TestChain

/-- The chain has begun, and the store has a property. -/
structure App.Stored (P : Store → Prop) (a : App) : Prop where
  /-- The chain has begun. -/
  begun : a.isInitialized = true
  /-- The store has the property. -/
  store : P a.store

namespace App

variable {P : Store → Prop}

/-- What is kept holds after a request. -/
theorem Kept.stored (kept : Kept P) (r : Request) {a a' : App} (h : a.Stored P)
    (next : r.next a = a') : a'.Stored P := by
  rw [← next]
  exact ⟨r.next_begun h.begun, kept.next r h.begun h.store⟩

end App

namespace Harness

variable {P : Store → Prop}

/-- The chain has begun, and the store of the application has a property. -/
def Stored (P : Store → Prop) (h : Harness) : Prop :=
  h.app.Stored P

/-- An application that has accepted a proposal has kept what is kept. -/
theorem Accepted.stored (kept : App.Kept P) {h : Harness} {b : PendingBlock} {a : App}
    (accepted : h.Accepted b a) (stored : h.Stored P) : a.Stored P := by
  obtain ⟨proposed, status, a₁, hprepare, hprocess, -⟩ := accepted.steps
  have prepared := kept.stored (.prepare _) stored (stateAfter_of_ok hprepare)
  exact kept.stored (.process _) prepared (stateAfter_of_ok hprocess)

/-- Where closing a block fails, the application has kept what is kept. -/
theorem Failure.stored (kept : App.Kept P) {h : Harness} {b : PendingBlock} {e : HarnessError}
    {a : App} (failure : h.Failure b e a) (stored : h.Stored P) : a.Stored P := by
  cases failure with
  | prepare hprepare => exact kept.stored (.prepare _) stored (stateAfter_of_error hprepare)
  | process hprepare hprocess =>
    have prepared := kept.stored (.prepare _) stored (stateAfter_of_ok hprepare)
    exact kept.stored (.process _) prepared (stateAfter_of_error hprocess)
  | rejected hprepare hprocess refused =>
    have prepared := kept.stored (.prepare _) stored (stateAfter_of_ok hprepare)
    exact kept.stored (.process _) prepared (stateAfter_of_ok hprocess)
  | finalize accepted hfinalize =>
    exact kept.stored (.finalize _) (accepted.stored kept stored) (stateAfter_of_error hfinalize)
  | commit accepted hfinalize hcommit =>
    have executed := kept.stored (.finalize _) (accepted.stored kept stored)
      (stateAfter_of_ok hfinalize)
    exact kept.stored .commit executed (stateAfter_of_error hcommit)

/-- Where a block was closed, the application has kept what is kept. -/
theorem Closing.stored (kept : App.Kept P) {h : Harness} {b : PendingBlock} {f : FinalizeResponse}
    {a : App} (closing : h.Closing b f a) (stored : h.Stored P) : a.Stored P := by
  obtain ⟨a₂, a₃, n, accepted, hfinalize, hcommit⟩ := closing.steps
  have executed := kept.stored (.finalize _) (accepted.stored kept stored)
    (stateAfter_of_ok hfinalize)
  exact kept.stored .commit executed (stateAfter_of_ok hcommit)

/-- The parts of the operations keep what every change of the ledger keeps. -/
theorem stored_keeps (kept : App.Kept P) : Keeps (Stored P) fun _ => Stored P where
  refuse e h _ stored := stored
  openBlock epoch seconds proposer := by
    refine ends_openBlock ?refused ?failed ?opened
    case refused => exact fun h e stored _ => stored
    case failed =>
      exact fun h e a stored _ ha => kept.stored (.beginBlock _) stored (stateAfter_of_error ha)
    case opened =>
      exact fun h a stored _ ha => kept.stored (.beginBlock _) stored (stateAfter_of_ok ha)
  push h b tx _ stored := stored
  endBlock := by
    refine ends_endBlock ?refused ?failed ?closed
    case refused => exact fun h e stored _ => stored
    case failed => exact fun h b e a stored _ failure => failure.stored kept stored
    case closed => exact fun h b f a stored _ closing => closing.stored kept stored
  fund address coins := by
    refine ends_fund ?failed ?credited
    case failed =>
      exact fun h e a stored ha => kept.stored (.fund address coins) stored (stateAfter_of_error ha)
    case credited =>
      exact fun h a stored ha => kept.stored (.fund address coins) stored (stateAfter_of_ok ha)
  rng h rng stored := stored
  addKey h key stored := stored

/-- Seeding the signing infos keeps what every change of the ledger keeps. -/
theorem stored_seedSigningInfos (kept : App.Kept P) (height : UInt64) {a a' : App} {u : Unit}
    (hok : seedSigningInfos height a = .ok u a') (stored : a.Stored P) : a'.Stored P := by
  have ask : Ends (App.Stored P) (App.onLedger (Ledger.ask Ledger.validators))
      (fun _ => App.Stored P) fun _ => App.Stored P := by
    intro b hb
    unfold App.onLedger Ledger.ask
    cases Ledger.validators b.store with
    | ok vs => exact hb
    | error e => exact hb
  refine (ask.bind fun vs => .forM fun v _ => ?_).of_ok stored hok
  exact .of_stateAfter fun b hb => kept.stored (.setSigningInfo _) hb rfl

/-- What every change of the ledger keeps, some operations keep, whether they succeed or not. -/
theorem Stored.afterAll (kept : App.Kept P) (ops : List Op) {h : Harness} (stored : h.Stored P) :
    (afterAll ops h).Stored P := by
  have turned : ∀ (k : Knob) h, Stored P h → Stored P (onApp k.turn h) := by
    intro k h stored
    cases k <;> exact ⟨stored.begun, stored.store⟩
  refine afterAll_induction (fun op h stored => ?_) ops stored
  exact ((stored_keeps kept).op (fun _ stored => stored) turned op).stateAfter stored

/-- A harness begins with what its genesis has and every change of the ledger keeps. -/
theorem stored_init (kept : App.Kept P) (l : App.Life) {around : Surroundings} {c : HarnessConfig}
    {h : Harness} (hok : init around l.now c = .ok h)
    (start : ∀ d key d' o, (drawn around c).1 = .ok (d, key) →
      GenesisDocument.ofBytes d.text.toUTF8 = .ok d' → Ledger.Opening.ofDocument d' = .ok o →
        P (Ledger.genesisStore d' o .fresh)) : h.Stored P := by
  obtain ⟨-, d, key, rng, v, app₁, app₂, registry, hdrawn, hinit, hseed, -, rfl⟩ :=
    init_ok_iff.1 hok
  obtain ⟨hi, -, -, d', o, haccepted, ho, rfl, -⟩ := App.initChain_ok_iff.1 hinit
  refine stored_seedSigningInfos kept 0 hseed ⟨rfl, kept.commit _ ?_⟩
  rw [(l.blank hi).store]
  exact start d key d' o (congrArg Prod.fst hdrawn) (App.acceptedDocument_ok_iff.1 haccepted).1 ho

/-- What every genesis has and every change of the ledger keeps, the store has at every moment of a
run. -/
theorem Run.stored (kept : App.Kept P) (start : ∀ d o, P (Ledger.genesisStore d o .fresh))
    (r : Run) : P r.now.app.store := by
  have begun := stored_init kept r.app r.begun_eq fun _ _ d' o _ _ _ => start d' o
  exact (begun.afterAll kept r.ops).store

/-- At every moment of a run what is stored for a record of the ledger is one. -/
theorem Run.wellTyped (r : Run) :
    Ledger.WellTyped ⟨fun _ => True, fun _ => True⟩ r.now.app.store :=
  r.stored (Ledger.kept_wellTyped (Ledger.Typing.closed_true _)) fun _ _ =>
    Ledger.wellTyped_genesisStore (fun _ _ => trivial) trivial fun _ _ => trivial

end Harness

end TestChain
