import TestChain.Proofs.App.Typed

/-!
# How a chain has begun

An application whose chain has begun has done so at one of the requests that were made to it, with
the document of that request (`App.BegunBy`, `App.Life.isInitialized_iff`). Before that its store
is fresh, with that request it has the genesis of the document, and whatever a begun chain keeps
then holds at every moment (`App.Life.store_induction`); so the store is well typed
(`App.Life.wellTyped`).
-/

namespace TestChain

namespace App

/-- One of the requests, made in order to an application, begins the chain with a document. -/
def BegunBy (requests : List Request) (a : App) (d : GenesisDocument) : Prop :=
  ∃ before r after v a', requests = before ++ .initChain r :: after ∧
    initChain r (afterAll before a) = .ok v a' ∧ acceptedDocument r = .ok d

/-- The chain of an application has begun with a document. -/
def Life.BegunWith (l : Life) (d : GenesisDocument) : Prop :=
  BegunBy l.requests l.made d

/-- A request may begin the chain, or else what begins it comes after. -/
theorem BegunBy.cases {requests : List Request} {r : Request} {a : App} {d : GenesisDocument}
    (h : BegunBy (r :: requests) a d) :
    (∃ q v a', r = .initChain q ∧ initChain q a = .ok v a' ∧ acceptedDocument q = .ok d) ∨
      BegunBy requests (r.next a) d := by
  obtain ⟨before, q, after, v, a', hlist, hinit, hd⟩ := h
  cases before with
  | nil =>
    obtain ⟨rfl, -⟩ := List.cons.inj hlist
    exact .inl ⟨q, v, a', rfl, hinit, hd⟩
  | cons r' before =>
    obtain ⟨rfl, rfl⟩ := List.cons.inj hlist
    exact .inr ⟨before, q, after, v, a', rfl, hinit, hd⟩

/-- What begins the chain after the first request begins it. -/
theorem BegunBy.cons {requests : List Request} {a : App} {d : GenesisDocument} {r : Request}
    (h : BegunBy requests (r.next a) d) : BegunBy (r :: requests) a d := by
  obtain ⟨before, q, after, v, a', rfl, hinit, hd⟩ := h
  exact ⟨r :: before, q, after, v, a', rfl, hinit, hd⟩

/-- A request begins the chain if it turns one that has not begun into one that has; it is then the
request to begin it, and it succeeds. -/
theorem initChain_of_next {r : Request} {a : App} (h : a.isInitialized = false)
    (hn : (r.next a).isInitialized = true) :
    ∃ q v, r = .initChain q ∧ initChain q a = .ok v (r.next a) := by
  -- Of all requests only this one changes the parameters.
  have unchanged : r.next a = a → False := fun same => by
    rw [same, h] at hn
    cases hn
  cases r with
  | initChain q =>
    cases hq : initChain q a with
    | ok v a' =>
      refine ⟨q, v, rfl, ?_⟩
      show _ = EStateM.Result.ok v (stateAfter (initChain q) a)
      rw [stateAfter_of_ok hq]
      exact hq
    | error e a' =>
      have left : (Request.initChain q).next a = a' := stateAfter_of_error hq
      rw [left] at hn
      rcases initChain_error hq with rfl | rfl
      · rw [h] at hn
        cases hn
      · have same : (a.spent .initChain).isInitialized = a.isInitialized := rfl
        rw [same, h] at hn
        cases hn
  | beginBlock c => exact (unchanged (stateAfter_guarded _ h)).elim
  | prepare q => exact (unchanged (stateAfter_guarded _ h)).elim
  | process q => exact (unchanged (stateAfter_guarded _ h)).elim
  | finalize q => exact (unchanged (stateAfter_guarded _ h)).elim
  | commit => exact (unchanged (stateAfter_guarded _ h)).elim
  | setSigningInfo i => exact (unchanged (stateAfter_guarded _ h)).elim
  | fund address coins => exact (unchanged (stateAfter_guarded _ h)).elim
  | setVerdict status =>
    have same : (a.setVerdict status).isInitialized = a.isInitialized := rfl
    rw [Request.next, same, h] at hn
    cases hn
  | rejectNext =>
    have same : a.rejectNextProposal.isInitialized = a.isInitialized := rfl
    rw [Request.next, same, h] at hn
    cases hn
  | injectFailure p =>
    have same : (a.injectFailure p).isInitialized = a.isInitialized := rfl
    rw [Request.next, same, h] at hn
    cases hn
  | clearFailures =>
    have same : a.clearFailures.isInitialized = a.isInitialized := rfl
    rw [Request.next, same, h] at hn
    cases hn

/-- What is kept holds after requests to a blank application, if every genesis that they may begin
with has it. -/
theorem afterAll_store_of_blank {P : Store → Prop} (kept : Kept P) (fresh : P .fresh)
    {requests : List Request} {a : App} (hi : a.isInitialized = false)
    (blank : a.isInitialized = false → a.Blank)
    (genesis : ∀ d o, BegunBy requests a d → Ledger.Opening.ofDocument d = .ok o →
      P (Ledger.genesisStore d o .fresh)) : P (afterAll requests a).store := by
  induction requests generalizing a with
  | nil =>
    rw [show (afterAll [] a).store = a.store from rfl, (blank hi).store]
    exact fresh
  | cons r rest ih =>
    show P (afterAll rest (r.next a)).store
    cases hn : (r.next a).isInitialized with
    | false => exact ih hn (r.next_blank blank) fun d o hd ho => genesis d o hd.cons ho
    | true =>
      obtain ⟨q, v, rfl, hinit⟩ := initChain_of_next hi hn
      obtain ⟨-, -, -, d, o, hd, ho, hnext, -⟩ := initChain_ok_iff.1 hinit
      refine kept.afterAll rest hn ?_
      rw [hnext]
      show P (Ledger.genesisStore d o a.store).commit
      rw [(blank hi).store]
      exact kept.commit _ (genesis d o ⟨[], q, rest, v, _, rfl, hinit, hd⟩ ho)

/-- A new application is blank. -/
theorem Life.made_blank (l : Life) : l.made.isInitialized = false ∧ l.made.Blank := by
  have h := l.made_eq
  unfold App.new at h
  split at h
  · cases h
  · rw [← Except.ok.inj h]
    exact ⟨rfl, rfl, rfl, rfl, rfl, rfl⟩

/-- What a begun chain keeps of its store, and holds of a fresh one and of the genesis with which
the chain has begun, holds at every moment. -/
theorem Life.store_induction (l : Life) {P : Store → Prop} (kept : Kept P) (fresh : P .fresh)
    (genesis : ∀ d o, l.BegunWith d → Ledger.Opening.ofDocument d = .ok o →
      P (Ledger.genesisStore d o .fresh)) : P l.now.store :=
  afterAll_store_of_blank kept fresh l.made_blank.1 (fun _ => l.made_blank.2) genesis

/-- Requests to an application whose chain has not begun begin it exactly if one of them does so
with a document. -/
theorem isInitialized_afterAll_iff {requests : List Request} {a : App}
    (hi : a.isInitialized = false) :
    (afterAll requests a).isInitialized = true ↔ ∃ d, BegunBy requests a d := by
  constructor
  · intro h
    induction requests generalizing a with
    | nil =>
      rw [show afterAll [] a = a from rfl, hi] at h
      cases h
    | cons r rest ih =>
      cases hn : (r.next a).isInitialized with
      | false => exact (ih hn h).imp fun d hd => hd.cons
      | true =>
        obtain ⟨q, v, rfl, hinit⟩ := initChain_of_next hi hn
        obtain ⟨-, -, -, d, o, hd, -⟩ := initChain_ok_iff.1 hinit
        exact ⟨d, [], q, rest, v, _, rfl, hinit, hd⟩
  · rintro ⟨d, before, r, after, v, a', rfl, hinit, -⟩
    have next : (Request.initChain r).next (afterAll before a) = a' := stateAfter_of_ok hinit
    have all : afterAll (before ++ .initChain r :: after) a = afterAll after a' := by
      rw [← next]
      exact List.foldl_append
    have begun : a'.isInitialized = true := by
      obtain ⟨-, -, -, d, o, -, -, rfl, -⟩ := initChain_ok_iff.1 hinit
      rfl
    rw [all]
    exact afterAll_induction (P := fun b => b.isInitialized = true)
      (fun r _ hb => r.next_begun hb) after begun

/-- The chain of an application has begun exactly if it has begun with a document. -/
theorem Life.isInitialized_iff (l : Life) :
    l.now.isInitialized = true ↔ ∃ d, l.BegunWith d :=
  isInitialized_afterAll_iff l.made_blank.1

/-- No request begins a chain that has begun. -/
theorem BegunBy.not_begun {requests : List Request} {a : App} {d : GenesisDocument}
    (h : BegunBy requests a d) : a.isInitialized = false := by
  obtain ⟨before, r, -, v, a', -, hinit, -⟩ := h
  refine Bool.eq_false_iff.2 fun begun => ?_
  have still := afterAll_induction (P := fun b => b.isInitialized = true)
    (fun r _ hb => r.next_begun hb) before begun
  rw [(initChain_ok_iff.1 hinit).1] at still
  cases still

/-- A chain begins with one document only. -/
theorem BegunBy.unique {requests : List Request} {a : App} {d d' : GenesisDocument}
    (h : BegunBy requests a d) (h' : BegunBy requests a d') : d = d' := by
  induction requests generalizing a with
  | nil =>
    obtain ⟨before, q, after, v, b, hlist, -⟩ := h
    cases before <;> cases hlist
  | cons r rest ih =>
    -- Once one request has begun the chain, none after it does.
    have last {q : InitRequest} {v : InitResponse} {b : App} {e : GenesisDocument}
        (hinit : initChain q a = .ok v b) :
        ¬BegunBy rest ((Request.initChain q).next a) e := fun later => by
      have next : (Request.initChain q).next a = b := stateAfter_of_ok hinit
      rw [next] at later
      obtain ⟨-, -, -, d, o, -, -, rfl, -⟩ := initChain_ok_iff.1 hinit
      cases later.not_begun
    rcases h.cases with ⟨q, v, b, rfl, hinit, hd⟩ | later
    · rcases h'.cases with ⟨q', v', b', heq, -, hd'⟩ | later'
      · cases heq
        rw [hd] at hd'
        exact Except.ok.inj hd'
      · exact absurd later' (last hinit)
    · rcases h'.cases with ⟨q', v', b', rfl, hinit', -⟩ | later'
      · exact absurd later (last hinit')
      · exact ih later later'

/-- A store is well typed at every moment if the coins and the states of the genesis are as they are
asked for. -/
theorem Life.wellTyped (l : Life) {t : Ledger.Typing} (closed : t.Closed)
    (coins : ∀ d o, l.BegunWith d → Ledger.Opening.ofDocument d = .ok o →
      (∀ b ∈ o.bank.balances, t.coins b.coins) ∧ t.coins o.bank.supply)
    (states : ∀ d, l.BegunWith d → ∀ m ∈ d.modules,
      t.state (Bytes.ofString (Codec.json.text m.2))) : Ledger.WellTyped t l.now.store :=
  l.store_induction (Ledger.kept_wellTyped closed) (.fresh t) fun d o hd ho =>
    Ledger.wellTyped_genesisStore (coins d o hd ho).1 (coins d o hd ho).2 (states d hd)

/-- A document with which a chain has begun is one that was accepted. -/
theorem BegunBy.accepted {requests : List Request} {a : App} {d : GenesisDocument}
    (h : BegunBy requests a d) : ∃ r, acceptedDocument r = .ok d := by
  obtain ⟨-, r, -, -, -, -, -, hd⟩ := h
  exact ⟨r, hd⟩

end App

end TestChain
