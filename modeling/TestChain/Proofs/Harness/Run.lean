import TestChain.Proofs.Harness.Operations

/-!
# Runs of a harness

A `Run` is a harness that was begun on some application, with the operations carried out since, each
of which may have failed. The operations are made from a few parts; what these keep, each operation
and each run keeps (`Keeps.op`, `Run.induction`).
-/

namespace TestChain.Harness

/-- Something that a test sets in the application of a harness. -/
inductive Knob where
  /-- The answer to proposals. -/
  | verdict (status : ProposalStatus)
  /-- The next proposal is to be rejected. -/
  | rejectNext
  /-- The next call in a phase is to fail. -/
  | injectFailure (p : Phase)
  /-- No call is to fail any more. -/
  | clearFailures

/-- The application with something set. -/
def Knob.turn : Knob → App → App
  | .verdict status, a => a.setVerdict status
  | .rejectNext, a => a.rejectNextProposal
  | .injectFailure p, a => a.injectFailure p
  | .clearFailures, a => a.clearFailures

/-- An operation of a harness. -/
inductive Op where
  /-- The next block is opened. -/
  | beginBlock (epoch : Bool) (seconds : UInt64)
  /-- The next block is opened for a proposer. -/
  | beginBlockWith (operator : ValidatorAddress) (epoch : Bool) (seconds : UInt64)
  /-- A transaction is queued. -/
  | execute (tx : Tx)
  /-- The open block is closed. -/
  | endBlock
  /-- An empty block is made at the usual distance. -/
  | skipBlock
  /-- A number of empty blocks is made. -/
  | skipBlocks (n : Nat)
  /-- An empty block is made some seconds later. -/
  | increaseTime (seconds : UInt64)
  /-- The accounts of the validator keys are credited. -/
  | fundValidators
  /-- An account is credited. -/
  | fundAccount (address : AccountAddress) (coins : Coins)
  /-- A new account is made. -/
  | initAccount (coins : Coins)
  /-- A number of new accounts is made. -/
  | initAccounts (coins : Coins) (n : Nat)
  /-- A validator key is added. -/
  | addKey (key : ValidatorKey)
  /-- Something is set in the application. -/
  | turn (k : Knob)

/-- What an operation answers. -/
inductive Reply where
  /-- Nothing. -/
  | done
  /-- The outcome of a block. -/
  | block (response : FinalizeResponse)
  /-- The keys of new accounts. -/
  | keys (keys : List PrivateKey)

/-- Carries out an operation. -/
def Op.call : Op → Call Reply
  | .beginBlock epoch seconds => do Harness.beginBlock epoch seconds; return .done
  | .beginBlockWith operator epoch seconds => do
    Harness.beginBlockWith operator epoch seconds
    return .done
  | .execute tx => do Harness.execute tx; return .done
  | .endBlock => do return .block (← Harness.endBlock)
  | .skipBlock => do return .block (← Harness.skipBlock)
  | .skipBlocks n => do Harness.skipBlocks n; return .done
  | .increaseTime seconds => do return .block (← Harness.increaseTime seconds)
  | .fundValidators => do Harness.fundValidators; return .done
  | .fundAccount address coins => do Harness.fundAccount address coins; return .done
  | .initAccount coins => do return .keys [← Harness.initAccount coins]
  | .initAccounts coins n => do return .keys (← Harness.initAccounts coins n)
  | .addKey key => do modify (Harness.addKey key); return .done
  | .turn k => do modify (onApp k.turn); return .done

/-- The harness after an operation, whether it succeeded or not. -/
def Op.next (op : Op) (h : Harness) : Harness :=
  stateAfter op.call h

/-- The harness after some operations in order. -/
def afterAll (ops : List Op) (h : Harness) : Harness :=
  ops.foldl (fun h op => op.next h) h

/-- A harness that was begun on an application and the operations carried out since. -/
structure Run where
  /-- The application, before the harness was begun on it. -/
  app : App.Life
  /-- What the configuration leaves open. -/
  around : Surroundings
  /-- The configuration. -/
  config : HarnessConfig
  /-- The harness as it was begun. -/
  begun : Harness
  /-- It was begun on the application. -/
  begun_eq : init around app.now config = .ok begun
  /-- The operations, in order. -/
  ops : List Op

/-- The harness now. -/
def Run.now (r : Run) : Harness :=
  afterAll r.ops r.begun

/-- What every operation keeps, operations in order keep. -/
theorem afterAll_induction {P : Harness → Prop} (step : ∀ op h, P h → P (Op.next op h))
    (ops : List Op) {h : Harness} (start : P h) : P (afterAll ops h) := by
  induction ops generalizing h with
  | nil => exact start
  | cons op rest ih => exact ih (step op h start)

/-- What holds of a harness that is begun and is kept by every operation holds at every moment. -/
theorem Run.induction {P : Harness → Prop}
    (start : ∀ (l : App.Life) around c h, init around l.now c = .ok h → P h)
    (step : ∀ op h, P h → P (Op.next op h)) (r : Run) : P r.now :=
  afterAll_induction step r.ops (start r.app r.around r.config r.begun r.begun_eq)

/-! ## How a harness begins -/

/-- Writing the signing infos of validators changes the store alone. -/
theorem seed_forM_ok {vs : List Validator} {height : UInt64} {a a' : App} {u : PUnit}
    (hok : (vs.forM fun v => App.setSigningInfo (.fresh v.consensusAddress height)) a = .ok u a') :
    ∃ s, a' = { a with store := s } := by
  induction vs generalizing a with
  | nil =>
    cases hok
    exact ⟨_, rfl⟩
  | cons v rest ih =>
    obtain ⟨_, a₁, hv, hrest⟩ := bind_ok_iff.1 hok
    obtain ⟨-, s₁, -, rfl⟩ := App.setSigningInfo_ok_iff.1 hv
    obtain ⟨s, rfl⟩ := ih hrest
    exact ⟨s, rfl⟩

/-- Seeding the signing infos changes the store alone. -/
theorem seedSigningInfos_ok {height : UInt64} {a a' : App} {u : Unit}
    (hok : seedSigningInfos height a = .ok u a') : ∃ s, a' = { a with store := s } := by
  unfold seedSigningInfos at hok
  obtain ⟨vs, a₁, hask, hseed⟩ := bind_ok_iff.1 hok
  obtain ⟨s₁, -, rfl⟩ := App.onLedger_ok_iff.1 hask
  obtain ⟨s, rfl⟩ := seed_forM_ok hseed
  exact ⟨s, rfl⟩

/-- A call by which the chain is set up gives the application that it leaves. -/
theorem settingUp_ok_iff {α : Type} {p : Phase} {x : App.Call α} {a a' : App} {r : α} :
    settingUp p x a = .ok (r, a') ↔ x a = .ok r a' := by
  unfold settingUp
  cases x a with
  | ok r' b => simp
  | error e b => simp

/-- The request by which a harness begins its chain with a document. -/
def initRequest (c : HarnessConfig) (time : UInt64) (d : GenesisDocument) : InitRequest where
  chainId := c.chainId
  time := time
  consensusParams := c.gasMode.consensusParams
  appState := d.text.toUTF8
  initialHeight := 1

/-- The document and the key that are built for a configuration, and the generator afterwards. -/
def drawn (around : Surroundings) (c : HarnessConfig) :
    Except GenesisError (GenesisDocument × ValidatorKey) × SeededRng :=
  (SeededRng.ofSeed (c.seed.getD around.seed)).draw (c.genesis.build .defaults)

/-- A harness begins exactly if the configuration can be used, a document is built, the application
begins its chain with it and the signing infos are written; it is then idle in the genesis
context. -/
theorem init_ok_iff {around : Surroundings} {app : App} {c : HarnessConfig} {h : Harness} :
    init around app c = .ok h ↔
      c.check = .ok () ∧ ∃ d key rng v app₁ app₂ registry,
        drawn around c = (.ok (d, key), rng) ∧
        App.initChain (initRequest c (c.genesisTime.getD around.time) d) app = .ok v app₁ ∧
        seedSigningInfos 0 app₁ = .ok () app₂ ∧ Registry.empty.register .rewards = .ok registry ∧
        h = {
          app := app₂
          context := .genesis c.chainId (c.genesisTime.getD around.time)
          cycle := .idle
          genesisKey := key
          moreKeys := []
          registry := registry
          config := c
          genesisTime := c.genesisTime.getD around.time
          rng := rng } := by
  unfold init
  constructor
  · intro hok
    obtain ⟨_, hcheck, hok⟩ := except_bind_ok_iff.1 hok
    obtain ⟨⟨d, key⟩, hbuilt, hok⟩ := except_bind_ok_iff.1 hok
    obtain ⟨⟨v, app₁⟩, hinit, hok⟩ := except_bind_ok_iff.1 hok
    obtain ⟨⟨u, app₂⟩, hseed, hok⟩ := except_bind_ok_iff.1 hok
    obtain ⟨registry, hregistry, hok⟩ := except_bind_ok_iff.1 hok
    exact ⟨mapError_ok_iff.1 hcheck, d, key, _, v, app₁, app₂, registry,
      Prod.ext (mapError_ok_iff.1 hbuilt) rfl, settingUp_ok_iff.1 hinit, settingUp_ok_iff.1 hseed,
      hregistry, (Except.ok.inj hok).symm⟩
  · rintro ⟨hcheck, d, key, rng, v, app₁, app₂, registry, hdrawn, hinit, hseed, hregistry, rfl⟩
    have built : (drawn around c).1 = .ok (d, key) := by rw [hdrawn]
    have begun := (settingUp_ok_iff (p := .initChain)).2 hinit
    have seeded := (settingUp_ok_iff (p := .signingInfo)).2 hseed
    refine except_bind_ok_iff.2 ⟨(), mapError_ok_iff.2 hcheck, ?_⟩
    refine except_bind_ok_iff.2 ⟨(d, key), mapError_ok_iff.2 built, ?_⟩
    refine except_bind_ok_iff.2 ⟨(v, app₁), begun, ?_⟩
    refine except_bind_ok_iff.2 ⟨((), app₂), seeded, ?_⟩
    refine except_bind_ok_iff.2 ⟨registry, hregistry, ?_⟩
    have rest : (drawn around c).2 = rng := by rw [hdrawn]
    rw [← rest]
    rfl

/-! ## What the parts of the operations keep -/

/-- An operation was refused before it did anything: the cycle of blocks is not where it has to be,
or no proposer was found. -/
inductive Refusal : HarnessError → Prop where
  /-- The cycle is halted. -/
  | halted : Refusal .halted
  /-- The cycle is at another place. -/
  | invalidPhase (operation : BlockOperation) (state : CycleState) :
    Refusal (.invalidPhase operation state)
  /-- No validator has the operator. -/
  | unknownValidator (operator : ValidatorAddress) : Refusal (.unknownValidator operator)
  /-- No validator can propose. -/
  | noValidators : Refusal .noValidators
  /-- The validators cannot be looked up. -/
  | query (e : DecodeError) : Refusal (.application .query (.json e))

/-- Where no block can be opened the operation is refused. -/
theorem Refusal.of_ensureIdle {operation : BlockOperation} {c : Cycle} {e : HarnessError}
    (h : c.ensureIdle operation = .error e) : Refusal e := by
  cases c with
  | idle => cases h
  | building b =>
    cases h
    exact .invalidPhase _ _
  | halted =>
    cases h
    exact .halted

/-- Where no block is built an operation that needs one is refused. -/
theorem Refusal.of_block {operation : BlockOperation} {c : Cycle} {e : HarnessError}
    (h : c.block operation = .error e) : Refusal e := by
  cases c with
  | idle =>
    cases h
    exact .invalidPhase _ _
  | building b => cases h
  | halted =>
    cases h
    exact .halted

/-- From a harness in `P` the parts of operations end in `P`, or in `E` with an error. -/
structure Keeps (P : Harness → Prop) (E : HarnessError → Harness → Prop) : Prop where
  /-- A refusal may end where it began. -/
  refuse : ∀ e h, Refusal e → P h → E e h
  /-- Opening a block keeps it. -/
  openBlock : ∀ epoch seconds proposer,
    Ends P (Harness.openBlock epoch seconds proposer) (fun _ => P) E
  /-- Queueing a transaction keeps it. -/
  push : ∀ h b tx, h.cycle = .building b → P h → P { h with cycle := .building (b.push tx) }
  /-- Closing a block keeps it. -/
  endBlock : Ends P Harness.endBlock (fun _ => P) E
  /-- Crediting an account keeps it. -/
  fund : ∀ address coins, Ends P (Harness.fund address coins) (fun _ => P) E
  /-- Another state of the generator keeps it. -/
  rng : ∀ h rng, P h → P { h with rng := rng }
  /-- Another validator key keeps it. -/
  addKey : ∀ h key, P h → P (Harness.addKey key h)

/-- A lookup of a ledger fails only where a stored value does not have its type's shape. -/
def Decodes {α : Type} (q : Ledger.Query α) : Prop :=
  ∀ s e, q s = .error e → ∃ d, e = .json d

/-- Values under keys are decoded. -/
theorem Decodes.values {α : Type} (c : Codec α) (lead : Bytes) :
    Decodes (Ledger.values c lead) := by
  intro s e he
  unfold Ledger.values at he
  cases hr : s.readAll c lead with
  | ok l =>
    rw [hr] at he
    cases he
  | error d =>
    rw [hr] at he
    cases he
    exact ⟨d, rfl⟩

/-- A value under a key is decoded. -/
theorem Decodes.value? {α : Type} (c : Codec α) (k : Bytes) : Decodes (Ledger.value? c k) := by
  intro s e he
  unfold Ledger.value? at he
  cases hr : s.read? c k with
  | ok v =>
    rw [hr] at he
    cases he
  | error d =>
    rw [hr] at he
    cases he
    exact ⟨d, rfl⟩

/-- What is made of decoded values is decoded. -/
theorem Decodes.map {α β : Type} {q : Ledger.Query α} (hq : Decodes q) (f : α → β) :
    Decodes fun s => f <$> q s := by
  intro s e he
  dsimp only at he
  cases hr : q s with
  | ok a =>
    rw [hr] at he
    cases he
  | error e' =>
    rw [hr] at he
    cases he
    exact hq s _ hr

namespace Keeps

variable {P : Harness → Prop} {E : HarnessError → Harness → Prop}

/-- Asking the ledger keeps what every part keeps. -/
theorem ask (k : Keeps P E) {α : Type} {q : Ledger.Query α} (hq : Decodes q) :
    Ends P (Harness.ask q) (fun _ => P) E := by
  intro h hh
  unfold Harness.ask
  rw [get_bind_eq]
  cases hr : q h.app.store with
  | ok a => exact hh
  | error e =>
    obtain ⟨d, rfl⟩ := hq _ _ hr
    exact k.refuse _ _ (.query d) hh

/-- The test that the harness is ready keeps what every part keeps. -/
theorem ensureReady (k : Keeps P E) : Ends P Harness.ensureReady (fun _ => P) E := by
  intro h hh
  unfold Harness.ensureReady
  rw [get_bind_eq]
  cases h.cycle with
  | idle => exact hh
  | building b => exact hh
  | halted => exact k.refuse _ _ .halted hh

/-- Finding an operator's validator keeps what every part keeps. -/
theorem consensusAddressOf (k : Keeps P E) (operator : ValidatorAddress) :
    Ends P (Harness.consensusAddressOf operator) (fun _ => P) E := by
  unfold Harness.consensusAddressOf
  refine (k.ask (.value? _ _)).bind fun v => ?_
  cases v with
  | none => exact Ends.throw fun _ hh => k.refuse _ _ (.unknownValidator operator) hh
  | some v => exact Ends.pure fun _ hh => hh

/-- Choosing a proposer keeps what every part keeps. -/
theorem selectProposer (k : Keeps P E) : Ends P Harness.selectProposer (fun _ => P) E := by
  unfold Harness.selectProposer
  refine (Ends.get (Q := fun _ => P) fun _ hh => hh).bind fun h => ?_
  cases h.config.proposer with
  | none => exact Ends.pure fun _ hh => hh
  | firstValidator =>
    refine (k.ask (.values _ _)).bind fun vs => ?_
    cases vs.head? with
    | none => exact Ends.throw fun _ hh => k.refuse _ _ .noValidators hh
    | some v => exact Ends.pure fun _ hh => hh
  -- The proposer's turn is told by the height at which the harness is.
  | roundRobin =>
    refine (k.ask (.values _ _)).bind fun vs =>
      (Ends.get (Q := fun _ => P) fun _ hh => hh).bind fun h => ?_
    cases inTurn? vs h.context.height with
    | none => exact Ends.throw fun _ hh => k.refuse _ _ .noValidators hh
    | some v => exact Ends.pure fun _ hh => hh
  | fixed operator =>
    show Ends P (some <$> Harness.consensusAddressOf operator) (fun _ => P) E
    rw [map_eq_pure_bind]
    exact (k.consensusAddressOf operator).bind fun a => Ends.pure fun _ hh => hh

/-- Opening the next block keeps what every part keeps. -/
theorem beginBlock (k : Keeps P E) (epoch : Bool) (seconds : UInt64) :
    Ends P (Harness.beginBlock epoch seconds) (fun _ => P) E :=
  k.ensureReady.bind fun _ => k.selectProposer.bind fun proposer =>
    k.openBlock epoch seconds proposer

/-- Opening the next block for a proposer keeps what every part keeps. -/
theorem beginBlockWith (k : Keeps P E) (operator : ValidatorAddress) (epoch : Bool)
    (seconds : UInt64) : Ends P (Harness.beginBlockWith operator epoch seconds) (fun _ => P) E :=
  k.ensureReady.bind fun _ => (k.consensusAddressOf operator).bind fun proposer =>
    k.openBlock epoch seconds (some proposer)

/-- Queueing a transaction keeps what every part keeps. -/
theorem execute (k : Keeps P E) (tx : Tx) : Ends P (Harness.execute tx) (fun _ => P) E := by
  intro h hh
  unfold Harness.execute
  rw [get_bind_eq]
  unfold Cycle.push
  cases hc : h.cycle with
  | idle => exact k.refuse _ _ (.invalidPhase _ _) hh
  | building b => exact k.push h b tx hc hh
  | halted => exact k.refuse _ _ .halted hh

/-- Making an empty block keeps what every part keeps. -/
theorem increaseTime (k : Keeps P E) (seconds : UInt64) :
    Ends P (Harness.increaseTime seconds) (fun _ => P) E :=
  (k.beginBlock false seconds).bind fun _ => k.endBlock

/-- Making an empty block at the usual distance keeps what every part keeps. -/
theorem skipBlock (k : Keeps P E) : Ends P Harness.skipBlock (fun _ => P) E :=
  (Ends.get (Q := fun _ => P) fun _ hh => hh).bind fun h =>
    k.increaseTime h.config.blockTimeSeconds

/-- Making empty blocks keeps what every part keeps. -/
theorem skipBlocks (k : Keeps P E) (n : Nat) : Ends P (Harness.skipBlocks n) (fun _ => P) E := by
  induction n with
  | zero => exact Ends.pure fun _ hh => hh
  | succ n ih => exact k.skipBlock.bind fun _ => ih

/-- Crediting an account keeps what every part keeps. -/
theorem fundAccount (k : Keeps P E) (address : AccountAddress) (coins : Coins) :
    Ends P (Harness.fundAccount address coins) (fun _ => P) E :=
  k.ensureReady.bind fun _ => k.fund address coins

/-- Crediting the validators keeps what every part keeps. -/
theorem fundValidators (k : Keeps P E) : Ends P Harness.fundValidators (fun _ => P) E :=
  k.ensureReady.bind fun _ => (Ends.get (Q := fun _ => P) fun _ hh => hh).bind fun _ =>
    Ends.forM fun key _ => k.fund key.accountAddress _

/-- Making an account keeps what every part keeps. -/
theorem initAccount (k : Keeps P E) (coins : Coins) :
    Ends P (Harness.initAccount coins) (fun _ => P) E := by
  refine k.ensureReady.bind fun _ => ?_
  intro h hh
  rw [get_bind_eq]
  have drawn := k.rng h (h.rng.draw PrivateKey.generate).2 hh
  exact ((k.fund _ coins).bind fun _ => Ends.pure (Q := fun _ => P) fun _ hh => hh) _ drawn

/-- Making accounts keeps what every part keeps. -/
theorem initAccounts (k : Keeps P E) (coins : Coins) (n : Nat) :
    Ends P (Harness.initAccounts coins n) (fun _ => P) E := by
  induction n with
  | zero => exact Ends.pure fun _ hh => hh
  | succ n ih =>
    exact (k.initAccount coins).bind fun key => ih.bind fun keys => Ends.pure fun _ hh => hh

/-- Every operation that sets nothing in the application keeps what every part keeps. -/
theorem op (k : Keeps P E) {Q : Harness → Prop} (hPQ : ∀ h, P h → Q h)
    (hturn : ∀ (knob : Knob) h, P h → Q (onApp knob.turn h)) (op : Op) :
    Ends P op.call (fun _ => Q) E := by
  -- Every operation but the settings is a call that is answered with a reply.
  have weaken {α : Type} {x : Call α} (hx : Ends P x (fun _ => P) E) (f : α → Reply) :
      Ends P (do return f (← x)) (fun _ => Q) E :=
    hx.bind fun a => Ends.pure hPQ
  cases op with
  | beginBlock epoch seconds => exact weaken (k.beginBlock epoch seconds) fun _ => .done
  | beginBlockWith operator epoch seconds =>
    exact weaken (k.beginBlockWith operator epoch seconds) fun _ => .done
  | execute tx => exact weaken (k.execute tx) fun _ => .done
  | endBlock => exact weaken k.endBlock .block
  | skipBlock => exact weaken k.skipBlock .block
  | skipBlocks n => exact weaken (k.skipBlocks n) fun _ => .done
  | increaseTime seconds => exact weaken (k.increaseTime seconds) .block
  | fundValidators => exact weaken k.fundValidators fun _ => .done
  | fundAccount address coins => exact weaken (k.fundAccount address coins) fun _ => .done
  | initAccount coins => exact weaken (k.initAccount coins) fun key => .keys [key]
  | initAccounts coins n => exact weaken (k.initAccounts coins n) .keys
  | addKey key =>
    exact weaken (Ends.change (P := P) fun h hh => k.addKey h key hh) fun _ => .done
  | turn knob => exact fun h hh => hturn knob h hh

end Keeps

end TestChain.Harness
