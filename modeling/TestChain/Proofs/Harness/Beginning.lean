import TestChain.Proofs.App.Votes
import TestChain.Proofs.Genesis.Building
import TestChain.Proofs.Harness.Run

/-!
# How a harness begins

A harness builds its document, begins the chain with it and writes a signing info for each validator
that is stored. With a document that is accepted (`Builds`) all of this succeeds on a new
application (`Builds.exists_start`), and nothing but signing infos is written then (`Builds.agree`),
so the ledger keeps the sums of the document as far as nothing that counts is superseded
(`genesis_keeps_sums_iff`).
-/

namespace TestChain

/-- A signing info is replaced exactly if its validator is stored. -/
theorem Ledger.setSigningInfo_ok_iff {i : SigningInfo} {s s' : Store} {u : Unit} :
    setSigningInfo i s = .ok u s' ↔
      ∃ known, Ledger.validators s = .ok known ∧
        (known.any fun v => v.consensusAddress = i.address) = true ∧
        s' = s.write SigningInfo.codec (signingInfoKey i.address) i := by
  unfold setSigningInfo
  rw [bind_eq]
  unfold ask
  cases hknown : Ledger.validators s with
  | error e =>
    refine ⟨fun h => (nomatch h), ?_⟩
    rintro ⟨known, h, -⟩
    cases h
  | ok known =>
    dsimp only
    by_cases hany : (known.any fun v => v.consensusAddress = i.address) = true
    · rw [if_pos hany, put_eq]
      constructor
      · intro h
        cases h
        exact ⟨known, rfl, hany, rfl⟩
      · rintro ⟨_, -, -, rfl⟩
        rfl
    · rw [if_neg hany]
      refine ⟨fun h => (nomatch h), ?_⟩
      rintro ⟨other, h, hsome, -⟩
      cases h
      exact absurd hsome hany

namespace Harness

/-! ## Signing infos -/

/-- Writing the signing infos of validators changes nothing else. -/
theorem agree_seed {vs : List Validator} {height : UInt64} {a a' : App} {u : PUnit}
    (hok : (vs.forM fun v => App.setSigningInfo (.fresh v.consensusAddress height)) a = .ok u a') :
    a.store.AgreeOn Ledger.Unsigned a'.store := by
  induction vs generalizing a with
  | nil =>
    cases hok
    exact .refl _
  | cons v rest ih =>
    obtain ⟨_, a₁, hv, hrest⟩ := bind_ok_iff.1 hok
    obtain ⟨-, s₁, hs₁, rfl⟩ := App.setSigningInfo_ok_iff.1 hv
    obtain ⟨known, -, -, rfl⟩ := Ledger.setSigningInfo_ok_iff.1 hs₁
    have written : a.store.AgreeOn Ledger.Unsigned _ :=
      .write_of_not a.store SigningInfo.codec (SigningInfo.fresh v.consensusAddress height)
        (Ledger.not_unsigned_signingInfoKey v.consensusAddress)
    exact written.trans (ih hrest)

/-- Seeding the signing infos changes nothing else. -/
theorem agree_seedSigningInfos {height : UInt64} {a a' : App} {u : Unit}
    (hok : seedSigningInfos height a = .ok u a') : a.store.AgreeOn Ledger.Unsigned a'.store := by
  unfold seedSigningInfos at hok
  obtain ⟨vs, a₁, hask, hseed⟩ := bind_ok_iff.1 hok
  obtain ⟨s₁, hs₁, rfl⟩ := App.onLedger_ok_iff.1 hask
  have same : s₁ = a.store := by
    unfold Ledger.ask at hs₁
    split at hs₁
    · cases hs₁
      rfl
    · cases hs₁
  rw [← same]
  exact agree_seed hseed

/-- The signing info of a stored validator is written. -/
theorem setSigningInfo_of_mem {known : List Validator} {v : Validator} (hv : v ∈ known)
    (height : UInt64) {a : App} (hknown : Ledger.validators a.store = .ok known)
    (ready : a.Answers .signingInfo) :
    App.setSigningInfo (.fresh v.consensusAddress height) a = .ok () { a with
      store := a.store.write SigningInfo.codec (Ledger.signingInfoKey v.consensusAddress)
        (.fresh v.consensusAddress height) } := by
  have some : (known.any fun w => w.consensusAddress = v.consensusAddress) = true :=
    List.any_eq_true.2 ⟨v, hv, decide_eq_true rfl⟩
  exact App.setSigningInfo_ok_iff.2
    ⟨ready, _, Ledger.setSigningInfo_ok_iff.2 ⟨known, hknown, some, rfl⟩, rfl⟩

/-- The signing infos of stored validators are written. -/
theorem seed_ok {known vs : List Validator} (hvs : ∀ v ∈ vs, v ∈ known) (height : UInt64) {a : App}
    (hknown : Ledger.validators a.store = .ok known) (ready : a.Answers .signingInfo) :
    ∃ a', (vs.forM fun v => App.setSigningInfo (.fresh v.consensusAddress height)) a =
      .ok ⟨⟩ a' := by
  induction vs generalizing a with
  | nil => exact ⟨a, rfl⟩
  | cons v rest ih =>
    have written := setSigningInfo_of_mem (hvs v List.mem_cons_self) height hknown ready
    have same := Ledger.sameSums_writeSigningInfo a.store v.consensusAddress
      (.fresh v.consensusAddress height)
    -- Writing a signing info does not touch the validators, which are read again for the next one.
    have hknown' : Ledger.validators (a.store.write SigningInfo.codec
        (Ledger.signingInfoKey v.consensusAddress) (.fresh v.consensusAddress height)) =
          .ok known := by
      rw [← hknown]
      unfold Ledger.validators Ledger.values Store.readAll
      rw [same.validators]
    obtain ⟨a', hrest⟩ := ih (fun w hw => hvs w (List.mem_cons_of_mem _ hw))
      (a := { a with store := _ }) hknown' ⟨ready.begun, ready.spared⟩
    exact ⟨a', bind_ok_iff.2 ⟨_, _, written, hrest⟩⟩

/-- The signing infos are seeded where the validators can be read. -/
theorem seedSigningInfos_succeeds {vs : List Validator} (height : UInt64) {a : App}
    (hvs : Ledger.validators a.store = .ok vs) (ready : a.Answers .signingInfo) :
    ∃ a', seedSigningInfos height a = .ok () a' := by
  obtain ⟨a', hseed⟩ := seed_ok (fun _ hv => hv) height hvs ready
  have asked : App.onLedger (Ledger.ask Ledger.validators) a = .ok vs a :=
    App.onLedger_ok_iff.2 ⟨_, Ledger.ask_of_ok hvs, rfl⟩
  exact ⟨a', bind_ok_iff.2 ⟨_, _, asked, hseed⟩⟩

/-! ## A new chain -/

/-- The generator from which a harness draws its keys. -/
def generator (around : Surroundings) (c : HarnessConfig) : Generator :=
  (SeededRng.ofSeed (c.seed.getD around.seed)).generator

/-- The address of the account that a harness draws and funds. -/
def fundedAddress (around : Surroundings) (c : HarnessConfig) : AccountAddress :=
  GenesisConfig.drawnAddress (generator around c)

/-- What a harness begins with: a document that is built and accepted, and the states with which the
ledger begins. -/
structure Builds (around : Surroundings) (c : HarnessConfig) (d : GenesisDocument)
    (key : ValidatorKey) (o : Ledger.Opening) : Prop where
  /-- The document is built, for the key of a validator. -/
  drawn : (drawn around c).1 = .ok (d, key)
  /-- It is accepted. -/
  accepted : App.acceptedDocument (initRequest c (c.genesisTime.getD around.time) d) = .ok d
  /-- The ledger begins with its states. -/
  opening : Ledger.Opening.ofDocument d = .ok o

/-- A harness draws what the builder draws. -/
theorem drawn_of_build {around : Surroundings} {c : HarnessConfig} {g : Generator}
    {x : Except GenesisError (GenesisDocument × ValidatorKey)}
    (h : c.genesis.build .defaults (generator around c) = (x, g)) : (drawn around c).1 = x := by
  unfold drawn SeededRng.draw
  unfold generator at h
  rw [h]

/-- What the builder makes of a configuration that a document can be built from is accepted. -/
theorem builds_of_buildable {around : Surroundings} {c : HarnessConfig}
    (h : c.genesis.Buildable (fundedAddress around c)) :
    ∃ d key o, Builds around c d key o ∧
      o.bank.balances = c.genesis.balances (fundedAddress around c) ++ [c.genesis.poolBalance] ∧
      o.staking = c.genesis.stakingState .fresh key (fundedAddress around c) ∧
      o.auth = c.genesis.authState .fresh (fundedAddress around c) ∧ o.bank.supply.Sorted := by
  obtain ⟨supply, g, hash, sorted, hbuild, hvalid⟩ := h.build
  refine ⟨_, _, _, ⟨drawn_of_build hbuild, App.acceptedDocument_ok_iff.2 ⟨?_, hash, hvalid⟩,
    GenesisConfig.ofDocument_document _ _ _ _⟩, rfl, rfl, rfl, sorted⟩
  exact GenesisDocument.ofBytes_text (GenesisConfig.tidy_document _ _ _ _)

/-- What the builder makes with a state of staking that fits is accepted, too. -/
theorem builds_restaked {around : Surroundings} {c : HarnessConfig}
    (h : c.genesis.Buildable (fundedAddress around c)) {staking : StakingState}
    (staked : c.genesis.Staked staking) :
    ∃ d key o, Builds around { c with genesis := c.genesis.restaked staking } d key o ∧
      o.staking = staking := by
  obtain ⟨supply, g, hash, hbuild, hvalid⟩ := h.build_restaked staked
  have tidy := (GenesisConfig.tidy_document c.genesis
    (GenesisConfig.drawnKey (generator around c)) (fundedAddress around c)
    ⟨.fresh, c.genesis.balances (fundedAddress around c) ++ [c.genesis.poolBalance], supply⟩).insert
      (StakingState.faithful_codec staking) (by decide) stakingModule
  refine ⟨_, _, _, ⟨drawn_of_build hbuild, App.acceptedDocument_ok_iff.2 ⟨?_, hash, hvalid⟩,
    GenesisConfig.ofDocument_insert_staking (GenesisConfig.ofDocument_document _ _ _ _) staking⟩,
    rfl⟩
  exact GenesisDocument.ofBytes_text tidy

/-- The ledger of a configuration that a document can be built from begins with the balances of the
configuration and that of the pool, with one validator and with a supply in order. -/
theorem opening_of_buildable {around : Surroundings} {c : HarnessConfig}
    (h : c.genesis.Buildable (fundedAddress around c))
    {d d' : GenesisDocument} {key : ValidatorKey} {o : Ledger.Opening}
    (hdrawn : (drawn around c).1 = .ok (d, key))
    (hread : GenesisDocument.ofBytes d.text.toUTF8 = .ok d')
    (ho : Ledger.Opening.ofDocument d' = .ok o) :
    o.bank.balances = c.genesis.balances (fundedAddress around c) ++ [c.genesis.poolBalance] ∧
      o.staking = c.genesis.stakingState .fresh key (fundedAddress around c) ∧
      o.bank.supply.Sorted := by
  obtain ⟨e, key', p, builds, balances, staking, -, sorted⟩ := builds_of_buildable h
  cases builds.drawn.symm.trans hdrawn
  cases hread.symm.trans (App.acceptedDocument_ok_iff.1 builds.accepted).1
  cases ho.symm.trans builds.opening
  exact ⟨balances, staking, sorted⟩

namespace Builds

variable {around : Surroundings} {c : HarnessConfig} {d : GenesisDocument} {key : ValidatorKey}
  {o : Ledger.Opening}

/-- With a document that is accepted a harness begins on an application that is blank and
answers. -/
theorem exists_init (b : Builds around c d key o) (hcheck : c.check = .ok ()) {a : App}
    (hi : a.isInitialized = false) (hfresh : a.store = .fresh) (hfailures : a.failures = [])
    (hchain : c.chainId = a.chainId) : ∃ h, init around a c = .ok h := by
  have spared : ∀ p, a.failures.contains p = false := fun p => by
    rw [hfailures]
    rfl
  have begun := App.initChain_ok_iff.2
    ⟨hi, spared .initChain, hchain, d, o, b.accepted, b.opening, rfl, rfl⟩
  obtain ⟨vs, hvs, -⟩ := Ledger.validators_genesisStore (d := d) (o := o)
  have hvs' : Ledger.validators (a.opened (initRequest c (c.genesisTime.getD around.time) d)
      (Ledger.genesisStore d o a.store)).store = .ok vs := by
    rw [← hvs, hfresh]
    -- The ledger is committed by then, which changes no scan.
    unfold Ledger.validators Ledger.values
    exact congrArg _ (Store.readAll_eq_of_scan_eq _ (Store.scan_commit _ _))
  obtain ⟨a', hseed⟩ := seedSigningInfos_succeeds 0 hvs' ⟨rfl, spared .signingInfo⟩
  exact ⟨_, init_ok_iff.2
    ⟨hcheck, d, key, _, _, _, a', _, Prod.ext b.drawn rfl, begun, hseed, rfl, rfl⟩⟩

/-- A harness begins with what its document lists, but for signing infos. -/
theorem agree (b : Builds around c d key o) (l : App.Life) {h : Harness}
    (hok : init around l.now c = .ok h) :
    (Ledger.genesisStore d o .fresh).AgreeOn Ledger.Unsigned h.app.store := by
  obtain ⟨-, d', key', rng, v, app₁, app₂, registry, hdrawn, hbegun, hseed, -, rfl⟩ :=
    init_ok_iff.1 hok
  cases b.drawn.symm.trans (congrArg Prod.fst hdrawn)
  obtain ⟨hi, -, -, e, p, haccepted, hp, rfl, -⟩ := App.initChain_ok_iff.1 hbegun
  cases haccepted.symm.trans b.accepted
  cases hp.symm.trans b.opening
  have seeded := agree_seedSigningInfos hseed
  unfold App.opened at seeded
  dsimp only at seeded
  rw [(l.blank hi).store] at seeded
  exact .trans (.commit _) seeded

/-- The balance of an address is the last that the document lists for it. -/
theorem balances (b : Builds around c d key o) (l : App.Life) {h : Harness}
    (hok : init around l.now c = .ok h) (a : AccountAddress) :
    Ledger.balances a h.app.store = .ok ((o.bank.lastBalanceOf? a).getD .empty) := by
  rw [Ledger.balances_agree (b.agree l hok)
    (Ledger.covers_unsigned.balances _ (Ledger.isPrefixOf_balanceKey a))]
  exact Ledger.balances_genesisStore a

/-- An address whose account the document does not list has none. -/
theorem account?_of_not_listed (b : Builds around c d key o) (l : App.Life) {h : Harness}
    (hok : init around l.now c = .ok h) {a : AccountAddress}
    (new : ∀ x ∈ o.auth.accounts, x.address ≠ a) : Ledger.account? a h.app.store = .ok none := by
  unfold Ledger.account?
  rw [Ledger.value?_agree (b.agree l hok) _
    (Ledger.covers_unsigned.accounts _ (List.isPrefixOf_iff_prefix.2 (Ledger.accountKey_begins a)))]
  exact Ledger.account?_genesisStore_of_not_listed new

/-- The validators are those that the document lists, in the order of their operators' addresses, if
it lists none of these twice. -/
theorem validators (b : Builds around c d key o) (l : App.Life) {h : Harness}
    (hok : init around l.now c = .ok h) {vs : List Validator}
    (distinct : (o.staking.validators.map Validator.operatorAddress).Nodup)
    (perm : vs.Perm o.staking.validators)
    (order : vs.Pairwise fun v w =>
      Ledger.validatorKey v.operatorAddress < Ledger.validatorKey w.operatorAddress) :
    Ledger.validators h.app.store = .ok vs := by
  obtain ⟨ws, hws, perm', order'⟩ := Ledger.validators_genesisStore (d := d) (o := o)
  rw [(lasting_of_nodup distinct).1] at perm'
  -- There is only one way to put them in order.
  have same : ws = vs := (perm'.trans perm.symm).eq_of_pairwise
    (fun _ _ _ _ before after => absurd (List.lt_trans before after) (List.lt_irrefl _))
    order' order
  unfold Ledger.validators
  rw [Ledger.values_agree (b.agree l hok) _ fun _ hk => Ledger.unsigned_validator hk, ← same]
  exact hws

end Builds

/-- A new application is blank, answers, and has the name of its chain. -/
theorem newApp_ok {c : HarnessConfig} {a : App} (h : newApp c = .ok a) :
    a.isInitialized = false ∧ a.store = .fresh ∧ a.failures = [] ∧ c.chainId = a.chainId := by
  unfold newApp at h
  have made := mapError_ok_iff.1 h
  unfold App.new at made
  split at made
  · cases made
  · cases made
    exact ⟨rfl, rfl, rfl, rfl⟩

/-- A harness that has just begun: it is idle, and nothing was set in its application. -/
structure Pristine (c : HarnessConfig) (h : Harness) : Prop where
  /-- No block is open. -/
  idle : h.cycle = .idle
  /-- It has the configuration. -/
  config : h.config = c
  /-- The chain has begun. -/
  begun : h.app.isInitialized = true
  /-- No failure is injected. -/
  failures : h.app.failures = []
  /-- Proposals are accepted. -/
  verdict : h.app.verdict = .accept
  /-- No proposal is to be rejected. -/
  unarmed : h.app.rejectNext = false

/-- A harness on a new application has just begun. -/
theorem pristine_of_newApp {around : Surroundings} {c : HarnessConfig} {a : App} {h : Harness}
    (hnew : newApp c = .ok a) (hinit : init around a c = .ok h) : h.Pristine c := by
  obtain ⟨-, d, key, rng, v, app₁, app₂, registry, -, hbegun, hseed, -, rfl⟩ := init_ok_iff.1 hinit
  obtain ⟨-, -, -, d', o, -, -, rfl, -⟩ := App.initChain_ok_iff.1 hbegun
  obtain ⟨s, rfl⟩ := seedSigningInfos_ok hseed
  -- Neither beginning the chain nor writing signing infos sets anything in the new application.
  have made := mapError_ok_iff.1 hnew
  unfold App.new at made
  split at made
  · cases made
  · cases made
    exact ⟨rfl, rfl, rfl, rfl, rfl, rfl⟩

/-- With a document that is accepted a harness begins on a new application. -/
theorem Builds.exists_start {around : Surroundings} {c : HarnessConfig} {d : GenesisDocument}
    {key : ValidatorKey} {o : Ledger.Opening} (b : Builds around c d key o)
    (hcheck : c.check = .ok ()) :
    ∃ (l : App.Life) (h : Harness), newApp c = .ok l.now ∧ init around l.now c = .ok h ∧
      start around c = .ok h := by
  have named : c.chainId.isEmpty = false := by
    cases hname : c.chainId.isEmpty with
    | false => rfl
    | true =>
      -- A configuration without a name for the chain is refused.
      unfold HarnessConfig.check at hcheck
      rw [hname] at hcheck
      cases hcheck
  obtain ⟨a, ha⟩ : ∃ a, App.new c.chainId (.debugging c.unlimitedSimulationGas) = .ok a := by
    unfold App.new
    rw [named]
    exact ⟨_, rfl⟩
  have hnew : newApp c = .ok a := mapError_ok_iff.2 ha
  obtain ⟨hi, hfresh, hfailures, hchain⟩ := newApp_ok hnew
  obtain ⟨h', hinit⟩ := b.exists_init hcheck hi hfresh hfailures hchain
  refine ⟨⟨c.chainId, _, a, ha, []⟩, h', hnew, hinit, ?_⟩
  unfold start
  rw [hcheck]
  show (newApp c >>= fun app => init around app c) = _
  rw [hnew]
  exact hinit

/-- Where a document can be built, a harness begins on a new application. -/
theorem start_of_buildable {around : Surroundings} {c : HarnessConfig} (hcheck : c.check = .ok ())
    (h : c.genesis.Buildable (fundedAddress around c)) :
    ∃ (l : App.Life) (h : Harness), newApp c = .ok l.now ∧ init around l.now c = .ok h ∧
      start around c = .ok h := by
  obtain ⟨d, key, o, builds, -⟩ := builds_of_buildable h
  exact builds.exists_start hcheck

/-! ## Some configurations -/

/-- The address whose bytes are all 17. -/
def seventeens : AccountAddress := ⟨Vector.replicate 20 17⟩

/-- It is not the pool's. -/
theorem seventeens_ne_pool : seventeens ≠ bondedPoolAddress := by
  rw [GenesisConfig.bondedPoolAddress_eq]
  decide

/-- The fresh configuration with some further balances of one address. -/
def crediting (amounts : List UInt64) : HarnessConfig :=
  { HarnessConfig.fresh with
    genesis := { GenesisConfig.fresh with
      extraBalances := amounts.map fun n => ⟨seventeens, .single n defaultBondDenom⟩ } }

/-- Of the denomination they hold the sum of the amounts, and nothing else. -/
theorem sum_crediting (amounts : List UInt64) (denom : String) :
    Balance.sum denom (amounts.map fun n => ⟨seventeens, .single n defaultBondDenom⟩) =
      if defaultBondDenom = denom then (amounts.map UInt64.toNat).sum else 0 := by
  induction amounts with
  | nil => simp only [Balance.sum, List.map_nil, List.sum_nil, ite_self]
  | cons n rest ih =>
    simp only [Balance.sum, List.map_cons, List.sum_cons, List.map_map] at ih ⊢
    rw [ih, Coins.amountOf_single]
    split
    · rfl
    · rfl

/-- The configuration with further balances of one address and another amount that is bonded. -/
def bonding (amount : UInt64) (amounts : List UInt64) : HarnessConfig :=
  { HarnessConfig.fresh with
    genesis := { (crediting amounts).genesis with bondAmount := amount } }

/-- A document can be built with some further balances and an amount that is bonded if the sum of
all of them fits. -/
theorem buildable_bonding {amount : UInt64} (some : amount ≠ 0) (amounts : List UInt64)
    (fits : (amounts.map UInt64.toNat).sum + amount.toNat < UInt64.size)
    (funded : AccountAddress) : (bonding amount amounts).genesis.Buildable funded := by
  have listed : (bonding amount amounts).genesis.balances funded =
      amounts.map fun n => ⟨seventeens, .single n defaultBondDenom⟩ := rfl
  have denom : checkDenom defaultBondDenom = .ok () := if_pos (by decide)
  have check : (bonding amount amounts).genesis.check = .ok () := by
    show ((checkDenom defaultBondDenom).mapError _ >>= fun _ => if amount = 0 then _ else _) = _
    rw [denom, if_neg some]
    rfl
  refine ⟨check, rfl, fun b hb => ?_, fun b hb => ?_, fun other => ?_, fun b hb => ?_⟩
  · obtain ⟨n, -, rfl⟩ := List.mem_map.1 hb
    exact Coins.sorted_single _ _
  · obtain ⟨n, -, rfl⟩ := List.mem_map.1 hb
    exact Coins.check_single denom _
  · rw [listed, sum_crediting]
    show _ + (if defaultBondDenom = other then amount.toNat else 0) < _
    split
    · exact fits
    · decide
  · rw [listed] at hb
    obtain ⟨n, -, rfl⟩ := List.mem_map.1 hb
    rw [GenesisConfig.poolBalance_address]
    exact seventeens_ne_pool

/-- A document can be built with the further balances if their sum fits. -/
theorem buildable_crediting (amounts : List UInt64)
    (fits : (amounts.map UInt64.toNat).sum + 1000000 < UInt64.size) (funded : AccountAddress) :
    (crediting amounts).genesis.Buildable funded :=
  buildable_bonding (show (1000000 : UInt64) ≠ 0 by decide) amounts fits funded

/-- With one further balance no address has two. -/
theorem nodup_crediting (n : UInt64) :
    (([⟨seventeens, .single n defaultBondDenom⟩, (crediting [n]).genesis.poolBalance] :
      List Balance).map Balance.address).Nodup := by
  refine List.nodup_cons.2 ⟨fun hmem => ?_, List.pairwise_singleton _ _⟩
  rw [List.map_singleton, List.mem_singleton, GenesisConfig.poolBalance_address] at hmem
  exact seventeens_ne_pool hmem

/-- A bank with one further balance has that of its address, and none of an address that is not the
pool's either. -/
theorem lastBalanceOf?_crediting {s : BankState} {n : UInt64} (h : s.balances =
      [⟨seventeens, .single n defaultBondDenom⟩, (crediting [n]).genesis.poolBalance]) :
    s.lastBalanceOf? seventeens = some (.single n defaultBondDenom) ∧
      ∀ a, a ≠ seventeens → a ≠ bondedPoolAddress → s.lastBalanceOf? a = none := by
  unfold BankState.lastBalanceOf?
  rw [h, (lasting_of_nodup (nodup_crediting n)).1]
  refine ⟨?_, fun a hne hpool => ?_⟩
  · exact congrArg (Option.map Balance.coins) (List.find?_cons_of_pos (decide_eq_true rfl))
  · refine Option.map_eq_none_iff.2 (List.find?_eq_none.2 fun b hb => ?_)
    rw [decide_eq_true_iff]
    rcases List.mem_cons.1 hb with rfl | hb
    · exact hne.symm
    · rw [List.mem_singleton.1 hb, GenesisConfig.poolBalance_address]
      exact hpool.symm

/-- The fresh configuration with five coins on an account and without proposers. -/
def paying : HarnessConfig :=
  { crediting [5] with proposer := .none }

/-- A harness begins in which one account has five coins, and another address has nothing, not even
an account. -/
theorem exists_paying_start :
    ∃ (l : App.Life) (h : Harness) (b : AccountAddress), init ⟨0, 1⟩ l.now paying = .ok h ∧
      h.Pristine paying ∧ b ≠ seventeens ∧
      Ledger.balances seventeens h.app.store = .ok (.single 5 defaultBondDenom) ∧
      Ledger.balances b h.app.store = .ok .empty ∧ Ledger.account? b h.app.store = .ok none := by
  have buildable := buildable_crediting [5] (by decide) (fundedAddress ⟨0, 1⟩ paying)
  obtain ⟨d, key, o, builds, hbalances, -, hauth, -⟩ := builds_of_buildable (c := paying) buildable
  obtain ⟨l, h, hnew, hinit, -⟩ := builds.exists_start rfl
  -- The funded account is drawn, so the other address is chosen to be a different one.
  obtain ⟨b, hfunded, hne, hpool⟩ : ∃ b : AccountAddress, b ≠ fundedAddress ⟨0, 1⟩ paying ∧
      b ≠ seventeens ∧ b ≠ bondedPoolAddress := by
    have apart (n : UInt8) (hn : n = 18 ∨ n = 19) : (⟨Vector.replicate 20 n⟩ : AccountAddress) ≠
        seventeens ∧ (⟨Vector.replicate 20 n⟩ : AccountAddress) ≠ bondedPoolAddress := by
      rw [GenesisConfig.bondedPoolAddress_eq]
      rcases hn with rfl | rfl <;> decide
    by_cases same : (⟨Vector.replicate 20 18⟩ : AccountAddress) = fundedAddress ⟨0, 1⟩ paying
    · exact ⟨⟨Vector.replicate 20 19⟩, by rw [← same]; decide, apart 19 (.inr rfl)⟩
    · exact ⟨⟨Vector.replicate 20 18⟩, same, apart 18 (.inl rfl)⟩
  obtain ⟨five, nothing⟩ := lastBalanceOf?_crediting (s := o.bank) hbalances
  refine ⟨l, h, b, hinit, pristine_of_newApp hnew hinit, hne, ?_, ?_, ?_⟩
  · rw [builds.balances l hinit, five]
    rfl
  · rw [builds.balances l hinit, nothing b hne hpool]
    rfl
  · refine builds.account?_of_not_listed l hinit fun x hx same => ?_
    rw [hauth] at hx
    rcases List.mem_cons.1 hx with rfl | hx
    · exact hfunded same.symm
    · rw [List.mem_singleton.1 hx] at same
      exact hne same.symm

/-- A validator whose operator's address and key have one byte throughout. -/
def member (n : UInt8) (status : BondStatus) (jailed : Bool) : Validator where
  operatorAddress := ⟨Vector.replicate 20 n⟩
  consensusKey := ⟨Vector.replicate 32 n⟩
  jailed := jailed
  status := status
  tokens := Validator.powerReduction
  delegatorShares := .one
  unbondingHeight := 0
  unbondingTime := 0
  commission := ⟨.none, 0⟩
  minSelfDelegation := 0

/-- Four validators in the order of their operators' addresses: the second is jailed, and the third
is not bonded. -/
def committee : List Validator :=
  [member 1 .bonded false, member 2 .bonded true, member 3 .unbonded false, member 4 .bonded false]

/-- The committee in another order than that of the operators' addresses, with delegations to two of
its validators. -/
def seated : StakingState where
  params := .fresh
  validators := [member 4 .bonded false, member 2 .bonded true, member 1 .bonded false,
    member 3 .unbonded false]
  delegations := [⟨seventeens, ⟨Vector.replicate 20 4⟩, .one⟩,
    ⟨seventeens, ⟨Vector.replicate 20 2⟩, .one⟩]

/-- A configuration with the committee, and with proposers in turn. -/
def inTurns : HarnessConfig :=
  let c := bonding 3000000 []
  { c with
    genesis := c.genesis.restaked seated
    proposer := .roundRobin }

/-- The committee has bonded three times what makes one unit of voting power. -/
theorem staked_seated (amounts : List UInt64) :
    (bonding 3000000 amounts).genesis.Staked seated where
  validators := List.cons_ne_nil _ _
  delegations := rfl
  denom := rfl
  bonded := show Validator.bonded seated.validators = (3000000 : UInt64).toNat by decide

/-- A harness begins with the committee in the order of its operators' addresses. -/
theorem exists_committee :
    ∃ (l : App.Life) (h : Harness), init ⟨0, 1⟩ l.now inTurns = .ok h ∧ h.Pristine inTurns ∧
      Ledger.validators h.app.store = .ok committee := by
  have buildable (funded : AccountAddress) : (bonding 3000000 []).genesis.Buildable funded :=
    buildable_bonding (by decide) [] (by decide) funded
  obtain ⟨d, key, o, builds, staking⟩ : ∃ d key o, Builds ⟨0, 1⟩ inTurns d key o ∧
      o.staking = seated :=
    builds_restaked (c := { bonding 3000000 [] with proposer := .roundRobin }) (buildable _)
      (staked_seated [])
  obtain ⟨l, h, hnew, hinit, -⟩ := builds.exists_start rfl
  refine ⟨l, h, hinit, pristine_of_newApp hnew hinit, builds.validators l hinit ?_ ?_ ?_⟩
  · rw [staking]
    decide
  · rw [staking]
    decide
  · decide

/-! ## The sums -/

/-- The ledger with which a harness begins keeps the sums of the document that was built, as it was
accepted. -/
theorem keepsSums_init (l : App.Life) {around : Surroundings} {c : HarnessConfig} {h : Harness}
    (hok : init around l.now c = .ok h) :
    ∃ d key rng d' o, drawn around c = (.ok (d, key), rng) ∧
      App.acceptedDocument (initRequest c (c.genesisTime.getD around.time) d) = .ok d' ∧
      Ledger.Opening.ofDocument d' = .ok o ∧
      ((∀ b ∈ o.bank.balances, b.coins.Sorted) →
        Ledger.KeepsSumsIff o.bank o.staking h.app.store) := by
  obtain ⟨-, d, key, rng, v, app₁, app₂, registry, hdrawn, hinit, hseed, -, rfl⟩ :=
    init_ok_iff.1 hok
  have blank := l.blank (App.initChain_ok_iff.1 hinit).1
  obtain ⟨d', o, haccepted, ho, kept⟩ := App.keepsSums_initChain blank.store hinit
  exact ⟨d, key, rng, d', o, hdrawn, haccepted, ho, fun sorted =>
    (kept sorted).of_same (.of_agree (agree_seedSigningInfos hseed))⟩

/-- A chain begins with the sums that were tested in its document, exactly as far as nothing that
counts is superseded: whether it is begun by a request, with any document, or by a harness, with the
document that was built. -/
theorem genesis_keeps_sums_iff (l : App.Life) :
    (∀ r v a, App.initChain r l.now = .ok v a →
      ∃ d o, App.acceptedDocument r = .ok d ∧ Ledger.Opening.ofDocument d = .ok o ∧
        ((∀ b ∈ o.bank.balances, b.coins.Sorted) →
          Ledger.KeepsSumsIff o.bank o.staking a.store)) ∧
    ∀ around c h, init around l.now c = .ok h →
      ∃ d key rng d' o, drawn around c = (.ok (d, key), rng) ∧
        App.acceptedDocument (initRequest c (c.genesisTime.getD around.time) d) = .ok d' ∧
        Ledger.Opening.ofDocument d' = .ok o ∧
        ((∀ b ∈ o.bank.balances, b.coins.Sorted) →
          Ledger.KeepsSumsIff o.bank o.staking h.app.store) :=
  ⟨fun _ _ _ hok => App.keepsSums_initChain (l.blank (App.initChain_ok_iff.1 hok).1).store hok,
    fun _ _ _ hok => keepsSums_init l hok⟩

/-- A harness that credits another address than the pool's begins with the sums of its document. -/
theorem exists_balanced_start :
    ∃ (l : App.Life) (r : InitRequest) (v : InitResponse) (a : App) (h : Harness),
      App.initChain r l.now = .ok v a ∧ Ledger.Balanced a.store ∧
      init ⟨1700000000000, 1⟩ l.now (crediting [5]) = .ok h ∧ Ledger.Balanced h.app.store ∧
      checkSupply h.app.store = .ok () ∧ Ledger.PoolFilled defaultBondDenom h.app.store := by
  have buildable := buildable_crediting [5] (by decide)
    (fundedAddress ⟨1700000000000, 1⟩ (crediting [5]))
  obtain ⟨l, h, -, hinit, -⟩ := start_of_buildable rfl buildable
  have sums := genesis_keeps_sums_iff l
  obtain ⟨d, key, rng, d', o, hdrawn, haccepted, ho, kept⟩ := sums.2 _ _ _ hinit
  obtain ⟨hbalances, hstaking, -⟩ := opening_of_buildable buildable (congrArg Prod.fst hdrawn)
    (App.acceptedDocument_ok_iff.1 haccepted).1 ho
  -- The same document begins the chain of the application, before the signing infos are written.
  obtain ⟨-, e, key', rng', v, a, app₂, registry, hdrawn', hbegun, -⟩ := init_ok_iff.1 hinit
  obtain ⟨e', o', haccepted', ho', kept'⟩ := sums.1 _ _ _ hbegun
  obtain ⟨hbalances', hstaking', -⟩ := opening_of_buildable buildable (congrArg Prod.fst hdrawn')
    (App.acceptedDocument_ok_iff.1 haccepted').1 ho'
  have single (s : ValidatorKey) : (((crediting [5]).genesis.stakingState .fresh s
      (fundedAddress ⟨1700000000000, 1⟩ (crediting [5]))).validators.map
        Validator.operatorAddress).Nodup := List.pairwise_singleton _ _
  obtain ⟨balanced, test, pool⟩ := (kept fun b hb => buildable.sorted_listed b
    (hbalances ▸ hb)).of_nodup (hbalances ▸ nodup_crediting 5) (hstaking ▸ single key)
  obtain ⟨balanced', -, -⟩ := (kept' fun b hb => buildable.sorted_listed b
    (hbalances' ▸ hb)).of_nodup (hbalances' ▸ nodup_crediting 5) (hstaking' ▸ single key')
  rw [hstaking] at pool
  exact ⟨l, _, v, a, h, hbegun, balanced', hinit, balanced, test, pool⟩

/-- A harness that credits one address twice begins, though its supply is not the sum of the
balances. -/
theorem exists_unbalanced_start :
    ∃ h, start ⟨1700000000000, 1⟩ (crediting [5, 7]) = .ok h ∧ ¬Ledger.Balanced h.app.store ∧
      checkSupply h.app.store ≠ .ok () := by
  have buildable := buildable_crediting [5, 7] (by decide)
    (fundedAddress ⟨1700000000000, 1⟩ (crediting [5, 7]))
  obtain ⟨l, h, -, hinit, hstart⟩ := start_of_buildable rfl buildable
  obtain ⟨d, key, rng, d', o, hdrawn, haccepted, ho, kept⟩ := keepsSums_init l hinit
  obtain ⟨hbalances, -, -⟩ := opening_of_buildable buildable (congrArg Prod.fst hdrawn)
    (App.acceptedDocument_ok_iff.1 haccepted).1 ho
  have balances : o.bank.balances = [⟨seventeens, .single 5 defaultBondDenom⟩,
      ⟨seventeens, .single 7 defaultBondDenom⟩, (crediting [5, 7]).genesis.poolBalance] := hbalances
  have kept := kept fun b hb => buildable.sorted_listed b (hbalances ▸ hb)
  -- The first of the two balances is superseded by the second, and it is worth something.
  have lost : ⟨seventeens, .single 5 defaultBondDenom⟩ ∈
      superseded Balance.address o.bank.balances := by
    rw [balances]
    exact mem_superseded_cons List.mem_cons_self rfl
  have unbalanced : ¬Ledger.Balanced h.app.store := fun balanced =>
    absurd (kept.supply.1 balanced _ lost defaultBondDenom) (by decide)
  exact ⟨h, hstart, unbalanced, fun ok => unbalanced (kept.test.1 ok)⟩

end Harness

end TestChain
