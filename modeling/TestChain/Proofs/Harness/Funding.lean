import TestChain.Proofs.App.Credited
import TestChain.Proofs.Harness.Accounts
import TestChain.Proofs.Harness.Constant

/-!
# Rounds of funding

A round of funding credits the account of every validator key with one amount of the bonded
denomination. Neither a key that was added twice nor keys that share an account need care: an
account is credited as often as its address is among those of the keys (`forM_fund_credited`). Any
number of rounds comes to one sum for each account and one for the supply, which stop at the largest
word, and leaves all else as it was; a round that meets an injected failure changes nothing but the
failure. The main theorem is `funding_rounds_additive`.
-/

namespace TestChain.Harness

/-- The harness with another store in its application. -/
def withStore (h : Harness) (s : Store) : Harness :=
  { h with app := { h.app with store := s } }

/-- Some rounds of funding, one after the other. -/
def fundingRounds : Nat → Call Unit
  | 0 => pure ()
  | k + 1 => do
    fundValidators
    fundingRounds k

/-- The addresses that a round credits, in order. -/
def credited (h : Harness) : List AccountAddress :=
  h.keys.map ValidatorKey.accountAddress

/-! ## Crediting accounts -/

section

variable {h : Harness} {denom : String} {state : Bytes → Prop}

/-- What can be credited: the application answers, the denomination is one, and the stored coins are
in order. -/
structure Creditable (denom : String) (state : Bytes → Prop) (h : Harness) : Prop where
  /-- The application answers. -/
  answers : h.app.Answers .funding
  /-- The denomination is one. -/
  valid : checkDenom denom = .ok ()
  /-- The store is well typed, with its coins in order. -/
  typed : Ledger.WellTyped ⟨Coins.Sorted, state⟩ h.app.store

/-- An account is credited once. -/
theorem Creditable.fund (ready : h.Creditable denom state) (amount : UInt64) (a : AccountAddress) :
    ∃ s, Harness.fund a (.single amount denom) h = .ok () (h.withStore s) ∧
      (h.withStore s).Creditable denom state ∧
        Ledger.Credited denom amount (fun b => if b = a then 1 else 0) 1 h.app.store s := by
  obtain ⟨s, minted, typed, credited⟩ :=
    Ledger.exists_mint_credited ready.typed ready.valid amount a
  have funded : App.fundAccount a (.single amount denom) h.app =
      .ok () { h.app with store := s } :=
    App.fundAccount_ok_iff.2 ⟨ready.answers, s, minted, rfl⟩
  have kept : (h.withStore s).Creditable denom state :=
    ⟨⟨ready.answers.begun, ready.answers.spared⟩, ready.valid, typed⟩
  exact ⟨s, call_ok_iff.2 ⟨_, funded, rfl⟩, kept, credited⟩

/-- Accounts are credited in order, each as often as it comes. -/
theorem Creditable.forM_fund (ready : h.Creditable denom state) (amount : UInt64)
    (keys : List ValidatorKey) :
    ∃ s, (keys.forM fun k => Harness.fund k.accountAddress (.single amount denom)) h =
        .ok ⟨⟩ (h.withStore s) ∧
      (h.withStore s).Creditable denom state ∧
        Ledger.Credited denom amount (keys.map ValidatorKey.accountAddress).count keys.length
          h.app.store s := by
  induction keys generalizing h with
  | nil => exact ⟨h.app.store, rfl, ready, .none ready.typed⟩
  | cons k rest ih =>
    obtain ⟨t, first, ready', once⟩ := ready.fund amount k.accountAddress
    obtain ⟨s, others, ready'', more⟩ := ih ready'
    refine ⟨s, (bind_of_ok first _).trans others, ready'', ?_⟩
    -- The first key is counted behind the others, so the two sums are put into one order.
    have times : (fun a => (if a = k.accountAddress then 1 else 0) +
        (rest.map ValidatorKey.accountAddress).count a) =
          ((k :: rest).map ValidatorKey.accountAddress).count := by
      funext a
      rw [List.map_cons, List.count_cons, Nat.add_comm]
      exact congrArg _ (if_congr (eq_comm.trans beq_iff_eq.symm) rfl rfl)
    have all : 1 + rest.length = (k :: rest).length := by
      rw [List.length_cons, Nat.add_comm]
    have both := once.trans more
    rwa [times, all] at both

/-- A round of funding credits every address as often as it is among those of the keys. -/
theorem Creditable.fundValidators (ready : h.Creditable h.config.bondDenom state)
    (going : h.cycle ≠ .halted) :
    ∃ s, Harness.fundValidators h = .ok () (h.withStore s) ∧
      (h.withStore s).Creditable h.config.bondDenom state ∧
        Ledger.Credited h.config.bondDenom h.config.fundAmount h.credited.count h.keys.length
          h.app.store s := by
  obtain ⟨s, funded, ready', credited⟩ := ready.forM_fund h.config.fundAmount h.keys
  refine ⟨s, ?_, ready', credited⟩
  unfold Harness.fundValidators
  rw [bind_of_ok (ensureReady_of_going going), get_bind_eq]
  exact funded

/-- Rounds of funding credit every address so often in each of them. -/
theorem Creditable.fundingRounds (ready : h.Creditable h.config.bondDenom state)
    (going : h.cycle ≠ .halted) (k : Nat) :
    ∃ s, Harness.fundingRounds k h = .ok () (h.withStore s) ∧
      Ledger.Credited h.config.bondDenom h.config.fundAmount (fun a => k * h.credited.count a)
        (k * h.keys.length) h.app.store s := by
  induction k generalizing h with
  | zero =>
    refine ⟨h.app.store, rfl, ?_⟩
    simp only [Nat.zero_mul]
    exact .none ready.typed
  | succ k ih =>
    obtain ⟨t, first, ready', once⟩ := ready.fundValidators going
    -- A round leaves the keys, the configuration and the cycle to the next one.
    obtain ⟨s, others, more⟩ := ih (h := h.withStore t) ready' going
    refine ⟨s, (bind_of_ok first _).trans others, ?_⟩
    have both := once.trans more
    have times : (fun a => h.credited.count a + k * (h.withStore t).credited.count a) =
        fun a => (k + 1) * h.credited.count a := by
      funext a
      rw [Nat.succ_mul, Nat.add_comm]
      rfl
    have all : h.keys.length + k * (h.withStore t).keys.length = (k + 1) * h.keys.length := by
      rw [Nat.succ_mul, Nat.add_comm]
      rfl
    rwa [times, all] at both

/-- A round that meets an injected failure is refused at the first key. -/
theorem fundValidators_of_failure (begun : h.app.isInitialized = true) (going : h.cycle ≠ .halted)
    (injected : h.app.failures.contains .funding = true) :
    fundValidators h = .error (.funding h.genesisKey.accountAddress (.aborted .funding))
      { h with app := h.app.spent .funding } := by
  have first : fund h.genesisKey.accountAddress h.fundingRound.coins h =
      .error (.funding h.genesisKey.accountAddress (.aborted .funding))
        { h with app := h.app.spent .funding } :=
    call_error_iff.2
      ⟨_, _, App.fundAccount_error_iff.2 (.inl (.aborted begun injected)), rfl, rfl⟩
  unfold fundValidators
  rw [bind_of_ok (ensureReady_of_going going), get_bind_eq]
  exact bind_of_error first _

end

/-! ## Rounds of a run -/

/-- A harness only begins with a bonded denomination that is one. -/
theorem Run.checkDenom_bondDenom (r : Run) : checkDenom r.config.bondDenom = .ok () := by
  obtain ⟨-, d, key, rng, v, app₁, app₂, registry, hdrawn, -⟩ := init_ok_iff.1 r.begun_eq
  have built := buildFor_of_drawn (congrArg Prod.fst hdrawn)
  have checked := (GenesisConfig.buildFor_ok_iff.1 built).1
  exact if_pos (GenesisConfig.check_ok_iff.1 checked).1

/-- A harness that is not halted, where no failure is injected and the stored coins are in order,
makes any number of rounds of funding. They change nothing but the store: every balance of the
bonded denomination rises by the amount times the rounds times the number of keys with its address,
and the supply by the amount times the rounds times the number of keys, each up to the largest word.
Other denominations and other accounts stay, and whoever was credited has an account. Where a
failure is injected the round that meets it is refused at the first key, and only the failure is
used up. -/
theorem funding_rounds_additive (r : Run) (going : r.now.cycle ≠ .halted) :
    (Ledger.CoinsSorted r.now.app.store → r.now.app.failures.contains .funding = false → ∀ k, ∃ s,
      fundingRounds k r.now = .ok () (r.now.withStore s) ∧
        Ledger.Credited r.config.bondDenom r.config.fundAmount
          (fun a => k * r.now.credited.count a) (k * r.now.keys.length) r.now.app.store s) ∧
    (r.now.app.failures.contains .funding = true →
      fundValidators r.now =
        .error (.funding r.now.genesisKey.accountAddress (.aborted .funding))
          { r.now with app := r.now.app.spent .funding }) := by
  have begun := r.inStep.begun
  have config : r.now.config = r.config := Run.config_at r.leads
  refine ⟨fun sorted spared k => ?_, fundValidators_of_failure begun going⟩
  have valid := r.checkDenom_bondDenom
  rw [← config] at valid ⊢
  have ready : r.now.Creditable r.now.config.bondDenom fun _ => True :=
    ⟨⟨begun, spared⟩, valid, r.wellTyped.sorted sorted⟩
  exact ready.fundingRounds going k

/-- Where a document can be built, a harness begins with coins in order. -/
theorem coinsSorted_of_buildable (l : App.Life) {around : Surroundings} {c : HarnessConfig}
    {h : Harness} (buildable : c.genesis.Buildable (fundedAddress around c))
    (hok : init around l.now c = .ok h) : Ledger.CoinsSorted h.app.store := by
  have closed := Ledger.Typing.closed_sorted fun _ => True
  refine (stored_init (Ledger.kept_wellTyped closed) l hok ?_).store.coinsSorted
  intro d key d' o hdrawn hread ho
  obtain ⟨hbalances, -, sorted⟩ := opening_of_buildable buildable hdrawn hread ho
  have listed : ∀ b ∈ o.bank.balances, b.coins.Sorted := fun b hb =>
    buildable.sorted_listed b (hbalances ▸ hb)
  exact Ledger.wellTyped_genesisStore listed sorted fun _ _ => trivial

/-- A harness that has just begun with the fresh configuration makes three rounds of funding, after
which the balance of its only key and the supply are the largest word; told to fail, it is refused
the first. -/
theorem exists_funding_rounds :
    ∃ r r' : Run, r.now.cycle ≠ .halted ∧ Ledger.CoinsSorted r.now.app.store ∧
      r.now.app.failures.contains .funding = false ∧
      (∃ s balance supply, fundingRounds 3 r.now = .ok () (r.now.withStore s) ∧
        Ledger.balance r.now.genesisKey.accountAddress r.config.bondDenom s = .ok balance ∧
        Ledger.supply s = .ok supply ∧ balance.toNat = UInt64.size - 1 ∧
        (supply.amountOf r.config.bondDenom).toNat = UInt64.size - 1) ∧
      r'.now.cycle ≠ .halted ∧ r'.now.app.failures.contains .funding = true ∧
      ∃ h', fundValidators r'.now =
          .error (.funding r'.now.genesisKey.accountAddress (.aborted .funding)) h' ∧
        h'.app.store = r'.now.app.store := by
  have buildable := buildable_crediting [] (by decide) (fundedAddress ⟨0, 1⟩ (crediting []))
  obtain ⟨l, h, hnew, hinit, -⟩ := start_of_buildable rfl buildable
  have fresh := pristine_of_newApp hnew hinit
  let r : Run := ⟨l, _, _, h, hinit, []⟩
  let r' : Run := ⟨l, _, _, h, hinit, [.turn (.injectFailure .funding)]⟩
  have going : r.now.cycle ≠ .halted := fun halted => nomatch fresh.idle.symm.trans halted
  have sorted : Ledger.CoinsSorted r.now.app.store := coinsSorted_of_buildable l buildable hinit
  have spared : r.now.app.failures.contains .funding = false := by
    show h.app.failures.contains .funding = false
    rw [fresh.failures]
    rfl
  obtain ⟨s, funded, credited⟩ := (funding_rounds_additive r going).1 sorted spared 3
  obtain ⟨old, balance, -, hbalance, raised⟩ := credited.balance r.now.genesisKey.accountAddress
  obtain ⟨before, supply, -, hsupply, raised', -⟩ := credited.supply
  have single : r.now.moreKeys = [] := by
    obtain ⟨-, d, key, rng, v, app₁, app₂, registry, -, -, -, -, begun⟩ := init_ok_iff.1 hinit
    show h.moreKeys = []
    rw [begun]
  have keys : r.now.keys = [r.now.genesisKey] := by
    unfold Harness.keys
    rw [single]
  have amount : r.config.fundAmount.toNat = 9223372036854775807 := rfl
  have once : r.now.credited.count r.now.genesisKey.accountAddress = 1 := by
    unfold Harness.credited
    rw [keys, List.map_singleton, List.count_singleton_self]
  have largest : UInt64.size - 1 = 18446744073709551615 := rfl
  have going' : r'.now.cycle ≠ .halted := going
  have injected : r'.now.app.failures.contains .funding = true := List.elem_cons_self
  refine ⟨r, r', going, sorted, spared, ⟨s, balance, supply, funded, hbalance, hsupply, ?_, ?_⟩,
    going', injected, _, (funding_rounds_additive r' going').2 injected, rfl⟩
  · rw [raised, once, amount, largest]
    omega
  · rw [raised', keys, List.length_singleton, amount, largest]
    omega

end TestChain.Harness
