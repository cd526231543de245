import TestChain.Proofs.App.Accounts
import TestChain.Proofs.Genesis.FirstModule
import TestChain.Proofs.Harness.Blocks
import TestChain.Proofs.Harness.Stored

/-!
# The accounts of a run

A harness begins with the accounts of its configuration, numbered from zero, and numbers the
accounts that are opened since by counting. No account is removed or numbered again. Whoever coins
were created for has one, and so has whoever was paid in a block, also where the block failed to be
committed (`Credits.knows`). The main theorem is `accounts_dense`.
-/

namespace TestChain

/-- Accounts that are numbered from zero on are dense. -/
theorem Ledger.dense_numbered (addresses : List AccountAddress) :
    Dense (GenesisConfig.numbered addresses) := by
  have length : (GenesisConfig.numbered addresses).length = addresses.length := by
    have mapped := congrArg List.length (GenesisConfig.map_address_numbered addresses)
    rwa [List.length_map] at mapped
  unfold Dense
  rw [GenesisConfig.map_number_numbered, length]

namespace Harness

/-! ## The beginning -/

/-- The document that is built for a configuration is built with the key and the account that are
drawn for it. -/
theorem buildFor_of_drawn {around : Surroundings} {c : HarnessConfig} {d : GenesisDocument}
    {key : ValidatorKey} (hdrawn : (drawn around c).1 = .ok (d, key)) :
    c.genesis.buildFor .defaults (GenesisConfig.drawnKey (generator around c))
      (fundedAddress around c) = .ok (d, key) := by
  rw [← hdrawn]
  exact (c.genesis.fst_build .defaults (generator around c)).symm

/-- A harness begins with numbered accounts, if its configuration lists no address twice and leaves
the state of the auth module. -/
theorem numbered_init (l : App.Life) {around : Surroundings} {c : HarnessConfig} {h : Harness}
    (hok : init around l.now c = .ok h) (hauth : authModule ∉ c.genesis.moduleOverrides.names)
    (distinct : (fundedAddress around c :: c.genesis.extraBalances.map Balance.address).Nodup) :
    h.Stored Ledger.Numbered := by
  refine stored_init Ledger.kept_numbered l hok fun d key d' o hdrawn hread ho => ?_
  have built := buildFor_of_drawn hdrawn
  have auth : o.auth = c.genesis.authState .fresh (fundedAddress around c) := by
    have read := GenesisConfig.auth_of_buildFor hauth built hread
    exact Except.ok.inj ((Ledger.Opening.ofDocument_ok ho).1.symm.trans read)
  have accounts : o.auth.accounts = GenesisConfig.numbered
      (fundedAddress around c :: c.genesis.extraBalances.map Balance.address) := by
    rw [auth]
    rfl
  refine Ledger.numbered_genesisStore ?_ ?_
  · rw [accounts, GenesisConfig.map_address_numbered]
    exact distinct
  · rw [accounts]
    exact Ledger.dense_numbered _

/-! ## Who is credited -/

/-- An operation credits an address: by creating coins on it, or by a transfer of the block that it
closes, which has been executed and may yet fail to be committed. -/
inductive Credits (h : Harness) : Op → AccountAddress → Prop where
  /-- Coins are created on the address. -/
  | fundAccount {a : AccountAddress} {coins : Coins} {h' : Harness}
    (funded : Harness.fundAccount a coins h = .ok () h') : Credits h (.fundAccount a coins) a
  /-- Coins are created on the addresses of all validator keys. -/
  | fundValidators {k : ValidatorKey} {h' : Harness} (known : k ∈ h.keys)
    (funded : Harness.fundValidators h = .ok () h') : Credits h .fundValidators k.accountAddress
  /-- Coins are created on a new account. -/
  | initAccount {coins : Coins} {key : PrivateKey} {h' : Harness}
    (made : Harness.initAccount coins h = .ok key h') :
    Credits h (.initAccount coins) key.publicKey.accountAddress
  /-- Coins are created on new accounts. -/
  | initAccounts {coins : Coins} {n : Nat} {key : PrivateKey} {keys : List PrivateKey}
    {h' : Harness} (made : Harness.initAccounts coins n h = .ok keys h') (new : key ∈ keys) :
    Credits h (.initAccounts coins n) key.publicKey.accountAddress
  /-- Coins are moved to the address. -/
  | transfer {b : PendingBlock} {a a' : App} {f : FinalizeResponse} {i : Nat} {tx : Tx}
    {t : Transfer} {result : TxResult} (building : h.cycle = .building b)
    (accepted : h.Accepted b a) (executed : App.finalizeBlock (h.finalizeRequest b) a = .ok f a')
    (queued : b.txs[i]? = some tx) (moves : Transfer.ofTx? tx = some t)
    (answered : f.results[i]? = some result) (succeeded : result.code = 0) :
    Credits h .endBlock t.recipient

/-- The chain has begun, and the address has an account. -/
def Knows (a : AccountAddress) : Harness → Prop :=
  Stored fun s => s.contains (Ledger.accountKey a) = true

/-- The parts of the operations leave an address its account. -/
theorem knows_keeps (a : AccountAddress) : Keeps (Knows a) fun _ => Knows a :=
  stored_keeps (Ledger.kept_contains a)

/-- Where coins were created there is an account. -/
theorem knows_of_fund {a : AccountAddress} {coins : Coins} {h h' : Harness} {u : Unit}
    (begun : h.app.isInitialized = true) (funded : fund a coins h = .ok u h') : Knows a h' := by
  obtain ⟨app, happ, rfl⟩ := call_ok_iff.1 funded
  obtain ⟨-, s, minted, rfl⟩ := App.fundAccount_ok_iff.1 happ
  exact ⟨begun, Ledger.stored_of_mint minted⟩

/-- The addresses of validator keys have accounts, once each was credited. -/
theorem knows_of_forM_fund {keys : List ValidatorKey} {coins : Coins} {h h' : Harness} {u : PUnit}
    (begun : h.app.isInitialized = true)
    (funded : (keys.forM fun k => fund k.accountAddress coins) h = .ok u h') :
    ∀ k ∈ keys, Knows k.accountAddress h' := by
  induction keys generalizing h with
  | nil => exact fun _ hk => (nomatch hk)
  | cons first rest ih =>
    obtain ⟨_, h₁, hfirst, hrest⟩ := bind_ok_iff.1 funded
    have known := knows_of_fund begun hfirst
    refine List.forall_mem_cons.2 ⟨?_, ih known.begun hrest⟩
    -- Crediting the other keys leaves the account of the first.
    exact (Ends.forM fun k _ =>
      (knows_keeps first.accountAddress).fund k.accountAddress coins).of_ok known hrest

/-- A new account is there. -/
theorem knows_of_initAccount {coins : Coins} {key : PrivateKey} {h h' : Harness}
    (begun : h.app.isInitialized = true) (made : initAccount coins h = .ok key h') :
    Knows key.publicKey.accountAddress h' := by
  unfold initAccount at made
  obtain ⟨-, hdraw⟩ := ensureReady_bind_ok_iff.1 made
  rw [get_bind_eq] at hdraw
  dsimp only at hdraw
  rw [set_bind_eq] at hdraw
  obtain ⟨_, h₂, hfund, hreturn⟩ := bind_ok_iff.1 hdraw
  cases hreturn
  exact knows_of_fund (by exact begun) hfund

/-- New accounts are there. -/
theorem knows_of_initAccounts {coins : Coins} {n : Nat} {keys : List PrivateKey} {h h' : Harness}
    (begun : h.app.isInitialized = true) (made : initAccounts coins n h = .ok keys h') :
    ∀ key ∈ keys, Knows key.publicKey.accountAddress h' := by
  induction n generalizing h keys with
  | zero =>
    cases made
    exact fun _ hk => (nomatch hk)
  | succ n ih =>
    unfold initAccounts at made
    obtain ⟨first, h₁, hfirst, hmore⟩ := bind_ok_iff.1 made
    obtain ⟨rest, h₂, hrest, hreturn⟩ := bind_ok_iff.1 hmore
    cases hreturn
    have known := knows_of_initAccount begun hfirst
    refine List.forall_mem_cons.2 ⟨?_, ih known.begun hrest⟩
    -- Making the other accounts leaves the first.
    exact ((knows_keeps first.publicKey.accountAddress).initAccounts coins n).of_ok known hrest

/-- Once a block was executed it is committed, or the commit fails; either leaves the application
of the commit. -/
theorem next_endBlock_app {h : Harness} {b : PendingBlock} {a a' : App} {f : FinalizeResponse}
    (building : h.cycle = .building b) (accepted : h.Accepted b a)
    (executed : App.finalizeBlock (h.finalizeRequest b) a = .ok f a') :
    (Op.endBlock.next h).app = stateAfter App.commit a' := by
  obtain ⟨proposed, status, a₁, hprepare, hprocess, haccepted⟩ := accepted.steps
  have ended := endBlock_eq h b building
  rw [hprepare] at ended
  dsimp only at ended
  rw [hprocess] at ended
  dsimp only at ended
  rw [if_pos haccepted, executed] at ended
  dsimp only at ended
  cases hcommit : App.commit a' with
  | ok n c =>
    rw [hcommit] at ended
    have next : Op.endBlock.next h = _ := stateAfter_of_ok (bind_of_ok ended _)
    rw [next, stateAfter_of_ok hcommit]
  | error e c =>
    rw [hcommit] at ended
    have next : Op.endBlock.next h = _ := stateAfter_of_error (bind_of_error ended _)
    rw [next, stateAfter_of_error hcommit]

/-- Whoever an operation credits has an account after it. -/
theorem Credits.knows {h : Harness} {op : Op} {a : AccountAddress} (credits : h.Credits op a)
    (begun : h.app.isInitialized = true) : Knows a (op.next h) := by
  cases credits with
  | @fundAccount a coins h' funded =>
    have next : (Op.fundAccount a coins).next h = h' := stateAfter_of_ok (bind_of_ok funded _)
    obtain ⟨-, hfund⟩ := ensureReady_bind_ok_iff.1 funded
    rw [next]
    exact knows_of_fund begun hfund
  | @fundValidators k h' known funded =>
    have next : Op.fundValidators.next h = h' := stateAfter_of_ok (bind_of_ok funded _)
    obtain ⟨-, hfund⟩ := ensureReady_bind_ok_iff.1 funded
    rw [get_bind_eq] at hfund
    rw [next]
    exact knows_of_forM_fund begun hfund k known
  | @initAccount coins key h' made =>
    have next : (Op.initAccount coins).next h = h' := stateAfter_of_ok (bind_of_ok made _)
    rw [next]
    exact knows_of_initAccount begun made
  | @initAccounts coins n key keys h' made new =>
    have next : (Op.initAccounts coins n).next h = h' := stateAfter_of_ok (bind_of_ok made _)
    rw [next]
    exact knows_of_initAccounts begun made key new
  | @transfer b a a' f i tx t result building accepted executed queued moves answered succeeded =>
    have ready : a.isInitialized = true := (App.finalizeBlock_ok_iff.1 executed).1.begun
    obtain ⟨-, -, s, -, rfl, rfl⟩ := App.finalizeBlock_ok_iff.1 executed
    have paid : (Ledger.executeAll b.txs s).2.contains (Ledger.accountKey t.recipient) = true :=
      Ledger.stored_of_executeAll queued moves answered succeeded
    have kept := (Ledger.kept_contains t.recipient).stored .commit
      (a := a.executed (h.finalizeRequest b) s) ⟨ready, paid⟩ rfl
    unfold Knows Stored
    rw [next_endBlock_app building accepted executed]
    exact kept

/-! ## Every moment -/

/-- An account that is stored is found unchanged after all operations. -/
theorem account?_afterAll {h : Harness} (begun : h.app.isInitialized = true) {a : AccountAddress}
    {x : Account} (stored : Ledger.account? a h.app.store = .ok (some x)) (ops : List Op) :
    Ledger.account? a (afterAll ops h).app.store = .ok (some x) := by
  refine Ledger.account?_of_kept stored fun v hv => ?_
  have start : h.Stored fun s => s.get? (Ledger.accountKey a) = some v := ⟨begun, hv⟩
  exact (start.afterAll (Ledger.kept_stored a v) ops).store

/-- Where the configuration leaves the state of the auth module and lists no address twice, nor that
of the funded account, the accounts have the numbers from zero on, each once, at every moment. No
account that is stored is removed or changed by any operations, and whoever an operation credits has
an account from then on. -/
theorem accounts_dense (r : Run) (hauth : authModule ∉ r.config.genesis.moduleOverrides.names)
    (distinct : (fundedAddress r.around r.config ::
      r.config.genesis.extraBalances.map Balance.address).Nodup) :
    (∃ xs, Ledger.HasAccounts r.now.app.store xs ∧
      (xs.length ≤ UInt64.size →
        (xs.map fun x => x.number.toNat).Perm (List.range xs.length))) ∧
    (∀ a x, Ledger.account? a r.now.app.store = .ok (some x) →
      ∀ ops, Ledger.account? a (afterAll ops r.now).app.store = .ok (some x)) ∧
    ∀ op a, r.now.Credits op a →
      ∀ ops, ∃ x, Ledger.account? a (afterAll ops (op.next r.now)).app.store = .ok (some x) := by
  have numbered := (numbered_init r.app r.begun_eq hauth distinct).afterAll
    Ledger.kept_numbered r.ops
  have begun : r.now.app.isInitialized = true := numbered.begun
  refine ⟨?_, fun a x stored ops => account?_afterAll begun stored ops, fun op a credits ops => ?_⟩
  · obtain ⟨xs, has⟩ := numbered.store.exists_accounts
    exact ⟨xs, has, has.numbers.toNat⟩
  · have known := (credits.knows begun).afterAll (Ledger.kept_contains a) ops
    -- The run with these operations too ends there.
    let later : Run := { r with ops := r.ops ++ op :: ops }
    have now : later.now = afterAll ops (op.next r.now) := List.foldl_append
    have typed := later.wellTyped
    rw [now] at typed
    exact Ledger.exists_account_of_contains typed known.store

/-- A harness begins with one funded account, and creates coins on another one. -/
theorem exists_credited :
    ∃ (r : Run) (coins : Coins), r.now.Credits (.fundAccount seventeens coins) seventeens ∧
      (∃ xs, Ledger.HasAccounts r.now.app.store xs) ∧
      ∃ x, Ledger.account? seventeens
        ((Op.fundAccount seventeens coins).next r.now).app.store = .ok (some x) := by
  have buildable : (crediting []).genesis.Buildable (fundedAddress ⟨0, 1⟩ (crediting [])) :=
    buildable_crediting [] (by decide) _
  obtain ⟨l, h, hnew, hinit, -⟩ := start_of_buildable rfl buildable
  let r : Run := ⟨l, ⟨0, 1⟩, crediting [], h, hinit, []⟩
  let coins : Coins := .single 5 defaultBondDenom
  have dense := accounts_dense r (fun hmem => (nomatch hmem)) (List.pairwise_singleton _ _)
  have valid : coins.check = .ok () := Coins.check_single (if_pos (by decide)) 5
  obtain ⟨s, minted, -⟩ := r.wellTyped.exists_mint (Ledger.Typing.closed_true _) seventeens valid
  have fresh := pristine_of_newApp hnew hinit
  have answers : h.app.Answers .funding := ⟨fresh.begun, by rw [fresh.failures]; rfl⟩
  have credits : r.now.Credits (.fundAccount seventeens coins) seventeens := by
    have funded : fund seventeens coins h = .ok () _ :=
      call_ok_iff.2 ⟨_, App.fundAccount_ok_iff.2 ⟨answers, s, minted, rfl⟩, rfl⟩
    exact .fundAccount (bind_ok_iff.2 ⟨_, _, ensureReady_of_idle fresh.idle, funded⟩)
  obtain ⟨⟨xs, has, -⟩, -, known⟩ := dense
  exact ⟨r, coins, credits, ⟨xs, has⟩, known _ _ credits []⟩

end Harness

end TestChain
