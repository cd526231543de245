import TestChain.Proofs.Harness.Blocks

/-!
# Splitting a block

Transactions that are made in one block and in two successive ones are executed on stores whose
entries lie in different layers: behind the division the changes of the first transactions are
committed, and votes have been counted once more. Neither is seen by a transaction
(`Ledger.executeAll_agree`), so all of them have the same results, and what is left differs in
signing infos alone. The main theorem is `split_block`.
-/

namespace TestChain

namespace Ledger

/-- Two stores have the same values but for signing infos, so that they answer alike. -/
structure SameLedger (s t : Store) : Prop where
  /-- The values agree under all keys that are not those of signing infos. -/
  values : s.AgreeOn Unsigned t
  /-- The balances agree. -/
  balances : ∀ a, Ledger.balances a t = Ledger.balances a s
  /-- The supplies agree. -/
  supply : Ledger.supply t = Ledger.supply s
  /-- The accounts agree, with their numbers. -/
  accounts : ∀ a, Ledger.account? a t = Ledger.account? a s
  /-- The validators agree. -/
  validators : Ledger.validators t = Ledger.validators s
  /-- The delegations agree. -/
  delegations : Ledger.delegations t = Ledger.delegations s

/-- Stores that agree but for signing infos answer alike. -/
theorem SameLedger.of_agree {s t : Store} (agree : s.AgreeOn Unsigned t) : SameLedger s t where
  values := agree
  balances a := balances_agree agree (covers_unsigned.balances _ (isPrefixOf_balanceKey a))
  supply := supply_agree agree (show signingInfoLead.isPrefixOf supplyKey = false by decide)
  accounts a := value?_agree agree _
    (covers_unsigned.accounts _ (List.isPrefixOf_iff_prefix.2 (accountKey_begins a)))
  validators := values_agree agree _ fun _ hk => unsigned_validator hk
  delegations := values_agree agree _ fun _ hk => unsigned_of_begins (by decide) (by decide) hk

end Ledger

namespace Harness

/-- What is executed on the store that a block has left is executed as right behind the block. -/
theorem Made.agree {p : Bytes → Prop} (covers : Ledger.Covers p) {h h' : Harness} {txs : List Tx}
    {f : FinalizeResponse} {s : Store} (made : h.Made txs f s h') {store t : Store}
    (before : store.AgreeOn p s) (later : h'.app.store.AgreeOn p t) :
    f.results = (Ledger.executeAll txs store).1 ∧
      (Ledger.executeAll txs store).2.AgreeOn p t := by
  obtain ⟨results, left⟩ := Ledger.executeAll_agree covers txs before
  rw [made.store] at later
  exact ⟨made.results.trans results, left.trans (.trans (.commit _) later)⟩

/-- After a block the hash of the application is that of everything in its store. -/
theorem Made.appHash_eq {h h' : Harness} {txs : List Tx} {f : FinalizeResponse} {s : Store}
    (made : h.Made txs f s h') : h'.app.lastAppHash = Store.rootOf h'.app.store.view := by
  rw [made.appHash, made.store]
  rfl

/-- A run without an open block, an injected failure or a rejection to come makes one block of all
transactions, and makes two successive ones of the first and of the others, whichever proposers are
found for the three blocks. Then both ways leave the same values but for signing infos, and the
results of the two blocks are, one after the other, those of the one. Without proposers the hashes
of the application agree as well. -/
theorem split_block (r : Run) (idle : r.now.cycle = .idle) (spared : r.now.app.failures = [])
    (verdict : r.now.app.verdict = .accept) (unarmed : r.now.app.rejectNext = false)
    (whole first second : Start) (hwhole : whole.Resolves r.now.config r.now.app.store)
    (hfirst : first.Resolves r.now.config r.now.app.store)
    (hsecond : second.Resolves r.now.config r.now.app.store) (t₁ t₂ : List Tx) :
    ∃ f h f₁ h₁ f₂ h₂, whole.block (t₁ ++ t₂) r.now = .ok f h ∧
      first.block t₁ r.now = .ok f₁ h₁ ∧ second.block t₂ h₁ = .ok f₂ h₂ ∧
      Ledger.SameLedger h.app.store h₂.app.store ∧ f.results = f₁.results ++ f₂.results ∧
      (r.now.config.proposer = .none → whole.operator = none → first.operator = none →
        second.operator = none → h.app.lastAppHash = h₂.app.lastAppHash) := by
  have calm := r.calm idle spared verdict unarmed
  obtain ⟨f, s, h, hblock, made, unvoted⟩ := calm.block whole hwhole (t₁ ++ t₂)
  obtain ⟨f₁, s₁, h₁, hblock₁, made₁, unvoted₁⟩ := calm.block first hfirst t₁
  have resolves : second.Resolves h₁.config h₁.app.store := by
    rw [made₁.config]
    exact hsecond.of_same made₁.validators
  obtain ⟨f₂, s₂, h₂, hblock₂, made₂, unvoted₂⟩ := made₁.calm.block second resolves t₂
  -- What holds where the stores behind the votes agree is used twice: for the keys that are not
  -- those of signing infos, and without votes for all keys.
  have same : ∀ {p : Bytes → Prop}, Ledger.Covers p → s.AgreeOn p s₁ →
      h₁.app.store.AgreeOn p s₂ →
        f.results = f₁.results ++ f₂.results ∧ h.app.store.AgreeOn p h₂.app.store := by
    intro p covers counted counted₂
    obtain ⟨results₁, left⟩ := made₁.agree covers counted counted₂
    obtain ⟨results₂, left⟩ := made₂.agree covers left (.refl _)
    have all := Ledger.executeAll_append t₁ t₂ s
    refine ⟨?_, ?_⟩
    · rw [made.results, results₁, results₂, all]
    · rw [made.store, all]
      exact .trans (.symm (.commit _)) left
  obtain ⟨results, agree⟩ := same Ledger.covers_unsigned (made.counted.symm.trans made₁.counted)
    made₂.counted
  refine ⟨f, h, f₁, h₁, f₂, h₂, hblock, hblock₁, hblock₂, .of_agree agree, results,
    fun hnone hw h1 h2 => ?_⟩
  have covers : Ledger.Covers fun _ => True := ⟨fun _ _ => trivial, fun _ _ => trivial⟩
  have counted : s = s₁ := (unvoted hw hnone).trans (unvoted₁ h1 hnone).symm
  have counted₂ : s₂ = h₁.app.store := unvoted₂ h2 (by rw [made₁.config]; exact hnone)
  obtain ⟨-, all⟩ := same covers (counted ▸ .refl s) (counted₂ ▸ .refl _)
  rw [made.appHash_eq, made₂.appHash_eq, all.view_eq]

/-- A transfer to an address without an account and one back of what has arrived there go through in
one block, or in two. -/
theorem exists_split_block :
    ∃ (r : Run) (s : Start) (there back : Transfer) (f f₁ f₂ : FinalizeResponse)
      (h h₁ h₂ : Harness), s.block ([there.tx] ++ [back.tx]) r.now = .ok f h ∧
        s.block [there.tx] r.now = .ok f₁ h₁ ∧ s.block [back.tx] h₁ = .ok f₂ h₂ ∧
        f.results = f₁.results ++ f₂.results ∧ f.results.map TxResult.code = [0, 0] ∧
        Ledger.account? there.recipient r.now.app.store = .ok none ∧
        (∃ x, Ledger.account? there.recipient h₂.app.store = .ok (some x)) ∧
        Ledger.SameLedger h.app.store h₂.app.store ∧ h.app.lastAppHash = h₂.app.lastAppHash := by
  obtain ⟨r, b, -, idle, unproposed, spared, verdict, unarmed, hne, five, nothing, new⟩ :=
    exists_paying_run
  obtain ⟨there, back, rfl, -, -, first, second, -, opened⟩ :=
    Ledger.exists_there_and_back hne five nothing
  have resolves : (⟨none, false, 1⟩ : Start).Resolves r.now.config r.now.app.store :=
    Start.resolves_of_none rfl unproposed _
  obtain ⟨f, h, f₁, h₁, f₂, h₂, block, block₁, block₂, same, results, hashes⟩ :=
    split_block r idle spared verdict unarmed ⟨none, false, 1⟩ ⟨none, false, 1⟩ ⟨none, false, 1⟩
      resolves resolves resolves [there.tx] [back.tx]
  obtain ⟨all, left⟩ :=
    (r.calm idle spared verdict unarmed).executed rfl unproposed block
  refine ⟨r, ⟨none, false, 1⟩, there, back, f, f₁, f₂, h, h₁, h₂, block, block₁, block₂, results,
    ?_, new, ?_, same, hashes unproposed rfl rfl rfl⟩
  · rw [all]
    simp only [List.singleton_append, Ledger.executeAll_cons, List.map_cons, first, second]
    rfl
  · -- The account that the first transfer has opened stays.
    have typed := Ledger.kept_wellTyped (Ledger.Typing.closed_true fun _ => True)
    have kept := Ledger.kept_contains there.recipient
    have after (x y : Tx) (s : Store) : (Ledger.executeAll ([x] ++ [y]) s).2 =
      (Ledger.execute y (Ledger.execute x s).2).2 := rfl
    rw [same.accounts, left, after]
    exact Ledger.exists_account_of_contains
      (typed.commit _ (typed.execute _ _ (typed.execute _ _ r.wellTyped)))
      (kept.commit _ (kept.execute _ _ opened))

end Harness

end TestChain
