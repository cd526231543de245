import TestChain.Proofs.App.Moving

/-!
# Crediting accounts

Coins that are created on an account raise its balance and the supply, each up to the largest word
and on its own. What many creations of one amount come to is told by how often each address was
credited (`Ledger.Credited`): whether sums stop at the largest word once, at the end, or each time
that something is added to them makes no difference (`Ledger.Credited.trans`).
-/

namespace TestChain

namespace Ledger

/-- One store turns into another when an amount of a denomination is created on addresses, so often
on each of them and so often in all. -/
structure Credited (denom : String) (amount : UInt64) (times : AccountAddress → Nat) (all : Nat)
    (s s' : Store) : Prop where
  /-- Every balance rises by what was created on the address, up to the largest word. -/
  balance : ∀ a, ∃ old new,
    Ledger.balance a denom s = .ok old ∧ Ledger.balance a denom s' = .ok new ∧
    new.toNat = min (UInt64.size - 1) (old.toNat + times a * amount.toNat)
  /-- So does the supply, by all that was created; that of other denominations stays. -/
  supply : ∃ old new, Ledger.supply s = .ok old ∧ Ledger.supply s' = .ok new ∧
    (new.amountOf denom).toNat =
      min (UInt64.size - 1) ((old.amountOf denom).toNat + all * amount.toNat) ∧
    ∀ other, other ≠ denom → new.amountOf other = old.amountOf other
  /-- Balances of other denominations stay. -/
  others : ∀ a other, other ≠ denom → Ledger.balance a other s' = Ledger.balance a other s
  /-- The balances of an address on which nothing was created stay. -/
  spared : ∀ a, times a = 0 → balances a s' = balances a s
  /-- An address on which something was created has an account. -/
  opened : ∀ a, times a ≠ 0 → ∃ x, account? a s' = .ok (some x)
  /-- An account stays as it is. -/
  accounts : ∀ a x, account? a s = .ok (some x) → account? a s' = .ok (some x)
  /-- So does all that is neither a balance nor the supply nor an account. -/
  rest : s.AgreeOn Quiet s'

namespace Credited

variable {denom : String} {amount : UInt64} {state : Bytes → Prop} {s t u : Store}

/-- Where nothing is created nothing changes. -/
theorem none (typed : WellTyped ⟨Coins.Sorted, state⟩ s) :
    Credited denom amount (fun _ => 0) 0 s s where
  balance a := by
    obtain ⟨cs, hcs, -⟩ := typed.balances .nil a
    refine ⟨_, _, balance_of_ok hcs denom, balance_of_ok hcs denom, ?_⟩
    have := (cs.amountOf denom).toNat_lt_size
    omega
  supply := by
    obtain ⟨cs, hcs, -⟩ := typed.supply .nil
    refine ⟨cs, cs, hcs, hcs, ?_, fun _ _ => rfl⟩
    have := (cs.amountOf denom).toNat_lt_size
    omega
  others _ _ _ := rfl
  spared _ _ := rfl
  opened _ h := absurd rfl h
  accounts _ _ h := h
  rest := .refl s

/-- What is created in two goes is created in one. -/
theorem trans {times more : AccountAddress → Nat} {all rest : Nat}
    (first : Credited denom amount times all s t) (second : Credited denom amount more rest t u) :
    Credited denom amount (fun a => times a + more a) (all + rest) s u where
  balance a := by
    obtain ⟨old, mid, hold, hmid, raised⟩ := first.balance a
    obtain ⟨mid', new, hmid', hnew, raised'⟩ := second.balance a
    cases hmid.symm.trans hmid'
    refine ⟨old, new, hold, hnew, ?_⟩
    rw [raised', raised, Nat.add_mul]
    omega
  supply := by
    obtain ⟨old, mid, hold, hmid, raised, same⟩ := first.supply
    obtain ⟨mid', new, hmid', hnew, raised', same'⟩ := second.supply
    cases hmid.symm.trans hmid'
    refine ⟨old, new, hold, hnew, ?_, fun other hne => (same' other hne).trans (same other hne)⟩
    rw [raised', raised, Nat.add_mul]
    omega
  others a other hne := (second.others a other hne).trans (first.others a other hne)
  spared a h := (second.spared a (by omega)).trans (first.spared a (by omega))
  opened a h := by
    by_cases hmore : more a = 0
    · obtain ⟨x, hx⟩ := first.opened a (by omega)
      exact ⟨x, second.accounts a x hx⟩
    · exact second.opened a hmore
  accounts a x h := second.accounts a x (first.accounts a x h)
  rest := first.rest.trans second.rest

end Credited

variable {denom : String} {state : Bytes → Prop} {s : Store}

/-- The store after coins were created on an address that held some coins, where the supply was
another set of coins. -/
def afterMint (a : AccountAddress) (cs held total : Coins) (s : Store) : Store :=
  openAccount a <|
    (s.write Coins.codec (balanceKey a) (held.add cs)).write Coins.codec supplyKey (total.add cs)

/-- Coins of valid denominations are created on whatever the address holds. -/
theorem mint_of_ok {a : AccountAddress} {cs held total : Coins} (hcheck : cs.check = .ok ())
    (hheld : balances a s = .ok held) (htotal : supply s = .ok total) :
    mint a cs s = .ok () (afterMint a cs held total s) := by
  have htotal' : supply (s.write Coins.codec (balanceKey a) (held.add cs)) = .ok total := by
    rw [supply_write_of_ne (balanceKey_ne_supplyKey a), htotal]
  unfold mint
  rw [bind_of_ok (checkCoins_of_ok hcheck), bind_of_ok (ask_of_ok hheld),
    bind_of_ok (put_eq _ _ _ _), bind_of_ok (ask_of_ok htotal'), bind_of_ok (put_eq _ _ _ _)]
  exact ensureAccount_eq _ _

/-- The balances of the address are what it held with what was created. -/
theorem balances_afterMint (a : AccountAddress) (cs held total : Coins) (s : Store) :
    balances a (afterMint a cs held total s) = .ok (held.add cs) := by
  unfold afterMint
  rw [balances_openAccount, balances_agree (p := (· = balanceKey a))
    (.write_of_not _ _ _ (balanceKey_ne_supplyKey a).symm) rfl, balances_write]

/-- The balances of other addresses are as before. -/
theorem balances_afterMint_of_ne {a b : AccountAddress} (hne : b ≠ a) (cs held total : Coins)
    (s : Store) : balances b (afterMint a cs held total s) = balances b s := by
  unfold afterMint
  rw [balances_openAccount, balances_agree (p := (· = balanceKey b))
    (.write_of_not _ _ _ (balanceKey_ne_supplyKey b).symm) rfl, balances_write_of_ne hne]

/-- The supply is what it was with what was created. -/
theorem supply_afterMint (a : AccountAddress) (cs held total : Coins) (s : Store) :
    supply (afterMint a cs held total s) = .ok (total.add cs) := by
  unfold afterMint
  rw [supply_agree (p := (· = supplyKey)) (agreeOn_openAccount (apart_accountKey a).supply _) rfl,
    supply_write]

/-- An amount that is created on an address raises its balance and the supply, and nothing else
changes but for its account. -/
theorem exists_mint_credited (typed : WellTyped ⟨Coins.Sorted, state⟩ s)
    (valid : checkDenom denom = .ok ()) (amount : UInt64) (a : AccountAddress) :
    ∃ s', mint a (.single amount denom) s = .ok () s' ∧ WellTyped ⟨Coins.Sorted, state⟩ s' ∧
      Credited denom amount (fun b => if b = a then 1 else 0) 1 s s' := by
  have check := Coins.check_single valid amount
  obtain ⟨held, hheld, heldSorted⟩ := typed.balances .nil a
  obtain ⟨total, htotal, totalSorted⟩ := typed.supply .nil
  obtain ⟨s', minted, typed'⟩ := typed.exists_mint (Typing.closed_sorted state) a check
  have left : s' = afterMint a (.single amount denom) held total s := by
    rw [mint_of_ok check hheld htotal] at minted
    exact (EStateM.Result.ok.inj minted).2.symm
  -- The set that is added has the amount of its denomination and nothing of the others.
  have added (other : String) : Coins.total other (Coins.single amount denom).toList =
      if denom = other then amount.toNat else 0 := by
    rw [Coins.total_eq (Coins.sorted_single amount denom), Coins.amountOf_single]
    split <;> rfl
  have raised {old : Coins} (sorted : old.Sorted) :
      ((old.add (.single amount denom)).amountOf denom).toNat =
        min (UInt64.size - 1) ((old.amountOf denom).toNat + 1 * amount.toNat) := by
    rw [Coins.toNat_amountOf_add sorted, added, if_pos rfl, Nat.one_mul, Nat.min_comm]
  have same {old : Coins} (sorted : old.Sorted) (other : String) (hne : other ≠ denom) :
      (old.add (.single amount denom)).amountOf other = old.amountOf other := by
    refine UInt64.toNat_inj.1 ?_
    have := (old.amountOf other).toNat_lt_size
    rw [Coins.toNat_amountOf_add sorted, added, if_neg (Ne.symm hne)]
    omega
  have own : balances a s' = .ok (held.add (.single amount denom)) := by
    rw [left, balances_afterMint]
  have apart (b : AccountAddress) (hne : b ≠ a) : balances b s' = balances b s := by
    rw [left, balances_afterMint_of_ne hne]
  refine ⟨s', minted, typed', {
    balance := fun b => ?_
    supply := ⟨total, _, htotal, by rw [left, supply_afterMint], raised totalSorted,
      same totalSorted⟩
    others := fun b other hne => ?_
    spared := fun b h => apart b fun hb => by rw [if_pos hb] at h; cases h
    opened := fun b h => ?_
    accounts := fun b x h => account?_of_kept h fun v hv => by
      have kept := (kept_stored b v).mint a (.single amount denom) s hv
      rwa [stateAfter_of_ok minted] at kept
    rest := ?_ }⟩
  · by_cases hb : b = a
    · subst hb
      rw [if_pos rfl]
      exact ⟨_, _, balance_of_ok hheld denom, balance_of_ok own denom, raised heldSorted⟩
    · obtain ⟨cs, hcs, -⟩ := typed.balances .nil b
      have := (cs.amountOf denom).toNat_lt_size
      rw [if_neg hb]
      exact ⟨_, _, balance_of_ok hcs denom, balance_of_ok ((apart b hb).trans hcs) denom, by omega⟩
  · by_cases hb : b = a
    · subst hb
      rw [balance_of_ok own, balance_of_ok hheld, same heldSorted other hne]
    · unfold Ledger.balance
      rw [apart b hb]
  · have hb : b = a := by
      by_contra hne
      exact h (if_neg hne)
    rw [hb]
    exact exists_account_of_contains typed' (stored_of_mint minted)
  · exact ((keptByCoins_quiet s).mint a (.single amount denom)).of_ok (.refl s) minted

end Ledger

end TestChain
