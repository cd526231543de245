import Mathlib.Data.List.Range
import TestChain.Proofs.App.Listed

/-!
# Account numbers

A new account gets the count of the accounts so far as its number. The count is taken by a scan,
which sees the accounts of all layers, so the numbers of the stored accounts are those from zero on
and each is used once (`Ledger.Numbered`). Nothing else writes accounts, and no account that is
stored is written again (`Ledger.kept_numbered`, `Ledger.kept_stored`). Whoever has been credited
has an account (`Ledger.stored_of_mint`, `Ledger.stored_of_execute`).
-/

namespace TestChain

namespace Ledger

variable {s : Store} {α : Type}

/-! ## Opening accounts -/

/-- After an account is opened its address has one. -/
theorem contains_openAccount (a : AccountAddress) (s : Store) :
    (openAccount a s).contains (accountKey a) = true := by
  unfold openAccount
  split
  · assumption
  · unfold Store.contains Store.write
    rw [Store.get?_set, if_pos rfl]
    rfl

/-- An account is opened where there is none, and written once. -/
theorem get?_openAccount {a : AccountAddress} {k v : Bytes} (hv : s.get? k = some v) :
    (openAccount a s).get? k = some v := by
  unfold openAccount
  split
  · exact hv
  · rename_i new
    unfold Store.write
    rw [Store.get?_set, if_neg]
    · exact hv
    · rintro rfl
      unfold Store.contains at new
      rw [hv] at new
      exact new rfl

/-- Every write that a begun chain makes, but for those of accounts, is under a key of no account.
So what these and opening accounts keep is kept. -/
theorem kept_of_accounts {P : Store → Prop}
    (other : ∀ k v s, accountLead.isPrefixOf k = false → P s → P (s.set k v))
    (opens : ∀ a s, P s → P (openAccount a s)) (commit : ∀ s, P s → P s.commit) :
    App.Kept P := by
  have coins : KeptByCoins P := {
    balance := fun a cs s => other _ _ s
      (isPrefixOf_of_begins (by decide) (by decide) (balanceKey_begins a))
    supply := fun cs s => other _ _ s (by decide)
    account := opens }
  exact coins.kept (fun a i s => other _ _ s
    (isPrefixOf_of_begins (by decide) (by decide) (signingInfoKey_begins a))) commit

/-- An account that is stored stays as it is. -/
theorem kept_stored (a : AccountAddress) (v : Bytes) :
    App.Kept fun s => s.get? (accountKey a) = some v := by
  refine kept_of_accounts (fun k w s hk hv => ?_) (fun b s => get?_openAccount) fun s hv => ?_
  · rw [Store.get?_set, if_neg]
    · exact hv
    · rintro rfl
      rw [List.isPrefixOf_iff_prefix.2 (accountKey_begins a)] at hk
      cases hk
  · rw [Store.get?_commit, hv]

/-- An address that has an account keeps one. -/
theorem kept_contains (a : AccountAddress) :
    App.Kept fun s => s.contains (accountKey a) = true := by
  have kept := App.Kept.any (kept_stored a)
  simpa only [Store.contains, Option.isSome_iff_exists] using kept

/-! ## Numbers -/

/-- The entries of some accounts. -/
abbrev accountEntries (xs : List Account) : List (Bytes × Bytes) :=
  entries Account.codec (fun x => accountKey x.address) id xs

/-- The accounts have the numbers from zero on, each once. -/
def Dense (xs : List Account) : Prop :=
  (xs.map Account.number).Perm ((List.range xs.length).map UInt64.ofNat)

/-- The stored accounts have the numbers from zero on, each once. -/
def Numbered (s : Store) : Prop :=
  ∃ xs, (s.scan accountLead).Perm (accountEntries xs) ∧ Dense xs

/-- The next number continues the numbers. -/
theorem Dense.cons {xs : List Account} (h : Dense xs) {x : Account}
    (hx : x.number = UInt64.ofNat xs.length) : Dense (x :: xs) := by
  unfold Dense
  rw [List.map_cons, List.length_cons, List.range_succ, List.map_append, hx]
  have first := List.Perm.cons (UInt64.ofNat xs.length) h
  exact first.trans (List.perm_append_singleton _ _).symm

/-- As long as words can count the accounts, the numbers are those below their count. -/
theorem Dense.toNat {xs : List Account} (h : Dense xs) (hsize : xs.length ≤ UInt64.size) :
    (xs.map fun x => x.number.toNat).Perm (List.range xs.length) := by
  have words := h.map UInt64.toNat
  have below : ∀ n ∈ List.range xs.length, (UInt64.toNat ∘ UInt64.ofNat) n = n := fun n hn =>
    UInt64.toNat_ofNat_of_lt' (Nat.lt_of_lt_of_le (List.mem_range.1 hn) hsize)
  rw [List.map_map, List.map_map, List.map_congr_left below, List.map_id'] at words
  exact words

/-- Whether accounts are numbered is a matter of their scan. -/
theorem Numbered.of_scan_eq (h : Numbered s) {t : Store}
    (same : t.scan accountLead = s.scan accountLead) : Numbered t := by
  unfold Numbered
  rw [same]
  exact h

/-- A new account gets the next number. -/
theorem Numbered.openAccount (h : Numbered s) (a : AccountAddress) :
    Numbered (openAccount a s) := by
  unfold Ledger.openAccount
  split
  · exact h
  · rename_i new
    have absent : s.get? (accountKey a) = none := Option.not_isSome_iff_eq_none.1 new
    obtain ⟨xs, hscan, dense⟩ := h
    have length : (s.scan accountLead).length = xs.length := by
      rw [hscan.length_eq]
      exact List.length_map _
    rw [length]
    let x : Account := .fresh a (UInt64.ofNat xs.length)
    have lead := List.isPrefixOf_iff_prefix.2 (accountKey_begins a)
    have added := Store.scan_set_of_new lead absent (Bytes.ofString (Account.codec.text x))
    exact ⟨x :: xs, added.trans (hscan.cons _), dense.cons rfl⟩

/-- Everything that a begun chain does to its ledger keeps the accounts numbered. -/
theorem kept_numbered : App.Kept Numbered :=
  kept_of_accounts (fun _ _ _ hk h => h.of_scan_eq (Store.scan_set_of_not hk _ _))
    (fun a _ h => h.openAccount a) fun s h => h.of_scan_eq (s.scan_commit _)

/-- The accounts of a document are numbered in its store, if no two of them have one address. -/
theorem numbered_genesisStore {d : GenesisDocument} {o : Opening}
    (distinct : (o.auth.accounts.map Account.address).Nodup) (dense : Dense o.auth.accounts) :
    Numbered (genesisStore d o .fresh) := by
  have nodup : ((Kind.account.listed d o).map Prod.fst).Nodup :=
    nodup_keys accountKey accountKey_injective distinct
  refine ⟨o.auth.accounts, ?_, dense⟩
  exact scan_of_listed nodup (fun x _ => accountKey_begins x.address) fun k v hk =>
    get?_genesisStore d o .account hk nodup

/-- What queries tell about accounts: they find them by their addresses, of which none comes twice,
and the numbers are those from zero on. -/
structure HasAccounts (s : Store) (xs : List Account) : Prop where
  /-- These are the stored accounts. -/
  stored : values Account.codec accountLead s = .ok xs
  /-- Each is found by its address. -/
  found : ∀ a, account? a s = .ok (xs.find? fun x => x.address = a)
  /-- No two have one address. -/
  addresses : (xs.map Account.address).Nodup
  /-- The numbers are those from zero on. -/
  numbers : Dense xs

/-- Accounts that are stored under their addresses have different ones. -/
theorem nodup_of_scan {xs : List Account}
    (hscan : (s.scan accountLead).Perm (accountEntries xs)) :
    (xs.map Account.address).Nodup := by
  -- In a scan no key comes twice.
  have keys : ((accountEntries xs).map Prod.fst).Nodup := by
    refine (hscan.map Prod.fst).nodup_iff.1 (List.pairwise_map.2 ?_)
    refine (s.sorted_scan accountLead).imp fun hlt heq => ?_
    rw [heq] at hlt
    exact List.lt_irrefl _ hlt
  rw [map_fst_entries] at keys
  refine List.Nodup.of_map accountKey ?_
  rw [List.map_map]
  exact keys

/-- Numbered accounts are told by queries. -/
theorem Numbered.exists_accounts (h : Numbered s) : ∃ xs, HasAccounts s xs := by
  obtain ⟨xs, hscan, dense⟩ := h
  obtain ⟨ys, hperm, hvalues, -⟩ := values_of_perm (fun x => x.faithful_codec) (by decide) hscan
  rw [List.map_id] at hvalues
  have scanned : (s.scan accountLead).Perm (accountEntries ys) :=
    hscan.trans (hperm.symm.map _)
  have addresses := nodup_of_scan scanned
  have apart : ((accountEntries ys).map Prod.fst).Nodup :=
    nodup_keys accountKey accountKey_injective addresses
  refine ⟨ys, hvalues, fun a => ?_, addresses, ?_⟩
  · have listed : ∀ v, s.get? (accountKey a) = some v ↔
        (accountKey a, v) ∈ accountEntries ys := fun v => by
      have all := (Store.scan_perm_iff (.of_map Prod.fst apart)).1 scanned (accountKey a) v
      rw [List.isPrefixOf_iff_prefix.2 (accountKey_begins a)] at all
      exact (all.trans (and_iff_right rfl)).symm
    have read := value?_of_listed accountKey_injective listed fun x _ =>
      Store.decode_text x.faithful_codec (by decide)
    unfold account?
    rw [read, Option.map_id]
    rfl
  · unfold Dense
    rw [hperm.length_eq]
    exact (hperm.map _).trans dense

/-! ## Who has an account -/

/-- Whoever coins were created for has an account. -/
theorem stored_of_mint {a : AccountAddress} {cs : Coins} {s' : Store}
    (h : mint a cs s = .ok () s') : s'.contains (accountKey a) = true := by
  unfold mint at h
  obtain ⟨_, _, -, h⟩ := bind_ok_iff.1 h
  obtain ⟨_, _, -, h⟩ := bind_ok_iff.1 h
  obtain ⟨_, _, -, h⟩ := bind_ok_iff.1 h
  obtain ⟨_, _, -, h⟩ := bind_ok_iff.1 h
  obtain ⟨_, t, -, h⟩ := bind_ok_iff.1 h
  rw [ensureAccount_eq] at h
  cases h
  exact contains_openAccount a t

/-- Whoever coins were moved to has an account. -/
theorem stored_of_transfer {t : Transfer} {s' : Store} (h : transfer t s = .ok () s') :
    s'.contains (accountKey t.recipient) = true := by
  unfold transfer at h
  obtain ⟨_, _, -, h⟩ := bind_ok_iff.1 h
  obtain ⟨held, _, -, h⟩ := bind_ok_iff.1 h
  cases hleft : subAll? held t.amount with
  | none =>
    rw [hleft] at h
    cases h
  | some left =>
    rw [hleft] at h
    obtain ⟨_, _, -, h⟩ := bind_ok_iff.1 h
    obtain ⟨_, _, -, h⟩ := bind_ok_iff.1 h
    obtain ⟨_, u, -, h⟩ := bind_ok_iff.1 h
    rw [ensureAccount_eq] at h
    cases h
    exact contains_openAccount _ u

/-- A refusal has a code that is not zero. -/
theorem refusal_code_ne (tx : Tx) (e : AppError) : (refusal tx e).code ≠ 0 := by
  cases e with
  | insufficientFunds address needed => exact fun h => (nomatch h)
  | _ => exact fun h => (nomatch h)

/-- Whoever is paid by a transaction that succeeds has an account. -/
theorem stored_of_execute {tx : Tx} {t : Transfer} (ht : Transfer.ofTx? tx = some t)
    (hcode : (execute tx s).1.code = 0) :
    (execute tx s).2.contains (accountKey t.recipient) = true := by
  unfold execute at hcode ⊢
  rw [ht] at hcode ⊢
  dsimp only at hcode ⊢
  cases hr : transfer t s with
  | ok u s' => exact stored_of_transfer hr
  | error e s' =>
    rw [hr] at hcode
    exact absurd hcode (refusal_code_ne tx e)

/-- Whoever is paid by one of several transactions has an account after all of them. -/
theorem stored_of_executeAll {txs : List Tx} {i : Nat} {tx : Tx} {t : Transfer} {result : TxResult}
    (htx : txs[i]? = some tx) (ht : Transfer.ofTx? tx = some t)
    (hresult : (executeAll txs s).1[i]? = some result) (hcode : result.code = 0) :
    (executeAll txs s).2.contains (accountKey t.recipient) = true := by
  obtain ⟨hi, rfl⟩ := List.getElem?_eq_some_iff.1 htx
  rw [getElem?_executeAll hi] at hresult
  cases hresult
  have paid := stored_of_execute ht hcode
  -- The transactions behind it leave the account.
  have kept := (kept_contains t.recipient).executeAll (txs.drop (i + 1)) paid
  have split : txs = txs.take i ++ txs[i] :: txs.drop (i + 1) := by
    rw [← List.drop_eq_getElem_cons hi, List.take_append_drop]
  have all := executeAll_append (txs.take i) (txs[i] :: txs.drop (i + 1)) s
  rw [← split, executeAll_cons] at all
  rw [all]
  exact kept

/-- Where what is stored for an address stays, an account that is found is found again. -/
theorem account?_of_kept {a : AccountAddress} {x : Account} {t : Store}
    (h : account? a s = .ok (some x))
    (kept : ∀ v, s.get? (accountKey a) = some v → t.get? (accountKey a) = some v) :
    account? a t = .ok (some x) := by
  unfold account? value? Store.read? at h ⊢
  cases hv : s.get? (accountKey a) with
  | none =>
    rw [hv] at h
    cases h
  | some v =>
    rw [hv] at h
    rw [kept v hv]
    exact h

/-- An account that is stored is found, if it is one. -/
theorem exists_account_of_contains {u : Typing} (typed : WellTyped u s) {a : AccountAddress}
    (h : s.contains (accountKey a) = true) : ∃ x, account? a s = .ok (some x) := by
  obtain ⟨v, hv⟩ := Option.isSome_iff_exists.1 h
  obtain ⟨x, hx, -⟩ := typed.reads .account (accountKey_begins a) hv
  refine ⟨x, ?_⟩
  unfold account? value? Store.read?
  rw [hv]
  dsimp only
  rw [hx]
  rfl

end Ledger

end TestChain
