import TestChain.Proofs.App.Supply
import TestChain.Proofs.Genesis.Validation
import TestChain.Proofs.Store.Lasting

/-!
# The ledger of a chain that begins

A document lists balances and validators, and the ledger stores them under their addresses. Of those
that are listed under one address only the last is stored, but the tests of a document count all of
them. So the stored sums are the tested ones exactly as far as nothing that counts is superseded
(`Ledger.KeepsSumsIff`), and this is so for every document with which a chain begins
(`App.keepsSums_initChain`).
-/

namespace TestChain

/-- Addresses are told apart by their bytes. -/
theorem Address.eq_of_toList_eq {kind : AddressKind} {a b : Address kind}
    (h : a.bytes.toList = b.bytes.toList) : a = b := by
  obtain ⟨a⟩ := a
  obtain ⟨b⟩ := b
  exact congrArg Address.mk (Vector.toList_inj.1 h)

/-- The last balance of an address. -/
def BankState.lastBalanceOf? (s : BankState) (a : AccountAddress) : Option Coins :=
  ((lasting Balance.address s.balances).find? fun b => b.address = a).map Balance.coins

namespace Ledger

/-- The key of a balance tells its account. -/
theorem balanceKey_injective (a b : AccountAddress) (h : balanceKey a = balanceKey b) : a = b :=
  Address.eq_of_toList_eq (List.append_cancel_left h)

/-- The key of a validator tells its operator. -/
theorem validatorKey_injective (a b : ValidatorAddress) (h : validatorKey a = validatorKey b) :
    a = b :=
  Address.eq_of_toList_eq (List.append_cancel_left h)

/-! ## What is stored -/

variable (d : GenesisDocument) (o : Opening)

/-- Keys of a kind do not begin like those of another kind. -/
theorem isPrefixOf_of_begins {p q k : Bytes} (hlen : p.length = q.length) (hne : p ≠ q)
    (hk : q <+: k) : p.isPrefixOf k = false := by
  obtain ⟨t, rfl⟩ := hk
  exact isPrefixOf_append_of_ne hlen hne t

/-- The key of an account begins like those of accounts. -/
theorem accountKey_begins (a : AccountAddress) : accountLead <+: accountKey a :=
  List.prefix_append _ _

/-- The key of a balance begins like those of balances. -/
theorem balanceKey_begins (a : AccountAddress) : balanceLead <+: balanceKey a :=
  List.prefix_append _ _

/-- The key of a validator begins like those of validators. -/
theorem validatorKey_begins (a : ValidatorAddress) : validatorLead <+: validatorKey a :=
  List.prefix_append _ _

/-- The key of a delegation begins like those of delegations. -/
theorem delegationKey_begins (a : AccountAddress) (b : ValidatorAddress) :
    delegationLead <+: delegationKey a b := by
  unfold delegationKey
  rw [List.append_assoc]
  exact List.prefix_append _ _

/-- The key of a signing info begins like those of signing infos. -/
theorem signingInfoKey_begins (a : ConsensusAddress) : signingInfoLead <+: signingInfoKey a :=
  List.prefix_append _ _

/-- The key of a module's state begins like those of such states. -/
theorem moduleKey_begins (name : String) : moduleLead <+: moduleKey name :=
  List.prefix_append _ _

/-- Of the listed balances those are stored that last. -/
theorem scan_balances :
    ((genesisStore d o .fresh).scan balanceLead).Perm
      ((lasting (fun b => balanceKey b.address) o.bank.balances).map fun b =>
        (balanceKey b.address, Bytes.ofString (Coins.codec.text b.coins))) := by
  have apart {q k : Bytes} (hlen : balanceLead.length = q.length) (hne : balanceLead ≠ q)
      (hk : q <+: k) : balanceLead.isPrefixOf k = false := isPrefixOf_of_begins hlen hne hk
  -- Nothing that is written before the balances or after them has one of their keys.
  unfold genesisStore Opening.writeTo
  dsimp only
  rw [scan_writeAll_of_not fun m _ => apart (by decide) (by decide) (moduleKey_begins _),
    scan_writeAll_of_not fun i _ => apart (by decide) (by decide) (signingInfoKey_begins _),
    scan_writeAll_of_not fun x _ => apart (by decide) (by decide) (delegationKey_begins _ _),
    scan_writeAll_of_not fun v _ => apart (by decide) (by decide) (validatorKey_begins _)]
  unfold Store.write
  rw [Store.scan_set_of_not isPrefixOf_supplyKey]
  refine scan_writeAll (fun b _ => isPrefixOf_balanceKey _) ?_
  rw [scan_writeAll_of_not fun a _ => apart (by decide) (by decide) (accountKey_begins _)]
  rfl

/-- Of the listed validators those are stored that last. -/
theorem scan_validators :
    ((genesisStore d o .fresh).scan validatorLead).Perm
      ((lasting (fun v => validatorKey v.operatorAddress) o.staking.validators).map fun v =>
        (validatorKey v.operatorAddress, Bytes.ofString (Validator.codec.text v))) := by
  have apart {q k : Bytes} (hlen : validatorLead.length = q.length) (hne : validatorLead ≠ q)
      (hk : q <+: k) : validatorLead.isPrefixOf k = false := isPrefixOf_of_begins hlen hne hk
  have supply : validatorLead.isPrefixOf supplyKey = false := by decide
  unfold genesisStore Opening.writeTo
  dsimp only
  rw [scan_writeAll_of_not fun m _ => apart (by decide) (by decide) (moduleKey_begins _),
    scan_writeAll_of_not fun i _ => apart (by decide) (by decide) (signingInfoKey_begins _),
    scan_writeAll_of_not fun x _ => apart (by decide) (by decide) (delegationKey_begins _ _)]
  refine scan_writeAll (fun v _ => List.isPrefixOf_iff_prefix.2 (validatorKey_begins _)) ?_
  unfold Store.write
  rw [Store.scan_set_of_not supply,
    scan_writeAll_of_not fun b _ => apart (by decide) (by decide) (balanceKey_begins _),
    scan_writeAll_of_not fun a _ => apart (by decide) (by decide) (accountKey_begins _)]
  rfl

/-- No key that begins like those of a kind is the key of the supply. -/
theorem ne_supplyKey {q k : Bytes} (hsupply : q.isPrefixOf supplyKey = false) (hk : q <+: k) :
    k ≠ supplyKey := by
  rintro rfl
  rw [List.isPrefixOf_iff_prefix.2 hk] at hsupply
  cases hsupply

/-- The supply of the document is stored. -/
theorem supply_genesisStore (s : Store) :
    Ledger.supply (genesisStore d o s) = .ok o.bank.supply := by
  unfold Ledger.supply value? Store.read? genesisStore Opening.writeTo
  dsimp only
  rw [get?_writeAll_of_ne fun m _ => ne_supplyKey (by decide) (moduleKey_begins _),
    get?_writeAll_of_ne fun i _ => ne_supplyKey (by decide) (signingInfoKey_begins _),
    get?_writeAll_of_ne fun x _ => ne_supplyKey (by decide) (delegationKey_begins _ _),
    get?_writeAll_of_ne fun v _ => ne_supplyKey (by decide) (validatorKey_begins _)]
  have written := Ledger.supply_write (writeAll Coins.codec (fun b => balanceKey b.address)
    (fun b => b.coins) o.bank.balances
    (writeAll Account.codec (fun a => accountKey a.address) id o.auth.accounts s)) o.bank.supply
  unfold Ledger.supply value? Store.read? at written
  exact written

/-! ## What the stored balances sum up to -/

variable {d o}

/-- A stored balance is one that lasts. -/
theorem mem_scan_balances {k v : Bytes} :
    (k, v) ∈ (genesisStore d o .fresh).scan balanceLead ↔
      ∃ b ∈ lasting Balance.address o.bank.balances,
        balanceKey b.address = k ∧ Bytes.ofString (Coins.codec.text b.coins) = v := by
  rw [(scan_balances d o).mem_iff, lasting_comp balanceKey_injective, List.mem_map]
  simp only [Prod.mk.injEq]

/-- The stored balances of a document in order are in order. -/
theorem inOrder_genesisStore (h : ∀ b ∈ o.bank.balances, b.coins.Sorted) :
    InOrder (genesisStore d o .fresh) := by
  intro k v hmem
  obtain ⟨b, hb, rfl, rfl⟩ := mem_scan_balances.1 hmem
  exact ⟨b.address, b.coins, rfl, Store.decode_text b.coins.faithful_codec (by decide),
    h b (mem_of_mem_lasting hb)⟩

/-- The stored balances hold what those hold that last. -/
theorem held_genesisStore (denom : String) :
    held denom (genesisStore d o .fresh) =
      Balance.sum denom (lasting Balance.address o.bank.balances) := by
  -- The sum does not depend on the order in which the balances are scanned.
  have perm := (scan_balances d o).map fun e => worth denom e.2
  unfold held Store.weigh Entries.weigh
  rw [perm.sum_nat, lasting_comp balanceKey_injective, List.map_map]
  refine congrArg List.sum (List.map_congr_left fun b _ => ?_)
  exact worth_text denom b.coins

/-- The stored balance of an address is its last. -/
theorem balances_genesisStore (a : AccountAddress) :
    Ledger.balances a (genesisStore d o .fresh) =
      .ok ((o.bank.lastBalanceOf? a).getD .empty) := by
  unfold Ledger.balances value? Store.read? BankState.lastBalanceOf?
  cases hfind : (lasting Balance.address o.bank.balances).find? fun b => b.address = a with
  | some b =>
    have found := List.find?_some hfind
    have address : b.address = a := of_decide_eq_true found
    have stored := (mem_scan_balances (d := d)).2 ⟨b, List.mem_of_find?_eq_some hfind, rfl, rfl⟩
    rw [address] at stored
    rw [(Store.mem_scan_iff.1 stored).2]
    dsimp only
    rw [Store.decode_text b.coins.faithful_codec (by decide)]
    rfl
  | none =>
    have none : (genesisStore d o .fresh).get? (balanceKey a) = none := by
      refine Option.eq_none_iff_forall_ne_some.2 fun v hv => ?_
      -- A stored value would be a balance of the address, for no other one has this key.
      obtain ⟨b, hb, hkey, -⟩ :=
        mem_scan_balances.1 (Store.mem_scan_iff.2 ⟨isPrefixOf_balanceKey a, hv⟩)
      have other := List.find?_eq_none.1 hfind b hb
      exact other (decide_eq_true (balanceKey_injective _ _ hkey))
    rw [none]
    rfl

/-- An address whose account is not listed has none. -/
theorem account?_genesisStore_of_not_listed {a : AccountAddress}
    (h : ∀ x ∈ o.auth.accounts, x.address ≠ a) :
    Ledger.account? a (genesisStore d o .fresh) = .ok none := by
  have apart {q k : Bytes} (hlen : q.length = accountLead.length) (hne : q ≠ accountLead)
      (hk : q <+: k) : k ≠ accountKey a := fun same => by
    have other := isPrefixOf_of_begins hlen hne (accountKey_begins a)
    rw [← same, List.isPrefixOf_iff_prefix.2 hk] at other
    cases other
  have supply : supplyKey ≠ accountKey a :=
    (ne_supplyKey (by decide) (accountKey_begins a)).symm
  have other : ∀ x ∈ o.auth.accounts, accountKey x.address ≠ accountKey a := fun x hx same =>
    h x hx (Address.eq_of_toList_eq (List.append_cancel_left same))
  unfold Ledger.account? value? Store.read? genesisStore Opening.writeTo
  dsimp only
  rw [get?_writeAll_of_ne fun m _ => apart (by decide) (by decide) (moduleKey_begins _),
    get?_writeAll_of_ne fun i _ => apart (by decide) (by decide) (signingInfoKey_begins _),
    get?_writeAll_of_ne fun x _ => apart (by decide) (by decide) (delegationKey_begins _ _),
    get?_writeAll_of_ne fun v _ => apart (by decide) (by decide) (validatorKey_begins _)]
  unfold Store.write
  rw [Store.get?_set, if_neg supply,
    get?_writeAll_of_ne fun b _ => apart (by decide) (by decide) (balanceKey_begins _),
    get?_writeAll_of_ne other]
  rfl

/-- The stored validators are those that last, in the order of their keys. -/
theorem validators_genesisStore :
    ∃ vs, Ledger.validators (genesisStore d o .fresh) = .ok vs ∧
      vs.Perm (lasting Validator.operatorAddress o.staking.validators) ∧
        vs.Pairwise fun v w => validatorKey v.operatorAddress < validatorKey w.operatorAddress := by
  have scan := scan_validators d o
  rw [lasting_comp validatorKey_injective] at scan
  obtain ⟨vs, hperm, hvs, order⟩ := values_of_perm (fun v => v.faithful_codec) (by decide) scan
  refine ⟨vs, ?_, hperm, order⟩
  rw [List.map_id'] at hvs
  exact hvs

/-! ## The sums that are tested -/

/-- The supply of every denomination is the sum of the stored balances. -/
def Balanced (s : Store) : Prop :=
  ∃ total, Ledger.supply s = .ok total ∧ ∀ denom, (total.amountOf denom).toNat = held denom s

/-- The pool of bonded tokens holds what the stored validators have bonded. -/
def PoolFilled (denom : String) (s : Store) : Prop :=
  ∃ n vs, Ledger.balance bondedPoolAddress denom s = .ok n ∧ Ledger.validators s = .ok vs ∧
    n.toNat = Validator.bonded vs

/-- A ledger has the sums that were tested in the states of the bank and of staking, exactly as far
as these have nothing that counts and is superseded: no balance that is worth something for the
supply, and for the pool no validator that has bonded something, unless the first balance of the
pool, which was tested, has just as much more than the last, which is stored. -/
structure KeepsSumsIff (bank : BankState) (staking : StakingState) (s : Store) : Prop where
  /-- The supply is the sum of the balances if no superseded balance is worth anything. -/
  supply : Balanced s ↔
    ∀ b ∈ superseded Balance.address bank.balances, ∀ denom, b.coins.amountOf denom = 0
  /-- The test of the supply succeeds exactly if the supply is that sum. -/
  test : checkSupply s = .ok () ↔ Balanced s
  /-- The pool holds what is bonded if its balance has changed by what superseded validators have
  bonded. -/
  pool : PoolFilled staking.params.bondDenom s ↔
    (((bank.balanceOf? bondedPoolAddress).getD .empty).amountOf staking.params.bondDenom).toNat =
      (((bank.lastBalanceOf? bondedPoolAddress).getD .empty).amountOf
        staking.params.bondDenom).toNat +
        Validator.bonded (superseded Validator.operatorAddress staking.validators)

/-- The supply of every denomination is the sum of the stored balances, given the supply. -/
theorem balanced_iff {s : Store} {total : Coins} (h : Ledger.supply s = .ok total) :
    Balanced s ↔ ∀ denom, (total.amountOf denom).toNat = held denom s := by
  constructor
  · rintro ⟨other, hother, hsum⟩
    rw [h] at hother
    cases hother
    exact hsum
  · exact fun hsum => ⟨total, h, hsum⟩

/-- The pool holds what the validators have bonded, given both. -/
theorem poolFilled_iff {s : Store} {denom : String} {n : UInt64} {vs : List Validator}
    (hn : Ledger.balance bondedPoolAddress denom s = .ok n) (hvs : Ledger.validators s = .ok vs) :
    PoolFilled denom s ↔ n.toNat = Validator.bonded vs := by
  constructor
  · rintro ⟨m, ws, hm, hws, hsum⟩
    rw [hn] at hm
    rw [hvs] at hws
    cases hm
    cases hws
    exact hsum
  · exact fun hsum => ⟨n, vs, hn, hvs, hsum⟩

/-- Where no address and no operator is listed twice, the sums are those that were tested. -/
theorem KeepsSumsIff.of_nodup {s : Store} {bank : BankState} {staking : StakingState}
    (h : KeepsSumsIff bank staking s) (hbank : (bank.balances.map Balance.address).Nodup)
    (hstaking : (staking.validators.map Validator.operatorAddress).Nodup) :
    Balanced s ∧ checkSupply s = .ok () ∧ PoolFilled staking.params.bondDenom s := by
  obtain ⟨lasts, none⟩ := lasting_of_nodup hbank
  have balanced : Balanced s := h.supply.2 fun b hb => by
    rw [none] at hb
    cases hb
  have same : bank.lastBalanceOf? bondedPoolAddress = bank.balanceOf? bondedPoolAddress := by
    unfold BankState.lastBalanceOf? BankState.balanceOf?
    rw [lasts]
  refine ⟨balanced, h.test.2 balanced, h.pool.2 ?_⟩
  rw [same, (lasting_of_nodup hstaking).2]
  rfl

/-- Some balances hold nothing exactly if none of them has an amount. -/
theorem sum_eq_zero_iff {bs : List Balance} :
    (∀ denom, Balance.sum denom bs = 0) ↔ ∀ b ∈ bs, ∀ denom, b.coins.amountOf denom = 0 := by
  constructor
  · intro none b hb denom
    refine UInt64.toNat_inj.1 (List.sum_eq_zero_iff_forall_eq_nat.1 (none denom) _ ?_)
    exact List.mem_map_of_mem hb
  · intro none denom
    refine List.sum_eq_zero_iff_forall_eq_nat.2 fun n hn => ?_
    obtain ⟨b, hb, rfl⟩ := List.mem_map.1 hn
    rw [none b hb denom]
    rfl

section Tested

variable (sorted : ∀ b ∈ o.bank.balances, b.coins.Sorted) (tested : o.bank.checkSupply = .ok ())

include sorted tested

/-- What the tested supply counts is stored, or it is superseded. -/
theorem supply_eq_held_add (denom : String) :
    (o.bank.supply.amountOf denom).toNat =
      held denom (genesisStore d o .fresh) +
        Balance.sum denom (superseded Balance.address o.bank.balances) := by
  have all := (BankState.checkSupply_ok_iff sorted).1 tested denom
  calc (o.bank.supply.amountOf denom).toNat
      = Balance.sum denom o.bank.balances := all.symm
    _ = Balance.sum denom (lasting Balance.address o.bank.balances) +
          Balance.sum denom (superseded Balance.address o.bank.balances) :=
        sum_lasting_superseded _ _
    _ = held denom (genesisStore d o .fresh) +
          Balance.sum denom (superseded Balance.address o.bank.balances) := by
        rw [held_genesisStore]

/-- The supply is the sum of the stored balances exactly if nothing that counts is superseded. -/
theorem balanced_genesisStore_iff :
    Balanced (genesisStore d o .fresh) ↔
      ∀ b ∈ superseded Balance.address o.bank.balances, ∀ denom, b.coins.amountOf denom = 0 := by
  rw [balanced_iff (supply_genesisStore d o .fresh), ← sum_eq_zero_iff]
  refine forall_congr' fun denom => ?_
  have parts := supply_eq_held_add (d := d) sorted tested denom
  omega

/-- The test of the supply succeeds exactly if the supply is the sum of the stored balances. The
test stops at the largest word, but these balances are part of a supply that fits. -/
theorem checkSupply_genesisStore_iff :
    checkSupply (genesisStore d o .fresh) = .ok () ↔
      Balanced (genesisStore d o .fresh) := by
  obtain ⟨total, htotal, amounts⟩ := (inOrder_genesisStore (d := d) sorted).totalBalances
  have stored := supply_genesisStore d o .fresh
  rw [checkSupply_ok_iff stored htotal, balanced_iff stored]
  refine forall_congr' fun denom => ?_
  have parts := supply_eq_held_add (d := d) sorted tested denom
  have amount := amounts denom
  have fits := (o.bank.supply.amountOf denom).toNat_lt
  rw [← UInt64.toNat_inj]
  simp only [UInt64.size] at amount
  omega

end Tested

/-- The pool holds what is bonded exactly if its balance has changed by what superseded validators
have bonded. -/
theorem poolFilled_genesisStore_iff (tested : o.bank.checkBondedPool o.staking = .ok ()) :
    PoolFilled o.staking.params.bondDenom (genesisStore d o .fresh) ↔
      (((o.bank.balanceOf? bondedPoolAddress).getD .empty).amountOf
          o.staking.params.bondDenom).toNat =
        (((o.bank.lastBalanceOf? bondedPoolAddress).getD .empty).amountOf
          o.staking.params.bondDenom).toNat +
          Validator.bonded (superseded Validator.operatorAddress o.staking.validators) := by
  obtain ⟨vs, hvs, hperm, -⟩ := validators_genesisStore (d := d) (o := o)
  have pool : Ledger.balance bondedPoolAddress o.staking.params.bondDenom
      (genesisStore d o .fresh) =
        .ok (((o.bank.lastBalanceOf? bondedPoolAddress).getD .empty).amountOf
          o.staking.params.bondDenom) := by
    unfold Ledger.balance
    rw [balances_genesisStore]
    rfl
  have stored : Validator.bonded vs =
      Validator.bonded (lasting Validator.operatorAddress o.staking.validators) :=
    (hperm.map Validator.stake).sum_nat
  -- The first balance of the pool is what all listed validators have bonded.
  have first :=
    calc (((o.bank.balanceOf? bondedPoolAddress).getD .empty).amountOf
          o.staking.params.bondDenom).toNat
        = Validator.bonded o.staking.validators := BankState.checkBondedPool_ok_iff.1 tested
      _ = Validator.bonded (lasting Validator.operatorAddress o.staking.validators) +
            Validator.bonded (superseded Validator.operatorAddress o.staking.validators) :=
          sum_lasting_superseded _ _
  rw [poolFilled_iff pool hvs, first, stored]
  omega

/-- The ledger of a tested document keeps its sums as far as nothing that counts is superseded. -/
theorem keepsSums_genesisStore (sorted : ∀ b ∈ o.bank.balances, b.coins.Sorted)
    (hsupply : o.bank.checkSupply = .ok ()) (hpool : o.bank.checkBondedPool o.staking = .ok ()) :
    KeepsSumsIff o.bank o.staking (genesisStore d o .fresh) where
  supply := balanced_genesisStore_iff sorted hsupply
  test := checkSupply_genesisStore_iff sorted hsupply
  pool := poolFilled_genesisStore_iff hpool

/-- A ledger has the supply, the balances and the validators of another one. -/
structure SameSums (s s' : Store) : Prop where
  /-- The supply is the same. -/
  supply : Ledger.supply s' = Ledger.supply s
  /-- The balances are the same. -/
  balances : s'.scan balanceLead = s.scan balanceLead
  /-- The validators are the same. -/
  validators : s'.scan validatorLead = s.scan validatorLead

/-- A ledger has its own supply, balances and validators. -/
theorem SameSums.refl (s : Store) : SameSums s s := ⟨rfl, rfl, rfl⟩

/-- What was the same twice is the same. -/
theorem SameSums.trans {s t u : Store} (h : SameSums s t) (h' : SameSums t u) : SameSums s u :=
  ⟨h'.supply.trans h.supply, h'.balances.trans h.balances, h'.validators.trans h.validators⟩

/-- A commit leaves the supply, the balances and the validators. -/
theorem sameSums_commit (s : Store) : SameSums s s.commit := by
  refine ⟨?_, Store.scan_commit _ _, Store.scan_commit _ _⟩
  unfold Ledger.supply value? Store.read?
  rw [Store.get?_commit]

/-- A signing info leaves the supply, the balances and the validators. -/
theorem sameSums_writeSigningInfo (s : Store) (a : ConsensusAddress) (i : SigningInfo) :
    SameSums s (s.write SigningInfo.codec (signingInfoKey a) i) where
  supply := supply_write_of_ne (apart_signingInfoKey a).supply _ _
  balances := Store.scan_set_of_not (apart_signingInfoKey a).balance _ _
  validators := Store.scan_set_of_not
    (isPrefixOf_of_begins (by decide) (by decide) (signingInfoKey_begins a)) _ _

/-- Where the supply, the balances and the validators are the same, the sums are kept alike. -/
theorem KeepsSumsIff.of_same {s s' : Store} {bank : BankState} {staking : StakingState}
    (h : KeepsSumsIff bank staking s) (same : SameSums s s') : KeepsSumsIff bank staking s' := by
  have held : ∀ denom, held denom s' = held denom s := fun denom => by
    unfold Ledger.held Store.weigh
    rw [same.balances]
  have balanced : Balanced s' ↔ Balanced s := by
    unfold Balanced
    simp only [same.supply, held]
  have test : checkSupply s' = checkSupply s := by
    unfold checkSupply Ledger.totalBalances values Store.readAll
    rw [same.supply, same.balances]
  have pool : ∀ denom, PoolFilled denom s' ↔ PoolFilled denom s := fun denom => by
    have balance := Store.get?_eq_of_scan_eq (isPrefixOf_balanceKey bondedPoolAddress) same.balances
    unfold PoolFilled Ledger.balance Ledger.balances value? Store.read? Ledger.validators values
      Store.readAll
    rw [balance, same.validators]
  exact ⟨balanced.trans h.supply, test ▸ h.test.trans balanced.symm, (pool _).trans h.pool⟩

/-- The typed states of a document are those that it has. -/
theorem Opening.ofDocument_ok {d : GenesisDocument} {o : Opening}
    (h : Opening.ofDocument d = .ok o) :
    d.get authModule AuthState.codec = .ok o.auth ∧
      d.get bankModule BankState.codec = .ok o.bank ∧
      d.get stakingModule StakingState.codec = .ok o.staking := by
  unfold Opening.ofDocument at h
  obtain ⟨auth, hauth, h⟩ := except_bind_ok_iff.1 h
  obtain ⟨bank, hbank, h⟩ := except_bind_ok_iff.1 h
  obtain ⟨staking, hstaking, h⟩ := except_bind_ok_iff.1 h
  obtain ⟨slashing, -, h⟩ := except_bind_ok_iff.1 h
  cases h
  exact ⟨hauth, hbank, hstaking⟩

end Ledger

/-- The ledger with which a chain begins keeps the sums of the document that was accepted. -/
theorem App.keepsSums_initChain {r : InitRequest} {a a' : App} {v : InitResponse}
    (blank : a.store = .fresh) (h : App.initChain r a = .ok v a') :
    ∃ d o, App.acceptedDocument r = .ok d ∧ Ledger.Opening.ofDocument d = .ok o ∧
      ((∀ b ∈ o.bank.balances, b.coins.Sorted) →
        Ledger.KeepsSumsIff o.bank o.staking a'.store) := by
  obtain ⟨-, -, -, d, o, hd, ho, rfl, -⟩ := App.initChain_ok_iff.1 h
  refine ⟨d, o, hd, ho, fun sorted => ?_⟩
  obtain ⟨-, hash, hvalid⟩ := App.acceptedDocument_ok_iff.1 hd
  obtain ⟨staking, bank, hstaking, hbank, -, -, -, hsupply, hpool, -⟩ :=
    GenesisDocument.validate_ok_iff.1 hvalid
  obtain ⟨-, hbank', hstaking'⟩ := Ledger.Opening.ofDocument_ok ho
  rw [hbank] at hbank'
  rw [hstaking] at hstaking'
  cases hbank'
  cases hstaking'
  have kept := Ledger.keepsSums_genesisStore (d := d) sorted hsupply hpool
  unfold App.opened
  dsimp only
  rw [blank]
  exact kept.of_same (Ledger.sameSums_commit _)

end TestChain
