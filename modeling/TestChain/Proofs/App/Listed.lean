import Mathlib.Data.List.Nodup
import TestChain.Proofs.App.Typed

/-!
# What a document lists

A genesis document lists records of six kinds, and the ledger writes each of them under a key of its
kind (`Ledger.Kind.listed`). Where no two records of a kind have one key, the store has the listed
records of the kind and no others (`Ledger.get?_genesisStore`), whatever is written for the other
kinds before and after. From there a record is found by its address (`Ledger.value?_of_listed`), and
all of a kind are read in the order of their keys (`Ledger.values_of_listed`).
-/

namespace TestChain

namespace Ledger

variable {α β κ : Type} {c : Codec α} {key : β → Bytes} {value : β → α}

/-- The entries under which values are written. -/
def entries (c : Codec α) (key : β → Bytes) (value : β → α) (l : List β) : List (Bytes × Bytes) :=
  l.map fun b => (key b, Bytes.ofString (c.text (value b)))

/-- The entries that a document lists for a kind of records. -/
def Kind.listed (d : GenesisDocument) (o : Opening) : Kind → List (Bytes × Bytes)
  | .account => entries Account.codec (fun a => accountKey a.address) id o.auth.accounts
  | .balance => entries Coins.codec (fun b => balanceKey b.address) Balance.coins o.bank.balances
  | .validator =>
    entries Validator.codec (fun v => validatorKey v.operatorAddress) id o.staking.validators
  | .delegation =>
    entries Delegation.codec (fun x => delegationKey x.delegator x.validator) id
      o.staking.delegations
  | .signingInfo =>
    entries SigningInfo.codec (fun i => signingInfoKey i.address) id o.slashing.signingInfos
  | .moduleState => entries Codec.json (fun m => moduleKey m.1) Prod.snd d.modules

/-- The keys of the entries are those of the values. -/
theorem map_fst_entries (l : List β) : (entries c key value l).map Prod.fst = l.map key := by
  unfold entries
  rw [List.map_map]
  rfl

/-! ## Writing -/

/-- Values written under keys of another kind leave those of a kind. -/
theorem get?_writeAll_of_kind {kind other : Kind} (hne : other ≠ kind) {k : Bytes}
    (hk : kind.lead <+: k) {l : List β} (hl : ∀ b ∈ l, other.lead <+: key b) (s : Store) :
    (writeAll c key value l s).get? k = s.get? k :=
  get?_writeAll_of_ne (fun b hb same => hne (Kind.eq_of_begins (same ▸ hl b hb) hk)) s

/-- Values written under different keys are all there. -/
theorem get?_writeAll_of_nodup {l : List β}
    (nodup : ((entries c key value l).map Prod.fst).Nodup) {s : Store} {k v : Bytes}
    (absent : s.get? k = none) :
    (writeAll c key value l s).get? k = some v ↔ (k, v) ∈ entries c key value l := by
  rw [map_fst_entries] at nodup
  rw [get?_writeAll, (lasting_of_nodup nodup).1, absent]
  unfold entries
  rw [List.mem_map]
  constructor
  · rintro (⟨b, hb, rfl, rfl⟩ | ⟨-, h⟩)
    · exact ⟨b, hb, rfl⟩
    · cases h
  · rintro ⟨b, hb, heq⟩
    obtain ⟨rfl, rfl⟩ := Prod.mk.inj heq
    exact .inl ⟨b, hb, rfl, rfl⟩

/-- The supply is not written under a key of a kind. -/
theorem get?_write_supply {kind : Kind} {k : Bytes} (hk : kind.lead <+: k) (s : Store)
    (cs : Coins) : (s.write Coins.codec supplyKey cs).get? k = s.get? k := by
  unfold Store.write
  rw [Store.get?_set, if_neg]
  rintro rfl
  exact kind.not_begins_supplyKey hk

/-- Of each kind the store of a document has what the document lists. -/
theorem get?_genesisStore (d : GenesisDocument) (o : Opening) (kind : Kind) {k v : Bytes}
    (hk : kind.lead <+: k) (nodup : ((kind.listed d o).map Prod.fst).Nodup) :
    (genesisStore d o .fresh).get? k = some v ↔ (k, v) ∈ kind.listed d o := by
  have accounts : ∀ a ∈ o.auth.accounts, Kind.account.lead <+: accountKey a.address :=
    fun a _ => accountKey_begins _
  have balances : ∀ b ∈ o.bank.balances, Kind.balance.lead <+: balanceKey b.address :=
    fun b _ => balanceKey_begins _
  have validators : ∀ v ∈ o.staking.validators,
      Kind.validator.lead <+: validatorKey v.operatorAddress := fun v _ => validatorKey_begins _
  have delegations : ∀ x ∈ o.staking.delegations,
      Kind.delegation.lead <+: delegationKey x.delegator x.validator :=
    fun x _ => delegationKey_begins _ _
  have infos : ∀ i ∈ o.slashing.signingInfos, Kind.signingInfo.lead <+: signingInfoKey i.address :=
    fun i _ => signingInfoKey_begins _
  have states : ∀ m ∈ d.modules, Kind.moduleState.lead <+: moduleKey m.1 :=
    fun m _ => moduleKey_begins _
  unfold genesisStore Opening.writeTo
  -- What is written after the kind is taken off, and what is written before it leaves nothing.
  cases kind with
  | account =>
    rw [get?_writeAll_of_kind (by decide) hk states, get?_writeAll_of_kind (by decide) hk infos,
      get?_writeAll_of_kind (by decide) hk delegations,
      get?_writeAll_of_kind (by decide) hk validators, get?_write_supply hk,
      get?_writeAll_of_kind (by decide) hk balances]
    exact get?_writeAll_of_nodup nodup rfl
  | balance =>
    rw [get?_writeAll_of_kind (by decide) hk states, get?_writeAll_of_kind (by decide) hk infos,
      get?_writeAll_of_kind (by decide) hk delegations,
      get?_writeAll_of_kind (by decide) hk validators, get?_write_supply hk]
    refine get?_writeAll_of_nodup nodup ?_
    rw [get?_writeAll_of_kind (by decide) hk accounts]
    rfl
  | validator =>
    rw [get?_writeAll_of_kind (by decide) hk states, get?_writeAll_of_kind (by decide) hk infos,
      get?_writeAll_of_kind (by decide) hk delegations]
    refine get?_writeAll_of_nodup nodup ?_
    rw [get?_write_supply hk, get?_writeAll_of_kind (by decide) hk balances,
      get?_writeAll_of_kind (by decide) hk accounts]
    rfl
  | delegation =>
    rw [get?_writeAll_of_kind (by decide) hk states, get?_writeAll_of_kind (by decide) hk infos]
    refine get?_writeAll_of_nodup nodup ?_
    rw [get?_writeAll_of_kind (by decide) hk validators, get?_write_supply hk,
      get?_writeAll_of_kind (by decide) hk balances,
      get?_writeAll_of_kind (by decide) hk accounts]
    rfl
  | signingInfo =>
    rw [get?_writeAll_of_kind (by decide) hk states]
    refine get?_writeAll_of_nodup nodup ?_
    rw [get?_writeAll_of_kind (by decide) hk delegations,
      get?_writeAll_of_kind (by decide) hk validators, get?_write_supply hk,
      get?_writeAll_of_kind (by decide) hk balances,
      get?_writeAll_of_kind (by decide) hk accounts]
    rfl
  | moduleState =>
    refine get?_writeAll_of_nodup nodup ?_
    rw [get?_writeAll_of_kind (by decide) hk infos,
      get?_writeAll_of_kind (by decide) hk delegations,
      get?_writeAll_of_kind (by decide) hk validators, get?_write_supply hk,
      get?_writeAll_of_kind (by decide) hk balances,
      get?_writeAll_of_kind (by decide) hk accounts]
    rfl

/-! ## Reading -/

/-- A listed value is found by the name of its key, and nothing is found by another name. -/
theorem value?_of_listed [DecidableEq κ] {name : β → κ} {keyOf : κ → Bytes}
    (injective : ∀ x y, keyOf x = keyOf y → x = y) {l : List β} {s : Store} {x : κ}
    (listed : ∀ v, s.get? (keyOf x) = some v ↔
      (keyOf x, v) ∈ entries c (fun b => keyOf (name b)) value l)
    (reads : ∀ b ∈ l, Store.decode c (Bytes.ofString (c.text (value b))) = .ok (value b)) :
    value? c (keyOf x) s = .ok ((l.find? fun b => name b = x).map value) := by
  unfold entries at listed
  unfold value? Store.read?
  cases hfind : l.find? fun b => name b = x with
  | some b =>
    have hb := List.mem_of_find?_eq_some hfind
    have found := List.find?_some hfind
    have hname : name b = x := of_decide_eq_true found
    have stored := (listed (Bytes.ofString (c.text (value b)))).2
      (List.mem_map.2 ⟨b, hb, Prod.ext (congrArg keyOf hname) rfl⟩)
    rw [stored]
    dsimp only
    rw [reads b hb]
    rfl
  | none =>
    have none : s.get? (keyOf x) = none := by
      refine Option.eq_none_iff_forall_ne_some.2 fun v hv => ?_
      obtain ⟨b, hb, heq⟩ := List.mem_map.1 ((listed v).1 hv)
      have other := List.find?_eq_none.1 hfind b hb
      exact other (decide_eq_true (injective _ _ (Prod.mk.inj heq).1))
    rw [none]
    rfl

/-- A scan gives the listed entries, if no two of them have one key. -/
theorem scan_of_listed {lead : Bytes} {l : List β} {s : Store}
    (nodup : ((entries c key value l).map Prod.fst).Nodup) (begins : ∀ b ∈ l, lead <+: key b)
    (listed : ∀ k v, lead <+: k → (s.get? k = some v ↔ (k, v) ∈ entries c key value l)) :
    (s.scan lead).Perm (entries c key value l) := by
  refine (Store.scan_perm_iff (.of_map Prod.fst nodup)).2 fun k v => ?_
  rw [List.isPrefixOf_iff_prefix]
  constructor
  · intro hmem
    obtain ⟨b, hb, heq⟩ := List.mem_map.1 hmem
    have hk : lead <+: k := by
      rw [← (Prod.mk.inj heq).1]
      exact begins b hb
    exact ⟨hk, (listed k v hk).2 hmem⟩
  · exact fun ⟨hk, hv⟩ => (listed k v hk).1 hv

/-- All values of a kind are read in the order of their keys. -/
theorem values_of_listed {depth : Nat} {lead : Bytes} {l : List β} {s : Store}
    (faithful : ∀ b, c.Faithful depth (value b)) (hdepth : depth ≤ 127)
    (nodup : (l.map key).Nodup) (begins : ∀ b ∈ l, lead <+: key b)
    (listed : ∀ k v, lead <+: k → (s.get? k = some v ↔ (k, v) ∈ entries c key value l)) :
    ∃ bs : List β, bs.Perm l ∧ values c lead s = .ok (bs.map value) ∧
      bs.Pairwise fun a b => key a < key b := by
  have apart : ((entries c key value l).map Prod.fst).Nodup := by
    rw [map_fst_entries]
    exact nodup
  exact values_of_perm faithful hdepth (scan_of_listed apart begins listed)

/-! ## Keys -/

/-- The key of an account tells its address. -/
theorem accountKey_injective (a b : AccountAddress) (h : accountKey a = accountKey b) : a = b :=
  Address.eq_of_toList_eq (List.append_cancel_left h)

/-- The key of a delegation tells who delegates and to whom. -/
theorem delegationKey_injective (x y : AccountAddress × ValidatorAddress)
    (h : delegationKey x.1 x.2 = delegationKey y.1 y.2) : x = y := by
  unfold delegationKey at h
  rw [List.append_assoc, List.append_assoc] at h
  -- Both addresses have a fixed size, so the two of them are told apart.
  have length : x.1.bytes.toList.length = y.1.bytes.toList.length := by
    rw [Vector.length_toList, Vector.length_toList]
  obtain ⟨delegator, validator⟩ := List.append_inj (List.append_cancel_left h) length
  exact Prod.ext (Address.eq_of_toList_eq delegator) (Address.eq_of_toList_eq validator)

/-- The key of a signing info tells its address. -/
theorem signingInfoKey_injective (a b : ConsensusAddress)
    (h : signingInfoKey a = signingInfoKey b) : a = b :=
  Address.eq_of_toList_eq (List.append_cancel_left h)

/-- The key of a module's state tells the module. -/
theorem moduleKey_injective (a b : String) (h : moduleKey a = moduleKey b) : a = b :=
  Bytes.ofString_inj (List.append_cancel_left h)

/-- No two records of a kind that the ledger begins with have one address. -/
structure Opening.Distinct (o : Opening) : Prop where
  /-- No two accounts do. -/
  accounts : (o.auth.accounts.map Account.address).Nodup
  /-- No two balances do. -/
  balances : (o.bank.balances.map Balance.address).Nodup
  /-- No two validators do. -/
  validators : (o.staking.validators.map Validator.operatorAddress).Nodup
  /-- No two delegations have one delegator and one validator. -/
  delegations : (o.staking.delegations.map fun x => (x.delegator, x.validator)).Nodup
  /-- No two signing infos do. -/
  signingInfos : (o.slashing.signingInfos.map SigningInfo.address).Nodup

/-- Different names have different keys. -/
theorem nodup_keys {name : β → κ} (keyOf : κ → Bytes)
    (injective : ∀ x y, keyOf x = keyOf y → x = y) {l : List β} (h : (l.map name).Nodup) :
    ((entries c (fun b => keyOf (name b)) value l).map Prod.fst).Nodup := by
  have keys := h.map (f := keyOf) fun x y => injective x y
  rw [map_fst_entries]
  rw [List.map_map] at keys
  exact keys

/-- No two records of a kind are written under one key. -/
theorem Opening.Distinct.nodup_listed {o : Opening} (h : o.Distinct) (d : GenesisDocument)
    (kind : Kind) : ((kind.listed d o).map Prod.fst).Nodup := by
  cases kind with
  | account => exact nodup_keys accountKey accountKey_injective h.accounts
  | balance => exact nodup_keys balanceKey balanceKey_injective h.balances
  | validator => exact nodup_keys validatorKey validatorKey_injective h.validators
  | delegation =>
    exact nodup_keys (fun x => delegationKey x.1 x.2) delegationKey_injective h.delegations
  | signingInfo => exact nodup_keys signingInfoKey signingInfoKey_injective h.signingInfos
  | moduleState => exact nodup_keys moduleKey moduleKey_injective d.nodup

end Ledger

end TestChain
