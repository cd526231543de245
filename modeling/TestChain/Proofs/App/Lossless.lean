import TestChain.Proofs.App.Begun
import TestChain.Proofs.App.Listed
import TestChain.Proofs.Harness.Beginning
import TestChain.Proofs.Json.FreeValues

/-!
# A chain begins with its document

Where a chain begins with a document without doubles in which no address is listed twice, the ledger
answers with what the document lists and with nothing else (`App.Life.initChain_lossless`). The
states of modules are free values of a text, so they are read back as they are
(`Store.decode_state`); the other records are written by codecs that lose nothing.
-/

namespace TestChain

/-- A free value is read back with the doubles that are read for its own. -/
theorem Store.decode_respelled {P : Float → Prop} {f : Float → Float} (hf : Reading.Respelled P f)
    {j : Json} (hj : j.Doubles P) (hd : j.depth ≤ 127) :
    Store.decode Codec.json (Bytes.ofString (Codec.json.text j)) = .ok (j.mapDoubles f).sorted := by
  have text : Codec.json.text j = String.ofList j.compactChars := rfl
  have tree : Codec.json.decode (.ofText (j.mapDoubles f)) = pure (j.mapDoubles f).sorted :=
    Node.toJson_ofText _
  unfold Store.decode Codec.ofChars
  rw [Text.ofUtf8_ofString, text, String.toList_ofList, Json.compactChars_eq 0,
    Json.readText_respelled Layout.blank_compact hf 0 hj hd]
  dsimp only
  rw [tree]
  rfl

/-- A free value of a text without doubles is read back as it is. -/
theorem Store.decode_state {P : Float → Prop} {d : Nat} {j : Json} (free : j.Free P d)
    (hd : d ≤ 127) (hfloat : j.NoFloat) :
    Store.decode Codec.json (Bytes.ofString (Codec.json.text j)) = .ok j := by
  rw [Store.decode_respelled Reading.respelled_none (hfloat.doubles _)
    (Nat.le_trans free.depth_le hd), Json.mapDoubles_id, free.sorted]

/-- The modules of a document have no doubles in their states. -/
def GenesisDocument.NoFloat (d : GenesisDocument) : Prop :=
  ∀ m ∈ d.modules, m.2.NoFloat

namespace Ledger

/-- A ledger answers with what a document lists, and with nothing else. -/
structure Answers (d : GenesisDocument) (o : Opening) (s : Store) : Prop where
  /-- The account of an address is the listed one, if there is one. -/
  account : ∀ a, account? a s = .ok (o.auth.accounts.find? fun x => x.address = a)
  /-- The balance of an address is the listed one, or nothing. -/
  balances : ∀ a, balances a s = .ok
    (((o.bank.balances.find? fun b => b.address = a).map Balance.coins).getD .empty)
  /-- The validator of an operator is the listed one, if there is one. -/
  validator : ∀ a, validator? a s = .ok
    (o.staking.validators.find? fun v => v.operatorAddress = a)
  /-- The signing info of an address is the listed one, if there is one. -/
  signingInfo : ∀ a, signingInfo? a s = .ok
    (o.slashing.signingInfos.find? fun i => i.address = a)
  /-- The validators are the listed ones, in the order of their operators' addresses. -/
  validators : ∃ vs, validators s = .ok vs ∧ vs.Perm o.staking.validators ∧
    vs.Pairwise fun v w => v.operatorAddress.bytes.toList < w.operatorAddress.bytes.toList
  /-- The delegations are the listed ones. -/
  delegations : ∃ ds, delegations s = .ok ds ∧ ds.Perm o.staking.delegations
  /-- The supply is the listed one. -/
  supply : supply s = .ok o.bank.supply
  /-- The state of a module is the one in the document, if there is one. -/
  moduleState : ∀ name, moduleState? name s = .ok (d.getRaw? name)

/-- The first pair with a name has what is looked up for the name. -/
theorem map_find?_eq_lookup {α : Type} (members : List (String × α)) (name : String) :
    (members.find? fun m => m.1 = name).map Prod.snd = members.lookup name := by
  induction members with
  | nil => rfl
  | cons m rest ih =>
    rw [List.find?_cons, List.lookup_cons]
    by_cases h : m.1 = name
    · simp [h]
    · have other : (name == m.1) = false := beq_false_of_ne (Ne.symm h)
      simp [h, other, ih]

/-- Byte strings that begin alike are compared by what follows. -/
theorem lt_of_append_lt {lead a b : Bytes} (h : lead ++ a < lead ++ b) : a < b := by
  induction lead with
  | nil => exact h
  | cons x rest ih =>
    rcases List.cons_lt_cons_iff.1 h with hx | ⟨-, h⟩
    · exact absurd hx (UInt8.lt_irrefl x)
    · exact ih h

variable {d : GenesisDocument} {o : Opening} {s : Store}

/-- Where no address is listed twice and the states of modules are read back, a ledger answers with
what the document lists. -/
theorem answers_of_listed (distinct : o.Distinct)
    (states : ∀ m ∈ d.modules,
      Store.decode Codec.json (Bytes.ofString (Codec.json.text m.2)) = .ok m.2)
    (listed : ∀ (kind : Kind) k v, kind.lead <+: k → (s.get? k = some v ↔ (k, v) ∈ kind.listed d o))
    (supplied : supply s = .ok o.bank.supply) : Answers d o s where
  account a := by
    have found := value?_of_listed accountKey_injective
      (fun v => listed .account _ v (accountKey_begins a))
      fun x _ => Store.decode_text x.faithful_codec (by decide)
    rw [Option.map_id] at found
    exact found
  balances a := by
    have found := value?_of_listed balanceKey_injective
      (fun v => listed .balance _ v (balanceKey_begins a))
      fun b _ => Store.decode_text b.coins.faithful_codec (by decide)
    unfold Ledger.balances
    rw [found]
    rfl
  validator a := by
    have found := value?_of_listed validatorKey_injective
      (fun v => listed .validator _ v (validatorKey_begins a))
      fun x _ => Store.decode_text x.faithful_codec (by decide)
    rw [Option.map_id] at found
    exact found
  signingInfo a := by
    have found := value?_of_listed signingInfoKey_injective
      (fun v => listed .signingInfo _ v (signingInfoKey_begins a))
      fun x _ => Store.decode_text x.faithful_codec (by decide)
    rw [Option.map_id] at found
    exact found
  validators := by
    obtain ⟨vs, hperm, hvs, order⟩ := values_of_listed (fun v => v.faithful_codec) (by decide)
      (map_fst_entries (c := Validator.codec) _ ▸ distinct.nodup_listed d .validator)
      (fun v _ => validatorKey_begins _) (listed .validator)
    rw [List.map_id] at hvs
    exact ⟨vs, hvs, hperm, order.imp lt_of_append_lt⟩
  delegations := by
    obtain ⟨ds, hperm, hds, -⟩ := values_of_listed (fun x => x.faithful_codec) (by decide)
      (map_fst_entries (c := Delegation.codec) _ ▸ distinct.nodup_listed d .delegation)
      (fun x _ => delegationKey_begins _ _) (listed .delegation)
    rw [List.map_id] at hds
    exact ⟨ds, hds, hperm⟩
  supply := supplied
  moduleState name := by
    have found := value?_of_listed moduleKey_injective
      (fun v => listed .moduleState _ v (moduleKey_begins name)) states
    rw [map_find?_eq_lookup] at found
    exact found

end Ledger

namespace App

/-- A chain begins with its document. Where the document has no doubles and lists no address twice,
the ledger answers with what it lists and with nothing else, and the bonded validators are told in
the order of the document. -/
theorem Life.initChain_lossless (l : Life) {r : InitRequest} {v : InitResponse} {a : App}
    {d : GenesisDocument} {o : Ledger.Opening} (begun : initChain r l.now = .ok v a)
    (hd : acceptedDocument r = .ok d) (ho : Ledger.Opening.ofDocument d = .ok o)
    (hfloat : d.NoFloat) (distinct : o.Distinct) :
    Ledger.Answers d o a.store ∧
      v.validators = (o.staking.validators.filter Validator.isBonded).map fun w =>
        ⟨w.consensusKey, w.votingPower⟩ := by
  obtain ⟨hi, -, -, d', o', hd', ho', rfl, rfl⟩ := initChain_ok_iff.1 begun
  cases hd.symm.trans hd'
  cases ho.symm.trans ho'
  have store : (l.now.opened r (Ledger.genesisStore d o l.now.store)).store =
      (Ledger.genesisStore d o .fresh).commit := by
    rw [(l.blank hi).store]
    rfl
  have states := GenesisDocument.free_of_ofBytes (acceptedDocument_ok_iff.1 hd).1
  refine ⟨?_, rfl⟩
  rw [store]
  refine Ledger.answers_of_listed distinct
    (fun m hm => Store.decode_state (states m hm) (by decide) (hfloat m hm)) ?_ ?_
  · intro kind k w hk
    rw [Store.get?_commit]
    exact Ledger.get?_genesisStore d o kind hk (distinct.nodup_listed d kind)
  · rw [← Ledger.supply_genesisStore d o .fresh]
    unfold Ledger.supply Ledger.value? Store.read?
    rw [Store.get?_commit]

/-- The states that a ledger begins with where a document is built. -/
def builtOpening (c : GenesisConfig) (funded : AccountAddress) (key : ValidatorKey)
    (supply : Coins) : Ledger.Opening where
  auth := c.authState .fresh funded
  bank := ⟨.fresh, c.balances funded ++ [c.poolBalance], supply⟩
  staking := c.stakingState .fresh key funded
  slashing := .fresh

/-- A new application begins its chain with a document that can be written and is valid. -/
theorem exists_beginning_of_validate {d : GenesisDocument} {o : Ledger.Opening} {hash : Hash}
    (tidy : d.Tidy) (hvalid : d.validate = .ok hash) (ho : Ledger.Opening.ofDocument d = .ok o) :
    ∃ (l : Life) (r : InitRequest) (v : InitResponse) (a : App),
      initChain r l.now = .ok v a ∧ acceptedDocument r = .ok d ∧ d.NoFloat := by
  obtain ⟨l, -, made, -, -⟩ := Harness.start_of_buildable rfl
    (Harness.buildable_crediting [] (by decide)
      (Harness.fundedAddress ⟨0, 1⟩ (Harness.crediting [])))
  obtain ⟨hi, -, hfailures, hchain⟩ := Harness.newApp_ok made
  have accepted : acceptedDocument (Harness.initRequest (Harness.crediting []) 0 d) = .ok d :=
    acceptedDocument_ok_iff.2 ⟨GenesisDocument.ofBytes_text tidy, hash, hvalid⟩
  have spared : l.now.failures.contains .initChain = false := by
    rw [hfailures]
    rfl
  have begun := initChain_ok_iff.2 ⟨hi, spared, hchain, _, _, accepted, ho, rfl, rfl⟩
  exact ⟨l, _, _, _, begun, accepted, fun m hm => (tidy m hm).1.noFloat⟩

/-- Where a document can be built, a new application begins its chain with it. -/
theorem exists_beginning {c : GenesisConfig} {funded : AccountAddress} (h : c.Buildable funded) :
    ∃ (l : Life) (r : InitRequest) (v : InitResponse) (a : App) (d : GenesisDocument)
      (key : ValidatorKey) (supply : Coins), initChain r l.now = .ok v a ∧
        acceptedDocument r = .ok d ∧
        Ledger.Opening.ofDocument d = .ok (builtOpening c funded key supply) ∧
        d.NoFloat ∧ supply.Sorted := by
  let key := GenesisConfig.drawnKey (Harness.generator ⟨0, 1⟩ .fresh)
  obtain ⟨supply, -, sorted, hvalid, -⟩ := h.exists_document key
  have opens := c.ofDocument_document key funded
    ⟨.fresh, c.balances funded ++ [c.poolBalance], supply⟩
  obtain ⟨l, r, v, a, begun, accepted, noFloat⟩ :=
    exists_beginning_of_validate (c.tidy_document key funded _) hvalid opens
  exact ⟨l, r, v, a, _, key, supply, begun, accepted, opens, noFloat, sorted⟩

/-- The defaults with the states with which a ledger begins. -/
def listing (o : Ledger.Opening) : GenesisDocument :=
  GenesisDocument.defaults
    |>.insert authModule AuthState.codec o.auth
    |>.insert bankModule BankState.codec o.bank
    |>.insert stakingModule StakingState.codec o.staking
    |>.insert slashingModule SlashingState.codec o.slashing

/-- The ledger begins with these states. -/
theorem ofDocument_listing (o : Ledger.Opening) :
    Ledger.Opening.ofDocument (listing o) = .ok o := by
  have slashing : (listing o).get slashingModule SlashingState.codec = .ok o.slashing :=
    GenesisDocument.get_insert (SlashingState.faithful_codec _) _ _
  unfold Ledger.Opening.ofDocument
  rw [GenesisDocument.getD_of_get slashing]
  unfold listing
  rw [GenesisDocument.get_insert_of_ne (by decide), GenesisDocument.get_insert_of_ne (by decide),
    GenesisDocument.get_insert_of_ne (by decide),
    GenesisDocument.get_insert (AuthState.faithful_codec _),
    GenesisDocument.get_insert_of_ne (by decide), GenesisDocument.get_insert_of_ne (by decide),
    GenesisDocument.get_insert (BankState.faithful_codec _),
    GenesisDocument.get_insert_of_ne (by decide),
    GenesisDocument.get_insert (StakingState.faithful_codec _)]
  rfl

/-- The document can be written and read back. -/
theorem tidy_listing (o : Ledger.Opening) : (listing o).Tidy :=
  GenesisDocument.tidy_defaults
    |>.insert (AuthState.faithful_codec _) (by decide) _
    |>.insert (BankState.faithful_codec _) (by decide) _
    |>.insert (StakingState.faithful_codec _) (by decide) _
    |>.insert (SlashingState.faithful_codec _) (by decide) _

/-- The accounts of two addresses. -/
def twoAccounts : AuthState :=
  { AuthState.fresh with
    accounts := GenesisConfig.numbered [Harness.seventeens, ⟨Vector.replicate 20 18⟩] }

/-- Signing infos of two validators, one of which is shut out for good. -/
def twoSigningInfos : SlashingState :=
  { SlashingState.fresh with
    signingInfos := [.fresh ⟨Vector.replicate 20 1⟩ 0,
      ⟨⟨Vector.replicate 20 2⟩, 3, 4, 5, true, 6⟩] }

/-- A chain begins with two accounts, two balances, the committee, two delegations and two signing
infos, and the ledger answers with them. The bonded validators are told in the order of the
document, the jailed one without power. -/
theorem exists_lossless_beginning :
    ∃ (l : Life) (r : InitRequest) (v : InitResponse) (a : App) (d : GenesisDocument)
      (o : Ledger.Opening), initChain r l.now = .ok v a ∧ acceptedDocument r = .ok d ∧
        Ledger.Opening.ofDocument d = .ok o ∧ d.NoFloat ∧ o.Distinct ∧
        o.auth.accounts.length = 2 ∧ o.bank.balances.length = 2 ∧
        o.staking.validators.length = 4 ∧ o.staking.delegations.length = 2 ∧
        o.slashing.signingInfos.length = 2 ∧ Ledger.Answers d o a.store ∧
        v.validators.map ValidatorUpdate.power = [1, 0, 1] := by
  let c := (Harness.bonding 3000000 [5]).genesis
  have buildable : c.Buildable Harness.seventeens :=
    Harness.buildable_bonding (by decide) [5] (by decide) _
  obtain ⟨supply, -, -, hcheck, hsum⟩ := buildable.exists_supply
  let o : Ledger.Opening := {
    auth := twoAccounts
    bank := ⟨.fresh, c.balances Harness.seventeens ++ [c.poolBalance], supply⟩
    staking := Harness.seated
    slashing := twoSigningInfos }
  have opens := ofDocument_listing o
  obtain ⟨-, hbank, hstaking⟩ := Ledger.Opening.ofDocument_ok opens
  have hvalid := buildable.validate (Harness.staked_seated [5]) hstaking hbank hcheck hsum
  obtain ⟨l, r, v, a, begun, accepted, noFloat⟩ :=
    exists_beginning_of_validate (tidy_listing o) hvalid opens
  have distinct : o.Distinct := {
    accounts := show (twoAccounts.accounts.map Account.address).Nodup by decide
    balances := Harness.nodup_crediting 5
    validators := show (Harness.seated.validators.map Validator.operatorAddress).Nodup by decide
    delegations :=
      show (Harness.seated.delegations.map fun x => (x.delegator, x.validator)).Nodup by decide
    signingInfos := show (twoSigningInfos.signingInfos.map SigningInfo.address).Nodup by decide }
  obtain ⟨answers, told⟩ := l.initChain_lossless begun accepted opens noFloat distinct
  refine ⟨l, r, v, a, _, o, begun, accepted, opens, noFloat, distinct, rfl, rfl, rfl, rfl, rfl,
    answers, ?_⟩
  rw [told]
  rfl

end App

end TestChain
