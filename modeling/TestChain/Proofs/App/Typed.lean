import TestChain.Proofs.App.Votes

/-!
# What the store holds

The ledger puts seven kinds of records into one store of bytes. Under the key of the supply lie
coins, and every other key begins with the lead of exactly one kind and has a value of its type
(`Ledger.WellTyped`). The leads are of one length and differ, so whatever follows them tells no
kind apart from another (`Ledger.Kind.eq_of_begins`). Each change that a begun chain makes keeps
this, and with it whatever coins keep when they are added and taken away (`Ledger.kept_wellTyped`);
so queries do not fail (`Ledger.WellTyped.value?`, `Ledger.WellTyped.values`).
-/

namespace TestChain

namespace Ledger

/-! ## Kinds of records -/

/-- The kinds of records, but for the supply. -/
inductive Kind where
  /-- Accounts. -/
  | account
  /-- Balances. -/
  | balance
  /-- Validators. -/
  | validator
  /-- Delegations. -/
  | delegation
  /-- Signing infos. -/
  | signingInfo
  /-- The genesis states of modules. -/
  | moduleState
  deriving DecidableEq

/-- The beginning of the keys of a kind. -/
def Kind.lead : Kind → Bytes
  | .account => accountLead
  | .balance => balanceLead
  | .validator => validatorLead
  | .delegation => delegationLead
  | .signingInfo => signingInfoLead
  | .moduleState => moduleLead

/-- All beginnings have four bytes. -/
theorem Kind.length_lead (kind : Kind) : kind.lead.length = 4 := by
  cases kind <;> decide

/-- The kinds are told apart by their beginnings. -/
theorem Kind.lead_injective {a b : Kind} (h : a.lead = b.lead) : a = b := by
  revert h
  cases a <;> cases b <;> decide

/-- A key begins like those of one kind at most. -/
theorem Kind.eq_of_begins {a b : Kind} {k : Bytes} (ha : a.lead <+: k) (hb : b.lead <+: k) :
    a = b := by
  obtain ⟨s, rfl⟩ := ha
  obtain ⟨t, h⟩ := hb
  have length : b.lead.length = a.lead.length := by rw [a.length_lead, b.length_lead]
  exact lead_injective (List.append_inj h length).1.symm

/-- The key of the supply begins like those of no kind. -/
theorem Kind.not_begins_supplyKey (kind : Kind) : ¬kind.lead <+: supplyKey := by
  rw [← List.isPrefixOf_iff_prefix]
  cases kind <;> decide

/-! ## Well-typed stores -/

/-- The bytes are read as a value of a type, and it has a property. -/
def ReadAs {α : Type} (c : Codec α) (p : α → Prop) (v : Bytes) : Prop :=
  ∃ a, Store.decode c v = .ok a ∧ p a

/-- What is asked of stored values besides that they are read. -/
structure Typing where
  /-- What is asked of coins. -/
  coins : Coins → Prop
  /-- What is asked of the bytes of a module's state. -/
  state : Bytes → Prop

/-- Coins and states are read, and the coins have a property. -/
def Typing.of (p : Coins → Prop) : Typing :=
  ⟨p, ReadAs Codec.json fun _ => True⟩

/-- The bytes are a value of a kind. -/
def Kind.Reads (t : Typing) : Kind → Bytes → Prop
  | .account => ReadAs Account.codec fun _ => True
  | .balance => ReadAs Coins.codec t.coins
  | .validator => ReadAs Validator.codec fun _ => True
  | .delegation => ReadAs Delegation.codec fun _ => True
  | .signingInfo => ReadAs SigningInfo.codec fun _ => True
  | .moduleState => t.state

/-- A key and a value are an entry: the key is that of the supply, or it begins like those of a
kind, and the value is one of its type. -/
def Entry (t : Typing) (k v : Bytes) : Prop :=
  (k = supplyKey ∧ ReadAs Coins.codec t.coins v) ∨ ∃ kind : Kind, kind.lead <+: k ∧ kind.Reads t v

/-- All that a store shows are entries. -/
def WellTyped (t : Typing) (s : Store) : Prop :=
  ∀ k v, s.get? k = some v → Entry t k v

variable {t : Typing} {s : Store} {α : Type} {c : Codec α} {p : α → Prop} {k v : Bytes}

/-- A faithful value is read again. -/
theorem readAs_text {depth : Nat} {a : α} (h : c.Faithful depth a) (hd : depth ≤ 127) (hp : p a) :
    ReadAs c p (Bytes.ofString (c.text a)) :=
  ⟨a, Store.decode_text h hd, hp⟩

/-- What lies under a key that begins like those of a kind is a value of the kind. -/
theorem Entry.reads (h : Entry t k v) {kind : Kind} (hk : kind.lead <+: k) : kind.Reads t v := by
  rcases h with ⟨rfl, -⟩ | ⟨other, hother, hv⟩
  · exact absurd hk kind.not_begins_supplyKey
  · cases Kind.eq_of_begins hother hk
    exact hv

/-- What lies under the key of the supply are coins. -/
theorem Entry.supply (h : Entry t supplyKey v) : ReadAs Coins.codec t.coins v := by
  rcases h with ⟨-, hv⟩ | ⟨kind, hk, -⟩
  · exact hv
  · exact absurd hk kind.not_begins_supplyKey

namespace WellTyped

/-- Nothing in a fresh store is of a wrong type. -/
theorem fresh (t : Typing) : WellTyped t .fresh :=
  fun _ _ h => (nomatch h)

/-- An entry keeps a store well typed. -/
theorem write (h : WellTyped t s) {a : α} (entry : Entry t k (Bytes.ofString (c.text a))) :
    WellTyped t (s.write c k a) := by
  intro j v hj
  unfold Store.write at hj
  rw [Store.get?_set] at hj
  split at hj
  · rename_i hkey
    cases hj
    exact hkey ▸ entry
  · exact h j v hj

/-- A commit keeps a store well typed. -/
theorem commit (h : WellTyped t s) : WellTyped t s.commit := by
  intro k v hk
  rw [Store.get?_commit] at hk
  exact h k v hk

end WellTyped

/-! ## Queries -/

/-- Reading a key does not fail where what may lie there is of the type. -/
theorem value?_of_reads (h : ∀ v, s.get? k = some v → ReadAs c p v) :
    ∃ x, value? c k s = .ok x ∧ ∀ a, x = some a → p a := by
  unfold value? Store.read?
  cases hk : s.get? k with
  | none => exact ⟨none, rfl, fun a ha => (nomatch ha)⟩
  | some v =>
    obtain ⟨a, ha, hp⟩ := h v hk
    refine ⟨some a, ?_, fun b hb => ?_⟩
    · dsimp only
      rw [ha]
      rfl
    · cases hb
      exact hp

/-- Reading the keys with a beginning does not fail where what lies there is of the type. -/
theorem values_of_reads {lead : Bytes}
    (h : ∀ k v, lead <+: k → s.get? k = some v → ReadAs c p v) :
    ∃ l, values c lead s = .ok l ∧ ∀ a ∈ l, p a := by
  have each : ∀ e ∈ s.scan lead, ReadAs c p e.2 := fun e he => by
    obtain ⟨hlead, hv⟩ := Store.mem_scan_iff.1 he
    exact h e.1 e.2 (List.isPrefixOf_iff_prefix.1 hlead) hv
  unfold values Store.readAll
  generalize s.scan lead = entries at each
  induction entries with
  | nil => exact ⟨[], rfl, fun a ha => (nomatch ha)⟩
  | cons e rest ih =>
    obtain ⟨a, ha, hp⟩ := each e List.mem_cons_self
    obtain ⟨l, hl, hall⟩ := ih fun f hf => each f (List.mem_cons_of_mem _ hf)
    refine ⟨a :: l, ?_, List.forall_mem_cons.2 ⟨hp, hall⟩⟩
    rw [List.mapM_cons, ha]
    rw [mapError_ok_iff] at hl ⊢
    exact except_bind_ok_iff.2 ⟨a, rfl, except_bind_ok_iff.2 ⟨l, hl, rfl⟩⟩

namespace WellTyped

/-- A query for the values of a kind does not fail. -/
theorem reads (h : WellTyped t s) (kind : Kind) {v : Bytes} (hk : kind.lead <+: k)
    (hv : s.get? k = some v) : kind.Reads t v :=
  (h k v hv).reads hk

/-- Accounts can be read. -/
theorem account? (h : WellTyped t s) (a : AccountAddress) :
    ∃ x, Ledger.account? a s = .ok x :=
  (value?_of_reads fun _ hv => h.reads .account (accountKey_begins a) hv).imp fun _ h => h.1

/-- Balances can be read. -/
theorem balances (h : WellTyped t s) (empty : t.coins .empty) (a : AccountAddress) :
    ∃ cs, Ledger.balances a s = .ok cs ∧ t.coins cs := by
  obtain ⟨x, hx, hp⟩ := value?_of_reads fun _ hv => h.reads .balance (balanceKey_begins a) hv
  refine ⟨x.getD .empty, ?_, ?_⟩
  · unfold Ledger.balances
    rw [hx]
    rfl
  · cases x with
    | none => exact empty
    | some cs => exact hp cs rfl

/-- The supply can be read. -/
theorem supply (h : WellTyped t s) (empty : t.coins .empty) :
    ∃ cs, Ledger.supply s = .ok cs ∧ t.coins cs := by
  obtain ⟨x, hx, hp⟩ := value?_of_reads fun v hv => (h supplyKey v hv).supply
  refine ⟨x.getD .empty, ?_, ?_⟩
  · unfold Ledger.supply
    rw [hx]
    rfl
  · cases x with
    | none => exact empty
    | some cs => exact hp cs rfl

/-- All balances can be read and added up. -/
theorem totalBalances (h : WellTyped t s) : ∃ cs, Ledger.totalBalances s = .ok cs := by
  obtain ⟨l, hl, -⟩ := values_of_reads fun _ _ hk hv => h.reads .balance hk hv
  refine ⟨l.foldl Coins.add .empty, ?_⟩
  unfold Ledger.totalBalances
  have lead : values Coins.codec balanceLead s = .ok l := hl
  rw [lead]
  rfl

/-- Validators can be read. -/
theorem validators (h : WellTyped t s) : ∃ vs, Ledger.validators s = .ok vs :=
  (values_of_reads fun _ _ hk hv => h.reads .validator hk hv).imp fun _ h => h.1

/-- The validator of an operator can be read. -/
theorem validator? (h : WellTyped t s) (a : ValidatorAddress) :
    ∃ x, Ledger.validator? a s = .ok x :=
  (value?_of_reads fun _ hv => h.reads .validator (validatorKey_begins a) hv).imp fun _ h => h.1

/-- Delegations can be read. -/
theorem delegations (h : WellTyped t s) : ∃ ds, Ledger.delegations s = .ok ds :=
  (values_of_reads fun _ _ hk hv => h.reads .delegation hk hv).imp fun _ h => h.1

/-- Signing infos can be read. -/
theorem signingInfo? (h : WellTyped t s) (a : ConsensusAddress) :
    ∃ x, Ledger.signingInfo? a s = .ok x :=
  (value?_of_reads fun _ hv => h.reads .signingInfo (signingInfoKey_begins a) hv).imp fun _ h => h.1

end WellTyped

/-- The states of modules can be read. -/
theorem WellTyped.moduleState? {p : Coins → Prop} (h : WellTyped (.of p) s) (name : String) :
    ∃ x, Ledger.moduleState? name s = .ok x :=
  (value?_of_reads fun _ hv => h.reads .moduleState (moduleKey_begins name) hv).imp fun _ h => h.1

/-! ## Changes -/

/-- What is asked of coins is true of none, and remains so when coins are added and taken away. -/
structure Typing.Closed (t : Typing) : Prop where
  /-- It is true of no coins. -/
  empty : t.coins .empty
  /-- It remains true when coins are added. -/
  add : ∀ held cs, t.coins held → t.coins (held.add cs)
  /-- It remains true when coins are taken away. -/
  sub : ∀ held cs left, t.coins held → subAll? held cs = some left → t.coins left

/-- What does not ask anything of coins asks nothing that could be lost. -/
theorem Typing.closed_true (state : Bytes → Prop) : Typing.Closed ⟨fun _ => True, state⟩ :=
  ⟨trivial, fun _ _ _ => trivial, fun _ _ _ _ _ => trivial⟩

/-- Coins in order remain so. -/
theorem Typing.closed_sorted (state : Bytes → Prop) : Typing.Closed ⟨Coins.Sorted, state⟩ :=
  ⟨.nil, fun _ cs h => h.add cs, fun _ _ _ h hleft => (Coins.amountOf_foldlM_sub? h hleft).1⟩

/-- An account is an entry. -/
theorem entry_account (a : AccountAddress) (x : Account) :
    Entry t (accountKey a) (Bytes.ofString (Account.codec.text x)) :=
  .inr ⟨.account, accountKey_begins a, readAs_text x.faithful_codec (by decide) trivial⟩

/-- A balance is an entry if its coins are as they are asked for. -/
theorem entry_balance (a : AccountAddress) {cs : Coins} (hp : t.coins cs) :
    Entry t (balanceKey a) (Bytes.ofString (Coins.codec.text cs)) :=
  .inr ⟨.balance, balanceKey_begins a, readAs_text cs.faithful_codec (by decide) hp⟩

/-- A supply is an entry if its coins are as they are asked for. -/
theorem entry_supply {cs : Coins} (hp : t.coins cs) :
    Entry t supplyKey (Bytes.ofString (Coins.codec.text cs)) :=
  .inl ⟨rfl, readAs_text cs.faithful_codec (by decide) hp⟩

/-- A validator is an entry. -/
theorem entry_validator (a : ValidatorAddress) (v : Validator) :
    Entry t (validatorKey a) (Bytes.ofString (Validator.codec.text v)) :=
  .inr ⟨.validator, validatorKey_begins a, readAs_text v.faithful_codec (by decide) trivial⟩

/-- A delegation is an entry. -/
theorem entry_delegation (a : AccountAddress) (b : ValidatorAddress) (d : Delegation) :
    Entry t (delegationKey a b) (Bytes.ofString (Delegation.codec.text d)) :=
  .inr ⟨.delegation, delegationKey_begins a b, readAs_text d.faithful_codec (by decide) trivial⟩

/-- A signing info is an entry. -/
theorem entry_signingInfo (a : ConsensusAddress) (i : SigningInfo) :
    Entry t (signingInfoKey a) (Bytes.ofString (SigningInfo.codec.text i)) :=
  .inr ⟨.signingInfo, signingInfoKey_begins a, readAs_text i.faithful_codec (by decide) trivial⟩

/-- Opening an account succeeds and keeps a store well typed. -/
theorem WellTyped.ensureAccount (h : WellTyped t s) (a : AccountAddress) :
    ∃ s', Ledger.ensureAccount a s = .ok () s' ∧ WellTyped t s' := by
  unfold Ledger.ensureAccount
  rw [get_bind_eq]
  split
  · exact ⟨_, rfl, h.write (entry_account a _)⟩
  · exact ⟨s, rfl, h⟩

section Actions

variable (ht : t.Closed)

include ht

/-- Coins of valid denominations are created, and the store stays well typed. -/
theorem WellTyped.exists_mint (h : WellTyped t s) (a : AccountAddress) {cs : Coins}
    (hcheck : cs.check = .ok ()) : ∃ s', Ledger.mint a cs s = .ok () s' ∧ WellTyped t s' := by
  obtain ⟨held, hheld, heldTyped⟩ := h.balances ht.empty a
  have credited := h.write (entry_balance a (ht.add held cs heldTyped))
  -- The supply is read behind the write of the balance, which leaves it readable.
  obtain ⟨total, htotal, totalTyped⟩ := credited.supply ht.empty
  have counted := credited.write (entry_supply (ht.add total cs totalTyped))
  obtain ⟨s', hopen, typed⟩ := counted.ensureAccount a
  refine ⟨s', ?_, typed⟩
  unfold Ledger.mint
  rw [bind_of_ok (checkCoins_of_ok hcheck), bind_of_ok (ask_of_ok hheld),
    bind_of_ok (put_eq _ _ _ _), bind_of_ok (ask_of_ok htotal), bind_of_ok (put_eq _ _ _ _)]
  exact hopen

/-- Coins are refused and nothing is written, or they are created and the store stays well typed. -/
theorem WellTyped.mint (h : WellTyped t s) (a : AccountAddress) (cs : Coins) :
    (∃ e, Ledger.mint a cs s = .error e s) ∨
      ∃ s', Ledger.mint a cs s = .ok () s' ∧ WellTyped t s' := by
  cases hcheck : cs.check with
  | error e =>
    unfold Ledger.mint
    exact .inl ⟨_, bind_of_error (checkCoins_of_error hcheck) _⟩
  | ok u => exact .inr (h.exists_mint ht a hcheck)

/-- A transfer is refused and nothing is written, or coins are moved and the store stays well
typed. -/
theorem WellTyped.transfer (h : WellTyped t s) (x : Transfer) :
    (∃ e, Ledger.transfer x s = .error e s) ∨
      ∃ s', Ledger.transfer x s = .ok () s' ∧ WellTyped t s' := by
  unfold Ledger.transfer
  cases hcheck : x.amount.check with
  | error e => exact .inl ⟨_, bind_of_error (checkCoins_of_error hcheck) _⟩
  | ok u =>
    obtain ⟨held, hheld, heldTyped⟩ := h.balances ht.empty x.sender
    rw [bind_of_ok (checkCoins_of_ok hcheck), bind_of_ok (ask_of_ok hheld)]
    cases hleft : subAll? held x.amount with
    | none => exact .inl ⟨_, rfl⟩
    | some left =>
      have paid := h.write (entry_balance x.sender (ht.sub held _ left heldTyped hleft))
      obtain ⟨received, hreceived, receivedTyped⟩ := paid.balances ht.empty x.recipient
      have moved := paid.write (entry_balance x.recipient (ht.add received x.amount receivedTyped))
      obtain ⟨s', hopen, typed⟩ := moved.ensureAccount x.recipient
      refine .inr ⟨s', ?_, typed⟩
      dsimp only
      rw [bind_of_ok (put_eq _ _ _ _), bind_of_ok (ask_of_ok hreceived),
        bind_of_ok (put_eq _ _ _ _)]
      exact hopen

/-- A transaction keeps a store well typed. -/
theorem WellTyped.execute (h : WellTyped t s) (tx : Tx) :
    WellTyped t (Ledger.execute tx s).2 := by
  unfold Ledger.execute
  cases Transfer.ofTx? tx with
  | none => exact h
  | some x =>
    dsimp only
    rcases h.transfer ht x with ⟨e, hx⟩ | ⟨s', hx, typed⟩
    · rw [hx]
      exact h
    · rw [hx]
      exact typed

end Actions

/-- In a store that is well typed signing infos can be read. -/
theorem WellTyped.readable (h : WellTyped t s) : Readable s :=
  h.signingInfo?

/-- Counting votes succeeds and keeps a store well typed. -/
theorem WellTyped.recordVotes (h : WellTyped t s) (votes : List Vote) :
    ∃ s', Ledger.recordVotes votes s = .ok () s' ∧ WellTyped t s' := by
  obtain ⟨s', counted, -, -⟩ := recordVotes_of_readable votes h.readable
  have typed := (ends_recordVotes (fun a i _ h => h.write (entry_signingInfo a i)) votes).of_ok h
    counted
  exact ⟨s', counted, typed⟩

/-- Replacing a signing info is refused and nothing is written, or the store stays well typed. -/
theorem WellTyped.setSigningInfo (h : WellTyped t s) (i : SigningInfo) :
    (∃ e, Ledger.setSigningInfo i s = .error e s) ∨
      ∃ s', Ledger.setSigningInfo i s = .ok () s' ∧ WellTyped t s' := by
  obtain ⟨known, hknown⟩ := h.validators
  unfold Ledger.setSigningInfo
  rw [bind_of_ok (ask_of_ok hknown)]
  split
  · exact .inr ⟨_, rfl, h.write (entry_signingInfo _ i)⟩
  · exact .inl ⟨_, rfl⟩

/-- What is refused without a write or ends well typed, ends well typed. -/
theorem WellTyped.stateAfter {x : Action Unit} (h : WellTyped t s)
    (hx : (∃ e, x s = .error e s) ∨ ∃ s', x s = .ok () s' ∧ WellTyped t s') :
    WellTyped t (TestChain.stateAfter x s) := by
  rcases hx with ⟨e, hx⟩ | ⟨s', hx, typed⟩
  · rw [stateAfter_of_error hx]
    exact h
  · rw [stateAfter_of_ok hx]
    exact typed

/-- Everything that a begun chain does to its ledger keeps it well typed. -/
theorem kept_wellTyped (ht : t.Closed) : App.Kept (WellTyped t) where
  mint a cs _ h := h.stateAfter (h.mint ht a cs)
  execute tx _ h := h.execute ht tx
  recordVotes votes _ h := h.stateAfter (.inr (h.recordVotes votes))
  setSigningInfo i _ h := h.stateAfter (h.setSigningInfo i)
  commit _ h := h.commit

/-! ## The beginning -/

/-- Values that are written in order keep what each of them keeps. -/
theorem writeAll_induction {P : Store → Prop} {α β : Type} {c : Codec α} {key : β → Bytes}
    {value : β → α} {l : List β} (write : ∀ b ∈ l, ∀ s, P s → P (s.write c (key b) (value b)))
    {s : Store} (h : P s) : P (writeAll c key value l s) := by
  induction l generalizing s with
  | nil => exact h
  | cons b rest ih =>
    exact ih (fun b' hb' => write b' (List.mem_cons_of_mem _ hb')) (write b List.mem_cons_self s h)

/-- A genesis is well typed if its coins and the states of its modules are as they are asked for. -/
theorem wellTyped_genesisStore {d : GenesisDocument} {o : Opening}
    (hbalances : ∀ b ∈ o.bank.balances, t.coins b.coins) (hsupply : t.coins o.bank.supply)
    (hstates : ∀ m ∈ d.modules, t.state (Bytes.ofString (Codec.json.text m.2))) :
    WellTyped t (genesisStore d o .fresh) := by
  unfold genesisStore Opening.writeTo
  refine writeAll_induction (fun m hm _ h => h.write (.inr ⟨.moduleState, moduleKey_begins _,
    hstates m hm⟩)) ?_
  refine writeAll_induction (fun i _ _ h => h.write (entry_signingInfo _ i)) ?_
  refine writeAll_induction (fun x _ _ h => h.write (entry_delegation _ _ x)) ?_
  refine writeAll_induction (fun v _ _ h => h.write (entry_validator _ v)) ?_
  refine WellTyped.write ?_ (entry_supply hsupply)
  refine writeAll_induction (fun b hb _ h => h.write (entry_balance _ (hbalances b hb))) ?_
  exact writeAll_induction (fun a _ _ h => h.write (entry_account _ a)) (.fresh t)

end Ledger

end TestChain
