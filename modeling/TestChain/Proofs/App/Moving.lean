import TestChain.Proofs.App.Accounts
import TestChain.Proofs.App.Queries
import TestChain.Proofs.Codec.Union

/-!
# Moving coins

A transfer is paid where its denominations are valid and the sender has as much of each as the
listed coins add up to (`Ledger.Payable`). It then moves just these amounts and opens an account for
the recipient, and nothing else changes (`Ledger.Moved`); otherwise nothing changes at all. The
coins are taken one at a time, in the order of the list and from coins in order, but whether they
can be taken is a matter of the sums alone. A transfer to the sender reads the balances again behind
their first write, so what was taken is added back. The main theorem is
`App.Life.execute_moves_or_nothing`; it holds at every moment, also between the transactions of a
block (`App.Life.Meets`).
-/

namespace TestChain

namespace Transfer

/-- Transfers are written without a loss. -/
theorem faithful_codec (t : Transfer) : codec.Faithful 3 t := by
  have written : fields.Faithful 2 t :=
    .map (.and (Fields.faithful_required t.sender.faithful_codec)
      (.and (Fields.faithful_required t.recipient.faithful_codec)
        (Fields.faithful_required t.amount.faithful_codec) (by decide)) (by decide)) rfl
  exact Codec.faithful_union rfl written rfl rfl (by decide)

/-- Every transfer is read back from its transaction. -/
theorem ofTx?_tx (t : Transfer) : ofTx? t.tx = some t := by
  unfold ofTx? tx
  rw [Text.ofUtf8_toUTF8, Codec.text, Json.compact, String.toList_ofList,
    t.faithful_codec.ofChars (by decide)]
  rfl

end Transfer

namespace Ledger

variable {s : Store} {t : Transfer} {tx : Tx}

/-- A transfer can be paid. -/
structure Payable (t : Transfer) (s : Store) : Prop where
  /-- All denominations are valid. -/
  denoms : ∀ c ∈ t.amount.toList, isDenom c.denom
  /-- The sender has of each denomination what the coins add up to. -/
  funds : ∀ denom, ∃ n, balance t.sender denom s = .ok n ∧
    Coins.total denom t.amount.toList ≤ n.toNat

/-- A transfer turns one store into another: it has moved its coins, and nothing else changed. -/
structure Moved (t : Transfer) (s s' : Store) : Prop where
  /-- Another sender than the recipient has just the sums less. -/
  paid : t.sender ≠ t.recipient → ∀ denom, ∃ old new,
    balance t.sender denom s = .ok old ∧ balance t.sender denom s' = .ok new ∧
      old.toNat = new.toNat + Coins.total denom t.amount.toList
  /-- Another recipient than the sender has the sums more, up to the largest word. -/
  received : t.sender ≠ t.recipient → ∀ denom, ∃ old new,
    balance t.recipient denom s = .ok old ∧ balance t.recipient denom s' = .ok new ∧
      new.toNat = min (UInt64.size - 1) (old.toNat + Coins.total denom t.amount.toList)
  /-- A sender who is the recipient has as much as before. -/
  kept : t.sender = t.recipient → ∀ denom, ∃ n,
    balance t.sender denom s = .ok n ∧ balance t.sender denom s' = .ok n
  /-- The recipient has an account. -/
  account : ∃ x, account? t.recipient s' = .ok (some x)
  /-- The balances of others are as before. -/
  others : ∀ a, a ≠ t.sender → a ≠ t.recipient → balances a s' = balances a s
  /-- The supply is. -/
  supply : Ledger.supply s' = Ledger.supply s
  /-- The validators are. -/
  validators : Ledger.validators s' = Ledger.validators s
  /-- The delegations are. -/
  delegations : Ledger.delegations s' = Ledger.delegations s
  /-- The signing infos are. -/
  signingInfos : ∀ a, signingInfo? a s' = signingInfo? a s
  /-- The states of modules are. -/
  moduleStates : ∀ name, moduleState? name s' = moduleState? name s
  /-- So is everything but the balances of the two and the account of the recipient. -/
  rest : ∀ k, k ≠ balanceKey t.sender → k ≠ balanceKey t.recipient →
    k ≠ accountKey t.recipient → s'.get? k = s.get? k

/-- What executing a transfer does: it succeeds exactly if the transfer can be paid, and then it
moves the coins; else it changes nothing, and the code tells whether a denomination is invalid. -/
structure Settled (tx : Tx) (t : Transfer) (s : Store) : Prop where
  /-- It succeeds exactly if the transfer can be paid. -/
  code : (execute tx s).1.code = 0 ↔ Payable t s
  /-- A transfer that can be paid moves its coins. -/
  moved : Payable t s → Moved t s (execute tx s).2
  /-- Any other one is refused and changes nothing. -/
  refused : ¬Payable t s → (execute tx s).2 = s ∧
    (execute tx s).1.code = if ∀ c ∈ t.amount.toList, isDenom c.denom then 5 else 18

/-! ## Balances -/

/-- The balance of a denomination is that of the coins. -/
theorem balance_of_ok {a : AccountAddress} {cs : Coins} (h : balances a s = .ok cs)
    (denom : String) : balance a denom s = .ok (cs.amountOf denom) := by
  unfold balance
  rw [h]
  rfl

/-- Written balances are read. -/
theorem balances_write (a : AccountAddress) (cs : Coins) (s : Store) :
    balances a (s.write Coins.codec (balanceKey a) cs) = .ok cs := by
  unfold balances value?
  rw [(s.read?_write Coins.codec _ (balanceKey a) cs.faithful_codec (by decide)).1]
  rfl

/-- Written balances of another account are not seen. -/
theorem balances_write_of_ne {a b : AccountAddress} (h : a ≠ b) (cs : Coins) (s : Store) :
    balances a (s.write Coins.codec (balanceKey b) cs) = balances a s :=
  balances_agree (p := (· = balanceKey a))
    (.write_of_not s _ cs fun same => h (balanceKey_injective _ _ same.symm)) rfl

/-- Opening an account leaves all balances. -/
theorem balances_openAccount (a b : AccountAddress) (s : Store) :
    balances a (openAccount b s) = balances a s :=
  balances_agree (p := (· = balanceKey a)) (agreeOn_openAccount (fun same => by
    have apart := (apart_accountKey b).balance
    rw [same, isPrefixOf_balanceKey a] at apart
    cases apart) s) rfl

/-! ## A transfer that is paid -/

/-- The store after a transfer, where the sender has some coins left and the recipient had some
others when they were read. -/
def afterTransfer (t : Transfer) (left received : Coins) (s : Store) : Store :=
  openAccount t.recipient <|
    (s.write Coins.codec (balanceKey t.sender) left).write Coins.codec (balanceKey t.recipient)
      (received.add t.amount)

/-- But for the balances of the two and the account of the recipient, everything is as before. -/
theorem get?_afterTransfer (left received : Coins) {k : Bytes} (hsender : k ≠ balanceKey t.sender)
    (hrecipient : k ≠ balanceKey t.recipient) (haccount : k ≠ accountKey t.recipient) :
    (afterTransfer t left received s).get? k = s.get? k := by
  have paid : s.AgreeOn (· = k) (s.write Coins.codec (balanceKey t.sender) left) :=
    .write_of_not s _ _ hsender.symm
  have credited := paid.trans (.write_of_not _ Coins.codec (received.add t.amount) hrecipient.symm)
  exact credited.trans (agreeOn_openAccount haccount.symm _) k rfl

/-- The keys of other kinds than balances and accounts are quiet. -/
theorem quiet_of_kind (kind : Kind) (hbalance : kind ≠ .balance) (haccount : kind ≠ .account)
    {k : Bytes} (hk : kind.lead <+: k) : Quiet k where
  balance := Bool.eq_false_iff.2 fun h =>
    hbalance (Kind.eq_of_begins hk (b := .balance) (List.isPrefixOf_iff_prefix.1 h))
  account := Bool.eq_false_iff.2 fun h =>
    haccount (Kind.eq_of_begins hk (b := .account) (List.isPrefixOf_iff_prefix.1 h))
  supply h := kind.not_begins_supplyKey (h ▸ hk)

/-- A transfer writes no quiet keys. -/
theorem quiet_afterTransfer (left received : Coins) :
    s.AgreeOn Quiet (afterTransfer t left received s) := by
  have writes := keptByCoins_quiet s
  have paid := writes.balance t.sender left s (.refl s)
  have credited := writes.balance t.recipient (received.add t.amount) _ paid
  exact writes.account t.recipient _ credited

/-- After a transfer the recipient has the coins besides what it had, another sender has what is
left, and others have what they had. -/
theorem balances_afterTransfer (left received : Coins) :
    balances t.recipient (afterTransfer t left received s) = .ok (received.add t.amount) ∧
      (t.sender ≠ t.recipient → balances t.sender (afterTransfer t left received s) = .ok left) ∧
      ∀ a, a ≠ t.sender → a ≠ t.recipient →
        balances a (afterTransfer t left received s) = balances a s := by
  unfold afterTransfer
  simp only [balances_openAccount]
  refine ⟨balances_write _ _ _, fun hne => ?_, fun a hsender hrecipient => ?_⟩
  · rw [balances_write_of_ne hne, balances_write]
  · rw [balances_write_of_ne hrecipient, balances_write_of_ne hsender]

/-- What is taken from a sender in order and added to a recipient in order has been moved. -/
theorem moved_afterTransfer {held left received : Coins} (hheld : balances t.sender s = .ok held)
    (heldSorted : held.Sorted) (hleft : subAll? held t.amount = some left)
    (hreceived : balances t.recipient (s.write Coins.codec (balanceKey t.sender) left) =
      .ok received)
    (receivedSorted : received.Sorted)
    (hopen : ∃ x, account? t.recipient (afterTransfer t left received s) = .ok (some x)) :
    Moved t s (afterTransfer t left received s) := by
  obtain ⟨-, taken⟩ := Coins.amountOf_foldlM_sub? heldSorted hleft
  have added := Coins.toNat_amountOf_add receivedSorted t.amount
  have quiet := quiet_afterTransfer (t := t) (s := s) left received
  obtain ⟨credited, paid, others⟩ := balances_afterTransfer (t := t) (s := s) left received
  exact {
    paid := fun hne denom =>
      ⟨_, _, balance_of_ok hheld denom, balance_of_ok (paid hne) denom, taken denom⟩
    received := fun hne denom => by
      rw [balances_write_of_ne hne.symm] at hreceived
      refine ⟨_, _, balance_of_ok hreceived denom, balance_of_ok credited denom, ?_⟩
      rw [added, Nat.min_comm]
    kept := fun same denom => by
      -- What is read for the recipient is what the sender has left, so the coins come back.
      rw [← same, balances_write] at hreceived
      cases hreceived
      rw [← same] at credited
      refine ⟨_, balance_of_ok hheld denom, ?_⟩
      rw [balance_of_ok credited denom]
      refine congrArg Except.ok (UInt64.toNat_inj.1 ?_)
      have fits := (held.amountOf denom).toNat_lt_size
      have sum := taken denom
      rw [added, ← sum]
      omega
    account := hopen
    others := others
    supply := supply_agree (p := (· = supplyKey)) (fun k hk => by
      subst hk
      exact get?_afterTransfer left received (balanceKey_ne_supplyKey _).symm
        (balanceKey_ne_supplyKey _).symm (apart_accountKey _).supply.symm) rfl
    validators := values_agree quiet _ fun _ hk =>
      quiet_of_kind .validator (by decide) (by decide) (List.isPrefixOf_iff_prefix.1 hk)
    delegations := values_agree quiet _ fun _ hk =>
      quiet_of_kind .delegation (by decide) (by decide) (List.isPrefixOf_iff_prefix.1 hk)
    signingInfos := fun a => value?_agree quiet _
      (quiet_of_kind .signingInfo (by decide) (by decide) (signingInfoKey_begins a))
    moduleStates := fun name => value?_agree quiet _
      (quiet_of_kind .moduleState (by decide) (by decide) (moduleKey_begins name))
    rest := fun _ => get?_afterTransfer left received }

/-! ## Paid or refused -/

/-- A transfer that goes through leaves what it has left. -/
theorem execute_of_ok {s' : Store} (ht : Transfer.ofTx? tx = some t)
    (h : transfer t s = .ok () s') : execute tx s = (.success tx [t.event], s') := by
  unfold execute
  rw [ht]
  dsimp only
  rw [h]

/-- A transfer that is refused leaves what it has left, which its result tells. -/
theorem execute_of_error {e : AppError} {s' : Store} (ht : Transfer.ofTx? tx = some t)
    (h : transfer t s = .error e s') : execute tx s = (refusal tx e, s') := by
  unfold execute
  rw [ht]
  dsimp only
  rw [h]

/-- A transfer with an invalid denomination is refused. -/
theorem transfer_of_invalid {e : InvalidDenom} (h : t.amount.check = .error e) :
    transfer t s = .error (.coins e) s :=
  bind_of_error (checkCoins_of_error h) _

/-- A transfer without funds is refused. -/
theorem transfer_of_none {held : Coins} (hcheck : t.amount.check = .ok ())
    (hheld : balances t.sender s = .ok held) (hleft : subAll? held t.amount = none) :
    transfer t s = .error (.insufficientFunds t.sender t.amount) s := by
  unfold transfer
  rw [bind_of_ok (checkCoins_of_ok hcheck), bind_of_ok (ask_of_ok hheld), hleft]
  rfl

/-- A transfer with funds moves them. -/
theorem transfer_of_some {held left received : Coins} (hcheck : t.amount.check = .ok ())
    (hheld : balances t.sender s = .ok held) (hleft : subAll? held t.amount = some left)
    (hreceived : balances t.recipient (s.write Coins.codec (balanceKey t.sender) left) =
      .ok received) : transfer t s = .ok () (afterTransfer t left received s) := by
  unfold transfer
  rw [bind_of_ok (checkCoins_of_ok hcheck), bind_of_ok (ask_of_ok hheld), hleft]
  dsimp only
  rw [bind_of_ok (put_eq _ _ _ _), bind_of_ok (ask_of_ok hreceived), bind_of_ok (put_eq _ _ _ _)]
  exact ensureAccount_eq _ _

/-- A transaction with funds for another account succeeds, and moves them. -/
theorem execute_of_some {held left received : Coins} (hne : t.sender ≠ t.recipient)
    (hcheck : t.amount.check = .ok ()) (hheld : balances t.sender s = .ok held)
    (hleft : subAll? held t.amount = some left)
    (hreceived : balances t.recipient s = .ok received) :
    (execute t.tx s).1.code = 0 ∧ balances t.sender (execute t.tx s).2 = .ok left ∧
      balances t.recipient (execute t.tx s).2 = .ok (received.add t.amount) ∧
      (execute t.tx s).2.contains (accountKey t.recipient) = true := by
  rw [← balances_write_of_ne hne.symm left s] at hreceived
  have moved := transfer_of_some hcheck hheld hleft hreceived
  obtain ⟨credited, paid, -⟩ := balances_afterTransfer (t := t) (s := s) left received
  rw [execute_of_ok (Transfer.ofTx?_tx t) moved]
  exact ⟨rfl, paid hne, credited, stored_of_transfer moved⟩

/-- A transaction without funds has the code five, and changes nothing. -/
theorem execute_of_none {held : Coins} (hcheck : t.amount.check = .ok ())
    (hheld : balances t.sender s = .ok held) (hleft : subAll? held t.amount = none) :
    (execute t.tx s).1.code = 5 ∧ (execute t.tx s).2 = s := by
  rw [execute_of_error (Transfer.ofTx?_tx t) (transfer_of_none hcheck hheld hleft)]
  exact ⟨rfl, rfl⟩

/-- Of five coins three can be sent to an address that has nothing. Two can be sent back then, which
could not be sent before. -/
theorem exists_there_and_back {a b : AccountAddress} (hne : b ≠ a)
    (five : balances a s = .ok (.single 5 defaultBondDenom)) (nothing : balances b s = .ok .empty) :
    ∃ there back : Transfer, there.recipient = b ∧
      (execute back.tx s).1.code = 5 ∧ (execute back.tx s).2 = s ∧
      (execute there.tx s).1.code = 0 ∧ (execute back.tx (execute there.tx s).2).1.code = 0 ∧
      balances b (execute there.tx s).2 = .ok (.single 3 defaultBondDenom) ∧
      (execute there.tx s).2.contains (accountKey b) = true := by
  have three : (Coins.single 3 defaultBondDenom).check = .ok () := by decide
  have two : (Coins.single 2 defaultBondDenom).check = .ok () := by decide
  have missing : subAll? .empty (.single 2 defaultBondDenom) = none := by decide
  have paid : subAll? (.single 5 defaultBondDenom) (.single 3 defaultBondDenom) =
    some (.single 2 defaultBondDenom) := by decide
  have repaid : subAll? (.single 3 defaultBondDenom) (.single 2 defaultBondDenom) =
    some (.single 1 defaultBondDenom) := by decide
  have sum : Coins.empty.add (.single 3 defaultBondDenom) = .single 3 defaultBondDenom := by decide
  obtain ⟨refused, same⟩ :=
    execute_of_none (t := ⟨b, a, .single 2 defaultBondDenom⟩) two nothing missing
  obtain ⟨first, left, brought, opened⟩ :=
    execute_of_some (t := ⟨a, b, .single 3 defaultBondDenom⟩) hne.symm three five paid nothing
  have credited := brought.trans (congrArg _ sum)
  obtain ⟨second, -⟩ :=
    execute_of_some (t := ⟨b, a, .single 2 defaultBondDenom⟩) hne two credited repaid left
  exact ⟨_, _, rfl, refused, same, first, second, credited, opened⟩

/-- Whoever has coins in order can pay exactly what the sums of all denominations allow. -/
theorem payable_iff {held : Coins} (hcheck : t.amount.check = .ok ())
    (hheld : balances t.sender s = .ok held) (sorted : held.Sorted) :
    Payable t s ↔ ∃ left, subAll? held t.amount = some left := by
  have enough : (∃ left, subAll? held t.amount = some left) ↔
      ∀ denom, Coins.total denom t.amount.toList ≤ (held.amountOf denom).toNat :=
    Coins.exists_foldlM_sub?_iff sorted
  constructor
  · intro h
    refine enough.2 fun denom => ?_
    obtain ⟨n, hn, funds⟩ := h.funds denom
    rw [balance_of_ok hheld denom] at hn
    cases hn
    exact funds
  · intro h
    exact ⟨Coins.check_ok_iff.1 hcheck, fun denom => ⟨_, balance_of_ok hheld denom,
      enough.1 h denom⟩⟩

/-- In a well-typed store with coins in order a transfer is settled. -/
theorem WellTyped.settled (h : WellTyped (.of Coins.Sorted) s) (ht : Transfer.ofTx? tx = some t) :
    Settled tx t s := by
  have closed := Typing.closed_sorted (ReadAs Codec.json fun _ => True)
  obtain ⟨held, hheld, heldSorted⟩ := h.balances closed.empty t.sender
  cases hcheck : t.amount.check with
  | error e =>
    have invalid : ¬∀ c ∈ t.amount.toList, isDenom c.denom := fun denoms => by
      rw [Coins.check_ok_iff.2 denoms] at hcheck
      cases hcheck
    have unpaid : ¬Payable t s := fun payable => invalid payable.denoms
    have refused := execute_of_error ht (transfer_of_invalid (s := s) hcheck)
    refine ⟨?_, fun payable => absurd payable unpaid, fun _ => ?_⟩
    · rw [refused]
      exact iff_of_false (refusal_code_ne tx _) unpaid
    · rw [refused, if_neg invalid]
      exact ⟨rfl, rfl⟩
  | ok u =>
    have denoms := Coins.check_ok_iff.1 hcheck
    have payable := payable_iff hcheck hheld heldSorted
    cases hleft : subAll? held t.amount with
    | none =>
      have unpaid : ¬Payable t s := fun h => by
        obtain ⟨left, some⟩ := payable.1 h
        rw [hleft] at some
        cases some
      have refused := execute_of_error ht (transfer_of_none hcheck hheld hleft)
      refine ⟨?_, fun payable => absurd payable unpaid, fun _ => ?_⟩
      · rw [refused]
        exact iff_of_false (refusal_code_ne tx _) unpaid
      · rw [refused, if_pos denoms]
        exact ⟨rfl, rfl⟩
    | some left =>
      have leftSorted : left.Sorted := (Coins.amountOf_foldlM_sub? heldSorted hleft).1
      have paid := h.write (entry_balance t.sender leftSorted)
      obtain ⟨received, hreceived, receivedSorted⟩ := paid.balances closed.empty t.recipient
      have transferred := transfer_of_some hcheck hheld hleft hreceived
      have done := execute_of_ok ht transferred
      have opened : ∃ x,
          Ledger.account? t.recipient (afterTransfer t left received s) = .ok (some x) := by
        have typed := h.execute closed tx
        rw [done] at typed
        exact exists_account_of_contains typed (stored_of_transfer transferred)
      refine ⟨?_, fun _ => ?_, fun unpaid => absurd (payable.2 ⟨left, hleft⟩) unpaid⟩
      · rw [done]
        exact iff_of_true rfl (payable.2 ⟨left, hleft⟩)
      · rw [done]
        exact moved_afterTransfer hheld heldSorted hleft hreceived receivedSorted opened

/-- Where what is stored is well typed and the coins are in order, the coins that are read are. -/
theorem WellTyped.sorted {state : Bytes → Prop} (h : WellTyped ⟨fun _ => True, state⟩ s)
    (sorted : CoinsSorted s) : WellTyped ⟨Coins.Sorted, state⟩ s := by
  intro k v hv
  rcases (h k v hv).supply_or_kind with ⟨rfl, -⟩ | ⟨kind, -, hk, hreads, -⟩
  · exact .inl ⟨rfl, sorted.supply v hv⟩
  · refine .inr ⟨kind, hk, ?_⟩
    cases kind with
    | balance => exact sorted.balances k v hk hv
    | account | validator | delegation | signingInfo | moduleState => exact hreads

end Ledger

namespace App

/-- The stores that a transaction may meet in the life of an application: its store now, and while
it executes a block the stores that counting votes and other transactions have left. -/
inductive Life.Meets (l : Life) : Store → Prop where
  /-- The store of the application now. -/
  | now : l.Meets l.now.store
  /-- The store behind the votes that a block begins with. -/
  | votes {s : Store} (votes : List Vote) :
    l.Meets s → l.Meets (stateAfter (Ledger.recordVotes votes) s)
  /-- The store behind another transaction. -/
  | tx {s : Store} (tx : Tx) : l.Meets s → l.Meets (Ledger.execute tx s).2

/-- What a chain keeps holds of all stores that a transaction may meet. -/
theorem Kept.meets {P : Store → Prop} (kept : Kept P) {l : Life} (hnow : P l.now.store) {s : Store}
    (h : l.Meets s) : P s := by
  induction h with
  | now => exact hnow
  | votes votes _ ih => exact kept.recordVotes votes _ ih
  | tx tx _ ih => exact kept.execute tx _ ih

/-- At every moment at which the stored coins are in order, a transaction that is a transfer moves
just the sums of its coins, or nothing: it succeeds exactly if its denominations are valid and the
sender has these sums. Any other transaction succeeds and changes nothing. Every transfer has a
transaction. -/
theorem Life.execute_moves_or_nothing (l : Life) {s : Store} (hs : l.Meets s)
    (sorted : Ledger.CoinsSorted s) :
    (∀ tx t, Transfer.ofTx? tx = some t → Ledger.Settled tx t s) ∧
      (∀ t, Transfer.ofTx? t.tx = some t) ∧
      ∀ tx, Transfer.ofTx? tx = none →
        (Ledger.execute tx s).1.code = 0 ∧ (Ledger.execute tx s).2 = s := by
  have closed := Ledger.Typing.closed_true (Ledger.ReadAs Codec.json fun _ => True)
  have now : Ledger.WellTyped (.of fun _ => True) l.now.store :=
    l.wellTyped_of closed fun _ _ _ _ => ⟨fun _ _ => trivial, trivial⟩
  have typed := ((Ledger.kept_wellTyped closed).meets now hs).sorted sorted
  refine ⟨fun tx t ht => typed.settled ht, Transfer.ofTx?_tx, fun tx hnone => ?_⟩
  unfold Ledger.execute
  rw [hnone]
  exact ⟨rfl, rfl⟩

/-- A chain begins with five coins on an account, and with coins in order. -/
theorem exists_holding :
    ∃ l : Life, l.now.isInitialized = true ∧ Ledger.CoinsSorted l.now.store ∧
      Ledger.balances Harness.seventeens l.now.store = .ok (.single 5 defaultBondDenom) := by
  have buildable := Harness.buildable_crediting [5] (by decide) Harness.seventeens
  obtain ⟨l, r, v, a, d, key, supply, begun, accepted, opens, -, sortedSupply⟩ :=
    exists_beginning buildable
  let pool := (Harness.crediting [5]).genesis.poolBalance
  obtain ⟨o, hbalances, hsupply, opens⟩ : ∃ o : Ledger.Opening,
      o.bank.balances = [⟨Harness.seventeens, .single 5 defaultBondDenom⟩, pool] ∧
        o.bank.supply = supply ∧ Ledger.Opening.ofDocument d = .ok o := ⟨_, rfl, rfl, opens⟩
  let l' : Life := { l with requests := l.requests ++ [.initChain r] }
  have begunWith : l'.BegunWith d := ⟨l.requests, r, [], v, a, rfl, begun, accepted⟩
  refine ⟨l', l'.isInitialized_iff.2 ⟨d, begunWith⟩, ?_, ?_⟩
  · refine (l'.wellTyped_of (Ledger.Typing.closed_sorted _) fun d' o' hd ho => ?_).coinsSorted
    cases begunWith.unique hd
    cases opens.symm.trans ho
    exact ⟨hbalances ▸ buildable.sorted_listed, hsupply ▸ sortedSupply⟩
  · -- The store is that of the document, in which the account comes before the pool.
    have now : l'.now = a := by
      have next : (Request.initChain r).next l.now = a := stateAfter_of_ok begun
      rw [← next]
      exact List.foldl_append
    obtain ⟨hi, -, -, d', o', hd', ho', ha, -⟩ := initChain_ok_iff.1 begun
    cases accepted.symm.trans hd'
    cases opens.symm.trans ho'
    have store : a.store = (Ledger.genesisStore d o .fresh).commit := by
      rw [ha, ← (l.blank hi).store]
      rfl
    rw [now, store, Ledger.balances_agree (p := fun _ => True) (.commit _) trivial,
      Ledger.balances_genesisStore, (Harness.lastBalanceOf?_crediting hbalances).1]
    rfl

/-- An account with five coins pays them in parts of two and three, with nothing in between, but two
parts of three are refused. -/
theorem exists_settled_transfers :
    ∃ (l : Life) (few many : Transfer), l.now.isInitialized = true ∧ l.Meets l.now.store ∧
      Ledger.CoinsSorted l.now.store ∧
      Ledger.Moved few l.now.store (Ledger.execute few.tx l.now.store).2 ∧
      (Ledger.execute many.tx l.now.store).2 = l.now.store ∧
      (Ledger.execute many.tx l.now.store).1.code = 5 := by
  obtain ⟨l, begun, sorted, held⟩ := exists_holding
  let move (amounts : List UInt64) : Transfer :=
    ⟨Harness.seventeens, bondedPoolAddress, ⟨amounts.map fun n => ⟨defaultBondDenom, n⟩⟩⟩
  obtain ⟨settled, readable, -⟩ := l.execute_moves_or_nothing .now sorted
  have payable (amounts : List UInt64) (valid : (move amounts).amount.check = .ok ()) :=
    Ledger.payable_iff (t := move amounts) valid held (Coins.sorted_single _ _)
  have paid := (payable [2, 0, 3] (by decide)).2 ⟨.empty, by decide⟩
  have unpaid : ¬Ledger.Payable (move [3, 3]) l.now.store := fun h => by
    obtain ⟨left, hleft⟩ := (payable [3, 3] (by decide)).1 h
    have none : Ledger.subAll? (.single 5 defaultBondDenom) (move [3, 3]).amount = none := by decide
    rw [none] at hleft
    cases hleft
  have moved := (settled _ _ (readable (move [2, 0, 3]))).moved paid
  obtain ⟨same, code⟩ := (settled _ _ (readable (move [3, 3]))).refused unpaid
  exact ⟨l, move [2, 0, 3], move [3, 3], begun, .now, sorted, moved, same,
    code.trans (if_pos (by decide))⟩

end App

end TestChain
