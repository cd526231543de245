import TestChain.Proofs.App.Opened

/-!
# Executing transactions

Transactions are executed one after the other, each on the store that the others have left
(`Ledger.getElem?_executeAll`), so a list of them can be divided at any place
(`Ledger.executeAll_append`). What they read are balances and accounts: on stores that agree there,
whatever lies in which layer, they have the same results and leave stores that agree again
(`Ledger.executeAll_agree`). An account is numbered by a scan, which sees the same keys where
reading does (`Store.AgreeOn.scan`).
-/

namespace TestChain

namespace Store

/-- Two stores have the same values under the keys of a kind. -/
def AgreeOn (p : Bytes → Prop) (s t : Store) : Prop :=
  ∀ k, p k → t.get? k = s.get? k

namespace AgreeOn

variable {p : Bytes → Prop} {s t u : Store}

/-- A store agrees with itself. -/
theorem refl (s : Store) : AgreeOn p s s :=
  fun _ _ => rfl

/-- Agreement holds in both directions. -/
theorem symm (h : AgreeOn p s t) : AgreeOn p t s :=
  fun k hk => (h k hk).symm

/-- Agreement is passed on. -/
theorem trans (h : AgreeOn p s t) (h' : AgreeOn p t u) : AgreeOn p s u :=
  fun k hk => (h' k hk).trans (h k hk)

/-- A committed store agrees with the one before. -/
theorem commit (s : Store) : AgreeOn p s s.commit :=
  fun k _ => s.get?_commit k

/-- Stores that agree on some keys agree on some of them. -/
theorem mono {q : Bytes → Prop} (h : AgreeOn p s t) (hq : ∀ k, q k → p k) : AgreeOn q s t :=
  fun k hk => h k (hq k hk)

/-- The same value is written in both stores. -/
theorem write (h : AgreeOn p s t) {α : Type} (c : Codec α) (k : Bytes) (a : α) :
    AgreeOn p (s.write c k a) (t.write c k a) := by
  intro j hj
  unfold Store.write
  rw [get?_set, get?_set, h j hj]

/-- A value that is written under a key of another kind is not seen. -/
theorem write_of_not (s : Store) {α : Type} (c : Codec α) {k : Bytes} (a : α) (hk : ¬p k) :
    AgreeOn p s (s.write c k a) := by
  intro j hj
  unfold Store.write
  rw [get?_set, if_neg]
  rintro rfl
  exact hk hj

/-- A scan under a beginning of such keys sees the same. -/
theorem scan (h : AgreeOn p s t) {lead : Bytes} (hlead : ∀ k, lead.isPrefixOf k = true → p k) :
    t.scan lead = s.scan lead := by
  have part : ∀ w : Store, w.scan lead = (w.view.startingWith lead).toList := fun w => by
    unfold Store.scan view
    rw [Changes.applyTo_startingWith]
  have same : t.view.startingWith lead = s.view.startingWith lead := by
    refine Entries.ext fun k => ?_
    rw [Entries.get?_startingWith, Entries.get?_startingWith, get?_view, get?_view]
    by_cases hk : lead.isPrefixOf k = true
    · rw [h k (hlead k hk)]
    · rw [if_neg hk, if_neg hk]
  rw [part, part, same]

/-- A store that agrees in everything has the same view. -/
theorem view_eq (h : AgreeOn (fun _ => True) s t) : t.view = s.view :=
  Entries.ext fun k => by rw [get?_view, get?_view, h k trivial]

end AgreeOn

end Store

namespace Ledger

/-! ## Queries on stores that agree -/

section Queries

variable {p : Bytes → Prop} {s t : Store} {α : Type}

/-- Where two stores agree on a key, it has the same value of a type. -/
theorem value?_agree (agree : s.AgreeOn p t) (c : Codec α) {k : Bytes} (hk : p k) :
    value? c k t = value? c k s := by
  unfold value? Store.read?
  rw [agree k hk]

/-- Where two stores agree on the keys with a beginning, these have the same values of a type. -/
theorem values_agree (agree : s.AgreeOn p t) (c : Codec α) {lead : Bytes}
    (hlead : ∀ k, lead.isPrefixOf k = true → p k) : values c lead t = values c lead s := by
  unfold values
  rw [Store.readAll_eq_of_scan_eq c (agree.scan hlead)]

/-- Where two stores agree on the key of an account's balances, these are the same. -/
theorem balances_agree (agree : s.AgreeOn p t) {a : AccountAddress} (hk : p (balanceKey a)) :
    balances a t = balances a s := by
  unfold balances
  rw [value?_agree agree Coins.codec hk]

/-- Where two stores agree on the key of the supply, it is the same. -/
theorem supply_agree (agree : s.AgreeOn p t) (hk : p supplyKey) : supply t = supply s := by
  unfold supply
  rw [value?_agree agree Coins.codec hk]

end Queries

/-! ## In order -/

/-- The first transaction is executed before the others. -/
theorem executeAll_cons (tx : Tx) (rest : List Tx) (s : Store) :
    executeAll (tx :: rest) s =
      ((execute tx s).1 :: (executeAll rest (execute tx s).2).1,
        (executeAll rest (execute tx s).2).2) := rfl

/-- Every transaction has a result. -/
theorem length_executeAll (txs : List Tx) (s : Store) :
    (executeAll txs s).1.length = txs.length := by
  induction txs generalizing s with
  | nil => rfl
  | cons tx rest ih => exact congrArg (· + 1) (ih _)

/-- Transactions are executed after others on the store that those have left. -/
theorem executeAll_append (txs others : List Tx) (s : Store) :
    executeAll (txs ++ others) s =
      ((executeAll txs s).1 ++ (executeAll others (executeAll txs s).2).1,
        (executeAll others (executeAll txs s).2).2) := by
  induction txs generalizing s with
  | nil => rfl
  | cons tx rest ih =>
    rw [List.cons_append, executeAll_cons, executeAll_cons, ih]
    rfl

/-- The result of a transaction is that of executing it on the store that those before it have
left. -/
theorem getElem?_executeAll {txs : List Tx} {i : Nat} (hi : i < txs.length) (s : Store) :
    (executeAll txs s).1[i]? = some (execute txs[i] (executeAll (txs.take i) s).2).1 := by
  have front : (executeAll (txs.take i) s).1.length = i := by
    rw [length_executeAll, List.length_take, Nat.min_eq_left (Nat.le_of_lt hi)]
  have split : txs = txs.take i ++ txs[i] :: txs.drop (i + 1) := by
    rw [← List.drop_eq_getElem_cons hi, List.take_append_drop]
  have all := executeAll_append (txs.take i) (txs[i] :: txs.drop (i + 1)) s
  rw [← split] at all
  rw [all, List.getElem?_append_right (Nat.le_of_eq front), front, Nat.sub_self]
  rfl

/-! ## On stores that agree -/

variable {p : Bytes → Prop} {α β : Type}

/-- Keys of a kind to which those of balances and of accounts belong. -/
structure Covers (p : Bytes → Prop) : Prop where
  /-- The keys of balances do. -/
  balances : ∀ k, balanceLead.isPrefixOf k = true → p k
  /-- The keys of accounts do. -/
  accounts : ∀ k, accountLead.isPrefixOf k = true → p k

/-- Two outcomes are the same, with stores that agree. -/
inductive SameOutcome (p : Bytes → Prop) :
    EStateM.Result AppError Store α → EStateM.Result AppError Store α → Prop where
  /-- Both have the same result. -/
  | ok {a : α} {s t : Store} (agree : s.AgreeOn p t) : SameOutcome p (.ok a s) (.ok a t)
  /-- Both have the same error. -/
  | error {e : AppError} {s t : Store} (agree : s.AgreeOn p t) :
    SameOutcome p (.error e s) (.error e t)

/-- On stores that agree the action has the same outcome. -/
def Within (p : Bytes → Prop) (x : Action α) : Prop :=
  ∀ s t, s.AgreeOn p t → SameOutcome p (x s) (x t)

namespace Within

/-- Two such actions in order are one. -/
theorem bind {x : Action α} {f : α → Action β} (hx : Within p x) (hf : ∀ a, Within p (f a)) :
    Within p (x >>= f) := by
  intro s t agree
  rw [bind_eq, bind_eq]
  have first := hx s t agree
  generalize x s = r, x t = r' at first
  cases first with
  | ok agree => exact hf _ _ _ agree
  | error agree => exact .error agree

/-- Refusing is one. -/
theorem throw (e : AppError) : Within p (MonadExcept.throw e : Action α) :=
  fun _ _ agree => .error agree

/-- Asking for what the stores have in common is one. -/
theorem ask {q : Query α} (hq : ∀ s t, s.AgreeOn p t → q t = q s) : Within p (Ledger.ask q) := by
  intro s t agree
  unfold Ledger.ask
  rw [hq s t agree]
  cases q s with
  | ok a => exact .ok agree
  | error e => exact .error agree

/-- Writing a value is one. -/
theorem put (c : Codec α) (k : Bytes) (a : α) : Within p (Ledger.put c k a) :=
  fun _ _ agree => .ok (agree.write c k a)

/-- The test of denominations is one. -/
theorem checkCoins (cs : Coins) : Within p (Ledger.checkCoins cs) := by
  intro s t agree
  unfold Ledger.checkCoins
  cases cs.check with
  | ok u => exact .ok agree
  | error e => exact .error agree

/-- Opening an account is one: its number is told by a scan. -/
theorem ensureAccount (covers : Covers p) (a : AccountAddress) :
    Within p (Ledger.ensureAccount a) := by
  intro s t agree
  have lead := List.isPrefixOf_iff_prefix.2 (accountKey_begins a)
  have known : t.contains (accountKey a) = s.contains (accountKey a) := by
    unfold Store.contains
    rw [agree _ (covers.accounts _ lead)]
  unfold Ledger.ensureAccount
  rw [get_bind_eq, get_bind_eq, known, agree.scan covers.accounts]
  split
  · exact put _ _ _ s t agree
  · exact .ok agree

/-- Moving coins is one. -/
theorem transfer (covers : Covers p) (t : Transfer) : Within p (Ledger.transfer t) := by
  have held : ∀ a, Within p (Ledger.ask (balances a)) := fun a =>
    ask fun s t agree => balances_agree agree (covers.balances _ (isPrefixOf_balanceKey a))
  unfold Ledger.transfer
  refine (checkCoins _).bind fun _ => (held _).bind fun coins => ?_
  cases subAll? coins t.amount with
  | none => exact throw _
  | some rest =>
    exact (put _ _ _).bind fun _ => (held _).bind fun _ => (put _ _ _).bind fun _ =>
      ensureAccount covers _

end Within

/-- On stores that agree a transaction has the same result, and leaves stores that agree. -/
theorem execute_agree (covers : Covers p) (tx : Tx) {s t : Store} (agree : s.AgreeOn p t) :
    (execute tx t).1 = (execute tx s).1 ∧ (execute tx s).2.AgreeOn p (execute tx t).2 := by
  unfold execute
  cases Transfer.ofTx? tx with
  | none => exact ⟨rfl, agree⟩
  | some move =>
    have same := Within.transfer covers move s t agree
    dsimp only
    generalize Ledger.transfer move s = r, Ledger.transfer move t = r' at same
    cases same with
    | ok agree => exact ⟨rfl, agree⟩
    | error agree => exact ⟨rfl, agree⟩

/-- On stores that agree transactions have the same results, and leave stores that agree. -/
theorem executeAll_agree (covers : Covers p) (txs : List Tx) {s t : Store}
    (agree : s.AgreeOn p t) :
    (executeAll txs t).1 = (executeAll txs s).1 ∧
      (executeAll txs s).2.AgreeOn p (executeAll txs t).2 := by
  induction txs generalizing s t with
  | nil => exact ⟨rfl, agree⟩
  | cons tx rest ih =>
    obtain ⟨first, left⟩ := execute_agree covers tx agree
    obtain ⟨others, left⟩ := ih left
    refine ⟨?_, left⟩
    rw [executeAll_cons, executeAll_cons, first, others]

/-! ## What is left alone -/

/-- A key under which coins are neither created nor moved: that of no balance, of no account and not
that of the supply. -/
structure Quiet (k : Bytes) : Prop where
  /-- It is no key of a balance. -/
  balance : balanceLead.isPrefixOf k = false
  /-- It is no key of an account. -/
  account : accountLead.isPrefixOf k = false
  /-- It is not the key of the supply. -/
  supply : k ≠ supplyKey

/-- A key that begins like none of the three is quiet. -/
theorem quiet_of_begins {lead k : Bytes} (hbalance : balanceLead.length = lead.length)
    (neBalance : balanceLead ≠ lead) (haccount : accountLead.length = lead.length)
    (neAccount : accountLead ≠ lead) (hsupply : lead.isPrefixOf supplyKey = false)
    (hk : lead.isPrefixOf k = true) : Quiet k := by
  have begins := List.isPrefixOf_iff_prefix.1 hk
  refine ⟨isPrefixOf_of_begins hbalance neBalance begins,
    isPrefixOf_of_begins haccount neAccount begins, ?_⟩
  rintro rfl
  rw [hsupply] at hk
  cases hk

/-- The keys of validators are quiet. -/
theorem quiet_validator {k : Bytes} (hk : validatorLead.isPrefixOf k = true) : Quiet k :=
  quiet_of_begins (by decide) (by decide) (by decide) (by decide) (by decide) hk

/-- The keys of signing infos are quiet. -/
theorem quiet_signingInfo {k : Bytes} (hk : signingInfoLead.isPrefixOf k = true) : Quiet k :=
  quiet_of_begins (by decide) (by decide) (by decide) (by decide) (by decide) hk

/-- The test of denominations leaves everything. -/
theorem ends_checkCoins {P : Store → Prop} (cs : Coins) :
    Ends P (checkCoins cs) (fun _ => P) fun _ => P := by
  intro s h
  unfold checkCoins
  cases cs.check with
  | ok u => exact h
  | error e => exact h

/-- The store with an account for an address, a new one if it has none. -/
def openAccount (a : AccountAddress) (s : Store) : Store :=
  if s.contains (accountKey a) then s
  else s.write Account.codec (accountKey a) (.fresh a (UInt64.ofNat (s.scan accountLead).length))

/-- Opening an account always succeeds. -/
theorem ensureAccount_eq (a : AccountAddress) (s : Store) :
    ensureAccount a s = .ok () (openAccount a s) := by
  unfold ensureAccount openAccount
  rw [get_bind_eq]
  cases s.contains (accountKey a) with
  | true => rfl
  | false => rfl

/-- What each of the writes keeps with which coins are created and moved. -/
structure KeptByCoins (P : Store → Prop) : Prop where
  /-- Writing a balance keeps it. -/
  balance : ∀ a cs s, P s → P (s.write Coins.codec (balanceKey a) cs)
  /-- Writing the supply keeps it. -/
  supply : ∀ cs s, P s → P (s.write Coins.codec supplyKey cs)
  /-- Opening an account keeps it. -/
  account : ∀ a s, P s → P (openAccount a s)

namespace KeptByCoins

variable {P : Store → Prop}

/-- Opening an account ends with it. -/
theorem ensureAccount (h : KeptByCoins P) (a : AccountAddress) :
    Ends P (Ledger.ensureAccount a) (fun _ => P) fun _ => P := by
  intro s hs
  rw [ensureAccount_eq]
  exact h.account a s hs

/-- Creating coins ends with it. -/
theorem mint (h : KeptByCoins P) (a : AccountAddress) (cs : Coins) :
    Ends P (Ledger.mint a cs) (fun _ => P) fun _ => P := by
  unfold Ledger.mint
  refine (ends_checkCoins cs).bind fun _ => (ends_ask _).bind fun held => ?_
  refine (Ends.change (h.balance a _)).bind fun _ => (ends_ask _).bind fun total => ?_
  exact (Ends.change (h.supply _)).bind fun _ => h.ensureAccount a

/-- Moving coins ends with it. -/
theorem transfer (h : KeptByCoins P) (t : Transfer) :
    Ends P (Ledger.transfer t) (fun _ => P) fun _ => P := by
  unfold Ledger.transfer
  refine (ends_checkCoins _).bind fun _ => (ends_ask _).bind fun held => ?_
  cases subAll? held t.amount with
  | none => exact Ends.throw fun _ hs => hs
  | some rest =>
    refine (Ends.change (h.balance t.sender _)).bind fun _ => (ends_ask _).bind fun received => ?_
    exact (Ends.change (h.balance t.recipient _)).bind fun _ => h.ensureAccount _

/-- A transaction ends with it. -/
theorem execute (h : KeptByCoins P) (tx : Tx) {s : Store} (hs : P s) :
    P (Ledger.execute tx s).2 := by
  unfold Ledger.execute
  cases Transfer.ofTx? tx with
  | none => exact hs
  | some t =>
    dsimp only
    cases hr : Ledger.transfer t s with
    | ok u s' => exact (h.transfer t).of_ok hs hr
    | error e s' => exact (h.transfer t).of_error hs hr

/-- With what writing a signing info and a commit keep, it is all that a begun chain does to its
ledger. -/
theorem kept (h : KeptByCoins P)
    (info : ∀ a i s, P s → P (s.write SigningInfo.codec (signingInfoKey a) i))
    (commit : ∀ s, P s → P s.commit) : App.Kept P where
  mint a cs _ hs := (h.mint a cs).stateAfter hs
  execute tx _ hs := h.execute tx hs
  recordVotes votes _ hs := (ends_recordVotes info votes).stateAfter hs
  setSigningInfo i s hs := by
    unfold Ledger.setSigningInfo
    refine Ends.stateAfter ((ends_ask _).bind fun known => ?_) hs
    split
    · exact .change fun s hs => info _ i s hs
    · exact .throw fun _ hs => hs
  commit := commit

end KeptByCoins

/-- Opening an account leaves the other keys. -/
theorem agreeOn_openAccount {p : Bytes → Prop} {a : AccountAddress} (hp : ¬p (accountKey a))
    (s : Store) : s.AgreeOn p (openAccount a s) := by
  unfold openAccount
  split
  · exact .refl s
  · exact .write_of_not s _ _ hp

/-- Coins are created and moved without a change of the quiet keys. -/
theorem keptByCoins_quiet (s₀ : Store) : KeptByCoins (s₀.AgreeOn Quiet) where
  balance a cs s same := same.trans (.write_of_not s _ cs fun quiet => by
    have := quiet.balance
    rw [isPrefixOf_balanceKey a] at this
    cases this)
  supply cs s same := same.trans (.write_of_not s _ cs fun quiet => quiet.supply rfl)
  account a s same := same.trans (agreeOn_openAccount (fun quiet => by
    have := quiet.account
    rw [List.isPrefixOf_iff_prefix.2 (accountKey_begins a)] at this
    cases this) s)

/-- A transaction leaves the quiet keys. -/
theorem quiet_execute (tx : Tx) (s : Store) : s.AgreeOn Quiet (execute tx s).2 :=
  (keptByCoins_quiet s).execute tx (.refl s)

/-- Transactions leave the quiet keys. -/
theorem quiet_executeAll (txs : List Tx) (s : Store) : s.AgreeOn Quiet (executeAll txs s).2 := by
  induction txs generalizing s with
  | nil => exact .refl s
  | cons tx rest ih => exact (quiet_execute tx s).trans (ih _)

end Ledger

end TestChain
