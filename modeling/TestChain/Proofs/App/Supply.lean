import TestChain.Invariant
import TestChain.Proofs.App.Life
import TestChain.Proofs.Codec.Values
import TestChain.Proofs.Coins
import TestChain.Proofs.Store.Scan

/-!
# The supply is conserved

Balances and the supply stop at the largest word, each on its own, so the supply need not be the sum
of the balances. What it is, is that sum cut off at the largest word (`Ledger.Conserving`).
Crediting an account, transfers and everything else that a begun chain does to its ledger keep this
(`App.conserving_afterAll`), and then the test of the supply succeeds (`checkSupply_of_conserving`).

A credit to a full account raises the true sum by less than the supply, and a transfer to a full
account lowers it; but then the sum stands above the largest word before and after, and so does
the supply at it.
-/

namespace TestChain

namespace Ledger

/-- What a stored set of coins holds of a denomination. -/
def worth (denom : String) (v : Bytes) : Nat :=
  match Store.decode Coins.codec v with
  | .ok cs => (cs.amountOf denom).toNat
  | .error _ => 0

/-- The sum of a denomination over all addresses with a stored balance. -/
def held (denom : String) (s : Store) : Nat :=
  s.weigh balanceLead (worth denom)

/-- Every stored balance is that of an address, and its coins are in order. -/
def InOrder (s : Store) : Prop :=
  ∀ k v, (k, v) ∈ s.scan balanceLead →
    ∃ (a : AccountAddress) (cs : Coins),
      k = balanceKey a ∧ Store.decode Coins.codec v = .ok cs ∧ cs.Sorted

/-- The stored coins are in order, and the supply of every denomination is the sum of the stored
balances, cut off at the largest word. -/
structure Conserving (s : Store) : Prop where
  /-- The balances are in order. -/
  inOrder : InOrder s
  /-- The supply is in order and is the sum, cut off. -/
  supply : ∃ total, Ledger.supply s = .ok total ∧ total.Sorted ∧
    ∀ denom, (total.amountOf denom).toNat = min (held denom s) (UInt64.size - 1)

/-! ## Keys -/

/-- Keys that begin with different words of one length begin with nothing else in common. -/
theorem isPrefixOf_append_of_ne {p q : Bytes} (hlen : p.length = q.length) (hne : p ≠ q)
    (b : Bytes) : p.isPrefixOf (q ++ b) = false := by
  rw [← Bool.not_eq_true, List.isPrefixOf_iff_prefix]
  rintro ⟨t, ht⟩
  exact hne (List.append_inj ht hlen).1

/-- The key of a balance is one. -/
theorem isPrefixOf_balanceKey (a : AccountAddress) :
    balanceLead.isPrefixOf (balanceKey a) = true := by
  rw [List.isPrefixOf_iff_prefix]
  exact List.prefix_append _ _

/-- The key is neither that of a balance nor that of the supply. -/
structure Apart (k : Bytes) : Prop where
  /-- It is no key of a balance. -/
  balance : balanceLead.isPrefixOf k = false
  /-- It is not the key of the supply. -/
  supply : k ≠ supplyKey

/-- A key that begins like none of the two is apart. -/
theorem apart_append {q : Bytes} (hlen : balanceLead.length = q.length) (hne : balanceLead ≠ q)
    (hsupply : q.isPrefixOf supplyKey = false) (b : Bytes) : Apart (q ++ b) := by
  refine ⟨isPrefixOf_append_of_ne hlen hne b, fun h => ?_⟩
  -- Otherwise the key of the supply would have the beginning.
  rw [← h, List.isPrefixOf_iff_prefix.2 (List.prefix_append q b)] at hsupply
  cases hsupply

/-- The key of an account is apart. -/
theorem apart_accountKey (a : AccountAddress) : Apart (accountKey a) :=
  apart_append (by decide) (by decide) (by decide) _

/-- The key of a signing info is apart. -/
theorem apart_signingInfoKey (a : ConsensusAddress) : Apart (signingInfoKey a) :=
  apart_append (by decide) (by decide) (by decide) _

/-- The key of the supply is no key of a balance. -/
theorem isPrefixOf_supplyKey : balanceLead.isPrefixOf supplyKey = false := by decide

/-- The key of a balance is not the key of the supply. -/
theorem balanceKey_ne_supplyKey (a : AccountAddress) : balanceKey a ≠ supplyKey := by
  intro h
  have := isPrefixOf_balanceKey a
  rw [h, isPrefixOf_supplyKey] at this
  cases this

/-! ## Writing -/

variable {α : Type} {s : Store}

/-- Written coins are worth their amounts. -/
theorem worth_text (denom : String) (cs : Coins) :
    worth denom (Bytes.ofString (Coins.codec.text cs)) = (cs.amountOf denom).toNat := by
  unfold worth
  rw [Store.decode_text cs.faithful_codec (by decide)]

/-- What is written under a key of no balance does not change the sum. -/
theorem held_write_of_not {k : Bytes} (hk : balanceLead.isPrefixOf k = false) (c : Codec α) (a : α)
    (denom : String) : held denom (s.write c k a) = held denom s := by
  unfold held Store.weigh Store.write
  rw [Store.scan_set_of_not hk]

/-- What is written under a key of no balance keeps the balances in order. -/
theorem InOrder.write_of_not (h : InOrder s) {k : Bytes} (hk : balanceLead.isPrefixOf k = false)
    (c : Codec α) (a : α) : InOrder (s.write c k a) := by
  intro j v hj
  unfold Store.write at hj
  rw [Store.scan_set_of_not hk] at hj
  exact h j v hj

/-- A balance in order keeps the balances in order. -/
theorem InOrder.write (h : InOrder s) (a : AccountAddress) {cs : Coins} (hcs : cs.Sorted) :
    InOrder (s.write Coins.codec (balanceKey a) cs) := by
  intro j v hj
  obtain ⟨hlead, hv⟩ := Store.mem_scan_iff.1 hj
  unfold Store.write at hv
  rw [Store.get?_set] at hv
  split at hv
  · rename_i hkey
    rw [← Option.some.inj hv]
    exact ⟨a, cs, hkey.symm, Store.decode_text cs.faithful_codec (by decide), hcs⟩
  · exact h j v (Store.mem_scan_iff.2 ⟨hlead, hv⟩)

/-- What is written under another key does not change the supply. -/
theorem supply_write_of_ne {k : Bytes} (hk : k ≠ supplyKey) (c : Codec α) (a : α) :
    Ledger.supply (s.write c k a) = Ledger.supply s := by
  unfold Ledger.supply value? Store.read? Store.write
  rw [Store.get?_set, if_neg hk]

/-- A written supply is the supply. -/
theorem supply_write (s : Store) (total : Coins) :
    Ledger.supply (s.write Coins.codec supplyKey total) = .ok total := by
  unfold Ledger.supply value?
  rw [(s.read?_write Coins.codec supplyKey supplyKey total.faithful_codec (by decide)).1]
  rfl

/-- What is written under a key apart keeps the supply conserved. -/
theorem Conserving.write (h : Conserving s) {k : Bytes} (hk : Apart k) (c : Codec α) (a : α) :
    Conserving (s.write c k a) := by
  obtain ⟨total, hread, hsorted, hsum⟩ := h.supply
  refine ⟨h.inOrder.write_of_not hk.balance c a, total, ?_, hsorted, fun denom => ?_⟩
  · rw [supply_write_of_ne hk.supply, hread]
  · rw [hsum denom, held_write_of_not hk.balance]

/-- A balance of a ledger in order can be read, its coins are in order, and it is part of the sum:
another balance in its place changes the sum by the difference. -/
theorem InOrder.balances (h : InOrder s) (a : AccountAddress) :
    ∃ cs, Ledger.balances a s = .ok cs ∧ cs.Sorted ∧
      ∀ (new : Coins) (denom : String),
        held denom (s.write Coins.codec (balanceKey a) new) + (cs.amountOf denom).toNat =
          held denom s + (new.amountOf denom).toNat := by
  have sum := fun (new : Coins) (denom : String) => Store.weigh_set (isPrefixOf_balanceKey a) s
    (Bytes.ofString (Coins.codec.text new)) (worth denom)
  cases hv : s.get? (balanceKey a) with
  | none =>
    -- Without a stored balance nothing is replaced.
    refine ⟨.empty, ?_, .nil, fun new denom => ?_⟩
    · unfold Ledger.balances value? Store.read?
      rw [hv]
      rfl
    · have := sum new denom
      rw [hv, worth_text] at this
      exact this
  | some v =>
    obtain ⟨-, cs, -, hdecode, hsorted⟩ :=
      h _ v (Store.mem_scan_iff.2 ⟨isPrefixOf_balanceKey a, hv⟩)
    refine ⟨cs, ?_, hsorted, fun new denom => ?_⟩
    · unfold Ledger.balances value? Store.read?
      rw [hv]
      dsimp only
      rw [hdecode]
      rfl
    -- The stored balance is the part of the sum that another one replaces.
    · have worthOld : worth denom v = (cs.amountOf denom).toNat := by
        unfold worth
        rw [hdecode]
      have := sum new denom
      rw [hv, worth_text, Option.map_some, Option.getD_some, worthOld] at this
      exact this

/-! ## Actions -/

/-- Asking for what is there gives it. -/
theorem ask_of_ok {q : Query α} {a : α} (h : q s = .ok a) : ask q s = .ok a s := by
  unfold ask
  rw [h]

/-- Valid coins pass the test. -/
theorem checkCoins_of_ok {cs : Coins} (h : cs.check = .ok ()) : checkCoins cs s = .ok () s := by
  unfold checkCoins
  rw [h]

/-- Invalid coins are refused. -/
theorem checkCoins_of_error {cs : Coins} {e : InvalidDenom} (h : cs.check = .error e) :
    checkCoins cs s = .error (.coins e) s := by
  unfold checkCoins
  rw [h]

/-- Opening an account keeps what writes of accounts keep. -/
theorem stateAfter_ensureAccount {P : Store → Prop} (a : AccountAddress) (h : P s)
    (hwrite : ∀ account, P (s.write Account.codec (accountKey a) account)) :
    P (stateAfter (ensureAccount a) s) := by
  unfold ensureAccount stateAfter
  rw [get_bind_eq]
  split
  · rename_i hok
    split at hok
    · obtain ⟨-, rfl⟩ := EStateM.Result.ok.inj hok
      exact hwrite _
    · obtain ⟨-, rfl⟩ := EStateM.Result.ok.inj hok
      exact h
  · rename_i herror
    split at herror
    · cases herror
    · cases herror

/-- Crediting an account keeps the supply conserved. -/
theorem Conserving.mint (h : Conserving s) (a : AccountAddress) (cs : Coins) :
    Conserving (stateAfter (Ledger.mint a cs) s) := by
  unfold Ledger.mint
  cases hcheck : cs.check with
  | error e =>
    rw [stateAfter_of_error (bind_of_error (checkCoins_of_error hcheck) _)]
    exact h
  | ok u =>
    obtain ⟨old, hold, holdSorted, hsum⟩ := h.inOrder.balances a
    obtain ⟨total, htotal, htotalSorted, htotalSum⟩ := h.supply
    have htotal' : Ledger.supply (s.write Coins.codec (balanceKey a) (old.add cs)) = .ok total := by
      rw [supply_write_of_ne (balanceKey_ne_supplyKey a), htotal]
    rw [stateAfter_bind_of_ok (checkCoins_of_ok hcheck),
      stateAfter_bind_of_ok (ask_of_ok hold), stateAfter_bind_of_ok (put_eq _ _ _ _),
      stateAfter_bind_of_ok (ask_of_ok htotal'), stateAfter_bind_of_ok (put_eq _ _ _ _)]
    have credited : Conserving ((s.write Coins.codec (balanceKey a) (old.add cs)).write Coins.codec
        supplyKey (total.add cs)) := by
      refine ⟨(h.inOrder.write a (holdSorted.add cs)).write_of_not isPrefixOf_supplyKey _ _,
        total.add cs, supply_write _ _, htotalSorted.add cs, fun denom => ?_⟩
      -- The old balance is part of the old sum; if the new one is full, both sums are.
      have part := hsum .empty denom
      have sum := hsum (old.add cs) denom
      have cut := htotalSum denom
      have empty : (Coins.empty.amountOf denom).toNat = 0 := rfl
      rw [Coins.toNat_amountOf_add holdSorted] at sum
      rw [held_write_of_not isPrefixOf_supplyKey, Coins.toNat_amountOf_add htotalSorted, cut]
      omega
    exact stateAfter_ensureAccount a credited fun account =>
      credited.write (apart_accountKey a) _ account

/-- A transfer keeps the supply conserved, also one to the account that pays. -/
theorem Conserving.transfer (h : Conserving s) (t : Transfer) :
    Conserving (stateAfter (Ledger.transfer t) s) := by
  unfold Ledger.transfer
  cases hcheck : t.amount.check with
  | error e =>
    rw [stateAfter_of_error (bind_of_error (checkCoins_of_error hcheck) _)]
    exact h
  | ok u =>
    obtain ⟨old, hold, holdSorted, hsum⟩ := h.inOrder.balances t.sender
    rw [stateAfter_bind_of_ok (checkCoins_of_ok hcheck), stateAfter_bind_of_ok (ask_of_ok hold)]
    cases hleft : subAll? old t.amount with
    | none => exact h
    | some left =>
      obtain ⟨leftSorted, htaken⟩ := Coins.amountOf_foldlM_sub? holdSorted hleft
      -- The recipient's balance is read where the sender has paid already.
      have paid := h.inOrder.write t.sender leftSorted
      obtain ⟨received, hreceived, receivedSorted, hsum'⟩ := paid.balances t.recipient
      obtain ⟨total, htotal, htotalSorted, htotalSum⟩ := h.supply
      dsimp only
      rw [stateAfter_bind_of_ok (put_eq _ _ _ _), stateAfter_bind_of_ok (ask_of_ok hreceived),
        stateAfter_bind_of_ok (put_eq _ _ _ _)]
      have moved : Conserving ((s.write Coins.codec (balanceKey t.sender) left).write Coins.codec
          (balanceKey t.recipient) (received.add t.amount)) := by
        refine ⟨paid.write t.recipient (receivedSorted.add t.amount), total, ?_, htotalSorted,
          fun denom => ?_⟩
        · rw [supply_write_of_ne (balanceKey_ne_supplyKey _),
            supply_write_of_ne (balanceKey_ne_supplyKey _), htotal]
        · -- Each of the two balances is part of the sum before it is replaced. The recipient gets
          -- what the sender pays, unless that balance is full; then both sums are above the largest
          -- word.
          have part := hsum .empty denom
          have sum := hsum left denom
          have part' := hsum' .empty denom
          have sum' := hsum' (received.add t.amount) denom
          have taken := htaken denom
          have empty : (Coins.empty.amountOf denom).toNat = 0 := rfl
          rw [Coins.toNat_amountOf_add receivedSorted] at sum'
          rw [htotalSum denom]
          omega
      exact stateAfter_ensureAccount t.recipient moved fun account =>
        moved.write (apart_accountKey _) _ account

/-- A transaction keeps the supply conserved. -/
theorem Conserving.execute (h : Conserving s) (tx : Tx) : Conserving (Ledger.execute tx s).2 := by
  unfold Ledger.execute
  split
  · exact h
  · rename_i t _
    have moved := h.transfer t
    cases hx : Ledger.transfer t s with
    | ok u s' =>
      rw [stateAfter_of_ok hx] at moved
      exact moved
    | error e s' =>
      rw [stateAfter_of_error hx] at moved
      exact moved

/-- Asking leaves the ledger, whatever holds of it. -/
theorem ends_ask {P : Store → Prop} (q : Query α) :
    Ends P (ask q) (fun _ => P) fun _ => P := by
  intro s h
  unfold ask
  cases q s with
  | ok a => exact h
  | error e => exact h

/-- Counting votes keeps what writes of signing infos keep. -/
theorem ends_recordVotes {P : Store → Prop}
    (write : ∀ a i s, P s → P (s.write SigningInfo.codec (signingInfoKey a) i))
    (votes : List Vote) : Ends P (recordVotes votes) (fun _ => P) fun _ => P := by
  refine Ends.forM fun v _ => ?_
  unfold recordVote
  refine (ends_ask _).bind fun i => ?_
  cases i with
  | none => exact .pure fun _ h => h
  | some i => exact .change fun s h => write _ _ s h

/-- Counting votes keeps the supply conserved. -/
theorem Conserving.recordVotes (h : Conserving s) (votes : List Vote) :
    Conserving (stateAfter (Ledger.recordVotes votes) s) :=
  (ends_recordVotes (fun a i _ h => h.write (apart_signingInfoKey a) _ i) votes).stateAfter h

/-- Replacing a signing info keeps the supply conserved. -/
theorem Conserving.setSigningInfo (h : Conserving s) (i : SigningInfo) :
    Conserving (stateAfter (Ledger.setSigningInfo i) s) := by
  unfold Ledger.setSigningInfo
  refine Ends.stateAfter ((ends_ask _).bind fun known => ?_) h
  split
  · exact .change fun _ h => h.write (apart_signingInfoKey _) _ i
  · exact .throw fun _ h => h

/-- A commit keeps the supply conserved. -/
theorem Conserving.commit (h : Conserving s) : Conserving s.commit := by
  obtain ⟨total, hread, hsorted, hsum⟩ := h.supply
  have scan := s.scan_commit balanceLead
  refine ⟨fun k v hkv => h.inOrder k v (scan ▸ hkv), total, ?_, hsorted, fun denom => ?_⟩
  · unfold Ledger.supply value? Store.read? at hread ⊢
    rw [Store.get?_commit]
    exact hread
  · unfold held Store.weigh
    rw [scan]
    exact hsum denom

/-- Everything that a begun chain does to its ledger keeps the supply conserved. -/
theorem kept_conserving : App.Kept Conserving where
  mint a cs _ h := h.mint a cs
  execute tx _ h := h.execute tx
  recordVotes votes _ h := h.recordVotes votes
  setSigningInfo i _ h := h.setSigningInfo i
  commit _ h := h.commit

/-! ## The test of the supply -/

/-- Stored coins in order are decoded, and what they are worth is the sum of their amounts. -/
theorem mapM_decode {l : List (Bytes × Bytes)}
    (h : ∀ e ∈ l, ∃ cs, Store.decode Coins.codec e.2 = .ok cs ∧ cs.Sorted) :
    ∃ sets, l.mapM (fun e => Store.decode Coins.codec e.2) = .ok sets ∧
      (∀ cs ∈ sets, cs.Sorted) ∧
        ∀ denom, (sets.map fun cs => (cs.amountOf denom).toNat).sum =
          Entries.weigh (worth denom) l := by
  induction l with
  | nil => exact ⟨[], rfl, fun _ h => (nomatch h), fun _ => rfl⟩
  | cons e rest ih =>
    obtain ⟨cs, hcs, hsorted⟩ := h e List.mem_cons_self
    obtain ⟨sets, hsets, hall, hsum⟩ := ih fun f hf => h f (List.mem_cons_of_mem _ hf)
    refine ⟨cs :: sets, ?_, fun c hc => ?_, fun denom => ?_⟩
    · rw [List.mapM_cons, hcs, hsets]
      rfl
    · rcases List.mem_cons.1 hc with rfl | hc
      · exact hsorted
      · exact hall c hc
    · have first : worth denom e.2 = (cs.amountOf denom).toNat := by
        unfold worth
        rw [hcs]
      rw [List.map_cons, List.sum_cons, hsum denom, Entries.weigh_cons, first]

/-- Sets in order are added up, every amount up to the largest word. -/
theorem amountOf_foldl_add {sets : List Coins} (hall : ∀ cs ∈ sets, cs.Sorted) {s : Coins}
    (h : s.Sorted) (denom : String) :
    ((sets.foldl Coins.add s).amountOf denom).toNat =
      min ((s.amountOf denom).toNat + (sets.map fun cs => (cs.amountOf denom).toNat).sum)
        (UInt64.size - 1) := by
  induction sets generalizing s with
  | nil =>
    have := (s.amountOf denom).toNat_lt
    simp only [List.foldl_nil, List.map_nil, List.sum_nil, UInt64.size]
    omega
  | cons cs rest ih =>
    rw [List.foldl_cons, ih (fun c hc => hall c (List.mem_cons_of_mem _ hc)) (h.add cs),
      Coins.toNat_amountOf_add h, Coins.total_eq (hall cs List.mem_cons_self), List.map_cons,
      List.sum_cons]
    omega

/-- The sum of all balances of a ledger in order is the sum of what they are worth, cut off. -/
theorem InOrder.totalBalances {s : Store} (h : InOrder s) :
    ∃ total, Ledger.totalBalances s = .ok total ∧
      ∀ denom, (total.amountOf denom).toNat = min (held denom s) (UInt64.size - 1) := by
  obtain ⟨sets, hsets, hall, hsum⟩ := mapM_decode (l := s.scan balanceLead) fun e he => by
    obtain ⟨-, cs, -, hdecode, hsorted⟩ := h e.1 e.2 he
    exact ⟨cs, hdecode, hsorted⟩
  refine ⟨sets.foldl Coins.add .empty, ?_, fun denom => ?_⟩
  · unfold Ledger.totalBalances values Store.readAll
    rw [hsets]
    rfl
  · have start : Coins.empty.Sorted := .nil
    rw [amountOf_foldl_add hall start, hsum denom]
    exact congrArg (min · _) (Nat.zero_add _)

end Ledger

/-- The test compares the amounts of the denominations of some coins. -/
theorem checkAmounts_ok_iff {supply balances : Coins} {coins : List Coin} :
    checkAmounts supply balances coins = .ok () ↔
      ∀ c ∈ coins, supply.amountOf c.denom = balances.amountOf c.denom := by
  induction coins with
  | nil => exact ⟨fun _ _ h => (nomatch h), fun _ => rfl⟩
  | cons c rest ih =>
    rw [checkAmounts, List.forall_mem_cons, ← ih]
    split
    · rename_i heq
      exact (and_iff_right heq).symm
    · rename_i hne
      exact iff_of_false (fun h => (nomatch h)) fun h => hne h.1

/-- The test of the supply compares the amounts of all denominations. -/
theorem checkSupply_ok_iff {s : Store} {supply balances : Coins}
    (hsupply : Ledger.supply s = .ok supply) (hbalances : Ledger.totalBalances s = .ok balances) :
    checkSupply s = .ok () ↔ ∀ denom, supply.amountOf denom = balances.amountOf denom := by
  unfold checkSupply
  rw [hsupply, hbalances]
  show checkAmounts supply balances (supply.toList ++ balances.toList) = .ok () ↔ _
  rw [checkAmounts_ok_iff, Coins.amountOf_eq_iff]

/-- A conserved supply passes the test. -/
theorem checkSupply_of_conserving {s : Store} (h : Ledger.Conserving s) :
    checkSupply s = .ok () := by
  obtain ⟨supply, hsupply, -, hsum⟩ := h.supply
  obtain ⟨balances, hbalances, hsum'⟩ := h.inOrder.totalBalances
  exact (checkSupply_ok_iff hsupply hbalances).2 fun denom =>
    UInt64.toNat_inj.1 ((hsum denom).trans (hsum' denom).symm)

/-- The supply of a ledger to which nothing was written is conserved. -/
theorem Ledger.conserving_fresh : Ledger.Conserving .fresh :=
  ⟨fun _ _ h => (nomatch h), .empty, rfl, .nil, fun _ => rfl⟩

/-- From a begun chain with a conserved supply, any requests, successful or not, lead to one whose
supply is conserved and passes the test. -/
theorem App.conserving_afterAll (a : App) (begun : a.isInitialized = true)
    (h : Ledger.Conserving a.store) (requests : List App.Request) :
    Ledger.Conserving (App.afterAll requests a).store ∧
      checkSupply (App.afterAll requests a).store = .ok () := by
  have conserving := Ledger.kept_conserving.afterAll requests begun h
  exact ⟨conserving, checkSupply_of_conserving conserving⟩

/-- The application of a begun chain whose ledger holds the given store. -/
def App.holding (s : Store) : App where
  chainId := "chain"
  trace := false
  gasLimit := none
  store := s
  consensusParams := some .unlimitedGas
  lastHeight := 0
  lastAppHash := .zero
  current := none
  finalized := none
  verdict := .accept
  rejectNext := false
  failures := []
  lastPrepare := none
  lastProcess := none
  lastFinalize := none

/-- An account that holds the largest word is credited twice more, then pays itself in a block. -/
theorem App.conserving_afterAll_full :
    let full := stateAfter (Ledger.mint bondedPoolAddress (.single Word.max "ublk")) .fresh
    let pay := Transfer.tx ⟨bondedPoolAddress, bondedPoolAddress, ⟨[⟨"ublk", 2⟩, ⟨"ublk", 0⟩]⟩⟩
    let requests : List App.Request :=
      [.fund bondedPoolAddress (.single 1 "ublk"), .fund bondedPoolAddress ⟨[⟨"ublk", 7⟩]⟩,
        .finalize ⟨[pay], 1, 0, none, []⟩, .commit]
    (App.holding full).isInitialized = true ∧ Ledger.Conserving (App.holding full).store ∧
      checkSupply (App.afterAll requests (App.holding full)).store = .ok () := by
  have conserving : Ledger.Conserving
      (stateAfter (Ledger.mint bondedPoolAddress (.single Word.max "ublk")) .fresh) :=
    Ledger.conserving_fresh.mint _ _
  exact ⟨rfl, conserving, (App.conserving_afterAll _ rfl conserving _).2⟩

end TestChain
