import TestChain.Proofs.App.Moving
import TestChain.Proofs.Coins.Text
import TestChain.Proofs.Text.Addresses

/-!
# What results tell of coins

The coins of a transfer that is paid stand as a text in its event, and those of a transfer without
funds in the text of its error, behind the address that was to pay. Either is told only of a
transfer whose denominations are valid (`Ledger.ends_transfer`), and all addresses of accounts are
of one length, so the coins are known from these texts (`Ledger.texts_tell_coins`).
-/

namespace TestChain

/-- A text that begins with an account's address tells the address and the rest. -/
theorem Address.append_inj {kind : AddressKind} {a b : Address kind} {v w : List Char}
    (same : a.text.toList ++ v = b.text.toList ++ w) : a = b ∧ v = w := by
  have length (a : Address kind) : a.text.toList.length = kind.lead.toList.length + 41 := by
    rw [toList_text, List.length_append, List.length_cons, Hex.length_digits,
      a.bytes.length_toList]
  obtain ⟨texts, rest⟩ := List.append_inj same ((length a).trans (length b).symm)
  have read := (parse_text a).symm.trans (String.toList_inj.1 texts ▸ parse_text b)
  exact ⟨Except.ok.inj read, rest⟩

namespace Ledger

variable {s s' : Store} {t u : Transfer} {tx : Tx} {e : AppError}

/-! ## Errors -/

/-- If an error is one of missing funds, it is that of a transfer with valid denominations. -/
def Blames (t : Transfer) (e : AppError) : Prop :=
  ∀ a cs, e = .insufficientFunds a cs → a = t.sender ∧ cs = t.amount ∧ t.amount.HasDenoms

/-- Where balances cannot be read, a stored value is at fault. -/
theorem balances_error {a : AccountAddress} (h : balances a s = .error e) : ∃ f, e = .json f := by
  unfold balances value? at h
  cases hr : s.read? Coins.codec (balanceKey a) with
  | ok v =>
    rw [hr] at h
    cases h
  | error f =>
    rw [hr] at h
    cases h
    exact ⟨f, rfl⟩

/-- Reading balances keeps valid denominations, and its errors blame nobody. -/
theorem ends_ask_balances (t : Transfer) (a : AccountAddress) :
    Ends (fun _ => t.amount.HasDenoms) (ask (balances a)) (fun _ _ => t.amount.HasDenoms)
      fun e _ => Blames t e := by
  intro s denoms
  unfold ask
  cases h : balances a s with
  | ok cs => exact denoms
  | error e =>
    obtain ⟨f, rfl⟩ := balances_error h
    exact fun a cs blamed => nomatch blamed

/-- A transfer that is paid has valid denominations, and so has one that is blamed for missing
funds. -/
theorem ends_transfer (t : Transfer) :
    Ends (fun _ => True) (transfer t) (fun _ _ => t.amount.HasDenoms) fun e _ => Blames t e := by
  have checked : Ends (fun _ => True) (checkCoins t.amount) (fun _ _ => t.amount.HasDenoms)
      fun e _ => Blames t e := by
    intro s _
    cases h : t.amount.check with
    | ok u =>
      rw [checkCoins_of_ok h]
      exact Coins.check_ok_iff.1 h
    | error f =>
      rw [checkCoins_of_error h]
      exact fun a cs blamed => nomatch blamed
  refine checked.bind fun _ => (ends_ask_balances t _).bind fun held => ?_
  split
  · exact .throw fun s denoms a cs blamed => by
      cases blamed
      exact ⟨rfl, rfl, denoms⟩
  · have written (k : Bytes) (cs : Coins) :
        Ends (fun _ => t.amount.HasDenoms) (put Coins.codec k cs) (fun _ _ => t.amount.HasDenoms)
          fun e _ => Blames t e := .change fun _ denoms => denoms
    refine (written _ _).bind fun _ => (ends_ask_balances t _).bind fun received => ?_
    refine (written _ _).bind fun _ => ?_
    intro s denoms
    rw [ensureAccount_eq]
    exact denoms

/-- A wording with an address and coins behind it tells both. -/
theorem wording_inj {lead middle : String} {a b : AccountAddress} {cs ds : Coins}
    (hcs : cs.HasDenoms) (hds : ds.HasDenoms)
    (same : lead ++ a.text ++ middle ++ cs.text = lead ++ b.text ++ middle ++ ds.text) :
    a = b ∧ cs = ds := by
  have chars := congrArg String.toList same
  simp only [String.toList_append, List.append_assoc, List.append_cancel_left_eq] at chars
  obtain ⟨addresses, rest⟩ := Address.append_inj chars
  rw [List.append_cancel_left_eq, String.toList_inj] at rest
  exact ⟨addresses, Coins.eq_of_text_eq hcs hds rest⟩

/-! ## Results -/

/-- A result is that of a transfer, executed in some store. -/
inductive ResultOf (t : Transfer) : TxResult → Prop where
  /-- The transaction stands for the transfer. -/
  | execute {tx : Tx} (s : Store) (ht : Transfer.ofTx? tx = some t) :
    ResultOf t (Ledger.execute tx s).1

/-- What a result tells of the coins of a transfer. -/
inductive Tells (t : Transfer) (r : TxResult) : Prop where
  /-- The transfer was paid, and there is its event. -/
  | paid (code : r.code = 0) (events : r.events = [t.event]) (denoms : t.amount.HasDenoms)
  /-- Funds were missing, which the log says. -/
  | unpaid (code : r.code = insufficientFundsCode) (events : r.events = [])
    (log : r.log = "insufficient funds on " ++ t.sender.text ++ ": needed " ++ t.amount.text)
    (denoms : t.amount.HasDenoms)
  /-- It was refused for another reason. -/
  | refused (code : r.code = invalidRequestCode) (events : r.events = [])

/-- Every result of a transfer tells what it tells. -/
theorem ResultOf.tells {r : TxResult} (h : ResultOf t r) : Tells t r := by
  obtain ⟨s, ht⟩ := h
  rename_i tx
  cases hr : transfer t s with
  | ok _ s' =>
    rw [execute_of_ok ht hr]
    exact .paid rfl rfl ((ends_transfer t).of_ok trivial hr)
  | error e s' =>
    rw [execute_of_error ht hr]
    have blames := (ends_transfer t).of_error trivial hr
    cases e with
    | insufficientFunds a cs =>
      obtain ⟨rfl, rfl, denoms⟩ := blames a cs rfl
      exact .unpaid rfl rfl rfl denoms
    | _ => exact .refused rfl rfl

/-- An event in the result is that of the transfer, whose denominations are valid. -/
theorem Tells.of_event {r : TxResult} {e : Event} (h : Tells t r) (he : e ∈ r.events) :
    e.attribute? "amount" = some t.amount.text ∧ t.amount.HasDenoms := by
  cases h with
  | paid _ events denoms =>
    rw [events, List.mem_singleton] at he
    rw [he]
    exact ⟨rfl, denoms⟩
  | unpaid _ events _ _ =>
    rw [events] at he
    cases he
  | refused _ events =>
    rw [events] at he
    cases he

/-- The code of missing funds comes with their log. -/
theorem Tells.of_code {r : TxResult} (h : Tells t r) (hr : r.code = insufficientFundsCode) :
    r.log = "insufficient funds on " ++ t.sender.text ++ ": needed " ++ t.amount.text ∧
      t.amount.HasDenoms := by
  cases h with
  | paid code _ _ =>
    rw [code] at hr
    cases hr
  | unpaid _ _ log denoms => exact ⟨log, denoms⟩
  | refused code _ =>
    rw [code] at hr
    cases hr

/-- An error is one with which a transfer is refused in some store. -/
inductive ErrorOf (t : Transfer) (e : AppError) : Prop where
  /-- The store is given, and what is left of it. -/
  | refuse (s s' : Store) (h : transfer t s = .error e s')

/-- Sets of valid denominations with the same text are the same. So wherever two transfers are
executed, they have the same coins if their events have the same text of them, and the same sender
and coins if their results have the same log of missing funds; and errors of missing funds with the
same wording have the same address and coins. -/
theorem texts_tell_coins :
    (∀ s t : Coins, s.HasDenoms → t.HasDenoms → s.text = t.text → s = t) ∧
    (∀ t u r q, ResultOf t r → ResultOf u q →
      (∀ e ∈ r.events, ∀ f ∈ q.events, e.attribute? "amount" = f.attribute? "amount" →
        t.amount = u.amount) ∧
      (r.code = insufficientFundsCode → q.code = insufficientFundsCode → r.log = q.log →
        t.sender = u.sender ∧ t.amount = u.amount)) ∧
    ∀ t u a b cs ds, ErrorOf t (.insufficientFunds a cs) → ErrorOf u (.insufficientFunds b ds) →
      (AppError.insufficientFunds a cs).message = (AppError.insufficientFunds b ds).message →
      a = b ∧ cs = ds := by
  refine ⟨fun s t => Coins.eq_of_text_eq, fun t u r q hr hq => ⟨fun e he f hf same => ?_,
    fun codeR codeQ same => ?_⟩, fun t u a b cs ds ht hu same => ?_⟩
  · obtain ⟨textE, denomsE⟩ := hr.tells.of_event he
    obtain ⟨textF, denomsF⟩ := hq.tells.of_event hf
    rw [textE, textF] at same
    exact Coins.eq_of_text_eq denomsE denomsF (Option.some.inj same)
  · obtain ⟨logR, denomsR⟩ := hr.tells.of_code codeR
    obtain ⟨logQ, denomsQ⟩ := hq.tells.of_code codeQ
    rw [logR, logQ] at same
    exact wording_inj denomsR denomsQ same
  · obtain ⟨s, s', ht⟩ := ht
    obtain ⟨s₁, s₁', hu⟩ := hu
    obtain ⟨-, rfl, denomsT⟩ := (ends_transfer t).of_error trivial ht a cs rfl
    obtain ⟨-, rfl, denomsU⟩ := (ends_transfer u).of_error trivial hu b ds rfl
    exact wording_inj denomsT denomsU same

/-- Two transfers of as much in all, one of two coins and one of a single coin, are refused for
missing funds with different logs. -/
theorem exists_told_apart :
    ∃ t u r q, ResultOf t r ∧ ResultOf u q ∧ r.code = insufficientFundsCode ∧
      q.code = insufficientFundsCode ∧ t.amount ≠ u.amount ∧ r.log ≠ q.log := by
  let move (amounts : List UInt64) : Transfer :=
    ⟨.ofModule "a", .ofModule "b", ⟨amounts.map fun n => ⟨"ublk", n⟩⟩⟩
  have refused (amounts : List UInt64) (valid : (move amounts).amount.check = .ok ())
      (unpaid : subAll? .empty (move amounts).amount = none) :
      ∃ r, ResultOf (move amounts) r ∧ r.code = insufficientFundsCode := by
    have result := ResultOf.execute .fresh (move amounts).ofTx?_tx
    rw [execute_of_error (move amounts).ofTx?_tx (transfer_of_none valid rfl unpaid)] at result
    exact ⟨_, result, rfl⟩
  obtain ⟨r, hr, codeR⟩ := refused [3, 4] (by decide) (by decide)
  obtain ⟨q, hq, codeQ⟩ := refused [7] (by decide) (by decide)
  have apart : (move [3, 4]).amount ≠ (move [7]).amount := by decide
  refine ⟨_, _, r, q, hr, hq, codeR, codeQ, apart, fun same => ?_⟩
  exact apart ((texts_tell_coins.2.1 _ _ r q hr hq).2 codeR codeQ same).2

end Ledger

end TestChain
