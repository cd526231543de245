import TestChain.Proofs.App.Moving

/-!
# The bytes of a transfer

A transfer is written as the compact text of one object (`Transfer.json`) and read back from it,
whatever its coins are: out of order, with a denomination listed twice, empty or full of control
characters. So different transfers have different transactions. A block never takes one of them for
a transaction that is no transfer, which succeeds without an event: a transfer that succeeds has
its event, and one that is refused has the code of its refusal (`Transfer.tx_lossless`).
-/

namespace TestChain

namespace Transfer

/-- The object that is written for a transfer. -/
def json (t : Transfer) : Json :=
  .obj [
    ("type", .str "transfer"),
    ("from", .str t.sender.text),
    ("to", .str t.recipient.text),
    ("amount", .arr (t.amount.toList.map fun c =>
      .obj [("denom", .str c.denom), ("amount", .nat c.amount)]))]

/-- The transaction of a transfer has the text of its object. -/
theorem tx_eq (t : Transfer) : t.tx = t.json.compact.toUTF8 := rfl

/-- Different transfers have different transactions. -/
theorem tx_injective : Function.Injective tx := fun t u same => by
  have read := congrArg ofTx? same
  rw [ofTx?_tx, ofTx?_tx] at read
  exact Option.some.inj read

end Transfer

namespace Ledger

/-- The result of a transaction tells whether it is a transfer: only one that is none succeeds
without an event. -/
theorem execute_eq_success_nil_iff (tx : Tx) (s : Store) :
    (execute tx s).1 = .success tx [] ↔ Transfer.ofTx? tx = none := by
  cases ht : Transfer.ofTx? tx with
  | none =>
    unfold execute
    rw [ht]
    exact iff_of_true rfl rfl
  | some t =>
    refine iff_of_false (fun same => ?_) (Option.some_ne_none t)
    cases hr : transfer t s with
    | ok u s' =>
      rw [execute_of_ok ht hr] at same
      exact List.cons_ne_nil _ _ (congrArg TxResult.events same)
    | error e s' =>
      rw [execute_of_error ht hr] at same
      exact refusal_code_ne tx e (congrArg TxResult.code same)

end Ledger

namespace Transfer

/-- Every transfer is read back from its transaction, which is the text of its object, and different
transfers have different transactions. In whatever block a transaction is executed, its result is
that of a transaction that does nothing exactly if it is no transfer. -/
theorem tx_lossless :
    (∀ t : Transfer, t.tx = t.json.compact.toUTF8 ∧ ofTx? t.tx = some t) ∧
      Function.Injective tx ∧
      ∀ (txs : List Tx) (s : Store) (i : Nat) (tx : Tx), txs[i]? = some tx →
        ∃ r, (Ledger.executeAll txs s).1[i]? = some r ∧
          (r = .success tx [] ↔ ofTx? tx = none) := by
  refine ⟨fun t => ⟨t.tx_eq, t.ofTx?_tx⟩, tx_injective, fun txs s i tx queued => ?_⟩
  obtain ⟨hi, rfl⟩ := List.getElem?_eq_some_iff.1 queued
  exact ⟨_, Ledger.getElem?_executeAll hi s, Ledger.execute_eq_success_nil_iff _ _⟩

/-- Bytes that are no text of an object are no transfer. -/
example : ofTx? "txA".toUTF8 = none := by decide

end Transfer

end TestChain
