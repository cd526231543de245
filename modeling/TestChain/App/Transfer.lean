import TestChain.Block.Message
import TestChain.Codec.Union
import TestChain.Coin
import TestChain.Text.Utf8

/-!
# Transfers

The one kind of transaction that the application understands moves coins between two accounts. It is
written as JSON text (`Transfer.tx`) and read back by `Transfer.ofTx?`; any other byte string is a
transaction that does nothing. Each byte of a transaction costs gas.
-/

namespace TestChain

/-- The gas that a byte of a transaction costs. -/
def gasPerByte : Nat := 10

/-- The gas that a transaction costs, at most the largest signed word. -/
def gasOf (tx : Tx) : Int64 :=
  Int64.ofNat (min (gasPerByte * tx.size) (9223372036854775807))

/-- A movement of coins between two accounts. -/
structure Transfer where
  /-- The account that pays. -/
  sender : AccountAddress
  /-- The account that is paid. -/
  recipient : AccountAddress
  /-- The coins. -/
  amount : Coins
  deriving DecidableEq, Repr

namespace Transfer

/-- The fields of a transfer. -/
def fields : Fields Transfer :=
  (Fields.and (.required "from" (Address.codec .account)) <|
    .and (.required "to" (Address.codec .account)) (.required "amount" Coins.codec)).map
    (fun (s, r, a) => ⟨s, r, a⟩) (fun t => (t.sender, t.recipient, t.amount))

/-- Transfers are written as a choice of messages, of which there is no other. -/
def codec : Codec Transfer :=
  .union "type" [.record "transfer" fields id] fun t => ("transfer", fields.write t)

/-- The transaction of a transfer. -/
def tx (t : Transfer) : Tx :=
  (codec.text t).toUTF8

/-- The transfer that a transaction stands for, if it stands for one. -/
def ofTx? (tx : Tx) : Option Transfer :=
  (codec.ofChars (Text.ofUtf8 tx)).toOption

/-- The event of a transfer. -/
def event (t : Transfer) : Event :=
  .ofFacts "transfer"
    [("sender", t.sender.text), ("recipient", t.recipient.text), ("amount", t.amount.text)]

end Transfer

namespace TxResult

/-- The result of a transaction that succeeded. -/
def success (tx : Tx) (events : List Event) : TxResult :=
  { done with gasWanted := gasOf tx, gasUsed := gasOf tx, events := events }

/-- The result of a transaction that failed. -/
def failure (tx : Tx) (code : UInt32) (codespace log : String) : TxResult :=
  { done with
    code := code, log := log, gasWanted := gasOf tx, gasUsed := gasOf tx, codespace := codespace }

end TxResult

end TestChain
