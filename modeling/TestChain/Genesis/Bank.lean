import TestChain.Coin
import TestChain.Key

/-!
# The state of the bank module

The balances of the accounts and the supply, which is to be their sum. `BankState.sumBalances?` adds
the balances up and gives nothing when an amount would not fit in a word.
-/

namespace TestChain

/-- The parameters of the bank. -/
structure BankParams where
  /-- Whether coins can be sent. -/
  defaultSendEnabled : Bool
  deriving DecidableEq, Repr

namespace BankParams

/-- The parameters of a fresh chain. -/
def fresh : BankParams := ⟨true⟩

/-- Parameters are written as records. -/
def codec : Codec BankParams :=
  .record <| (Fields.required "default_send_enabled" .bool).map (⟨·⟩) defaultSendEnabled

end BankParams

/-- The coins of an address. -/
structure Balance where
  /-- The address. -/
  address : AccountAddress
  /-- The coins. -/
  coins : Coins
  deriving DecidableEq, Repr

/-- Balances are written as records. -/
def Balance.codec : Codec Balance :=
  .record <|
    (Fields.and (.required "address" (Address.codec .account)) (.required "coins" Coins.codec)).map
      (fun (a, c) => ⟨a, c⟩) (fun b => (b.address, b.coins))

/-- The state of the bank module. -/
structure BankState where
  /-- The parameters. -/
  params : BankParams
  /-- The balances, in order. -/
  balances : List Balance
  /-- The supply. -/
  supply : Coins
  deriving DecidableEq, Repr

namespace BankState

/-- The state of a fresh chain. -/
def fresh : BankState := ⟨.fresh, [], .empty⟩

/-- States are written as records whose fields may be missing. -/
def codec : Codec BankState :=
  .record <|
    (Fields.and (.defaulted "params" BankParams.codec fresh.params) <|
      .and (.defaulted "balances" (.list Balance.codec) fresh.balances)
        (.defaulted "supply" Coins.codec fresh.supply)).map
      (fun (p, b, s) => ⟨p, b, s⟩) (fun s => (s.params, s.balances, s.supply))

/-- A sum with a coin added, if its amount fits. -/
def addCoin? (total : Coins) (c : Coin) : Option Coins :=
  match Word.add? (total.amountOf c.denom) c.amount with
  | some _ => some (total.addCoin c)
  | none => none

/-- The sum of all balances, if every amount fits. -/
def sumBalances? (s : BankState) : Option Coins :=
  (s.balances.flatMap fun b => b.coins.toList).foldlM addCoin? .empty

/-- The first balance of an address. -/
def balanceOf? (s : BankState) (address : AccountAddress) : Option Coins :=
  (s.balances.find? fun b => b.address = address).map Balance.coins

end BankState

end TestChain
