import TestChain.Key
import TestChain.Codec.Record

/-!
# The state of the auth module

The accounts of the chain, each with a number of its own and the count of transactions it signed,
and the limits of transactions.
-/

namespace TestChain

/-- The limits of transactions. -/
structure AuthParams where
  /-- The most characters in a memo. -/
  maxMemoCharacters : UInt64
  /-- The most signatures on a transaction. -/
  txSigLimit : UInt64
  /-- The cost of a byte of a transaction. -/
  txSizeCostPerByte : UInt64
  /-- The cost of verifying a signature. -/
  sigVerifyCost : UInt64
  deriving DecidableEq, Repr

namespace AuthParams

/-- The limits of a fresh chain. -/
def fresh : AuthParams := ⟨256, 7, 10, 590⟩

/-- Limits are written as records. -/
def codec : Codec AuthParams :=
  .record <|
    (Fields.and (.required "max_memo_characters" .uint64) <|
      .and (.required "tx_sig_limit" .uint64) <|
      .and (.required "tx_size_cost_per_byte" .uint64)
        (.required "sig_verify_cost_ed25519" .uint64)).map
      (fun (m, l, b, v) => ⟨m, l, b, v⟩)
      (fun p => (p.maxMemoCharacters, p.txSigLimit, p.txSizeCostPerByte, p.sigVerifyCost))

end AuthParams

/-- An account. -/
structure Account where
  /-- Its address. -/
  address : AccountAddress
  /-- Its public key, once it is known. -/
  publicKey : Option PublicKey
  /-- Its number. -/
  number : UInt64
  /-- The count of transactions it signed. -/
  sequence : UInt64
  deriving DecidableEq, Repr

namespace Account

/-- The account of an address that has signed nothing. -/
def fresh (address : AccountAddress) (number : UInt64) : Account :=
  ⟨address, none, number, 0⟩

/-- Accounts are written as records; the key may be missing. -/
def codec : Codec Account :=
  .record <|
    (Fields.and (.required "address" (Address.codec .account)) <|
      .and (.defaulted "pub_key" PublicKey.codec.option none) <|
      .and (.required "account_number" .uint64) (.required "sequence" .uint64)).map
      (fun (a, k, n, s) => ⟨a, k, n, s⟩) (fun a => (a.address, a.publicKey, a.number, a.sequence))

end Account

/-- The state of the auth module. -/
structure AuthState where
  /-- The limits of transactions. -/
  params : AuthParams
  /-- The accounts. -/
  accounts : List Account
  deriving DecidableEq, Repr

namespace AuthState

/-- The state of a fresh chain. -/
def fresh : AuthState := ⟨.fresh, []⟩

/-- States are written as records whose fields may be missing. -/
def codec : Codec AuthState :=
  .record <|
    (Fields.and (.defaulted "params" AuthParams.codec fresh.params)
      (.defaulted "accounts" (.list Account.codec) fresh.accounts)).map
      (fun (p, a) => ⟨p, a⟩) (fun s => (s.params, s.accounts))

end AuthState

end TestChain
