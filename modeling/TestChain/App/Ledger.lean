import TestChain.App.Error
import TestChain.App.Transfer
import TestChain.Genesis.Validation
import TestChain.Staking
import TestChain.Store

/-!
# The ledger

The ledger is the application's state as it lies in a store: accounts, balances, the supply,
validators, delegations, signing infos and the genesis states of modules, each under keys with a
beginning of its own. Queries read a store; a `Ledger.Action` changes one, and what it wrote before
an error stays written.
-/

namespace TestChain

namespace Ledger

/-! ## Keys -/

/-- The beginning of the keys of accounts. -/
def accountLead : Bytes := Bytes.ofString "acc/"

/-- The beginning of the keys of balances. -/
def balanceLead : Bytes := Bytes.ofString "bal/"

/-- The beginning of the keys of validators. -/
def validatorLead : Bytes := Bytes.ofString "val/"

/-- The beginning of the keys of delegations. -/
def delegationLead : Bytes := Bytes.ofString "del/"

/-- The beginning of the keys of signing infos. -/
def signingInfoLead : Bytes := Bytes.ofString "sig/"

/-- The beginning of the keys of the genesis states of modules. -/
def moduleLead : Bytes := Bytes.ofString "mod/"

/-- The key of the supply. -/
def supplyKey : Bytes := Bytes.ofString "supply"

/-- The key of an account. -/
def accountKey (a : AccountAddress) : Bytes := accountLead ++ a.bytes.toList

/-- The key of the balances of an account. -/
def balanceKey (a : AccountAddress) : Bytes := balanceLead ++ a.bytes.toList

/-- The key of a validator. -/
def validatorKey (a : ValidatorAddress) : Bytes := validatorLead ++ a.bytes.toList

/-- The key of a delegation. -/
def delegationKey (delegator : AccountAddress) (validator : ValidatorAddress) : Bytes :=
  delegationLead ++ delegator.bytes.toList ++ validator.bytes.toList

/-- The key of a signing info. -/
def signingInfoKey (a : ConsensusAddress) : Bytes := signingInfoLead ++ a.bytes.toList

/-- The key of the genesis state of a module. -/
def moduleKey (name : String) : Bytes := moduleLead ++ Bytes.ofString name

/-! ## Queries -/

/-- The result of reading a store. -/
abbrev Query (α : Type) := Store → Except AppError α

/-- The value of a key, as one of a type. -/
def value? {α : Type} (c : Codec α) (k : Bytes) : Query (Option α) :=
  fun s => (s.read? c k).mapError .json

/-- The values of the keys that begin with some bytes, as values of a type. -/
def values {α : Type} (c : Codec α) (lead : Bytes) : Query (List α) :=
  fun s => (s.readAll c lead).mapError .json

/-- The account of an address. -/
def account? (a : AccountAddress) : Query (Option Account) :=
  value? Account.codec (accountKey a)

/-- The balances of an account; it need not have any. -/
def balances (a : AccountAddress) : Query Coins :=
  fun s => (·.getD .empty) <$> value? Coins.codec (balanceKey a) s

/-- The balance of an account in a denomination. -/
def balance (a : AccountAddress) (denom : String) : Query UInt64 :=
  fun s => (·.amountOf denom) <$> balances a s

/-- The supply. -/
def supply : Query Coins :=
  fun s => (·.getD .empty) <$> value? Coins.codec supplyKey s

/-- The sum of the balances of all accounts. -/
def totalBalances : Query Coins :=
  fun s => (·.foldl Coins.add .empty) <$> values Coins.codec balanceLead s

/-- The delegations, in the order of their keys. -/
def delegations : Query (List Delegation) :=
  values Delegation.codec delegationLead

/-- The validators, in the order of their addresses. -/
def validators : Query (List Validator) :=
  values Validator.codec validatorLead

/-- The validator of an operator. -/
def validator? (a : ValidatorAddress) : Query (Option Validator) :=
  value? Validator.codec (validatorKey a)

/-- The signing info of a validator. -/
def signingInfo? (a : ConsensusAddress) : Query (Option SigningInfo) :=
  value? SigningInfo.codec (signingInfoKey a)

/-- The genesis state of a module. -/
def moduleState? (name : String) : Query (Option Json) :=
  value? Codec.json (moduleKey name)

/-! ## Actions -/

/-- A change of the ledger, which may fail on the way. -/
abbrev Action (α : Type) := EStateM AppError Store α

/-- Asks for something. -/
def ask {α : Type} (q : Query α) : Action α := fun s =>
  match q s with
  | .ok a => .ok a s
  | .error e => .error e s

/-- Writes a value of a type under a key. -/
def put {α : Type} (c : Codec α) (k : Bytes) (a : α) : Action Unit :=
  modify fun s => s.write c k a

/-- Refuses coins with an invalid denomination. -/
def checkCoins (cs : Coins) : Action Unit := fun s =>
  match cs.check with
  | .ok _ => .ok () s
  | .error e => .error (.coins e) s

/-- Opens an account for an address that has none; its number is the count of accounts so far. -/
def ensureAccount (a : AccountAddress) : Action Unit := do
  let s ← get
  if !s.contains (accountKey a) then
    put Account.codec (accountKey a) (.fresh a (UInt64.ofNat (s.scan accountLead).length))

/-- Creates coins on an account. -/
def mint (a : AccountAddress) (cs : Coins) : Action Unit := do
  checkCoins cs
  let held ← ask (balances a)
  put Coins.codec (balanceKey a) (held.add cs)
  let total ← ask supply
  put Coins.codec supplyKey (total.add cs)
  ensureAccount a

/-- The coins that are left when others are taken one at a time, if there are enough of each. -/
def subAll? (held : Coins) (cs : Coins) : Option Coins :=
  cs.toList.foldlM Coins.sub? held

/-- Moves coins between two accounts. -/
def transfer (t : Transfer) : Action Unit := do
  checkCoins t.amount
  let held ← ask (balances t.sender)
  match subAll? held t.amount with
  | none => throw (.insufficientFunds t.sender t.amount)
  | some rest =>
    put Coins.codec (balanceKey t.sender) rest
    let received ← ask (balances t.recipient)
    put Coins.codec (balanceKey t.recipient) (received.add t.amount)
    ensureAccount t.recipient

/-- The result code of a transfer that cannot be paid. -/
def insufficientFundsCode : UInt32 := 5

/-- The result code of a transfer that is refused for another reason. -/
def invalidRequestCode : UInt32 := 18

/-- The result of a transfer that was refused. -/
def refusal (tx : Tx) : AppError → TxResult
  | .insufficientFunds address needed =>
    .failure tx insufficientFundsCode bankModule
      ("insufficient funds on " ++ address.text ++ ": needed " ++ needed.text)
  | e => .failure tx invalidRequestCode "sdk" e.message

/-- Executes a transaction. One that is no transfer does nothing. -/
def execute (tx : Tx) (s : Store) : TxResult × Store :=
  match Transfer.ofTx? tx with
  | none => (.success tx [], s)
  | some t =>
    match transfer t s with
    | .ok _ s => (.success tx [t.event], s)
    | .error e s => (refusal tx e, s)

/-- Executes transactions in order. -/
def executeAll : List Tx → Store → List TxResult × Store
  | [], s => ([], s)
  | tx :: rest, s =>
    let (r, s) := execute tx s
    let (rs, s) := executeAll rest s
    (r :: rs, s)

/-- The signing info with one vote more counted. -/
def countVote (i : SigningInfo) (flag : VoteFlag) : SigningInfo :=
  { i with
    indexOffset := i.indexOffset + 1
    missedBlocks := if flag = .commit then i.missedBlocks else i.missedBlocks + 1 }

/-- Counts a vote; that of an unknown validator does not count. -/
def recordVote (v : Vote) : Action Unit := do
  match ← ask (signingInfo? v.validator) with
  | none => pure ()
  | some i => put SigningInfo.codec (signingInfoKey v.validator) (countVote i v.flag)

/-- Counts the votes for a block. -/
def recordVotes (votes : List Vote) : Action Unit :=
  votes.forM recordVote

/-- Replaces the signing info of a known validator. -/
def setSigningInfo (i : SigningInfo) : Action Unit := do
  let known ← ask validators
  if known.any fun v => v.consensusAddress = i.address then
    put SigningInfo.codec (signingInfoKey i.address) i
  else
    throw (.unknownValidator i.address)

/-! ## Genesis -/

/-- The changes of voting power with which a chain begins. -/
def updates (vs : List Validator) : List ValidatorUpdate :=
  (vs.filter Validator.isBonded).map fun v => ⟨v.consensusKey, v.votingPower⟩

/-- The typed states that the ledger begins with. -/
structure Opening where
  /-- The accounts. -/
  auth : AuthState
  /-- The balances and the supply. -/
  bank : BankState
  /-- The validators and the delegations. -/
  staking : StakingState
  /-- The signing infos. -/
  slashing : SlashingState

/-- Decodes the states that the ledger begins with. -/
def Opening.ofDocument (d : GenesisDocument) : Except GenesisError Opening := do
  return {
    auth := ← d.get authModule AuthState.codec
    bank := ← d.get bankModule BankState.codec
    staking := ← d.get stakingModule StakingState.codec
    slashing := ← d.getD slashingModule SlashingState.codec .fresh }

/-- Writes the states that the ledger begins with. -/
def putOpening (o : Opening) : Action Unit := do
  o.auth.accounts.forM fun a => put Account.codec (accountKey a.address) a
  o.bank.balances.forM fun b => put Coins.codec (balanceKey b.address) b.coins
  put Coins.codec supplyKey o.bank.supply
  o.staking.validators.forM fun v => put Validator.codec (validatorKey v.operatorAddress) v
  o.staking.delegations.forM fun d => put Delegation.codec (delegationKey d.delegator d.validator) d
  o.slashing.signingInfos.forM fun i => put SigningInfo.codec (signingInfoKey i.address) i

/-- Writes a genesis document; gives the validators that take part from the beginning. -/
def applyGenesis (d : GenesisDocument) : Action (List ValidatorUpdate) := do
  match Opening.ofDocument d with
  | .error e => throw (.invalidGenesis e)
  | .ok o =>
    putOpening o
    d.modules.forM fun m => put Codec.json (moduleKey m.1) m.2
    return updates o.staking.validators

end Ledger

end TestChain
