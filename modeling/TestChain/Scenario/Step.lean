import TestChain.Codec.Union
import TestChain.Text.Blank
import TestChain.Text.Quoted

/-!
# Steps of a scenario

A `Step` drives a chain or states what is to hold of it. `Step.codec` reads and writes steps,
`Step.shown` writes one as it stands in logs. Amounts are read from numbers and from texts of digits
alike (`amountOf`).
-/

namespace TestChain

/-! ## Amounts -/

/-- The amount that a text stands for: digits, after a plus sign or not, white space around them
aside. -/
def amountOfText (s : String) : Decoding UInt64 :=
  match Text.readBounded? 10 UInt64.size (Text.trim s.toList) with
  | some n => return UInt64.ofNat n
  | none => throw (.ofReason ("invalid amount " ++ Text.quoted s))

/-- The amount that a whole number stands for. -/
def amountOfInt (n : Int) : Decoding UInt64 :=
  if n < 0 then throw (.ofReason ("negative amount " ++ toString n))
  else return UInt64.ofNat n.toNat

/-- The amount that a node stands for, once the type of a scalar is settled. -/
def amountOf (n : Node) : Decoding UInt64 := do
  match ← n.buffered with
  | .num (.whole n _) => amountOfInt n
  | .str s => amountOfText s
  | _ => throw .malformed

/-- Amounts are written as numbers. -/
def amountCodec : Codec UInt64 := ⟨.nat, amountOf⟩

/-- Bounds of amounts may be left out. One that is left out is written as `null`, which is no amount
when it is read. -/
def boundCodec : Codec (Option UInt64) where
  encode
    | none => .null
    | some n => .nat n
  decode n := some <$> amountOf n

/-! ## Showing -/

/-- A record as it is shown: its name and then its fields in braces. -/
def shownRecord (name : String) (fields : List (String × String)) : String :=
  name ++ " \x7b " ++ String.intercalate ", " (fields.map fun f => f.1 ++ ": " ++ f.2) ++ " \x7d"

/-- An optional value as it is shown. -/
def shownOption {α : Type} (shown : α → String) : Option α → String
  | none => "None"
  | some a => "Some(" ++ shown a ++ ")"

/-- A word as it is shown. -/
def shownWord (n : UInt64) : String :=
  toString n.toNat

/-- A truth value as it is shown. -/
def shownBool (b : Bool) : String :=
  if b then "true" else "false"

/-! ## Expectations -/

/-- What is expected of the end of a block. -/
structure Expectation where
  /-- The number of transactions. -/
  txs : Option UInt64
  /-- The number of transactions that fail. -/
  failed : Option UInt64
  /-- Whether the proposal is rejected. -/
  rejected : Bool
  deriving DecidableEq, Repr

namespace Expectation

/-- Nothing is expected but that the block is committed. -/
def none : Expectation := ⟨.none, .none, false⟩

/-- Expectations are written as records whose fields may be missing. -/
def codec : Codec Expectation :=
  .record <|
    (Fields.and (.defaulted "txs" Codec.uint64.option .none) <|
      .and (.defaulted "failed" Codec.uint64.option .none) (.defaulted "rejected" .bool false)).map
      (fun (t, f, r) => ⟨t, f, r⟩) (fun e => (e.txs, e.failed, e.rejected))

/-- An expectation as it is shown. -/
def shown (e : Expectation) : String :=
  shownRecord "EndBlockExpect"
    [("txs", shownOption shownWord e.txs), ("failed", shownOption shownWord e.failed),
      ("rejected", shownBool e.rejected)]

end Expectation

/-! ## Steps -/

/-- A transfer in the bonded denomination between named accounts. -/
structure NamedTransfer where
  /-- The account that pays. -/
  sender : String
  /-- The account that is paid. -/
  recipient : String
  /-- The amount. -/
  amount : UInt64
  deriving DecidableEq, Repr

/-- What is to hold of the balance of a named account. -/
structure BalanceBounds where
  /-- The account. -/
  account : String
  /-- The denomination, if it is not the bonded one. -/
  denom : Option String
  /-- The balance itself. -/
  equal : Option UInt64
  /-- The least balance. -/
  atLeast : Option UInt64
  /-- The greatest balance. -/
  atMost : Option UInt64
  deriving DecidableEq, Repr

/-- Whether nothing is said about the balance. -/
def BalanceBounds.isEmpty (b : BalanceBounds) : Bool :=
  b.equal.isNone && b.atLeast.isNone && b.atMost.isNone

/-- A step of a scenario. -/
inductive Step where
  /-- Opens a block, some seconds after the last or at the beginning of an epoch. -/
  | beginBlock (epoch : Bool) (seconds : UInt64)
  /-- Queues the bytes of a text as a transaction. -/
  | execute (tx : String)
  /-- Queues a transfer. -/
  | transfer (t : NamedTransfer)
  /-- Closes the block. -/
  | endBlock (expect : Option Expectation)
  /-- Makes a number of empty blocks. -/
  | skipBlocks (count : UInt64)
  /-- Makes an empty block some seconds after the last. -/
  | increaseTime (seconds : UInt64)
  /-- Credits the accounts of the validators. -/
  | fundValidators
  /-- Makes the application reject the next proposal. -/
  | rejectNextProposal
  /-- States the height. -/
  | assertHeight (height : UInt64)
  /-- States how many seconds the chain has gone on. -/
  | assertTimeOffset (seconds : UInt64)
  /-- States bounds of a balance. -/
  | assertBalance (bounds : BalanceBounds)
  deriving DecidableEq, Repr

namespace Step

/-- The seconds from a block to the next unless they are chosen. -/
def usualSeconds : UInt64 := 5

/-- The fields of the opening of a block. -/
def beginFields : Fields (Bool × UInt64) :=
  .and (.defaulted "epoch" .bool false) (.defaulted "seconds" .uint64 usualSeconds)

/-- The fields of a queued text. -/
def executeFields : Fields String := .required "tx" .string

/-- The fields of a transfer. -/
def transferFields : Fields NamedTransfer :=
  (Fields.and (.required "from" .string) <|
    .and (.required "to" .string) (.required "amount" amountCodec)).map
    (fun (s, r, a) => ⟨s, r, a⟩) (fun t => (t.sender, t.recipient, t.amount))

/-- The fields of the end of a block. -/
def endFields : Fields (Option Expectation) := .defaulted "expect" Expectation.codec.option none

/-- The field of a count of blocks. -/
def countFields : Fields UInt64 := .required "count" .uint64

/-- The field of a number of seconds. -/
def secondsFields : Fields UInt64 := .required "seconds" .uint64

/-- The field of a height. -/
def heightFields : Fields UInt64 := .required "eq" .uint64

/-- The fields of bounds of a balance. -/
def boundsFields : Fields BalanceBounds :=
  (Fields.and (.required "account" .string) <|
    .and (.defaulted "denom" Codec.string.option none) <|
    .and (.defaulted "eq" boundCodec none) <|
    .and (.defaulted "gte" boundCodec none) (.defaulted "lte" boundCodec none)).map
    (fun (a, d, e, g, l) => ⟨a, d, e, g, l⟩)
    (fun b => (b.account, b.denom, b.equal, b.atLeast, b.atMost))

/-- The choices of a step. -/
def variants : List (Variant Step) :=
  [.record "begin_block" beginFields fun (e, s) => beginBlock e s,
    .record "execute" executeFields execute,
    .record "transfer" transferFields transfer,
    .record "end_block" endFields endBlock,
    .record "skip_blocks" countFields skipBlocks,
    .record "increase_time" secondsFields increaseTime,
    .bare "fund_validators" fundValidators,
    .bare "reject_next_proposal" rejectNextProposal,
    .record "assert_height" heightFields assertHeight,
    .record "assert_time_offset" secondsFields assertTimeOffset,
    .record "assert_balance" boundsFields assertBalance]

/-- The tag and the members of a written step. -/
def members : Step → String × List (String × Json)
  | .beginBlock epoch seconds => ("begin_block", beginFields.write (epoch, seconds))
  | .execute tx => ("execute", executeFields.write tx)
  | .transfer t => ("transfer", transferFields.write t)
  | .endBlock expect => ("end_block", endFields.write expect)
  | .skipBlocks count => ("skip_blocks", countFields.write count)
  | .increaseTime seconds => ("increase_time", secondsFields.write seconds)
  | .fundValidators => ("fund_validators", [])
  | .rejectNextProposal => ("reject_next_proposal", [])
  | .assertHeight height => ("assert_height", heightFields.write height)
  | .assertTimeOffset seconds => ("assert_time_offset", secondsFields.write seconds)
  | .assertBalance bounds => ("assert_balance", boundsFields.write bounds)

/-- Steps are written as a choice of actions. -/
def codec : Codec Step := .union "action" variants members

/-- A step as it is shown. -/
def shown : Step → String
  | .beginBlock epoch seconds =>
    shownRecord "BeginBlock" [("epoch", shownBool epoch), ("seconds", shownWord seconds)]
  | .execute tx => shownRecord "Execute" [("tx", Text.quoted tx)]
  | .transfer t =>
    shownRecord "Transfer" [("from", Text.quoted t.sender), ("to", Text.quoted t.recipient),
      ("amount", shownWord t.amount)]
  | .endBlock expect => shownRecord "EndBlock" [("expect", shownOption Expectation.shown expect)]
  | .skipBlocks count => shownRecord "SkipBlocks" [("count", shownWord count)]
  | .increaseTime seconds => shownRecord "IncreaseTime" [("seconds", shownWord seconds)]
  | .fundValidators => "FundValidators"
  | .rejectNextProposal => "RejectNextProposal"
  | .assertHeight height => shownRecord "AssertHeight" [("eq", shownWord height)]
  | .assertTimeOffset seconds => shownRecord "AssertTimeOffset" [("seconds", shownWord seconds)]
  | .assertBalance b =>
    shownRecord "AssertBalance" [("account", Text.quoted b.account),
      ("denom", shownOption Text.quoted b.denom), ("eq", shownOption shownWord b.equal),
      ("gte", shownOption shownWord b.atLeast), ("lte", shownOption shownWord b.atMost)]

end Step

end TestChain
