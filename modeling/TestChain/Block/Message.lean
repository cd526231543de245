import TestChain.Block.Context
import TestChain.Hash

/-!
# Block messages

The requests by which a block goes through the application and the responses it gives: a proposal is
prepared from the queued transactions, processed, finalized and committed. A transaction is a packed
byte string that the application alone understands.
-/

namespace TestChain

/-- A transaction. -/
abbrev Tx := ByteArray

/-- The sum of the sizes of some transactions. -/
def totalSize : List Tx → Nat
  | [] => 0
  | tx :: rest => tx.size + totalSize rest

/-! ## Consensus parameters -/

/-- The limits of a block. -/
structure BlockLimits where
  /-- The most bytes. -/
  maxBytes : Int64
  /-- The most gas; minus one for no limit. -/
  maxGas : Int64
  deriving DecidableEq, Repr

/-- Limits are written as records. -/
def BlockLimits.codec : Codec BlockLimits :=
  .record <|
    (Fields.and (.required "max_bytes" .int64) (.required "max_gas" .int64)).map
      (fun (b, g) => ⟨b, g⟩) (fun l => (l.maxBytes, l.maxGas))

/-- The parameters of the consensus. -/
structure ConsensusParams where
  /-- The limits of a block. -/
  block : BlockLimits
  deriving DecidableEq, Repr

namespace ConsensusParams

/-- Parameters are written as records. -/
def codec : Codec ConsensusParams :=
  .record <| (Fields.required "block" BlockLimits.codec).map (⟨·⟩) block

/-- The most bytes in a block. -/
def maxBlockBytes : Int64 := 22020096

/-- Parameters with a limit on the gas. -/
def fixedGas : ConsensusParams := ⟨⟨maxBlockBytes, 300000000⟩⟩

/-- Parameters without a limit on the gas. -/
def unlimitedGas : ConsensusParams := ⟨⟨maxBlockBytes, -1⟩⟩

end ConsensusParams

/-- A change of a validator's voting power. -/
structure ValidatorUpdate where
  /-- The key that the validator signs with. -/
  key : PublicKey
  /-- The new voting power. -/
  power : Int64
  deriving DecidableEq, Repr

/-- Updates are written as records. -/
def ValidatorUpdate.codec : Codec ValidatorUpdate :=
  .record <|
    (Fields.and (.required "pub_key" PublicKey.codec) (.required "power" .int64)).map
      (fun (k, p) => ⟨k, p⟩) (fun u => (u.key, u.power))

/-! ## Events and results -/

/-- A fact about an event. -/
structure Attribute where
  /-- What the fact is about. -/
  key : String
  /-- The fact. -/
  value : String
  /-- Whether events can be searched by it. -/
  index : Bool
  deriving DecidableEq, Repr

/-- Attributes are written as records. -/
def Attribute.codec : Codec Attribute :=
  .record <|
    (Fields.and (.required "key" .string) <|
      .and (.required "value" .string) (.required "index" .bool)).map
      (fun (k, v, i) => ⟨k, v, i⟩) (fun a => (a.key, a.value, a.index))

/-- Something that happened in a block. -/
structure Event where
  /-- The kind of event. -/
  kind : String
  /-- The facts about it. -/
  attributes : List Attribute
  deriving DecidableEq, Repr

namespace Event

/-- An event with searchable facts. -/
def ofFacts (kind : String) (facts : List (String × String)) : Event :=
  ⟨kind, facts.map fun f => ⟨f.1, f.2, true⟩⟩

/-- The first fact about a key. -/
def attribute? (e : Event) (key : String) : Option String :=
  (e.attributes.find? fun a => a.key = key).map Attribute.value

/-- Events are written as records. -/
def codec : Codec Event :=
  .record <|
    (Fields.and (.required "kind" .string) (.required "attributes" (.list Attribute.codec))).map
      (fun (k, as) => ⟨k, as⟩) (fun e => (e.kind, e.attributes))

end Event

/-- The result of a transaction. -/
structure TxResult where
  /-- Zero for success, else the number of the error. -/
  code : UInt32
  /-- The bytes returned. -/
  data : List UInt8
  /-- What went wrong. -/
  log : String
  /-- Further remarks. -/
  info : String
  /-- The gas asked for. -/
  gasWanted : Int64
  /-- The gas used. -/
  gasUsed : Int64
  /-- The events. -/
  events : List Event
  /-- The name space of the code. -/
  codespace : String
  deriving DecidableEq, Repr

namespace TxResult

/-- The result of a transaction that did nothing. -/
def done : TxResult := ⟨0, [], "", "", 0, 0, [], ""⟩

/-- Whether the transaction succeeded. -/
def isOk (r : TxResult) : Bool :=
  r.code = 0

/-- Results are written as records. -/
def codec : Codec TxResult :=
  .record <|
    (Fields.and (.required "code" .uint32) <|
      .and (.required "data" (.list .uint8)) <|
      .and (.required "log" .string) <|
      .and (.required "info" .string) <|
      .and (.required "gas_wanted" .int64) <|
      .and (.required "gas_used" .int64) <|
      .and (.required "events" (.list Event.codec)) (.required "codespace" .string)).map
      (fun (c, d, l, i, w, u, e, s) => ⟨c, d, l, i, w, u, e, s⟩)
      (fun r => (r.code, r.data, r.log, r.info, r.gasWanted, r.gasUsed, r.events, r.codespace))

end TxResult

/-! ## Requests and responses -/

/-- The request that begins a chain. -/
structure InitRequest where
  /-- The name of the chain. -/
  chainId : String
  /-- The time at which it begins. -/
  time : UInt64
  /-- The parameters of the consensus. -/
  consensusParams : ConsensusParams
  /-- The text of the genesis document. -/
  appState : ByteArray
  /-- The height of the first block. -/
  initialHeight : UInt64

/-- The response of a chain that begins. -/
structure InitResponse where
  /-- The validators and their voting powers. -/
  validators : List ValidatorUpdate
  /-- The hash of the first state. -/
  appHash : Hash

/-- The request to choose transactions for a proposal. -/
structure PrepareRequest where
  /-- The most bytes that the transactions may have. -/
  maxTxBytes : Int64
  /-- The queued transactions. -/
  txs : List Tx
  /-- The height of the block. -/
  height : UInt64
  /-- The time of the block. -/
  time : UInt64
  /-- The proposer of the block. -/
  proposer : Option ConsensusAddress

/-- The request to accept a proposal. -/
structure ProcessRequest where
  /-- The proposed transactions. -/
  txs : List Tx
  /-- The height of the block. -/
  height : UInt64
  /-- The time of the block. -/
  time : UInt64
  /-- The proposer of the block. -/
  proposer : Option ConsensusAddress

/-- The answer to a proposal. -/
inductive ProposalStatus where
  /-- No answer. -/
  | unknown
  /-- The proposal is accepted. -/
  | accept
  /-- The proposal is rejected. -/
  | reject
  deriving DecidableEq, Repr

namespace ProposalStatus

/-- The name of a status. -/
def name : ProposalStatus → String
  | .unknown => "Unknown"
  | .accept => "Accept"
  | .reject => "Reject"

/-- The status of a name. -/
def ofName? : String → Option ProposalStatus
  | "Unknown" => some .unknown
  | "Accept" => some .accept
  | "Reject" => some .reject
  | _ => none

/-- A status as text. -/
def text : ProposalStatus → String
  | .unknown => "UNKNOWN"
  | .accept => "ACCEPT"
  | .reject => "REJECT"

/-- Whether the proposal is accepted. -/
def isAccepted (s : ProposalStatus) : Bool :=
  s = .accept

/-- Statuses are written by name. -/
def codec : Codec ProposalStatus := .enumeration name ofName?

end ProposalStatus

/-- The request to execute a block. -/
structure FinalizeRequest where
  /-- The transactions. -/
  txs : List Tx
  /-- The height of the block. -/
  height : UInt64
  /-- The time of the block. -/
  time : UInt64
  /-- The proposer of the block. -/
  proposer : Option ConsensusAddress
  /-- The votes for the block before. -/
  votes : List Vote

/-- The outcome of a block. -/
structure FinalizeResponse where
  /-- The events of the block. -/
  events : List Event
  /-- The results of its transactions, in order. -/
  results : List TxResult
  /-- The changes of voting power. -/
  updates : List ValidatorUpdate
  /-- The hash of the state after the block. -/
  appHash : Hash
  deriving DecidableEq, Repr

end TestChain
