import TestChain.Key
import TestChain.Word
import TestChain.Codec.Record

/-!
# Block contexts

A `BlockContext` is what the chain knows of a block before its transactions: height, time, proposer
and the votes for the block before. Times count milliseconds and stop at the largest word.
-/

namespace TestChain

/-- The time some seconds later. -/
def addSeconds (time seconds : UInt64) : UInt64 :=
  Word.addSat time (Word.mulSat seconds 1000)

/-- How a validator voted. -/
inductive VoteFlag where
  /-- Nothing is known. -/
  | unknown
  /-- It did not vote. -/
  | absent
  /-- It voted for the block. -/
  | commit
  /-- It voted for no block. -/
  | nothing
  deriving DecidableEq, Repr

namespace VoteFlag

/-- The name of a flag. -/
def name : VoteFlag → String
  | .unknown => "Unknown"
  | .absent => "Absent"
  | .commit => "Commit"
  | .nothing => "Nil"

/-- The flag of a name. -/
def ofName? : String → Option VoteFlag
  | "Unknown" => some .unknown
  | "Absent" => some .absent
  | "Commit" => some .commit
  | "Nil" => some .nothing
  | _ => none

/-- Flags are written by name. -/
def codec : Codec VoteFlag := .enumeration name ofName?

end VoteFlag

/-- A validator's vote. -/
structure Vote where
  /-- The validator. -/
  validator : ConsensusAddress
  /-- Its voting power. -/
  power : Int64
  /-- How it voted. -/
  flag : VoteFlag
  deriving DecidableEq, Repr

/-- Votes are written as records. -/
def Vote.codec : Codec Vote :=
  .record <|
    (Fields.and (.required "validator" (Address.codec .consensus)) <|
      .and (.required "power" .int64) (.required "block_id_flag" VoteFlag.codec)).map
      (fun (v, p, f) => ⟨v, p, f⟩) (fun v => (v.validator, v.power, v.flag))

/-- The voting power with which a proposer votes for the block before its own. -/
def proposerPower : Int64 := 1000

/-- What is known of a block before its transactions. -/
structure BlockContext where
  /-- The name of the chain. -/
  chainId : String
  /-- The height. -/
  height : UInt64
  /-- The time in milliseconds. -/
  time : UInt64
  /-- The proposer, if the block has one. -/
  proposer : Option ConsensusAddress
  /-- The votes for the block before. -/
  votes : List Vote
  deriving DecidableEq, Repr

namespace BlockContext

/-- The context in which a chain begins. -/
def genesis (chainId : String) (time : UInt64) : BlockContext :=
  ⟨chainId, 0, time, none, []⟩

/-- The context of the next block, some seconds later, without a proposer. -/
def next (c : BlockContext) (seconds : UInt64) : BlockContext :=
  ⟨c.chainId, c.height + 1, addSeconds c.time seconds, none, []⟩

/-- The context with a proposer and votes. -/
def withProposer (c : BlockContext) (proposer : ConsensusAddress) (votes : List Vote) :
    BlockContext :=
  { c with proposer := some proposer, votes := votes }

/-- Whether no block has been made yet. -/
def isGenesis (c : BlockContext) : Bool :=
  c.height = 0

/-- Contexts are written as records. -/
def codec : Codec BlockContext :=
  .record <|
    (Fields.and (.required "chain_id" .string) <|
      .and (.required "height" .uint64) <|
      .and (.required "time" .uint64) <|
      .and (.optional "proposer" (Address.codec .consensus))
        (.required "vote_infos" (.list Vote.codec))).map
      (fun (c, h, t, p, v) => ⟨c, h, t, p, v⟩)
      (fun c => (c.chainId, c.height, c.time, c.proposer, c.votes))

end BlockContext

end TestChain
