import TestChain.Decimal
import TestChain.Key
import TestChain.Codec.Record

/-!
# Staking records

The records that the chain keeps of its validators: the validator itself with its commission, the
delegations to it and its signing info, which counts the blocks it proposed and missed.
-/

namespace TestChain

/-- Whether a validator takes part in the consensus. -/
inductive BondStatus where
  /-- It does not. -/
  | unbonded
  /-- It is leaving. -/
  | unbonding
  /-- It does. -/
  | bonded
  deriving DecidableEq, Repr

namespace BondStatus

/-- The name of a status. -/
def name : BondStatus → String
  | .unbonded => "unbonded"
  | .unbonding => "unbonding"
  | .bonded => "bonded"

/-- The status of a name. -/
def ofName? : String → Option BondStatus
  | "unbonded" => some .unbonded
  | "unbonding" => some .unbonding
  | "bonded" => some .bonded
  | _ => none

/-- Statuses are written by name. -/
def codec : Codec BondStatus := .enumeration name ofName?

end BondStatus

/-- The rates of a validator's commission. -/
structure CommissionRates where
  /-- The rate that is charged. -/
  rate : Decimal
  /-- The largest rate. -/
  maxRate : Decimal
  /-- The largest change of the rate in a day. -/
  maxChangeRate : Decimal
  deriving DecidableEq, Repr

namespace CommissionRates

/-- No commission. -/
def none : CommissionRates := ⟨.zero, .zero, .zero⟩

/-- Rates are written as records. -/
def codec : Codec CommissionRates :=
  .record <|
    (Fields.and (.required "rate" Decimal.codec) <|
      .and (.required "max_rate" Decimal.codec) (.required "max_change_rate" Decimal.codec)).map
      (fun (rate, maxRate, maxChangeRate) => ⟨rate, maxRate, maxChangeRate⟩)
      (fun r => (r.rate, r.maxRate, r.maxChangeRate))

end CommissionRates

/-- A validator's commission. -/
structure Commission where
  /-- The rates. -/
  rates : CommissionRates
  /-- When the rates last changed. -/
  updateTime : UInt64
  deriving DecidableEq, Repr

/-- Commissions are written as records. -/
def Commission.codec : Codec Commission :=
  .record <|
    (Fields.and (.required "rates" CommissionRates.codec) (.required "update_time" .uint64)).map
      (fun (rates, updateTime) => ⟨rates, updateTime⟩) (fun c => (c.rates, c.updateTime))

/-- A validator. -/
structure Validator where
  /-- The address of its operator. -/
  operatorAddress : ValidatorAddress
  /-- The key it signs with. -/
  consensusKey : PublicKey
  /-- Whether it is shut out. -/
  jailed : Bool
  /-- Whether it takes part. -/
  status : BondStatus
  /-- The tokens bonded to it. -/
  tokens : UInt64
  /-- The shares of its delegators. -/
  delegatorShares : Decimal
  /-- The height at which it began to leave. -/
  unbondingHeight : UInt64
  /-- The time at which it will have left. -/
  unbondingTime : UInt64
  /-- Its commission. -/
  commission : Commission
  /-- The least that its operator delegates. -/
  minSelfDelegation : UInt64
  deriving DecidableEq, Repr

namespace Validator

/-- The tokens that make one unit of voting power. -/
def powerReduction : UInt64 := 1000000

/-- Its address in the consensus. -/
def consensusAddress (v : Validator) : ConsensusAddress :=
  v.consensusKey.consensusAddress

/-- Whether it takes part in the consensus. -/
def isBonded (v : Validator) : Bool :=
  v.status = .bonded

/-- Its voting power: none unless it takes part and is not shut out. -/
def votingPower (v : Validator) : Int64 :=
  if v.jailed || !v.isBonded then 0 else (v.tokens / powerReduction).toInt64

/-- Validators are written as records. -/
def codec : Codec Validator :=
  .record <|
    (Fields.and (.required "operator_address" (Address.codec .validator)) <|
      .and (.required "consensus_pubkey" PublicKey.codec) <|
      .and (.required "jailed" .bool) <|
      .and (.required "status" BondStatus.codec) <|
      .and (.required "tokens" .uint64) <|
      .and (.required "delegator_shares" Decimal.codec) <|
      .and (.required "unbonding_height" .uint64) <|
      .and (.required "unbonding_time" .uint64) <|
      .and (.required "commission" Commission.codec)
        (.required "min_self_delegation" .uint64)).map
      (fun (a, k, j, s, t, d, h, u, c, m) => ⟨a, k, j, s, t, d, h, u, c, m⟩)
      (fun v => (v.operatorAddress, v.consensusKey, v.jailed, v.status, v.tokens, v.delegatorShares,
        v.unbondingHeight, v.unbondingTime, v.commission, v.minSelfDelegation))

end Validator

/-- A delegation of an account to a validator. -/
structure Delegation where
  /-- The account. -/
  delegator : AccountAddress
  /-- The validator's operator. -/
  validator : ValidatorAddress
  /-- The shares. -/
  shares : Decimal
  deriving DecidableEq, Repr

/-- Delegations are written as records. -/
def Delegation.codec : Codec Delegation :=
  .record <|
    (Fields.and (.required "delegator_address" (Address.codec .account)) <|
      .and (.required "validator_address" (Address.codec .validator))
        (.required "shares" Decimal.codec)).map
      (fun (d, v, s) => ⟨d, v, s⟩) (fun d => (d.delegator, d.validator, d.shares))

/-- How well a validator signs. -/
structure SigningInfo where
  /-- Its address in the consensus. -/
  address : ConsensusAddress
  /-- The height from which it is counted. -/
  startHeight : UInt64
  /-- The number of votes counted. -/
  indexOffset : UInt64
  /-- The time until which it is shut out. -/
  jailedUntil : UInt64
  /-- Whether it is shut out for good. -/
  tombstoned : Bool
  /-- The number of votes it missed. -/
  missedBlocks : UInt64
  deriving DecidableEq, Repr

namespace SigningInfo

/-- The info of a validator that nothing is known of. -/
def fresh (address : ConsensusAddress) (startHeight : UInt64) : SigningInfo :=
  ⟨address, startHeight, 0, 0, false, 0⟩

/-- Whether the validator is shut out at a time. -/
def isJailedAt (i : SigningInfo) (time : UInt64) : Bool :=
  time < i.jailedUntil

/-- Signing infos are written as records. -/
def codec : Codec SigningInfo :=
  .record <|
    (Fields.and (.required "address" (Address.codec .consensus)) <|
      .and (.required "start_height" .uint64) <|
      .and (.required "index_offset" .uint64) <|
      .and (.required "jailed_until" .uint64) <|
      .and (.required "tombstoned" .bool) (.required "missed_blocks_counter" .uint64)).map
      (fun (a, s, i, j, t, m) => ⟨a, s, i, j, t, m⟩)
      (fun i =>
        (i.address, i.startHeight, i.indexOffset, i.jailedUntil, i.tombstoned, i.missedBlocks))

end SigningInfo

end TestChain
