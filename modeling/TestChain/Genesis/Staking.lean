import TestChain.Staking
import TestChain.Word

/-!
# The states of the staking and slashing modules

The validators, the delegations to them and what is known of their signing.
-/

namespace TestChain

/-- The denomination that is bonded unless another one is chosen. -/
def defaultBondDenom : String := "ublk"

/-- The parameters of staking. -/
structure StakingParams where
  /-- The seconds it takes to leave. -/
  unbondingSeconds : UInt64
  /-- The most validators. -/
  maxValidators : UInt32
  /-- The most withdrawals under way. -/
  maxEntries : UInt32
  /-- The most past states kept. -/
  historicalEntries : UInt32
  /-- The denomination that is bonded. -/
  bondDenom : String
  /-- The least commission. -/
  minCommissionRate : Decimal
  deriving DecidableEq, Repr

namespace StakingParams

/-- The parameters of a fresh chain. -/
def fresh : StakingParams := ⟨1814400, 100, 7, 10000, defaultBondDenom, .zero⟩

/-- Parameters are written as records. -/
def codec : Codec StakingParams :=
  .record <|
    (Fields.and (.required "unbonding_time_seconds" .uint64) <|
      .and (.required "max_validators" .uint32) <|
      .and (.required "max_entries" .uint32) <|
      .and (.required "historical_entries" .uint32) <|
      .and (.required "bond_denom" .string) (.required "min_commission_rate" Decimal.codec)).map
      (fun (u, v, e, h, d, c) => ⟨u, v, e, h, d, c⟩)
      (fun p =>
        (p.unbondingSeconds, p.maxValidators, p.maxEntries, p.historicalEntries, p.bondDenom,
          p.minCommissionRate))

end StakingParams

/-- The state of the staking module. -/
structure StakingState where
  /-- The parameters. -/
  params : StakingParams
  /-- The validators, in order. -/
  validators : List Validator
  /-- The delegations, in order. -/
  delegations : List Delegation
  deriving DecidableEq, Repr

namespace StakingState

/-- The state of a fresh chain. -/
def fresh : StakingState := ⟨.fresh, [], []⟩

/-- States are written as records whose fields may be missing. -/
def codec : Codec StakingState :=
  .record <|
    (Fields.and (.defaulted "params" StakingParams.codec fresh.params) <|
      .and (.defaulted "validators" (.list Validator.codec) fresh.validators)
        (.defaulted "delegations" (.list Delegation.codec) fresh.delegations)).map
      (fun (p, v, d) => ⟨p, v, d⟩) (fun s => (s.params, s.validators, s.delegations))

/-- The sum of the tokens of the validators that take part, if it fits in a word. -/
def bondedTokens? (s : StakingState) : Option UInt64 :=
  (s.validators.filter Validator.isBonded).foldlM (fun sum v => Word.add? sum v.tokens) 0

end StakingState

/-- The parameters of slashing. -/
structure SlashingParams where
  /-- The blocks over which votes are counted. -/
  signedBlocksWindow : UInt64
  /-- The least share of votes in them. -/
  minSignedPerWindow : Decimal
  /-- The seconds for which a validator is shut out. -/
  jailSeconds : UInt64
  /-- The share that is lost for voting twice. -/
  doubleSignFraction : Decimal
  /-- The share that is lost for not voting. -/
  downtimeFraction : Decimal
  deriving DecidableEq, Repr

namespace SlashingParams

/-- The parameters of a fresh chain. -/
def fresh : SlashingParams :=
  ⟨100, .withPrecision 5 1, 600, .withPrecision 5 2, .withPrecision 1 2⟩

/-- Parameters are written as records. -/
def codec : Codec SlashingParams :=
  .record <|
    (Fields.and (.required "signed_blocks_window" .uint64) <|
      .and (.required "min_signed_per_window" Decimal.codec) <|
      .and (.required "downtime_jail_duration_seconds" .uint64) <|
      .and (.required "slash_fraction_double_sign" Decimal.codec)
        (.required "slash_fraction_downtime" Decimal.codec)).map
      (fun (w, m, j, s, t) => ⟨w, m, j, s, t⟩)
      (fun p => (p.signedBlocksWindow, p.minSignedPerWindow, p.jailSeconds, p.doubleSignFraction,
        p.downtimeFraction))

end SlashingParams

/-- The state of the slashing module. -/
structure SlashingState where
  /-- The parameters. -/
  params : SlashingParams
  /-- What is known of the validators' signing, in order. -/
  signingInfos : List SigningInfo
  deriving DecidableEq, Repr

namespace SlashingState

/-- The state of a fresh chain. -/
def fresh : SlashingState := ⟨.fresh, []⟩

/-- States are written as records whose fields may be missing. -/
def codec : Codec SlashingState :=
  .record <|
    (Fields.and (.defaulted "params" SlashingParams.codec fresh.params)
      (.defaulted "signing_infos" (.list SigningInfo.codec) fresh.signingInfos)).map
      (fun (p, i) => ⟨p, i⟩) (fun s => (s.params, s.signingInfos))

end SlashingState

end TestChain
