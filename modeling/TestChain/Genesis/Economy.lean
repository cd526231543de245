import TestChain.Coin
import TestChain.Genesis.Staking

/-!
# The states of the mint, distribution and rewards modules

How new coins come into being and who gets them.
-/

namespace TestChain

/-- The current rate of minting. -/
structure Minter where
  /-- The inflation in a year. -/
  inflation : Decimal
  /-- The coins minted in a year. -/
  annualProvisions : Decimal
  deriving DecidableEq, Repr

namespace Minter

/-- The rate of a fresh chain. -/
def fresh : Minter := ⟨.withPrecision 13 2, .zero⟩

/-- Rates are written as records. -/
def codec : Codec Minter :=
  .record <|
    (Fields.and (.required "inflation" Decimal.codec)
      (.required "annual_provisions" Decimal.codec)).map
      (fun (i, a) => ⟨i, a⟩) (fun m => (m.inflation, m.annualProvisions))

end Minter

/-- The parameters of minting. -/
structure MintParams where
  /-- The denomination that is minted. -/
  mintDenom : String
  /-- The largest change of the inflation in a year. -/
  inflationRateChange : Decimal
  /-- The largest inflation. -/
  inflationMax : Decimal
  /-- The least inflation. -/
  inflationMin : Decimal
  /-- The share of bonded coins that is aimed at. -/
  goalBonded : Decimal
  /-- The blocks in a year. -/
  blocksPerYear : UInt64
  deriving DecidableEq, Repr

namespace MintParams

/-- The parameters of a fresh chain. -/
def fresh : MintParams :=
  ⟨defaultBondDenom, .withPrecision 13 2, .withPrecision 20 2, .withPrecision 7 2,
    .withPrecision 67 2, 6311520⟩

/-- Parameters are written as records. -/
def codec : Codec MintParams :=
  .record <|
    (Fields.and (.required "mint_denom" .string) <|
      .and (.required "inflation_rate_change" Decimal.codec) <|
      .and (.required "inflation_max" Decimal.codec) <|
      .and (.required "inflation_min" Decimal.codec) <|
      .and (.required "goal_bonded" Decimal.codec) (.required "blocks_per_year" .uint64)).map
      (fun (d, c, x, n, g, b) => ⟨d, c, x, n, g, b⟩)
      (fun p => (p.mintDenom, p.inflationRateChange, p.inflationMax, p.inflationMin, p.goalBonded,
        p.blocksPerYear))

end MintParams

/-- The state of the mint module. -/
structure MintState where
  /-- The current rate. -/
  minter : Minter
  /-- The parameters. -/
  params : MintParams
  deriving DecidableEq, Repr

namespace MintState

/-- The state of a fresh chain. -/
def fresh : MintState := ⟨.fresh, .fresh⟩

/-- States are written as records whose fields may be missing. -/
def codec : Codec MintState :=
  .record <|
    (Fields.and (.defaulted "minter" Minter.codec fresh.minter)
      (.defaulted "params" MintParams.codec fresh.params)).map
      (fun (m, p) => ⟨m, p⟩) (fun s => (s.minter, s.params))

end MintState

/-- The parameters of distribution. -/
structure DistributionParams where
  /-- The share that goes to the community. -/
  communityTax : Decimal
  /-- The share of a proposer. -/
  baseProposerReward : Decimal
  /-- The further share of a proposer. -/
  bonusProposerReward : Decimal
  /-- Whether the address for withdrawals can be changed. -/
  withdrawAddrEnabled : Bool
  deriving DecidableEq, Repr

namespace DistributionParams

/-- The parameters of a fresh chain. -/
def fresh : DistributionParams := ⟨.withPrecision 2 2, .zero, .zero, true⟩

/-- Parameters are written as records. -/
def codec : Codec DistributionParams :=
  .record <|
    (Fields.and (.required "community_tax" Decimal.codec) <|
      .and (.required "base_proposer_reward" Decimal.codec) <|
      .and (.required "bonus_proposer_reward" Decimal.codec)
        (.required "withdraw_addr_enabled" .bool)).map
      (fun (t, b, o, w) => ⟨t, b, o, w⟩)
      (fun p =>
        (p.communityTax, p.baseProposerReward, p.bonusProposerReward, p.withdrawAddrEnabled))

end DistributionParams

/-- The state of the distribution module. -/
structure DistributionState where
  /-- The parameters. -/
  params : DistributionParams
  /-- The coins of the community. -/
  communityPool : Coins
  deriving DecidableEq, Repr

namespace DistributionState

/-- The state of a fresh chain. -/
def fresh : DistributionState := ⟨.fresh, .empty⟩

/-- States are written as records whose fields may be missing. -/
def codec : Codec DistributionState :=
  .record <|
    (Fields.and (.defaulted "params" DistributionParams.codec fresh.params)
      (.defaulted "community_pool" Coins.codec fresh.communityPool)).map
      (fun (p, c) => ⟨p, c⟩) (fun s => (s.params, s.communityPool))

end DistributionState

/-- The parameters of rewards. -/
structure RewardsParams where
  /-- The share of the minted coins that goes to contracts. -/
  inflationRewardsRatio : Decimal
  /-- The share of the fees that goes back. -/
  txFeeRebateRatio : Decimal
  /-- The most records withdrawn at once. -/
  maxWithdrawRecords : UInt64
  deriving DecidableEq, Repr

namespace RewardsParams

/-- The parameters of a fresh chain. -/
def fresh : RewardsParams := ⟨.withPrecision 2 1, .withPrecision 5 1, 25000⟩

/-- Parameters are written as records. -/
def codec : Codec RewardsParams :=
  .record <|
    (Fields.and (.required "inflation_rewards_ratio" Decimal.codec) <|
      .and (.required "tx_fee_rebate_ratio" Decimal.codec)
        (.required "max_withdraw_records" .uint64)).map
      (fun (i, t, m) => ⟨i, t, m⟩)
      (fun p => (p.inflationRewardsRatio, p.txFeeRebateRatio, p.maxWithdrawRecords))

end RewardsParams

/-- The state of the rewards module. -/
structure RewardsState where
  /-- The parameters. -/
  params : RewardsParams
  deriving DecidableEq, Repr

namespace RewardsState

/-- The state of a fresh chain. -/
def fresh : RewardsState := ⟨.fresh⟩

/-- States are written as records whose fields may be missing. -/
def codec : Codec RewardsState :=
  .record <| (Fields.defaulted "params" RewardsParams.codec fresh.params).map (⟨·⟩) params

end RewardsState

end TestChain
