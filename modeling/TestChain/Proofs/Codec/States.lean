import TestChain.Genesis.Economy
import TestChain.Genesis.Staking
import TestChain.Genesis.Wasm
import TestChain.Proofs.Codec.Values

/-!
# Module states lose nothing

The codecs of the modules' states are faithful to all states, so a state comes back from the free
value that a document holds of it (`Codec.Faithful.ofJson`). No state has more than five containers
nested in one another.
-/

namespace TestChain

open Codec Fields

/-! ## Parameters -/

/-- The limits of transactions are decoded. -/
theorem AuthParams.faithful_codec (p : AuthParams) : AuthParams.codec.Faithful 1 p :=
  faithful_record <| .map (.and (faithful_required (faithful_uint64 _))
    (.and (faithful_required (faithful_uint64 _)) (.and (faithful_required (faithful_uint64 _))
      (faithful_required (faithful_uint64 _)) (by decide)) (by decide)) (by decide)) rfl

/-- The parameters of the bank are decoded. -/
theorem BankParams.faithful_codec (p : BankParams) : BankParams.codec.Faithful 1 p :=
  faithful_record <| .map (faithful_required (faithful_bool _)) rfl

/-- The parameters of staking are decoded. -/
theorem StakingParams.faithful_codec (p : StakingParams) : StakingParams.codec.Faithful 1 p :=
  faithful_record <| .map (.and (faithful_required (faithful_uint64 _))
    (.and (faithful_required (faithful_uint32 _)) (.and (faithful_required (faithful_uint32 _))
    (.and (faithful_required (faithful_uint32 _)) (.and (faithful_required (faithful_string _))
      (faithful_required p.minCommissionRate.faithful_codec) (by decide)) (by decide)) (by decide))
      (by decide)) (by decide)) rfl

/-- The parameters of slashing are decoded. -/
theorem SlashingParams.faithful_codec (p : SlashingParams) : SlashingParams.codec.Faithful 1 p :=
  faithful_record <| .map (.and (faithful_required (faithful_uint64 _))
    (.and (faithful_required p.minSignedPerWindow.faithful_codec)
    (.and (faithful_required (faithful_uint64 _))
    (.and (faithful_required p.doubleSignFraction.faithful_codec)
      (faithful_required p.downtimeFraction.faithful_codec) (by decide)) (by decide)) (by decide))
      (by decide)) rfl

/-- The rates of minting are decoded. -/
theorem Minter.faithful_codec (m : Minter) : Minter.codec.Faithful 1 m :=
  faithful_record <| .map (.and (faithful_required m.inflation.faithful_codec)
    (faithful_required m.annualProvisions.faithful_codec) (by decide)) rfl

/-- The parameters of minting are decoded. -/
theorem MintParams.faithful_codec (p : MintParams) : MintParams.codec.Faithful 1 p :=
  faithful_record <| .map (.and (faithful_required (faithful_string _))
    (.and (faithful_required p.inflationRateChange.faithful_codec)
    (.and (faithful_required p.inflationMax.faithful_codec)
    (.and (faithful_required p.inflationMin.faithful_codec)
    (.and (faithful_required p.goalBonded.faithful_codec)
      (faithful_required (faithful_uint64 _)) (by decide)) (by decide)) (by decide)) (by decide))
      (by decide)) rfl

/-- The parameters of distribution are decoded. -/
theorem DistributionParams.faithful_codec (p : DistributionParams) :
    DistributionParams.codec.Faithful 1 p :=
  faithful_record <| .map (.and (faithful_required p.communityTax.faithful_codec)
    (.and (faithful_required p.baseProposerReward.faithful_codec)
    (.and (faithful_required p.bonusProposerReward.faithful_codec)
      (faithful_required (faithful_bool _)) (by decide)) (by decide)) (by decide)) rfl

/-- The parameters of rewards are decoded. -/
theorem RewardsParams.faithful_codec (p : RewardsParams) : RewardsParams.codec.Faithful 1 p :=
  faithful_record <| .map (.and (faithful_required p.inflationRewardsRatio.faithful_codec)
    (.and (faithful_required p.txFeeRebateRatio.faithful_codec)
      (faithful_required (faithful_uint64 _)) (by decide)) (by decide)) rfl

/-- Accesses are decoded. -/
theorem Access.faithful_codec {d : Nat} (a : Access) : Access.codec.Faithful d a :=
  faithful_enumeration (by cases a <;> rfl)

/-- Accesses with lists are decoded; the list that is left out has no addresses. -/
theorem AccessConfig.faithful_codec (c : AccessConfig) : AccessConfig.codec.Faithful 2 c := by
  have hidden : c.addresses.isEmpty = true → some [] = some c.addresses := fun h => by
    rw [List.isEmpty_iff.1 h]
  exact faithful_record <| .map (.and (faithful_required c.permission.faithful_codec)
    (faithful_single (.list fun a _ => a.faithful_codec) hidden) (by decide)) rfl

/-- The parameters of contracts are decoded. -/
theorem WasmParams.faithful_codec (p : WasmParams) : WasmParams.codec.Faithful 3 p :=
  faithful_record <| .map (.and (faithful_required p.codeUploadAccess.faithful_codec)
    (faithful_required p.instantiatePermission.faithful_codec) (by decide)) rfl

/-! ## States -/

/-- The states of the auth module are decoded. -/
theorem AuthState.faithful_codec (s : AuthState) : AuthState.codec.Faithful 3 s :=
  faithful_record <| .map (.and (faithful_defaulted (s.params.faithful_codec.mono (by decide)))
    (faithful_defaulted (.list fun a _ => a.faithful_codec)) (by decide)) rfl

/-- The states of the bank module are decoded. -/
theorem BankState.faithful_codec (s : BankState) : BankState.codec.Faithful 5 s :=
  faithful_record <| .map (.and (faithful_defaulted (s.params.faithful_codec.mono (by decide)))
    (.and (faithful_defaulted (.list fun b _ => b.faithful_codec))
      (faithful_defaulted (s.supply.faithful_codec.mono (by decide))) (by decide)) (by decide)) rfl

/-- The states of the staking module are decoded. -/
theorem StakingState.faithful_codec (s : StakingState) : StakingState.codec.Faithful 5 s :=
  faithful_record <| .map (.and (faithful_defaulted (s.params.faithful_codec.mono (by decide)))
    (.and (faithful_defaulted (.list fun v _ => v.faithful_codec))
      (faithful_defaulted (.list fun x _ => x.faithful_codec.mono (by decide))) (by decide))
      (by decide)) rfl

/-- The states of the slashing module are decoded. -/
theorem SlashingState.faithful_codec (s : SlashingState) : SlashingState.codec.Faithful 3 s :=
  faithful_record <| .map (.and (faithful_defaulted (s.params.faithful_codec.mono (by decide)))
    (faithful_defaulted (.list fun i _ => i.faithful_codec)) (by decide)) rfl

/-- The states of the mint module are decoded. -/
theorem MintState.faithful_codec (s : MintState) : MintState.codec.Faithful 2 s :=
  faithful_record <| .map (.and (faithful_defaulted s.minter.faithful_codec)
    (faithful_defaulted s.params.faithful_codec) (by decide)) rfl

/-- The states of the distribution module are decoded. -/
theorem DistributionState.faithful_codec (s : DistributionState) :
    DistributionState.codec.Faithful 3 s :=
  faithful_record <| .map (.and (faithful_defaulted (s.params.faithful_codec.mono (by decide)))
    (faithful_defaulted s.communityPool.faithful_codec) (by decide)) rfl

/-- The states of the contract module are decoded. -/
theorem WasmState.faithful_codec (s : WasmState) : WasmState.codec.Faithful 4 s :=
  faithful_record <| .map (faithful_defaulted s.params.faithful_codec) rfl

/-- The states of the rewards module are decoded. -/
theorem RewardsState.faithful_codec (s : RewardsState) : RewardsState.codec.Faithful 2 s :=
  faithful_record <| .map (faithful_defaulted s.params.faithful_codec) rfl

end TestChain
