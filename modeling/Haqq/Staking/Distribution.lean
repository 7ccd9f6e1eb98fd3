import Haqq.Staking.Keeper

/-!
# Distribution

The messages of the SDK's distribution module.  The coins of the community pool are in the account
of the module.
-/

namespace Haqq.Distribution

open Lib

variable (cfg : SdkConfig)

def withdrawDelegationRewards (delegator validator : Address) : SdkM Coins := do
  let staking := (← get).staking
  ensure (validator ∈ staking.validators) .notFound
  ensure ((staking.bonded delegator).get validator ≠ 0) .notFound
  Staking.withdrawDelegationRewards cfg delegator validator

def withdrawValidatorCommission (validator : Address) : SdkM Coins := do
  let distribution := (← get).distribution
  let commission := distribution.commission validator
  ensure (commission.isZero = false) .notFound
  Staking.payOut cfg (distribution.withdrawAddress validator) commission
  modify fun st => st.setDistribution { st.distribution with
    commission := Function.update st.distribution.commission validator 0 }
  return commission

/-- The module can have it disabled. -/
def setWithdrawAddr (enabled : Bool) (delegator withdrawAddr : Address) : SdkM Unit := do
  ensure (cfg.blocked withdrawAddr = false) .unauthorized
  ensure (enabled = true) .moduleDisabled
  modify fun st => st.setDistribution { st.distribution with
    withdrawAddr := Function.update st.distribution.withdrawAddr delegator (some withdrawAddr) }

def fundCommunityPool (depositor : Address) (amount : Nat) : SdkM Unit := do
  ensure (0 < amount) .invalidCoins
  Bank.sendCoinsFromAccountToModule cfg.toEnv depositor cfg.distributionModule
    (Tally.single .islm amount)

end Haqq.Distribution
