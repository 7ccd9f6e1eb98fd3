import Haqq.Authz.Grants
import Haqq.Vesting.Keeper

/-!
# Staking

The staking and distribution keepers of the SDK, as far as coins go, and the message server of
`x/staking`, which keeps clawback vesting accounts from delegating what has not vested.  Validators
are bonded and are not slashed, so a share is a token.
-/

namespace Haqq

open Lib Lib.Schedule Function

/-! ## State -/

namespace Staking

structure State where
  validators : Finset Address
  bonded : Address → Tally Address
  /-- The unbonding entries of a delegator by validator and creation height. -/
  unbonding : Address → Tally (Address × Int)

def State.delegated (s : State) (delegator : Address) : Nat :=
  (s.bonded delegator).sum + (s.unbonding delegator).sum

end Staking

namespace Distribution

structure State where
  rewards : Address → Address → Coins
  commission : Address → Coins
  withdrawAddr : Address → Option Address

def State.withdrawAddress (s : State) (delegator : Address) : Address :=
  (s.withdrawAddr delegator).getD delegator

end Distribution

structure SdkState where
  staking : Staking.State
  distribution : Distribution.State
  grants : Authz.GrantStore

/-- The vesting keeper reads the delegations of the staking keeper. -/
structure SdkConfig extends Config SdkState where
  bondedPool : Address
  notBondedPool : Address
  delegated_eq : ∀ s addr, delegated s addr = Tally.single .islm (s.staking.delegated addr)

def SdkConfig.atTime (cfg : SdkConfig) (now : Int) : SdkConfig := { cfg with blockTime := now }

abbrev SdkM := ModuleM SdkState

namespace Store

variable (st : ChainState SdkState)

def staking : Staking.State := st.modules.rest.staking

def distribution : Distribution.State := st.modules.rest.distribution

def grants : Authz.GrantStore := st.modules.rest.grants

def setRest (rest : SdkState) : ChainState SdkState :=
  { st with modules := { st.modules with rest := rest } }

def setStaking (staking : Staking.State) : ChainState SdkState :=
  st.setRest { st.modules.rest with staking := staking }

def setDistribution (distribution : Distribution.State) : ChainState SdkState :=
  st.setRest { st.modules.rest with distribution := distribution }

def setGrants (grants : Authz.GrantStore) : ChainState SdkState :=
  st.setRest { st.modules.rest with grants := grants }

section Fields

variable {st} (staking' : Staking.State) (distribution' : Distribution.State)
  (grants' : Authz.GrantStore)

@[simp] theorem setStaking_bank : (st.setStaking staking').bank = st.bank := rfl

@[simp] theorem setStaking_staking : (st.setStaking staking').staking = staking' := rfl

end Fields

end Store

namespace Staking

open Vesting

variable (cfg : SdkConfig)

def track (addr : Address) (note : ClawbackVestingAccount → Option ClawbackVestingAccount) :
    SdkM Unit := do
  let acct ← ofOption .notFound ((← get).accounts addr)
  match acct.kind with
  | .clawback codeHash va =>
    let va' ← ofOption .panic (note va)
    Vesting.setAccount addr { acct with kind := .clawback codeHash va' }
  | _ => pure ()

/-- `DelegateCoins` takes from the whole balance, locked or not. -/
def delegateCoins (delegator module : Address) (coins : Coins) : SdkM Unit := do
  let balance := (← get).bank.balance delegator
  liftBank .insufficientFunds fun st => st.bank.send 0 delegator module coins
  track delegator fun va => va.trackDelegation balance coins

def undelegateCoins (module delegator : Address) (coins : Coins) : SdkM Unit := do
  liftBank .insufficientFunds fun st =>
    st.bank.send (lockedCoins cfg.toEnv st module) module delegator coins
  track delegator fun va => some (va.trackUndelegation coins)

def payOut (dst : Address) (coins : Coins) : SdkM Unit :=
  if coins.isZero then pure ()
  else Bank.sendCoinsFromModuleToAccount cfg.toEnv cfg.distributionModule dst coins

def withdrawDelegationRewards (delegator validator : Address) : SdkM Coins := do
  let distribution := (← get).distribution
  let rewards := distribution.rewards delegator validator
  payOut cfg (distribution.withdrawAddress delegator) rewards
  modify fun st => st.setDistribution { st.distribution with
    rewards := update st.distribution.rewards delegator
      (update (st.distribution.rewards delegator) validator 0) }
  return rewards

def beforeDelegationSharesModified (delegator validator : Address) : SdkM Unit := do
  if ((← get).staking.bonded delegator).get validator ≠ 0 then
    discard (withdrawDelegationRewards cfg delegator validator)

/-! ## Delegations -/

namespace State

variable (s : State) (delegator validator : Address) (amount : Nat) (height : Int)

def bond : State :=
  { s with
    bonded := update s.bonded delegator (s.bonded delegator + Tally.single validator amount) }

def unbond : State :=
  { s with
    bonded := update s.bonded delegator (s.bonded delegator - Tally.single validator amount) }

def addEntry : State :=
  { s with
    unbonding :=
      update s.unbonding delegator
        (s.unbonding delegator + Tally.single (validator, height) amount) }

def removeEntry : State :=
  { s with
    unbonding :=
      update s.unbonding delegator
        (s.unbonding delegator - Tally.single (validator, height) amount) }

end State

def modifyStaking (f : State → State) : SdkM Unit :=
  modify fun st => st.setStaking (f st.staking)

def delegate (delegator validator : Address) (amount : Nat) : SdkM Unit := do
  ensure (validator ∈ (← get).staking.validators) .notFound
  beforeDelegationSharesModified cfg delegator validator
  delegateCoins delegator cfg.bondedPool (Tally.single .islm amount)
  modifyStaking fun s => s.bond delegator validator amount

def undelegate (height : Int) (delegator validator : Address) (amount : Nat) : SdkM Unit := do
  ensure (amount ≤ ((← get).staking.bonded delegator).get validator) .invalidRequest
  beforeDelegationSharesModified cfg delegator validator
  Bank.sendCoins cfg.toEnv cfg.bondedPool cfg.notBondedPool (Tally.single .islm amount)
  modifyStaking fun s =>
    (s.unbond delegator validator amount).addEntry delegator validator amount height

def beginRedelegate (delegator source target : Address) (amount : Nat) : SdkM Unit := do
  ensure (source ≠ target ∧ target ∈ (← get).staking.validators) .invalidRequest
  ensure (amount ≤ ((← get).staking.bonded delegator).get source) .invalidRequest
  beforeDelegationSharesModified cfg delegator source
  beforeDelegationSharesModified cfg delegator target
  modifyStaking fun s => (s.unbond delegator source amount).bond delegator target amount

def cancelUnbondingDelegation (delegator validator : Address) (amount : Nat) (height : Int) :
    SdkM Unit := do
  ensure (amount ≤ ((← get).staking.unbonding delegator).get (validator, height)) .invalidRequest
  beforeDelegationSharesModified cfg delegator validator
  Bank.sendCoins cfg.toEnv cfg.notBondedPool cfg.bondedPool (Tally.single .islm amount)
  modifyStaking fun s =>
    (s.removeEntry delegator validator amount height).bond delegator validator amount

def completeUnbonding (delegator validator : Address) (height : Int) : SdkM Unit := do
  let amount := ((← get).staking.unbonding delegator).get (validator, height)
  undelegateCoins cfg cfg.notBondedPool delegator (Tally.single .islm amount)
  modifyStaking fun s => s.removeEntry delegator validator amount height

def validateDelegationAmountNotUnvested (delegator : Address) (amount : Nat) : SdkM Unit := do
  let st ← get
  let acct ← ofOption .invalidAddress (st.accounts delegator)
  match acct.kind with
  | .clawback _ va =>
    let unvestedOnly ← ofOption .panic (va.getVestingCoins cfg.blockTime)
    -- truncated subtraction: a negative difference counts as zero
    let delegatableAmt := (st.bank.balance delegator).get .islm - unvestedOnly.get .islm
    ensure (amount ≤ delegatableAmt) .invalidAmount
  | _ => pure ()

def checkAmount (amount : Coin) : SdkM Unit := do
  ensure (0 < amount.amount) .invalidAmount
  ensure (amount.denom = .islm) .invalidDenom

def msgDelegate (delegator validator : Address) (amount : Coin) : SdkM Unit := do
  validateDelegationAmountNotUnvested cfg delegator amount.amount
  checkAmount amount
  delegate cfg delegator validator amount.amount

def msgCreateValidator (validator : Address) (value : Coin) : SdkM Unit := do
  validateDelegationAmountNotUnvested cfg validator value.amount
  checkAmount value
  ensure (validator ∉ (← get).staking.validators) .invalidRequest
  modifyStaking fun s => { s with validators := insert validator s.validators }
  delegate cfg validator validator value.amount

def msgUndelegate (height : Int) (delegator validator : Address) (amount : Coin) : SdkM Unit := do
  checkAmount amount
  undelegate cfg height delegator validator amount.amount

def msgBeginRedelegate (delegator source target : Address) (amount : Coin) : SdkM Unit := do
  checkAmount amount
  beginRedelegate cfg delegator source target amount.amount

def msgCancelUnbondingDelegation (delegator validator : Address) (amount : Coin) (height : Int) :
    SdkM Unit := do
  checkAmount amount
  cancelUnbondingDelegation cfg delegator validator amount.amount height

/-- What the grant has vested is delegated, without the check of the message server.  The schedules
that the message leaves out were put into it before. -/
def delegateVestedCoins (msg : MsgGrant) (validator : Address) : SdkM Unit := do
  ensure (validator ∈ (← get).staking.validators) .invalidRequest
  let (newVestingStart, newVestingEnd, _) :=
    disjunctPeriods msg.startTime msg.startTime msg.vesting msg.vesting
  let vestedCoins := readSchedule newVestingStart newVestingEnd msg.vesting (total msg.vesting)
    cfg.blockTime
  ensure (vestedCoins.get .islm ≠ 0) .invalidRequest
  delegate cfg msg.toAddress validator (vestedCoins.get .islm)

def msgConvertIntoVestingAccount (msg : MsgGrant) (stake : Option Address) : SdkM Unit := do
  convertIntoVestingAccount cfg.toConfig msg
  match stake with
  | none => pure ()
  | some validator => delegateVestedCoins cfg msg validator

end Staking

def sdkConfig : SdkConfig where
  toEnv := localConfig.toEnv
  liquidModule := localConfig.liquidModule
  ethiqModule := localConfig.ethiqModule
  distributionModule := localConfig.distributionModule
  escrow := localConfig.escrow
  applications := localConfig.applications
  prices := localConfig.prices
  delegated s addr := Tally.single .islm (s.staking.delegated addr)
  bondedPool := 104
  notBondedPool := 105
  delegated_eq _ _ := rfl

def sdkGenesis : ChainState SdkState where
  accounts := genesis.accounts
  nextAccountNumber := genesis.nextAccountNumber
  bank := genesis.bank
  code := genesis.code
  storage := genesis.storage
  modules :=
    { liquidVesting := genesis.modules.liquidVesting
      ethiq := genesis.modules.ethiq
      ucdao := genesis.modules.ucdao
      rest :=
        { staking := ⟨{50}, fun _ => 0, fun _ => 0⟩
          distribution := ⟨fun _ _ => 0, fun _ => 0, fun _ => none⟩
          grants := .empty } }

end Haqq
