import Haqq.Ethiq.PriceCurve
import Haqq.LiquidVesting.Keeper
import Haqq.Ucdao.Escrow

/-!
# The ethiq keeper

`x/ethiq/keeper`: burning aISLM mints aHAQQ at the price of the current position on the curve; an
application of the waitlist has its own position.  Liquid tokens of the payer are redeemed first,
and locked coins are unlocked as far as they are needed.
-/

namespace Haqq.Ethiq

open Lib Lib.Schedule Vesting

variable {S : Type} (cfg : Config S)

def getApplicationByID (appId : Nat) : Option BurnApplication := cfg.applications[appId]?

def getSumOfAllApplications : Option Nat :=
  cfg.applications.getLast?.map fun last => last.burnAmount + last.burnedBeforeAmount

def calculateHaqqCoinsToMint (islmAmountToBurn : Nat) : ModuleM S Nat := do
  let ethiq := (← get).modules.ethiq
  ensure (ethiq.enabled = true) .moduleDisabled
  ensure (0 < islmAmountToBurn) .invalidAmount
  let sum ← ofOption .panic (getSumOfAllApplications cfg)
  -- `Coin.Sub` panics on a negative result
  ensure (ethiq.totalBurnedFromApplications ≤ ethiq.totalBurned + sum) .panic
  runExcept (calculateHaqqAmount cfg.prices
    (ethiq.totalBurned + sum - ethiq.totalBurnedFromApplications) islmAmountToBurn)

def liquidBalances (coins : Coins) : List Coin :=
  ((Tally.sorted coins.support).filter Denom.isLiquid).map fun denom => ⟨denom, coins.get denom⟩

/-- For coins in escrow the tracked total is updated. -/
def redeemLiquidCoins (addr : Address) (isUcdao : Bool) (balances : List Coin) :
    ModuleM S Unit :=
  balances.forM fun balance => do
    LiquidVesting.redeem cfg addr addr balance
    if isUcdao then
      Ucdao.trackAddBalance ⟨.islm, balance.amount⟩
      Ucdao.trackSubBalance balance

def redeemAllLiquidVestingCoins (fromAddress : Address) (isUcdao : Bool) : ModuleM S Unit := do
  redeemLiquidCoins cfg fromAddress isUcdao (liquidBalances ((← get).bank.balance fromAddress))

/-- The account after `amt` coins were unlocked ahead of time, or as many as are locked. -/
def unlockSchedule (now : Int) (va : ClawbackVestingAccount) (amt : Nat) :
    ModuleM S (Option ClawbackVestingAccount) := do
  let vesting ← ofOption .panic (va.getVestingCoins now)
  if vesting.isZero then
    let locked ← ofOption .panic (va.getLockedUpCoins now)
    if locked.get .islm = 0 then return none
    else
      let unlockCoins : Coin := ⟨.islm, min (locked.get .islm) amt⟩
      let upcomingPeriods :=
        LiquidVesting.extractUpcomingPeriods va.startTime va.endTime va.lockupPeriods now
      let (decreasedPeriods, _) ← ofOption .unlockCoins
        (LiquidVesting.subtractAmountFromPeriods upcomingPeriods unlockCoins)
      let (decreasedVestingPeriods, _) ← ofOption .unlockCoins
        (LiquidVesting.subtractAmountFromPeriods va.vestingPeriods unlockCoins)
      let originalVesting ← ofOption .panic (subCoins va.originalVesting unlockCoins.toCoins)
      return some { va with
        originalVesting := originalVesting
        lockupPeriods := LiquidVesting.replacePeriodsTail va.lockupPeriods decreasedPeriods
        vestingPeriods :=
          LiquidVesting.replacePeriodsTail va.vestingPeriods decreasedVestingPeriods }
  -- unvested coins cannot be burned
  else return none

def unlockVestingCoins (fromAddress : Address) (amt : Nat) : ModuleM S Unit := do
  let acct ← ofOption .notFound ((← get).accounts fromAddress)
  match acct.kind with
  | .clawback codeHash va =>
    match ← unlockSchedule cfg.blockTime va amt with
    | some va => setAccount fromAddress { acct with kind := .clawback codeHash va }
    | none => pure ()
  | _ => pure ()

def modifyEthiq (f : State → State) : ModuleM S Unit :=
  modify fun st => st.setEthiq (f st.modules.ethiq)

def burnCoins (src : Address) (amt : Nat) (isApplication : Bool) : ModuleM S Unit := do
  Bank.sendCoinsFromAccountToModule cfg.toEnv src cfg.ethiqModule (Tally.single .islm amt)
  Bank.burnCoins cfg.ethiqModule (Tally.single .islm amt)
  modifyEthiq fun ethiq => { ethiq with
    totalBurned := ethiq.totalBurned + amt
    totalBurnedFromApplications :=
      if isApplication then ethiq.totalBurnedFromApplications + amt
      else ethiq.totalBurnedFromApplications }

def mintCoins (dst : Address) (amt : Nat) : ModuleM S Unit := do
  Bank.mintCoins cfg.ethiqModule (Tally.single .haqq amt)
  Bank.sendCoinsFromModuleToAccount cfg.toEnv cfg.ethiqModule dst (Tally.single .haqq amt)

/-- Bounds for one transaction and for the total supply. -/
def checkAmountToBeMinted (amt : Nat) : ModuleM S Unit := do
  let st ← get
  ensure (st.modules.ethiq.minMintPerTx ≤ amt) .invalidAmount
  ensure (amt ≤ st.modules.ethiq.maxMintPerTx) .invalidAmount
  ensure (1 ≤ amt) .invalidAmount
  ensure (st.bank.supply.get .haqq + amt ≤ st.modules.ethiq.maxSupply) .exceedsMaxSupply

/-- What the two kinds of burning have in common. -/
def exchange (payer toAddress : Address) (islmAmount haqqAmount : Nat)
    (isApplication isUcdao : Bool) : ModuleM S Unit := do
  checkAmountToBeMinted haqqAmount
  redeemAllLiquidVestingCoins cfg payer isUcdao
  unlockVestingCoins cfg payer islmAmount
  burnCoins cfg payer islmAmount isApplication
  mintCoins cfg toAddress haqqAmount

def burnIslmForHaqq (islmAmount : Nat) (fromAddress toAddress : Address) : ModuleM S Nat := do
  ensure ((← get).modules.ethiq.enabled = true) .moduleDisabled
  ensure (0 < islmAmount) .invalidAmount
  let haqqAmount ← calculateHaqqCoinsToMint cfg islmAmount
  exchange cfg fromAddress toAddress islmAmount haqqAmount false false
  return haqqAmount

/-- The price is that of the place of the application in the waitlist, not that of the coins burned
so far. -/
def burnIslmForHaqqByApplicationID (fromAddress : Address) (appId : Nat) :
    ModuleM S (Nat × Address) := do
  ensure ((← get).modules.ethiq.enabled = true) .moduleDisabled
  let application ← ofOption .invalidApplicationId (getApplicationByID cfg appId)
  ensure (application.id ∉ (← get).modules.ethiq.executed) .invalidApplicationId
  ensure (application.isCanceled = false) .invalidApplicationId
  ensure (application.fromAddress = fromAddress) .invalidAddress
  let isUcdao := decide (application.source = .ucdao)
  let payer := if isUcdao then cfg.escrow fromAddress else fromAddress
  let haqqAmount ← runExcept (calculateHaqqAmount cfg.prices application.burnedBeforeAmount
    application.burnAmount)
  exchange cfg payer application.toAddress application.burnAmount haqqAmount true isUcdao
  modifyEthiq fun ethiq => { ethiq with executed := insert appId ethiq.executed }
  return (haqqAmount, application.toAddress)

inductive Msg
  | mintHaqq (fromAddress toAddress : Address) (islmAmount : Nat)
  | mintHaqqByApplication (fromAddress : Address) (applicationId : Nat)

def Msg.handle : Msg → ModuleM S Unit
  | mintHaqq fromAddress toAddress islmAmount => do
    let _ ← burnIslmForHaqq cfg islmAmount fromAddress toAddress
  | mintHaqqByApplication fromAddress applicationId => do
    let _ ← burnIslmForHaqqByApplicationID cfg fromAddress applicationId

def step (st : ChainState S) (tx : Tx Msg) : ChainState S :=
  deliver (tx.msg.handle (cfg.atTime tx.blockTime)) st

end Haqq.Ethiq
