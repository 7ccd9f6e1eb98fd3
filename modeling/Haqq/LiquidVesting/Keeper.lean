import Haqq.LiquidVesting.Schedule
import Haqq.Vesting.Keeper

/-!
# The liquid vesting keeper

`x/liquidvesting/keeper`: `Liquidate` turns locked coins of a fully vested account into a new liquid
token that carries their unlocking schedule, `Redeem` burns liquid tokens and hands out the coins
with what is left of the schedule.
-/

namespace Haqq.LiquidVesting

open Lib Lib.Schedule Vesting Function

variable {S : Type} (cfg : Config S)

def modifyLiquidVesting (f : State → State) : ModuleM S Unit :=
  modify fun st => st.setLiquidVesting (f st.modules.liquidVesting)

/-- The seconds of a protobuf timestamp, in the years 1 to 9999. -/
def isTimestamp (seconds : Int) : Bool :=
  decide (-62135596800 ≤ seconds ∧ seconds < 253402300800)

/-- `MustMarshal` panics on times that are no protobuf timestamps. -/
def LiquidDenom.marshals (denom : LiquidDenom) : Bool :=
  isTimestamp denom.startTime && isTimestamp denom.endTime

def newDenom (originalDenom : Denom) (startTime : Int) (periods : Periods) : LiquidDenom where
  originalDenom := originalDenom
  startTime := startTime
  endTime := int64 (startTime + totalLength periods)
  lockupPeriods := periods

/-- The counter is a `uint64`. -/
def createDenom (originalDenom : Denom) (startTime : Int) (periods : Periods) :
    ModuleM S Nat := do
  let counter := (← get).modules.liquidVesting.denomCounter
  let denom := newDenom originalDenom startTime periods
  ensure (denom.marshals = true) .panic
  modifyLiquidVesting fun lv => { lv with
    denoms := update lv.denoms counter (some denom)
    denomCounter := (counter + 1) % 2 ^ 64 }
  return counter

/-- The times that are written back were read from the store, so they marshal. -/
def updateDenomPeriods (id : Nat) (newPeriods : Periods) : ModuleM S Unit := do
  let denom ← ofOption .notFound ((← get).modules.liquidVesting.denoms id)
  modifyLiquidVesting fun lv => { lv with
    denoms := update lv.denoms id (some { denom with lockupPeriods := newPeriods }) }

def deleteDenom (id : Nat) : ModuleM S Unit :=
  modifyLiquidVesting fun lv => { lv with denoms := update lv.denoms id none }

def toggleConversion (id : Nat) : ModuleM S Unit := do
  let enabled ← ofOption .redeemFailed ((← get).modules.liquidVesting.tokenPairs id)
  modifyLiquidVesting fun lv => { lv with
    tokenPairs := update lv.tokenPairs id (some !enabled) }

/-- What remains after `amount` was taken out of the upcoming unlocking periods, and what was taken.
Nothing may be vesting any more, so the amount comes out of all vesting periods. -/
def liquidateSchedule (now : Int) (va : ClawbackVestingAccount) (amount : Coin) :
    ModuleM S (ClawbackVestingAccount × Periods) := do
  let vesting ← ofOption .panic (va.getVestingCoins now)
  ensure (vesting.isZero = true) .invalidRequest
  let locked ← ofOption .panic (va.getLockedUpCoins now)
  ensure (locked.get amount.denom ≠ 0) .invalidRequest
  ensure (amount.amount ≤ locked.get amount.denom) .invalidRequest
  let upcomingPeriods := extractUpcomingPeriods va.startTime va.endTime va.lockupPeriods now
  let (decreasedPeriods, diffPeriods) ←
    ofOption .liquidationFailed (subtractAmountFromPeriods upcomingPeriods amount)
  let originalVesting ← ofOption .panic (subCoins va.originalVesting amount.toCoins)
  let (decreasedVestingPeriods, _) ←
    ofOption .liquidationFailed (subtractAmountFromPeriods va.vestingPeriods amount)
  return ({ va with
    lockupPeriods := replacePeriodsTail va.lockupPeriods decreasedPeriods
    originalVesting := originalVesting
    vestingPeriods := replacePeriodsTail va.vestingPeriods decreasedVestingPeriods }, diffPeriods)

/-- The first upcoming period has already begun. -/
def shortenFirst (d : Int) : Periods → Periods
  | [] => []
  | period :: rest => { period with length := int64 (period.length - d) } :: rest

/-- Moves locked coins to the module, with their schedule from now on, and mints as many liquid
coins of a new denomination. -/
def liquidate (liquidateFrom liquidateTo : Address) (amount : Coin) : ModuleM S Coin := do
  let st ← get
  ensure (st.modules.liquidVesting.enableLiquidVesting = true) .moduleDisabled
  ensure (amount.denom = .islm) .invalidRequest
  ensure (st.modules.liquidVesting.minimumLiquidationAmount ≤ amount.amount) .invalidRequest
  let acct ← ofOption .notFound (st.accounts liquidateFrom)
  let (codeHash, va) ← ofOption .invalidRequest acct.kind.asClawback
  let (va, diffPeriods) ← liquidateSchedule cfg.blockTime va amount
  setAccount liquidateFrom { acct with kind := .clawback codeHash va }
  Bank.sendCoinsFromAccountToModule cfg.toEnv liquidateFrom cfg.liquidModule amount.toCoins
  let shift := currentPeriodShift va.startTime cfg.blockTime va.lockupPeriods
  let id ← createDenom amount.denom cfg.blockTime (shortenFirst shift diffPeriods)
  let liquidCoin : Coin := ⟨.liquid id, amount.amount⟩
  Bank.mintCoins cfg.liquidModule liquidCoin.toCoins
  Bank.sendCoinsFromModuleToAccount cfg.toEnv cfg.liquidModule liquidateTo liquidCoin.toCoins
  modifyLiquidVesting fun lv => { lv with
    tokenPairs := update lv.tokenPairs id (some true) }
  return liquidCoin

/-- The liquid vesting module is the funder unless the recipient has one already. -/
def lockRedeemed (toAddress : Address) (denom : LiquidDenom) (diffPeriods : Periods)
    (coins : Coins) : ModuleM S Unit := do
  let toAccount ← ofOption .notFound ((← get).accounts toAddress)
  let funder := match toAccount.kind with
    | .clawback _ va => va.funderAddress
    | _ => cfg.liquidModule
  applyVestingSchedule cfg funder toAddress coins denom.startTime diffPeriods [⟨0, coins⟩] true

/-- A token that is used up is deleted and its token pair disabled. -/
def saveDenomPeriods (id : Nat) (decreasedPeriods : Periods) : ModuleM S Unit :=
  if (total decreasedPeriods).isZero then do
    deleteDenom id
    toggleConversion id
  else updateDenomPeriods id decreasedPeriods

/-- Burns liquid coins and pays out the original ones, under the part of the schedule that belongs
to them unless it has passed. -/
def redeemDenom (fromAddress toAddress : Address) (id amount : Nat) : ModuleM S Unit := do
  let st ← get
  ensure (st.modules.liquidVesting.enableLiquidVesting = true) .moduleDisabled
  ensure ((st.accounts fromAddress).isSome = true) .notFound
  let denom ← ofOption .notFound (st.modules.liquidVesting.denoms id)
  ensure (st.modules.liquidVesting.tokenPairs id = some true) .notFound
  ensure (amount ≤ (st.bank.balance fromAddress).get (.liquid id)) .redeemFailed
  let liquidCoins := Tally.single (.liquid id) amount
  Bank.sendCoinsFromAccountToModule cfg.toEnv fromAddress cfg.liquidModule liquidCoins
  Bank.burnCoins cfg.liquidModule liquidCoins
  let originalCoin : Coin := ⟨denom.originalDenom, amount⟩
  let (decreasedPeriods, diffPeriods) ←
    ofOption .redeemFailed (subtractAmountFromPeriods denom.lockupPeriods originalCoin)
  saveDenomPeriods id decreasedPeriods
  Bank.sendCoinsFromModuleToAccount cfg.toEnv cfg.liquidModule toAddress originalCoin.toCoins
  if extractUpcomingPeriods denom.startTime denom.endTime diffPeriods cfg.blockTime = [] then
    pure ()
  else lockRedeemed cfg toAddress denom diffPeriods originalCoin.toCoins

def redeem (fromAddress toAddress : Address) (amount : Coin) : ModuleM S Unit :=
  match amount.denom with
  | .liquid id => redeemDenom cfg fromAddress toAddress id amount.amount
  | _ => do
    let st ← get
    ensure (st.modules.liquidVesting.enableLiquidVesting = true) .moduleDisabled
    throw .notFound

/-- `ValidateBasic` rejects amounts that are not positive. -/
def msgLiquidate (liquidateFrom liquidateTo : Address) (amount : Coin) : ModuleM S Coin := do
  ensure (0 < amount.amount) .invalidRequest
  liquidate cfg liquidateFrom liquidateTo amount

def msgRedeem (redeemFrom redeemTo : Address) (amount : Coin) : ModuleM S Unit := do
  ensure (0 < amount.amount) .invalidRequest
  redeem cfg redeemFrom redeemTo amount

inductive TokenMsg
  | liquidate (liquidateFrom liquidateTo : Address) (amount : Coin)
  | redeem (redeemFrom redeemTo : Address) (amount : Coin)
  | transfer (src dst : Address) (id amount : Nat)

def TokenMsg.handle : TokenMsg → ModuleM S Unit
  | liquidate liquidateFrom liquidateTo amount => do
    let _ ← msgLiquidate cfg liquidateFrom liquidateTo amount
  | redeem redeemFrom redeemTo amount => msgRedeem cfg redeemFrom redeemTo amount
  | transfer src dst id amount =>
    Bank.sendCoins cfg.toEnv src dst (Tally.single (.liquid id) amount)

def tokenStep (st : ChainState S) (tx : Tx TokenMsg) : ChainState S :=
  deliver (tx.msg.handle (cfg.atTime tx.blockTime)) st

end Haqq.LiquidVesting
