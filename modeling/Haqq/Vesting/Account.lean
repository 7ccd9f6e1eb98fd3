import Haqq.Vesting.Schedule

/-!
# Clawback vesting accounts

`x/vesting/types/clawback_vesting_account.go`.  The address, the code hash and the account number
belong to the auth account.  A function that can panic, as `sdk.Coins.Sub` does on a negative
result, returns an `Option`.
-/

namespace Haqq.Vesting

open Lib Lib.Schedule

structure ClawbackVestingAccount where
  funderAddress : Address
  originalVesting : Coins
  delegatedFree : Coins
  delegatedVesting : Coins
  startTime : Int
  endTime : Int
  lockupPeriods : Periods
  vestingPeriods : Periods

def subCoins (x y : Coins) : Option Coins := if y ≤ x then some (x - y) else none

def coinEq (x y : Coins) : Bool := decide (x ≤ y) && decide (y ≤ x)

/-- The end time is that of the longer schedule. -/
def newClawbackVestingAccount (funder : Address) (originalVesting : Coins) (startTime : Int)
    (lockupPeriods vestingPeriods : Periods) : ClawbackVestingAccount :=
  let (_, endTime, lp, vp) := alignSchedules startTime startTime lockupPeriods vestingPeriods
  { funderAddress := funder
    originalVesting := originalVesting
    delegatedFree := 0
    delegatedVesting := 0
    startTime := startTime
    endTime := endTime
    lockupPeriods := lp
    vestingPeriods := vp }

namespace ClawbackVestingAccount

variable (va : ClawbackVestingAccount) (blockTime : Int)

def getUnlockedCoins : Coins :=
  readSchedule va.startTime va.endTime va.lockupPeriods va.originalVesting blockTime

def getVestedCoins : Coins :=
  readSchedule va.startTime va.endTime va.vestingPeriods va.originalVesting blockTime

def getUnlockedVestedCoins : Coins :=
  min (va.getUnlockedCoins blockTime) (va.getVestedCoins blockTime)

/-- Vested, but still locked. -/
def getLockedUpVestedCoins : Coins :=
  va.getVestedCoins blockTime - va.getUnlockedVestedCoins blockTime

def getVestingCoins : Option Coins := subCoins va.originalVesting (va.getVestedCoins blockTime)

def getLockedUpCoins : Option Coins := subCoins va.originalVesting (va.getUnlockedCoins blockTime)

/-- The coins that cannot be spent; delegated coins count as locked vested ones first. -/
def lockedCoins : Coins :=
  let delegated :=
    min (va.delegatedFree + va.delegatedVesting) (va.getLockedUpVestedCoins blockTime)
  let free := va.getUnlockedVestedCoins blockTime + delegated
  if free ≤ va.originalVesting then va.originalVesting - free else 0

def getPassedPeriodCount : Nat :=
  readPastPeriodCount va.startTime va.endTime va.vestingPeriods blockTime

def scheduleEnd (startTime : Int) (periods : Periods) : Int :=
  periods.foldl (fun time period => int64 (time + period.length)) startTime

/-- `Validate` of the embedded `BaseVestingAccount`; empty coins are not positive ones. -/
def validateBase : Except String Unit :=
  if va.endTime < 0 then throw "end time cannot be negative"
  else if va.originalVesting.isZero then throw "invalid coins: "
  else if ¬ va.delegatedVesting ≤ va.originalVesting then
    throw "delegated vesting amount cannot be greater than original vesting amount"
  else pure ()

/-- Both schedules end by the end time and sum up to the original vesting. -/
def validate : Except String Unit :=
  if va.endTime ≤ va.startTime then
    throw "vesting start-time must be before end-time"
  else if va.endTime < scheduleEnd va.startTime va.lockupPeriods then
    throw "lockup schedule extends beyond account end time"
  else if !coinEq (total va.lockupPeriods) va.originalVesting then
    throw "original vesting coins does not match the sum of all coins in lockup periods"
  else if va.endTime < scheduleEnd va.startTime va.vestingPeriods then
    throw "vesting schedule extends beyond account end time"
  else if !coinEq (total va.vestingPeriods) va.originalVesting then
    throw "original vesting coins does not match the sum of all coins in vesting periods"
  else va.validateBase

/-- `balance` is what the account had before the delegation. -/
def trackDelegation (balance amount : Coins) : Option ClawbackVestingAccount :=
  if amount ≤ balance then some { va with delegatedFree := va.delegatedFree + amount } else none

/-- Free delegations are returned first. -/
def trackUndelegation (amount : Coins) : ClawbackVestingAccount :=
  let x := min va.delegatedFree amount
  let y := min va.delegatedVesting (amount - x)
  { va with
    delegatedFree := va.delegatedFree - x
    delegatedVesting := va.delegatedVesting - y }

/-- Without its future vesting events, and the coins they would have vested; unlocking is capped by
what has vested. -/
def computeClawback (clawbackTime : Int) : Option (ClawbackVestingAccount × Coins) := do
  let totalVested := va.getVestedCoins clawbackTime
  let totalUnvested ← va.getVestingCoins clawbackTime
  let newVestingPeriods := va.vestingPeriods.take (va.getPassedPeriodCount clawbackTime)
  let newVestingEnd := int64 (va.startTime + totalLength newVestingPeriods)
  let capPeriods : Periods := [⟨0, totalVested⟩]
  let (_, newLockingEnd, newLockupPeriods) :=
    conjunctPeriods va.startTime va.startTime va.lockupPeriods capPeriods
  return ({ va with
    originalVesting := totalVested
    endTime := max newVestingEnd newLockingEnd
    lockupPeriods := newLockupPeriods
    vestingPeriods := newVestingPeriods }, totalUnvested)

/-- `delegated` is what the account has bonded or unbonding.  The `none` is the error of start times
that differ. -/
def addGrant (delegated : Coins) (grantStartTime : Int)
    (grantLockupPeriods grantVestingPeriods : Periods) (grantCoins : Coins) :
    Option ClawbackVestingAccount :=
  let (newLockupStart, newLockupEnd, newLockupPeriods) :=
    disjunctPeriods va.startTime grantStartTime va.lockupPeriods grantLockupPeriods
  let (newVestingStart, newVestingEnd, newVestingPeriods) :=
    disjunctPeriods va.startTime grantStartTime va.vestingPeriods grantVestingPeriods
  if newLockupStart ≠ newVestingStart then none
  else some { va with
    startTime := newLockupStart
    endTime := max newLockupEnd newVestingEnd
    lockupPeriods := newLockupPeriods
    vestingPeriods := newVestingPeriods
    originalVesting := va.originalVesting + grantCoins
    delegatedVesting := 0
    delegatedFree := delegated }

end ClawbackVestingAccount

end Haqq.Vesting
