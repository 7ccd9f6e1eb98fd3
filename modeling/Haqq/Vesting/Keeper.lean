import Haqq.Chain.Bank
import Haqq.Chain.State

/-!
# The vesting keeper

`x/vesting/keeper`.  The option of `ConvertIntoVestingAccount` to delegate the vested coins at once
is left to the staking module.
-/

namespace Haqq.Vesting

open Lib Lib.Schedule

variable {S : Type} (cfg : Config S)

/-- The fields shared by `MsgCreateClawbackVestingAccount` and
`MsgConvertIntoVestingAccount`. -/
structure MsgGrant where
  fromAddress : Address
  toAddress : Address
  startTime : Int
  lockupPeriods : Periods
  vestingPeriods : Periods
  merge : Bool

/-- Amounts are valid coins by construction. -/
def MsgGrant.validateBasic (msg : MsgGrant) : Bool :=
  decide (msg.toAddress ≠ 0) &&
  msg.lockupPeriods.all (fun period => decide (1 ≤ period.length)) &&
  msg.vestingPeriods.all (fun period => decide (1 ≤ period.length)) &&
  !((total msg.lockupPeriods).isZero && (total msg.vestingPeriods).isZero) &&
  (msg.lockupPeriods.isEmpty || msg.vestingPeriods.isEmpty ||
    coinEq (total msg.lockupPeriods) (total msg.vestingPeriods))

/-- An absent schedule releases everything at once. -/
def MsgGrant.lockup (msg : MsgGrant) : Periods :=
  if !(total msg.vestingPeriods).isZero && msg.lockupPeriods.isEmpty then
    [⟨0, total msg.vestingPeriods⟩]
  else msg.lockupPeriods

def MsgGrant.vesting (msg : MsgGrant) : Periods :=
  if !(total msg.lockup).isZero && msg.vestingPeriods.isEmpty then
    [⟨0, total msg.lockup⟩]
  else msg.vestingPeriods

def setAccount (addr : Address) (acct : AuthAccount) : ModuleM S Unit :=
  modify fun st => st.setAccount addr acct

def createVestingAccount (addr : Address) (va : ClawbackVestingAccount) : ModuleM S Unit := do
  let acct ← newAccountWithAddress cfg.toEnv
  setAccount addr { acct with kind := .clawback cfg.emptyCodeHash va }

/-- The delegated coins are read from the staking module. -/
def addGrant (addr : Address) (va : ClawbackVestingAccount) (grantStartTime : Int)
    (lockupPeriods vestingPeriods : Periods) (coins : Coins) :
    ModuleM S ClawbackVestingAccount := do
  let st ← get
  ofOption .vestingLockup
    (va.addGrant (cfg.delegated st.modules.rest addr) grantStartTime lockupPeriods
      vestingPeriods coins)

/-- A new account or one without a schedule becomes a vesting account, which keeps its code hash; a
vesting account takes a further grant, of the same funder, only if `merge` is set. -/
def applyVestingSchedule (funder funded : Address) (coins : Coins) (startTime : Int)
    (lockupPeriods vestingPeriods : Periods) (merge : Bool) : ModuleM S Unit := do
  let st ← get
  match st.accounts funded with
  | none =>
    createVestingAccount cfg funded
      (newClawbackVestingAccount funder coins startTime lockupPeriods vestingPeriods)
  | some acct =>
    match acct.kind with
    | .base => throw .applySchedule
    | .eth codeHash =>
      let va := newClawbackVestingAccount funder coins startTime lockupPeriods vestingPeriods
      let va := { va with delegatedFree := cfg.delegated st.modules.rest funded }
      setAccount funded { acct with kind := .clawback codeHash va }
    | .clawback codeHash va =>
      ensure (merge = true) .applySchedule
      ensure (funder = va.funderAddress) .applySchedule
      -- the grant is moved to the start of the account if that is earlier
      let va ← addGrant cfg funded va (min startTime va.startTime) lockupPeriods
        vestingPeriods coins
      setAccount funded { acct with kind := .clawback codeHash va }

/-! ## Message server -/

/-- An account that exists has to be a vesting account. -/
def createClawbackVestingAccount (msg : MsgGrant) : ModuleM S Unit := do
  ensure (cfg.blocked msg.toAddress = false) .unauthorized
  let vestingCoins := total msg.vesting
  ensure (coinEq vestingCoins (total msg.lockup) = true) .invalidRequest
  match (← get).accounts msg.toAddress with
  | some acct =>
    match acct.kind with
    | .clawback codeHash va =>
      ensure (msg.merge = true) .invalidRequest
      ensure (msg.fromAddress = va.funderAddress) .invalidRequest
      let va ← addGrant cfg msg.toAddress va msg.startTime msg.lockup msg.vesting vestingCoins
      setAccount msg.toAddress { acct with kind := .clawback codeHash va }
    | _ => throw .invalidRequest
  | none =>
    createVestingAccount cfg msg.toAddress
      (newClawbackVestingAccount msg.fromAddress vestingCoins msg.startTime msg.lockup msg.vesting)
  Bank.sendCoins cfg.toEnv msg.fromAddress msg.toAddress vestingCoins

def isContractAccount (acct : Option AuthAccount) : Bool :=
  match acct with
  | some ⟨_, _, .eth codeHash⟩ => decide (codeHash ≠ cfg.emptyCodeHash)
  | _ => false

/-- Contracts cannot become vesting accounts. -/
def convertIntoVestingAccount (msg : MsgGrant) : ModuleM S Unit := do
  ensure (cfg.blocked msg.toAddress = false) .unauthorized
  ensure (isContractAccount cfg ((← get).accounts msg.toAddress) = false) .invalidRequest
  let vestingCoins := total msg.vesting
  ensure (coinEq vestingCoins (total msg.lockup) = true) .invalidRequest
  applyVestingSchedule cfg msg.fromAddress msg.toAddress vestingCoins msg.startTime msg.lockup
    msg.vesting msg.merge
  Bank.sendCoins cfg.toEnv msg.fromAddress msg.toAddress vestingCoins

/-- The account is left as it is if nothing is vesting. -/
def transferClawback (addr : Address) (acct : AuthAccount) (codeHash : Hash)
    (va : ClawbackVestingAccount) (dest : Address) : ModuleM S Unit := do
  let (updatedAcc, toClawBack) ← ofOption .panic (va.computeClawback cfg.blockTime)
  if toClawBack.isZero then pure ()
  else
    setAccount addr { acct with kind := .clawback codeHash updatedAcc }
    -- the community pool is funded by a send to the distribution module as well
    Bank.sendCoins cfg.toEnv addr dest toClawBack

/-- Only the funder takes back what is vesting, by default to itself. -/
def clawback (funder addr : Address) (destAddress : Option Address) : ModuleM S Unit := do
  let dest := destAddress.getD funder
  ensure (cfg.blocked dest = false) .unauthorized
  let acct ← ofOption .notFound ((← get).accounts addr)
  match acct.kind with
  | .clawback codeHash va =>
    ensure (¬ (va.vestingPeriods = [] ∧ va.lockupPeriods = [])) .invalidRequest
    ensure (va.funderAddress = funder) .unauthorized
    transferClawback cfg addr acct codeHash va dest
  | _ => throw .invalidAccount

end Haqq.Vesting
