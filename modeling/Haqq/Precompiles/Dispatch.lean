import Haqq.Precompiles.Calls

/-!
# The methods of the precompiles

The switch in `Run` of the precompiles `ucdao`, `ethiq`, `liquid`, `staking` and `erc20`, with the
list of transactions in `IsTransaction` of each.  The approvals of `ethiq`, `staking` and `erc20`
and the queriers of the SDK are parameters.
-/

namespace Haqq.Precompiles

open Lib Authz Evm

inductive PrecompileName
  | ucdao
  | ethiq
  | liquid
  | staking
  /-- The precompile of the token pair of a denomination. -/
  | erc20 (denom : Denom)
  deriving DecidableEq, Repr

inductive MethodName
  | approve
  | revoke
  | increaseAllowance
  | decreaseAllowance
  | allowance
  | approveApplicationID
  | revokeApplicationID
  | convertToHaqq
  | transferOwnership
  | transferOwnershipWithAmount
  | mintHaqq
  | mintHaqqByApplication
  | calculate
  | calculateForApplication
  | liquidate
  | redeem
  | createValidator
  | editValidator
  | delegate
  | undelegate
  | redelegate
  | cancelUnbondingDelegation
  | delegation
  | unbondingDelegation
  | validator
  | validators
  | redelegation
  | redelegations
  | transfer
  | transferFrom
  | name
  | symbol
  | decimals
  | totalSupply
  | balanceOf
  deriving DecidableEq, Repr

namespace PrecompileName

def isTransaction : PrecompileName → MethodName → Bool
  | ucdao, m => m ∈ [.convertToHaqq, .transferOwnership, .transferOwnershipWithAmount]
  | ethiq, m => m ∈ [.mintHaqq, .mintHaqqByApplication, .approve, .revoke, .approveApplicationID,
      .revokeApplicationID, .increaseAllowance, .decreaseAllowance]
  | liquid, m => m ∈ [.liquidate, .redeem]
  | staking, m => m ∈ [.createValidator, .editValidator, .delegate, .undelegate, .redelegate,
      .cancelUnbondingDelegation, .approve, .revoke, .increaseAllowance, .decreaseAllowance]
  | erc20 _, m => m ∈ [.transfer, .transferFrom, .approve, .increaseAllowance, .decreaseAllowance]

/-- Those of `ucdao` are `Ucdao.ApprovalCall`. -/
def approvals : PrecompileName → List MethodName
  | ucdao => []
  | ethiq => [.approve, .revoke, .approveApplicationID, .revokeApplicationID, .increaseAllowance,
      .decreaseAllowance]
  | liquid => []
  | staking => [.approve, .revoke, .increaseAllowance, .decreaseAllowance]
  | erc20 _ => [.approve, .increaseAllowance, .decreaseAllowance]

def sdkQueries : PrecompileName → List MethodName
  | staking => [.delegation, .unbondingDelegation, .validator, .validators, .redelegation,
      .redelegations]
  | erc20 _ => [.name, .symbol, .decimals]
  | _ => []

end PrecompileName

/-! ## Queries -/

inductive QueryError
  /-- "invalid grantee address: %v" -/
  | invalidGrantee
  /-- "invalid granter address: %v" -/
  | invalidGranter
  /-- "empty method defined; expected a valid message type url" -/
  | emptyMethod
  /-- `ErrInvalidType`: the authorization has another type. -/
  | invalidType
  /-- "islm_amount must be positive and greater than zero: %s" -/
  | invalidAmount
  | keeper (err : KeeperError)
  | querier
  | panic
  deriving DecidableEq, Repr

inductive Answer
  | amount (value : Nat)
  /-- The price has 18 decimals; the receiver is that of an application. -/
  | estimate (haqqAmount supplyBefore supplyAfter averagePrice : Nat) (receiver : Option Address)
  | packed (data : Bytes)

abbrev QueryM := EStateM QueryError (ChainState SdkState)

section Queries

variable (cfg : CallConfig)

/-- The methods of `ucdao`, `ethiq` and `staking` differ in the limit they read. -/
def allowance (spendLimit : Authorization → Except QueryError (Option Coin))
    (grantee granter : Address) (url : MsgURL) : QueryM Answer := do
  ensure (grantee ≠ 0) .invalidGrantee
  ensure (granter ≠ 0) .invalidGranter
  ensure (url ≠ .other "") .emptyMethod
  match (← get).grants.getAuthorization cfg.blockTime ⟨grantee, granter, url⟩ with
  | none => return .amount 0
  | some grant =>
    let limit ← runExcept (spendLimit grant.authorization)
    return .amount (limit.elim maxUint256.val Coin.amount)

namespace Ucdao

/-- A transfer authorization passes the type check, and then the limit of a conversion
authorization is read from nil. -/
def spendLimit : Authorization → Except QueryError (Option Coin)
  | .convertToHaqq limit => .ok limit
  | .transferOwnership _ => .error .panic
  | _ => .error .invalidType

def allowance (grantee granter : Address) (url : MsgURL) : QueryM Answer :=
  Precompiles.allowance cfg spendLimit grantee granter url

end Ucdao

namespace Ethiq

def spendLimit : Authorization → Except QueryError (Option Coin)
  | .mintHaqq limit => .ok limit
  | _ => .error .invalidType

def allowance (grantee granter : Address) (url : MsgURL) : QueryM Answer :=
  Precompiles.allowance cfg spendLimit grantee granter url

def estimate (islmAmount haqqAmount : Nat) (receiver : Option Address) : QueryM Answer := do
  let supplyBefore := (← get).bank.supply.get .haqq
  let averagePrice :=
    if haqqAmount = 0 then 0
    else Decimal.quo (Decimal.ofNat islmAmount) (Decimal.ofNat haqqAmount)
  return .estimate haqqAmount supplyBefore (supplyBefore + haqqAmount) averagePrice receiver

def calculate (islmAmount : Uint256) : QueryM Answer := do
  ensure (0 < islmAmount.val) .invalidAmount
  let haqqAmount ←
    (Haqq.Ethiq.calculateHaqqCoinsToMint cfg.toConfig islmAmount.val).adaptExcept .keeper
  estimate islmAmount.val haqqAmount none

def calculateForApplication (appId : Uint256) : QueryM Answer := do
  let application ← ofOption (.keeper .invalidApplicationId)
    (Haqq.Ethiq.getApplicationByID cfg.toConfig (applicationID appId))
  let haqqAmount ← runExcept ((Haqq.Ethiq.calculateHaqqAmount cfg.prices
    application.burnedBeforeAmount application.burnAmount).mapError .keeper)
  estimate application.burnAmount haqqAmount (some application.toAddress)

end Ethiq

namespace Staking

def spendLimit : Authorization → Except QueryError (Option Coin)
  | .stake _ _ limit => .ok limit
  | _ => .error .invalidType

def allowance (grantee granter : Address) (url : MsgURL) : QueryM Answer :=
  Precompiles.allowance cfg spendLimit grantee granter url

end Staking

namespace Erc20

def totalSupply (denom : Denom) : QueryM Answer := do
  return .amount ((← get).bank.supply.get denom)

def balanceOf (denom : Denom) (account : Address) : QueryM Answer := do
  return .amount (((← get).bank.balance account).get denom)

/-- The owner has an unlimited allowance; an allowance that is not found is zero. -/
def allowance (denom : Denom) (owner spender : Address) : QueryM Answer := do
  if owner = spender then return .amount maxUint256.val
  else
    match (← get).grants.getAuthorization cfg.blockTime ⟨spender, owner, .send⟩ with
    | some ⟨.send spendLimit _, _⟩ => return .amount (spendLimit.get denom)
    | _ => return .amount 0

end Erc20

end Queries

inductive Query
  | ucdaoAllowance (grantee granter : Address) (url : MsgURL)
  | ethiqAllowance (grantee granter : Address) (url : MsgURL)
  | stakingAllowance (grantee granter : Address) (url : MsgURL)
  | erc20Allowance (denom : Denom) (owner spender : Address)
  | calculate (islmAmount : Uint256)
  | calculateForApplication (appId : Uint256)
  | totalSupply (denom : Denom)
  | balanceOf (denom : Denom) (account : Address)
  | sdk (p : PrecompileName) (m : MethodName) (h : m ∈ p.sdkQueries) (args : Bytes)

def Query.name : Query → PrecompileName × MethodName
  | ucdaoAllowance .. => (.ucdao, .allowance)
  | ethiqAllowance .. => (.ethiq, .allowance)
  | stakingAllowance .. => (.staking, .allowance)
  | erc20Allowance denom _ _ => (.erc20 denom, .allowance)
  | calculate _ => (.ethiq, .calculate)
  | calculateForApplication _ => (.ethiq, .calculateForApplication)
  | totalSupply denom => (.erc20 denom, .totalSupply)
  | balanceOf denom _ => (.erc20 denom, .balanceOf)
  | sdk p m _ _ => (p, m)

structure Externals where
  /-- The approvals that are not modelled, called with the origin and the caller. -/
  approval : PrecompileName → MethodName → Bytes → Address → Address → CallM Unit
  querier : PrecompileName → MethodName → Bytes → ChainState SdkState → Except QueryError Answer

def Query.run (cfg : CallConfig) (ext : Externals) : Query → QueryM Answer
  | ucdaoAllowance grantee granter url => Ucdao.allowance cfg grantee granter url
  | ethiqAllowance grantee granter url => Ethiq.allowance cfg grantee granter url
  | stakingAllowance grantee granter url => Staking.allowance cfg grantee granter url
  | erc20Allowance denom owner spender => Erc20.allowance cfg denom owner spender
  | calculate islmAmount => Ethiq.calculate cfg islmAmount
  | calculateForApplication appId => Ethiq.calculateForApplication cfg appId
  | totalSupply denom => Erc20.totalSupply denom
  | balanceOf denom account => Erc20.balanceOf denom account
  | sdk p m _ args => do runExcept (ext.querier p m args (← get))

/-! ## Calls -/

def Ucdao.ApprovalCall.name : ApprovalCall → MethodName
  | approve .. => .approve
  | revoke .. => .revoke
  | increaseAllowance .. => .increaseAllowance
  | decreaseAllowance .. => .decreaseAllowance

def TxCall.name : TxCall → Option (PrecompileName × MethodName)
  | convertToHaqq .. => some (.ucdao, .convertToHaqq)
  | transferOwnership .. => some (.ucdao, .transferOwnership)
  | transferOwnershipWithAmount .. => some (.ucdao, .transferOwnershipWithAmount)
  | mintHaqq .. => some (.ethiq, .mintHaqq)
  | mintHaqqByApplication .. => some (.ethiq, .mintHaqqByApplication)
  | liquidate .. => some (.liquid, .liquidate)
  | redeem .. => some (.liquid, .redeem)
  | createValidator .. => some (.staking, .createValidator)
  | editValidator .. => some (.staking, .editValidator)
  | delegate .. => some (.staking, .delegate)
  | undelegate .. => some (.staking, .undelegate)
  | redelegate .. => some (.staking, .redelegate)
  | cancelUnbondingDelegation .. => some (.staking, .cancelUnbondingDelegation)
  | _ => none

def AnyCall.name : AnyCall → Option (PrecompileName × MethodName)
  | module call => call.name
  | erc20Transfer denom _ _ => some (.erc20 denom, .transfer)
  | erc20TransferFrom denom _ _ _ => some (.erc20 denom, .transferFrom)
  | ics20Transfer .. => none

inductive Call (p : PrecompileName) (m : MethodName)
  | ucdaoApproval (call : Ucdao.ApprovalCall) (h : p = .ucdao ∧ call.name = m)
  | approval (h : m ∈ p.approvals) (args : Bytes)
  | transaction (call : AnyCall) (h : call.name = some (p, m))
  | query (request : Query) (h : request.name = (p, m))

/-- It panics in the middle of the method, or answers at the end whether the contract can pay. -/
inductive Gas
  | outOfGas (store : ChainState SdkState)
  | used (gasLeft : Bool)

def CallError.isPanic : CallError → Bool
  | keeper .panic => true
  | approval .panic => true
  | _ => false

def QueryError.isPanic : QueryError → Bool
  | keeper .panic => true
  | panic => true
  | _ => false

def nativeResult {ε α : Type} (isPanic : ε → Bool) (entries : α → List BalanceChangeEntry)
    (logs : List LogEntry) (gasLeft : Bool) :
    EStateM.Result ε (ChainState SdkState) α → NativeResult (Modules SdkState)
  | .ok a st => .ok st logs (entries a) gasLeft
  | .error e st => if isPanic e then .panic else .error st logs

section Run

variable (cfg : CallConfig) (ext : Externals)

def Call.run {p : PrecompileName} {m : MethodName} (call : Call p m) (gas : Gas)
    (logs : List LogEntry) (origin caller : Address) (st : ChainState SdkState) :
    NativeResult (Modules SdkState) :=
  match gas with
  | .outOfGas store => .outOfGas store logs
  | .used gasLeft =>
    match call with
    | ucdaoApproval call _ =>
      let tx : TxCall := .authorization fun grants => call.perform cfg.blockTime origin grants
      nativeResult CallError.isPanic id logs gasLeft ((tx.run cfg origin caller).run st)
    | approval _ args =>
      nativeResult CallError.isPanic (fun _ => []) logs gasLeft
        ((ext.approval p m args origin caller).run st)
    | transaction call _ =>
      nativeResult CallError.isPanic id logs gasLeft ((call.run cfg origin caller).run st)
    | query request _ =>
      nativeResult QueryError.isPanic (fun _ => []) logs gasLeft ((request.run cfg ext).run st)

structure Abi where
  address : PrecompileName → Address
  methodById : PrecompileName → Bytes → Option MethodName
  unpack : (p : PrecompileName) → (m : MethodName) → Bytes → Option (Call p m)
  /-- Every approval of the UCDAO precompile can be called. -/
  encodes : ∀ call : Ucdao.ApprovalCall, ∃ selector args : Bytes, selector.length = 4 ∧
    methodById .ucdao selector = some call.name ∧
      unpack .ucdao call.name args = some (.ucdaoApproval call ⟨rfl, rfl⟩)

variable (abi : Abi) (gas : Gas) (logs : List LogEntry)

def method (p : PrecompileName) (m : MethodName) : Method (Modules SdkState) where
  isTransaction := p.isTransaction m
  isFunction := true
  unpack args := (abi.unpack p m args).isSome
  run origin caller input st :=
    match abi.unpack p m (input.drop 4) with
    | some call => call.run cfg ext gas logs origin caller st
    -- the setup has unpacked the arguments
    | none => .panic

def precompile (p : PrecompileName) : Precompile (Modules SdkState) where
  address := abi.address p
  methodById selector := (abi.methodById p selector).map (method cfg ext abi gas logs p)
  receive := none
  fallback := none

end Run

def selected (abi : Abi) (p : PrecompileName) (contract : Contract) : Option MethodName :=
  if contract.input.length < 4 then none else abi.methodById p (contract.input.take 4)

end Haqq.Precompiles
