import Haqq.Evm.Precompile
import Haqq.Precompiles.Spending
import Haqq.Precompiles.UcdaoApprovals

/-!
# Transactions of the precompiles

The transaction methods of the precompiles (`tx.go` of each).  A method is called by an account, the
caller, in a transaction signed by the origin, and names the account that it acts for.  It returns
the balance changes that it mirrors into the StateDB.  Arguments are decoded; the events are left
out.
-/

namespace Haqq.Precompiles

open Lib Authz Evm

inductive CallError
  | keeper (err : KeeperError)
  /-- "invalid delegator address: %s" and its variants for the zero address. -/
  | invalidAddress
  /-- "origin address %s is not the same as sender address %s" and its variants. -/
  | differentOrigin (origin sender : Address)
  /-- "this method can only be called directly to the precompile, not from a smart
  contract" -/
  | cannotCallFromContract
  /-- "authorization to %s for address %s does not exist or is expired" -/
  | authzDoesNotExistOrExpired (url : MsgURL) (grantee : Address)
  /-- The same text, filled in with the caller and the origin. -/
  | noGrant (caller origin : Address)
  | unknownAuthorizationType
  /-- "amount %s greater than allowed limit %s" -/
  | exceededAllowance (amount limit : Nat)
  /-- "authorization not accepted" -/
  | notAccepted
  | accept (err : AcceptError)
  | authz (err : AuthzError)
  /-- "denoms and amounts length mismatch" -/
  | lengthMismatch
  /-- "maxRetrieve (%d) parameter exceeds the maximum number of validators (%d)" -/
  | maxRetrieveTooBig (maxRetrieve maxValidators : Nat)
  /-- "port ID (%s) channel ID (%s)" -/
  | channelNotFound (sourcePort sourceChannel : String)
  /-- "ERC20: insufficient allowance" -/
  | insufficientAllowance
  | approval (err : Ucdao.ApprovalError)

abbrev CallM := EStateM CallError (ChainState SdkState)

/-- The keeper belongs to another code base; the conversion of ERC-20 tokens runs the contract of
the token. -/
structure TransferKeeper where
  transferModule : Address
  erc20Module : Address
  hasChannel : String → String → Bool
  /-- `GetEscrowAddress` for a port and a channel. -/
  channelEscrow : String → String → Address
  /-- The denomination of the enabled token pair, and whether the pair belongs to an ERC-20
  contract. -/
  tokenPair : Denom → Option (Denom × Bool)
  transfer : (sender : Address) → (receiver sourcePort sourceChannel : String) → Coin →
    (memo : String) → SdkM Unit
  convertERC20 : Denom → (sender : Address) → (amount : Nat) → SdkM Unit
  /-- A transfer takes the coins of the sender: they go to escrow or are burned. -/
  transfer_spends : ∀ sender receiver sourcePort sourceChannel token memo,
    Relates (Spends {sender, transferModule})
      (transfer sender receiver sourcePort sourceChannel token memo)
  /-- A conversion pays coins of the ERC-20 module for tokens of the sender. -/
  convertERC20_spends : ∀ denom sender amount,
    Relates (Spends {sender, erc20Module}) (convertERC20 denom sender amount)

structure CallConfig extends SdkConfig where
  height : Int
  maxValidators : Nat
  withdrawAddrEnabled : Bool
  sendEnabled : Denom → Bool
  ibc : TransferKeeper

def keeper {α : Type} (x : SdkM α) : CallM α := x.adaptExcept .keeper

@[simp] theorem run_keeper_ok {α : Type} {x : SdkM α} {a : α} {st st' : ChainState SdkState} :
    (keeper x).run st = .ok a st' ↔ x.run st = .ok a st' :=
  run_adaptExcept_ok

variable (cfg : CallConfig) (origin caller : Address)

def findGrant (missing : CallError) (key : GrantKey) : CallM Grant := do
  ofOption missing ((← get).grants.getAuthorization cfg.blockTime key)

def acceptMsg (grant : Grant) (msg : Msg) : CallM AcceptResponse := do
  let resp ← runExcept ((grant.authorization.accept msg).mapError .accept)
  ensure (resp.accept = true) .notAccepted
  return resp

def updatedGrants (now : Int) (key : GrantKey) (expiration : Option Int) (resp : AcceptResponse)
    (grants : GrantStore) : Except AuthzError GrantStore :=
  if resp.delete then grants.deleteGrant key
  else
    match resp.updated with
    | some auth => grants.saveGrant now key.grantee key.granter auth expiration
    | none => .ok grants

def updateGrant (key : GrantKey) (expiration : Option Int) (resp : AcceptResponse) : CallM Unit :=
  do
  let grants ← runExcept
    ((updatedGrants cfg.blockTime key expiration resp (← get).grants).mapError .authz)
  modify fun st => st.setGrants grants

/-- `expected` is the check of the type of the authorization. -/
def consumeGrant (missing : CallError) (expected : Authorization → Bool) (granter : Address)
    (msg : Msg) : CallM Unit := do
  let key : GrantKey := ⟨caller, granter, msg.typeURL⟩
  let grant ← findGrant cfg missing key
  ensure (expected grant.authorization = true) .unknownAuthorizationType
  let resp ← acceptMsg grant msg
  updateGrant cfg key grant.expiration resp

/-- The sender is the caller or the origin, and in both cases the grant is the origin's. -/
def resolveSender (sender : Address) : CallM Address := do
  if caller = sender then return origin
  else
    ensure (origin = sender) (.differentOrigin origin sender)
    return sender

def checkAndAcceptAuthorizationIfNeeded (expected : Authorization → Bool) (granter : Address)
    (msg : Msg) : CallM Unit :=
  if caller = granter then pure ()
  else consumeGrant cfg caller (.noGrant caller granter) expected granter msg

def islmBalance (st : ChainState SdkState) (addr : Address) : Nat :=
  (st.bank.balance addr).get .islm

def balanceDelta (addr : Address) (before after : Nat) : List BalanceChangeEntry :=
  if before = after then []
  else if before < after then [⟨addr, after - before, .add⟩]
  else [⟨addr, before - after, .sub⟩]

/-- Mirrors the changes of the balances of some accounts, each once, unless the origin calls. -/
def mirrorBankBaseDeltas (addrs : List Address) (x : SdkM Unit) :
    CallM (List BalanceChangeEntry) := do
  let before ← get
  keeper x
  let after ← get
  return if caller = origin then []
    else addrs.dedup.flatMap fun addr =>
      balanceDelta addr (islmBalance before addr) (islmBalance after addr)

namespace Ucdao

def isUcdaoAuthorization : Authorization → Bool
  | .convertToHaqq _ => true
  | .transferOwnership _ => true
  | _ => false

def convertToHaqq (sender receiver : Address) (amount : Uint256) :
    CallM (List BalanceChangeEntry) := do
  let granter ← resolveSender origin caller sender
  checkAndAcceptAuthorizationIfNeeded cfg caller isUcdaoAuthorization granter
    (.convertToHaqq sender receiver amount.val)
  keeper ((Haqq.Ucdao.Msg.convertToHaqq sender receiver amount.val).handle cfg.toConfig)
  return []

def transferOwnership (owner newOwner : Address) : CallM (List BalanceChangeEntry) := do
  let granter ← resolveSender origin caller owner
  checkAndAcceptAuthorizationIfNeeded cfg caller isUcdaoAuthorization granter
    (.transferOwnership owner newOwner)
  ensure (origin = granter) (.differentOrigin origin granter)
  keeper ((Haqq.Ucdao.Msg.transferOwnership owner newOwner).handle cfg.toConfig)
  return []

def argumentCoins (denoms : List Denom) (amounts : List Uint256) : Coins :=
  ((denoms.zip amounts).map fun arg => Tally.single arg.1 arg.2.val).sum

def rawCoins (coins : Coins) : List RawCoin :=
  (Haqq.Ucdao.coinList coins).map fun coin => ⟨coin.denom, coin.amount⟩

def transferOwnershipWithAmount (owner newOwner : Address) (denoms : List Denom)
    (amounts : List Uint256) : CallM (List BalanceChangeEntry) := do
  ensure (denoms.length = amounts.length) .lengthMismatch
  let coins := argumentCoins denoms amounts
  let granter ← resolveSender origin caller owner
  checkAndAcceptAuthorizationIfNeeded cfg caller isUcdaoAuthorization granter
    (.transferOwnershipWithAmount owner newOwner (rawCoins coins))
  ensure (origin = granter) (.differentOrigin origin granter)
  keeper ((Haqq.Ucdao.Msg.transferOwnershipWithAmount owner newOwner coins).handle cfg.toConfig)
  return []

end Ucdao

namespace Ethiq

def isEthiqAuthorization : Authorization → Bool
  | .mintHaqq _ => true
  | .mintHaqqByApplicationID _ => true
  | _ => false

def mintHaqq (sender receiver : Address) (amount : Uint256) : CallM (List BalanceChangeEntry) := do
  let granter ← resolveSender origin caller sender
  checkAndAcceptAuthorizationIfNeeded cfg caller isEthiqAuthorization granter
    (.mintHaqq sender receiver amount.val)
  mirrorBankBaseDeltas origin caller [sender]
    ((Haqq.Ethiq.Msg.mintHaqq sender receiver amount.val).handle cfg.toConfig)

def applicationID (appId : Uint256) : Nat := appId.val % 2 ^ 64

def mintHaqqByApplication (sender : Address) (appId : Uint256) :
    CallM (List BalanceChangeEntry) := do
  let granter ← resolveSender origin caller sender
  checkAndAcceptAuthorizationIfNeeded cfg caller isEthiqAuthorization granter
    (.mintHaqqByApplication sender (applicationID appId))
  let application ← ofOption (.keeper .invalidApplicationId)
    (Haqq.Ethiq.getApplicationByID cfg.toConfig (applicationID appId))
  let debitAccount := if application.source = .ucdao then cfg.escrow sender else sender
  mirrorBankBaseDeltas origin caller [debitAccount]
    ((Haqq.Ethiq.Msg.mintHaqqByApplication sender (applicationID appId)).handle cfg.toConfig)

end Ethiq

namespace Liquid

/-- Every type of authorization will do. -/
def authorize (sender : Address) (msg : Msg) : CallM Unit := do
  ensure (msg.validateBasic = true) (.keeper .invalidRequest)
  ensure (caller = sender ∨ origin = sender) (.differentOrigin origin sender)
  if caller = origin then pure ()
  else
    consumeGrant cfg caller (.authzDoesNotExistOrExpired msg.typeURL caller)
      (fun _ => true) origin msg

def liquidate (sender receiver : Address) (amount : Uint256) : CallM (List BalanceChangeEntry) := do
  let coin : Coin := ⟨.islm, amount.val⟩
  authorize cfg origin caller sender (.liquidate sender receiver coin)
  mirrorBankBaseDeltas origin caller [sender] do
    let _ ← LiquidVesting.msgLiquidate cfg.toConfig sender receiver coin

def redeem (sender receiver : Address) (denom : Denom) (amount : Uint256) :
    CallM (List BalanceChangeEntry) := do
  let coin : Coin := ⟨denom, amount.val⟩
  authorize cfg origin caller sender (.redeem sender receiver coin)
  mirrorBankBaseDeltas origin caller [sender, receiver]
    (LiquidVesting.msgRedeem cfg.toConfig sender receiver coin)

end Liquid

/-! ## Staking -/

namespace Staking

/-- No limit if the inner value is missing. -/
def maxTokens : Authorization → Option (Option Coin)
  | .stake _ _ limit => some limit
  | _ => none

def checkAuthzAndAllowanceForGranter (key : GrantKey) (amount : Nat) : CallM Grant := do
  let grant ← findGrant cfg (.authzDoesNotExistOrExpired key.url key.grantee) key
  let limit ← ofOption .unknownAuthorizationType (maxTokens grant.authorization)
  let allowed := limit.all fun limit => amount ≤ limit.amount
  ensure (allowed = true) (.exceededAllowance amount (limit.elim 0 Coin.amount))
  return grant

def updateStakingAuthorization (key : GrantKey) (grant : Grant) (msg : Msg) : CallM Unit := do
  let resp ← runExcept ((grant.authorization.accept msg).mapError .accept)
  updateGrant cfg key grant.expiration resp

/-- The grant is used after the message was executed. -/
def execute (delegator : Address) (msg : Msg) (amount : Nat) (x : SdkM Unit) : CallM Unit := do
  ensure (delegator ≠ 0) .invalidAddress
  let granter ← resolveSender origin caller delegator
  if caller = origin then keeper x
  else
    let key : GrantKey := ⟨caller, granter, msg.typeURL⟩
    let grant ← checkAuthzAndAllowanceForGranter cfg key amount
    keeper x
    updateStakingAuthorization cfg key grant msg

def checkOperator (validator : Address) : CallM Unit := do
  ensure (validator ≠ 0) .invalidAddress
  ensure (caller = origin) .cannotCallFromContract
  ensure (origin = validator) (.differentOrigin origin validator)

def createValidator (validator : Address) (value : Uint256) : CallM (List BalanceChangeEntry) := do
  checkOperator origin caller validator
  keeper (Haqq.Staking.msgCreateValidator cfg.toSdkConfig validator ⟨.islm, value.val⟩)
  return []

def editValidator (validator : Address) : CallM (List BalanceChangeEntry) := do
  checkOperator origin caller validator
  ensure (validator ∈ (← get).staking.validators) (.keeper .notFound)
  return []

def delegate (delegator validator : Address) (amount : Uint256) :
    CallM (List BalanceChangeEntry) := do
  let coin : Coin := ⟨.islm, amount.val⟩
  execute cfg origin caller delegator (.delegate delegator validator coin) coin.amount
    (Haqq.Staking.msgDelegate cfg.toSdkConfig delegator validator coin)
  return if caller = origin then [] else [⟨delegator, coin.amount, .sub⟩]

def undelegate (delegator validator : Address) (amount : Uint256) :
    CallM (List BalanceChangeEntry) := do
  let coin : Coin := ⟨.islm, amount.val⟩
  execute cfg origin caller delegator (.undelegate delegator validator coin) coin.amount
    (Haqq.Staking.msgUndelegate cfg.toSdkConfig cfg.height delegator validator coin)
  return []

def redelegate (delegator source target : Address) (amount : Uint256) :
    CallM (List BalanceChangeEntry) := do
  let coin : Coin := ⟨.islm, amount.val⟩
  execute cfg origin caller delegator (.beginRedelegate delegator source target coin) coin.amount
    (Haqq.Staking.msgBeginRedelegate cfg.toSdkConfig delegator source target coin)
  return []

def cancelUnbondingDelegation (delegator validator : Address) (amount creationHeight : Uint256) :
    CallM (List BalanceChangeEntry) := do
  let coin : Coin := ⟨.islm, amount.val⟩
  -- `Int64` of the argument
  let height := int64 creationHeight.val
  execute cfg origin caller delegator (.cancelUnbondingDelegation delegator validator coin height)
    coin.amount
    (Haqq.Staking.msgCancelUnbondingDelegation cfg.toSdkConfig delegator validator coin height)
  return []

end Staking

/-! ## Distribution -/

namespace Distribution

/-- A contract can act for itself, otherwise the account is the origin's. -/
def checkAccount (addr : Address) : CallM Unit := do
  let isContract := decide (caller = addr ∧ origin ≠ addr)
  ensure (isContract = true ∨ origin = addr) (.differentOrigin origin addr)

/-- Unless the origin calls. -/
def withdrawEntry (addr : Address) (amount : Nat) : CallM (List BalanceChangeEntry) := do
  let withdrawer := (← get).distribution.withdrawAddress addr
  return if caller = origin then [] else [⟨withdrawer, amount, .add⟩]

/-- In the order of the store. -/
def getDelegatorValidators (st : ChainState SdkState) (delegator : Address) (maxRetrieve : Nat) :
    List Address :=
  (Tally.sorted (st.staking.bonded delegator).support).take maxRetrieve

def withdrawAll (delegator : Address) : List Address → SdkM Coins
  | [] => pure 0
  | validator :: rest => do
    let coins ← Haqq.Distribution.withdrawDelegationRewards cfg.toSdkConfig delegator validator
    let totalCoins ← withdrawAll delegator rest
    return coins + totalCoins

def claimRewards (delegator : Address) (maxRetrieve : UInt32) :
    CallM (List BalanceChangeEntry) := do
  ensure (delegator ≠ 0) .invalidAddress
  ensure (maxRetrieve.toNat ≤ cfg.maxValidators)
    (.maxRetrieveTooBig maxRetrieve.toNat cfg.maxValidators)
  checkAccount origin caller delegator
  let validators := getDelegatorValidators (← get) delegator maxRetrieve.toNat
  let totalCoins ← keeper (withdrawAll cfg delegator validators)
  withdrawEntry origin caller delegator (totalCoins.get .islm)

def setWithdrawAddress (delegator withdrawAddress : Address) : CallM (List BalanceChangeEntry) := do
  ensure (delegator ≠ 0) .invalidAddress
  checkAccount origin caller delegator
  keeper (Haqq.Distribution.setWithdrawAddr cfg.toSdkConfig cfg.withdrawAddrEnabled delegator
    withdrawAddress)
  return []

/-- The response for no coins is a zero coin. -/
def firstAmount (coins : Coins) : Nat :=
  match Tally.sorted coins.support with
  | [] => 0
  | denom :: _ => coins.get denom

def withdrawDelegatorRewards (delegator validator : Address) :
    CallM (List BalanceChangeEntry) := do
  ensure (delegator ≠ 0) .invalidAddress
  checkAccount origin caller delegator
  let rewards ← keeper
    (Haqq.Distribution.withdrawDelegationRewards cfg.toSdkConfig delegator validator)
  withdrawEntry origin caller delegator (firstAmount rewards)

def withdrawValidatorCommission (validator : Address) : CallM (List BalanceChangeEntry) := do
  checkAccount origin caller validator
  let commission ← keeper
    (Haqq.Distribution.withdrawValidatorCommission cfg.toSdkConfig validator)
  withdrawEntry origin caller validator (firstAmount commission)

def fundCommunityPool (depositor : Address) (amount : Uint256) :
    CallM (List BalanceChangeEntry) := do
  ensure (depositor ≠ 0) .invalidAddress
  checkAccount origin caller depositor
  keeper (Haqq.Distribution.fundCommunityPool cfg.toSdkConfig depositor amount.val)
  return if caller = origin then [] else [⟨depositor, amount.val, .sub⟩]

end Distribution

namespace Erc20

def msgSend (src dst : Address) (amount : Coins) : SdkM Unit := do
  ensure (∀ denom ∈ amount.support, cfg.sendEnabled denom = true) .invalidRequest
  ensure (cfg.blocked dst = false) .unauthorized
  Bank.sendCoins cfg.toEnv src dst amount

def isSend : Authorization → Bool
  | .send _ _ => true
  | _ => false

/-- The authz keeper does not look at the expiration again. -/
def updatedAllowance (key : GrantKey) (expiration : Option Int) (resp : AcceptResponse)
    (grants : GrantStore) : Except AuthzError GrantStore :=
  if resp.delete then grants.deleteGrant key
  else
    match resp.updated with
    | some auth => .ok (grants.put key.grantee key.granter auth expiration)
    | none => .ok grants

def dispatchActions (granter : Address) (msg : Msg) (x : SdkM Unit) : CallM Unit := do
  let key : GrantKey := ⟨caller, granter, msg.typeURL⟩
  let grant ← findGrant cfg .insufficientAllowance key
  let resp ← acceptMsg grant msg
  let grants ← runExcept
    ((updatedAllowance key grant.expiration resp (← get).grants).mapError .authz)
  modify fun st => st.setGrants grants
  keeper x

def send (src dst : Address) (coins : Coins) : CallM Unit :=
  if caller = src then keeper (msgSend cfg src dst coins)
  else do
    let msg : Msg := .send src dst coins
    let grant ← findGrant cfg .insufficientAllowance ⟨caller, src, msg.typeURL⟩
    ensure (isSend grant.authorization = true) .insufficientAllowance
    dispatchActions cfg caller src msg (msgSend cfg src dst coins)

def transfer (denom : Denom) (src dst : Address) (amount : Uint256) :
    CallM (List BalanceChangeEntry) := do
  let coins := Tally.single denom amount.val
  ensure (coins.isZero = false) (.keeper .invalidCoins)
  send cfg caller src dst coins
  return if denom = .islm then [⟨src, amount.val, .sub⟩, ⟨dst, amount.val, .add⟩] else []

end Erc20

namespace Ics20

/-- That of the token pair, if there is one. -/
def transferredDenom (denom : Denom) : Denom :=
  (cfg.ibc.tokenPair denom).elim denom Prod.fst

def convertMissing (sender : Address) (token : Coin) : SdkM Unit := do
  let balance := ((← get).bank.balance sender).get (transferredDenom cfg token.denom)
  let isNativeERC20 := (cfg.ibc.tokenPair token.denom).any Prod.snd
  if isNativeERC20 = true ∧ balance < token.amount then
    cfg.ibc.convertERC20 (transferredDenom cfg token.denom) sender (token.amount - balance)
  else pure ()

def transferTokens (sender : Address) (receiver sourcePort sourceChannel : String) (token : Coin)
    (memo : String) : SdkM Unit := do
  convertMissing cfg sender token
  cfg.ibc.transfer sender receiver sourcePort sourceChannel
    ⟨transferredDenom cfg token.denom, token.amount⟩ memo

def isTransfer : Authorization → Bool
  | .transfer _ => true
  | _ => false

/-- The grant is accepted before the transfer and rewritten after it. -/
def execute (msg : Msg) (x : SdkM Unit) : CallM Unit :=
  if caller = origin then keeper x
  else do
    let key : GrantKey := ⟨caller, origin, msg.typeURL⟩
    let grant ← findGrant cfg (.noGrant caller origin) key
    ensure (isTransfer grant.authorization = true) .unknownAuthorizationType
    let resp ← acceptMsg grant msg
    keeper x
    updateGrant cfg key grant.expiration resp

def transfer (sender : Address) (receiver sourcePort sourceChannel : String) (denom : Denom)
    (amount : Uint256) (memo : String) : CallM (List BalanceChangeEntry) := do
  let token : Coin := ⟨denom, amount.val⟩
  let msg : Msg := .transfer sender receiver sourcePort sourceChannel token memo
  ensure (msg.validateBasic = true) (.keeper .invalidRequest)
  ensure (cfg.ibc.hasChannel sourcePort sourceChannel = true)
    (.channelNotFound sourcePort sourceChannel)
  ensure (caller = sender ∨ origin = sender) (.differentOrigin origin sender)
  execute cfg origin caller msg
    (transferTokens cfg sender receiver sourcePort sourceChannel token memo)
  return if caller ≠ origin ∧ transferredDenom cfg denom = .islm then
    [⟨sender, amount.val, .sub⟩, ⟨cfg.ibc.channelEscrow sourcePort sourceChannel, amount.val, .add⟩]
  else []

end Ics20

/-! ## All transactions -/

/-- The methods of the authorization interface rewrite grants and do nothing else. -/
inductive TxCall
  | convertToHaqq (sender receiver : Address) (amount : Uint256)
  | transferOwnership (owner newOwner : Address)
  | transferOwnershipWithAmount (owner newOwner : Address) (denoms : List Denom)
      (amounts : List Uint256)
  | mintHaqq (sender receiver : Address) (amount : Uint256)
  | mintHaqqByApplication (sender : Address) (appId : Uint256)
  | liquidate (sender receiver : Address) (amount : Uint256)
  | redeem (sender receiver : Address) (denom : Denom) (amount : Uint256)
  | createValidator (validator : Address) (value : Uint256)
  | editValidator (validator : Address)
  | delegate (delegator validator : Address) (amount : Uint256)
  | undelegate (delegator validator : Address) (amount : Uint256)
  | redelegate (delegator source target : Address) (amount : Uint256)
  | cancelUnbondingDelegation (delegator validator : Address) (amount creationHeight : Uint256)
  | claimRewards (delegator : Address) (maxRetrieve : UInt32)
  | setWithdrawAddress (delegator withdrawAddress : Address)
  | withdrawDelegatorRewards (delegator validator : Address)
  | withdrawValidatorCommission (validator : Address)
  | fundCommunityPool (depositor : Address) (amount : Uint256)
  | authorization (change : GrantStore → Except Ucdao.ApprovalError GrantStore)

/-- The body of the method, with the balance changes that it reports to the `StateDB`. -/
def TxCall.run : TxCall → CallM (List BalanceChangeEntry)
  | convertToHaqq sender receiver amount =>
    Ucdao.convertToHaqq cfg origin caller sender receiver amount
  | transferOwnership owner newOwner => Ucdao.transferOwnership cfg origin caller owner newOwner
  | transferOwnershipWithAmount owner newOwner denoms amounts =>
    Ucdao.transferOwnershipWithAmount cfg origin caller owner newOwner denoms amounts
  | mintHaqq sender receiver amount => Ethiq.mintHaqq cfg origin caller sender receiver amount
  | mintHaqqByApplication sender appId => Ethiq.mintHaqqByApplication cfg origin caller sender appId
  | liquidate sender receiver amount => Liquid.liquidate cfg origin caller sender receiver amount
  | redeem sender receiver denom amount =>
    Liquid.redeem cfg origin caller sender receiver denom amount
  | createValidator validator value => Staking.createValidator cfg origin caller validator value
  | editValidator validator => Staking.editValidator origin caller validator
  | delegate delegator validator amount =>
    Staking.delegate cfg origin caller delegator validator amount
  | undelegate delegator validator amount =>
    Staking.undelegate cfg origin caller delegator validator amount
  | redelegate delegator source target amount =>
    Staking.redelegate cfg origin caller delegator source target amount
  | cancelUnbondingDelegation delegator validator amount creationHeight =>
    Staking.cancelUnbondingDelegation cfg origin caller delegator validator amount creationHeight
  | claimRewards delegator maxRetrieve =>
    Distribution.claimRewards cfg origin caller delegator maxRetrieve
  | setWithdrawAddress delegator withdrawAddress =>
    Distribution.setWithdrawAddress cfg origin caller delegator withdrawAddress
  | withdrawDelegatorRewards delegator validator =>
    Distribution.withdrawDelegatorRewards cfg origin caller delegator validator
  | withdrawValidatorCommission validator =>
    Distribution.withdrawValidatorCommission cfg origin caller validator
  | fundCommunityPool depositor amount =>
    Distribution.fundCommunityPool cfg origin caller depositor amount
  | authorization change => do
    let grants ← runExcept ((change (← get).grants).mapError .approval)
    modify fun st => st.setGrants grants
    return []

inductive AnyCall
  | module (call : TxCall)
  | erc20Transfer (denom : Denom) (dst : Address) (amount : Uint256)
  | erc20TransferFrom (denom : Denom) (src dst : Address) (amount : Uint256)
  | ics20Transfer (sender : Address) (receiver sourcePort sourceChannel : String) (denom : Denom)
      (amount : Uint256) (memo : String)

def AnyCall.run : AnyCall → CallM (List BalanceChangeEntry)
  | module call => call.run cfg origin caller
  | erc20Transfer denom dst amount => Erc20.transfer cfg caller denom caller dst amount
  | erc20TransferFrom denom src dst amount => Erc20.transfer cfg caller denom src dst amount
  | ics20Transfer sender receiver sourcePort sourceChannel denom amount memo =>
    Ics20.transfer cfg origin caller sender receiver sourcePort sourceChannel denom amount memo

end Haqq.Precompiles
