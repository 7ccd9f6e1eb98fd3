import Haqq.Ante.ClaimRewards
import Haqq.Ante.VestingCheck
import Haqq.Evm.Store
import Haqq.Evm.TxEvents
import Haqq.Lib.Decimal

/-!
# The ante handler of Ethereum transactions

`app/ante/evm`: the decorators that a transaction with Ethereum messages passes, in the order of
`newEVMAnteHandler`.  A decorator that goes over the messages stops at the first one it refuses.
The priority of a transaction and the events of other types are left out.
-/

namespace Haqq.Ante

open Lib Evm

/-! ## Transactions and their context -/

structure Fee where
  amount : Coins
  gasLimit : UInt64
  payer : String
  granter : String

/-- Lists of which only the length matters are given by it. -/
structure Tx where
  msgs : List MsgEthereumTx
  memo : String
  timeoutHeight : UInt64
  extensionOptions : Nat
  nonCriticalExtensionOptions : Nat
  signerInfos : Nat
  signatures : Nat
  fee : Fee

structure Mode where
  isCheckTx : Bool
  isReCheckTx : Bool
  simulate : Bool
  deriving DecidableEq, Repr

/-- Prices have 18 decimals. -/
structure AnteConfig extends SdkConfig where
  signer : Signer
  texts : Texts
  feeCollector : Address
  rules : Rules
  marketBaseFee : Option Nat
  baseFeeEnabled : Bool
  minGasPrice : Nat
  nodeMinGasPrice : Nat
  createRestricted : Bool
  callRestricted : Bool
  allowUnprotectedTxs : Bool
  maxTxGasWanted : UInt64
  blockGasMeter : Option UInt64
  /-- The gas limit of the consensus parameters, if there are block parameters. -/
  maxGas : Option Int64
  blockTxIndex : UInt64

namespace AnteConfig

variable (cfg : AnteConfig)

def baseFee : Option Nat := if cfg.rules.london then some (cfg.marketBaseFee.getD 0) else none

def blockGasLimit : UInt64 :=
  if cfg.blockGasMeter.getD 0 ≠ 0 then cfg.blockGasMeter.getD 0
  else
    match cfg.maxGas with
    | none => 0
    | some maxGas =>
      if maxGas = -1 then 18446744073709551615
      else if 0 < maxGas then maxGas.toUInt64
      else 0

end AnteConfig

/-- The chain, the gas that the block wants so far, the limit of the transaction's gas meter and the
events. -/
structure AnteState where
  chain : ChainState SdkState
  transientGasWanted : UInt64
  gasMeterLimit : UInt64
  events : List TxEvent

inductive AnteError
  /-- "insufficient fee; got: %s required: %s" -/
  | mempoolFee (fee required : Nat)
  /-- "provided fee < minimum global fee (%s < %s). […]" -/
  | globalFee (fee required : Nat)
  /-- "invalid gas supplied; %d > %d" -/
  | invalidGas (gasLimit : Nat)
  /-- "for eth tx body Memo TimeoutHeight NonCriticalExtensionOptions should be empty" -/
  | bodyNotEmpty
  /-- "for eth tx length of ExtensionOptions should be 1" -/
  | extensionOptions
  /-- "for eth tx AuthInfo SignerInfos should be empty" -/
  | signerInfos
  /-- "for eth tx AuthInfo Fee payer and granter should be empty" -/
  | payerOrGranter
  /-- "for eth tx Signatures should be empty" -/
  | signatures
  /-- "invalid from address; expected nil; got: %q" -/
  | fromNotNil (sender : Address)
  /-- "failed to create new contract" -/
  | createDisabled
  /-- "failed to perform a call" -/
  | callDisabled
  /-- "dynamic fee tx not supported" -/
  | dynamicFeeNotSupported
  /-- "invalid AuthInfo Fee Amount (%s != %s)" -/
  | feeAmount
  /-- "invalid AuthInfo Fee GasLimit (%d != %d)" -/
  | feeGasLimit (declared txGasLimit : Nat)
  /-- "rejected unprotected Ethereum transaction. […]" -/
  | unprotected
  /-- "couldn't retrieve sender address from the ethereum transaction: %s" -/
  | noSigner
  /-- "the sender is not EOA: address %s" -/
  | senderNotEOA (addr : Address)
  | fees (err : FeeError)
  /-- "base fee is supported but evm block context value is nil" -/
  | nilBaseFee
  /-- "max fee per gas less than block base fee (%s < %s)" -/
  | maxFeeTooLow (gasFeeCap baseFee : Nat)
  /-- "failed to transfer %s from address %s using the EVM block context transfer function" -/
  | cannotTransfer (value : Nat) (addr : Address)
  | vesting (err : VestingError)
  | claim (err : ClaimError)
  | keeper (err : KeeperError)
  /-- "tx gas (%d) exceeds block gas limit (%d)" -/
  | exceedsBlockGasLimit (gas blockGasLimit : Nat)
  /-- "account %s is nil" -/
  | unknownAddress
  /-- "invalid nonce; got %d, expected %d" -/
  | invalidSequence (txNonce nonce : Nat)

abbrev AnteM := EStateM AnteError AnteState

def onChain {ε α : Type} (wrap : ε → AnteError) (x : EStateM ε (ChainState SdkState) α) : AnteM α :=
  fun s =>
    match x.run s.chain with
    | .ok a chain => .ok a { s with chain := chain }
    | .error err chain => .error (wrap err) { s with chain := chain }

theorem run_onChain_ok {ε α : Type} {wrap : ε → AnteError} {x : EStateM ε (ChainState SdkState) α}
    {a : α} {s s' : AnteState} :
    (onChain wrap x).run s = .ok a s' ↔
      ∃ chain, x.run s.chain = .ok a chain ∧ s' = { s with chain := chain } := by
  show (match x.run s.chain with
    | .ok a chain => .ok a { s with chain := chain }
    | .error err chain => .error (wrap err) { s with chain := chain } :
      EStateM.Result AnteError AnteState α) = .ok a s' ↔ _
  cases x.run s.chain with
  | ok b chain =>
    constructor
    · intro h
      cases h
      exact ⟨chain, rfl, rfl⟩
    · rintro ⟨_, h, rfl⟩
      cases h
      rfl
  | error err chain => exact ⟨nofun, fun ⟨_, h, _⟩ => nomatch h⟩

def getFrom (msg : MsgEthereumTx) : AnteM Address := ofOption .unknownAddress msg.sender

variable (cfg : AnteConfig) (mode : Mode)

/-- `CheckMempoolFee` and `CheckGlobalFee` -/
def checkFee (err : Nat → Nat → AnteError) (fee minGasPrice : Nat) (gas : UInt64) : AnteM Unit :=
  let requiredFee := Decimal.mul minGasPrice (Decimal.ofNat gas.toNat)
  ensure (requiredFee ≤ Decimal.ofNat fee) (err fee (Decimal.truncateInt requiredFee))

/-- `EthMempoolFeeDecorator`; there is a base fee from the London fork on. -/
def mempoolFee (tx : Tx) : AnteM Unit :=
  if mode.isCheckTx = false ∨ mode.simulate = true ∨ cfg.baseFee.isSome = true then pure ()
  else tx.msgs.forM fun msg => checkFee .mempoolFee msg.data.fee cfg.nodeMinGasPrice msg.data.gas

/-- `EthMinGasPriceDecorator` -/
def checkGlobalFee (tx : Tx) : AnteM Unit :=
  if cfg.minGasPrice = 0 then pure ()
  else tx.msgs.forM fun msg => do
    let fee ←
      if msg.data.isDynamicFee = true ∧ cfg.baseFee.isSome = true then
        ofOption (.fees .panic) (msg.data.effectiveFee cfg.baseFee)
      else pure msg.data.fee
    checkFee .globalFee fee cfg.minGasPrice msg.data.gas

/-- `ValidateTx`, with the check of the SDK on the gas limit. -/
def validateTx (tx : Tx) : AnteM Unit := do
  ensure (tx.fee.gasLimit.toNat < 2 ^ 63) (.invalidGas tx.fee.gasLimit.toNat)
  ensure (tx.memo = "" ∧ tx.timeoutHeight = 0 ∧ tx.nonCriticalExtensionOptions = 0) .bodyNotEmpty
  ensure (tx.extensionOptions = 1) .extensionOptions
  ensure (tx.signerInfos = 0) .signerInfos
  ensure (tx.fee.payer = "" ∧ tx.fee.granter = "") .payerOrGranter
  ensure (tx.signatures = 0) .signatures

def validateMsg (msg : MsgEthereumTx) : AnteM Unit := do
  match msg.sender with
  | some sender => throw (.fromNotNil sender)
  | none =>
    match msg.data.recipient with
    | none => ensure (cfg.createRestricted = false) .createDisabled
    | some _ => ensure (cfg.callRestricted = false) .callDisabled

def validateMsgs : List MsgEthereumTx → Coins → UInt64 → AnteM (Coins × UInt64)
  | [], txFee, txGasLimit => pure (txFee, txGasLimit)
  | msg :: rest, txFee, txGasLimit => do
    validateMsg cfg msg
    ensure ((cfg.baseFee.isNone && msg.data.isDynamicFee) = false) .dynamicFeeNotSupported
    validateMsgs rest (txFee + Tally.single cfg.evmDenom msg.data.fee) (txGasLimit + msg.data.gas)

def checkTxFee (fee : Fee) (txFee : Coins) (txGasLimit : UInt64) : AnteM Unit := do
  ensure (Vesting.coinEq fee.amount txFee = true) .feeAmount
  ensure (fee.gasLimit = txGasLimit) (.feeGasLimit fee.gasLimit.toNat txGasLimit.toNat)

def validateBasic (tx : Tx) : AnteM Unit :=
  if mode.isReCheckTx = true then pure ()
  else do
    validateTx tx
    let (txFee, txGasLimit) ← validateMsgs cfg tx.msgs 0 0
    checkTxFee tx.fee txFee txGasLimit

/-- `SignatureVerification` sets the sender of the message. -/
def verifySignature (msg : MsgEthereumTx) : AnteM MsgEthereumTx := do
  ensure (cfg.allowUnprotectedTxs = true ∨ cfg.signer.isProtected msg.data = true) .unprotected
  let sender ← ofOption .noSigner (cfg.signer.sender msg.data)
  return { msg with sender := some sender }

def sigVerification : List MsgEthereumTx → AnteM (List MsgEthereumTx)
  | [] => pure []
  | msg :: rest => do
    let msg ← verifySignature cfg msg
    let rest ← sigVerification rest
    return msg :: rest

/-- `VerifyAccountBalance`; the account of a sender that has none is created. -/
def verifyAccountBalance (msg : MsgEthereumTx) : AnteM Unit := do
  let sender ← getFrom msg
  match getAccount cfg.toEnv (← get).chain sender with
  | some account =>
    ensure (account.codeHash = cfg.emptyCodeHash) (.senderNotEOA sender)
    runExcept ((checkSenderBalance account.balance.toNat msg.data).mapError .fees)
  | none =>
    modify fun s => { s with chain := s.chain.newAccount sender (.eth cfg.emptyCodeHash) }
    runExcept ((checkSenderBalance 0 msg.data).mapError .fees)

def accountVerification (msgs : List MsgEthereumTx) : AnteM Unit :=
  if mode.isCheckTx = false then pure () else msgs.forM (verifyAccountBalance cfg)

def canTransferMsg (msg : MsgEthereumTx) : AnteM Unit := do
  let sender ← getFrom msg
  ensure (cfg.rules.london = false ∨ cfg.baseFee.getD 0 ≤ msg.data.getGasFeeCap)
    (.maxFeeTooLow msg.data.getGasFeeCap (cfg.baseFee.getD 0))
  let value := msg.data.value.getD 0
  ensure (value ≤ getBalance cfg.toEnv (← get).chain sender) (.cannotTransfer value sender)

def canTransfer (msgs : List MsgEthereumTx) : AnteM Unit := do
  ensure (cfg.rules.london = false ∨ cfg.baseFee.isSome = true) .nilBaseFee
  msgs.forM (canTransferMsg cfg)

def vestingTransaction (msgs : List MsgEthereumTx) : AnteM Unit := do
  runExcept ((vestingDecorator cfg.toEnv (← get).chain (some msgs)).mapError .vesting)

/-! ## Gas -/

def deductTxCosts (fees : Nat) (sender : Address) : SdkM Unit := do
  let _ ← ofOption .notFound ((← get).accounts sender)
  Bank.sendCoinsFromAccountToModule cfg.toEnv sender cfg.feeCollector
    (Tally.single cfg.evmDenom fees)

def deductFee (fees : Nat) (feePayer : Address) : AnteM Unit :=
  if fees = 0 then pure ()
  else do
    onChain .claim
      (claimStakingRewardsIfNecessary cfg.toSdkConfig feePayer (Tally.single cfg.evmDenom fees))
    onChain .keeper (deductTxCosts cfg fees feePayer)

def updateCumulativeGasWanted (msgGasWanted cumulativeGasWanted : UInt64) : UInt64 :=
  if mode.isCheckTx = true ∧ cfg.maxTxGasWanted ≠ 0 then
    if cfg.maxTxGasWanted < msgGasWanted then cumulativeGasWanted + cfg.maxTxGasWanted
    else cumulativeGasWanted + msgGasWanted
  else cumulativeGasWanted + msgGasWanted

def consumeFees (msg : MsgEthereumTx) : AnteM Unit := do
  let sender ← getFrom msg
  let fees ← runExcept
    ((verifyFee cfg.rules cfg.baseFee mode.isCheckTx msg.data).mapError .fees)
  deductFee cfg fees sender

def consumeGas : List MsgEthereumTx → UInt64 → AnteM UInt64
  | [], gasWanted => pure gasWanted
  | msg :: rest, gasWanted => do
    consumeFees cfg mode msg
    consumeGas rest (updateCumulativeGasWanted cfg mode msg.data.gas gasWanted)

def checkBlockGasLimit (gasWanted : UInt64) : AnteM Unit := do
  ensure (gasWanted ≤ cfg.blockGasLimit)
    (.exceedsBlockGasLimit gasWanted.toNat cfg.blockGasLimit.toNat)
  modify fun s => { s with gasMeterLimit := gasWanted }

def gasConsume (msgs : List MsgEthereumTx) : AnteM Unit :=
  if mode.isReCheckTx = true then modify fun s => { s with gasMeterLimit := 0 }
  else do
    let gasWanted ← consumeGas cfg mode msgs 0
    checkBlockGasLimit cfg gasWanted

def incrementSequence (msg : MsgEthereumTx) : AnteM Unit := do
  let sender ← getFrom msg
  let acct ← ofOption .unknownAddress ((← get).chain.accounts sender)
  ensure (msg.data.nonce = acct.sequence)
    (.invalidSequence msg.data.nonce.toNat acct.sequence.toNat)
  modify fun s =>
    { s with chain := s.chain.setAccount sender { acct with sequence := acct.sequence + 1 } }

def checkGasWanted (tx : Tx) : AnteM Unit :=
  if cfg.rules.london = false then pure ()
  else do
    ensure (tx.fee.gasLimit ≤ cfg.blockGasLimit)
      (.exceedsBlockGasLimit tx.fee.gasLimit.toNat cfg.blockGasLimit.toNat)
    if cfg.baseFeeEnabled = true then
      modify fun s => { s with transientGasWanted := s.transientGasWanted + tx.fee.gasLimit }

def emitEvents (msgs : List MsgEthereumTx) : AnteM Unit :=
  modify fun s =>
    { s with events := s.events ++ msgs.zipIdx.map fun (msg, i) =>
        txHashEvent cfg.texts msg cfg.blockTxIndex (.ofNat i) }

/-- The decorators in the order of `newEVMAnteHandler`. -/
def anteHandle (tx : Tx) : AnteM Unit := do
  mempoolFee cfg mode tx
  checkGlobalFee cfg tx
  validateBasic cfg mode tx
  let msgs ← sigVerification cfg tx.msgs
  accountVerification cfg mode msgs
  canTransfer cfg msgs
  vestingTransaction cfg msgs
  gasConsume cfg mode msgs
  msgs.forM incrementSequence
  checkGasWanted cfg tx
  emitEvents cfg msgs

end Haqq.Ante
