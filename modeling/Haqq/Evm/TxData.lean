import Haqq.Chain.Store
import Haqq.Lib.Effects

/-!
# The data of an Ethereum transaction

`x/evm/types` and `x/evm/keeper/fees.go`: the three types of transactions, the price per gas each of
them pays and the fee that the ante handler takes for it.  `ValidateBasic` refuses missing and
negative prices; an amount may be missing.
-/

namespace Haqq.Evm

open Lib

abbrev AccessTuples := List (Address × List Hash)

inductive TxType
  | legacy (gasPrice : Nat)
  | accessList (gasPrice : Nat) (accesses : AccessTuples)
  | dynamicFee (gasTipCap gasFeeCap : Nat) (accesses : AccessTuples)
  deriving DecidableEq, Repr

structure TxData where
  nonce : UInt64
  gas : UInt64
  recipient : Option Address
  value : Option Nat
  data : Bytes
  type : TxType
  signature : Bytes
  deriving DecidableEq, Repr

inductive TxDataError
  /-- "gas limit must not be zero" -/
  | zeroGas
  /-- "gas limit must be less than math.MaxInt64" -/
  | gasOverflow
  /-- `ErrInvalidGasPrice`, "out of bound" -/
  | gasPriceOutOfBound
  /-- `ErrInvalidGasCap`, "out of bound" -/
  | gasCapOutOfBound
  /-- "max priority fee per gas higher than max fee per gas (%s > %s)" -/
  | tipAboveFeeCap (gasTipCap gasFeeCap : Nat)
  /-- `ErrInvalidGasFee`, "out of bound" -/
  | feeOutOfBound
  /-- `ErrInvalidAmount`, "out of bound" -/
  | amountOutOfBound
  /-- "invalid tx hash %s, expected: %s" -/
  | invalidHash (hash expected : Hash)
  deriving DecidableEq, Repr

namespace TxData

variable (tx : TxData)

def getGasTipCap : Nat :=
  match tx.type with
  | .legacy gasPrice => gasPrice
  | .accessList gasPrice _ => gasPrice
  | .dynamicFee gasTipCap _ _ => gasTipCap

/-- The same as `GetGasPrice` for all types. -/
def getGasFeeCap : Nat :=
  match tx.type with
  | .legacy gasPrice => gasPrice
  | .accessList gasPrice _ => gasPrice
  | .dynamicFee _ gasFeeCap _ => gasFeeCap

def getAccessList : AccessTuples :=
  match tx.type with
  | .legacy _ => []
  | .accessList _ accesses => accesses
  | .dynamicFee _ _ accesses => accesses

def isDynamicFee : Bool :=
  match tx.type with
  | .dynamicFee .. => true
  | _ => false

def fee : Nat := tx.getGasFeeCap * tx.gas.toNat

def cost : Nat := tx.fee + tx.value.getD 0

/-- None is a nil pointer, for a dynamic fee without a base fee. -/
def effectiveGasPrice (baseFee : Option Nat) : Option Nat :=
  match tx.type with
  | .legacy gasPrice => some gasPrice
  | .accessList gasPrice _ => some gasPrice
  | .dynamicFee gasTipCap gasFeeCap _ => baseFee.map fun fee => min (gasTipCap + fee) gasFeeCap

def effectiveFee (baseFee : Option Nat) : Option Nat :=
  (tx.effectiveGasPrice baseFee).map fun price => price * tx.gas.toNat

def messageGasPrice (baseFee : Option Nat) : Nat :=
  match baseFee with
  | none => tx.getGasFeeCap
  | some fee => min (tx.getGasTipCap + fee) tx.getGasFeeCap

def inInt256 (n : Nat) : Prop := n < 2 ^ 256

instance (n : Nat) : Decidable (inInt256 n) := inferInstanceAs (Decidable (_ < _))

def validate : Except TxDataError Unit := do
  match tx.type with
  | .dynamicFee gasTipCap gasFeeCap _ =>
    if ¬inInt256 gasTipCap ∨ ¬inInt256 gasFeeCap then throw .gasCapOutOfBound
    if gasFeeCap < gasTipCap then throw (.tipAboveFeeCap gasTipCap gasFeeCap)
  | _ => if ¬inInt256 tx.getGasFeeCap then throw .gasPriceOutOfBound
  if ¬inInt256 tx.fee then throw .feeOutOfBound
  if ¬inInt256 (tx.value.getD 0) then throw .amountOutOfBound

end TxData

/-- The sender is set when the signature is verified. -/
structure MsgEthereumTx where
  data : TxData
  hash : Hash
  sender : Option Address
  deriving DecidableEq, Repr

structure Signer where
  hash : TxData → Hash
  sender : TxData → Option Address
  isProtected : TxData → Bool

def MsgEthereumTx.validateBasic (signer : Signer) (msg : MsgEthereumTx) :
    Except TxDataError Unit := do
  if msg.data.gas = 0 then throw .zeroGas
  if 2 ^ 63 ≤ msg.data.gas.toNat then throw .gasOverflow
  msg.data.validate
  if msg.hash ≠ signer.hash msg.data then throw (.invalidHash msg.hash (signer.hash msg.data))

/-! ## Fees -/

structure Rules where
  homestead : Bool
  istanbul : Bool
  london : Bool
  deriving DecidableEq, Repr

/-- None if the gas of the data exceeds 64 bits. -/
def intrinsicGas (rules : Rules) (data : Bytes) (accessList : AccessTuples)
    (isContractCreation : Bool) : Option Nat :=
  let base := if isContractCreation && rules.homestead then 53000 else 21000
  let nonZero := data.countP (· ≠ 0)
  let gas := base + nonZero * (if rules.istanbul then 16 else 68) + (data.length - nonZero) * 4
  if gas < 2 ^ 64 then
    some (gas + accessList.length * 2400 + (accessList.map fun entry => entry.2.length).sum * 1900)
  else none

theorem le_intrinsicGas {rules : Rules} {data : Bytes} {accessList : AccessTuples}
    {isContractCreation : Bool} {gas : Nat}
    (h : intrinsicGas rules data accessList isContractCreation = some gas) : 21000 ≤ gas := by
  unfold intrinsicGas at h
  have hbase : 21000 ≤ if isContractCreation && rules.homestead then 53000 else 21000 := by
    split <;> omega
  simp only [Option.ite_none_right_eq_some, Option.some.injEq] at h
  obtain ⟨-, rfl⟩ := h
  omega

inductive FeeError
  /-- "failed to retrieve intrinsic gas, contract creation = %t; homestead = %t, istanbul = %t" -/
  | intrinsicGas
  /-- "gas limit too low: %d (gas limit) < %d (intrinsic gas)" -/
  | gasLimitTooLow (gasLimit intrinsicGas : Nat)
  /-- "the tx gasfeecap is lower than the tx baseFee: %s (gasfeecap), %s (basefee) " -/
  | feeCapTooLow (gasFeeCap baseFee : Nat)
  /-- "sender balance < tx cost (%s < %s)" -/
  | senderBalance (balance cost : Nat)
  | panic
  deriving DecidableEq, Repr

def checkSenderBalance (balance : Nat) (tx : TxData) : Except FeeError Unit :=
  if balance < tx.cost then .error (.senderBalance balance tx.cost) else .ok ()

/-- Without a base fee the cap is not compared. -/
def verifyFee (rules : Rules) (baseFee : Option Nat) (isCheckTx : Bool) (tx : TxData) :
    Except FeeError Nat :=
  match intrinsicGas rules tx.data tx.getAccessList tx.recipient.isNone with
  | none => .error .intrinsicGas
  | some gas =>
    if isCheckTx = true ∧ tx.gas.toNat < gas then .error (.gasLimitTooLow tx.gas.toNat gas)
    else if tx.getGasFeeCap < baseFee.getD 0 then
      .error (.feeCapTooLow tx.getGasFeeCap (baseFee.getD 0))
    else
      match tx.effectiveFee baseFee with
      | none => .error .panic
      | some fee => .ok fee

namespace TxData

variable {tx : TxData} {baseFee : Option Nat}

theorem messageGasPrice_eq {price : Nat} (h : tx.effectiveGasPrice baseFee = some price) :
    tx.messageGasPrice baseFee = price := by
  unfold effectiveGasPrice at h
  unfold messageGasPrice getGasTipCap getGasFeeCap
  cases htype : tx.type with
  | legacy gasPrice =>
    rw [htype] at h
    cases h
    cases baseFee <;> simp
  | accessList gasPrice accesses =>
    rw [htype] at h
    cases h
    cases baseFee <;> simp
  | dynamicFee gasTipCap gasFeeCap accesses =>
    rw [htype] at h
    cases baseFee with
    | none => cases h
    | some fee =>
      cases h
      rfl

end TxData

theorem verifyFee_ok {rules : Rules} {baseFee : Option Nat} {isCheckTx : Bool} {tx : TxData}
    {fee : Nat} (h : verifyFee rules baseFee isCheckTx tx = .ok fee) :
    ∃ price, tx.effectiveGasPrice baseFee = some price ∧ fee = price * tx.gas.toNat := by
  revert h
  fun_cases verifyFee rules baseFee isCheckTx tx with
  | case1 => exact nofun
  | case2 => exact nofun
  | case3 => exact nofun
  | case4 => exact nofun
  | case5 _ _ _ _ _ heffective =>
    rintro ⟨⟩
    obtain ⟨price, hprice, rfl⟩ := Option.map_eq_some_iff.mp heffective
    exact ⟨price, hprice, rfl⟩

end Haqq.Evm
