import Haqq.Evm.TxEvents
import Haqq.Lib.Decimal

/-!
# The gas used by a message

The gas arithmetic of `ApplyMessageWithConfig`: what the VM has consumed is reduced by the refund
counter, up to a share of it, but a message pays for a part of its gas limit at least.  No
difference wraps around.
-/

namespace Haqq.Evm

open Lib

/-- There is no error if its text is empty. -/
structure VmResult where
  ret : Bytes
  leftoverGas : UInt64
  vmError : String
  refund : UInt64
  logs : List String

inductive ApplyError
  /-- "intrinsic gas failed" -/
  | intrinsicGasFailed
  | intrinsicGas
  | gasOverflow
  /-- "failed to commit stateDB" -/
  | commit (err : KeeperError)
  deriving DecidableEq, Repr

def gasToRefund (availableRefund gasConsumed refundQuotient : UInt64) : UInt64 :=
  let refund := gasConsumed / refundQuotient
  if availableRefund < refund then availableRefund else refund

def refundQuotient (london : Bool) : UInt64 := if london then 5 else 2

section Apply

variable (london : Bool) (minGasMultiplier : Nat) (gas : UInt64)

def appliedRefund (result : VmResult) : UInt64 :=
  gasToRefund result.refund (gas - result.leftoverGas) (refundQuotient london)

def chargedGas (result : VmResult) : Except ApplyError UInt64 :=
  let refund := appliedRefund london gas result
  let leftoverGas := result.leftoverGas + refund
  let temporaryGasUsed := gas - result.leftoverGas - refund
  let minimumGasUsed := Decimal.mul (Decimal.ofNat gas.toNat) minGasMultiplier
  if 2 ^ 64 ≤ Decimal.truncateInt minimumGasUsed then .error .gasOverflow
  else if gas < leftoverGas then .error .gasOverflow
  else
    .ok (.ofNat (Decimal.truncateInt
      (max minimumGasUsed (Decimal.ofNat temporaryGasUsed.toNat))))

/-- Given the intrinsic gas, what the VM does with its gas and what committing does. -/
def applyMessageWithConfig (intrinsicGas : Option Nat) (vm : UInt64 → VmResult)
    (commit : VmResult → Except KeeperError Unit) (txHash : Hash) :
    Except ApplyError MsgEthereumTxResponse :=
  match intrinsicGas with
  | none => .error .intrinsicGasFailed
  | some intrinsicGas =>
    if gas.toNat < intrinsicGas then .error .intrinsicGas
    else
      let result := vm (gas - .ofNat intrinsicGas)
      if gas < result.leftoverGas then .error .gasOverflow
      else
        match commit result with
        | .error err => .error (.commit err)
        | .ok () =>
          match chargedGas london minGasMultiplier gas result with
          | .error err => .error err
          | .ok gasUsed => .ok ⟨gasUsed, result.vmError, result.ret, txHash, result.logs⟩

end Apply

/-! ## Bounds -/

variable {london : Bool} {minGasMultiplier : Nat} {gas : UInt64} {result : VmResult}

theorem gasToRefund_le (availableRefund gasConsumed quotient : UInt64) :
    (gasToRefund availableRefund gasConsumed quotient).toNat ≤
      gasConsumed.toNat / quotient.toNat := by
  rw [← UInt64.toNat_div]
  dsimp only [gasToRefund]
  split
  · rename_i h
    exact Nat.le_of_lt (UInt64.lt_iff_toNat_lt.mp h)
  · exact Nat.le_refl _

theorem appliedRefund_le (hleftover : result.leftoverGas ≤ gas) :
    (appliedRefund london gas result).toNat ≤
      (gas.toNat - result.leftoverGas.toNat) / (refundQuotient london).toNat := by
  have hrefund := gasToRefund_le result.refund (gas - result.leftoverGas) (refundQuotient london)
  rwa [UInt64.toNat_sub_of_le _ _ hleftover] at hrefund

theorem chargedGas_eq (hleftover : result.leftoverGas ≤ gas)
    (hmultiplier : minGasMultiplier ≤ Decimal.precision) :
    ∃ gasUsed, chargedGas london minGasMultiplier gas result = .ok gasUsed ∧
      gasUsed.toNat = max (gas.toNat * minGasMultiplier / Decimal.precision)
        (gas.toNat - result.leftoverGas.toNat - (appliedRefund london gas result).toNat) := by
  have hleftover' := UInt64.le_iff_toNat_le.mp hleftover
  have hgas := gas.toNat_lt
  have hrefund : (appliedRefund london gas result).toNat ≤
      gas.toNat - result.leftoverGas.toNat :=
    (appliedRefund_le hleftover).trans (Nat.div_le_self _ _)
  have hconsumed : (gas - result.leftoverGas).toNat = gas.toNat - result.leftoverGas.toNat :=
    UInt64.toNat_sub_of_le _ _ hleftover
  have hused : (gas - result.leftoverGas - appliedRefund london gas result).toNat =
      gas.toNat - result.leftoverGas.toNat - (appliedRefund london gas result).toNat := by
    rw [UInt64.toNat_sub_of_le _ _ (UInt64.le_iff_toNat_le.mpr (hconsumed ▸ hrefund)), hconsumed]
  have hsum : ¬gas < result.leftoverGas + appliedRefund london gas result := by
    rw [UInt64.lt_iff_toNat_lt, UInt64.toNat_add, Nat.mod_eq_of_lt (by omega)]
    omega
  have hminimum : gas.toNat * minGasMultiplier / Decimal.precision ≤ gas.toNat :=
    Nat.div_le_of_le_mul (by rw [Nat.mul_comm]; exact Nat.mul_le_mul_right _ hmultiplier)
  refine ⟨.ofNat (max (gas.toNat * minGasMultiplier / Decimal.precision)
    (gas.toNat - result.leftoverGas.toNat - (appliedRefund london gas result).toNat)), ?_, ?_⟩
  · simp only [chargedGas, Decimal.truncateInt_max_ofNat, Decimal.mul_ofNat, hused]
    rw [if_neg (by unfold Decimal.truncateInt; omega), if_neg hsum]
    rfl
  · rw [UInt64.toNat_ofNat', Nat.mod_eq_of_lt]
    omega

theorem applyMessageWithConfig_ok {intrinsicGas : Nat} {vm : UInt64 → VmResult}
    {commit : VmResult → Except KeeperError Unit} {txHash : Hash} {gasUsed : UInt64}
    (hintrinsic : intrinsicGas ≤ gas.toNat) (hresult : vm (gas - .ofNat intrinsicGas) = result)
    (hleftover : result.leftoverGas ≤ gas) (hcommit : commit result = .ok ())
    (hcharged : chargedGas london minGasMultiplier gas result = .ok gasUsed) :
    applyMessageWithConfig london minGasMultiplier gas (some intrinsicGas) vm commit txHash =
      .ok ⟨gasUsed, result.vmError, result.ret, txHash, result.logs⟩ := by
  rw [applyMessageWithConfig, if_neg (Nat.not_lt.mpr hintrinsic)]
  simp only [hresult]
  rw [if_neg (UInt64.not_lt.mpr hleftover)]
  generalize chargedGas london minGasMultiplier gas result = charged at *
  subst hcharged
  rw [hcommit]

end Haqq.Evm
