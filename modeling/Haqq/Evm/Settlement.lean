import Haqq.Ante.GasAdmission
import Haqq.Evm.GasUsed
import Haqq.Evm.Transaction

/-!
# Charging and refunding gas

The ante handler takes the fee for the whole gas limit of a message, and `ApplyTransaction` returns
the price of the gas that was not used, at the same price.

`message_settles`: in the end the fee collector keeps the price of the gas used.
-/

namespace Haqq.Evm

open Lib Ante

variable (cfg : AnteConfig) (msg : MsgEthereumTx) (sender : Address)

def refundLeftoverGas (leftoverGas : UInt64) : SdkM Unit :=
  let remaining := leftoverGas.toNat * msg.data.messageGasPrice cfg.baseFee
  if remaining = 0 then pure ()
  else Bank.sendCoinsFromModuleToAccount cfg.toEnv cfg.feeCollector sender
    (Tally.single cfg.evmDenom remaining)

/-- Rewards that the ante handler claims for the fee are claimed before the fee is taken. -/
structure Settles (fees : Nat) (gasUsed : UInt64) (charging charged : AnteState)
    (refunding refunded : ChainState SdkState) (price : Nat) (claimed : ChainState SdkState)
    (refund : Nat) : Prop where
  effective : msg.data.effectiveGasPrice cfg.baseFee = some price
  claims : (fees = 0 ∧ claimed = charging.chain) ∨
    (claimStakingRewardsIfNecessary cfg.toSdkConfig sender (Tally.single cfg.evmDenom fees)).run
      charging.chain = .ok () claimed
  collected : sender ≠ cfg.feeCollector →
    getBalance cfg.toEnv charged.chain sender + fees = getBalance cfg.toEnv claimed sender ∧
      getBalance cfg.toEnv charged.chain cfg.feeCollector =
        getBalance cfg.toEnv claimed cfg.feeCollector + fees
  returned : sender ≠ cfg.feeCollector →
    getBalance cfg.toEnv refunded cfg.feeCollector + refund =
        getBalance cfg.toEnv refunding cfg.feeCollector ∧
      getBalance cfg.toEnv refunded sender = getBalance cfg.toEnv refunding sender + refund
  refunds : refund = (msg.data.gas - gasUsed).toNat * msg.data.messageGasPrice cfg.baseFee
  within : refund ≤ fees
  kept : fees - refund = gasUsed.toNat * price

variable {cfg msg sender}

theorem getBalance_sendCoins {src dst : Address} {amount : Nat} {st st' : ChainState SdkState}
    {u : Unit} (hne : src ≠ dst)
    (h : (Bank.sendCoins cfg.toEnv src dst (Tally.single cfg.evmDenom amount)).run st = .ok u st') :
    getBalance cfg.toEnv st' src + amount = getBalance cfg.toEnv st src ∧
      getBalance cfg.toEnv st' dst = getBalance cfg.toEnv st dst + amount := by
  obtain ⟨bank, hsend, rfl⟩ := Bank.run_sendCoins_ok.mp h
  have hsrc := Ledger.balance_send hsend src cfg.evmDenom
  have hdst := Ledger.balance_send hsend dst cfg.evmDenom
  rw [if_pos rfl, if_neg hne, Tally.get_single_self] at hsrc
  rw [if_pos rfl, if_neg hne.symm, Tally.get_single_self] at hdst
  unfold getBalance
  rw [Bank.withRecipient_bank]
  exact ⟨hsrc, hdst⟩

theorem deductFee_ok {fees : Nat} {s s' : AnteState} {u : Unit}
    (h : (deductFee cfg fees sender).run s = .ok u s') :
    ∃ claimed, ((fees = 0 ∧ claimed = s.chain) ∨ (claimStakingRewardsIfNecessary cfg.toSdkConfig
        sender (Tally.single cfg.evmDenom fees)).run s.chain = .ok () claimed) ∧
      (sender ≠ cfg.feeCollector →
        getBalance cfg.toEnv s'.chain sender + fees = getBalance cfg.toEnv claimed sender ∧
        getBalance cfg.toEnv s'.chain cfg.feeCollector =
          getBalance cfg.toEnv claimed cfg.feeCollector + fees) := by
  unfold deductFee at h
  split at h
  · rename_i hzero
    obtain ⟨-, rfl⟩ := run_pure_ok.mp h
    rw [hzero]
    exact ⟨s.chain, .inl ⟨rfl, rfl⟩, fun _ => ⟨rfl, rfl⟩⟩
  · simp only [run_bind_ok, run_onChain_ok] at h
    obtain ⟨⟨⟩, _, ⟨claimed, hclaim, rfl⟩, charged, hcharge, rfl⟩ := h
    simp only [deductTxCosts, run_bind_ok, get_then, ofOption_then] at hcharge
    obtain ⟨_, -, hsend⟩ := hcharge
    exact ⟨claimed, .inr hclaim, fun hne => getBalance_sendCoins hne hsend⟩

theorem refundLeftoverGas_ok {leftoverGas : UInt64} {st st' : ChainState SdkState} {u : Unit}
    (hne : sender ≠ cfg.feeCollector)
    (h : (refundLeftoverGas cfg msg sender leftoverGas).run st = .ok u st') :
    getBalance cfg.toEnv st' cfg.feeCollector +
        leftoverGas.toNat * msg.data.messageGasPrice cfg.baseFee =
      getBalance cfg.toEnv st cfg.feeCollector ∧
    getBalance cfg.toEnv st' sender = getBalance cfg.toEnv st sender +
      leftoverGas.toNat * msg.data.messageGasPrice cfg.baseFee := by
  dsimp only [refundLeftoverGas] at h
  split at h
  · rename_i hzero
    obtain ⟨-, rfl⟩ := run_pure_ok.mp h
    rw [hzero]
    exact ⟨rfl, rfl⟩
  · simp only [Bank.sendCoinsFromModuleToAccount, run_bind_ok, ensure_then] at h
    obtain ⟨-, hsend⟩ := h
    exact getBalance_sendCoins hne.symm hsend

theorem settles_of_gasUsed_le {isCheckTx : Bool} {gasUsed : UInt64} (hused : gasUsed ≤ msg.data.gas)
    {fees : Nat} (hfees : verifyFee cfg.rules cfg.baseFee isCheckTx msg.data = .ok fees)
    {charging charged : AnteState}
    (hcharge : (deductFee cfg fees sender).run charging = .ok () charged)
    {refunding refunded : ChainState SdkState}
    (hrefund : (refundLeftoverGas cfg msg sender (msg.data.gas - gasUsed)).run refunding =
      .ok () refunded) :
    ∃ price claimed refund,
      Settles cfg msg sender fees gasUsed charging charged refunding refunded price
        claimed refund := by
  obtain ⟨price, hprice, rfl⟩ := verifyFee_ok hfees
  obtain ⟨claimed, hclaims, hcollected⟩ := deductFee_ok hcharge
  have hrefunds : (msg.data.gas - gasUsed).toNat * msg.data.messageGasPrice cfg.baseFee =
      (msg.data.gas.toNat - gasUsed.toNat) * price := by
    rw [UInt64.toNat_sub_of_le _ _ hused, TxData.messageGasPrice_eq hprice]
  have hsplit : price * msg.data.gas.toNat =
      gasUsed.toNat * price + (msg.data.gas.toNat - gasUsed.toNat) * price := by
    rw [← Nat.add_mul, Nat.add_sub_cancel' (UInt64.le_iff_toNat_le.mp hused), Nat.mul_comm]
  exact ⟨price, claimed, _, hprice, hclaims, hcollected,
    fun hne => refundLeftoverGas_ok hne hrefund, rfl, by omega, by omega⟩

/-- The gas used is within the gas limit, covers the minimal part of it, and the refund is within
the quotient; the fee collector keeps the price of the gas used. -/
theorem message_settles (cfg : AnteConfig) (msg : MsgEthereumTx) (sender : Address)
    {minGasMultiplier intrinsicGas : Nat} {vm : UInt64 → VmResult}
    {commit : VmResult → Except KeeperError Unit} {txHash : Hash}
    (hmultiplier : minGasMultiplier ≤ Decimal.precision)
    (hintrinsic : intrinsicGas ≤ msg.data.gas.toNat)
    (hleftover : (vm (msg.data.gas - .ofNat intrinsicGas)).leftoverGas ≤ msg.data.gas)
    (hcommit : commit (vm (msg.data.gas - .ofNat intrinsicGas)) = .ok ()) :
    ∃ response, applyMessageWithConfig cfg.rules.london minGasMultiplier msg.data.gas
        (some intrinsicGas) vm commit txHash = .ok response ∧
      response.gasUsed ≤ msg.data.gas ∧
      msg.data.gas.toNat * minGasMultiplier / Decimal.precision ≤ response.gasUsed.toNat ∧
      (appliedRefund cfg.rules.london msg.data.gas
        (vm (msg.data.gas - .ofNat intrinsicGas))).toNat ≤
        (msg.data.gas.toNat - (vm (msg.data.gas - .ofNat intrinsicGas)).leftoverGas.toNat) /
          (refundQuotient cfg.rules.london).toNat ∧
      ∀ isCheckTx fees charging charged refunding refunded,
        verifyFee cfg.rules cfg.baseFee isCheckTx msg.data = .ok fees →
        (deductFee cfg fees sender).run charging = .ok () charged →
        (refundLeftoverGas cfg msg sender (msg.data.gas - response.gasUsed)).run refunding =
          .ok () refunded →
        ∃ price claimed refund, Settles cfg msg sender fees response.gasUsed charging charged
          refunding refunded price claimed refund := by
  generalize hresult : vm (msg.data.gas - .ofNat intrinsicGas) = result at *
  obtain ⟨gasUsed, hcharged, hgasUsed⟩ :=
    @chargedGas_eq cfg.rules.london _ _ _ hleftover hmultiplier
  have hminimum : msg.data.gas.toNat * minGasMultiplier / Decimal.precision ≤ msg.data.gas.toNat :=
    Nat.div_le_of_le_mul (by rw [Nat.mul_comm]; exact Nat.mul_le_mul_right _ hmultiplier)
  have hle : gasUsed ≤ msg.data.gas := by
    rw [UInt64.le_iff_toNat_le, hgasUsed]
    omega
  refine ⟨_, applyMessageWithConfig_ok hintrinsic hresult hleftover hcommit hcharged, hle, ?_,
    appliedRefund_le hleftover, fun _ _ _ _ _ _ hfees hcharge hrefund =>
      settles_of_gasUsed_le hle hfees hcharge hrefund⟩
  rw [hgasUsed]
  exact Nat.le_max_left _ _

def halfUsed : MsgEthereumTx :=
  ⟨⟨0, 100000, some 9, some 0, [], .legacy 1, []⟩, 0, some 7⟩

def leaving : UInt64 → VmResult := fun _ => ⟨[], 60000, "", 1000, []⟩

theorem halfUsed_settles : ∃ response charged refunded price claimed refund,
    applyMessageWithConfig true (Decimal.precision / 2) 100000 (some 21000) leaving
      (fun _ => .ok ()) 0 = .ok response ∧
    response.gasUsed = 50000 ∧
    Settles anteConfig halfUsed 7 100000 response.gasUsed anteState charged charged.chain refunded
      price claimed refund := by
  obtain ⟨response, hresponse, -, -, -, hsettles⟩ :=
    @message_settles anteConfig halfUsed 7 (Decimal.precision / 2) 21000 leaving
      (fun _ => .ok ()) 0 (by decide) (by decide) (by decide) rfl
  have hvalue : applyMessageWithConfig true (Decimal.precision / 2) 100000 (some 21000) leaving
      (fun _ => .ok ()) 0 = .ok ⟨50000, "", [], 0, []⟩ := by
    decide +kernel
  cases hresponse.symm.trans hvalue
  -- the two transfers as one run of the ante handler's monad
  obtain ⟨⟨⟩, final, hrun⟩ := exists_of_matches_ok
    (r := (deductFee anteConfig 100000 7 >>= fun _ =>
      onChain AnteError.keeper (refundLeftoverGas anteConfig halfUsed 7 50000)).run anteState)
    (by decide +kernel)
  simp only [run_bind_ok, run_onChain_ok] at hrun
  obtain ⟨_, charged, hcharge, refunded, hrefund, -⟩ := hrun
  obtain ⟨price, claimed, refund, hsettled⟩ :=
    hsettles false 100000 anteState charged charged.chain refunded (by decide) hcharge hrefund
  exact ⟨_, charged, refunded, price, claimed, refund, hvalue, rfl, hsettled⟩

end Haqq.Evm
