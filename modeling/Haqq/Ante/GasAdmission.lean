import Haqq.Ante.Handler

/-!
# The gas of an admitted transaction

The sums of the gas limits are accumulated in 64 bits: what the ante handler compares is the
remainder of the true sum modulo `2 ^ 64`.

* `Admission` and `GasCounts` collect what the checks compare.
* `admitted_gas_iff`: the limits hold for the true sums exactly if the gas counts.
-/

namespace Haqq.Ante

open Lib Evm

def totalGas (msgs : List MsgEthereumTx) : Nat := (msgs.map fun msg => msg.data.gas.toNat).sum

@[simp] theorem totalGas_nil : totalGas [] = 0 := rfl

@[simp] theorem totalGas_cons (msg : MsgEthereumTx) (rest : List MsgEthereumTx) :
    totalGas (msg :: rest) = msg.data.gas.toNat + totalGas rest := rfl

variable {cfg : AnteConfig} {mode : Mode} {tx : Tx} {msgs : List MsgEthereumTx} {s s' : AnteState}

theorem add_toNat_add_mod (gas acc : UInt64) (total : Nat) :
    ((acc + gas).toNat + total) % 2 ^ 64 = (acc.toNat + (gas.toNat + total)) % 2 ^ 64 := by
  rw [UInt64.toNat_add, Nat.mod_add_mod, Nat.add_assoc]

/-! ## What the decorators compare -/

theorem validateMsgs_gas {txFee txFee' : Coins} {gas gas' : UInt64}
    (h : (validateMsgs cfg msgs txFee gas).run s = .ok (txFee', gas') s') :
    gas'.toNat = (gas.toNat + totalGas msgs) % 2 ^ 64 := by
  induction msgs generalizing txFee gas s with
  | nil =>
    obtain ⟨hpair, -⟩ := run_pure_ok.mp h
    cases hpair
    rw [totalGas_nil, Nat.add_zero, Nat.mod_eq_of_lt gas'.toNat_lt]
  | cons msg rest ih =>
    simp only [validateMsgs, run_bind_ok] at h
    obtain ⟨_, _, -, _, _, -, hrest⟩ := h
    rw [ih hrest, totalGas_cons, add_toNat_add_mod]

theorem validateBasic_gas {u : Unit} (hmode : mode.isReCheckTx = false)
    (h : (validateBasic cfg mode tx).run s = .ok u s') :
    tx.fee.gasLimit.toNat = totalGas tx.msgs % 2 ^ 64 := by
  unfold validateBasic at h
  rw [if_neg (by simp [hmode])] at h
  simp only [run_bind_ok] at h
  obtain ⟨_, _, -, ⟨txFee, txGasLimit⟩, _, hmsgs, hcheck⟩ := h
  have hgas := validateMsgs_gas hmsgs
  simp only [checkTxFee, run_bind_ok, ensure_then] at hcheck
  rw [(run_ensure_ok.mp hcheck.2).1, hgas]
  simp

def signed (cfg : AnteConfig) (msg : MsgEthereumTx) : MsgEthereumTx :=
  { msg with sender := cfg.signer.sender msg.data }

theorem sigVerification_ok {msgs' : List MsgEthereumTx}
    (h : (sigVerification cfg msgs).run s = .ok msgs' s') :
    msgs' = msgs.map (signed cfg) ∧ s' = s := by
  induction msgs generalizing msgs' with
  | nil =>
    obtain ⟨rfl, rfl⟩ := run_pure_ok.mp h
    exact ⟨rfl, rfl⟩
  | cons msg rest ih =>
    simp only [sigVerification, verifySignature, run_bind_ok, ensure_then, ofOption_then,
      run_pure_ok] at h
    obtain ⟨_, _, ⟨-, sender, hsender, rfl, rfl⟩, rest', _, hrest, rfl, rfl⟩ := h
    obtain ⟨rfl, rfl⟩ := ih hrest
    rw [List.map_cons, signed, hsender]
    exact ⟨rfl, rfl⟩

theorem totalGas_map_signed (msgs : List MsgEthereumTx) :
    totalGas (msgs.map (signed cfg)) = totalGas msgs := by
  unfold totalGas
  rw [List.map_map]
  rfl

def Uncapped (cfg : AnteConfig) (mode : Mode) : Prop :=
  mode.isCheckTx = false ∨ cfg.maxTxGasWanted = 0

theorem consumeGas_gas {gas gas' : UInt64} (hcap : Uncapped cfg mode)
    (h : (consumeGas cfg mode msgs gas).run s = .ok gas' s') :
    gas'.toNat = (gas.toNat + totalGas msgs) % 2 ^ 64 := by
  have hupdate (msgGas acc : UInt64) :
      updateCumulativeGasWanted cfg mode msgGas acc = acc + msgGas := by
    unfold updateCumulativeGasWanted
    rw [if_neg]
    rintro ⟨hcheck, hmax⟩
    rcases hcap with hcap | hcap
    · rw [hcap] at hcheck
      cases hcheck
    · exact hmax hcap
  induction msgs generalizing gas s with
  | nil =>
    obtain ⟨rfl, -⟩ := run_pure_ok.mp h
    rw [totalGas_nil, Nat.add_zero, Nat.mod_eq_of_lt gas.toNat_lt]
  | cons msg rest ih =>
    simp only [consumeGas, run_bind_ok] at h
    obtain ⟨_, _, -, hrest⟩ := h
    rw [ih hrest, hupdate, totalGas_cons, add_toNat_add_mod]

theorem gasConsume_gas {u : Unit} (hmode : mode.isReCheckTx = false) (hcap : Uncapped cfg mode)
    (h : (gasConsume cfg mode msgs).run s = .ok u s') :
    totalGas msgs % 2 ^ 64 ≤ cfg.blockGasLimit.toNat := by
  unfold gasConsume at h
  rw [if_neg (by simp [hmode])] at h
  obtain ⟨gasWanted, _, hconsume, hcheck⟩ := run_bind_ok.mp h
  have hgas := consumeGas_gas hcap hconsume
  simp only [checkBlockGasLimit, run_bind_ok, ensure_then] at hcheck
  simp only [UInt64.toNat_zero, Nat.zero_add] at hgas
  rw [← hgas]
  exact UInt64.le_iff_toNat_le.mp hcheck.1

theorem checkGasWanted_gas {u : Unit} (hlondon : cfg.rules.london = true)
    (h : (checkGasWanted cfg tx).run s = .ok u s') :
    tx.fee.gasLimit.toNat ≤ cfg.blockGasLimit.toNat := by
  unfold checkGasWanted at h
  rw [if_neg (by simp [hlondon])] at h
  obtain ⟨_, _, hcheck, -⟩ := run_bind_ok.mp h
  exact UInt64.le_iff_toNat_le.mp (run_ensure_ok.mp hcheck).1

structure Admission (cfg : AnteConfig) (mode : Mode) (tx : Tx) : Prop where
  declared : mode.isReCheckTx = false → tx.fee.gasLimit.toNat = totalGas tx.msgs % 2 ^ 64
  wanted : mode.isReCheckTx = false → Uncapped cfg mode →
    totalGas tx.msgs % 2 ^ 64 ≤ cfg.blockGasLimit.toNat
  london : cfg.rules.london = true → tx.fee.gasLimit.toNat ≤ cfg.blockGasLimit.toNat

theorem admission_of_anteHandle {u : Unit} (h : (anteHandle cfg mode tx).run s = .ok u s') :
    Admission cfg mode tx := by
  simp only [anteHandle, run_bind_ok] at h
  obtain ⟨_, _, -, _, _, -, _, _, hvalid, msgs, _, hsigs, _, _, -, _, _, -, _, _, -, _,
    _, hgas, _, _,
    -, _, _, hwanted, -⟩ := h
  refine ⟨fun hmode => validateBasic_gas hmode hvalid, fun hmode hcap => ?_,
    fun hlondon => checkGasWanted_gas hlondon hwanted⟩
  obtain ⟨rfl, -⟩ := sigVerification_ok hsigs
  rw [← totalGas_map_signed]
  exact gasConsume_gas hmode hcap hgas

/-- The gas limits add up in 64 bits and are within the limit of a block where nothing checks it. -/
structure GasCounts (cfg : AnteConfig) (mode : Mode) (tx : Tx) : Prop where
  fits : totalGas tx.msgs < 2 ^ 64
  rechecked : mode.isReCheckTx = true → totalGas tx.msgs = tx.fee.gasLimit.toNat
  skipped : cfg.rules.london = false → (mode.isReCheckTx = true ∨ ¬Uncapped cfg mode) →
    totalGas tx.msgs ≤ cfg.blockGasLimit.toNat

/-- The gas limits of an admitted transaction add up to that of the fee, within the limit of a
block, exactly if the gas counts. -/
theorem admitted_gas_iff (cfg : AnteConfig) (mode : Mode) (tx : Tx) {s s' : AnteState}
    (h : (anteHandle cfg mode tx).run s = .ok () s') :
    (totalGas tx.msgs ≤ cfg.blockGasLimit.toNat ∧ totalGas tx.msgs = tx.fee.gasLimit.toNat) ↔
      GasCounts cfg mode tx := by
  have hadmitted := admission_of_anteHandle h
  constructor
  · rintro ⟨hlimit, hdeclared⟩
    exact ⟨hdeclared ▸ tx.fee.gasLimit.toNat_lt, fun _ => hdeclared, fun _ _ => hlimit⟩
  · intro hcounts
    have hdeclared : totalGas tx.msgs = tx.fee.gasLimit.toNat := by
      cases hmode : mode.isReCheckTx with
      | true => exact hcounts.rechecked hmode
      | false => rw [hadmitted.declared hmode, Nat.mod_eq_of_lt hcounts.fits]
    refine ⟨?_, hdeclared⟩
    cases hlondon : cfg.rules.london with
    | true => exact hdeclared ▸ hadmitted.london hlondon
    | false =>
      by_cases hskipped : mode.isReCheckTx = true ∨ ¬Uncapped cfg mode
      · exact hcounts.skipped hlondon hskipped
      · rw [not_or, not_not] at hskipped
        have hwanted := hadmitted.wanted (by simpa using hskipped.1) hskipped.2
        rwa [Nat.mod_eq_of_lt hcounts.fits] at hwanted

/-! ## A sum that wraps around -/

def anteConfig : AnteConfig where
  toSdkConfig := sdkConfig
  signer := ⟨fun _ => 0, fun _ => some 7, fun _ => true⟩
  texts := decimalTexts
  feeCollector := 106
  rules := ⟨true, true, true⟩
  marketBaseFee := some 1
  baseFeeEnabled := true
  minGasPrice := Decimal.ofNat 1
  nodeMinGasPrice := 0
  createRestricted := false
  callRestricted := false
  allowUnprotectedTxs := false
  maxTxGasWanted := 0
  blockGasMeter := some 10000000
  maxGas := some 10000000
  blockTxIndex := 0

def anteState : AnteState where
  chain :=
    { sdkGenesis with
      accounts := Function.update sdkGenesis.accounts 7 (some ⟨1, 0, .eth 0⟩)
      bank := ⟨fun a => if a = 7 then Tally.single .islm (10 ^ 20) else 0,
        Tally.single .islm (10 ^ 20)⟩ }
  transientGasWanted := 0
  gasMeterLimit := 0
  events := []

def transactionWith (gas : List UInt64) (declared : UInt64) : Tx where
  msgs := gas.zipIdx.map fun (limit, i) =>
    ⟨⟨.ofNat i, limit, some 9, some 0, [], .legacy 1, []⟩, 0, none⟩
  memo := ""
  timeoutHeight := 0
  extensionOptions := 1
  nonCriticalExtensionOptions := 0
  signerInfos := 0
  signatures := 0
  fee := ⟨Tally.single .islm (gas.map UInt64.toNat).sum, declared, "", ""⟩

theorem two_messages_admitted : ∃ s',
    (anteHandle anteConfig ⟨false, false, false⟩ (transactionWith [21000, 42000] 63000)).run
      anteState = .ok () s' ∧
    totalGas (transactionWith [21000, 42000] 63000).msgs ≤ anteConfig.blockGasLimit.toNat ∧
    totalGas (transactionWith [21000, 42000] 63000).msgs = 63000 := by
  obtain ⟨⟨⟩, s', hrun⟩ := exists_of_matches_ok (r := (anteHandle anteConfig ⟨false, false, false⟩
    (transactionWith [21000, 42000] 63000)).run anteState) (by decide +kernel)
  exact ⟨s', hrun, (admitted_gas_iff _ _ _ hrun).mpr ⟨by decide +kernel, nofun, nofun⟩⟩

def wrappingTx : Tx :=
  transactionWith [9223372036854775807, 9223372036854775807, 42002] 42000

theorem wrapping_sum_admitted :
    (∀ msg ∈ wrappingTx.msgs, msg.validateBasic anteConfig.signer = .ok ()) ∧
      ((anteHandle anteConfig ⟨false, false, false⟩ wrappingTx).run anteState matches .ok _ _) ∧
      wrappingTx.fee.gasLimit.toNat = 42000 ∧ totalGas wrappingTx.msgs = 2 ^ 64 + 42000 ∧
      anteConfig.blockGasLimit.toNat = 10 ^ 7 := by
  decide +kernel

end Haqq.Ante
