import Haqq.Evm.GasUsed
import Haqq.Lib.BinarySearch

/-!
# Estimating gas

`EstimateGasInternal` of `x/evm/keeper/grpc_query.go` with `BinSearch` of `x/evm/types/utils.go`.
The bounds of the search are added in 64 bits, so with an allowance beyond 2^63 the search may not
end.

* `estimates_iff` is about the search, with `exists_found_of_orbit` beyond 2^63.
* `estimateGasInternal_right_iff`: when the estimate ends and is right.
-/

namespace Haqq.Evm

open Lib Lib.BinarySearch

/-! ## The message -/

structure TransactionArgs where
  sender : Option Address
  recipient : Option Address
  gas : Option UInt64
  gasPrice : Option Nat
  maxFeePerGas : Option Nat
  maxPriorityFeePerGas : Option Nat
  value : Option Nat
  nonce : Option UInt64
  data : Option Bytes
  input : Option Bytes
  accessList : Option AccessTuples

structure EthMessage where
  sender : Address
  recipient : Option Address
  nonce : UInt64
  value : Nat
  gasLimit : UInt64
  gasPrice : Nat
  gasFeeCap : Nat
  gasTipCap : Nat
  data : Bytes
  accessList : AccessTuples

inductive EstimateError
  /-- "empty request" -/
  | emptyRequest
  | invalidChainID
  /-- "gas cap cannot be lower than %d" -/
  | gasCapTooLow (txGas : UInt64)
  | invalidArgs
  /-- "failed to load evm config" -/
  | evmConfig
  /-- "both gasPrice and (maxFeePerGas or maxPriorityFeePerGas) specified" -/
  | bothFeeStyles
  | keeper (err : KeeperError)
  | apply (err : ApplyError)
  | vm (vmError : String)
  /-- "gas required exceeds allowance (%d)" -/
  | exceedsAllowance (gasCap : UInt64)
  deriving DecidableEq, Repr

namespace TransactionArgs

variable (args : TransactionArgs)

def getFrom : Address := args.sender.getD 0

def getData : Bytes := args.input.getD (args.data.getD [])

def prices (baseFee : Option Nat) : Nat × Nat × Nat :=
  match baseFee, args.gasPrice with
  | none, gasPrice => (gasPrice.getD 0, gasPrice.getD 0, gasPrice.getD 0)
  | some _, some gasPrice => (gasPrice, gasPrice, gasPrice)
  | some baseFee, none =>
    let gasFeeCap := args.maxFeePerGas.getD 0
    let gasTipCap := args.maxPriorityFeePerGas.getD 0
    (gasFeeCap, gasTipCap,
      if 0 < gasFeeCap ∨ 0 < gasTipCap then min (gasTipCap + baseFee) gasFeeCap else 0)

/-- No cap stands for half of the largest number. -/
def messageGas (globalGasCap : UInt64) : UInt64 :=
  let gas := args.gas.getD (if globalGasCap = 0 then 9223372036854775807 else globalGasCap)
  if globalGasCap ≠ 0 ∧ globalGasCap < gas then globalGasCap else gas

/-- Fees are given in the style of EIP-1559 or as a gas price, not both. -/
def toMessage (globalGasCap : UInt64) (baseFee : Option Nat) : Except EstimateError EthMessage :=
  if args.gasPrice.isSome ∧ (args.maxFeePerGas.isSome ∨ args.maxPriorityFeePerGas.isSome) then
    .error .bothFeeStyles
  else
    let (gasFeeCap, gasTipCap, gasPrice) := args.prices baseFee
    .ok {
      sender := args.getFrom
      recipient := args.recipient
      nonce := args.nonce.getD 0
      value := args.value.getD 0
      gasLimit := args.messageGas globalGasCap
      gasPrice := gasPrice
      gasFeeCap := gasFeeCap
      gasTipCap := gasTipCap
      data := args.getData
      accessList := args.accessList.getD [] }

end TransactionArgs

/-! ## The request -/

inductive CallType
  | rpc
  | internal
  deriving DecidableEq, Repr

structure EthCallRequest where
  args : Option TransactionArgs
  gasCap : UInt64
  proposerAddress : Bytes
  chainId : Int64

structure EstimateGasResponse where
  gas : UInt64
  ret : Bytes
  vmError : String
  deriving DecidableEq, Repr

structure EvmConfig where
  rules : Rules
  baseFee : Option Nat

/-- Nothing of an execution is committed, so every one starts from the same state. -/
structure EstimateContext where
  chainID : Option Int
  /-- The gas limit of a block, if there are block parameters. -/
  maxGas : Option Int64
  evmConfig : Int → Bytes → Option EvmConfig
  nonce : Address → UInt64
  /-- Stores the account of a client with the next nonce. -/
  setNonce : Address → UInt64 → Except KeeperError Unit
  minGasMultiplier : Nat
  multiplier_le : minGasMultiplier ≤ Decimal.precision
  /-- What the VM does with a message and the gas that is left for it. -/
  vm : CallType → EvmConfig → EthMessage → UInt64 → VmResult
  leftover_le : ∀ fromType cfg msg gas, (vm fromType cfg msg gas).leftoverGas ≤ gas

def txGas : UInt64 := 21000

variable (ctx : EstimateContext)

def EstimateContext.getChainID (chainId : Int64) : Option Int :=
  if chainId = 0 then ctx.chainID else some chainId.toInt

def allowance (args : TransactionArgs) (gasCap : UInt64) : UInt64 :=
  let blockGas := match ctx.maxGas with
    | some maxGas => if 0 < maxGas.toInt then maxGas.toUInt64 else gasCap
    | none => gasCap
  let hi := match args.gas with
    | some gas => if txGas ≤ gas then gas else blockGas
    | none => blockGas
  if gasCap ≠ 0 ∧ gasCap < hi then gasCap else hi

def prepareAccount (fromType : CallType) (msg : EthMessage) : Except KeeperError Unit :=
  match fromType with
  | .rpc => ctx.setNonce msg.sender (msg.nonce + 1)
  | .internal => .ok ()

/-- Too little gas for the message itself is a failure like any other. -/
def executable (fromType : CallType) (cfg : EvmConfig) (msg : EthMessage) (gas : UInt64) :
    Except EstimateError (Bool × Option MsgEthereumTxResponse) :=
  match prepareAccount ctx fromType msg with
  | .error err => .error (.keeper err)
  | .ok () =>
    match applyMessageWithConfig cfg.rules.london ctx.minGasMultiplier gas
        (intrinsicGas cfg.rules msg.data msg.accessList msg.recipient.isNone)
        (ctx.vm fromType cfg { msg with gasLimit := gas }) (fun _ => .ok ()) 0 with
    | .error .intrinsicGas => .ok (true, none)
    | .error err => .error (.apply err)
    | .ok response => .ok (response.failed, some response)

theorem executable_cases (fromType : CallType) (cfg : EvmConfig) (msg : EthMessage) :
    (∃ err, ∀ gas, executable ctx fromType cfg msg gas = .error err) ∨
      ∀ gas, executable ctx fromType cfg msg gas = .ok (true, none) ∨
        txGas ≤ gas ∧ ∃ left response,
          executable ctx fromType cfg msg gas = .ok (response.failed, some response) ∧
          response.vmError = (ctx.vm fromType cfg { msg with gasLimit := gas } left).vmError := by
  unfold executable
  cases prepareAccount ctx fromType msg with
  | error err => exact .inl ⟨.keeper err, fun _ => rfl⟩
  | ok u =>
    cases hrequired : intrinsicGas cfg.rules msg.data msg.accessList msg.recipient.isNone with
    | none => exact .inl ⟨.apply .intrinsicGasFailed, fun _ => rfl⟩
    | some required =>
      refine .inr fun gas => ?_
      by_cases hgas : gas.toNat < required
      · left
        rw [applyMessageWithConfig, if_pos hgas]
      have hle : required ≤ gas.toNat := Nat.not_lt.mp hgas
      have hleft := ctx.leftover_le fromType cfg { msg with gasLimit := gas }
        (gas - .ofNat required)
      have hsub : gas - .ofNat required ≤ gas := by
        have hofNat : (UInt64.ofNat required).toNat = required :=
          UInt64.toNat_ofNat_of_lt (hle.trans_lt gas.toNat_lt)
        rw [UInt64.le_iff_toNat_le, UInt64.toNat_sub_of_le _ _
          (by rw [UInt64.le_iff_toNat_le, hofNat]; exact hle)]
        exact Nat.sub_le _ _
      obtain ⟨gasUsed, hcharged, -⟩ := @chargedGas_eq cfg.rules.london _ _ _
        (UInt64.le_trans hleft hsub) ctx.multiplier_le
      refine .inr ⟨UInt64.le_iff_toNat_le.mpr ((le_intrinsicGas hrequired).trans hle),
        gas - .ofNat required, ?_⟩
      rw [applyMessageWithConfig_ok hle rfl (UInt64.le_trans hleft hsub) rfl hcharged]
      exact ⟨_, rfl, rfl⟩

theorem executable_uniform (fromType : CallType) (cfg : EvmConfig) (msg : EthMessage) :
    (∃ err, ∀ gas, executable ctx fromType cfg msg gas = .error err) ∨
      ∀ gas, ∃ result, executable ctx fromType cfg msg gas = .ok result := by
  refine (executable_cases ctx fromType cfg msg).imp_right fun hcases gas => ?_
  rcases hcases gas with h | ⟨-, _, _, h, -⟩ <;> exact ⟨_, h⟩

variable {gas : UInt64}

theorem executable_ok_false {fromType : CallType} {cfg : EvmConfig} {msg : EthMessage}
    {response : Option MsgEthereumTxResponse}
    (h : executable ctx fromType cfg msg gas = .ok (false, response)) :
    txGas ≤ gas ∧ ∃ left, (ctx.vm fromType cfg { msg with gasLimit := gas } left).vmError = "" := by
  rcases executable_cases ctx fromType cfg msg with ⟨err, herr⟩ | hcases
  · cases (herr gas).symm.trans h
  · rcases hcases gas with hfails | ⟨hle, left, response, hok, hvm⟩
    · cases hfails.symm.trans h
    · have hfailed : response.failed = false := congrArg Prod.fst (Except.ok.inj (hok.symm.trans h))
      refine ⟨hle, left, hvm.symm.trans ?_⟩
      simpa [MsgEthereumTxResponse.failed] using hfailed

/-! ## The estimate -/

/-- Whether there is an error does not depend on the gas, and below the gas of a transfer nothing is
executed. -/
structure Estimation where
  gasCap : UInt64
  executable : UInt64 → Except EstimateError (Bool × Option MsgEthereumTxResponse)
  uniform : (∃ err, ∀ gas, executable gas = .error err) ∨
    ∀ gas, ∃ result, executable gas = .ok result
  txGas_le : ∀ gas response, executable gas = .ok (false, response) → txGas ≤ gas

/-- What `EstimateGas` does before the binary search. -/
def setupEstimate (fromType : CallType) : Option EthCallRequest → Except EstimateError Estimation
  | none => .error .emptyRequest
  | some req =>
    match ctx.getChainID req.chainId with
    | none => .error .invalidChainID
    | some chainID =>
      if req.gasCap < txGas then .error (.gasCapTooLow txGas)
      else
        match req.args with
        | none => .error .invalidArgs
        | some args =>
          match ctx.evmConfig chainID req.proposerAddress with
          | none => .error .evmConfig
          | some cfg =>
            match { args with nonce := some (ctx.nonce args.getFrom) : TransactionArgs }.toMessage
                req.gasCap cfg.baseFee with
            | .error err => .error err
            | .ok msg => .ok {
                gasCap := allowance ctx args req.gasCap
                executable := executable ctx fromType cfg msg
                uniform := executable_uniform ctx fromType cfg msg
                txGas_le := fun _ _ h => (executable_ok_false ctx h).1 }

namespace Estimation

variable (est : Estimation)

def failed (gas : UInt64) : Except EstimateError Bool := (est.executable gas).map Prod.fst

def errOutOfGas : String := "out of gas"

def errExecutionReverted : String := "execution reverted"

/-- The allowance is checked once more. -/
def finish (hi : UInt64) : Except EstimateError EstimateGasResponse :=
  if hi = est.gasCap then
    match est.executable hi with
    | .error err => .error err
    | .ok (false, _) => .ok ⟨hi, [], ""⟩
    | .ok (true, none) => .error (.exceedsAllowance est.gasCap)
    | .ok (true, some result) =>
      if result.vmError = errOutOfGas then .error (.exceedsAllowance est.gasCap)
      else if result.vmError = errExecutionReverted then .ok ⟨0, result.ret, result.vmError⟩
      else .error (.vm result.vmError)
  else .ok ⟨hi, [], ""⟩

/-- There is no result if the fuel runs out. -/
def run (fuel : Nat) : Option (Except EstimateError EstimateGasResponse) :=
  match search est.failed fuel (txGas - 1) est.gasCap with
  | none => none
  | some (.error err) => some (.error err)
  | some (.ok hi) => some (est.finish hi)

end Estimation

def estimateGasInternal (fromType : CallType) (req : Option EthCallRequest) (fuel : Nat) :
    Option (Except EstimateError EstimateGasResponse) :=
  match setupEstimate ctx fromType req with
  | .error err => some (.error err)
  | .ok est => est.run fuel

/-! ## Whether the estimate is right -/

variable {r : UInt64}

namespace Estimation

variable {est : Estimation}

def Executes (est : Estimation) (gas : UInt64) : Prop := est.failed gas = .ok false

def Monotone (est : Estimation) : Prop :=
  ∀ gas gas', est.Executes gas → gas ≤ gas' → gas' ≤ est.gasCap → est.Executes gas'

def Fails (result : Except EstimateError EstimateGasResponse) : Prop :=
  ∀ response, result = .ok response → response.vmError ≠ ""

/-- The least gas limit with which the message executes, and a failure exactly if the message fails
with the whole allowance. -/
structure Estimates (est : Estimation) (result : Except EstimateError EstimateGasResponse) :
    Prop where
  least : ∀ response, result = .ok response → response.vmError = "" →
    txGas ≤ response.gas ∧ response.gas ≤ est.gasCap ∧ est.Executes response.gas ∧
      ∀ gas, txGas ≤ gas → est.Executes gas → response.gas ≤ gas
  fails_iff : Fails result ↔ ¬ est.Executes est.gasCap

structure Found (est : Estimation) (r : UInt64) : Prop where
  le_cap : r ≤ est.gasCap
  executes : r = est.gasCap ∨ est.Executes r
  least : ∀ gas, est.Executes gas → r ≤ gas

theorem failed_of_ok {result : Bool × Option MsgEthereumTxResponse}
    (h : est.executable gas = .ok result) : est.failed gas = .ok result.1 := by
  rw [failed, h]
  rfl

theorem failed_of_error {err : EstimateError} (h : est.executable gas = .error err) :
    est.failed gas = .error err := by
  rw [failed, h]
  rfl

theorem Executes.txGas_le (h : est.Executes gas) : txGas ≤ gas := by
  unfold Executes at h
  cases hrun : est.executable gas with
  | error err =>
    rw [failed_of_error hrun] at h
    cases h
  | ok result =>
    obtain ⟨_, response⟩ := result
    cases (failed_of_ok hrun).symm.trans h
    exact est.txGas_le gas response hrun

theorem Executes.lo_lt (h : est.Executes gas) : txGas - 1 < gas := by
  have := UInt64.le_iff_toNat_le.mp h.txGas_le
  rw [UInt64.lt_iff_toNat_lt]
  exact Nat.lt_of_lt_of_le (by decide) this

theorem finish_gasCap :
    est.Executes est.gasCap ∧ est.finish est.gasCap = .ok ⟨est.gasCap, [], ""⟩ ∨
      ¬ est.Executes est.gasCap ∧ Fails (est.finish est.gasCap) := by
  unfold finish Executes
  rw [if_pos rfl]
  cases hrun : est.executable est.gasCap with
  | error err =>
    rw [failed_of_error hrun]
    exact .inr ⟨nofun, nofun⟩
  | ok result =>
    obtain ⟨b, response⟩ := result
    rw [failed_of_ok hrun]
    cases b with
    | false => exact .inl ⟨rfl, rfl⟩
    | true =>
      refine .inr ⟨nofun, ?_⟩
      cases response with
      | none => exact nofun
      | some result =>
        dsimp only
        split
        · exact nofun
        · split
          · rename_i hreverted
            rintro _ ⟨⟩
            rw [hreverted]
            exact (by decide : errExecutionReverted ≠ "")
          · exact nofun

theorem finish_of_ne (h : r ≠ est.gasCap) : est.finish r = .ok ⟨r, [], ""⟩ := by
  rw [finish, if_neg h]

theorem executes_of_run {fuel : Nat} {response : EstimateGasResponse}
    (h : est.run fuel = some (.ok response)) (hvm : response.vmError = "") :
    est.Executes response.gas := by
  unfold run at h
  split at h
  · cases h
  · cases h
  · rename_i hi hsearch
    obtain h := Option.some.inj h
    by_cases hcap : hi = est.gasCap
    · subst hcap
      rcases @finish_gasCap est with ⟨hexecutes, hfinish⟩ | ⟨-, hfails⟩
      · cases hfinish.symm.trans h
        exact hexecutes
      · exact absurd hvm (hfails response h)
    · cases (finish_of_ne hcap).symm.trans h
      exact (search_ok hsearch).resolve_left hcap

theorem Found.estimates (h : est.Found r) (hmono : est.Monotone) :
    est.Estimates (est.finish r) := by
  have hreturned : ∀ hexecutes : est.Executes r, est.Estimates (.ok ⟨r, [], ""⟩) := by
    intro hexecutes
    refine ⟨?_, fun hfails => absurd rfl (hfails _ rfl), fun hcap => ?_⟩
    · rintro _ ⟨⟩ -
      exact ⟨hexecutes.txGas_le, h.le_cap, hexecutes, fun gas _ hgas => h.least gas hgas⟩
    · exact absurd (hmono r est.gasCap hexecutes h.le_cap (UInt64.le_refl _)) hcap
  by_cases hcap : r = est.gasCap
  · subst hcap
    rcases @finish_gasCap est with ⟨hexecutes, hfinish⟩ | ⟨hcap, hfails⟩
    · rw [hfinish]
      exact hreturned hexecutes
    · exact ⟨fun response hresponse hvm => absurd hvm (hfails response hresponse),
        fun _ => hcap, fun _ => hfails⟩
  · rw [finish_of_ne hcap]
    exact hreturned (h.executes.resolve_left hcap)

/-! ## What the search finds -/

variable (htotal : ∀ gas, ∃ b, est.failed gas = .ok b) (hmono : est.Monotone)

include hmono in
theorem least_of_brackets {lo hi : UInt64} (hhi : hi ≤ est.gasCap)
    (hlo : ∀ gas, est.Executes gas → lo < gas) (h : Brackets est.failed lo hi r)
    (hgas : est.Executes gas) : r ≤ gas := by
  have hupper := UInt64.le_iff_toNat_le.mp (UInt64.le_trans h.upper hhi)
  rw [UInt64.le_iff_toNat_le]
  by_contra hlt
  rcases h.below with hnext | ⟨l, hl, hfails⟩
  · have := UInt64.lt_iff_toNat_lt.mp (hlo gas hgas)
    omega
  · have hexecutes := hmono gas l hgas (UInt64.le_iff_toNat_le.mpr (by omega))
      (UInt64.le_iff_toNat_le.mpr (by omega))
    cases hfails.symm.trans hexecutes

include htotal hmono in
theorem exists_found_of_le (hcap : est.gasCap.toNat ≤ 2 ^ 63) :
    ∃ fuel r, search est.failed fuel (txGas - 1) est.gasCap = some (.ok r) ∧ est.Found r := by
  by_cases hlt : txGas - 1 < est.gasCap
  · obtain ⟨r, hsearch, hr⟩ := exists_search htotal hcap hlt (Nat.le_refl _)
    exact ⟨_, r, hsearch, hr.upper, hr.found, fun gas hgas =>
      least_of_brackets hmono (UInt64.le_refl _) (fun _ hgas => hgas.lo_lt) hr hgas⟩
  · have hle := UInt64.le_iff_toNat_le.mp (UInt64.not_lt.mp hlt)
    have hclosed : ¬ txGas - 1 + 1 < est.gasCap := by
      rw [UInt64.lt_iff_toNat_lt]
      exact Nat.not_lt.mpr (hle.trans (by decide))
    refine ⟨1, est.gasCap, search_closed hclosed, UInt64.le_refl _, .inl rfl, fun gas hgas => ?_⟩
    have := UInt64.lt_iff_toNat_lt.mp hgas.lo_lt
    exact UInt64.le_iff_toNat_le.mpr (by omega)

include htotal hmono in
theorem exists_found_of_orbit (hcap : 2 ^ 63 < est.gasCap.toNat)
    (horbit : ∃ k, est.failed (orbit (txGas - 1) est.gasCap (k + 1)) ≠ .ok true) :
    ∃ fuel r, search est.failed fuel (txGas - 1) est.gasCap = some (.ok r) ∧ est.Found r := by
  classical
  have hlo : (txGas - 1).toNat < 2 ^ 63 := by decide
  obtain ⟨k, htest, hfirst⟩ : ∃ k, est.failed (orbit (txGas - 1) est.gasCap (k + 1)) ≠ .ok true ∧
      ∀ j < k, est.failed (orbit (txGas - 1) est.gasCap (j + 1)) = .ok true :=
    ⟨Nat.find horbit, Nat.find_spec horbit, fun j hj => not_not.mp (Nat.find_min horbit hj)⟩
  generalize hlower : orbit (txGas - 1) est.gasCap k = lower at *
  have hmid : est.Executes (midpoint lower est.gasCap) := by
    rw [orbit_succ, hlower] at htest
    obtain ⟨b, hb⟩ := htotal (midpoint lower est.gasCap)
    cases b with
    | true => exact absurd hb htest
    | false => exact hb
  have hlower_lt : lower.toNat < 2 ^ 63 := hlower ▸ orbit_lt hlo k
  have hmid_lt := midpoint_lt lower est.gasCap
  -- nothing executes with the lower bound or less
  have habove : ∀ gas, est.Executes gas → lower < gas := by
    intro gas hgas
    cases k with
    | zero =>
      rw [← hlower]
      exact hgas.lo_lt
    | succ k =>
      have hfails := hfirst k (Nat.lt_succ_self k)
      rw [hlower] at hfails
      by_contra hle
      have hexecutes := hmono gas lower hgas (UInt64.not_lt.mp hle)
        (UInt64.le_iff_toNat_le.mpr (by omega))
      cases hfails.symm.trans hexecutes
  have hmid_le : midpoint lower est.gasCap ≤ est.gasCap :=
    UInt64.le_iff_toNat_le.mpr (by omega)
  obtain ⟨fuel, r, hsearch, hr⟩ : ∃ fuel r, search est.failed fuel lower
      (midpoint lower est.gasCap) = some (.ok r) ∧
      Brackets est.failed lower (midpoint lower est.gasCap) r :=
    ⟨_, exists_search htotal hmid_lt.le (habove _ hmid) (Nat.le_refl _)⟩
  refine ⟨fuel + 1 + k, r, ?_, UInt64.le_trans hr.upper hmid_le, ?_, fun gas hgas =>
    least_of_brackets hmono hmid_le habove hr hgas⟩
  · rw [search_orbit hlo hcap hfirst, hlower, search, if_pos (open_of_lt hlower_lt hcap), hmid]
    exact hsearch
  · rcases hr.found with rfl | hfound
    · exact .inr hmid
    · exact .inr hfound

theorem estimates_iff (hmono : est.Monotone) :
    (∃ fuel result, (∀ fuel' ≥ fuel, est.run fuel' = some result) ∧ est.Estimates result) ↔
      est.gasCap.toNat ≤ 2 ^ 63 ∨
        ∃ k, est.failed (orbit (txGas - 1) est.gasCap (k + 1)) ≠ .ok true := by
  constructor
  · rintro ⟨fuel, result, hrun, -⟩
    by_contra hnot
    rw [not_or, Nat.not_le, not_exists] at hnot
    have hdiverges := search_diverges (by decide) hnot.1 (fun k => not_not.mp (hnot.2 k)) fuel
    have hsome := hrun fuel (Nat.le_refl _)
    rw [run, hdiverges] at hsome
    cases hsome
  · intro hcond
    rcases est.uniform with ⟨err, herr⟩ | hok
    · -- every execution ends with the error, and so does the estimate
      refine ⟨1, .error err, fun fuel' hle => ?_, nofun, fun _ hcap => ?_, fun _ => nofun⟩
      · obtain ⟨fuel, rfl⟩ := Nat.exists_eq_add_of_le' hle
        by_cases hopen : txGas - 1 + 1 < est.gasCap
        · rw [run, search_error hopen fun gas => failed_of_error (herr gas)]
        · rw [run, search_closed hopen]
          dsimp only [finish]
          rw [if_pos rfl, herr]
      · cases (failed_of_error (herr est.gasCap)).symm.trans hcap
    · have htotal : ∀ gas, ∃ b, est.failed gas = .ok b := by
        intro gas
        obtain ⟨result, hresult⟩ := hok gas
        exact ⟨result.1, failed_of_ok hresult⟩
      obtain ⟨fuel, r, hsearch, hfound⟩ : ∃ fuel r,
          search est.failed fuel (txGas - 1) est.gasCap = some (.ok r) ∧ est.Found r := by
        by_cases hcap : est.gasCap.toNat ≤ 2 ^ 63
        · exact exists_found_of_le htotal hmono hcap
        · exact exists_found_of_orbit htotal hmono (Nat.not_le.mp hcap) (hcond.resolve_left hcap)
      refine ⟨fuel, est.finish r, fun fuel' hle => ?_, hfound.estimates hmono⟩
      rw [run, search_stable hle hsearch]

end Estimation

/-- With a monotone execution, the estimate ends and is right exactly if the allowance is at most
2^63 or one of the midpoints does not fail. The midpoints are exact while the bounds add up to less
than 2^64. -/
theorem estimateGasInternal_right_iff (ctx : EstimateContext) (fromType : CallType)
    (req : Option EthCallRequest) :
    (∀ err, setupEstimate ctx fromType req = .error err →
      ∀ fuel, estimateGasInternal ctx fromType req fuel = some (.error err)) ∧
    (∀ est, setupEstimate ctx fromType req = .ok est →
      (∀ fuel response, estimateGasInternal ctx fromType req fuel = some (.ok response) →
        response.vmError = "" → est.Executes response.gas) ∧
      (est.Monotone →
        ((∃ fuel result,
            (∀ fuel' ≥ fuel, estimateGasInternal ctx fromType req fuel' = some result) ∧
            est.Estimates result) ↔
          est.gasCap.toNat ≤ 2 ^ 63 ∨
            ∃ k, est.failed (orbit (txGas - 1) est.gasCap (k + 1)) ≠ .ok true))) ∧
    ∀ lo hi, (midpoint lo hi).toNat = (hi.toNat + lo.toNat) / 2 ↔
      hi.toNat + lo.toNat < 2 ^ 64 := by
  unfold estimateGasInternal
  refine ⟨fun err herr fuel => by rw [herr], fun est hest => ?_, toNat_midpoint_eq_iff⟩
  rw [hest]
  exact ⟨fun _ _ hrun hvm => est.executes_of_run hrun hvm, fun hmono => est.estimates_iff hmono⟩

def revertingContext : EstimateContext where
  chainID := some 11235
  maxGas := none
  evmConfig _ _ := some ⟨⟨true, true, true⟩, none⟩
  nonce _ := 0
  setNonce _ _ := .ok ()
  minGasMultiplier := 0
  multiplier_le := by decide
  vm _ _ _ _ := ⟨[], 0, "execution reverted", 0, []⟩
  leftover_le _ _ _ _ := UInt64.le_iff_toNat_le.mpr (Nat.zero_le _)

def callArgs : TransactionArgs :=
  ⟨none, some 9, none, none, none, none, none, none, none, none, none⟩

def revertingEstimation : Estimation where
  gasCap := 18446744073709551615
  executable := executable revertingContext .internal ⟨⟨true, true, true⟩, none⟩
    ⟨0, some 9, 0, 0, 18446744073709551615, 0, 0, 0, [], []⟩
  uniform := executable_uniform _ _ _ _
  txGas_le _ _ h := (executable_ok_false _ h).1

theorem revertingEstimation_failed (gas : UInt64) : revertingEstimation.failed gas = .ok true := by
  rcases revertingEstimation.uniform with ⟨err, herr⟩ | hok
  · have hzero : revertingEstimation.executable 0 = .ok (true, none) := by decide +kernel
    cases hzero.symm.trans (herr 0)
  · obtain ⟨⟨b, response⟩, hrun⟩ := hok gas
    cases b with
    | true => exact Estimation.failed_of_ok hrun
    | false =>
      dsimp only [revertingEstimation] at hrun
      obtain ⟨-, left, hvm⟩ := executable_ok_false revertingContext hrun
      exact absurd hvm (by decide : ("execution reverted" : String) ≠ "")

/-- Although it should report the error of the VM. -/
theorem reverting_call_diverges :
    setupEstimate revertingContext .internal (some ⟨some callArgs, 18446744073709551615, [], 0⟩) =
      .ok revertingEstimation ∧
    revertingEstimation.Monotone ∧ ¬ revertingEstimation.Executes revertingEstimation.gasCap ∧
    ∀ fuel, estimateGasInternal revertingContext .internal
      (some ⟨some callArgs, 18446744073709551615, [], 0⟩) fuel = none := by
  have hnever : ∀ gas, ¬ revertingEstimation.Executes gas := by
    intro gas hgas
    cases (revertingEstimation_failed gas).symm.trans hgas
  refine ⟨rfl, fun gas _ hgas => absurd hgas (hnever gas), hnever _, fun fuel => ?_⟩
  show revertingEstimation.run fuel = none
  rw [Estimation.run, search_diverges (by decide) (by decide)
    fun k => revertingEstimation_failed _]

end Haqq.Evm
