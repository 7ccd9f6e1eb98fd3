import Haqq.Lib.Decimal
import Haqq.Lib.Effects

/-!
# The base fee

`x/feemarket`: the base fee of EIP-1559, computed at the begin of a block from the gas that the
parent block wanted.  It divides by the elasticity multiplier, which the validation of the
parameters does not look at, and by the gas target, which can be zero.

* `nextBaseFee_stores_iff`: when the computed fee can be stored.
* `beginBlock_updates_iff`: when a block updates the fee without a panic.
-/

namespace Haqq.Feemarket

open Lib Lib.Decimal

/-- At most 256 bits. -/
structure SdkInt where
  val : Int
  bound : val.natAbs < 2 ^ 256

inductive Panic
  | divisionByZero
  /-- A value does not fit into an `sdkmath.Int`. -/
  | outOfBound
  | nilPointer
  deriving DecidableEq, Repr

def newIntFromBigInt (n : Int) : Except Panic SdkInt :=
  if h : n.natAbs < 2 ^ 256 then .ok ⟨n, h⟩ else .error .outOfBound

def div (x y : Int) : Except Panic Int :=
  if y = 0 then .error .divisionByZero else .ok (x / y)

def truncateInt (d : Int) : Except Panic SdkInt := newIntFromBigInt (d / precision)

/-- A nil number is `none`. -/
structure Params where
  noBaseFee : Bool
  baseFeeChangeDenominator : UInt32
  elasticityMultiplier : UInt32
  baseFee : Option SdkInt
  enableHeight : Int
  minGasPrice : Option Int
  minGasMultiplier : Option Int

inductive ParamsError
  /-- "base fee change denominator cannot be 0" -/
  | zeroBaseFeeChangeDenominator
  /-- "initial base fee cannot be negative: %s" -/
  | negativeBaseFee (baseFee : Int)
  /-- "enable height cannot be negative: %d" -/
  | negativeEnableHeight (height : Int)
  /-- "invalid parameter: nil" -/
  | nilParameter
  /-- "value cannot be negative: %s" -/
  | negativeValue (value : Int)
  /-- "value cannot be greater than 1: %s" -/
  | greaterThanOne (value : Int)
  | panic (p : Panic)
  deriving DecidableEq, Repr

def validateMinGasMultiplier : Option Int → Except ParamsError Unit
  | none => .error .nilParameter
  | some v =>
    if v < 0 then .error (.negativeValue v)
    else if (precision : Int) < v then .error (.greaterThanOne v)
    else .ok ()

def validateMinGasPrice : Option Int → Except ParamsError Unit
  | none => .error .nilParameter
  | some v => if v < 0 then .error (.negativeValue v) else .ok ()

namespace Params

variable (p : Params)

def validate : Except ParamsError Unit :=
  if p.baseFeeChangeDenominator = 0 then .error .zeroBaseFeeChangeDenominator
  else
    match p.baseFee with
    | none => .error (.panic .nilPointer)
    | some baseFee =>
      if baseFee.val < 0 then .error (.negativeBaseFee baseFee.val)
      else if p.enableHeight < 0 then .error (.negativeEnableHeight p.enableHeight)
      else do
        validateMinGasMultiplier p.minGasMultiplier
        validateMinGasPrice p.minGasPrice

def isBaseFeeEnabled (height : Int) : Bool := !p.noBaseFee && decide (p.enableHeight ≤ height)

/-- Nil decimals read as zero. -/
def read : Params :=
  { p with
    minGasPrice := some (p.minGasPrice.getD 0)
    minGasMultiplier := some (p.minGasMultiplier.getD 0) }

@[simp] theorem read_isBaseFeeEnabled (height : Int) :
    p.read.isBaseFeeEnabled height = p.isBaseFeeEnabled height := rfl

@[simp] theorem read_enableHeight : p.read.enableHeight = p.enableHeight := rfl

@[simp] theorem read_baseFee : p.read.baseFee = p.baseFee := rfl

@[simp] theorem read_elasticityMultiplier :
    p.read.elasticityMultiplier = p.elasticityMultiplier := rfl

@[simp] theorem read_baseFeeChangeDenominator :
    p.read.baseFeeChangeDenominator = p.baseFeeChangeDenominator := rfl

@[simp] theorem read_minGasPrice : p.read.minGasPrice = some (p.minGasPrice.getD 0) := rfl

end Params

structure State where
  params : Params
  blockGasWanted : UInt64

structure Block where
  height : Int
  maxGas : Option Int64

def gasLimit : Option Int64 → Int
  | none => 2 ^ 64 - 1
  | some maxGas => if -1 < maxGas.toInt then maxGas.toInt else 2 ^ 64 - 1

section Computation

variable (denominator : Int) (parentBaseFee target : Int)

def increased (gasUsedDelta : Int) : Except Panic Int := do
  let y ← div (parentBaseFee * gasUsedDelta) target
  let baseFeeDelta ← div y denominator
  return parentBaseFee + max baseFeeDelta 1

/-- Not below the minimal gas price. -/
def decreased (minGasPrice gasUsedDelta : Int) : Except Panic Int := do
  let y ← div (parentBaseFee * gasUsedDelta) target
  let baseFeeDelta ← div y denominator
  let minGasPrice ← truncateInt minGasPrice
  return max (parentBaseFee - baseFeeDelta) minGasPrice.val

def nextBaseFee (minGasPrice : Int) (parentGasUsed : UInt64) : Except Panic Int :=
  let gasUsed : Int := parentGasUsed.toNat
  if gasUsed = target then .ok parentBaseFee
  else if target < gasUsed then increased denominator parentBaseFee target (gasUsed - target)
  else decreased denominator parentBaseFee target minGasPrice (target - gasUsed)

end Computation

/-- There is none if the base fee is not enabled. -/
def calculateBaseFee (block : Block) (st : State) : Except Panic (Option Int) :=
  let params := st.params.read
  if params.isBaseFeeEnabled block.height = false then .ok none
  else if block.height = params.enableHeight then .ok (params.baseFee.map SdkInt.val)
  else
    match params.baseFee with
    | none => .ok none
    | some parentBaseFee => do
      let target ← div (gasLimit block.maxGas) params.elasticityMultiplier.toNat
      if 0 ≤ target ∧ target < 2 ^ 64 then
        let fee ← nextBaseFee params.baseFeeChangeDenominator.toNat parentBaseFee.val target
          (params.minGasPrice.getD 0) st.blockGasWanted
        return some fee
      else return none

def setBaseFee (baseFee : Int) (st : State) : Except Panic State := do
  let baseFee ← newIntFromBigInt baseFee
  return { st with params := { st.params.read with baseFee := some baseFee } }

def beginBlock (block : Block) (st : State) : Except Panic State := do
  match ← calculateBaseFee block st with
  | none => return st
  | some baseFee => setBaseFee baseFee st

/-! ## When the computation ends -/

theorem newIntFromBigInt_ok {n : Int} {i : SdkInt} : newIntFromBigInt n = .ok i ↔ i.val = n := by
  unfold newIntFromBigInt
  constructor
  · intro h
    split at h
    · cases h
      rfl
    · cases h
  · rintro rfl
    rw [dif_pos i.bound]

theorem exists_newIntFromBigInt {n : Int} (hn : 0 ≤ n) :
    (∃ i, newIntFromBigInt n = .ok i) ↔ n < 2 ^ 256 := by
  constructor
  · rintro ⟨i, hi⟩
    have hval := newIntFromBigInt_ok.mp hi
    have hbound := i.bound
    omega
  · intro hlt
    exact ⟨⟨n, by omega⟩, newIntFromBigInt_ok.mpr rfl⟩

theorem div_ok {x y z : Int} : div x y = .ok z ↔ y ≠ 0 ∧ z = x / y := by
  unfold div
  split
  · simp [*]
  · simp [*, eq_comm]

variable {denominator parentBaseFee target minGasPrice : Int}

theorem increased_ok (hdenominator : denominator ≠ 0) {delta fee : Int} :
    increased denominator parentBaseFee target delta = .ok fee ↔
      target ≠ 0 ∧ fee = parentBaseFee + max (parentBaseFee * delta / target / denominator) 1 := by
  unfold increased div
  by_cases htarget : target = 0
  · simp [htarget, bind, Except.bind]
  · simp [htarget, hdenominator, bind, Except.bind, pure, Except.pure, eq_comm]

theorem decreased_ok (hdenominator : denominator ≠ 0) (htarget : target ≠ 0)
    (hprice : 0 ≤ minGasPrice) {delta fee : Int} :
    decreased denominator parentBaseFee target minGasPrice delta = .ok fee ↔
      minGasPrice / precision < 2 ^ 256 ∧
        fee = max (parentBaseFee - parentBaseFee * delta / target / denominator)
          (minGasPrice / precision) := by
  have hnonneg : 0 ≤ minGasPrice / (precision : Int) := Int.ediv_nonneg hprice (by decide)
  rw [← exists_newIntFromBigInt hnonneg]
  unfold decreased div truncateInt
  cases hnew : newIntFromBigInt (minGasPrice / precision) with
  | error e => simp [htarget, hdenominator, bind, Except.bind]
  | ok i =>
    rw [← newIntFromBigInt_ok.mp hnew]
    simp [htarget, hdenominator, bind, Except.bind, pure, Except.pure, eq_comm]

theorem stores_iff (st : State) {x : Except Panic Int} (hnonneg : ∀ fee, x = .ok fee → 0 ≤ fee) :
    (∃ st', (x >>= fun fee => setBaseFee fee st) = .ok st' ∧
      ∃ fee, st'.params.baseFee = some fee ∧ 0 ≤ fee.val) ↔ ∃ fee, x = .ok fee ∧ fee < 2 ^ 256 := by
  cases x with
  | error e => simp [bind, Except.bind]
  | ok fee =>
    have hfee := hnonneg fee rfl
    have hnew := exists_newIntFromBigInt hfee
    constructor
    · rintro ⟨st', hset, -⟩
      refine ⟨fee, rfl, hnew.mp ?_⟩
      simp only [bind, Except.bind, setBaseFee] at hset
      cases hi : newIntFromBigInt fee with
      | error e => simp [hi] at hset
      | ok i => exact ⟨i, rfl⟩
    · rintro ⟨_, heq, hlt⟩
      cases heq
      obtain ⟨i, hi⟩ := hnew.mpr hlt
      refine ⟨{ st with params := { st.params.read with baseFee := some i } }, ?_, i, rfl, ?_⟩
      · simp [bind, Except.bind, setBaseFee, hi, pure, Except.pure]
      · rw [newIntFromBigInt_ok.mp hi]
        exact hfee

structure Params.Valid (p : Params) (fee : SdkInt) (price : Int) : Prop where
  denominator : (p.baseFeeChangeDenominator.toNat : Int) ≠ 0
  baseFee : p.baseFee = some fee
  fee_nonneg : 0 ≤ fee.val
  minGasPrice : p.minGasPrice = some price
  price_nonneg : 0 ≤ price

theorem Params.validate_ok {p : Params} (h : p.validate = .ok ()) :
    p.baseFeeChangeDenominator ≠ 0 ∧ (∃ fee, p.baseFee = some fee ∧ 0 ≤ fee.val) ∧
      validateMinGasMultiplier p.minGasMultiplier = .ok () ∧
      validateMinGasPrice p.minGasPrice = .ok () := by
  unfold Params.validate at h
  split at h
  · cases h
  rename_i hdenominator
  split at h
  · cases h
  rename_i fee hfee
  split at h
  · cases h
  rename_i hnonneg
  split at h
  · cases h
  obtain ⟨_, hmultiplier, hprice⟩ := except_bind_ok.mp h
  exact ⟨hdenominator, ⟨fee, hfee, not_lt.mp hnonneg⟩, hmultiplier, hprice⟩

theorem validateMinGasPrice_ok {minGasPrice : Option Int}
    (h : validateMinGasPrice minGasPrice = .ok ()) :
    ∃ price, minGasPrice = some price ∧ 0 ≤ price := by
  unfold validateMinGasPrice at h
  split at h
  · cases h
  · rename_i price
    split at h
    · cases h
    · rename_i hnonneg
      exact ⟨price, rfl, not_lt.mp hnonneg⟩

theorem Params.valid_of_validate {p : Params} (h : p.validate = .ok ()) :
    ∃ fee price, p.Valid fee price := by
  obtain ⟨hdenominator, ⟨fee, hfee, hnonneg⟩, -, hprice⟩ := p.validate_ok h
  obtain ⟨price, hsome, hpriceNonneg⟩ := validateMinGasPrice_ok hprice
  refine ⟨fee, price, ?_, hfee, hnonneg, hsome, hpriceNonneg⟩
  intro hzero
  exact hdenominator (UInt32.toNat_inj.mp (by simpa using hzero))

theorem Params.read_of_validate {p : Params} (h : p.validate = .ok ()) : p.read = p := by
  obtain ⟨-, -, hmultiplier, hprice⟩ := p.validate_ok h
  obtain ⟨price, hsome, -⟩ := validateMinGasPrice_ok hprice
  unfold Params.read
  cases hcase : p.minGasMultiplier with
  | none =>
    rw [hcase] at hmultiplier
    cases hmultiplier
  | some multiplier =>
    rw [hsome, Option.getD_some, Option.getD_some, ← hsome, ← hcase]

def gasTarget (p : Params) (block : Block) : Int :=
  gasLimit block.maxGas / p.elasticityMultiplier.toNat

def increase (p : Params) (baseFee gasUsedDelta target : Int) : Int :=
  max (baseFee * gasUsedDelta / target / p.baseFeeChangeDenominator.toNat) 1

/-- It divides by the multiplier and, above the target, by the target; numbers have 256 bits at
most. -/
def Computable (p : Params) (block : Block) (gasWanted : UInt64) : Prop :=
  p.isBaseFeeEnabled block.height = true → block.height ≠ p.enableHeight →
    p.elasticityMultiplier ≠ 0 ∧
    (gasTarget p block < gasWanted.toNat → gasTarget p block ≠ 0 ∧
      ∀ fee, p.baseFee = some fee → fee.val +
        increase p fee.val (gasWanted.toNat - gasTarget p block) (gasTarget p block) < 2 ^ 256) ∧
    (gasWanted.toNat < gasTarget p block →
      ∀ price, p.minGasPrice = some price → price / precision < 2 ^ 256)

theorem gasTarget_bounds (p : Params) (block : Block) :
    0 ≤ gasTarget p block ∧ gasTarget p block < 2 ^ 64 := by
  have hlimit : 0 ≤ gasLimit block.maxGas ∧ gasLimit block.maxGas < 2 ^ 64 := by
    unfold gasLimit
    split
    · decide
    · rename_i maxGas _
      have hlt := maxGas.toInt_lt
      split <;> omega
  have hdiv : gasTarget p block ≤ gasLimit block.maxGas := Int.ediv_le_self _ hlimit.1
  exact ⟨Int.ediv_nonneg hlimit.1 (by positivity), hdiv.trans_lt hlimit.2⟩

theorem nextBaseFee_stores_iff {p : Params} {fee : SdkInt} {price : Int} (h : p.Valid fee price)
    (st : State) (htarget : 0 ≤ target) (gasWanted : UInt64) :
    (∃ st', (nextBaseFee p.baseFeeChangeDenominator.toNat fee.val target price gasWanted >>=
        fun fee => setBaseFee fee st) = .ok st' ∧
      ∃ fee', st'.params.baseFee = some fee' ∧ 0 ≤ fee'.val) ↔
    (target < gasWanted.toNat → target ≠ 0 ∧
      fee.val + increase p fee.val (gasWanted.toNat - target) target < 2 ^ 256) ∧
    (gasWanted.toNat < target → price / precision < 2 ^ 256) := by
  have hfee := h.fee_nonneg
  have hbound := fee.bound
  have hprice : 0 ≤ price / (precision : Int) := Int.ediv_nonneg h.price_nonneg (by decide)
  unfold nextBaseFee
  dsimp only
  by_cases heq : (gasWanted.toNat : Int) = target
  · rw [if_pos heq, stores_iff st fun f hf => by cases hf; exact hfee]
    have hlt : fee.val < 2 ^ 256 := by omega
    refine ⟨fun _ => ⟨fun hlt' => absurd heq hlt'.ne', fun hlt' => absurd heq hlt'.ne⟩,
      fun _ => ⟨_, rfl, hlt⟩⟩
  rw [if_neg heq]
  by_cases habove : target < gasWanted.toNat
  · rw [if_pos habove]
    rw [stores_iff st fun f hf => by
      rw [((increased_ok h.denominator).mp hf).2]
      positivity]
    simp only [increased_ok h.denominator, increase]
    constructor
    · rintro ⟨_, ⟨htarget, rfl⟩, hlt⟩
      exact ⟨fun _ => ⟨htarget, hlt⟩, fun hbelow => absurd habove hbelow.asymm⟩
    · intro hcond
      exact ⟨_, ⟨(hcond.1 habove).1, rfl⟩, (hcond.1 habove).2⟩
  · have hbelow : gasWanted.toNat < target := lt_of_le_of_ne (not_lt.mp habove) heq
    have hpos : target ≠ 0 := by omega
    rw [if_neg habove]
    rw [stores_iff st fun f hf => by
      rw [((decreased_ok h.denominator hpos h.price_nonneg).mp hf).2]
      exact hprice.trans (le_max_right _ _)]
    simp only [decreased_ok h.denominator hpos h.price_nonneg]
    constructor
    · rintro ⟨_, ⟨hlt, -⟩, -⟩
      exact ⟨fun h => absurd h habove, fun _ => hlt⟩
    · intro hcond
      refine ⟨_, ⟨hcond.2 hbelow, rfl⟩, max_lt ?_ (hcond.2 hbelow)⟩
      have hdelta : 0 ≤ fee.val * (target - gasWanted.toNat) / target /
          p.baseFeeChangeDenominator.toNat := by
        have hgap : 0 ≤ target - gasWanted.toNat := by omega
        positivity
      omega

section Cases

variable {st : State} {block : Block} {fee : SdkInt} {price : Int}

theorem beginBlock_disabled (h : st.params.isBaseFeeEnabled block.height = false) :
    beginBlock block st = .ok st := by
  simp [beginBlock, calculateBaseFee, h, bind, Except.bind, pure, Except.pure]

theorem beginBlock_first (h : st.params.isBaseFeeEnabled block.height = true)
    (hfee : st.params.baseFee = some fee) (hheight : block.height = st.params.enableHeight) :
    beginBlock block st = setBaseFee fee.val st := by
  rw [hheight] at h
  simp [beginBlock, calculateBaseFee, h, hheight, hfee, bind, Except.bind]

section

variable (h : st.params.isBaseFeeEnabled block.height = true)
  (hheight : block.height ≠ st.params.enableHeight)

include h hheight

theorem calculateBaseFee_later (hparams : st.params.Valid fee price)
    (helasticity : st.params.elasticityMultiplier ≠ 0) :
    calculateBaseFee block st =
      (nextBaseFee st.params.baseFeeChangeDenominator.toNat fee.val (gasTarget st.params block)
        price st.blockGasWanted).map some := by
  have hdiv : div (gasLimit block.maxGas) st.params.elasticityMultiplier.toNat =
      .ok (gasTarget st.params block) := by
    rw [div_ok]
    exact ⟨fun hzero => helasticity (UInt32.toNat_inj.mp (by simpa using hzero)), rfl⟩
  have hbounds := gasTarget_bounds st.params block
  simp only [calculateBaseFee, Params.read_isBaseFeeEnabled, h,
    Params.read_enableHeight, if_neg hheight, Params.read_baseFee, hparams.baseFee,
    Params.read_elasticityMultiplier, hdiv, Params.read_minGasPrice, hparams.minGasPrice,
    Params.read_baseFeeChangeDenominator, Option.getD_some, Bool.true_eq_false, if_false]
  simp only [bind, Except.bind, if_pos hbounds]
  cases nextBaseFee st.params.baseFeeChangeDenominator.toNat fee.val
    (gasTarget st.params block) price st.blockGasWanted <;> rfl

theorem beginBlock_later (hparams : st.params.Valid fee price)
    (helasticity : st.params.elasticityMultiplier ≠ 0) :
    beginBlock block st =
      nextBaseFee st.params.baseFeeChangeDenominator.toNat fee.val (gasTarget st.params block) price
        st.blockGasWanted >>= fun fee => setBaseFee fee st := by
  rw [beginBlock, calculateBaseFee_later h hheight hparams helasticity]
  cases nextBaseFee st.params.baseFeeChangeDenominator.toNat fee.val
    (gasTarget st.params block) price st.blockGasWanted <;> rfl

theorem beginBlock_zero_elasticity (hfee : st.params.baseFee = some fee)
    (helasticity : st.params.elasticityMultiplier = 0) :
    beginBlock block st = .error .divisionByZero := by
  simp [beginBlock, calculateBaseFee, h, hheight, hfee, helasticity, div, bind, Except.bind]

end

end Cases

/-- For valid parameters the base fee is updated, and not negative, exactly if the operations of the
computation are defined. -/
theorem beginBlock_updates_iff (st : State) (block : Block)
    (hvalid : st.params.validate = .ok ()) :
    (∃ st', beginBlock block st = .ok st' ∧
      ∃ fee, st'.params.baseFee = some fee ∧ 0 ≤ fee.val) ↔
    Computable st.params block st.blockGasWanted := by
  obtain ⟨fee, price, hparams⟩ := Params.valid_of_validate hvalid
  unfold Computable
  by_cases henabled : st.params.isBaseFeeEnabled block.height = true
  · by_cases hheight : block.height = st.params.enableHeight
    · have hbound := fee.bound
      have hnonneg := hparams.fee_nonneg
      have hlt : fee.val < 2 ^ 256 := by omega
      rw [beginBlock_first henabled hparams.baseFee hheight]
      refine ⟨fun _ _ hne => absurd hheight hne, fun _ => ?_⟩
      exact (stores_iff st (x := .ok fee.val) fun f hf => by cases hf; exact hnonneg).mpr
        ⟨_, rfl, hlt⟩
    · by_cases helasticity : st.params.elasticityMultiplier = 0
      · rw [beginBlock_zero_elasticity henabled hheight hparams.baseFee helasticity]
        constructor
        · rintro ⟨_, hrun, -⟩
          cases hrun
        · intro hcond
          exact absurd helasticity (hcond henabled hheight).1
      · rw [beginBlock_later henabled hheight hparams helasticity,
          nextBaseFee_stores_iff hparams st (gasTarget_bounds st.params block).1]
        simp [henabled, hheight, helasticity, hparams.baseFee, hparams.minGasPrice]
  · have hdisabled : st.params.isBaseFeeEnabled block.height = false := by simpa using henabled
    rw [beginBlock_disabled hdisabled]
    exact ⟨fun _ h => absurd h henabled,
      fun _ => ⟨st, rfl, fee, hparams.baseFee, hparams.fee_nonneg⟩⟩

def paramsWith (elasticityMultiplier : UInt32) : Params where
  noBaseFee := false
  baseFeeChangeDenominator := 8
  elasticityMultiplier := elasticityMultiplier
  baseFee := some ⟨1000000000, by decide⟩
  enableHeight := 0
  minGasPrice := some 0
  minGasMultiplier := some (5 * 10 ^ 17)

theorem default_params_update :
    ∃ st', beginBlock ⟨2, some 40000000⟩ ⟨paramsWith 2, 30000000⟩ = .ok st' ∧
      ∃ fee, st'.params.baseFee = some fee ∧ 0 ≤ fee.val :=
  (beginBlock_updates_iff ⟨paramsWith 2, 30000000⟩ ⟨2, some 40000000⟩ (by decide)).mpr (by
    intro _ _
    refine ⟨by decide, fun _ => ⟨by decide, ?_⟩, fun _ => ?_⟩
    · rintro _ ⟨⟩
      decide
    · rintro _ ⟨⟩
      decide)

/-- No elasticity, or a gas limit below the elasticity multiplier after a block that wanted gas. -/
theorem valid_params_panic :
    (paramsWith 0).validate = .ok () ∧
      beginBlock ⟨2, some 40000000⟩ ⟨paramsWith 0, 30000000⟩ = .error .divisionByZero ∧
    (paramsWith 2).validate = .ok () ∧
      beginBlock ⟨2, some 1⟩ ⟨paramsWith 2, 21000⟩ = .error .divisionByZero :=
  ⟨by decide, by rfl, by decide, by rfl⟩

end Haqq.Feemarket
