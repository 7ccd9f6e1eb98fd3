import Haqq.Feemarket.BaseFee
import Haqq.Lib.Run
import Mathlib.Order.Iterate

/-!
# How the base fee moves

The next base fee does not fall with the gas that the parent block wanted, stays at the target,
rises by at least one above it, and falls at most to the minimal gas price below it (`FeeRule`).  It
is in force after the block with the height `EnableHeight`, unless `NoBaseFee` is set.

* `Params.Valid.nextBaseFee_eq` is the rule in closed form, `Floored.step` its floor.
* `base_fee_dynamics` collects what holds at every block.
-/

namespace Haqq.Feemarket

open Lib Lib.Decimal

/-! ## The rule as a function -/

variable {gap gas : Int}

section Curve

variable {d b t m : Int}

def change (d b t gap : Int) : Int := b * gap / t / d

/-- The base fee that follows `b`, for a target `t`, the denominator `d` and a floor `m`. -/
def curve (d b t m gas : Int) : Int :=
  if gas = t then b
  else if t < gas then b + max (change d b t (gas - t)) 1
  else max (b - change d b t (t - gas)) m

theorem change_mono (hd : 0 < d) (ht : 0 < t) (hb : 0 ≤ b) {gap' : Int} (h : gap ≤ gap') :
    change d b t gap ≤ change d b t gap' :=
  Int.ediv_le_ediv hd (Int.ediv_le_ediv ht (Int.mul_le_mul_of_nonneg_left h hb))

theorem change_self (ht : 0 < t) : change d b t t = b / d := by
  rw [change, Int.mul_ediv_cancel _ ht.ne']

theorem change_nonneg (hd : 0 < d) (ht : 0 < t) (hb : 0 ≤ b) (h : 0 ≤ gap) :
    0 ≤ change d b t gap := by
  unfold change
  positivity

theorem curve_target : curve d b t m t = b := if_pos rfl

theorem curve_above (h : t < gas) : curve d b t m gas = b + max (change d b t (gas - t)) 1 := by
  rw [curve, if_neg h.ne', if_pos h]

theorem curve_below (h : gas < t) : curve d b t m gas = max (b - change d b t (t - gas)) m := by
  rw [curve, if_neg h.ne, if_neg h.asymm]

theorem curve_below_le (hd : 0 < d) (ht : 0 < t) (hb : 0 ≤ b) (hm : m ≤ b) (h : gas < t) :
    curve d b t m gas ≤ b := by
  rw [curve_below h]
  have := change_nonneg hd ht hb (by omega : 0 ≤ t - gas)
  exact max_le (by omega) hm

theorem curve_mono {gas' : Int} (hd : 0 < d) (ht : 0 < t) (hb : 0 ≤ b) (hm : m ≤ b)
    (h : gas ≤ gas') : curve d b t m gas ≤ curve d b t m gas' := by
  rcases lt_trichotomy gas t with hlow | rfl | hhigh
  · rcases lt_trichotomy gas' t with hlow' | rfl | hhigh'
    · rw [curve_below hlow, curve_below hlow']
      have := change_mono hd ht hb (by omega : t - gas' ≤ t - gas)
      exact max_le_max (by omega) le_rfl
    · rw [curve_target]
      exact curve_below_le hd ht hb hm hlow
    · have := curve_below_le hd ht hb hm hlow
      rw [curve_above hhigh']
      omega
  · rcases h.eq_or_lt with rfl | hlt
    · exact le_rfl
    · rw [curve_target, curve_above hlt]
      omega
  · rw [curve_above hhigh, curve_above (hhigh.trans_le h)]
    have := change_mono hd ht hb (by omega : gas - t ≤ gas' - t)
    exact Int.add_le_add_left (max_le_max this le_rfl) b

end Curve

/-! ## The next base fee -/

structure FeeRule (d b t m : Int) (f : UInt64 → Int) : Prop where
  mono : ∀ g g', g ≤ g' → f g ≤ f g'
  target : ∀ g : UInt64, (g.toNat : Int) = t → f g = b
  above : ∀ g : UInt64, t < g.toNat → b + 1 ≤ f g ∧ f g ≤ b + max 1 (b * (g.toNat - t) / (t * d))
  below : ∀ g : UInt64, g.toNat < t → max m (b - b / d) ≤ f g ∧ f g ≤ b

structure InForce (p : Params) (block : Block) : Prop where
  enabled : p.isBaseFeeEnabled block.height = true
  later : block.height ≠ p.enableHeight
  target_pos : 0 < gasTarget p block

variable {block : Block}

theorem InForce.elasticity {p : Params} (h : InForce p block) : p.elasticityMultiplier ≠ 0 := by
  intro hzero
  have := h.target_pos
  rw [gasTarget, hzero] at this
  simp at this

variable {d b t m : Int}

theorem feeRule_curve (hd : 0 < d) (ht : 0 < t) (hb : 0 ≤ b) (hm : m ≤ b) :
    FeeRule d b t m fun g => curve d b t m g.toNat where
  mono g g' h := curve_mono hd ht hb hm (by exact_mod_cast UInt64.le_iff_toNat_le.mp h)
  target g hg := by rw [hg, curve_target]
  above g hg := by
    rw [curve_above hg, change, Int.ediv_ediv_of_nonneg ht.le, max_comm]
    exact ⟨Int.add_le_add_left (le_max_left _ _) b, le_rfl⟩
  below g hg := by
    refine ⟨?_, curve_below_le hd ht hb hm hg⟩
    have hgap := change_mono hd ht hb (by omega : t - (g.toNat : Int) ≤ t)
    rw [change_self ht] at hgap
    rw [curve_below hg, max_comm]
    exact max_le_max (by omega) le_rfl

variable {g : UInt64}

section Next

variable {p : Params} {fee : SdkInt} {price : Int}

theorem Params.Valid.denominator_pos (h : p.Valid fee price) :
    0 < (p.baseFeeChangeDenominator.toNat : Int) := by
  have := h.denominator
  omega

theorem Params.Valid.floor_nonneg (h : p.Valid fee price) : 0 ≤ price / (precision : Int) :=
  Int.ediv_nonneg h.price_nonneg (by decide)

theorem Params.Valid.floor_lt (h : p.Valid fee price) (hfloor : price / precision ≤ fee.val) :
    price / precision < 2 ^ 256 := by
  have := fee.bound
  have := h.fee_nonneg
  omega

theorem Params.Valid.nextBaseFee_eq (h : p.Valid fee price) (hfloor : price / precision ≤ fee.val)
    (ht : 0 < t) (g : UInt64) :
    nextBaseFee p.baseFeeChangeDenominator.toNat fee.val t price g =
      .ok (curve p.baseFeeChangeDenominator.toNat fee.val t (price / precision) g.toNat) := by
  unfold nextBaseFee
  dsimp only
  rcases lt_trichotomy (g.toNat : Int) t with hlow | hequal | hhigh
  · rw [if_neg hlow.ne, if_neg hlow.asymm, curve_below hlow]
    exact (decreased_ok h.denominator ht.ne' h.price_nonneg).mpr ⟨h.floor_lt hfloor, rfl⟩
  · rw [if_pos hequal, hequal, curve_target]
  · rw [if_neg hhigh.ne', if_pos hhigh, curve_above hhigh]
    exact (increased_ok h.denominator).mpr ⟨ht.ne', rfl⟩

theorem Params.Valid.le_nextBaseFee (h : p.Valid fee price) (hfloor : price / precision ≤ fee.val)
    {next : Int}
    (hnext : nextBaseFee p.baseFeeChangeDenominator.toNat fee.val t price g = .ok next) :
    price / precision ≤ next := by
  unfold nextBaseFee at hnext
  dsimp only at hnext
  split at hnext
  · cases hnext
    exact hfloor
  · split at hnext
    · obtain ⟨-, rfl⟩ := (increased_ok h.denominator).mp hnext
      omega
    · have hpos : t ≠ 0 := by omega
      obtain ⟨-, rfl⟩ := (decreased_ok h.denominator hpos h.price_nonneg).mp hnext
      exact le_max_right _ _

end Next

/-! ## Runs of blocks -/

def blockStep (st : State) (input : Block × UInt64) : Except Panic State :=
  beginBlock input.1 { st with blockGasWanted := input.2 }

def Floored (p : Params) (floor : Int) (st : State) : Prop :=
  ∃ fee : SdkInt, st.params = { p with baseFee := some fee } ∧ floor ≤ fee.val

variable {n : Int}

theorem setBaseFee_ok {st st' : State} :
    setBaseFee n st = .ok st' ↔ ∃ fee : SdkInt, fee.val = n ∧
      st' = { st with params := { st.params.read with baseFee := some fee } } := by
  unfold setBaseFee
  rw [except_bind_ok]
  constructor
  · rintro ⟨fee, hfee, ⟨⟩⟩
    exact ⟨fee, newIntFromBigInt_ok.mp hfee, rfl⟩
  · rintro ⟨fee, hfee, rfl⟩
    exact ⟨fee, newIntFromBigInt_ok.mpr hfee, rfl⟩

variable {fee : SdkInt}

section Runs

variable {p : Params} {fee₀ : SdkInt} {price : Int} {st st' : State}

theorem Params.Valid.withFee (h : p.Valid fee₀ price) (hfee : 0 ≤ fee.val) :
    { p with baseFee := some fee : Params }.Valid fee price :=
  ⟨h.denominator, rfl, hfee, h.minGasPrice, h.price_nonneg⟩

theorem setBaseFee_withFee (hread : p.read = p) :
    setBaseFee n ⟨{ p with baseFee := some fee }, g⟩ = .ok st' ↔
      ∃ fee' : SdkInt, fee'.val = n ∧ st' = ⟨{ p with baseFee := some fee' }, g⟩ := by
  have hstate : ∀ fee' : SdkInt, (⟨{ p.read with baseFee := some fee' }, g⟩ : State) =
      ⟨{ p with baseFee := some fee' }, g⟩ := fun fee' => by rw [hread]
  simp only [← hstate]
  exact setBaseFee_ok

theorem Floored.step (hvalid : p.Valid fee₀ price) (hread : p.read = p)
    (h : Floored p (price / precision) st) {input : Block × UInt64}
    (hstep : blockStep st input = .ok st') : Floored p (price / precision) st' := by
  obtain ⟨_, _⟩ := st
  obtain ⟨fee, rfl, hfloor⟩ := h
  obtain ⟨block, g⟩ := input
  have hfee : 0 ≤ fee.val := hvalid.floor_nonneg.trans hfloor
  have hbefore : { p with baseFee := some fee : Params }.baseFee = some fee := rfl
  -- every block stores a fee that is not below the floor, or leaves the state alone
  have hstored : ∀ n, price / precision ≤ n →
      setBaseFee n ⟨{ p with baseFee := some fee }, g⟩ = .ok st' →
      Floored p (price / precision) st' := by
    intro n hn hset
    obtain ⟨next, rfl, rfl⟩ := (setBaseFee_withFee hread).mp hset
    exact ⟨next, rfl, hn⟩
  by_cases henabled : p.isBaseFeeEnabled block.height = true
  · by_cases hheight : block.height = p.enableHeight
    · rw [blockStep, beginBlock_first henabled hbefore hheight] at hstep
      exact hstored _ hfloor hstep
    · by_cases helasticity : p.elasticityMultiplier = 0
      · rw [blockStep, beginBlock_zero_elasticity henabled hheight hbefore helasticity] at hstep
        cases hstep
      · rw [blockStep, beginBlock_later henabled hheight (hvalid.withFee hfee) helasticity,
          except_bind_ok] at hstep
        obtain ⟨next, hnext, hset⟩ := hstep
        exact hstored next ((hvalid.withFee hfee).le_nextBaseFee hfloor hnext) hset
  · rw [blockStep, beginBlock_disabled (by simpa [Params.isBaseFeeEnabled] using henabled)] at hstep
    cases hstep
    exact ⟨fee, rfl, hfloor⟩

/-! ## Blocks that want no gas -/

def idle (d m b : Int) : Int := max (b - b / d) m

theorem curve_zero (ht : 0 < t) : curve d b t m 0 = idle d m b := by
  rw [curve_below ht, Int.sub_zero, change_self ht, idle]

theorem idle_le (hd : 0 < d) (hm : 0 ≤ m) (hb : m ≤ b) : idle d m b ≤ b := by
  have : 0 ≤ b / d := Int.ediv_nonneg (hm.trans hb) hd.le
  exact max_le (by omega) hb

theorem le_of_idle_eq (hd : 0 < d) (hfixed : idle d m b = b) : b ≤ max m (d - 1) := by
  by_contra hgt
  rw [not_le, max_lt_iff] at hgt
  have hstep : 1 ≤ b / d := Int.le_ediv_of_mul_le hd (by omega)
  have hlower : idle d m b < b := max_lt (by omega) hgt.1
  exact hlower.ne hfixed

theorem exists_idle_fixed (hd : 0 < d) (hm : 0 ≤ m) (hb : m ≤ b) :
    ∃ n, (idle d m)^[n] b ≤ max m (d - 1) ∧
      ∀ k, n ≤ k → (idle d m)^[k] b = (idle d m)^[n] b := by
  obtain ⟨n, -, hfixed⟩ := @Run.exists_iterate_fixed _ (fun b => m ≤ b) (idle d m) Int.toNat
    (fun _ _ => le_max_right _ _)
    (fun b hb hmoves => by
      have := idle_le hd hm hb
      have : m ≤ idle d m b := le_max_right _ _
      omega) b hb
  refine ⟨n, le_of_idle_eq hd hfixed, fun k hk => ?_⟩
  obtain ⟨j, rfl⟩ := Nat.exists_eq_add_of_le' hk
  rw [Function.iterate_add_apply, Function.iterate_fixed hfixed]

theorem idle_step (hvalid : p.Valid fee₀ price) (hread : p.read = p)
    (hfloor : price / precision ≤ fee.val) (hforce : InForce p block) (g : UInt64) :
    ∃ fee' : SdkInt, fee'.val =
        idle p.baseFeeChangeDenominator.toNat (price / precision) fee.val ∧
      blockStep ⟨{ p with baseFee := some fee }, g⟩ (block, 0) =
        .ok ⟨{ p with baseFee := some fee' }, 0⟩ := by
  have hfee : 0 ≤ fee.val := hvalid.floor_nonneg.trans hfloor
  have hidle := idle_le hvalid.denominator_pos hvalid.floor_nonneg hfloor
  have hidle_nonneg : 0 ≤ idle p.baseFeeChangeDenominator.toNat (price / precision) fee.val :=
    hvalid.floor_nonneg.trans (le_max_right _ _)
  have hbound := fee.bound
  obtain ⟨fee', hstore⟩ := (exists_newIntFromBigInt hidle_nonneg).mpr (by omega)
  have hval := newIntFromBigInt_ok.mp hstore
  refine ⟨fee', hval, ?_⟩
  rw [blockStep, beginBlock_later hforce.enabled hforce.later (hvalid.withFee hfee)
    hforce.elasticity, except_bind_ok]
  refine ⟨_, (hvalid.withFee hfee).nextBaseFee_eq hfloor hforce.target_pos 0,
    (setBaseFee_withFee hread).mpr ⟨fee', ?_, rfl⟩⟩
  rw [hval]
  exact (curve_zero hforce.target_pos).symm

theorem idle_run (hvalid : p.Valid fee₀ price) (hread : p.read = p)
    (hfloor : price / precision ≤ fee.val) {blocks : List Block}
    (hforce : ∀ block ∈ blocks, InForce p block) (g : UInt64) :
    ∃ st', (blocks.map (·, 0)).foldlM blockStep ⟨{ p with baseFee := some fee }, g⟩ = .ok st' ∧
      ∃ fee' : SdkInt, st'.params.baseFee = some fee' ∧ fee'.val =
        (idle p.baseFeeChangeDenominator.toNat (price / precision))^[blocks.length] fee.val := by
  induction blocks generalizing fee g with
  | nil => exact ⟨_, rfl, fee, rfl, rfl⟩
  | cons block blocks ih =>
    obtain ⟨fee', hfee', hstep⟩ := idle_step hvalid hread hfloor (hforce block (by simp)) g
    obtain ⟨st', hrun, fee'', hstored, hval⟩ := @ih fee' (by rw [hfee']; exact le_max_right _ _)
      (fun b hb => hforce b (by simp [hb])) 0
    refine ⟨st', ?_, fee'', hstored, ?_⟩
    · rw [List.map_cons, List.foldlM_cons, hstep]
      exact hrun
    · rw [hval, hfee', List.length_cons, Function.iterate_succ_apply]

end Runs

/-- The base fee follows the rule, never falls below the minimal gas price, and without gas wanted
settles at it or below the denominator. -/
theorem base_fee_dynamics {st : State} {fee : SdkInt} {price : Int}
    (hvalid : st.params.validate = .ok ()) (hfee : st.params.baseFee = some fee)
    (hprice : st.params.minGasPrice = some price) (hfloor : price / precision ≤ fee.val) :
    (∀ block, InForce st.params block → ∃ f,
      FeeRule st.params.baseFeeChangeDenominator.toNat fee.val (gasTarget st.params block)
        (price / precision) f ∧
      ∀ g, calculateBaseFee block { st with blockGasWanted := g } = .ok (some (f g))) ∧
    (∀ (inputs : List (Block × UInt64)) (st' : State), inputs.foldlM blockStep st = .ok st' →
      ∃ fee', st'.params.baseFee = some fee' ∧ price / precision ≤ fee'.val) ∧
    ∃ n settled, settled ≤ max (price / precision) (st.params.baseFeeChangeDenominator.toNat - 1) ∧
      ∀ blocks : List Block, (∀ block ∈ blocks, InForce st.params block) → n ≤ blocks.length →
        ∃ st', (blocks.map (·, 0)).foldlM blockStep st = .ok st' ∧
          ∃ fee', st'.params.baseFee = some fee' ∧ fee'.val = settled := by
  obtain ⟨_, _, hparams⟩ := Params.valid_of_validate hvalid
  cases hfee.symm.trans hparams.baseFee
  cases hprice.symm.trans hparams.minGasPrice
  have hread := Params.read_of_validate hvalid
  have hsame : { st.params with baseFee := some fee } = st.params := by rw [← hfee]
  refine ⟨fun block hforce => ⟨_, feeRule_curve hparams.denominator_pos hforce.target_pos
    hparams.fee_nonneg hfloor, fun g => ?_⟩, fun inputs st' hrun => ?_, ?_⟩
  · have hlater := @calculateBaseFee_later ⟨st.params, g⟩ block fee price hforce.enabled
      hforce.later hparams hforce.elasticity
    exact hlater.trans
      (congrArg (Except.map some) (hparams.nextBaseFee_eq hfloor hforce.target_pos g))
  · obtain ⟨fee', hparams', hfloor'⟩ := Run.invariant_foldlM
      (fun _ _ _ hstep h => Floored.step hparams hread h hstep) ⟨fee, hsame.symm, hfloor⟩ hrun
    exact ⟨fee', by rw [hparams'], hfloor'⟩
  · obtain ⟨n, hsettled, hstays⟩ :=
      exists_idle_fixed hparams.denominator_pos hparams.floor_nonneg hfloor
    refine ⟨n, _, hsettled, fun blocks hforce hlength => ?_⟩
    obtain ⟨st', hrun, fee', hstored, hval⟩ :=
      idle_run hparams hread hfloor hforce st.blockGasWanted
    rw [hsame] at hrun
    exact ⟨st', hrun, fee', hstored, hval.trans (hstays _ hlength)⟩

/-- The default parameters, with blocks of 40 million gas. -/
theorem default_params_settle :
    (∃ f, FeeRule 8 1000000000 20000000 0 f ∧
      ∀ g, calculateBaseFee ⟨2, some 40000000⟩ ⟨paramsWith 2, g⟩ = .ok (some (f g))) ∧
    ∃ (n : Nat) (settled : Int), settled ≤ 7 ∧ ∀ blocks : List Block,
      (∀ block ∈ blocks, InForce (paramsWith 2) block) → n ≤ blocks.length →
        ∃ st', (blocks.map (·, 0)).foldlM blockStep ⟨paramsWith 2, 0⟩ = .ok st' ∧
          ∃ fee', st'.params.baseFee = some fee' ∧ fee'.val = settled := by
  obtain ⟨hrule, -, n, settled, hsettled, hruns⟩ :=
    @base_fee_dynamics ⟨paramsWith 2, 0⟩ ⟨1000000000, by decide⟩ 0 (by decide) rfl rfl (by decide)
  exact ⟨hrule ⟨2, some 40000000⟩ ⟨by decide, by decide, by decide⟩, n, settled, hsettled, hruns⟩

def gatedParams (noBaseFee : Bool) (enableHeight : Int) : Params :=
  { paramsWith 2 with noBaseFee := noBaseFee, enableHeight := enableHeight }

/-- The first block with a base fee takes the one of the parameters; with `NoBaseFee` the stored fee
stays. -/
theorem gates_keep_fee :
    ((gatedParams false 5).validate = .ok () ∧
      gasTarget (gatedParams false 5) ⟨5, some 40000000⟩ = 20000000 ∧
      calculateBaseFee ⟨5, some 40000000⟩ ⟨gatedParams false 5, 30000000⟩ =
        .ok (some 1000000000)) ∧
    (gatedParams true 0).validate = .ok () ∧
      gasTarget (gatedParams true 0) ⟨5, some 40000000⟩ = 20000000 ∧
      ∀ blocks : List Block, (blocks.map (·, 0)).foldlM blockStep ⟨gatedParams true 0, 0⟩ =
        .ok ⟨gatedParams true 0, 0⟩ := by
  refine ⟨⟨by decide, by decide, by rfl⟩, by decide, by decide, fun blocks => ?_⟩
  induction blocks with
  | nil => rfl
  | cons block blocks ih => exact ih

end Haqq.Feemarket
