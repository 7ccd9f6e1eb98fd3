import Haqq.Coinomics.Activation
import Mathlib.Tactic.FieldSimp

/-!
# Splitting the time into blocks

Over a run of blocks with the same bonded coins, coefficient and length of the year the rewards add
up to the reward for the whole time, up to what the quotient of times and the rounding to coins lose
in each block.

* `blockMint_eq` is the reward of one block, `Steady.mints` its distance from the exact one.
* `mintsReward_of_run` adds the distances up over a run.
-/

namespace Haqq.Coinomics

open Lib Lib.Decimal

variable {cfg : Config} {block : Block} {st : Store State} {input : BlockInput}
variable {totalBonded : Nat} {rewardCoefficient yearLength : Int}

/-! ## The error of a block -/

/-- The coefficient is given in units of its last decimal. -/
def exactReward (totalBonded : Nat) (rewardCoefficient yearLength elapsed : Int) : ℚ :=
  totalBonded * (rewardCoefficient / 10 ^ 18) * elapsed / yearLength

def blockError (totalBonded : Nat) (rewardCoefficient : Int) : ℚ :=
  totalBonded * (rewardCoefficient / 10 ^ 18) / (2 * 10 ^ 18) + 1

theorem yearLength_cases {year : Int} (h : yearInMillis year = ofInt yearLength) :
    yearLength = 31622400000 ∨ yearLength = 31536000000 := by
  have hcancel : ∀ n : Int, ofInt n = ofInt yearLength → yearLength = n := by
    intro n hn
    exact (mul_right_cancel₀ (by decide) hn).symm
  unfold yearInMillis at h
  split at h
  · exact .inl (hcancel _ h)
  · exact .inr (hcancel _ h)

theorem precision_rat : ((precision : Int) : ℚ) = 10 ^ 18 := by norm_num [precision]

theorem roundInt_error_rat (d : Int) : |(roundInt d : ℚ) - d / 10 ^ 18| ≤ 1 / 2 := by
  have herror : ((|2 * (precision * roundInt d - d)| : Int) : ℚ) ≤ (precision : Int) :=
    Int.cast_le.mpr (roundInt_error d)
  rw [Int.cast_abs, Int.cast_mul, Int.cast_sub, Int.cast_mul, precision_rat,
    Int.cast_ofNat] at herror
  rw [abs_le] at herror ⊢
  constructor <;> linarith

theorem squo_error_rat {n e : Int} (hn : 0 ≤ n) (he : 0 < e) (hle : 2 * e ≤ precision) :
    |(squo (ofInt n) (ofInt e) : ℚ) - n * 10 ^ 18 / e| ≤ 1 / 2 := by
  have herror : ((|2 * (e * squo (ofInt n) (ofInt e) - n * precision)| : Int) : ℚ) ≤ e :=
    Int.cast_le.mpr (squo_ofInt_error hn he hle)
  rw [Int.cast_abs, Int.cast_mul, Int.cast_sub, Int.cast_mul, Int.cast_mul, precision_rat,
    Int.cast_ofNat] at herror
  have hpos : (0 : ℚ) < e := by exact_mod_cast he
  have hfactor : (2 : ℚ) * (e * (squo (ofInt n) (ofInt e) : ℚ) - n * 10 ^ 18) =
      2 * e * ((squo (ofInt n) (ofInt e) : ℚ) - n * 10 ^ 18 / e) := by
    field_simp
  rw [hfactor, abs_mul, abs_of_pos (by positivity)] at herror
  nlinarith

theorem blockMint_eq {params : Params} {prevBlockTS currentBlockTS year : Int}
    (hcoefficient : squo params.rewardCoefficient (ofInt 100) = rewardCoefficient)
    (hyear : yearInMillis year = ofInt yearLength) :
    blockMint params prevBlockTS currentBlockTS year totalBonded =
      roundInt (totalBonded * rewardCoefficient *
        squo (ofInt (currentBlockTS - prevBlockTS)) (ofInt yearLength)) := by
  have hsub : ofInt currentBlockTS - ofInt prevBlockTS = ofInt (currentBlockTS - prevBlockTS) := by
    unfold ofInt
    ring
  simp only [blockMint, hcoefficient, smul_ofInt, hyear, hsub]
  rfl

theorem squo_nonneg {n e : Int} (hn : 0 ≤ n) (he : 0 < e) : 0 ≤ squo (ofInt n) (ofInt e) := by
  apply roundInt_nonneg
  apply Int.tdiv_nonneg <;> unfold ofInt <;> positivity

theorem roundInt_mint_error {elapsed : Int} (hcoefficient : 0 ≤ rewardCoefficient)
    (helapsed : 0 ≤ elapsed) (hyear : 0 < yearLength) (hle : 2 * yearLength ≤ precision) :
    |(roundInt (roundInt (totalBonded * rewardCoefficient *
        squo (ofInt elapsed) (ofInt yearLength))) : ℚ) -
      exactReward totalBonded rewardCoefficient yearLength elapsed| ≤
      blockError totalBonded rewardCoefficient := by
  have hquo := squo_error_rat helapsed hyear hle
  generalize squo (ofInt elapsed) (ofInt yearLength) = q at hquo ⊢
  have hproduct := roundInt_error_rat (totalBonded * rewardCoefficient * q)
  have hcoins := roundInt_error_rat (roundInt (totalBonded * rewardCoefficient * q))
  generalize roundInt (totalBonded * rewardCoefficient * q) = m at hproduct hcoins ⊢
  generalize roundInt m = c at hcoins ⊢
  push_cast at hproduct
  have hweight : (0 : ℚ) ≤ totalBonded * (rewardCoefficient / 10 ^ 18) / 10 ^ 18 := by
    have : (0 : ℚ) ≤ rewardCoefficient := by exact_mod_cast hcoefficient
    positivity
  -- the error of the quotient is magnified by the bonded coins
  have hmagnified : |(totalBonded * (rewardCoefficient / 10 ^ 18) / 10 ^ 18 : ℚ) *
      ((q : ℚ) - elapsed * 10 ^ 18 / yearLength)| ≤
      (totalBonded * (rewardCoefficient / 10 ^ 18) / 10 ^ 18 : ℚ) * (1 / 2) := by
    rw [abs_mul, abs_of_nonneg hweight]
    exact mul_le_mul_of_nonneg_left hquo hweight
  have hsplit : (c : ℚ) - exactReward totalBonded rewardCoefficient yearLength elapsed =
      ((c : ℚ) - m / 10 ^ 18) +
        ((m : ℚ) - totalBonded * rewardCoefficient * q / 10 ^ 18) / 10 ^ 18 +
        (totalBonded * (rewardCoefficient / 10 ^ 18) / 10 ^ 18 : ℚ) *
          ((q : ℚ) - elapsed * 10 ^ 18 / yearLength) := by
    unfold exactReward
    ring
  rw [hsplit, blockError]
  rw [abs_le] at hcoins hproduct hmagnified ⊢
  constructor <;> linarith

/-! ## Runs -/

/-- Enabled, with nothing else that changes what the reward depends on, and away from the cap. -/
structure Steady (cfg : Config) (totalBonded : Nat) (rewardCoefficient yearLength : Int)
    (st : Store State) (input : BlockInput) : Prop where
  enabled : (input.between st).modules.params.enableCoinomics = true
  timestamp : (input.between st).modules.prevBlockTS = st.modules.prevBlockTS
  later : st.modules.prevBlockTS ≤ input.block.unixMilli
  bonded : input.block.totalBondedTokens = .ok totalBonded
  coefficient : squo (input.between st).modules.params.rewardCoefficient (ofInt 100) =
    rewardCoefficient
  year : yearInMillis input.block.year = ofInt yearLength
  uncapped : ¬ Capped input.block (input.between st)
  moduleAccount : (input.between st).vestingAccount cfg.coinomicsModule = none

def mintedBy (cfg : Config) (st : Store State) (input : BlockInput) : Nat :=
  (step cfg st input).bank.supply.get (input.between st).modules.params.mintDenom -
    (input.between st).bank.supply.get (input.between st).modules.params.mintDenom

def mintedOver (cfg : Config) (st : Store State) (inputs : List BlockInput) : Nat :=
  Run.total (step cfg) (mintedBy cfg) st inputs

def lastTime (start : Int) (inputs : List BlockInput) : Int :=
  inputs.foldl (fun _ input => input.block.unixMilli) start

def MintsReward (cfg : Config) (totalBonded : Nat) (rewardCoefficient yearLength : Int)
    (st : Store State) (inputs : List BlockInput) : Prop :=
  |(mintedOver cfg st inputs : ℚ) - exactReward totalBonded rewardCoefficient yearLength
      (lastTime st.modules.prevBlockTS inputs - st.modules.prevBlockTS)| ≤
    inputs.length * blockError totalBonded rewardCoefficient

theorem exactReward_add (totalBonded : Nat) (rewardCoefficient yearLength t₁ t₂ : Int) :
    exactReward totalBonded rewardCoefficient yearLength (t₁ + t₂) =
      exactReward totalBonded rewardCoefficient yearLength t₁ +
        exactReward totalBonded rewardCoefficient yearLength t₂ := by
  unfold exactReward
  push_cast
  ring

theorem Steady.mints (h : Steady cfg totalBonded rewardCoefficient yearLength st input)
    (hcoefficient : 0 ≤ rewardCoefficient) (hprev : st.modules.prevBlockTS ≠ 0) :
    |(mintedBy cfg st input : ℚ) - exactReward totalBonded rewardCoefficient yearLength
        (input.block.unixMilli - st.modules.prevBlockTS)| ≤
      blockError totalBonded rewardCoefficient ∧
    (step cfg st input).modules.prevBlockTS = input.block.unixMilli := by
  have hyear : 0 < yearLength ∧ 2 * yearLength ≤ precision := by
    rcases yearLength_cases h.year with rfl | rfl <;> decide
  have helapsed : 0 ≤ input.block.unixMilli - st.modules.prevBlockTS := sub_nonneg.mpr h.later
  have hmint : mintOf input.block (input.between st) totalBonded =
      roundInt (totalBonded * rewardCoefficient *
        squo (ofInt (input.block.unixMilli - st.modules.prevBlockTS)) (ofInt yearLength)) := by
    rw [mintOf, blockMint_eq h.coefficient h.year, h.timestamp]
  have hnonneg : 0 ≤ mintOf input.block (input.between st) totalBonded := by
    have hquo := squo_nonneg helapsed hyear.1
    rw [hmint]
    exact roundInt_nonneg (by positivity)
  have hblock := @endBlocker_uncapped cfg input.block (input.between st) totalBonded h.enabled
    (h.timestamp ▸ hprev) h.bonded h.uncapped hnonneg
  have hsupply : (step cfg st input).bank.supply = (input.between st).bank.supply +
      Tally.single (input.between st).modules.params.mintDenom
        (roundInt (mintOf input.block (input.between st) totalBonded)).toNat := by
    rw [step, hblock]
    exact congrArg Prod.fst (books_allocate _ _ _ _)
  constructor
  · have hminted : ((mintedBy cfg st input : Nat) : Int) =
        roundInt (mintOf input.block (input.between st) totalBonded) := by
      have := roundInt_nonneg hnonneg
      rw [mintedBy, hsupply, Tally.get_add, Tally.get_single_self]
      omega
    have hcast : (mintedBy cfg st input : ℚ) =
        (roundInt (mintOf input.block (input.between st) totalBonded) : ℚ) := by
      exact_mod_cast hminted
    rw [hcast, hmint]
    exact roundInt_mint_error hcoefficient helapsed hyear.1 hyear.2
  · rw [step, hblock]
    exact prevBlockTS_allocate h.moduleAccount _ _ _

/-- However the time is split into blocks, a steady run mints the exact reward for the whole time up
to the errors of the blocks. -/
theorem mintsReward_of_run (cfg : Config) (totalBonded : Nat) (rewardCoefficient yearLength : Int)
    (st : Store State) (inputs : List BlockInput) (hcoefficient : 0 ≤ rewardCoefficient)
    (hrun : Run.Along (step cfg) (fun s input =>
      Steady cfg totalBonded rewardCoefficient yearLength s input ∧ s.modules.prevBlockTS ≠ 0)
      st inputs) :
    MintsReward cfg totalBonded rewardCoefficient yearLength st inputs := by
  unfold MintsReward
  induction inputs generalizing st with
  | nil => simp [mintedOver, Run.total, lastTime, exactReward]
  | cons input inputs ih =>
    obtain ⟨⟨hsteady, hprev⟩, hrest⟩ := hrun
    obtain ⟨herror, htime⟩ := hsteady.mints hcoefficient hprev
    have hih := ih _ hrest
    rw [htime] at hih
    have hsplit : lastTime st.modules.prevBlockTS (input :: inputs) - st.modules.prevBlockTS =
        (input.block.unixMilli - st.modules.prevBlockTS) +
          (lastTime input.block.unixMilli inputs - input.block.unixMilli) := by
      show lastTime input.block.unixMilli inputs - _ = _
      ring
    have htotal : mintedOver cfg st (input :: inputs) =
        mintedBy cfg st input + mintedOver cfg (step cfg st input) inputs := rfl
    rw [hsplit, exactReward_add, htotal, List.length_cons]
    push_cast
    rw [abs_le] at herror hih ⊢
    constructor <;> linarith

def sinceTime (prevBlockTS percent : Int) : Store State :=
  { belowCap with modules :=
      ⟨⟨.islm, ofInt percent, true⟩, prevBlockTS, some ⟨.islm, 10000⟩⟩ }

def blockAt (unixMilli : Int) : BlockInput := ⟨id, ⟨unixMilli, 2023, .ok 1000⟩⟩

theorem steady_blockAt {st : Store State} {time : Int}
    (henabled : st.modules.params.enableCoinomics = true) (hlater : st.modules.prevBlockTS ≤ time)
    (hcoefficient : squo st.modules.params.rewardCoefficient (ofInt 100) = rewardCoefficient)
    (hcap : ¬ ofInt (getMaxSupply st).amount <
      ofInt (st.bank.supply.get st.modules.params.mintDenom) +
      mintOf (blockAt time).block st 1000)
    (hplain : (st.vestingAccount coinomicsConfig.coinomicsModule).isNone = true) :
    Steady coinomicsConfig 1000 rewardCoefficient 31536000000 st (blockAt time) where
  enabled := henabled
  timestamp := rfl
  later := hlater
  bonded := rfl
  coefficient := hcoefficient
  year := show yearInMillis 2023 = _ by decide
  uncapped := by
    rintro ⟨-, -, totalBonded, hbonded, hlt⟩
    cases hbonded
    exact hcap hlt
  moduleAccount := Option.isNone_iff_eq_none.mp hplain

/-- Two blocks, each after a third of a year. -/
theorem thirdOfYear_minted :
    mintedOver coinomicsConfig (sinceTime 1 8) [blockAt 10512000001, blockAt 21024000001] = 54 ∧
    MintsReward coinomicsConfig 1000 (8 * 10 ^ 16) 31536000000 (sinceTime 1 8)
      [blockAt 10512000001, blockAt 21024000001] :=
  ⟨by decide +kernel, mintsReward_of_run coinomicsConfig 1000 (8 * 10 ^ 16) 31536000000
    (sinceTime 1 8) _ (by decide)
    ⟨⟨steady_blockAt rfl (by decide) (by decide) (by decide +kernel) rfl, by decide⟩,
      ⟨steady_blockAt (by decide +kernel) (by decide +kernel) (by decide +kernel)
        (by decide +kernel)
        (by decide +kernel), by decide +kernel⟩, trivial⟩⟩

/-- Nothing is minted in the year after a stored time of zero, and nothing for a negative
coefficient. -/
theorem year_without_reward :
    (Steady coinomicsConfig 1000 (8 * 10 ^ 16) 31536000000 (sinceTime 0 8) (blockAt 31536000000) ∧
      ¬ MintsReward coinomicsConfig 1000 (8 * 10 ^ 16) 31536000000 (sinceTime 0 8)
        [blockAt 31536000000]) ∧
    Steady coinomicsConfig 1000 (-(8 * 10 ^ 16)) 31536000000 (sinceTime 1 (-8))
      (blockAt 31536000001) ∧
    ¬ MintsReward coinomicsConfig 1000 (-(8 * 10 ^ 16)) 31536000000 (sinceTime 1 (-8))
      [blockAt 31536000001] := by
  have hzero : mintedOver coinomicsConfig (sinceTime 0 8) [blockAt 31536000000] = 0 := by
    decide +kernel
  have hnegative : mintedOver coinomicsConfig (sinceTime 1 (-8)) [blockAt 31536000001] = 0 := by
    decide +kernel
  refine ⟨⟨steady_blockAt rfl (by decide) (by decide) (by decide +kernel) rfl, ?_⟩,
    steady_blockAt rfl (by decide) (by decide) (by decide +kernel) rfl, ?_⟩
  · rw [MintsReward, hzero]
    norm_num [exactReward, blockError, lastTime, blockAt, sinceTime]
  · rw [MintsReward, hnegative]
    norm_num [exactReward, blockError, lastTime, blockAt, sinceTime]

end Haqq.Coinomics
