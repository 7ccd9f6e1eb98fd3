import Haqq.Chain.State
import Haqq.Lib.Curve
import Haqq.Lib.Decimal

/-!
# The price curve

`CalculateHaqqAmount` of `x/ethiq/keeper/calculate.go` is the sale of an interval of the curve of
`types/prices.json`: each position is sold at the price of its level.
-/

namespace Haqq.Ethiq

open Lib Lib.Curve

/-- From upper bounds in ISLM and prices in 1/10000 ISLM. -/
def levelsFrom (start : Nat) : List (Nat × Nat) → List PriceLevel
  | [] => []
  | (bound, price) :: rest =>
    ⟨start * 10 ^ 18, bound * 10 ^ 18, price * 10 ^ 14⟩ :: levelsFrom bound rest

/-- `types/prices.json` -/
def prices : List PriceLevel := levelsFrom 0
  [(40000000, 30000), (60000000, 40000), (76250000, 60000), (92500000, 72500), (108750000, 85000),
    (125000000, 97500), (141250000, 110000), (157500000, 122500), (173750000, 135000),
    (190000000, 147500), (210000000, 160000), (230000000, 180000), (250000000, 200000),
    (270000000, 220000), (290000000, 240000), (310000000, 260000), (330000000, 280000),
    (350000000, 300000), (365625000, 320000), (381250000, 340000), (396875000, 360000),
    (412500000, 380000), (428125000, 400000), (443750000, 420000), (459375000, 440000),
    (475000000, 460000), (490625000, 480000), (506250000, 500000), (521875000, 520000),
    (537500000, 540000), (553125000, 560000), (568750000, 580000), (584375000, 600000),
    (600000000, 620000), (618750000, 640000), (637500000, 680000), (656250000, 720000),
    (675000000, 760000), (693750000, 800000), (712500000, 840000), (731250000, 880000),
    (750000000, 920000), (768750000, 960000), (787500000, 1000000), (806250000, 1040000),
    (825000000, 1080000), (843750000, 1120000), (862500000, 1160000), (881250000, 1200000),
    (900000000, 1240000), (925000000, 1280000), (950000000, 1350625), (975000000, 1421250),
    (1000000000, 1491875), (1025000000, 1562500), (1050000000, 1633125), (1075000000, 1703750),
    (1100000000, 1774375), (1125000000, 1845000), (1150000000, 1915625), (1175000000, 1986250),
    (1200000000, 2056875), (1225000000, 2127500), (1250000000, 2198125), (1275000000, 2268750),
    (1300000000, 2339375), (1325000000, 2410000), (1350000000, 2480625), (1375000000, 2551250),
    (1400000000, 2621875), (1425000000, 2692500), (1450000000, 2763125), (1475000000, 2833750),
    (1500000000, 2904375), (1525000000, 2975000), (1550000000, 3045625), (1575000000, 3116250),
    (1600000000, 3186875), (1625000000, 3257500), (1650000000, 3328125), (1675000000, 3398750),
    (1700000000, 3469375), (1725000000, 3540000), (1750000000, 3610625), (1775000000, 3681250),
    (1800000000, 3751875), (1825000000, 3822500), (1850000000, 3893125), (1875000000, 3963750),
    (1900000000, 4034375), (1925000000, 4105000), (1950000000, 4175625), (1975000000, 4246250),
    (2000000000, 4316875), (2025000000, 4387500), (2050000000, 4458125), (2075000000, 4528750),
    (2100000000, 4599375), (2125000000, 4670000), (2150000000, 4740625), (2175000000, 4811250),
    (2200000000, 4881875), (2225000000, 4952500), (2250000000, 5023125), (2275000000, 5093750),
    (2300000000, 5164375), (2325000000, 5235000), (2350000000, 5305625), (2375000000, 5376250),
    (2400000000, 5446875), (2425000000, 5517500), (2450000000, 5588125), (2475000000, 5658750),
    (2500000000, 5729375), (2518750000, 5800000), (2537500000, 5812500), (2556250000, 5825000),
    (2575000000, 5837500), (2593750000, 5850000), (2612500000, 5862500), (2631250000, 5875000),
    (2650000000, 5887500), (2668750000, 5900000), (2687500000, 5912500), (2706250000, 5925000),
    (2725000000, 5937500), (2743750000, 5950000), (2762500000, 5962500), (2781250000, 5975000),
    (2800000000, 5987500), (26000000001, 6000000)]

/-- Returns what is left to be burned and the amount to mint. -/
def calculateLoop : List PriceLevel → Nat → Nat → Nat → Except KeeperError (Nat × Nat)
  | [], _, rest, minted => .ok (rest, minted)
  | level :: levels, current, rest, minted =>
    if rest = 0 then .ok (rest, minted)
    -- the last position of a level is just below its upper bound
    else if level.toAmount - 1 ≤ current then calculateLoop levels current rest minted
    else if ¬ (level.fromAmount - 1 ≤ current ∧ current < level.toAmount) then
      .error .calculationFailed
    else
      let burn := min (level.toAmount - current - 1) rest
      calculateLoop levels (current + burn) (rest - burn)
        (minted + Decimal.truncateInt (Decimal.quo (Decimal.ofNat burn) level.unitPrice))

def calculateHaqqAmount (levels : List PriceLevel) (current rest : Nat) : Except KeeperError Nat :=
  match calculateLoop levels current rest 0 with
  | .error e => .error e
  | .ok (left, minted) => if 0 < left then .error .exceedsPricingCurve else .ok minted

/-! ## What it calculates -/

/-- The price has at most four digits after the point, and is not too high. -/
def PriceLevel.Exact (level : PriceLevel) : Prop :=
  10 ^ 14 ∣ level.unitPrice ∧ 0 < level.unitPrice ∧ level.unitPrice ≤ 10 ^ 32

instance (level : PriceLevel) : Decidable level.Exact := inferInstanceAs (Decidable (_ ∧ _ ∧ _))

def Follows (start : Nat) : List PriceLevel → Prop
  | [] => True
  | level :: levels =>
    level.fromAmount = start ∧ start < level.toAmount ∧ level.Exact ∧ Follows level.toAmount levels

instance decidableFollows : (start : Nat) → (levels : List PriceLevel) →
    Decidable (Follows start levels)
  | _, [] => isTrue trivial
  | _, level :: levels =>
    have := decidableFollows level.toAmount levels
    inferInstanceAs (Decidable (_ ∧ _ ∧ _ ∧ _))

theorem prices_follows : Follows 0 prices := by decide +kernel

def curveEnd : Nat → List PriceLevel → Nat
  | start, [] => start
  | _, level :: levels => curveEnd level.toAmount levels

def PriceLevel.toCurve (level : PriceLevel) : Level where
  bound := level.toAmount - 1
  yield burn := burn * 10 ^ 18 / level.unitPrice

theorem superadditive_yield (level : PriceLevel) : Superadditive level.toCurve.yield := by
  intro m n
  simp only [PriceLevel.toCurve]
  rw [Nat.add_mul]
  exact Nat.div_add_div_le_add_div

def minted (levels : List PriceLevel) (a b : Nat) : Nat := sale (levels.map PriceLevel.toCurve) a b

theorem superadditive_levels (levels : List PriceLevel) :
    ∀ level ∈ levels.map PriceLevel.toCurve, Superadditive level.yield := by
  intro level hlevel
  obtain ⟨pl, _, rfl⟩ := List.mem_map.mp hlevel
  exact superadditive_yield pl

theorem minted_add_le (levels : List PriceLevel) {a b c : Nat} (hab : a ≤ b) (hbc : b ≤ c) :
    minted levels a b + minted levels b c ≤ minted levels a c :=
  sale_add_le (superadditive_levels levels) hab hbc

theorem minted_of_le (levels : List PriceLevel) {a b : Nat} (h : b ≤ a) : minted levels a b = 0 :=
  sale_of_le (superadditive_levels levels) h

theorem PriceLevel.Exact.truncateInt_quo {level : PriceLevel} (h : level.Exact) (burn : Nat) :
    Decimal.truncateInt (Decimal.quo (Decimal.ofNat burn) level.unitPrice) =
      level.toCurve.yield burn := by
  obtain ⟨⟨e, he⟩, hpos, hle⟩ := h
  have hunit : level.unitPrice = e * 10 ^ 14 := by rw [he, Nat.mul_comm]
  have hk : 10 ^ 4 * 10 ^ 14 = Decimal.precision := by decide
  have hquo := Decimal.truncateInt_quo (n := burn) (e := e) hk (by omega)
    (by simp only [Decimal.precision]; omega)
  rw [hunit, hquo, PriceLevel.toCurve]
  simp only [hunit]
  have hsplit : burn * 10 ^ 18 = burn * 10 ^ 4 * 10 ^ 14 := by ring
  rw [hsplit, Nat.mul_div_mul_right _ _ (by decide)]

theorem le_curveEnd {start : Nat} {levels : List PriceLevel} (h : Follows start levels) :
    start ≤ curveEnd start levels := by
  induction levels generalizing start with
  | nil => exact le_rfl
  | cons level levels ih =>
    obtain ⟨_, hlt, _, hrest⟩ := h
    exact hlt.le.trans (ih hrest)

theorem minted_cons (level : PriceLevel) (levels : List PriceLevel) (a b : Nat) :
    minted (level :: levels) a b =
      level.toCurve.yield (min b (level.toAmount - 1) - a) +
        minted levels (max a (level.toAmount - 1)) b := rfl

theorem calculateLoop_zero (levels : List PriceLevel) (current amount : Nat) :
    calculateLoop levels current 0 amount = .ok (0, amount) := by
  cases levels <;> rfl

theorem calculateLoop_eq {start : Nat} {levels : List PriceLevel} (h : Follows start levels)
    {current : Nat} (hcurrent : start - 1 ≤ current) (rest amount : Nat) :
    calculateLoop levels current rest amount =
      .ok (current + rest - max current (curveEnd start levels - 1),
        amount + minted levels current (current + rest)) := by
  induction levels generalizing start current rest amount with
  | nil =>
    have hmax : max current (start - 1) = current := max_eq_left hcurrent
    simp only [calculateLoop, curveEnd, hmax, Nat.add_sub_cancel_left]
    rfl
  | cons level levels ih =>
    obtain ⟨hfrom, hlt, hexact, hrest⟩ := h
    have hend := le_curveEnd hrest
    simp only [calculateLoop, curveEnd]
    split
    · -- nothing left to burn
      rename_i hzero
      subst hzero
      rw [minted_of_le _ (Nat.add_zero current).le, Nat.add_zero, Nat.add_zero,
        Nat.sub_eq_zero_of_le (le_max_left _ _)]
    · split
      · -- the level is fulfilled
        rename_i hfull
        have hyield : min (current + rest) (level.toAmount - 1) - current = 0 := by omega
        rw [ih hrest hfull, minted_cons, hyield, (superadditive_yield level).zero, zero_add,
          max_eq_left hfull]
      · rename_i hopen
        rw [if_neg (by omega), hexact.truncateInt_quo, minted_cons]
        have hbound : max current (level.toAmount - 1) = level.toAmount - 1 := by omega
        have hfar : max current (curveEnd level.toAmount levels - 1) =
            curveEnd level.toAmount levels - 1 := by omega
        rw [hbound, hfar]
        by_cases hfit : rest ≤ level.toAmount - current - 1
        · -- the rest is burned on this level
          have hburn : min (level.toAmount - current - 1) rest = rest := min_eq_right hfit
          have hpart : min (current + rest) (level.toAmount - 1) - current = rest := by omega
          rw [hburn, Nat.sub_self, calculateLoop_zero, hpart,
            minted_of_le _ (by omega), Nat.add_zero,
            Nat.sub_eq_zero_of_le (by omega)]
        · -- the level is used up
          have hburn : min (level.toAmount - current - 1) rest = level.toAmount - current - 1 :=
            min_eq_left (by omega)
          have hpart : min (current + rest) (level.toAmount - 1) - current =
              level.toAmount - current - 1 := by omega
          have hposition : current + (level.toAmount - current - 1) = level.toAmount - 1 := by omega
          have hleft : level.toAmount - 1 + (rest - (level.toAmount - current - 1)) =
              current + rest := by omega
          have hlast : max (level.toAmount - 1) (curveEnd level.toAmount levels - 1) =
              curveEnd level.toAmount levels - 1 := by omega
          rw [hburn, hpart, hposition, ih hrest le_rfl, hleft, hlast, Nat.add_assoc]

theorem calculateHaqqAmount_eq_ok {levels : List PriceLevel} (h : Follows 0 levels)
    {current rest amount : Nat} :
    calculateHaqqAmount levels current rest = .ok amount ↔
      (rest = 0 ∨ current + rest ≤ curveEnd 0 levels - 1) ∧
        amount = minted levels current (current + rest) := by
  unfold calculateHaqqAmount
  rw [calculateLoop_eq h (Nat.zero_le current)]
  simp only [zero_add]
  split
  · simp only [reduceCtorEq, false_iff]
    omega
  · simp only [Except.ok.injEq, eq_comm (b := amount)]
    omega

end Haqq.Ethiq
