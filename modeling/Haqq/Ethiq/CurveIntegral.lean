import Haqq.Ethiq.PriceCurve
import Mathlib.Data.Nat.Cast.Order.Field

/-!
# The price curve as an integral

`CalculateHaqqAmount` pays for an interval, on each level, the length of their overlap divided by
the price and rounded down.  The payout is nearly additive, and the same amount is worth no more
later on the curve.

* `calculateHaqqAmount_integral`: the payout is a sum over the levels of the curve.
* `calculateHaqqAmount_split` compares one burn with several.
-/

namespace Haqq.Ethiq

open Lib Lib.Curve

/-! ## Overlaps -/

/-- The length of the part of the interval from `a` to `b` that a level covers. -/
def PriceLevel.overlap (level : PriceLevel) (a b : Nat) : Nat :=
  min b (level.toAmount - 1) - max a (level.fromAmount - 1)

variable {start : Nat} {levels : List PriceLevel}

theorem Follows.along_eq_sum {M : Type*} [AddCommMonoid M] (f : PriceLevel → Nat → M)
    (h : Follows start levels) (a b : Nat) :
    along (fun level => level.toAmount - 1) f levels (max a (start - 1)) b =
      (levels.map fun level => f level (level.overlap a b)).sum := by
  induction levels generalizing start with
  | nil => rfl
  | cons level levels ih =>
    obtain ⟨hfrom, hlt, _, hrest⟩ := h
    have hnext : max (max a (start - 1)) (level.toAmount - 1) = max a (level.toAmount - 1) := by
      omega
    rw [along, hnext, ih hrest, List.map_cons, List.sum_cons, PriceLevel.overlap, hfrom]

theorem minted_eq_along (levels : List PriceLevel) (a b : Nat) :
    minted levels a b = along (fun level => level.toAmount - 1)
      (fun level n => n * 10 ^ 18 / level.unitPrice) levels a b :=
  sale_map PriceLevel.toCurve levels a b

theorem minted_eq_sum (h : Follows 0 levels) (a b : Nat) :
    minted levels a b =
      (levels.map fun level => level.overlap a b * 10 ^ 18 / level.unitPrice).sum := by
  rw [minted_eq_along, ← h.along_eq_sum (fun level n => n * 10 ^ 18 / level.unitPrice) a b]
  simp

theorem touched_eq_countP (h : Follows 0 levels) (a b : Nat) :
    touched (fun level => level.toAmount - 1) levels a b =
      levels.countP fun level => decide (0 < level.overlap a b) := by
  have hsum := h.along_eq_sum (fun _ n => if 0 < n then 1 else 0) a b
  simp only [Nat.zero_sub, Nat.max_zero] at hsum
  rw [touched, hsum]
  clear hsum h
  induction levels with
  | nil => rfl
  | cons level levels ih =>
    rw [List.map_cons, List.sum_cons, ih, List.countP_cons, Nat.add_comm]
    simp

theorem curveEnd_eq_getLast {last : PriceLevel} (h : levels.getLast? = some last) :
    curveEnd start levels = last.toAmount := by
  induction levels generalizing start with
  | nil => simp at h
  | cons level levels ih =>
    cases levels with
    | nil =>
      cases h
      rfl
    | cons next levels =>
      rw [List.getLast?_cons_cons] at h
      exact @ih level.toAmount h

theorem Follows.exact (h : Follows start levels) : ∀ level ∈ levels, level.Exact := by
  induction levels generalizing start with
  | nil => simp
  | cons level levels ih =>
    obtain ⟨_, _, hexact, hrest⟩ := h
    exact List.forall_mem_cons.mpr ⟨hexact, ih hrest⟩

theorem calculateHaqqAmount_eq (h : Follows 0 levels) (current rest : Nat) :
    calculateHaqqAmount levels current rest =
      if 0 < rest ∧ curveEnd 0 levels - 1 < current + rest then .error .exceedsPricingCurve
      else .ok (minted levels current (current + rest)) := by
  unfold calculateHaqqAmount
  rw [calculateLoop_eq h (Nat.zero_le current)]
  simp only [zero_add]
  congr 1
  simp only [eq_iff_iff]
  omega

/-- **The payout is an integral.**  It fails exactly beyond the end of the curve, and never
for lack of a level. -/
theorem calculateHaqqAmount_integral (current amount : Nat) (hpos : 0 < amount) :
    ∃ last, prices.getLast? = some last ∧
      calculateHaqqAmount prices current amount =
        (if last.toAmount - 1 < current + amount then .error .exceedsPricingCurve
        else .ok (prices.map fun level =>
          level.overlap current (current + amount) * 10 ^ 18 / level.unitPrice).sum) ∧
      calculateHaqqAmount prices current amount ≠ .error .calculationFailed ∧
      ∀ level ∈ prices, ∀ n, Decimal.truncateInt (Decimal.quo (Decimal.ofNat n) level.unitPrice) =
        n * 10 ^ 18 / level.unitPrice := by
  obtain ⟨last, hlast⟩ : ∃ last, prices.getLast? = some last :=
    Option.isSome_iff_exists.mp (by decide +kernel)
  have heq : calculateHaqqAmount prices current amount =
      if last.toAmount - 1 < current + amount then .error .exceedsPricingCurve
      else .ok (prices.map fun level =>
        level.overlap current (current + amount) * 10 ^ 18 / level.unitPrice).sum := by
    rw [calculateHaqqAmount_eq prices_follows, minted_eq_sum prices_follows,
      curveEnd_eq_getLast hlast]
    simp only [hpos, true_and]
  refine ⟨last, hlast, heq, ?_, fun level hlevel n =>
    (prices_follows.exact level hlevel).truncateInt_quo n⟩
  rw [heq]
  split <;> simp

theorem seven_at_boundary : calculateHaqqAmount prices (4 * 10 ^ 25 - 3) 7 = .ok (0 + 1) := by
  obtain ⟨last, hlast, heq, _⟩ := calculateHaqqAmount_integral (4 * 10 ^ 25 - 3) 7 (by decide)
  have hend : prices.getLast?.map (fun last => decide (last.toAmount - 1 < 4 * 10 ^ 25 - 3 + 7)) =
      some false := by decide +kernel
  rw [hlast, Option.map_some, Option.some.injEq, decide_eq_false_iff_not] at hend
  rw [heq, if_neg hend]
  refine congrArg Except.ok ?_
  decide +kernel

/-! ## Splitting a purchase -/

theorem yield_add_le (level : PriceLevel) (m n : Nat) :
    level.toCurve.yield (m + n) ≤ level.toCurve.yield m + level.toCurve.yield n + 1 := by
  simp only [PriceLevel.toCurve, Nat.add_mul]
  rcases Nat.eq_zero_or_pos level.unitPrice with hzero | hpos
  · simp [hzero]
  · rw [Nat.add_div hpos]
    split <;> omega

variable {a b : Nat}

theorem minted_le_add_one (levels : List PriceLevel) {c : Nat} (hab : a ≤ b) (hbc : b ≤ c) :
    minted levels a c ≤ minted levels a b + minted levels b c + 1 := by
  refine sale_le_add_one (superadditive_levels levels) (fun level hlevel => ?_) hab hbc
  obtain ⟨pl, _, rfl⟩ := List.mem_map.mp hlevel
  exact yield_add_le pl

def PriceLevel.rate (level : PriceLevel) : ℚ := 10 ^ 18 / level.unitPrice

theorem rate_nonneg (level : PriceLevel) : 0 ≤ level.rate :=
  div_nonneg (by norm_num) (Nat.cast_nonneg _)

theorem prices_rising : prices.Pairwise fun level later => level.unitPrice ≤ later.unitPrice := by
  decide +kernel

theorem rate_falling :
    prices.Pairwise fun level later => later.rate ≤ level.rate := by
  refine prices_rising.imp_of_mem fun {level later} hlevel _ hle => ?_
  have hpos : (0 : ℚ) < level.unitPrice := by
    exact_mod_cast (prices_follows.exact level hlevel).2.1
  exact div_le_div_of_nonneg_left (by norm_num) hpos (by exact_mod_cast hle)

theorem minted_shift_lt {a' n : Nat} (ha : a ≤ a')
    (htouched : 0 < touched (fun level : PriceLevel => level.toAmount - 1) prices a (a + n)) :
    minted prices a' (a' + n) <
      minted prices a (a + n) + touched (fun level => level.toAmount - 1) prices a (a + n) := by
  have hdown : ∀ level ∈ prices, ∀ n : Nat,
      ((n * 10 ^ 18 / level.unitPrice : Nat) : ℚ) ≤ level.rate * n := by
    intro level _ n
    refine Nat.cast_div_le.trans (le_of_eq ?_)
    rw [PriceLevel.rate]
    push_cast
    ring
  have hless : ∀ level ∈ prices, ∀ n : Nat, 0 < n →
      level.rate * n < (n * 10 ^ 18 / level.unitPrice : Nat) + 1 := by
    intro level hlevel n _
    have hpos := (prices_follows.exact level hlevel).2.1
    have hposQ : (0 : ℚ) < level.unitPrice := by exact_mod_cast hpos
    have hlt := Nat.lt_mul_div_succ (n * 10 ^ 18) hpos
    rw [PriceLevel.rate, div_mul_eq_mul_div, div_lt_iff₀ hposQ]
    have hltQ : ((n * 10 ^ 18 : Nat) : ℚ) <
        (level.unitPrice * (n * 10 ^ 18 / level.unitPrice + 1) : Nat) := by exact_mod_cast hlt
    push_cast at hltQ ⊢
    linarith
  have hupper := cast_along_le (fun level : PriceLevel => level.toAmount - 1) hdown a' (a' + n)
  have hlower := (along_lt_add_touched (fun level : PriceLevel => level.toAmount - 1)
    (fun level _ => by simp) hless a (a + n)).2 htouched
  have hshift := @along_rate_shift_le _ (fun level : PriceLevel => level.toAmount - 1)
    PriceLevel.rate prices (fun level _ => rate_nonneg level) rate_falling _ _ ha n
  rw [minted_eq_along, minted_eq_along]
  exact_mod_cast (hupper.trans hshift).trans_lt hlower

theorem touched_pos (h : Follows start levels) (hstart : start - 1 ≤ a) (hab : a < b)
    (hend : a < curveEnd start levels - 1) :
    0 < touched (fun level : PriceLevel => level.toAmount - 1) levels a b := by
  induction levels generalizing start with
  | nil =>
    rw [curveEnd] at hend
    omega
  | cons level levels ih =>
    obtain ⟨_, _, _, hrest⟩ := h
    rw [touched, along]
    by_cases ha : a < level.toAmount - 1
    · rw [if_pos (by omega)]
      omega
    · have hlater := ih hrest (by omega) hend
      rw [max_eq_left (by omega)]
      exact Nat.add_pos_right _ hlater

/-- **Splitting a purchase never pays.** It costs at most one unit; a larger amount pays no less,
and the same amount later no more, but for the units lost on the levels touched. -/
theorem calculateHaqqAmount_split :
    ∃ last, prices.getLast? = some last ∧
      (∀ current a b, current + a + b ≤ last.toAmount - 1 → ∃ first second whole,
        calculateHaqqAmount prices current a = .ok first ∧
        calculateHaqqAmount prices (current + a) b = .ok second ∧
        calculateHaqqAmount prices current (a + b) = .ok whole ∧
        first + second ≤ whole ∧ whole ≤ first + second + 1) ∧
      (∀ current a b, a ≤ b → current + b ≤ last.toAmount - 1 → ∃ less more,
        calculateHaqqAmount prices current a = .ok less ∧
        calculateHaqqAmount prices current b = .ok more ∧ less ≤ more) ∧
      ∀ current later a, current ≤ later → 0 < a → later + a ≤ last.toAmount - 1 →
        ∃ early late touchedLevels, calculateHaqqAmount prices current a = .ok early ∧
          calculateHaqqAmount prices later a = .ok late ∧
          touchedLevels =
            prices.countP (fun level => decide (0 < level.overlap current (current + a))) ∧
          1 ≤ touchedLevels ∧ late ≤ early + (touchedLevels - 1) := by
  obtain ⟨last, hlast⟩ : ∃ last, prices.getLast? = some last :=
    Option.isSome_iff_exists.mp (by decide +kernel)
  have hend : curveEnd 0 prices = last.toAmount := curveEnd_eq_getLast hlast
  have hok : ∀ current a, current + a ≤ last.toAmount - 1 →
      calculateHaqqAmount prices current a = .ok (minted prices current (current + a)) := by
    intro current a hle
    rw [calculateHaqqAmount_eq prices_follows, hend, if_neg (by omega)]
  refine ⟨last, hlast, fun current a b hle => ?_, fun current a b hab hle => ?_,
    fun current later a hlater hpos hle => ?_⟩
  · refine ⟨_, _, _, hok _ _ (by omega), hok _ _ hle, hok _ _ (by omega), ?_⟩
    rw [← Nat.add_assoc]
    exact ⟨minted_add_le prices (by omega) (by omega),
      minted_le_add_one prices (by omega) (by omega)⟩
  · refine ⟨_, _, hok _ _ (by omega), hok _ _ hle, ?_⟩
    exact sale_mono (superadditive_levels prices) (by omega) (by omega)
  · have htouched := touched_pos prices_follows (Nat.zero_le current)
      (by omega : current < current + a) (by rw [hend]; omega)
    have hshift := minted_shift_lt hlater htouched
    rw [touched_eq_countP prices_follows] at htouched hshift
    exact ⟨_, _, _, hok _ _ (by omega), hok _ _ hle, rfl, htouched, by omega⟩

theorem split_on_first_level :
    ∃ first second whole, calculateHaqqAmount prices 0 2 = .ok first ∧
      calculateHaqqAmount prices 2 2 = .ok second ∧ calculateHaqqAmount prices 0 4 = .ok whole ∧
      first + second ≤ whole ∧ whole ≤ first + second + 1 := by
  obtain ⟨last, hlast, hsplit, _⟩ := calculateHaqqAmount_split
  have hend : prices.getLast?.map (fun last => decide (0 + 2 + 2 ≤ last.toAmount - 1)) =
      some true := by decide +kernel
  rw [hlast, Option.map_some, Option.some.injEq, decide_eq_true_eq] at hend
  exact hsplit 0 2 2 hend

end Haqq.Ethiq
