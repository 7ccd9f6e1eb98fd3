import Haqq.LiquidVesting.Schedule

/-!
# Subtracting an amount from periods

What `SubtractAmountFromPeriods` takes out of the first periods, however many, is at most their
share.  It multiplies the amount of a period by the amount to subtract before it divides, so amounts
that fit into 256 bits can panic.

* `total_take_diff_le` is about the first periods, however many.
* `subtractAmountFromPeriods_exact`: when it fails, and how it divides the periods otherwise.
-/

namespace Haqq.LiquidVesting

open Lib Lib.Schedule Vesting

def maxBitLen : Nat := 256

def fitsInt (coins : Coins) : Bool := decide (∀ d ∈ coins.support, coins.get d < 2 ^ maxBitLen)

inductive SubtractionFailure
  | insufficientLockedUpFunds
  | panic
  deriving DecidableEq, Repr

/-- With the panics of `TotalAmount` and of the product in the loop. -/
def checkedSubtractAmountFromPeriods (minuendPeriods : Periods) (subtrahend : Coin) :
    Except SubtractionFailure (Periods × Periods) :=
  if !fitsInt (total minuendPeriods) then .error .panic
  else match subtractAmountFromPeriods minuendPeriods subtrahend with
    | none => .error .insufficientLockedUpFunds
    | some result =>
      if minuendPeriods.any fun period =>
          decide (2 ^ maxBitLen ≤ period.amount.get subtrahend.denom * subtrahend.amount) then
        .error .panic
      else .ok result

structure Representable (ps : Periods) (coin : Coin) : Prop where
  total : ∀ d, (total ps).get d < 2 ^ maxBitLen
  products : ∀ p ∈ ps, p.amount.get coin.denom * coin.amount < 2 ^ maxBitLen

variable {ps decreased diff : Periods} {coin : Coin}

theorem Representable.checkedSubtractAmountFromPeriods_eq (h : Representable ps coin) :
    checkedSubtractAmountFromPeriods ps coin =
      match subtractAmountFromPeriods ps coin with
      | none => .error .insufficientLockedUpFunds
      | some result => .ok result := by
  have htotal : fitsInt (Schedule.total ps) = true := by
    simp only [fitsInt, decide_eq_true_eq]
    exact fun d _ => h.total d
  have hproducts : (ps.any fun period =>
      decide (2 ^ maxBitLen ≤ period.amount.get coin.denom * coin.amount)) = false := by
    rw [List.any_eq_false]
    intro p hp
    simpa using h.products p hp
  simp only [checkedSubtractAmountFromPeriods, htotal, hproducts, Bool.not_true, Bool.false_eq_true,
    if_false]

/-! ## What is taken from the first periods -/

theorem takeResidue_drop_or_take (denom : Denom) (residue : Nat) (split : List (Period × Period))
    (n : Nat) :
    (takeResidue denom residue split).drop n = split.drop n ∨
      ∀ q ∈ (takeResidue denom residue split).take n, q.1.amount.get denom = 0 := by
  induction split generalizing residue n with
  | nil => simp [takeResidue]
  | cons q split ih =>
    cases n with
    | zero => simp
    | succ n =>
      simp only [takeResidue]
      split
      · simp only [List.drop_succ_cons, List.take_succ_cons, List.forall_mem_cons]
        refine (ih _ n).imp_right fun hempty => ⟨?_, hempty⟩
        simp [takeFrom]
      · exact .inl rfl

theorem total_get_eq_zero {denom : Denom} (h : ∀ p ∈ ps, p.amount.get denom = 0) :
    (total ps).get denom = 0 := by
  induction ps with
  | nil => rfl
  | cons p ps ih =>
    rw [total_cons, Tally.get_add, h p (by simp), ih fun q hq => h q (by simp [hq])]

theorem total_take_diff_le (h : subtractAmountFromPeriods ps coin = some (decreased, diff))
    (n : Nat) :
    (total (diff.take n)).get coin.denom * (total ps).get coin.denom ≤
      coin.amount * (total (ps.take n)).get coin.denom := by
  obtain ⟨hsplits, htotal, hle, _⟩ := subtractAmountFromPeriods_spec h
  obtain ⟨_, _, shares, split, hshares, hsplit, hdecreased, hdiff⟩ :=
    subtractAmountFromPeriods_cases h
  have hlength : split.length = shares.length := by
    have hdiffLength := hsplits.length_right
    rw [hdiff, List.length_map, List.length_reverse] at hdiffLength
    rw [hdiffLength, hshares, List.length_map]
  rcases takeResidue_drop_or_take coin.denom
      (coin.amount - (total (shares.map Prod.snd)).get coin.denom) shares.reverse
      (split.length - n) with hrest | hempty
  · -- no residue reaches the first periods: they give their rounded shares
    have hfirst : split.reverse.take n = shares.take n := by
      have htake := @List.take_reverse _ shares.reverse n
      rw [List.reverse_reverse, List.length_reverse, ← hlength] at htake
      rw [List.take_reverse, htake]
      rw [← hsplit] at hrest
      rw [hrest]
    rw [hdiff, ← List.map_take, hfirst, hshares, ← List.map_take, mul_comm, mul_comm coin.amount]
    exact mul_total_shares_le _ _ _ _
  · -- the later periods are used up, and they are more than their share
    have hlast : (total (decreased.drop n)).get coin.denom = 0 := by
      refine total_get_eq_zero fun p hp => ?_
      rw [hdecreased, ← List.map_drop, List.drop_reverse, List.map_reverse, List.mem_reverse,
        List.mem_map] at hp
      obtain ⟨q, hq, rfl⟩ := hp
      exact hempty q (hsplit ▸ hq)
    have hdrop := congrArg (Tally.get · coin.denom) (hsplits.drop n).total_add
    have hdiffTotal := congrArg (Tally.get · coin.denom) htotal
    have hps := congrArg (Tally.get · coin.denom) (total_append (ps.take n) (ps.drop n))
    rw [← List.take_append_drop n diff, total_append] at hdiffTotal
    rw [List.take_append_drop] at hps
    simp only [Tally.get_add, Coin.toCoins, Tally.get_single_self, hlast, zero_add]
      at hdrop hdiffTotal hps
    rw [hps] at hle ⊢
    rw [← hdiffTotal] at hle ⊢
    rw [hdrop] at hle ⊢
    nlinarith

/-- **`SubtractAmountFromPeriods`** fails exactly if the total is less than the amount or zero.
Otherwise it divides every period, and takes of the first periods at most their share. -/
theorem subtractAmountFromPeriods_exact (h : Representable ps coin) :
    (checkedSubtractAmountFromPeriods ps coin = .error .insufficientLockedUpFunds ↔
        (total ps).get coin.denom < coin.amount ∨ (total ps).get coin.denom = 0) ∧
      (¬ ((total ps).get coin.denom < coin.amount ∨ (total ps).get coin.denom = 0) →
        ∃ decreased diff, checkedSubtractAmountFromPeriods ps coin = .ok (decreased, diff) ∧
          decreased.length = ps.length ∧ diff.length = ps.length ∧
          (∀ (i : Nat) (p : Period), ps[i]? = some p →
            ∃ q r : Period, decreased[i]? = some q ∧ diff[i]? = some r ∧ q.length = p.length ∧
            r.length = p.length ∧ q.amount + r.amount = p.amount ∧
            ∀ d, d ≠ coin.denom → r.amount.get d = 0 ∧ q.amount.get d = p.amount.get d) ∧
          total diff = coin.toCoins ∧
          ∀ n, (total (diff.take n)).get coin.denom ≤
            coin.amount * (total (ps.take n)).get coin.denom / (total ps).get coin.denom) := by
  rw [h.checkedSubtractAmountFromPeriods_eq]
  constructor
  · cases hsub : subtractAmountFromPeriods ps coin with
    | none =>
      simp only [true_iff]
      by_contra hguard
      rw [not_or, Nat.not_lt] at hguard
      have hsome := subtractAmountFromPeriods_isSome hguard.1 hguard.2
      simp [hsub] at hsome
    | some result =>
      obtain ⟨_, _, hle, hne⟩ := subtractAmountFromPeriods_spec hsub
      simp only [reduceCtorEq, false_iff]
      omega
  · intro hguard
    rw [not_or, Nat.not_lt] at hguard
    obtain ⟨⟨decreased, diff⟩, hsub⟩ :=
      Option.isSome_iff_exists.mp (subtractAmountFromPeriods_isSome hguard.1 hguard.2)
    obtain ⟨split, hshares, rfl, rfl, htotal⟩ := subtractAmountFromPeriods_shares hsub
    refine ⟨_, _, by rw [hsub], hshares.splits.length_left, hshares.splits.length_right,
      fun i p hp => ?_, htotal, fun n => ?_⟩
    · obtain ⟨q, r, hq, hr, hlength, hlength', hamount⟩ := hshares.splits.getElem? hp
      refine ⟨q, r, hq, hr, hlength, hlength', hamount, fun d hd => ?_⟩
      obtain ⟨pair, hpair, rfl⟩ := List.mem_map.mp (List.mem_of_getElem? hr)
      obtain ⟨m, hm⟩ := hshares.only pair hpair
      have hzero : pair.2.amount.get d = 0 := by rw [hm, Tally.get_single_of_ne m hd]
      have hget := congrArg (Tally.get · d) hamount
      simp only [Tally.get_add, hzero, add_zero] at hget
      exact ⟨hzero, hget⟩
    · rw [Nat.le_div_iff_mul_le (Nat.pos_of_ne_zero hguard.2)]
      exact total_take_diff_le hsub n

def thirds : Periods :=
  [⟨1, Tally.single .islm 10 + Tally.single .haqq 7⟩, ⟨2, Tally.single .islm 10⟩,
    ⟨3, Tally.single .islm 10⟩]

theorem thirds_representable : Representable thirds ⟨.islm, 11⟩ := by
  refine ⟨fun d => ?_, by decide +kernel⟩
  have hfits : fitsInt (total thirds) = true := by decide +kernel
  simp only [fitsInt, decide_eq_true_eq] at hfits
  by_cases hd : d ∈ (total thirds).support
  · exact hfits d hd
  · have hzero : (total thirds).get d = 0 := by
      by_contra hne
      exact hd (((total thirds).mem_support d).mpr hne)
    rw [hzero]
    decide

theorem thirds_subtracted :
    ∃ decreased diff, checkedSubtractAmountFromPeriods thirds ⟨.islm, 11⟩ = .ok (decreased, diff) ∧
      total diff = Tally.single .islm 11 ∧ (total (diff.take 2)).get .islm ≤ 11 * 20 / 30 := by
  obtain ⟨_, hok⟩ := subtractAmountFromPeriods_exact thirds_representable
  obtain ⟨decreased, diff, hsub, _, _, _, htotal, htake⟩ := hok (by decide +kernel)
  refine ⟨decreased, diff, hsub, htotal, (htake 2).trans (le_of_eq ?_)⟩
  decide +kernel

theorem subtractAmountFromPeriods_panics :
    checkedSubtractAmountFromPeriods [⟨1, Tally.single .islm (2 ^ 200)⟩] ⟨.islm, 2 ^ 100⟩ =
        .error .panic ∧
      checkedSubtractAmountFromPeriods
        [⟨1, Tally.single .islm 5 + Tally.single .haqq (2 ^ 255)⟩,
          ⟨1, Tally.single .haqq (2 ^ 255)⟩] ⟨.islm, 1⟩ = .error .panic := by
  decide +kernel

end Haqq.LiquidVesting
