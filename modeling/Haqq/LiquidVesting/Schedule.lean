import Haqq.Chain.State
import Haqq.Vesting.StepFunctions

/-!
# Splitting schedules

`x/liquidvesting/types/schedule.go`: taking an amount out of a list of periods in proportion to
their amounts, with the rounding residue taken from the last periods.
-/

namespace Haqq.LiquidVesting

open Lib Lib.Schedule Vesting

def takeFrom (denom : Denom) (amount : Nat) (split : Period × Period) : Period × Period :=
  ({ split.1 with amount := split.1.amount - Tally.single denom amount },
    { split.2 with amount := split.2.amount + Tally.single denom amount })

def takeShare (denom : Denom) (amount total : Nat) (period : Period) : Period × Period :=
  let subtracted := period.amount.get denom * amount / total
  ({ period with amount := period.amount - Tally.single denom subtracted },
    ⟨period.length, Tally.single denom subtracted⟩)

/-- What the rounding of the shares left over. -/
def takeResidue (denom : Denom) : Nat → List (Period × Period) → List (Period × Period)
  | _, [] => []
  | residue, split :: rest =>
    let available := split.1.amount.get denom
    if available < residue then
      takeFrom denom available split :: takeResidue denom (residue - available) rest
    else takeFrom denom residue split :: rest

/-- Divides the periods into what remains and what was taken, each in proportion to its amount. -/
def subtractAmountFromPeriods (minuendPeriods : Periods) (subtrahend : Coin) :
    Option (Periods × Periods) :=
  let denom := subtrahend.denom
  let minuendTotal := (total minuendPeriods).get denom
  if minuendTotal < subtrahend.amount ∨ minuendTotal = 0 then none
  else
    let shares := minuendPeriods.map (takeShare denom subtrahend.amount minuendTotal)
    let totalSubtracted := (total (shares.map Prod.snd)).get denom
    -- the residue comes out of the tail
    let split := (takeResidue denom (subtrahend.amount - totalSubtracted) shares.reverse).reverse
    some (split.map Prod.fst, split.map Prod.snd)

def extractUpcomingPeriods (startDate endDate : Int) (periods : Periods) (readTime : Int) :
    Periods :=
  periods.drop (readPastPeriodCount startDate endDate periods readTime)

def replacePeriodsTail (periods replacement : Periods) : Periods :=
  if periods.length ≤ replacement.length then replacement
  else periods.take (periods.length - replacement.length) ++ replacement

def periodShift (elapsedTime currentTime : Int) : Periods → Int
  | [] => 0
  | period :: rest =>
    let next := int64 (elapsedTime + period.length)
    if currentTime < next then int64 (currentTime - elapsedTime)
    else periodShift next currentTime rest

def currentPeriodShift (startTime currentTime : Int) (periods : Periods) : Int :=
  if currentTime ≤ startTime then 0 else periodShift startTime currentTime periods

/-! ## What the split is -/

/-- The second parts hold coins of `denom` only. -/
structure Shares (denom : Denom) (ps : Periods) (split : List (Period × Period)) : Prop where
  splits : Splits ps (split.map Prod.fst) (split.map Prod.snd)
  only : ∀ q ∈ split, ∃ n, q.2.amount = Tally.single denom n

theorem Shares.nil (denom : Denom) : Shares denom [] [] := ⟨.nil, by simp⟩

variable {denom : Denom} {q : Period × Period} {ps : Periods} {split : List (Period × Period)}

theorem Shares.cons {p : Period} (h : Shares denom ps split) (hlength₁ : q.1.length = p.length)
    (hlength₂ : q.2.length = p.length) (hamount : q.1.amount + q.2.amount = p.amount)
    (honly : ∃ n, q.2.amount = Tally.single denom n) : Shares denom (p :: ps) (q :: split) := by
  refine ⟨.cons hlength₁ hlength₂ hamount h.splits, ?_⟩
  intro q' hq'
  rcases List.mem_cons.mp hq' with rfl | hmem
  · exact honly
  · exact h.only q' hmem

theorem Shares.reverse (h : Shares denom ps split) : Shares denom ps.reverse split.reverse := by
  refine ⟨?_, fun q hq => h.only q (List.mem_reverse.mp hq)⟩
  simpa only [List.map_reverse] using h.splits.reverse

theorem Shares.total_of_ne {d : Denom} (h : Shares denom ps split) (hd : d ≠ denom) :
    (total (split.map Prod.snd)).get d = 0 := by
  have honly := h.only
  clear h
  induction split with
  | nil => rfl
  | cons q split ih =>
    obtain ⟨n, hn⟩ := honly q (by simp)
    have hrest := ih fun q' hq' => honly q' (by simp [hq'])
    simp only [List.map_cons, total_cons, Tally.get_add, hn, Tally.get_single_of_ne n hd, hrest]

variable {amount : Nat}

theorem share_le {p total : Nat} (h : amount ≤ total) : p * amount / total ≤ p := by
  rcases Nat.eq_zero_or_pos total with rfl | hpos
  · simp
  · exact Nat.div_le_of_le_mul (by rw [mul_comm]; exact Nat.mul_le_mul_right p h)

theorem shares_map_takeShare {t : Nat} (h : amount ≤ t) (ps : Periods) :
    Shares denom ps (ps.map (takeShare denom amount t)) := by
  induction ps with
  | nil => exact .nil denom
  | cons p ps ih =>
    refine ih.cons rfl rfl ?_ ⟨_, rfl⟩
    exact Tally.sub_add_cancel_of_le (Tally.single_le_iff.mpr (share_le h))

theorem mul_total_shares_le (denom : Denom) (amount t : Nat) (ps : Periods) :
    t * (total ((ps.map (takeShare denom amount t)).map Prod.snd)).get denom ≤
      (total ps).get denom * amount := by
  induction ps with
  | nil => simp
  | cons p ps ih =>
    simp only [List.map_cons, total_cons, Tally.get_add, takeShare, Tally.get_single_self,
      Nat.mul_add, Nat.add_mul]
    exact Nat.add_le_add (Nat.mul_div_le _ _) ih

theorem Shares.cons_inv (h : Shares denom ps (q :: split)) :
    ∃ p rest, ps = p :: rest ∧ q.1.length = p.length ∧ q.2.length = p.length ∧
      q.1.amount + q.2.amount = p.amount ∧ (∃ n, q.2.amount = Tally.single denom n) ∧
      Shares denom rest split := by
  obtain ⟨hsplits, honly⟩ := h
  cases hsplits with
  | cons hlength₁ hlength₂ hamount hrest =>
    exact ⟨_, _, rfl, hlength₁, hlength₂, hamount, honly q (by simp), hrest,
      fun q' hq' => honly q' (by simp [hq'])⟩

theorem takeFrom_amount {n : Nat} (hn : n ≤ q.1.amount.get denom) :
    (takeFrom denom n q).1.amount + (takeFrom denom n q).2.amount =
      q.1.amount + q.2.amount := by
  ext d
  by_cases hd : d = denom
  · subst hd
    simp [takeFrom]
    omega
  · simp [takeFrom, Tally.get_single_of_ne n hd]

theorem takeFrom_only (h : ∃ m, q.2.amount = Tally.single denom m) (n : Nat) :
    ∃ m, (takeFrom denom n q).2.amount = Tally.single denom m := by
  obtain ⟨m, hm⟩ := h
  exact ⟨m + n, by simp only [takeFrom, hm, Tally.single_add]⟩

theorem shares_takeResidue (h : Shares denom ps split) (residue : Nat) :
    Shares denom ps (takeResidue denom residue split) := by
  induction split generalizing ps residue with
  | nil => exact h
  | cons q split ih =>
    obtain ⟨p, rest, rfl, hlength₁, hlength₂, hamount, honly, hrest⟩ := h.cons_inv
    simp only [takeResidue]
    split
    · exact (ih hrest _).cons hlength₁ hlength₂ ((takeFrom_amount le_rfl).trans hamount)
        (takeFrom_only honly _)
    · rename_i hge
      exact hrest.cons hlength₁ hlength₂ ((takeFrom_amount (by omega)).trans hamount)
        (takeFrom_only honly _)

theorem takeResidue_total {residue : Nat} (h : residue ≤ (total (split.map Prod.fst)).get denom) :
    (total ((takeResidue denom residue split).map Prod.snd)).get denom =
      (total (split.map Prod.snd)).get denom + residue := by
  induction split generalizing residue with
  | nil =>
    simp only [List.map_nil, total_nil, Tally.get_zero] at h
    simp [takeResidue]
    omega
  | cons q split ih =>
    simp only [List.map_cons, total_cons, Tally.get_add] at h
    simp only [takeResidue]
    split
    · have hle : residue - q.1.amount.get denom ≤ (total (split.map Prod.fst)).get denom := by
        omega
      have hrest := ih hle
      simp only [List.map_cons, total_cons, Tally.get_add, hrest, takeFrom,
        Tally.get_single_self]
      omega
    · simp only [List.map_cons, total_cons, Tally.get_add, takeFrom, Tally.get_single_self]
      omega

variable {decreased diff : Periods} {coin : Coin}

theorem subtractAmountFromPeriods_cases
    (h : subtractAmountFromPeriods ps coin = some (decreased, diff)) :
    coin.amount ≤ (total ps).get coin.denom ∧ (total ps).get coin.denom ≠ 0 ∧
      ∃ shares split, shares = ps.map (takeShare coin.denom coin.amount
          ((total ps).get coin.denom)) ∧
        split = takeResidue coin.denom
          (coin.amount - (total (shares.map Prod.snd)).get coin.denom) shares.reverse ∧
        decreased = split.reverse.map Prod.fst ∧ diff = split.reverse.map Prod.snd := by
  unfold subtractAmountFromPeriods at h
  simp only at h
  split at h
  · cases h
  · rename_i hguard
    rw [not_or, Nat.not_lt] at hguard
    cases h
    exact ⟨hguard.1, hguard.2, _, _, rfl, rfl, rfl, rfl⟩

theorem subtractAmountFromPeriods_shares
    (h : subtractAmountFromPeriods ps coin = some (decreased, diff)) :
    ∃ split, Shares coin.denom ps split ∧ decreased = split.map Prod.fst ∧
      diff = split.map Prod.snd ∧ total diff = coin.toCoins := by
  obtain ⟨hle, hne, shares, split, hshares, hsplit, hdecreased, hdiff⟩ :=
    subtractAmountFromPeriods_cases h
  have hdivided : Shares coin.denom ps shares := hshares ▸ shares_map_takeShare hle ps
  have hfinal : Shares coin.denom ps split.reverse := by
    have := (shares_takeResidue hdivided.reverse
      (coin.amount - (total (shares.map Prod.snd)).get coin.denom)).reverse
    rwa [List.reverse_reverse, ← hsplit] at this
  refine ⟨_, hfinal, hdecreased, hdiff, ?_⟩
  have htaken : (total (shares.map Prod.snd)).get coin.denom ≤ coin.amount := by
    have hmul := mul_total_shares_le coin.denom coin.amount ((total ps).get coin.denom) ps
    rw [← hshares] at hmul
    exact Nat.le_of_mul_le_mul_left hmul (Nat.pos_of_ne_zero hne)
  have hrest : (total (shares.map Prod.fst)).get coin.denom +
      (total (shares.map Prod.snd)).get coin.denom = (total ps).get coin.denom := by
    rw [← hdivided.splits.total_add, Tally.get_add]
  ext d
  by_cases hd : d = coin.denom
  · subst hd
    have hresidue : coin.amount - (total (shares.map Prod.snd)).get coin.denom ≤
        (total (shares.reverse.map Prod.fst)).get coin.denom := by
      rw [List.map_reverse, total_reverse]
      omega
    rw [hdiff, List.map_reverse, total_reverse, hsplit, takeResidue_total hresidue,
      List.map_reverse, total_reverse]
    simp only [Coin.toCoins, Tally.get_single_self]
    omega
  · rw [hdiff, hfinal.total_of_ne hd, Coin.toCoins, Tally.get_single_of_ne _ hd]

theorem subtractAmountFromPeriods_spec
    (h : subtractAmountFromPeriods ps coin = some (decreased, diff)) :
    Splits ps decreased diff ∧ total diff = coin.toCoins ∧
      coin.amount ≤ (total ps).get coin.denom ∧ (total ps).get coin.denom ≠ 0 := by
  obtain ⟨hle, hne, _⟩ := subtractAmountFromPeriods_cases h
  obtain ⟨split, hshares, rfl, rfl, htotal⟩ := subtractAmountFromPeriods_shares h
  exact ⟨hshares.splits, htotal, hle, hne⟩

theorem subtractAmountFromPeriods_isSome (hle : coin.amount ≤ (total ps).get coin.denom)
    (hne : (total ps).get coin.denom ≠ 0) : (subtractAmountFromPeriods ps coin).isSome = true := by
  unfold subtractAmountFromPeriods
  simp only
  rw [if_neg (by omega)]
  rfl

end Haqq.LiquidVesting
