import Haqq.LiquidVesting.Subtraction
import Haqq.LiquidVesting.ValidAccounts
import Haqq.Vesting.Pointwise

/-!
# A liquidation conserves the unlocking schedule

The account and the new denomination together unlock at every later time what the account would have
unlocked.  The event times of the account must not overflow: a merged lockup schedule whose events
wrap around has periods of negative length.  And the new denomination must end before the year
10000, or it is not stored at all.

* `exists_liquidates`: the schedules of a balanced and fully vested account can always be divided.
* `Parts` takes a division apart at the current period; `Parts.readPeriods_add`,
  `Parts.endTime_eq` and `Parts.unlockedCoins_eq` say what the two sides unlock.
* `liquidate_conserves_iff`: the exact condition, `Conservable`, on the account and the block time.
* `conservable_of_timely`: it holds of schedules without overflow that end before the year 10000.
-/

namespace Haqq.LiquidVesting

open Lib Lib.Schedule Vesting ClawbackVestingAccount

variable {now : Int} {va va' : ClawbackVestingAccount} {amount : Coin} {diff : Periods}

def LiquidDenom.unlockedCoins (denom : LiquidDenom) (t : Int) : Coins :=
  readSchedule denom.startTime denom.endTime denom.lockupPeriods (total denom.lockupPeriods) t

theorem exists_liquidates {locked : Coins} (h : va.Balanced)
    (hvested : va.getVestingCoins now = some 0) (hlocked : va.getLockedUpCoins now = some locked)
    (hpos : 0 < amount.amount) (hle : amount.amount ≤ locked.get amount.denom) :
    ∃ va' diff, Liquidates now va amount va' diff ∧
      ∀ {S : Type} (st : ChainState S),
        (liquidateSchedule now va amount).run st = .ok (va', diff) st := by
  have hupcoming : locked =
      total (extractUpcomingPeriods va.startTime va.endTime va.lockupPeriods now) := by
    rw [h.getLockedUpCoins_eq_total_drop] at hlocked
    exact (Option.some.inj hlocked).symm
  have horiginal : locked ≤ va.originalVesting := by
    rw [h.getLockedUpCoins_eq] at hlocked
    rw [← Option.some.inj hlocked]
    exact fun d => Nat.sub_le _ _
  have hdenom : amount.amount ≤ va.originalVesting.get amount.denom := hle.trans (horiginal _)
  obtain ⟨⟨decreased, diff⟩, hsub⟩ := Option.isSome_iff_exists.mp
    (subtractAmountFromPeriods_isSome (hupcoming ▸ hle) (by rw [← hupcoming]; omega))
  obtain ⟨⟨decreasedVesting, diffVesting⟩, hsubVesting⟩ := Option.isSome_iff_exists.mp
    (subtractAmountFromPeriods_isSome (h.vesting ▸ hdenom) (by rw [h.vesting]; omega))
  have hcoins : amount.toCoins ≤ va.originalVesting := Tally.single_le_iff.mpr hdenom
  have hne : locked.get amount.denom ≠ 0 := by omega
  refine ⟨_, diff, ⟨hvested, ⟨locked, hlocked, hne⟩, hcoins, decreased, decreasedVesting,
    diffVesting, hsub, hsubVesting, rfl⟩, fun st => ?_⟩
  unfold liquidateSchedule
  simp only [run_bind_ok, ofOption_then, ensure_then, run_pure_ok, subCoins_eq_some]
  exact ⟨_, hvested, Tally.isZero_zero, _, hlocked, hne, hle, _, hsub, _, ⟨hcoins, rfl⟩, _,
    hsubVesting, rfl, trivial⟩

/-! ## Counting from the current time -/

theorem int64_shortened (now elapsed length : Int) :
    int64 (length - int64 (now - elapsed)) = int64 (int64 (elapsed + length) - now) := by
  have hright : int64 (int64 (elapsed + length) - now) = int64 (elapsed + length - now) := by
    have hcomm : int64 (elapsed + length) - now = -now + int64 (elapsed + length) := by omega
    rw [hcomm, int64_add_int64]
    congr 1
    omega
  rw [hright, int64_sub_int64]
  congr 1
  omega

theorem readPeriods_shortenFirst (now elapsed : Int) (ps : Periods) (t : Int) :
    readPeriods now (shortenFirst (int64 (now - elapsed)) ps) t = readPeriods elapsed ps t := by
  cases ps with
  | nil => rfl
  | cons p ps =>
    have hevent : int64 (now + int64 (p.length - int64 (now - elapsed))) =
        int64 (elapsed + p.length) := by
      rw [int64_add_int64, ← add_sub_assoc, int64_sub_int64]
      congr 1
      omega
    simp only [shortenFirst, readPeriods_cons, hevent]

theorem int64_add_duration_shortenFirst (now elapsed : Int) {ps : Periods} (hne : ps ≠ []) :
    int64 (now + totalLength (shortenFirst (int64 (now - elapsed)) ps)) =
      int64 (elapsed + duration ps) := by
  cases ps with
  | nil => exact absurd rfl hne
  | cons p ps =>
    have hfirst : now + (int64 (p.length - int64 (now - elapsed)) + duration ps) =
        now + duration ps + int64 (p.length - int64 (now - elapsed)) := by omega
    rw [totalLength_eq, int64_add_int64, shortenFirst, duration_cons, duration_cons, hfirst,
      int64_add_int64, ← add_sub_assoc, int64_sub_int64]
    congr 1
    omega

/-! ## The parts of a liquidation -/

namespace Parts

variable {p r : Period} {rest rs decreased : Periods} {t : Int}

theorem readPeriods_append (hrunning : va.startTime < now ∧ now < va.endTime) (ht : now ≤ t)
    (later : Periods) :
    readPeriods va.startTime (pastPeriods va now ++ later) t =
      total (pastPeriods va now) + readPeriods (lastPassed va now) later t := by
  rw [lastPassed, pastPeriods, readPastPeriodCount_of_running hrunning]
  exact readPeriods_take_append va.startTime va.lockupPeriods later ht

section

variable (h : Parts now va va' diff p r rest rs decreased)

include h

theorem readPeriods_add (hrunning : va.startTime < now ∧ now < va.endTime) (ht : now ≤ t) :
    readPeriods va.startTime va'.lockupPeriods t + readPeriods (lastPassed va now) (r :: rs) t =
      readPeriods va.startTime va.lockupPeriods t := by
  rw [h.lockup', h.lockup, readPeriods_append hrunning ht, readPeriods_append hrunning ht,
    add_assoc, Vesting.readPeriods_add h.splits]

theorem readPeriods_diff_now :
    readPeriods (lastPassed va now) (r :: rs) now = 0 := by
  have hnext := h.next
  cases h.splits with
  | cons _ hr _ _ => rw [readPeriods_cons, hr, if_pos hnext]

theorem settled_iff (hbalanced : va.Balanced)
    (hrunning : va.startTime < now ∧ now < va.endTime) (ht : now ≤ t) (d : Denom) :
    (readPeriods (lastPassed va now) (p :: rest) t).get d = (total (p :: rest)).get d ↔
      (readPeriods va.startTime va.lockupPeriods t).get d = va.originalVesting.get d := by
  have hcut := readPeriods_append hrunning ht (p :: rest)
  have htotal := total_append (pastPeriods va now) (p :: rest)
  rw [← h.lockup] at hcut htotal
  rw [← hbalanced.lockup, hcut, htotal, Tally.get_add, Tally.get_add]
  exact (Nat.add_left_cancel_iff).symm

theorem endTime_eq (hstart : InInt64 va.startTime) (originalDenom : Denom) :
    (liquidatedDenom now va' originalDenom diff).endTime =
      scheduleEnd va.startTime va.lockupPeriods := by
  have hlast : int64 (lastPassed va now + duration (p :: rest)) =
      int64 (va.startTime + duration va.lockupPeriods) := by
    have hcomm : lastPassed va now + duration (p :: rest) =
        duration (p :: rest) + lastPassed va now := by omega
    rw [hcomm, lastPassed, scheduleEnd_eq_int64 hstart, int64_add_int64, h.lockup, duration_append]
    congr 1
    omega
  simp only [liquidatedDenom, newDenom]
  rw [h.shift, h.diff, int64_add_duration_shortenFirst _ _ (by simp),
    duration_congr h.splits.lengths_right, hlast, scheduleEnd_eq_int64 hstart]

theorem unlockedCoins_eq (hstart : InInt64 va.startTime) (htotal : total diff = amount.toCoins)
    (originalDenom : Denom) (t : Int) :
    (liquidatedDenom now va' originalDenom diff).unlockedCoins t =
      if t ≤ now then 0
      else if scheduleEnd va.startTime va.lockupPeriods ≤ t then amount.toCoins
      else readPeriods (lastPassed va now) (r :: rs) t := by
  have htotal' : total (liquidatedDenom now va' originalDenom diff).lockupPeriods =
      amount.toCoins := by
    rw [← htotal]
    simp only [liquidatedDenom, newDenom, h.diff, shortenFirst, total_cons]
  rw [LiquidDenom.unlockedCoins, h.endTime_eq hstart, htotal', readSchedule]
  have hread : readPeriods now (liquidatedDenom now va' originalDenom diff).lockupPeriods t =
      readPeriods (lastPassed va now) (r :: rs) t := by
    simp only [liquidatedDenom, newDenom]
    rw [h.shift, h.diff, readPeriods_shortenFirst]
  rw [← hread]
  rfl

end

end Parts

/-- The first periods give at most their share, so as long as some coins are locked some of them
were taken. -/
theorem readPeriods_diff_eq_total_iff {upcoming decreased : Periods} (hpos : 0 < amount.amount)
    (hsub : subtractAmountFromPeriods upcoming amount = some (decreased, diff)) (elapsed t : Int) :
    readPeriods elapsed diff t = amount.toCoins ↔
      (readPeriods elapsed upcoming t).get amount.denom = (total upcoming).get amount.denom := by
  obtain ⟨hsplits, htotal, _, _⟩ := subtractAmountFromPeriods_spec hsub
  constructor
  · intro hread
    have hprefix := total_take_diff_le hsub (countPeriods elapsed upcoming t)
    rw [← countPeriods_congr hsplits.lengths_right, ← readPeriods_eq_total_take, hread,
      countPeriods_congr hsplits.lengths_right, ← readPeriods_eq_total_take] at hprefix
    have hle := readPeriods_le_total elapsed t upcoming amount.denom
    simp only [Coin.toCoins, Tally.get_single_self] at hprefix
    exact le_antisymm hle (Nat.le_of_mul_le_mul_left hprefix hpos)
  · intro hread
    rw [← htotal]
    refine Tally.ext fun d => ?_
    have hle := readPeriods_le_total elapsed t diff d
    by_cases hd : d = amount.denom
    · subst hd
      have hleft := readPeriods_le_total elapsed t decreased amount.denom
      have hsum := congrArg (Tally.get · amount.denom) (readPeriods_add hsplits elapsed t)
      have htotals := congrArg (Tally.get · amount.denom) hsplits.total_add
      simp only [Tally.get_add] at hsum htotals
      omega
    · rw [htotal, Coin.toCoins, Tally.get_single_of_ne _ hd] at hle ⊢
      omega

/-! ## When a liquidation conserves the schedule -/

/-- What a liquidation should do to the account and leave in the denomination. -/
structure Conserves (now : Int) (va va' : ClawbackVestingAccount) (amount : Coin)
    (denom : LiquidDenom) : Prop where
  stored : denom.marshals = true
  unlocked : ∀ t, now ≤ t →
    va'.getUnlockedCoins t + denom.unlockedCoins t = va.getUnlockedCoins t
  original : va'.originalVesting + amount.toCoins = va.originalVesting
  lockupTotal : total va'.lockupPeriods = va'.originalVesting
  vestingTotal : total va'.vestingPeriods = va'.originalVesting
  lengths : ∀ p ∈ denom.lockupPeriods, 0 ≤ p.length
  first : ∃ p rest, denom.lockupPeriods = p :: rest ∧ 0 < p.length

/-- The schedule ends before the year 10000, of the upcoming periods none but the first has a
negative length, the next event is less than `2 ^ 63` seconds away, and the end of the lockup
schedule unlocks all coins. -/
structure Conservable (now : Int) (va : ClawbackVestingAccount) (d : Denom) : Prop where
  timestamps : isTimestamp now = true ∧
    isTimestamp (scheduleEnd va.startTime va.lockupPeriods) = true
  lengths : ∀ p ∈ (extractUpcomingPeriods va.startTime va.endTime va.lockupPeriods now).tail,
    0 ≤ p.length
  next : ∀ p ∈ (extractUpcomingPeriods va.startTime va.endTime va.lockupPeriods now).head?,
    int64 (lastPassed va now + p.length) - now < 2 ^ 63
  settled : ∀ t, now < t → scheduleEnd va.startTime va.lockupPeriods ≤ t →
    (va.getUnlockedCoins t).get d = va.originalVesting.get d

theorem Liquidates.unlocked_add_iff (hvalid : va.validate = .ok ()) (hstart : InInt64 va.startTime)
    (hpos : 0 < amount.amount) (hliq : Liquidates now va amount va' diff) {t : Int} (ht : now ≤ t) :
    va'.getUnlockedCoins t + (liquidatedDenom now va' amount.denom diff).unlockedCoins t =
        va.getUnlockedCoins t ↔
      (now < t → scheduleEnd va.startTime va.lockupPeriods ≤ t →
        (va.getUnlockedCoins t).get amount.denom = va.originalVesting.get amount.denom) := by
  obtain ⟨hrunning, _⟩ := hliq.running
  obtain ⟨hstart', hend', horiginal, _⟩ := hliq.taken
  obtain ⟨p, r, rest, rs, decreased, hparts, hsub⟩ := hliq.parts
  obtain ⟨hsplits, htotal, _⟩ := subtractAmountFromPeriods_spec hsub
  have hbalanced := balanced_of_validate hvalid
  have hscheduleEnd := (of_validate hvalid).1
  have hadd := hparts.readPeriods_add hliq.running ht
  have hread := getUnlockedCoins_of_lt (hrunning.trans_le ht)
  have hread' : va'.getUnlockedCoins t = if va.endTime ≤ t then va'.originalVesting
      else readPeriods va.startTime va'.lockupPeriods t := by
    rw [getUnlockedCoins_of_lt (by omega), hstart', hend']
  rw [hparts.unlockedCoins_eq hstart (hparts.diff ▸ htotal), hread, hread']
  by_cases hnow : t ≤ now
  · -- nothing of the new denomination unlocks at once
    obtain rfl : t = now := le_antisymm hnow ht
    rw [hparts.readPeriods_diff_now, add_zero] at hadd
    have hopen : ¬ va.endTime ≤ t := not_le.mpr hliq.running.2
    rw [if_neg hopen, if_neg hopen, if_pos le_rfl, add_zero, hadd]
    simp
  rw [if_neg hnow]
  by_cases hend : va.endTime ≤ t
  · rw [if_pos hend, if_pos hend, if_pos (hscheduleEnd.trans hend), horiginal]
    simp
  rw [if_neg hend, if_neg hend]
  by_cases hlast : scheduleEnd va.startTime va.lockupPeriods ≤ t
  · -- the account still goes by its periods
    rw [if_pos hlast, ← hadd, add_right_inj, eq_comm, readPeriods_diff_eq_total_iff hpos hsub,
      hparts.settled_iff hbalanced hliq.running ht, hadd]
    simp [not_le.mp hnow, hlast]
  · rw [if_neg hlast, hadd]
    simp [hlast]

theorem Liquidates.lengths_iff (hnow : InInt64 now) (hliq : Liquidates now va amount va' diff) :
    ((∀ p ∈ (liquidatedDenom now va' amount.denom diff).lockupPeriods, 0 ≤ p.length) ∧
        ∃ p rest, (liquidatedDenom now va' amount.denom diff).lockupPeriods = p :: rest ∧
          0 < p.length) ↔
      (∀ p ∈ (extractUpcomingPeriods va.startTime va.endTime va.lockupPeriods now).tail,
          0 ≤ p.length) ∧
        ∀ p ∈ (extractUpcomingPeriods va.startTime va.endTime va.lockupPeriods now).head?,
          int64 (lastPassed va now + p.length) - now < 2 ^ 63 := by
  obtain ⟨p, r, rest, rs, decreased, hparts, _⟩ := hliq.parts
  have hnext := hparts.next
  have hbound := inInt64_int64 (lastPassed va now + p.length)
  obtain ⟨hlow, _⟩ := hnow
  obtain ⟨_, hhigh⟩ := hbound
  have hperiods : (liquidatedDenom now va' amount.denom diff).lockupPeriods =
      { r with length := int64 (int64 (lastPassed va now + p.length) - now) } :: rs := by
    simp only [liquidatedDenom, newDenom]
    rw [hparts.shift, hparts.diff, shortenFirst, int64_shortened]
    cases hparts.splits with
    | cons _ hr _ _ => rw [hr]
  have hfirst : 0 < int64 (int64 (lastPassed va now + p.length) - now) ↔
      int64 (lastPassed va now + p.length) - now < 2 ^ 63 :=
    int64_pos_iff (by omega) (by omega)
  have hrest : (∀ q ∈ rs, 0 ≤ q.length) ↔ ∀ q ∈ rest, 0 ≤ q.length := by
    cases hparts.splits with
    | cons _ _ _ hrest => exact ordered_congr hrest.lengths_right
  rw [hperiods, hparts.upcoming]
  simp only [List.forall_mem_cons, List.cons.injEq, List.tail_cons, List.head?_cons,
    Option.mem_some_iff, forall_eq']
  rw [← hfirst, ← hrest]
  constructor
  · rintro ⟨⟨_, hrs⟩, q, qs, ⟨rfl, rfl⟩, hpos⟩
    exact ⟨hrs, hpos⟩
  · rintro ⟨hrs, hpos⟩
    exact ⟨⟨hpos.le, hrs⟩, _, _, ⟨rfl, rfl⟩, hpos⟩

theorem Liquidates.marshals_iff (hstart : InInt64 va.startTime)
    (hliq : Liquidates now va amount va' diff) (originalDenom : Denom) :
    (liquidatedDenom now va' originalDenom diff).marshals = true ↔
      isTimestamp now = true ∧ isTimestamp (scheduleEnd va.startTime va.lockupPeriods) = true := by
  obtain ⟨_, _, _, _, _, hparts, _⟩ := hliq.parts
  rw [LiquidDenom.marshals, hparts.endTime_eq hstart, Bool.and_eq_true]
  rfl

/-- **A liquidation conserves the schedule exactly under the condition**, for any amount of the
locked coins of a valid and fully vested account.  A message that succeeds stores the account and
the denomination of the statement, and none does if the denomination cannot be marshalled. -/
theorem liquidate_conserves_iff {locked : Coins} (hvalid : va.validate = .ok ())
    (hstart : InInt64 va.startTime) (hnow : InInt64 now) (hvested : va.getVestingCoins now = some 0)
    (hlocked : va.getLockedUpCoins now = some locked) (hpos : 0 < amount.amount)
    (hle : amount.amount ≤ locked.get amount.denom) :
    ∃ va' diff denom, denom = liquidatedDenom now va' amount.denom diff ∧
      (∀ {S : Type} (st : ChainState S),
        (liquidateSchedule now va amount).run st = .ok (va', diff) st) ∧
      (∀ {S : Type} (cfg : Config S) (st st' : ChainState S) (liquidateFrom liquidateTo : Address)
        (coin : Coin), cfg.blockTime = now → st.vestingAccount liquidateFrom = some va →
        (liquidate cfg liquidateFrom liquidateTo amount).run st = .ok coin st' →
        st'.vestingAccount liquidateFrom = some va' ∧
          st'.modules.liquidVesting.denoms st.modules.liquidVesting.denomCounter = some denom ∧
          denom.marshals = true) ∧
      (Conserves now va va' amount denom ↔ Conservable now va amount.denom) := by
  have hbalanced := balanced_of_validate hvalid
  obtain ⟨va', diff, hliq, hrun⟩ := exists_liquidates hbalanced hvested hlocked hpos hle
  have hbalanced' := hliq.balanced hbalanced
  have hunlocked := @Liquidates.unlocked_add_iff _ _ _ _ _ hvalid hstart hpos hliq
  have hlengths := hliq.lengths_iff hnow
  have hmarshals := hliq.marshals_iff hstart amount.denom
  refine ⟨va', diff, _, rfl, hrun, ?_, fun h => ?_, fun h => ?_⟩
  · intro S cfg st st' liquidateFrom liquidateTo coin htime haccount hliquidate
    obtain ⟨va₀, va₁, diff₁, heffect⟩ := liquidate_effect hliquidate
    -- the message computes the same division
    obtain rfl : va₀ = va := Option.some.inj (heffect.account.symm.trans haccount)
    obtain ⟨rfl, rfl⟩ : va₁ = va' ∧ diff₁ = diff := heffect.liquidates.unique (htime ▸ hliq)
    rw [heffect.denoms, Function.update_self, ← htime, heffect.denom]
    exact ⟨heffect.account', rfl, heffect.marshals⟩
  · obtain ⟨htail, hnext⟩ := hlengths.mp ⟨h.lengths, h.first⟩
    exact ⟨hmarshals.mp h.stored, htail, hnext,
      fun t ht => (hunlocked ht.le).mp (h.unlocked t ht.le) ht⟩
  · obtain ⟨hnonneg, hfirst⟩ := hlengths.mpr ⟨h.lengths, h.next⟩
    exact ⟨hmarshals.mpr h.timestamps, fun t ht => (hunlocked ht).mpr fun hlt => h.settled t hlt,
      hliq.taken.2.2.1,
      hbalanced'.lockup, hbalanced'.vesting, hnonneg, hfirst⟩

/-- The condition holds of every valid account whose unlocking schedule does not overflow and ends
before the year 10000. -/
theorem conservable_of_timely (hvalid : va.validate = .ok ()) (hstart : InInt64 va.startTime)
    (htimely : Timely va.startTime va.lockupPeriods) (hnow : 0 ≤ now)
    (htimestamp : isTimestamp now = true)
    (hyear : isTimestamp (va.startTime + duration va.lockupPeriods) = true)
    (hrunning : va.startTime < now) (d : Denom) : Conservable now va d := by
  have hbalanced := balanced_of_validate hvalid
  refine ⟨⟨htimestamp, by rwa [scheduleEnd_of_timely hstart htimely]⟩, fun p hp => ?_,
    fun p _ => ?_, fun t ht hend => ?_⟩
  · exact htimely.ordered p (List.mem_of_mem_drop (List.mem_of_mem_tail hp))
  · obtain ⟨_, hhigh⟩ := inInt64_int64 (lastPassed va now + p.length)
    omega
  · rw [scheduleEnd_of_timely hstart htimely] at hend
    have hlast := (of_validate hvalid).1
    rw [scheduleEnd_of_timely hstart htimely] at hlast
    rw [getUnlockedCoins, htimely.readSchedule_eq hlast hbalanced.lockup, afterStart,
      if_neg (by omega), value_of_ge htimely.ordered hend, hbalanced.lockup]

def lockedTen : ClawbackVestingAccount :=
  newClawbackVestingAccount 1 (Tally.single .islm 10) 0 tenSeconds.lockup tenSeconds.vesting

theorem lockedTen_timely : Timely lockedTen.startTime lockedTen.lockupPeriods :=
  ⟨by decide +kernel, by decide +kernel⟩

theorem lockedTen_conserved :
    lockedTen.validate = .ok () ∧ ∃ va' denom, Conserves 5 lockedTen va' ⟨.islm, 4⟩ denom := by
  have hvalid : lockedTen.validate = .ok () := by decide +kernel
  obtain ⟨va', _, denom, _, _, _, hiff⟩ :=
    @liquidate_conserves_iff 5 lockedTen ⟨.islm, 4⟩ (Tally.single .islm 10) hvalid (by decide)
      (by decide) (by decide +kernel) (by decide +kernel) (by decide) (by decide)
  exact ⟨hvalid, va', denom, hiff.mpr
    (conservable_of_timely hvalid (by decide) lockedTen_timely (by decide) (by decide) (by decide)
      (by decide) .islm)⟩

def longLockup : MsgGrant :=
  ⟨1, 2, 0, [⟨2 ^ 62, Tally.single .islm 10⟩, ⟨2 ^ 63 - 1, Tally.single .islm 10⟩], [], false⟩

/-- The events are at `2 ^ 63 - 1`, then before 1970, and at last 499 seconds after the start. -/
def twiceAround : MsgGrant :=
  ⟨1, 2, 0, [⟨2 ^ 63 - 1, Tally.single .islm 10⟩, ⟨501, Tally.single .islm 10⟩,
    ⟨2 ^ 63 - 1, Tally.single .islm 10⟩], [], true⟩

def wrappedMerge : List (Tx AccountMsg) := [⟨3, .create longLockup⟩, ⟨4, .create twiceAround⟩]

theorem liquidated_period_negative :
    longLockup.validateBasic = true ∧ twiceAround.validateBasic = true ∧
      ((Run.after (accountStep localConfig) funded wrappedMerge).vestingAccount 2).map
          (fun va => (va.validate, va.getVestingCoins 5, va.getLockedUpCoins 5)) =
        some (.ok (), some 0, some (Tally.single .islm 50)) ∧
      ((Run.after (accountStep localConfig) funded
          (wrappedMerge ++ [⟨5, .token (.liquidate 2 3 ⟨.islm, 15⟩)⟩])).modules.liquidVesting.denoms
            0).map (fun denom => denom.lockupPeriods.map Period.length) =
        some [2 ^ 62 - 5, 2 ^ 63 - 1, -2 ^ 62, 501, 2 ^ 63 - 1] := by
  decide +kernel

end Haqq.LiquidVesting
