import Haqq.LiquidVesting.Keeper
import Haqq.Vesting.Validity

/-!
# What a liquidation does to the schedules

`Liquidate` cuts the unlocking schedule of the account at the current time and divides the upcoming
part between the account and the new denomination.
-/

namespace Haqq.LiquidVesting

open Lib Lib.Schedule Vesting ClawbackVestingAccount

variable {lo hi now : Int} {va va' : ClawbackVestingAccount} {amount : Coin} {diff : Periods}

/-! ## Cutting -/

theorem replacePeriodsTail_eq (past : Periods) {upcoming decreased : Periods}
    (h : decreased.length = upcoming.length) :
    replacePeriodsTail (past ++ upcoming) decreased = past ++ decreased := by
  unfold replacePeriodsTail
  split
  · rename_i hle
    have hnil : past = [] := by
      rw [List.length_append] at hle
      exact List.length_eq_zero_iff.mp (by omega)
    simp [hnil]
  · rw [List.length_append, h, Nat.add_sub_cancel, List.take_left']
    rfl

structure Cut (now t₀ : Int) (ps past upcoming : Periods) : Prop where
  append : ps = past ++ upcoming
  past_le : t₀ + duration past ≤ now
  upcoming_lt : ∀ p rest, upcoming = p :: rest → now < t₀ + duration past + p.length

theorem extractUpcomingPeriods_cut {t₀ endTime : Int} {ps : Periods} (h : Timely t₀ ps)
    (hstart : t₀ < now) (hend : now < endTime) :
    ∃ past, Cut now t₀ ps past (extractUpcomingPeriods t₀ endTime ps now) := by
  obtain ⟨past, upcoming, hsplit, hlength, hpast, hupcoming⟩ := h.countPeriods_spec now
  have hcount : readPastPeriodCount t₀ endTime ps now = past.length := by
    rw [readPastPeriodCount, if_neg (by omega), if_neg (by omega), hlength]
  have hdrop : extractUpcomingPeriods t₀ endTime ps now = upcoming := by
    rw [extractUpcomingPeriods, hcount, hsplit, List.drop_left']
    rfl
  refine ⟨past, by rw [hdrop, hsplit], ?_, ?_⟩
  · by_cases hnil : past = []
    · subst hnil
      simp
      omega
    · exact hpast hnil
  · rw [hdrop]
    exact hupcoming

theorem replacePeriodsTail_drop {ps decreased diff : Periods} {n : Nat}
    (h : Splits (ps.drop n) decreased diff) :
    replacePeriodsTail ps decreased = ps.take n ++ decreased ∧
      total (replacePeriodsTail ps decreased) + total diff = total ps ∧
      (replacePeriodsTail ps decreased).map Period.length = ps.map Period.length := by
  have hreplace := replacePeriodsTail_eq (ps.take n) h.length_left
  rw [List.take_append_drop] at hreplace
  refine ⟨hreplace, ?_, ?_⟩
  · rw [hreplace, total_append, add_assoc, h.total_add, ← total_append, List.take_append_drop]
  · rw [hreplace, List.map_append, h.lengths_left, ← List.map_append, List.take_append_drop]

theorem splits_replacePeriodsTail {ps decreased diff : Periods} {n : Nat}
    (h : Splits (ps.drop n) decreased diff) :
    Splits ps (replacePeriodsTail ps decreased)
      ((ps.take n).map (fun p => ⟨p.length, 0⟩) ++ diff) := by
  have hwhole := (Splits.nothing (ps.take n)).append h
  rwa [List.take_append_drop, ← (replacePeriodsTail_drop h).1] at hwhole

/-! ## Dividing -/

/-- `va'` is left of `va` and `diff` was taken out of its lockup; nothing is vesting any more. -/
structure Liquidates (now : Int) (va : ClawbackVestingAccount) (amount : Coin)
    (va' : ClawbackVestingAccount) (diff : Periods) : Prop where
  vested : va.getVestingCoins now = some 0
  locked : ∃ locked, va.getLockedUpCoins now = some locked ∧ locked.get amount.denom ≠ 0
  original : amount.toCoins ≤ va.originalVesting
  schedules : ∃ decreased decreasedVesting diffVesting,
    subtractAmountFromPeriods
      (extractUpcomingPeriods va.startTime va.endTime va.lockupPeriods now) amount =
      some (decreased, diff) ∧
    subtractAmountFromPeriods va.vestingPeriods amount = some (decreasedVesting, diffVesting) ∧
    va' = { va with
      lockupPeriods := replacePeriodsTail va.lockupPeriods decreased
      originalVesting := va.originalVesting - amount.toCoins
      vestingPeriods := replacePeriodsTail va.vestingPeriods decreasedVesting }

theorem subCoins_eq_some {x y z : Coins} : subCoins x y = some z ↔ y ≤ x ∧ z = x - y := by
  unfold subCoins
  split <;> simp_all [eq_comm]

theorem liquidates_of_run {S : Type} {st st' : ChainState S}
    (h : (liquidateSchedule now va amount).run st = .ok (va', diff) st') :
    st' = st ∧ Liquidates now va amount va' diff := by
  unfold liquidateSchedule at h
  simp only [run_bind_ok, ofOption_then, ensure_then, run_pure_ok, subCoins_eq_some] at h
  obtain ⟨vesting, hvesting, hzero, locked, hlocked, hne, -, ⟨decreased, diff'⟩, hsub, _,
    ⟨hle, rfl⟩, ⟨decreasedVesting, diffVesting⟩, hsubVesting, hresult, rfl⟩ := h
  cases hresult
  rw [Tally.isZero_iff.mp hzero] at hvesting
  exact ⟨rfl, hvesting, ⟨locked, hlocked, hne⟩, hle, decreased, decreasedVesting, diffVesting,
    hsub, hsubVesting, rfl⟩

theorem Liquidates.unique {va₁ : ClawbackVestingAccount} {diff₁ : Periods}
    (h : Liquidates now va amount va' diff) (h₁ : Liquidates now va amount va₁ diff₁) :
    va' = va₁ ∧ diff = diff₁ := by
  obtain ⟨decreased, decreasedVesting, _, hsub, hsubVesting, rfl⟩ := h.schedules
  obtain ⟨decreased₁, decreasedVesting₁, _, hsub₁, hsubVesting₁, rfl⟩ := h₁.schedules
  rw [hsub] at hsub₁
  rw [hsubVesting] at hsubVesting₁
  cases hsub₁
  cases hsubVesting₁
  exact ⟨rfl, rfl⟩

section

variable (hliq : Liquidates now va amount va' diff)

include hliq

theorem Liquidates.running : va.startTime < now ∧ now < va.endTime := by
  obtain ⟨locked, hlocked, hne⟩ := hliq.locked
  obtain ⟨_, hlockedEq⟩ := subCoins_eq_some.mp hlocked
  obtain ⟨_, hvestingEq⟩ := subCoins_eq_some.mp hliq.vested
  have hstart : va.startTime < now := by
    by_contra hnot
    -- before the start nothing is vested, so there would be nothing to liquidate
    have hnone : va.getVestedCoins now = 0 := by
      simp [ClawbackVestingAccount.getVestedCoins, readSchedule, Int.not_lt.mp hnot]
    have hzero := congrArg (fun x => x.get amount.denom) hvestingEq
    simp only [hnone, Tally.get_zero, Tally.get_sub, Nat.sub_zero] at hzero
    rw [hlockedEq, Tally.get_sub, ← hzero] at hne
    simp at hne
  refine ⟨hstart, ?_⟩
  by_contra hnot
  apply hne
  rw [hlockedEq, ClawbackVestingAccount.getUnlockedCoins, readSchedule, if_neg (by omega),
    if_pos (by omega)]
  simp

theorem Liquidates.taken :
    va'.startTime = va.startTime ∧ va'.endTime = va.endTime ∧
      va'.originalVesting + amount.toCoins = va.originalVesting ∧
      total va'.lockupPeriods + amount.toCoins = total va.lockupPeriods ∧
      total va'.vestingPeriods + amount.toCoins = total va.vestingPeriods ∧
      va'.lockupPeriods.map Period.length = va.lockupPeriods.map Period.length ∧
      va'.vestingPeriods.map Period.length = va.vestingPeriods.map Period.length := by
  obtain ⟨decreased, decreasedVesting, diffVesting, hsub, hsubVesting, rfl⟩ := hliq.schedules
  obtain ⟨hsplits, htotal, _⟩ := subtractAmountFromPeriods_spec hsub
  obtain ⟨hsplitsV, htotalV, _⟩ := subtractAmountFromPeriods_spec hsubVesting
  obtain ⟨_, hlockup, hlengths⟩ := replacePeriodsTail_drop hsplits
  obtain ⟨_, hvesting, hlengthsV⟩ := replacePeriodsTail_drop (n := 0) hsplitsV
  rw [htotal] at hlockup
  rw [htotalV] at hvesting
  exact ⟨rfl, rfl, Tally.sub_add_cancel_of_le hliq.original, hlockup, hvesting, hlengths, hlengthsV⟩

theorem Liquidates.balanced (h : va.Balanced) : va'.Balanced := by
  obtain ⟨_, _, horiginal, hlockup, hvesting, _⟩ := hliq.taken
  rw [h.lockup, ← horiginal] at hlockup
  rw [h.vesting, ← horiginal] at hvesting
  exact ⟨add_right_cancel hlockup, add_right_cancel hvesting⟩

theorem Liquidates.delegatedVesting : va'.delegatedVesting = va.delegatedVesting := by
  obtain ⟨_, _, _, _, _, rfl⟩ := hliq.schedules
  rfl

theorem Liquidates.original_eq_zero_iff :
    va'.originalVesting = 0 ↔ va.originalVesting = amount.toCoins := by
  obtain ⟨_, _, horiginal, _⟩ := hliq.taken
  rw [← horiginal, add_eq_right]

/-- Validity survives exactly if coins are left and they cover the delegated vesting ones. -/
theorem Liquidates.validate_iff (hbalanced : va.Balanced) :
    va'.validate = .ok () ↔ va.validate = .ok () ∧
      va.delegatedVesting.get amount.denom + amount.amount ≤
        va.originalVesting.get amount.denom ∧ va.originalVesting ≠ amount.toCoins := by
  obtain ⟨hstart, hend, horiginal, _, _, hlengths, hlengthsV⟩ := hliq.taken
  have hdelegated := hliq.delegatedVesting
  have hleft := hliq.original_eq_zero_iff
  have hempty : va.originalVesting = 0 → va'.originalVesting = 0 := by
    rw [← horiginal, Tally.add_eq_zero]
    exact And.left
  have hcovers : va.delegatedVesting ≤ va'.originalVesting ↔
      va.delegatedVesting ≤ va.originalVesting ∧
        va.delegatedVesting.get amount.denom + amount.amount ≤
          va.originalVesting.get amount.denom := by
    have hget : ∀ d, (va'.originalVesting.get d + amount.toCoins.get d) =
        va.originalVesting.get d := fun d => by rw [← horiginal, Tally.get_add]
    constructor
    · refine fun h => ⟨fun d => ?_, ?_⟩
      · have := h d
        have := hget d
        omega
      · have := h amount.denom
        have := hget amount.denom
        rw [Coin.toCoins, Tally.get_single_self] at this
        omega
    · rintro ⟨hle, hdenom⟩ d
      have := hle d
      have := hget d
      rw [Coin.toCoins, Tally.get_single] at this
      split at this
      · rename_i hd
        subst hd
        omega
      · omega
  rw [ClawbackVestingAccount.validate_iff, ClawbackVestingAccount.validate_iff, hstart, hend,
    scheduleEnd_congr hlengths, scheduleEnd_congr hlengthsV, hdelegated, hcovers]
  have hbalanced' := hliq.balanced hbalanced
  tauto

/-- What is taken out unlocks earlier. -/
theorem Liquidates.locked_le (hbalanced : va.Balanced) (t : Int) :
    ∃ locked locked', va.getLockedUpCoins t = some locked ∧
      va'.getLockedUpCoins t = some locked' ∧ locked ≤ locked' + amount.toCoins := by
  have hbalanced' := hliq.balanced hbalanced
  obtain ⟨hstart, hend, horiginal, _⟩ := hliq.taken
  have hunlocked : va'.getUnlockedCoins t ≤ va.getUnlockedCoins t := by
    obtain ⟨decreased, _, _, hsub, _, rfl⟩ := hliq.schedules
    unfold extractUpcomingPeriods at hsub
    obtain ⟨hsplits, _⟩ := subtractAmountFromPeriods_spec hsub
    have hwhole := splits_replacePeriodsTail hsplits
    simp only [ClawbackVestingAccount.getUnlockedCoins, readSchedule]
    split
    · exact le_rfl
    · split
      · exact fun d => Nat.sub_le _ _
      · exact readPeriods_le_of_splits hwhole _ t
  refine ⟨_, _, hbalanced.getLockedUpCoins_eq t, hbalanced'.getLockedUpCoins_eq t, fun d => ?_⟩
  have hle := hunlocked d
  have hle' := hbalanced'.unlocked_le t d
  have hget := congrArg (fun x => x.get d) horiginal
  simp only [Tally.get_add, Tally.get_sub] at hget ⊢
  omega

theorem Liquidates.sound (h : Sound lo hi va) : Sound lo hi va' := by
  obtain ⟨hstart, hend, _, _, _, hlengths, hlengthsV⟩ := hliq.taken
  have hbalanced := hliq.balanced ⟨h.lockupTotal, h.vestingTotal⟩
  refine ⟨hstart ▸ h.low, hstart ▸ hend ▸ h.start_lt_end, hend ▸ h.high,
    (ordered_congr hlengths).mpr h.lockupOrdered, (ordered_congr hlengthsV).mpr h.vestingOrdered,
    ?_, ?_, hbalanced.lockup, hbalanced.vesting⟩
  · rw [hstart, hend, duration_congr hlengths]
    exact h.lockupEnd
  · rw [hstart, hend, duration_congr hlengthsV]
    exact h.vestingEnd

theorem Liquidates.intact (h : Intact va) (hleft : va.originalVesting ≠ amount.toCoins) :
    Intact va' :=
  ⟨mt hliq.original_eq_zero_iff.mp hleft, hliq.delegatedVesting.trans h.delegatedVesting⟩

end

/-! ## The parts of a liquidation -/

def pastPeriods (va : ClawbackVestingAccount) (now : Int) : Periods :=
  va.lockupPeriods.take (readPastPeriodCount va.startTime va.endTime va.lockupPeriods now)

def lastPassed (va : ClawbackVestingAccount) (now : Int) : Int :=
  scheduleEnd va.startTime (pastPeriods va now)

theorem periodShift_take_append (elapsed : Int) {ps rest : Periods} {p : Period}
    (hlt : now < int64 (scheduleEnd elapsed (ps.take (countPeriods elapsed ps now)) + p.length)) :
    periodShift elapsed now (ps.take (countPeriods elapsed ps now) ++ p :: rest) =
      int64 (now - scheduleEnd elapsed (ps.take (countPeriods elapsed ps now))) := by
  induction ps generalizing elapsed with
  | nil =>
    simp only [List.take_nil, scheduleEnd, List.foldl_nil] at hlt
    simp [periodShift, scheduleEnd, hlt]
  | cons q ps ih =>
    simp only [countPeriods] at hlt ⊢
    split at hlt
    · simp only [List.take_zero, scheduleEnd, List.foldl_nil] at hlt
      simp [periodShift, scheduleEnd, *]
    · rename_i hge
      simp only [if_neg hge, List.take_succ_cons, List.cons_append, periodShift] at hlt ⊢
      exact ih _ hlt

structure Parts (now : Int) (va va' : ClawbackVestingAccount) (diff : Periods) (p r : Period)
    (rest rs decreased : Periods) : Prop where
  lockup : va.lockupPeriods = pastPeriods va now ++ p :: rest
  upcoming : extractUpcomingPeriods va.startTime va.endTime va.lockupPeriods now = p :: rest
  lockup' : va'.lockupPeriods = pastPeriods va now ++ decreased
  diff : diff = r :: rs
  splits : Splits (p :: rest) decreased (r :: rs)
  next : now < int64 (lastPassed va now + p.length)
  shift : currentPeriodShift va'.startTime now va'.lockupPeriods = int64 (now - lastPassed va now)

theorem readPastPeriodCount_of_running (hrunning : va.startTime < now ∧ now < va.endTime) :
    readPastPeriodCount va.startTime va.endTime va.lockupPeriods now =
      countPeriods va.startTime va.lockupPeriods now := by
  rw [readPastPeriodCount, if_neg (by omega), if_neg (by omega)]

theorem Liquidates.parts (hliq : Liquidates now va amount va' diff) :
    ∃ p r rest rs decreased, Parts now va va' diff p r rest rs decreased ∧
      subtractAmountFromPeriods (p :: rest) amount = some (decreased, r :: rs) := by
  obtain ⟨hstart, _⟩ := hliq.running
  obtain ⟨decreased, _, _, hsub, _, rfl⟩ := hliq.schedules
  obtain ⟨hsplits, _, _, hne⟩ := subtractAmountFromPeriods_spec hsub
  obtain ⟨hlockup', _⟩ := replacePeriodsTail_drop hsplits
  have hcount := readPastPeriodCount_of_running hliq.running
  have hlockup := (List.take_append_drop
    (readPastPeriodCount va.startTime va.endTime va.lockupPeriods now) va.lockupPeriods).symm
  generalize hupcoming : extractUpcomingPeriods va.startTime va.endTime va.lockupPeriods now =
    upcoming at hsub hsplits hne
  rw [extractUpcomingPeriods] at hupcoming
  rw [hupcoming] at hlockup
  cases hsplits with
  | nil => simp at hne
  | @cons p q r rest qs rs hq hr hamount hrest =>
    have hnext : now < int64 (lastPassed va now + p.length) := by
      rw [hcount] at hupcoming
      rw [lastPassed, pastPeriods, hcount]
      exact lt_of_drop_countPeriods va.startTime now hupcoming
    refine ⟨p, r, rest, rs, q :: qs, ⟨hlockup, hupcoming, hlockup', rfl, .cons hq hr hamount hrest,
      hnext, ?_⟩, hsub⟩
    rw [currentPeriodShift, if_neg (by simp only; omega)]
    simp only [hlockup', lastPassed, pastPeriods, hcount] at hnext ⊢
    exact periodShift_take_append va.startTime (hq ▸ hnext)

/-! ## The new denomination -/

/-- It is in the window, it has periods and all of them end after the start. -/
structure SoundPeriods (lo hi startTime : Int) (periods : Periods) : Prop where
  ordered : Ordered periods
  low : lo ≤ startTime
  high : startTime + duration periods ≤ hi
  ne_nil : periods ≠ []
  after : After (startTime + 1) startTime periods

theorem SoundPeriods.duration_pos {t₀ : Int} {ps : Periods} (h : SoundPeriods lo hi t₀ ps) :
    0 < duration ps := by
  obtain ⟨hord, _, _, hne, hafter⟩ := h
  cases ps with
  | nil => exact absurd rfl hne
  | cons p ps =>
    have hrest := (ordered_cons.mp hord).2.duration_nonneg
    have hfirst : t₀ + 1 ≤ t₀ + p.length := hafter
    rw [duration_cons]
    omega

theorem SoundPeriods.congr {t₀ : Int} {ps qs : Periods} (h : SoundPeriods lo hi t₀ ps)
    (hlengths : qs.map Period.length = ps.map Period.length) : SoundPeriods lo hi t₀ qs := by
  obtain ⟨hord, hlow, hhigh, hne, hafter⟩ := h
  refine ⟨(ordered_congr hlengths).mpr hord, hlow, duration_congr hlengths ▸ hhigh, ?_, ?_⟩
  · rintro rfl
    exact hne (List.map_eq_nil_iff.mp hlengths.symm)
  · cases ps with
    | nil => exact absurd rfl hne
    | cons p ps =>
      cases qs with
      | nil => simp at hlengths
      | cons q qs =>
        have hlength : q.length = p.length := by simpa using congrArg List.head? hlengths
        show t₀ + 1 ≤ t₀ + q.length
        rw [hlength]
        exact hafter

/-- It counts from the current time to the end of the unlocking schedule, and unlocks what the
account does not unlock any more. -/
structure Carries (now : Int) (va va' : ClawbackVestingAccount) (amount : Coin)
    (periods : Periods) : Prop where
  timely : Timely now periods
  first : ∃ p rest, periods = p :: rest ∧ 0 < p.length
  last : now + duration periods = va.startTime + duration va.lockupPeriods
  total : total periods = amount.toCoins
  value : ∀ t, value va'.startTime va'.lockupPeriods t + value now periods t =
    value va.startTime va.lockupPeriods t

theorem Liquidates.carries (hint64 : InInt64 va.startTime)
    (h : Timely va.startTime va.lockupPeriods) (hlengths : ∀ p ∈ va.lockupPeriods, InInt64 p.length)
    (hliq : Liquidates now va amount va' diff) :
    Carries now va va' amount
      (shortenFirst (currentPeriodShift va'.startTime now va'.lockupPeriods) diff) := by
  obtain ⟨hstart, hend⟩ := hliq.running
  obtain ⟨hstartEq, _⟩ := hliq.taken
  obtain ⟨p, r, rest, rs, decreased, hparts, hsub⟩ := hliq.parts
  obtain ⟨hsplits, htotal, -⟩ := subtractAmountFromPeriods_spec hsub
  obtain ⟨past, hcut⟩ := extractUpcomingPeriods_cut h hstart hend
  have hpast := hcut.past_le
  have hlt := hcut.upcoming_lt p rest hparts.upcoming
  have hlockup := hcut.append
  rw [hparts.upcoming] at hlockup
  obtain rfl : past = pastPeriods va now :=
    List.append_cancel_right (hlockup.symm.trans hparts.lockup)
  obtain ⟨-, hhigh⟩ : InInt64 p.length := hlengths p (by simp [hlockup])
  have hr : r.length = p.length := by simpa using congrArg List.head? hsplits.lengths_right
  have hordered := h.ordered
  have hinInt64 := h.inInt64
  rw [hlockup, ordered_append] at hordered
  rw [hlockup, events_append] at hinInt64
  have hlast : lastPassed va now = va.startTime + duration (pastPeriods va now) :=
    scheduleEnd_of_timely hint64
      ⟨hordered.1, fun time hmem => hinInt64 time (List.mem_append_left _ hmem)⟩
  have hduration : va.startTime + duration va.lockupPeriods =
      lastPassed va now + duration (r :: rs) := by
    rw [hlast, duration_congr hsplits.lengths_right, add_assoc, ← duration_append, ← hlockup]
  have hvalue : ∀ t, value va.startTime (pastPeriods va now ++ decreased) t +
      value (lastPassed va now) (r :: rs) t = value va.startTime va.lockupPeriods t := by
    intro t
    rw [hlockup, value_append, value_append, ← hsplits.value_add, add_assoc, hlast]
  rw [← hlast] at hpast hlt hinInt64
  have hshift : int64 (now - lastPassed va now) = now - lastPassed va now :=
    int64_of_inInt64 ⟨by omega, by omega⟩
  have hfirst : int64 (r.length - (now - lastPassed va now)) =
      r.length - (now - lastPassed va now) := int64_of_inInt64 ⟨by omega, by omega⟩
  rw [hparts.shift, hshift, hparts.diff, shortenFirst, hfirst]
  -- the same schedule, counted from the current time
  have hsum := fun t => value_shift (lastPassed va now) (now - lastPassed va now) t r rs
  have hevents := events_shift (lastPassed va now) (now - lastPassed va now) r rs
  simp only [add_sub_cancel] at hevents hsum
  refine ⟨⟨ordered_cons.mpr ⟨by dsimp only; omega, ?_⟩, fun time hmem => ?_⟩,
    ⟨_, _, rfl, by dsimp only; omega⟩, ?_, htotal, fun t => ?_⟩
  · exact (ordered_cons.mp ((ordered_congr hsplits.lengths_right).mpr hordered.2)).2
  · rw [hevents, events_congr hsplits.lengths_right] at hmem
    exact hinInt64 time (List.mem_append_right _ hmem)
  · rw [hduration, duration_cons, duration_cons]
    dsimp only
    omega
  · rw [hstartEq, hparts.lockup', hsum]
    exact hvalue t

theorem Liquidates.soundPeriods (w : Window lo hi) (h : Sound lo hi va)
    (hliq : Liquidates now va amount va' diff) :
    Carries now va va' amount
        (shortenFirst (currentPeriodShift va'.startTime now va'.lockupPeriods) diff) ∧
      SoundPeriods lo hi now
        (shortenFirst (currentPeriodShift va'.startTime now va'.lockupPeriods) diff) := by
  have hcarries := hliq.carries (h.inInt64_start w) (h.timelyLockup w) (h.inInt64_lockup w)
  refine ⟨hcarries, ?_⟩
  obtain ⟨hstart, _⟩ := hliq.running
  have hlow := h.low
  have hlockupEnd := h.lockupEnd
  have hhigh := h.high
  have hlast := hcarries.last
  obtain ⟨p, rest, hperiods, hpos⟩ := hcarries.first
  refine ⟨hcarries.timely.ordered, by omega, by omega, by simp [hperiods], ?_⟩
  rw [hperiods]
  show now + 1 ≤ now + p.length
  omega

end Haqq.LiquidVesting
