import Haqq.Vesting.Reading
import Haqq.Vesting.StepFunctions

/-!
# Valid clawback vesting accounts

`Sound` is what `Validate` checks of the schedules, together with what it presupposes: no period has
a negative length and all times lie in a window in which the `int64` arithmetic is exact.  `Intact`
is what it checks of the coins.  New accounts, merged grants and clawbacks keep both:

* `newClawbackVestingAccount_sound`, `Scheduled.addGrant` and `addGrant_sound`;
* `Scheduled.computeClawback` and `computeClawback_sound`, which need that the clawback leaves
  something that is released after the start (`Retains`).
-/

namespace Haqq.Vesting

open Lib Lib.Schedule

/-- The schedules lie between the start and the end time, within `lo` and `hi`, and each of them
releases the original vesting. -/
structure Sound (lo hi : Int) (va : ClawbackVestingAccount) : Prop where
  low : lo ≤ va.startTime
  start_lt_end : va.startTime < va.endTime
  high : va.endTime ≤ hi
  lockupOrdered : Ordered va.lockupPeriods
  vestingOrdered : Ordered va.vestingPeriods
  lockupEnd : va.startTime + duration va.lockupPeriods ≤ va.endTime
  vestingEnd : va.startTime + duration va.vestingPeriods ≤ va.endTime
  lockupTotal : total va.lockupPeriods = va.originalVesting
  vestingTotal : total va.vestingPeriods = va.originalVesting

/-- There are coins in the account, and none of them is delegated while it vests. -/
structure Intact (va : ClawbackVestingAccount) : Prop where
  original : va.originalVesting ≠ 0
  delegatedVesting : va.delegatedVesting = 0

variable {lo hi : Int} {va : ClawbackVestingAccount}

variable {t₀ : Int} {ps : Periods} {startTime t : Int} {coins : Coins}

def afterStart (startTime : Int) (periods : Periods) (t : Int) : Coins :=
  if t ≤ startTime then 0 else value startTime periods t

namespace Timely

theorem readSchedule_eq {endTime : Int} (h : Timely startTime ps)
    (hend : startTime + duration ps ≤ endTime) (htotal : total ps = coins) (t : Int) :
    readSchedule startTime endTime ps coins t = afterStart startTime ps t := by
  unfold readSchedule afterStart
  split
  · rfl
  · split
    · rename_i ht
      rw [value_of_ge h.ordered (hend.trans ht), htotal]
    · exact h.readPeriods_eq t

theorem inInt64_end (hstart : InInt64 startTime) (h : Timely startTime ps) :
    InInt64 (startTime + duration ps) := by
  by_cases hnil : ps = []
  · subst hnil
    simpa using hstart
  · exact h.inInt64 _ (last_mem_events hnil)

theorem int64_end (hstart : InInt64 startTime) (h : Timely startTime ps) :
    int64 (startTime + totalLength ps) = startTime + duration ps := by
  rw [totalLength_eq, int64_add_int64, int64_of_inInt64 (inInt64_end hstart h)]

end Timely

namespace ClawbackVestingAccount

theorem scheduleEnd_eq_int64 (h : InInt64 startTime) (ps : Periods) :
    scheduleEnd startTime ps = int64 (startTime + duration ps) := by
  have hfold := foldl_int64_add ps startTime
  rwa [int64_of_inInt64 h] at hfold

theorem scheduleEnd_of_timely (hstart : InInt64 startTime) (h : Timely startTime ps) :
    scheduleEnd startTime ps = startTime + duration ps := by
  rw [scheduleEnd_eq_int64 hstart, int64_of_inInt64 (h.inInt64_end hstart)]

end ClawbackVestingAccount

open ClawbackVestingAccount

namespace Sound

section

variable (w : Window lo hi) (h : Sound lo hi va)

include w h

theorem timelyLockup : Timely va.startTime va.lockupPeriods :=
  w.timely h.lockupOrdered h.low (h.lockupEnd.trans h.high)

theorem inInt64_lockup : ∀ p ∈ va.lockupPeriods, InInt64 p.length := by
  intro p hp
  have hnonneg := h.lockupOrdered p hp
  have hle := h.lockupOrdered.length_le_duration hp
  have hend := h.lockupEnd.trans h.high
  have hlow := h.low
  have hwidth := w.width
  exact ⟨by omega, by omega⟩

theorem inInt64_start : InInt64 va.startTime := by
  have := w.low
  have := w.high
  have := h.low
  have := h.start_lt_end
  have := h.high
  exact ⟨by omega, by omega⟩

theorem validate_ok (hend : 0 ≤ va.endTime) (hintact : Intact va) : va.validate = .ok () := by
  have hstart := h.inInt64_start w
  have hlockup := scheduleEnd_of_timely hstart (h.timelyLockup w)
  have hvesting := scheduleEnd_of_timely hstart
    (w.timely h.vestingOrdered h.low (h.vestingEnd.trans h.high))
  rw [validate_iff, hlockup, hvesting, hintact.delegatedVesting]
  exact ⟨h.start_lt_end, h.lockupEnd, h.vestingEnd, hend, ⟨h.lockupTotal, h.vestingTotal⟩,
    hintact.original, fun d => Nat.zero_le _⟩

theorem getUnlockedCoins_eq (t : Int) :
    va.getUnlockedCoins t = afterStart va.startTime va.lockupPeriods t :=
  (h.timelyLockup w).readSchedule_eq h.lockupEnd h.lockupTotal t

end

end Sound

theorem extendFirst_zero (w : Window lo hi) (hps : Ordered ps) (hlo : lo ≤ t₀)
    (hhi : t₀ + duration ps ≤ hi) : extendFirst 0 ps = ps := by
  cases ps with
  | nil => rfl
  | cons p ps =>
    have hp := (ordered_cons.mp hps).1
    have hduration := (ordered_cons.mp hps).2.duration_nonneg
    have hwidth := w.width
    have hlength : int64 (p.length + int64 0) = p.length := by
      rw [int64_add_int64, add_zero]
      rw [duration_cons] at hhi
      exact int64_of_inInt64 ⟨by omega, by omega⟩
    simp only [extendFirst, hlength]

/-! ## Merging -/

structure Fits (lo hi startTime : Int) (ps : Periods) (coins : Coins) : Prop where
  ordered : Ordered ps
  low : lo ≤ startTime
  high : startTime + duration ps ≤ hi
  total : Schedule.total ps = coins

namespace Fits

variable {t₀ t₁ : Int} {ps qs : Periods} {x y : Coins}

theorem timely (w : Window lo hi) (h : Fits lo hi t₀ ps x) : Timely t₀ ps :=
  w.timely h.ordered h.low h.high

theorem bounds (h : Fits lo hi t₀ ps x) :
    ∀ time ∈ events t₀ ps, t₀ ≤ time ∧ time ≤ hi := fun _ hmem =>
  ⟨le_of_mem_events h.ordered hmem, (le_last_of_mem_events h.ordered hmem).trans h.high⟩

theorem le_hi (h : Fits lo hi t₀ ps x) : t₀ ≤ hi := by
  have := h.ordered.duration_nonneg
  have := h.high
  omega

theorem inInt64_start (w : Window lo hi) (h : Fits lo hi t₀ ps x) : InInt64 t₀ := by
  have := w.low
  have := w.high
  have := h.low
  have := h.le_hi
  exact ⟨by omega, by omega⟩

theorem earlier (h : Fits lo hi t₀ ps x) (hlo : lo ≤ t₁) (hle : t₁ ≤ t₀) : Fits lo hi t₁ ps x := by
  have := h.high
  exact ⟨h.ordered, hlo, by omega, h.total⟩

theorem disjunct (w : Window lo hi) (h : Fits lo hi t₀ ps x) (h' : Fits lo hi t₁ qs y) :
    Fits lo hi (min t₀ t₁) (disjunctLoop t₀ t₁ (min t₀ t₁) ps qs).2 (x + y) ∧
      (disjunctLoop t₀ t₁ (min t₀ t₁) ps qs).1 =
        min t₀ t₁ + duration (disjunctLoop t₀ t₁ (min t₀ t₁) ps qs).2 ∧
      (∀ t, value (min t₀ t₁) (disjunctLoop t₀ t₁ (min t₀ t₁) ps qs).2 t =
        value t₀ ps t + value t₁ qs t) ∧
      (qs ≠ [] → t₁ + duration qs ≤ (disjunctLoop t₀ t₁ (min t₀ t₁) ps qs).1) := by
  have hlow := h.low
  have hlow' := h'.low
  have hle := h.le_hi
  have he : lo ≤ min t₀ t₁ ∧ min t₀ t₁ ≤ hi := by omega
  have hbounds : ∀ time, time ∈ events t₀ ps ∨ time ∈ events t₁ qs →
      min t₀ t₁ ≤ time ∧ time ≤ hi := by
    rintro time (hmem | hmem)
    · exact ⟨(min_le_left _ _).trans (h.bounds time hmem).1, (h.bounds time hmem).2⟩
    · exact ⟨(min_le_right _ _).trans (h'.bounds time hmem).1, (h'.bounds time hmem).2⟩
  have hbelow := fun time hmem => (hbounds time hmem).1
  have hA := h.timely w
  have hB := h'.timely w
  obtain ⟨hmem, hgreatest⟩ := disjunctLoop_last (min t₀ t₁) hA hB hbelow
  have hemitted := disjunctLoop_emitted (min t₀ t₁) hA hB hbelow (w.dense he.1 hbounds)
  refine ⟨⟨hemitted.ordered, he.1, ?_, ?_⟩, hemitted.last, fun t => ?_,
    fun hne => hgreatest (.inr (.inr (last_mem_events hne)))⟩
  · rw [← hemitted.last]
    rcases hmem with heq | hevent
    · exact heq.trans_le he.2
    · exact (hbounds _ hevent).2
  · rw [total_disjunctLoop, h.total, h'.total]
  · rw [← (hemitted.timely hA hB).readPeriods_eq]
    exact readPeriods_disjunctLoop _ hA hB t

end Fits

/-! ## Scheduled accounts -/

structure Scheduled (lo hi : Int) (va : ClawbackVestingAccount) : Prop where
  lockup : Fits lo hi va.startTime va.lockupPeriods va.originalVesting
  vesting : Fits lo hi va.startTime va.vestingPeriods va.originalVesting
  lockupEnd : va.startTime + duration va.lockupPeriods ≤ va.endTime
  vestingEnd : va.startTime + duration va.vestingPeriods ≤ va.endTime
  high : va.endTime ≤ hi

theorem Scheduled.balanced (h : Scheduled lo hi va) : va.Balanced :=
  ⟨h.lockup.total, h.vesting.total⟩

theorem Scheduled.getUnlockedCoins_eq (w : Window lo hi) (h : Scheduled lo hi va) (t : Int) :
    va.getUnlockedCoins t = afterStart va.startTime va.lockupPeriods t :=
  (h.lockup.timely w).readSchedule_eq h.lockupEnd h.lockup.total t

theorem Scheduled.getVestedCoins_eq (w : Window lo hi) (h : Scheduled lo hi va) (t : Int) :
    va.getVestedCoins t = afterStart va.startTime va.vestingPeriods t :=
  (h.vesting.timely w).readSchedule_eq h.vestingEnd h.vesting.total t

theorem Sound.fitsLockup (h : Sound lo hi va) :
    Fits lo hi va.startTime va.lockupPeriods va.originalVesting :=
  ⟨h.lockupOrdered, h.low, h.lockupEnd.trans h.high, h.lockupTotal⟩

theorem Sound.fitsVesting (h : Sound lo hi va) :
    Fits lo hi va.startTime va.vestingPeriods va.originalVesting :=
  ⟨h.vestingOrdered, h.low, h.vestingEnd.trans h.high, h.vestingTotal⟩

theorem Sound.scheduled (h : Sound lo hi va) : Scheduled lo hi va :=
  ⟨h.fitsLockup, h.fitsVesting, h.lockupEnd, h.vestingEnd, h.high⟩

variable {lockupPeriods vestingPeriods : Periods}

section

variable (w : Window lo hi) (funder : Address) (hlockup : Fits lo hi startTime lockupPeriods coins)
  (hvesting : Fits lo hi startTime vestingPeriods coins)

include w funder hlockup hvesting

theorem newClawbackVestingAccount_eq :
    newClawbackVestingAccount funder coins startTime lockupPeriods vestingPeriods =
      { funderAddress := funder
        originalVesting := coins
        delegatedFree := 0
        delegatedVesting := 0
        startTime := startTime
        endTime := max (startTime + duration lockupPeriods) (startTime + duration vestingPeriods)
        lockupPeriods := lockupPeriods
        vestingPeriods := vestingPeriods } := by
  simp only [newClawbackVestingAccount, alignSchedules, min_self, sub_self,
    extendFirst_zero w hlockup.ordered hlockup.low hlockup.high,
    extendFirst_zero w hvesting.ordered hvesting.low hvesting.high,
    (hlockup.timely w).int64_end (hlockup.inInt64_start w),
    (hvesting.timely w).int64_end (hvesting.inInt64_start w)]

theorem newClawbackVestingAccount_scheduled :
    Scheduled lo hi
      (newClawbackVestingAccount funder coins startTime lockupPeriods vestingPeriods) := by
  rw [newClawbackVestingAccount_eq w funder hlockup hvesting]
  exact ⟨hlockup, hvesting, le_max_left _ _, le_max_right _ _, max_le hlockup.high hvesting.high⟩

theorem newClawbackVestingAccount_sound
    (hpos : 0 < duration lockupPeriods ∨ 0 < duration vestingPeriods) :
    Sound lo hi
      (newClawbackVestingAccount funder coins startTime lockupPeriods vestingPeriods) ∧
    (newClawbackVestingAccount funder coins startTime lockupPeriods vestingPeriods).lockupPeriods =
      lockupPeriods := by
  have hscheduled := newClawbackVestingAccount_scheduled w funder hlockup hvesting
  rw [newClawbackVestingAccount_eq w funder hlockup hvesting] at hscheduled ⊢
  refine ⟨⟨hlockup.low, ?_, hscheduled.high, hlockup.ordered, hvesting.ordered, le_max_left _ _,
    le_max_right _ _, hlockup.total, hvesting.total⟩, rfl⟩
  rcases hpos with hpos | hpos <;> simp only [lt_max_iff] <;> omega

end

/-- The account after a grant: at every time both schedules release what the account and the grant
released separately. -/
structure Merged (lo hi grantStart : Int) (grantLockup grantVesting : Periods) (coins : Coins)
    (va va' : ClawbackVestingAccount) : Prop where
  scheduled : Scheduled lo hi va'
  startTime : va'.startTime = min va.startTime grantStart
  originalVesting : va'.originalVesting = va.originalVesting + coins
  unlocked : ∀ t, value va'.startTime va'.lockupPeriods t =
    value va.startTime va.lockupPeriods t + value grantStart grantLockup t
  vested : ∀ t, value va'.startTime va'.vestingPeriods t =
    value va.startTime va.vestingPeriods t + value grantStart grantVesting t
  start_lt_end : 0 < duration grantLockup ∨ 0 < duration grantVesting → va'.startTime < va'.endTime
  delegatedVesting : va'.delegatedVesting = 0

variable {delegated : Coins} {grantStart : Int} {grantLockup grantVesting : Periods}
  {va' : ClawbackVestingAccount}

theorem Scheduled.addGrant (w : Window lo hi) (h : Scheduled lo hi va)
    (hlockup : Fits lo hi grantStart grantLockup coins)
    (hvesting : Fits lo hi grantStart grantVesting coins)
    (hadd : va.addGrant delegated grantStart grantLockup grantVesting coins = some va') :
    Merged lo hi grantStart grantLockup grantVesting coins va va' ∧
      va'.delegatedFree = delegated := by
  obtain ⟨hfitL, hlastL, hvalueL, hendL⟩ := h.lockup.disjunct w hlockup
  obtain ⟨hfitV, hlastV, hvalueV, hendV⟩ := h.vesting.disjunct w hvesting
  have hne : ∀ {ps : Periods}, 0 < duration ps → ps ≠ [] := by
    rintro ps hpos rfl
    simp at hpos
  simp only [ClawbackVestingAccount.addGrant, disjunctPeriods, ne_eq, not_true_eq_false,
    if_false, Option.some.injEq] at hadd
  subst hadd
  have hhighL := hfitL.high
  have hhighV := hfitV.high
  refine ⟨⟨⟨hfitL, hfitV, ?_, ?_, ?_⟩, rfl, rfl, hvalueL, hvalueV, fun hpos => ?_, rfl⟩, rfl⟩
  · simp only
    omega
  · simp only
    omega
  · simp only
    omega
  · simp only
    rcases hpos with hpos | hpos
    · have := hendL (hne hpos)
      omega
    · have := hendV (hne hpos)
      omega

theorem addGrant_sound (w : Window lo hi) (h : Sound lo hi va)
    (hlockup : Fits lo hi grantStart grantLockup coins)
    (hvesting : Fits lo hi grantStart grantVesting coins)
    (hpos : 0 < duration grantLockup ∨ 0 < duration grantVesting)
    (hadd : va.addGrant delegated grantStart grantLockup grantVesting coins = some va') :
    Sound lo hi va' ∧ va'.startTime = min va.startTime grantStart ∧
      ∀ t, value va'.startTime va'.lockupPeriods t =
        value va.startTime va.lockupPeriods t + value grantStart grantLockup t := by
  obtain ⟨hmerged, -⟩ := h.scheduled.addGrant w hlockup hvesting hadd
  have hscheduled := hmerged.scheduled
  exact ⟨⟨hscheduled.lockup.low, hmerged.start_lt_end hpos, hscheduled.high,
    hscheduled.lockup.ordered, hscheduled.vesting.ordered, hscheduled.lockupEnd,
    hscheduled.vestingEnd, hscheduled.lockup.total, hscheduled.vesting.total⟩,
    hmerged.startTime, hmerged.unlocked⟩

/-! ## Clawback -/

theorem ordered_take (h : Ordered ps) (n : Nat) : Ordered (ps.take n) :=
  fun p hp => h p (List.mem_of_mem_take hp)

theorem duration_take_le (h : Ordered ps) (n : Nat) : duration (ps.take n) ≤ duration ps := by
  have hdrop : Ordered (ps.drop n) := fun p hp => h p (List.mem_of_mem_drop hp)
  have hnonneg := hdrop.duration_nonneg
  have hsplit := duration_append (ps.take n) (ps.drop n)
  rw [List.take_append_drop] at hsplit
  omega

theorem passed_of_timely (h : Timely va.startTime va.vestingPeriods)
    (hend : va.startTime + duration va.vestingPeriods ≤ va.endTime)
    (htotal : total va.vestingPeriods = va.originalVesting) (t : Int) :
    total (va.vestingPeriods.take (va.getPassedPeriodCount t)) = va.getVestedCoins t ∧
      ∀ time ∈ events va.startTime (va.vestingPeriods.take (va.getPassedPeriodCount t)),
        time ≤ t := by
  unfold ClawbackVestingAccount.getPassedPeriodCount readPastPeriodCount
    ClawbackVestingAccount.getVestedCoins readSchedule
  split
  · exact ⟨rfl, by simp⟩
  · split
    · rename_i hge
      rw [List.take_length]
      exact ⟨htotal, fun time hmem =>
        ((le_last_of_mem_events h.ordered hmem).trans hend).trans hge⟩
    · obtain ⟨past, upcoming, hsplit, hlength, hpast, hupcoming⟩ := h.countPeriods_spec t
      have hord := h.ordered
      rw [hsplit, ordered_append] at hord
      have htake : va.vestingPeriods.take
          (countPeriods va.startTime va.vestingPeriods t) = past := by
        rw [← hlength, hsplit, List.take_left']
        rfl
      have hreached : ∀ time ∈ events va.startTime past, time ≤ t := fun time hmem =>
        (le_last_of_mem_events hord.1 hmem).trans (hpast (ne_nil_of_mem_events hmem))
      have hlater : value (va.startTime + duration past) upcoming t = 0 := by
        cases upcoming with
        | nil => rfl
        | cons p rest => exact value_cons_of_lt (ordered_cons.mp hord.2).2 (hupcoming p rest rfl)
      rw [htake, h.readPeriods_eq, hsplit, value_append, hlater, add_zero,
        value_eq_total_of_events hord.1 hreached]
      exact ⟨rfl, hreached⟩

theorem Scheduled.total_passed (w : Window lo hi) (h : Scheduled lo hi va) (t : Int) :
    total (va.vestingPeriods.take (va.getPassedPeriodCount t)) = va.getVestedCoins t :=
  (passed_of_timely (h.vesting.timely w) h.vestingEnd h.vesting.total t).1

/-- A clawback at time `t` leaves coins in the account, and something of them vests or unlocks after
the start of the account. -/
def Retains (va : ClawbackVestingAccount) (t : Int) : Prop :=
  va.getVestedCoins t ≠ 0 ∧ (0 < duration (va.vestingPeriods.take (va.getPassedPeriodCount t)) ∨
    ¬ va.getVestedCoins t ≤ value va.startTime va.lockupPeriods va.startTime)

theorem Scheduled.conjunct_cap (w : Window lo hi) (h : Scheduled lo hi va) (vested : Coins) :
    Conjoins ⟨0, 0, 0, va.startTime⟩ va.startTime va.startTime va.lockupPeriods [⟨0, vested⟩]
      (conjunctLoop va.startTime va.startTime ⟨0, 0, 0, va.startTime⟩ va.lockupPeriods
        [⟨0, vested⟩]) := by
  have hcap : Fits lo hi va.startTime [⟨0, vested⟩] vested :=
    ⟨by simp, h.lockup.low, by simpa using h.lockup.le_hi, by simp⟩
  refine conjunctLoop_conjoins w ?_ (h.lockup.timely w) (hcap.timely w) h.lockup.low ?_
  · ext d
    simp
  · rintro time (hmem | hmem)
    · exact h.lockup.bounds time hmem
    · exact hcap.bounds time hmem

/-- The account after a clawback keeps what has vested, and unlocks it as before. -/
structure ClawedBack (lo hi t : Int) (va va' : ClawbackVestingAccount) (coins : Coins) : Prop where
  scheduled : Scheduled lo hi va'
  vested_le : va.getVestedCoins t ≤ va.originalVesting
  coins : coins = va.originalVesting - va.getVestedCoins t
  originalVesting : va'.originalVesting = va.getVestedCoins t
  startTime : va'.startTime = va.startTime
  endTime : va'.endTime = va.startTime + max (duration va'.vestingPeriods)
    (duration va'.lockupPeriods)
  vestingPeriods : va'.vestingPeriods = va.vestingPeriods.take (va.getPassedPeriodCount t)
  unlocked : ∀ t' d, (value va.startTime va'.lockupPeriods t').get d =
    min ((value va.startTime va.lockupPeriods t').get d)
      ((value va.startTime [⟨0, va.getVestedCoins t⟩] t').get d)
  delegatedFree : va'.delegatedFree = va.delegatedFree
  delegatedVesting : va'.delegatedVesting = va.delegatedVesting

theorem Scheduled.computeClawback (w : Window lo hi) (h : Scheduled lo hi va)
    (hclawback : va.computeClawback t = some (va', coins)) : ClawedBack lo hi t va va' coins := by
  have hpassed := h.total_passed w t
  have hconj := h.conjunct_cap w (va.getVestedCoins t)
  have hvestingOrdered := ordered_take h.vesting.ordered (va.getPassedPeriodCount t)
  have htakeLe := duration_take_le h.vesting.ordered (va.getPassedPeriodCount t)
  have hlow := h.lockup.low
  have hhigh := h.high
  have hle := h.lockup.le_hi
  have hlockupEnd := h.lockupEnd
  have hvestingEnd := h.vestingEnd
  have hnonneg := hvestingOrdered.duration_nonneg
  have hlockupNonneg := h.lockup.ordered.duration_nonneg
  simp only [ClawbackVestingAccount.computeClawback, ClawbackVestingAccount.getVestingCoins,
    subCoins, conjunctPeriods, min_self] at hclawback
  split at hclawback
  · rename_i hvested
    simp only [Option.pure_def, Option.bind_eq_bind, Option.bind_some, Option.some.injEq,
      Prod.mk.injEq] at hclawback
    obtain ⟨rfl, rfl⟩ := hclawback
    set vested := va.getVestedCoins t
    set passed := va.vestingPeriods.take (va.getPassedPeriodCount t)
    set r := conjunctLoop va.startTime va.startTime ⟨0, 0, 0, va.startTime⟩ va.lockupPeriods
      [⟨0, vested⟩]
    have hvestEnd : int64 (va.startTime + totalLength passed) = va.startTime + duration passed := by
      rw [totalLength_eq, int64_add_int64, w.int64_eq (by omega) (by omega)]
    have hlast : r.1 = va.startTime + duration r.2 := hconj.last
    have hbound : r.1 ≤ va.endTime :=
      hconj.bound va.endTime (by simp only; omega) hlockupEnd (by simp; omega)
    have htotal : total r.2 = vested := by
      ext d
      have hd := hconj.total d
      have hled := hvested d
      simp only [Tally.get_zero, total_cons, total_nil, add_zero, zero_add, h.lockup.total] at hd
      omega
    have hfitsLockup : Fits lo hi va.startTime r.2 vested :=
      ⟨hconj.ordered, hlow, by omega, htotal⟩
    have hfitsVesting : Fits lo hi va.startTime passed vested :=
      ⟨hvestingOrdered, hlow, by omega, hpassed⟩
    refine ⟨⟨hfitsLockup, hfitsVesting, ?_, ?_, ?_⟩, hvested, rfl, rfl, rfl, ?_, rfl,
      fun t' d => ?_, rfl, rfl⟩
    · simp only [hvestEnd]
      omega
    · simp only [hvestEnd]
      omega
    · simp only [hvestEnd]
      omega
    · simp only [hvestEnd, hlast]
      omega
    · simpa using hconj.value t' d
  · simp at hclawback

theorem computeClawback_sound (w : Window lo hi) (h : Sound lo hi va)
    (hclawback : va.computeClawback t = some (va', coins)) (hretains : Retains va t) :
    Sound lo hi va' := by
  have hback := h.scheduled.computeClawback w hclawback
  have hvesting := hback.vestingPeriods
  have hduration := hback.scheduled.vesting.ordered.duration_nonneg
  have hlockupDuration := hback.scheduled.lockup.ordered.duration_nonneg
  have hend := hback.endTime
  have hstart := hback.startTime
  refine ⟨hback.scheduled.lockup.low, ?_, hback.scheduled.high, hback.scheduled.lockup.ordered,
    hback.scheduled.vesting.ordered, hback.scheduled.lockupEnd, hback.scheduled.vestingEnd,
    hback.scheduled.lockup.total, hback.scheduled.vesting.total⟩
  rw [hstart]
  by_contra hle
  rcases hretains.2 with hpos | hnot
  · rw [← hvesting] at hpos
    omega
  · -- an unlocking schedule that ends at the start would have unlocked everything there
    apply hnot
    intro d
    have hzero : duration va'.lockupPeriods = 0 := by omega
    have hall := value_of_ge hback.scheduled.lockup.ordered
      (show va.startTime + duration va'.lockupPeriods ≤ va.startTime by omega)
    have hd := hback.unlocked va.startTime d
    rw [hall, hback.scheduled.lockup.total, hback.originalVesting] at hd
    omega

end Haqq.Vesting
