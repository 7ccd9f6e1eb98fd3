import Haqq.Vesting.Keeper
import Haqq.Vesting.Validity

/-!
# The pointwise laws of schedules

Reading a merged schedule at a time gives the sum of the two schedules read at that time
(`DisjunctPeriods`) or their minimum (`ConjunctPeriods`).  The length of a merged period may wrap
around; the readers add it to the earlier of two event times, which gives the later one back.

* `disjunctPeriods_pointwise` and `conjunctPeriods_pointwise` are the laws of the two operations.
* `computeClawback_splits`: `ComputeClawback` caps the unlocking schedule by what has vested.  Of
  the vesting schedule it only reads what has passed, so that overflows there do no harm; of the
  unlocking schedule it reads every event time.
-/

namespace Haqq.Vesting

open Lib Lib.Schedule

def readFrom (startTime : Int) (periods : Periods) (readTime : Int) : Coins :=
  readSchedule startTime (startTime + duration periods) periods (total periods) readTime

variable {startA startB : Int} {as bs : Periods}

variable {startTime endTime : Int} {periods : Periods} {coins : Coins}

theorem readSchedule_eq_of {t : Int} {x : Coins} (hbefore : t ≤ startTime → x = 0)
    (hafter : startTime < t → endTime ≤ t → coins = x)
    (hread : startTime < t → readPeriods startTime periods t = x) :
    readSchedule startTime endTime periods coins t = x := by
  unfold readSchedule
  split
  · rename_i ht
    exact (hbefore ht).symm
  · rename_i hstart
    split
    · rename_i ht
      exact hafter (not_le.mp hstart) ht
    · exact hread (not_le.mp hstart)

theorem readSchedule_of_ge {t : Int} (hbefore : t ≤ startTime → coins = 0) (ht : endTime ≤ t) :
    readSchedule startTime endTime periods coins t = coins := by
  unfold readSchedule
  split
  · rename_i hstart
    exact (hbefore hstart).symm
  · rfl

theorem Timely.readFrom_eq (h : Timely startTime periods) (hpos : ∀ p ∈ periods, 0 < p.length)
    (t : Int) : readFrom startTime periods t = value startTime periods t := by
  rw [readFrom, h.readSchedule_eq le_rfl rfl, afterStart]
  split
  · rename_i ht
    exact (value_eq_zero_of_events fun time hmem => ht.trans_lt (lt_of_mem_events hpos hmem)).symm
  · rfl

theorem timely_of_pos (hpos : ∀ p ∈ periods, 0 < p.length)
    (hevents : ∀ time ∈ events startTime periods, InInt64 time) : Timely startTime periods :=
  ⟨fun p hp => (hpos p hp).le, hevents⟩

theorem min_lt_of_event (hA : ∀ p ∈ as, 0 < p.length) (hB : ∀ p ∈ bs, 0 < p.length) {time : Int}
    (hmem : time ∈ events startA as ∨ time ∈ events startB bs) : min startA startB < time := by
  rcases hmem with hmem | hmem
  · exact (min_le_left _ _).trans_lt (lt_of_mem_events hA hmem)
  · exact (min_le_right _ _).trans_lt (lt_of_mem_events hB hmem)

/-! ## Union -/

/-- Neither an event time nor the distance of an event to the one before it leaves the range of
`int64`. -/
structure NoOverflow (startA startB : Int) (as bs : Periods) : Prop where
  eventsA : ∀ time ∈ events startA as, InInt64 time
  eventsB : ∀ time ∈ events startB bs, InInt64 time
  distances : Dense (min startA startB) fun time => time ∈ events startA as ∨
    time ∈ events startB bs

/-- Nothing is released up to the earlier start. -/
def together (startA startB : Int) (periodsA periodsB : Periods) (t : Int) : Coins :=
  if t ≤ min startA startB then 0 else value startA periodsA t + value startB periodsB t

theorem min_le_of_event (hA : Ordered as) (hB : Ordered bs) {time : Int}
    (hmem : time ∈ events startA as ∨ time ∈ events startB bs) : min startA startB ≤ time := by
  rcases hmem with hmem | hmem
  · exact (min_le_left _ _).trans (le_of_mem_events hA hmem)
  · exact (min_le_right _ _).trans (le_of_mem_events hB hmem)

theorem readSchedule_disjunct (hA : Timely startA as) (hB : Timely startB bs)
    (hend : (disjunctPeriods startA startB as bs).2.1 ≤ endTime)
    (htotal : coins = total as + total bs)
    (t : Int) :
    readSchedule (min startA startB) endTime (disjunctPeriods startA startB as bs).2.2 coins t =
      together startA startB as bs t := by
  have hlast := disjunctLoop_last (min startA startB) hA hB
    fun _ => min_le_of_event hA.ordered hB.ordered
  refine readSchedule_eq_of (fun ht => if_pos ht) (fun hlt ht => ?_) (fun hlt => ?_)
  · have hle : ∀ time, time ∈ events startA as ∨ time ∈ events startB bs → time ≤ t :=
      fun time hmem => (hlast.2 (.inr hmem)).trans (hend.trans ht)
    rw [htotal, together, if_neg (not_le.mpr hlt),
      value_eq_total_of_events hA.ordered fun time hmem => hle time (.inl hmem),
      value_eq_total_of_events hB.ordered fun time hmem => hle time (.inr hmem)]
  · rw [together, if_neg (not_le.mpr hlt)]
    exact readPeriods_disjunctLoop _ hA hB t

def lastEvent (startA startB : Int) : Periods → Periods → Option Int
  | [], [] => none
  | a :: as, [] => some (startA + duration (a :: as))
  | [], b :: bs => some (startB + duration (b :: bs))
  | a :: as, b :: bs => some (max (startA + duration (a :: as)) (startB + duration (b :: bs)))

variable {start : Int}

theorem lastEvent_eq_of_isGreatest {last : Int} (hA : ∀ p ∈ as, 0 < p.length)
    (hB : ∀ p ∈ bs, 0 < p.length) (hstart : start = min startA startB)
    (h : IsGreatest {time | time = start ∨ time ∈ events startA as ∨ time ∈ events startB bs}
      last) : last = (lastEvent startA startB as bs).getD start := by
  obtain ⟨hmem, hle⟩ := h
  have hordA : Ordered as := fun p hp => (hA p hp).le
  have hordB : Ordered bs := fun p hp => (hB p hp).le
  have hfrom : ∀ time ∈ events startA as, time ≤ startA + duration as :=
    fun _ => le_last_of_mem_events hordA
  have hfrom' : ∀ time ∈ events startB bs, time ≤ startB + duration bs :=
    fun _ => le_last_of_mem_events hordB
  have hpos : ∀ time, time ∈ events startA as ∨ time ∈ events startB bs → start < time :=
    fun time hmem => hstart ▸ min_lt_of_event hA hB hmem
  cases as with
  | nil =>
    cases bs with
    | nil => simpa [lastEvent] using hmem
    | cons b bs =>
      have hend : startB + duration (b :: bs) ∈ events startB (b :: bs) :=
        last_mem_events (by simp)
      have hlast := hle (.inr (.inr hend))
      have := hpos _ (.inr hend)
      rcases hmem with rfl | hmem | hmem
      · omega
      · simp at hmem
      · exact le_antisymm (hfrom' last hmem) hlast
  | cons a as =>
    have hend : startA + duration (a :: as) ∈ events startA (a :: as) :=
      last_mem_events (by simp)
    have hlast := hle (.inr (.inl hend))
    have := hpos _ (.inl hend)
    cases bs with
    | nil =>
      rcases hmem with rfl | hmem | hmem
      · omega
      · exact le_antisymm (hfrom last hmem) hlast
      · simp at hmem
    | cons b bs =>
      have hlast' : startB + duration (b :: bs) ≤ last :=
        hle (.inr (.inr (last_mem_events (by simp))))
      refine le_antisymm ?_ (max_le hlast hlast')
      rcases hmem with rfl | hmem | hmem
      · omega
      · exact le_max_of_le_left (hfrom last hmem)
      · exact le_max_of_le_right (hfrom' last hmem)

/-- **`DisjunctPeriods` is the pointwise sum.** -/
theorem disjunctPeriods_pointwise (hposA : ∀ p ∈ as, 0 < p.length)
    (hposB : ∀ p ∈ bs, 0 < p.length) (h : NoOverflow startA startB as bs) :
    (disjunctPeriods startA startB as bs).1 = min startA startB ∧
      (disjunctPeriods startA startB as bs).2.1 =
        (lastEvent startA startB as bs).getD (min startA startB) ∧
      (∀ p ∈ (disjunctPeriods startA startB as bs).2.2, 0 ≤ p.length) ∧
      ∀ t, readSchedule (disjunctPeriods startA startB as bs).1
          (disjunctPeriods startA startB as bs).2.1 (disjunctPeriods startA startB as bs).2.2
          (total (disjunctPeriods startA startB as bs).2.2) t =
        readFrom startA as t + readFrom startB bs t := by
  have hA := timely_of_pos hposA h.eventsA
  have hB := timely_of_pos hposB h.eventsB
  have hstart : ∀ time, time ∈ events startA as ∨ time ∈ events startB bs →
      min startA startB ≤ time := fun _ => min_le_of_event hA.ordered hB.ordered
  have hlast := disjunctLoop_last (min startA startB) hA hB hstart
  refine ⟨rfl, lastEvent_eq_of_isGreatest hposA hposB rfl hlast,
    (disjunctLoop_emitted _ hA hB hstart h.distances).ordered, fun t => ?_⟩
  rw [hA.readFrom_eq hposA, hB.readFrom_eq hposB]
  refine (readSchedule_disjunct hA hB le_rfl (total_disjunctLoop _ _ _ _ _) t).trans ?_
  unfold together
  split
  · rename_i ht
    have hzero : ∀ time, time ∈ events startA as ∨ time ∈ events startB bs → t < time :=
      fun time hmem => ht.trans_lt (min_lt_of_event hposA hposB hmem)
    rw [value_eq_zero_of_events fun time hmem => hzero time (.inl hmem),
      value_eq_zero_of_events fun time hmem => hzero time (.inr hmem), add_zero]
  · rfl

def afterFive : Periods := [⟨5, Tally.single .islm 10⟩]

def inTwoSteps : Periods := [⟨1, Tally.single .islm 4⟩, ⟨5, Tally.single .haqq 4⟩]

theorem afterFive_inTwoSteps_noOverflow : NoOverflow 0 4 afterFive inTwoSteps := by
  have w : Window 0 10 := ⟨by decide, by decide, by decide⟩
  refine ⟨by decide, by decide, w.dense (by decide) ?_⟩
  simp [afterFive, inTwoSteps]

theorem afterFive_disjunct_inTwoSteps :
    (disjunctPeriods 0 4 afterFive inTwoSteps).2.1 = 10 ∧
      readFrom 0 afterFive 5 + readFrom 4 inTwoSteps 5 = Tally.single .islm 14 := by
  obtain ⟨_, hend, _, hread⟩ := disjunctPeriods_pointwise (by decide) (by decide)
    afterFive_inTwoSteps_noOverflow
  refine ⟨hend, ?_⟩
  rw [← hread]
  decide +kernel

/-! ## Intersection -/

/-- `last` is the last event at which `f` changes, or `start` if `f` never does. -/
def IsLastChange (isEvent : Int → Prop) (f : Int → Coins) (start last : Int) : Prop :=
  IsGreatest {time | isEvent time ∧ f (time - 1) ≠ f time} last ∨
    last = start ∧ ∀ time, isEvent time → f (time - 1) = f time

/-- **`ConjunctPeriods` is the pointwise minimum.** -/
theorem conjunctPeriods_pointwise (hposA : ∀ p ∈ as, 0 < p.length)
    (hposB : ∀ p ∈ bs, 0 < p.length) (heventsA : ∀ time ∈ events startA as, InInt64 time)
    (heventsB : ∀ time ∈ events startB bs, InInt64 time) :
    (∀ t d, (readSchedule (conjunctPeriods startA startB as bs).1
          (conjunctPeriods startA startB as bs).2.1 (conjunctPeriods startA startB as bs).2.2
          (total (conjunctPeriods startA startB as bs).2.2) t).get d =
        min ((readFrom startA as t).get d) ((readFrom startB bs t).get d)) ∧
      IsLastChange (fun time => time ∈ events startA as ∨ time ∈ events startB bs)
        (fun t => min (readFrom startA as t) (readFrom startB bs t)) (min startA startB)
        (conjunctPeriods startA startB as bs).2.1 := by
  have hA := timely_of_pos hposA heventsA
  have hB := timely_of_pos hposB heventsB
  simp only [hA.readFrom_eq hposA, hB.readFrom_eq hposB]
  obtain ⟨hread, htotal, hsettled, hchange⟩ :=
    conjunctLoop_levels (c := ⟨0, 0, 0, min startA startB⟩) (by ext d; simp) hA hB
  simp only [zero_add, Conjunction.level, Conjunction.finalLevel]
    at hread htotal hsettled hchange
  constructor
  · intro t d
    rw [← Tally.get_min, ← hread t]
    refine congrArg (Tally.get · d) (readSchedule_eq_of (fun ht => ?_) (fun _ ht => ?_)
      fun _ => rfl)
    · have hzero : ∀ time, time ∈ events startA as ∨ time ∈ events startB bs → t < time :=
        fun time hmem => ht.trans_lt (min_lt_of_event hposA hposB hmem)
      rw [hread t, value_eq_zero_of_events fun time hmem => hzero time (.inl hmem),
        value_eq_zero_of_events fun time hmem => hzero time (.inr hmem)]
      exact Tally.min_eq_left le_rfl
    · rw [hread t, hsettled t ht]
      exact htotal
  · -- from the last event on the minimum stays the same
    have hconst : ∀ time, (conjunctPeriods startA startB as bs).2.1 < time →
        min (value startA as (time - 1)) (value startB bs (time - 1)) =
          min (value startA as time) (value startB bs time) := fun time hlt =>
      (hsettled (time - 1) (Int.le_sub_one_of_lt hlt)).trans (hsettled time hlt.le).symm
    rcases hchange with heq | hchange
    · exact .inr ⟨heq, fun time hmem =>
        hconst time (heq.trans_lt (min_lt_of_event hposA hposB hmem))⟩
    · refine .inl ⟨hchange, fun time hmem => ?_⟩
      by_contra hlt
      exact hmem.2 (hconst time (not_le.mp hlt))

theorem afterFive_conjunct_inTwoSteps :
    (conjunctPeriods 0 4 afterFive inTwoSteps).2.1 = 5 ∧
      min ((readFrom 0 afterFive 7).get .islm) ((readFrom 4 inTwoSteps 7).get .islm) = 4 := by
  obtain ⟨hread, _⟩ := @conjunctPeriods_pointwise 0 4 afterFive inTwoSteps (by decide)
    (by decide) (by decide) (by decide)
  rw [← hread]
  decide +kernel

/-! ## Clawback -/

namespace ClawbackVestingAccount

/-- No period of the unlocking schedule has a negative length, and none of its event times wraps
around. -/
structure Exact (va : ClawbackVestingAccount) : Prop where
  start : InInt64 va.startTime
  lockup : Timely va.startTime va.lockupPeriods

end ClawbackVestingAccount

open ClawbackVestingAccount

variable {ps : Periods}

theorem total_take_le (n : Nat) : total (ps.take n) ≤ total ps := by
  intro d
  have hsplit := total_append (ps.take n) (ps.drop n)
  rw [List.take_append_drop] at hsplit
  rw [hsplit, Tally.get_add]
  omega

theorem total_passed_of_balanced {va : ClawbackVestingAccount} (h : va.Balanced) (t : Int) :
    total (va.vestingPeriods.take (va.getPassedPeriodCount t)) = va.getVestedCoins t := by
  unfold getPassedPeriodCount readPastPeriodCount getVestedCoins readSchedule
  split_ifs
  · rfl
  · rw [List.take_length, h.vesting]
  · rw [readPeriods_eq_total_take]

/-- Whatever the lengths of its periods, what has passed before the end stays passed. -/
theorem readPeriods_passed {va : ClawbackVestingAccount} {c t : Int} (hend : c < va.endTime)
    (ht : c ≤ t) :
    readPeriods va.startTime (va.vestingPeriods.take (va.getPassedPeriodCount c)) t =
      total (va.vestingPeriods.take (va.getPassedPeriodCount c)) := by
  unfold getPassedPeriodCount readPastPeriodCount
  rw [if_neg (not_le.mpr hend)]
  split
  · rfl
  · have hread := readPeriods_take_append va.startTime va.vestingPeriods [] ht
    rwa [List.append_nil, readPeriods_nil, add_zero] at hread

theorem capped_end_le {lockup : Periods} {vested : Coins} (hstart : InInt64 start)
    (h : Timely start lockup) :
    (conjunctPeriods start start lockup [⟨0, vested⟩]).2.1 ≤ start + duration lockup := by
  have hcap : Timely start [⟨0, vested⟩] := ⟨by simp, by simpa using hstart⟩
  have hnonneg := h.ordered.duration_nonneg
  obtain ⟨_, _, _, hchange⟩ := conjunctLoop_levels (c := ⟨0, 0, 0, start⟩) (by ext d; simp) h hcap
  simp only [conjunctPeriods, min_self]
  rcases hchange with heq | ⟨hmem | hmem, _⟩
  · rw [heq]
    simp only
    omega
  · exact le_last_of_mem_events h.ordered hmem
  · simp only [events_cons, events_nil, add_zero, List.mem_singleton] at hmem
    rw [hmem]
    omega

theorem readSchedule_capped {lockup : Periods} {vested : Coins} (hstart : InInt64 start)
    (h : Timely start lockup) (hle : vested ≤ total lockup)
    (hend : (conjunctPeriods start start lockup [⟨0, vested⟩]).2.1 ≤ endTime) (t : Int) :
    readSchedule start endTime (conjunctPeriods start start lockup [⟨0, vested⟩]).2.2 vested t =
      min (afterStart start lockup t) vested := by
  have hcap : Timely start [⟨0, vested⟩] := ⟨by simp, by simpa using hstart⟩
  obtain ⟨hread, _, hsettled, _⟩ :=
    conjunctLoop_levels (c := ⟨0, 0, 0, start⟩) (by ext d; simp) h hcap
  simp only [zero_add, Conjunction.level, Conjunction.finalLevel] at hread hsettled
  -- after the start the cap has been reached
  have hreached : start < t → value start [⟨0, vested⟩] t = vested := fun hlt =>
    (value_of_ge hcap.ordered (by simpa using hlt.le)).trans (by simp)
  have hafter : start < t → afterStart start lockup t = value start lockup t := fun hlt =>
    if_neg (not_le.mpr hlt)
  simp only [conjunctPeriods, min_self] at hend ⊢
  refine readSchedule_eq_of (fun ht => ?_) (fun hlt ht => ?_) (fun hlt => ?_)
  · rw [afterStart, if_pos ht]
    exact Tally.min_eq_left (Tally.zero_le vested)
  · have hlevel := hsettled t (hend.trans ht)
    rw [hreached hlt] at hlevel
    rw [hafter hlt, hlevel]
    simpa using (Tally.min_eq_right hle).symm
  · rw [hafter hlt, hread t, hreached hlt]

/-- **`ComputeClawback` splits the account.**  What has vested stays and is fully vested
from then on, what has not is clawed back, and the unlocking schedule is capped by what
has vested. -/
theorem computeClawback_splits {va : ClawbackVestingAccount} (hvalid : va.validate = .ok ())
    (hexact : va.Exact) (clawbackTime : Int) :
    ∃ va' coins, va.computeClawback clawbackTime = some (va', coins) ∧
      va.originalVesting = va'.originalVesting + coins ∧
      va.getVestingCoins clawbackTime = some coins ∧
      ∀ t, clawbackTime ≤ t → ∀ d,
        (va'.getVestedCoins t).get d = (va.getVestedCoins clawbackTime).get d ∧
        (va'.getUnlockedCoins t).get d =
          min ((va.getUnlockedCoins t).get d) ((va.getVestedCoins clawbackTime).get d) := by
  obtain ⟨hlockupEnd, hlockup, hvestingEnd, hvesting⟩ := of_validate hvalid
  rw [scheduleEnd_of_timely hexact.start hexact.lockup] at hlockupEnd
  have hstart := (validate_iff.mp hvalid).1
  have hpassed := total_passed_of_balanced (balanced_of_validate hvalid) clawbackTime
  have hle : va.getVestedCoins clawbackTime ≤ va.originalVesting := by
    rw [← hpassed, ← hvesting]
    exact total_take_le _
  have hunvested : va.getVestingCoins clawbackTime =
      some (va.originalVesting - va.getVestedCoins clawbackTime) := if_pos hle
  have hunlocked := hexact.lockup.readSchedule_eq hlockupEnd hlockup
  refine ⟨_, _, by rw [computeClawback, hunvested]; rfl, ?_, hunvested, fun t ht d => ⟨?_, ?_⟩⟩
  · simp only
    rw [add_comm, Tally.sub_add_cancel_of_le hle]
  · refine congrArg (Tally.get · d) ?_
    by_cases hend : clawbackTime < va.endTime
    · refine readSchedule_eq_of (fun hbefore => if_pos (ht.trans hbefore)) (fun _ _ => rfl)
        (fun _ => ?_)
      rw [readPeriods_passed hend ht, hpassed]
    · -- the new account has ended as well
      refine readSchedule_of_ge (fun hbefore => if_pos (ht.trans hbefore)) (max_le ?_ ?_)
      · have hall : va.getPassedPeriodCount clawbackTime = va.vestingPeriods.length := by
          rw [getPassedPeriodCount, readPastPeriodCount, if_neg (by omega), if_pos (by omega)]
        rw [hall, List.take_length, totalLength_eq, int64_add_int64]
        rw [scheduleEnd_eq_int64 hexact.start] at hvestingEnd
        omega
      · exact (capped_end_le hexact.start hexact.lockup).trans (by omega)
  · rw [getUnlockedCoins, getUnlockedCoins, hunlocked, ← Tally.get_min]
    refine congrArg (Tally.get · d) ?_
    exact readSchedule_capped hexact.start hexact.lockup (hlockup ▸ hle) (le_max_right _ _) t

theorem tenCoins_exact : tenCoins.Exact :=
  ⟨by decide, by decide +kernel, by decide⟩

theorem tenCoins_splits :
    tenCoins.validate = .ok () ∧ ∃ va' coins, tenCoins.computeClawback 6 = some (va', coins) ∧
      tenCoins.originalVesting = va'.originalVesting + coins ∧
      (va'.getUnlockedCoins 8).get .islm =
        min ((tenCoins.getUnlockedCoins 8).get .islm) ((tenCoins.getVestedCoins 6).get .islm) := by
  have hvalid : tenCoins.validate = .ok () := by decide +kernel
  obtain ⟨va', coins, hclawback, horiginal, _, hread⟩ :=
    computeClawback_splits hvalid tenCoins_exact 6
  exact ⟨hvalid, va', coins, hclawback, horiginal, (hread 8 (by decide) .islm).2⟩

def wrappedLockup : MsgGrant :=
  ⟨1, 2, 0, [⟨2 ^ 63 - 1, Tally.single .islm 10⟩, ⟨2 ^ 63 - 1, Tally.single .islm 10⟩,
    ⟨12, Tally.single .islm 10⟩], [⟨5, Tally.single .islm 15⟩, ⟨5, Tally.single .islm 15⟩], false⟩

def wrappedAccount : ClawbackVestingAccount :=
  newClawbackVestingAccount 1 (total wrappedLockup.vesting) wrappedLockup.startTime
    wrappedLockup.lockup wrappedLockup.vesting

/-- A clawback after seven seconds unlocks the coins that have vested, although the
account had unlocked nothing. -/
theorem wrappedAccount_unlocked_by_clawback :
    wrappedLockup.validateBasic = true ∧ wrappedAccount.validate = .ok () ∧
      (wrappedAccount.computeClawback 7).map (fun r => (r.1.getUnlockedCoins 7).get .islm) =
        some 15 ∧
      (wrappedAccount.getUnlockedCoins 7).get .islm = 0 ∧
      (wrappedAccount.getVestedCoins 7).get .islm = 15 := by
  decide +kernel

end Haqq.Vesting
