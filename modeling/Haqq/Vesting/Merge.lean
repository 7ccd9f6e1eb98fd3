import Haqq.Vesting.Effects
import Haqq.Vesting.Pointwise

/-!
# Merging a grant

`ApplyVestingSchedule` merges a grant into an existing account at the earlier of the two start
times, `CreateClawbackVestingAccount` at the start of the grant.  This module says when the two
agree, and when the merged account has the coins of both at every time.

* `addGrant_reads`: what the merged account has unlocked and vested, if no event time of the account
  (`OnTime`) and of the grant (`Timed`) wraps around.
* `together_eq_iff` and `together_moved_iff`: when this is the sum of the two.
* `applyVestingSchedule_addsGrant_iff` says it of the keeper, for both ways to merge.
* `grant_early`: a grant that starts later is released early, and one with wrapped event times takes
  the coins of the account along.
-/

namespace Haqq.Vesting

open Lib Lib.Schedule

variable {va va' : ClawbackVestingAccount}

/-- Both schedules release the coins, no length is negative and no event time wraps around. -/
structure Timed (startTime : Int) (lockupPeriods vestingPeriods : Periods) (coins : Coins) :
    Prop where
  start : InInt64 startTime
  lockup : Timely startTime lockupPeriods
  vesting : Timely startTime vestingPeriods
  lockupTotal : total lockupPeriods = coins
  vestingTotal : total vestingPeriods = coins

/-- The schedules of an account, which end when it ends. -/
structure OnTime (va : ClawbackVestingAccount) : Prop extends
    Timed va.startTime va.lockupPeriods va.vestingPeriods va.originalVesting where
  lockupEnd : va.startTime + duration va.lockupPeriods ≤ va.endTime
  vestingEnd : va.startTime + duration va.vestingPeriods ≤ va.endTime

def readGrant (startTime : Int) (periods : Periods) (readTime : Int) : Coins :=
  readSchedule startTime (int64 (startTime + totalLength periods)) periods (total periods) readTime

/-- The coins of `va'` are those of `va` and of the grant, at every time. -/
def AddsGrant (va : ClawbackVestingAccount) (startTime : Int)
    (lockupPeriods vestingPeriods : Periods) (va' : ClawbackVestingAccount) : Prop :=
  ∀ t, va'.getUnlockedCoins t = va.getUnlockedCoins t + readGrant startTime lockupPeriods t ∧
    va'.getVestedCoins t = va.getVestedCoins t + readGrant startTime vestingPeriods t

/-- Nothing is released at the start itself, where reading a schedule gives nothing. -/
def QuietAt (startTime : Int) (lockupPeriods vestingPeriods : Periods) : Prop :=
  value startTime lockupPeriods startTime = 0 ∧ value startTime vestingPeriods startTime = 0

variable {startTime : Int} {periods : Periods} {coins : Coins}

theorem readGrant_eq (hstart : InInt64 startTime) (h : Timely startTime periods) (t : Int) :
    readGrant startTime periods t = afterStart startTime periods t := by
  rw [readGrant, h.int64_end hstart, h.readSchedule_eq le_rfl rfl]

theorem OnTime.getUnlockedCoins_eq (h : OnTime va) (t : Int) :
    va.getUnlockedCoins t = afterStart va.startTime va.lockupPeriods t :=
  h.lockup.readSchedule_eq h.lockupEnd h.lockupTotal t

theorem OnTime.getVestedCoins_eq (h : OnTime va) (t : Int) :
    va.getVestedCoins t = afterStart va.startTime va.vestingPeriods t :=
  h.vesting.readSchedule_eq h.vestingEnd h.vestingTotal t

theorem Timely.earlier {earlier : Int} (h : Timely startTime periods) (hearlier : InInt64 earlier)
    (hle : earlier ≤ startTime) : Timely earlier periods := by
  refine ⟨h.ordered, fun time hmem => ?_⟩
  have hlast := h.inInt64 _ (last_mem_events (ne_nil_of_mem_events hmem))
  have hge := le_of_mem_events h.ordered hmem
  have hle' := le_last_of_mem_events h.ordered hmem
  exact ⟨hearlier.1.trans hge, lt_of_le_of_lt (by omega) hlast.2⟩

variable {grantStart : Int} {grantLockup grantVesting : Periods}

theorem Timed.earlier (h : Timed startTime grantLockup grantVesting coins)
    (hstart : InInt64 grantStart) (hle : grantStart ≤ startTime) :
    Timed grantStart grantLockup grantVesting coins :=
  ⟨hstart, h.lockup.earlier hstart hle, h.vesting.earlier hstart hle, h.lockupTotal, h.vestingTotal⟩

theorem addGrant_reads (h : OnTime va) (hgrant : Timed grantStart grantLockup grantVesting coins)
    {delegated : Coins}
    (hadd : va.addGrant delegated grantStart grantLockup grantVesting coins = some va') (t : Int) :
    va'.getUnlockedCoins t = together va.startTime grantStart va.lockupPeriods grantLockup t ∧
      va'.getVestedCoins t = together va.startTime grantStart va.vestingPeriods grantVesting t := by
  simp only [ClawbackVestingAccount.addGrant, disjunctPeriods, ne_eq, not_true_eq_false,
    if_false, Option.some.injEq] at hadd
  subst hadd
  exact ⟨readSchedule_disjunct h.lockup hgrant.lockup (le_max_left _ _)
      (by rw [h.lockupTotal, hgrant.lockupTotal]) t,
    readSchedule_disjunct h.vesting hgrant.vesting (le_max_right _ _)
      (by rw [h.vestingTotal, hgrant.vestingTotal]) t⟩

/-! ## Step functions -/

theorem value_eq_zero_of_total (h : total periods = 0) (t₀ t : Int) : value t₀ periods t = 0 := by
  apply value_eq_zero
  induction periods with
  | nil => simp
  | cons p periods ih =>
    rw [total_cons, Tally.add_eq_zero] at h
    intro q hq
    rcases List.mem_cons.mp hq with rfl | hq
    · exact h.1
    · exact ih h.2 q hq

theorem together_comm (startA startB : Int) (periodsA periodsB : Periods) (t : Int) :
    together startA startB periodsA periodsB t = together startB startA periodsB periodsA t := by
  simp only [together, min_comm startA, add_comm]

variable {startA startB : Int} {periodsA periodsB : Periods}

theorem together_eq_iff (hA : Ordered periodsA) (hle : startB ≤ startA) :
    (∀ t, together startA startB periodsA periodsB t =
        afterStart startA periodsA t + afterStart startB periodsB t) ↔
      (startB < startA → value startA periodsA startA = 0) := by
  constructor
  · intro h hlt
    have hstart := h startA
    simp only [together, afterStart, le_refl, if_true, zero_add, min_eq_right hle,
      if_neg (not_le.mpr hlt)] at hstart
    exact add_eq_right.mp hstart
  · intro h t
    simp only [together, afterStart, min_eq_right hle]
    by_cases hB : t ≤ startB
    · rw [if_pos hB, if_pos hB, if_pos (hB.trans hle), add_zero]
    · rw [if_neg hB, if_neg hB]
      by_cases hlater : t ≤ startA
      · rw [if_pos hlater]
        rcases lt_or_eq_of_le hlater with hlt | rfl
        · rw [value_of_lt hA hlt]
        · rw [h (by omega)]
      · rw [if_neg hlater]

theorem together_moved_iff (hB : Ordered periodsB) (hlt : startA < startB) :
    (∀ t, together startA startA periodsA periodsB t =
        afterStart startA periodsA t + afterStart startB periodsB t) ↔ total periodsB = 0 := by
  constructor
  · intro h
    apply total_eq_zero_of_delay hB (sub_pos.mpr hlt)
    intro t ht
    have hread := h t
    unfold together afterStart at hread
    rw [min_self, if_neg (not_le.mpr ht), if_neg (not_le.mpr ht)] at hread
    rw [add_sub_cancel]
    exact add_left_cancel hread
  · intro hzero t
    simp only [together, afterStart, min_self, value_eq_zero_of_total hzero, ite_self, add_zero]

/-! ## Merging -/

section

variable {delegated coins : Coins} {startTime : Int} {lockupPeriods vestingPeriods : Periods}
  (h : OnTime va) (hgrant : Timed startTime lockupPeriods vestingPeriods coins)

include h hgrant

theorem addGrant_addsGrant_iff
    (hgrant' : Timed grantStart lockupPeriods vestingPeriods coins)
    (hadd : va.addGrant delegated grantStart lockupPeriods vestingPeriods coins = some va') :
    AddsGrant va startTime lockupPeriods vestingPeriods va' ↔
      (∀ t, together va.startTime grantStart va.lockupPeriods lockupPeriods t =
        afterStart va.startTime va.lockupPeriods t + afterStart startTime lockupPeriods t) ∧
      (∀ t, together va.startTime grantStart va.vestingPeriods vestingPeriods t =
        afterStart va.startTime va.vestingPeriods t + afterStart startTime vestingPeriods t) := by
  rw [← forall_and]
  apply forall_congr'
  intro t
  obtain ⟨hunlocked, hvested⟩ := addGrant_reads h hgrant' hadd t
  rw [hunlocked, hvested, h.getUnlockedCoins_eq, h.getVestedCoins_eq,
    readGrant_eq hgrant.start hgrant.lockup, readGrant_eq hgrant.start hgrant.vesting]

theorem addGrant_own_start_iff
    (hadd : va.addGrant delegated startTime lockupPeriods vestingPeriods coins = some va') :
    AddsGrant va startTime lockupPeriods vestingPeriods va' ↔
      (startTime < va.startTime → QuietAt va.startTime va.lockupPeriods va.vestingPeriods) ∧
      (va.startTime < startTime → QuietAt startTime lockupPeriods vestingPeriods) := by
  rw [addGrant_addsGrant_iff h hgrant hgrant hadd]
  rcases le_total startTime va.startTime with hle | hle
  · rw [together_eq_iff h.lockup.ordered hle, together_eq_iff h.vesting.ordered hle,
      ← forall_and]
    exact (and_iff_left fun hlt => absurd hle (not_le.mpr hlt)).symm
  · simp only [together_comm va.startTime startTime, add_comm (afterStart va.startTime _ _)]
    rw [together_eq_iff hgrant.lockup.ordered hle, together_eq_iff hgrant.vesting.ordered hle,
      ← forall_and]
    exact (and_iff_right fun hlt => absurd hle (not_le.mpr hlt)).symm

theorem addGrant_earlier_start_iff
    (hadd : va.addGrant delegated (min startTime va.startTime) lockupPeriods vestingPeriods coins =
      some va') :
    AddsGrant va startTime lockupPeriods vestingPeriods va' ↔
      (startTime < va.startTime → QuietAt va.startTime va.lockupPeriods va.vestingPeriods) ∧
      (va.startTime < startTime → coins = 0) := by
  rcases le_or_gt startTime va.startTime with hle | hlt
  · rw [min_eq_left hle] at hadd
    rw [addGrant_own_start_iff h hgrant hadd]
    exact and_congr_right' (by simp [not_lt.mpr hle])
  · rw [min_eq_right hlt.le] at hadd
    rw [addGrant_addsGrant_iff h hgrant (hgrant.earlier h.start hlt.le) hadd,
      together_moved_iff hgrant.lockup.ordered hlt, together_moved_iff hgrant.vesting.ordered hlt,
      hgrant.lockupTotal, hgrant.vestingTotal]
    simp [hlt, not_lt.mpr hlt.le]

end

/-! ## The keeper -/

section

variable {S : Type} {cfg : Config S} {st st' : ChainState S} {u : Unit}

/-- A merged grant adds its own schedules to those of the account exactly if it does not start after
the account, or has no coins, and the account releases nothing at its start if the grant starts
earlier. Merged at its own start it may also start later. -/
theorem applyVestingSchedule_addsGrant_iff {funder funded : Address}
    {coins : Coins} {startTime : Int} {lockupPeriods vestingPeriods : Periods} {merge : Bool}
    (hva : st.vestingAccount funded = some va) (honTime : OnTime va)
    (hgrant : Timed startTime lockupPeriods vestingPeriods coins)
    (h : (applyVestingSchedule cfg funder funded coins startTime lockupPeriods vestingPeriods
      merge).run st = .ok u st') :
    (∃ va', st'.vestingAccount funded = some va' ∧
      (AddsGrant va startTime lockupPeriods vestingPeriods va' ↔
        (startTime < va.startTime → QuietAt va.startTime va.lockupPeriods va.vestingPeriods) ∧
        (va.startTime < startTime → coins = 0))) ∧
    (∀ delegated va', va.addGrant delegated startTime lockupPeriods vestingPeriods coins =
        some va' →
      (AddsGrant va startTime lockupPeriods vestingPeriods va' ↔
        (startTime < va.startTime → QuietAt va.startTime va.lockupPeriods va.vestingPeriods) ∧
        (va.startTime < startTime → QuietAt startTime lockupPeriods vestingPeriods))) := by
  obtain ⟨⟨va', heffect, _⟩, _⟩ := applyVestingSchedule_effect h
  refine ⟨⟨va', heffect.account', ?_⟩, fun delegated vc hadd =>
    addGrant_own_start_iff honTime hgrant hadd⟩
  have hchange := heffect.change
  rw [hva] at hchange
  cases hchange with
  | merge _ _ hadd => exact addGrant_earlier_start_iff honTime hgrant hadd

end

def tenLater : Periods := [⟨100, Tally.single .islm 10⟩]

def accountFrom (startTime : Int) : ClawbackVestingAccount :=
  newClawbackVestingAccount 1 (Tally.single .islm 10) startTime tenLater tenLater

def stateOf (va : ClawbackVestingAccount) : ChainState Unit :=
  genesis.setAccount 2 ⟨1, 0, .clawback 0 va⟩

def grantAt100 : ModuleM Unit Unit :=
  applyVestingSchedule localConfig 1 2 (Tally.single .islm 10) 100 tenLater tenLater true

theorem tenLater_timed (hlo : 0 ≤ startTime) (hhi : startTime < 2 ^ 62) :
    Timed startTime tenLater tenLater (Tally.single .islm 10) := by
  have htimely : Timely startTime tenLater := by
    refine ⟨by simp [tenLater], fun time hmem => ?_⟩
    obtain rfl : time = startTime + 100 := by simpa [tenLater] using hmem
    exact ⟨by omega, by omega⟩
  exact ⟨⟨by omega, by omega⟩, htimely, htimely, by simp [tenLater], by simp [tenLater]⟩

theorem grantAt100_added :
    ∃ va', (finalState (grantAt100.run (stateOf (accountFrom 150)))).vestingAccount 2 = some va' ∧
      AddsGrant (accountFrom 150) 100 tenLater tenLater va' := by
  have honTime : OnTime (accountFrom 150) :=
    ⟨tenLater_timed (by decide) (by decide), by decide, by decide⟩
  have hrun : grantAt100.run (stateOf (accountFrom 150)) =
      .ok () (finalState (grantAt100.run (stateOf (accountFrom 150)))) :=
    rfl
  obtain ⟨⟨va', hva', hadds⟩, _⟩ := applyVestingSchedule_addsGrant_iff rfl honTime
    (tenLater_timed (by decide) (by decide)) hrun
  exact ⟨va', hva', hadds.mpr ⟨fun _ => ⟨by decide, by decide⟩, fun h => absurd h (by decide)⟩⟩

/-- Its unlocking times wrap around twice and end at 10. -/
def wrappedTwice : Periods :=
  [⟨2 ^ 63 - 1, Tally.single .islm 10⟩, ⟨2 ^ 63 - 1, Tally.single .islm 10⟩,
    ⟨12, Tally.single .islm 10⟩]

def wrappedGrant : ModuleM Unit Unit :=
  applyVestingSchedule localConfig 1 2 (Tally.single .islm 30) 0 wrappedTwice
    [⟨5, Tally.single .islm 30⟩] true

def vestedEarly : ClawbackVestingAccount :=
  newClawbackVestingAccount 1 (Tally.single .islm 10) 0 tenLater [⟨5, Tally.single .islm 10⟩]

/-- The coins of the later grant are unlocked 50 seconds early; with the wrapped grant the ten coins
of the account are unlocked 90 seconds early. -/
theorem grant_early :
    (∃ st' va', grantAt100.run (stateOf (accountFrom 0)) = .ok () st' ∧
      st'.vestingAccount 2 = some va' ∧
      va'.getUnlockedCoins 150 = Tally.single .islm 20 ∧
      (accountFrom 0).getUnlockedCoins 150 = Tally.single .islm 10 ∧
      readGrant 100 tenLater 150 = 0 ∧
      ¬ AddsGrant (accountFrom 0) 100 tenLater tenLater va') ∧
    ∃ st' va', wrappedGrant.run (stateOf vestedEarly) = .ok () st' ∧
      st'.vestingAccount 2 = some va' ∧ va'.getUnlockedCoins 10 = Tally.single .islm 40 ∧
      vestedEarly.getUnlockedCoins 10 = 0 ∧
        readGrant 0 wrappedTwice 10 = Tally.single .islm 30 := by
  refine ⟨⟨_, _, rfl, rfl, by decide +kernel, by decide +kernel, by decide +kernel, fun h => ?_⟩,
    _, _, rfl, rfl, by decide +kernel, by decide +kernel, by decide +kernel⟩
  exact absurd (h 150).1 (by decide +kernel)

end Haqq.Vesting
