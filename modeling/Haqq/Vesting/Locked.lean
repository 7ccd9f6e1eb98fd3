import Haqq.Vesting.Merge

/-!
# Locked coins

What an account keeps locked is what has not vested, and of the vested but locked up coins those
that are not delegated.
-/

namespace Haqq.Vesting

open Lib Lib.Schedule

variable {lo hi t : Int} {va va' : ClawbackVestingAccount}

theorem nonneg_amounts (ps : Periods) : ∀ p ∈ ps, (0 : Coins) ≤ p.amount :=
  fun p _ => Tally.zero_le p.amount

theorem afterStart_le_value (startTime : Int) (ps : Periods) :
    afterStart startTime ps t ≤ value startTime ps t := by
  unfold afterStart
  split
  · exact Tally.zero_le _
  · exact le_rfl

theorem afterStart_add_le_together {startA startB startB' : Int} (periodsA periodsB : Periods)
    (hle : startB' ≤ startB) :
    afterStart startA periodsA t + afterStart startB periodsB t ≤
      together startA startB' periodsA periodsB t := by
  unfold together
  split
  · rw [afterStart, afterStart, if_pos (by omega), if_pos (by omega), add_zero]
  · exact add_le_add (afterStart_le_value _ _) ((afterStart_le_value _ _).trans
      (value_le_of_earlier (nonneg_amounts _) hle t))

theorem Fits.timed (w : Window lo hi) {startTime : Int} {lockup vesting : Periods} {coins : Coins}
    (hlockup : Fits lo hi startTime lockup coins) (hvesting : Fits lo hi startTime vesting coins) :
    Timed startTime lockup vesting coins :=
  ⟨hlockup.inInt64_start w, hlockup.timely w, hvesting.timely w, hlockup.total, hvesting.total⟩

theorem Scheduled.onTime (w : Window lo hi) (h : Scheduled lo hi va) : OnTime va :=
  ⟨h.lockup.timed w h.vesting, h.lockupEnd, h.vestingEnd⟩

theorem Scheduled.exists_computeClawback (h : Scheduled lo hi va) (t : Int) :
    ∃ va' coins, va.computeClawback t = some (va', coins) := by
  unfold ClawbackVestingAccount.computeClawback
  rw [h.balanced.getVestingCoins_eq]
  exact ⟨_, _, rfl⟩

theorem Scheduled.withDelegated (h : Scheduled lo hi va) (free vesting : Coins) :
    Scheduled lo hi { va with delegatedFree := free, delegatedVesting := vesting } :=
  ⟨h.lockup, h.vesting, h.lockupEnd, h.vestingEnd, h.high⟩

section

variable {delegated coins : Coins} {startTime grantStart : Int}
  {lockupPeriods vestingPeriods : Periods} (w : Window lo hi) (h : Scheduled lo hi va)
  (hlockup : Fits lo hi startTime lockupPeriods coins)
  (hvesting : Fits lo hi startTime vestingPeriods coins) (hlo : lo ≤ grantStart)
  (hle : grantStart ≤ startTime)
  (hadd : va.addGrant delegated grantStart lockupPeriods vestingPeriods coins = some va')

include w h hlockup hvesting hlo hle hadd

theorem addGrant_le (t : Int) :
    va.getUnlockedCoins t ≤ va'.getUnlockedCoins t ∧
      va.getVestedCoins t + afterStart startTime vestingPeriods t ≤ va'.getVestedCoins t := by
  obtain ⟨hunlocked, hvested⟩ :=
    addGrant_reads (h.onTime w)
      ((hlockup.earlier hlo hle).timed w (hvesting.earlier hlo hle)) hadd t
  rw [hunlocked, hvested, h.getUnlockedCoins_eq w, h.getVestedCoins_eq w]
  refine ⟨le_trans ?_ (afterStart_add_le_together va.lockupPeriods lockupPeriods hle),
    afterStart_add_le_together va.vestingPeriods vestingPeriods hle⟩
  exact le_add_of_nonneg_right (Tally.zero_le _)

theorem addGrant_locked_le (hdelegated : va.delegatedFree + va.delegatedVesting = delegated)
    (t : Int) :
    va'.lockedCoins t ≤ va.lockedCoins t + coins := by
  obtain ⟨hmerged, hfree⟩ :=
    h.addGrant w (hlockup.earlier hlo hle) (hvesting.earlier hlo hle) hadd
  obtain ⟨hunlocked, hvested⟩ := addGrant_le w h hlockup hvesting hlo hle hadd t
  intro d
  have hunlockedD := hunlocked d
  have hvestedD := hvested d
  have hleD := hmerged.scheduled.balanced.vested_le t d
  rw [Tally.get_add, hmerged.scheduled.balanced.lockedCoins_get, h.balanced.lockedCoins_get, hfree,
    hmerged.delegatedVesting, hmerged.originalVesting, hdelegated, add_zero, Tally.get_add]
  rw [hmerged.originalVesting, Tally.get_add] at hleD
  rw [Tally.get_add] at hvestedD
  omega

end

namespace ClawedBack

variable {coins : Coins}

variable (w : Window lo hi) (hva : Scheduled lo hi va) (h : ClawedBack lo hi t va va' coins)

include w hva h

theorem vested_eq : va'.getVestedCoins t = va.getVestedCoins t := by
  rw [h.scheduled.getVestedCoins_eq w, afterStart, h.startTime, h.vestingPeriods]
  split
  · rename_i hle
    rw [hva.getVestedCoins_eq w, afterStart, if_pos hle]
  · rename_i hlt
    obtain ⟨htotal, hreached⟩ :=
      passed_of_timely (hva.vesting.timely w) hva.vestingEnd hva.vesting.total t
    rw [value_eq_total_of_events (ordered_take hva.vesting.ordered _) hreached, htotal]

theorem unlocked_get (d : Denom) :
    (va'.getUnlockedCoins t).get d =
      min ((va.getUnlockedCoins t).get d) ((va.getVestedCoins t).get d) := by
  rw [h.scheduled.getUnlockedCoins_eq w, hva.getUnlockedCoins_eq w, afterStart, afterStart,
    h.startTime]
  split
  · rfl
  · rename_i hlt
    have hcap : value va.startTime [⟨0, va.getVestedCoins t⟩] t = va.getVestedCoins t := by
      rw [value_cons_of_le (by simpa using (not_le.mp hlt).le), value_nil, add_zero]
    rw [h.unlocked t d, hcap]

theorem locked_add : va'.lockedCoins t + coins = va.lockedCoins t := by
  ext d
  have hle := h.vested_le d
  rw [Tally.get_add, h.scheduled.balanced.lockedCoins_get, hva.balanced.lockedCoins_get,
    h.vested_eq w hva,
    h.unlocked_get w hva, h.originalVesting, h.coins, h.delegatedFree, h.delegatedVesting,
    Tally.get_sub]
  omega

end ClawedBack

end Haqq.Vesting
