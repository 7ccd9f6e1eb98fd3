import Haqq.Vesting.Effects
import Haqq.Vesting.Validity

/-!
# Grants are sound

A message that passes `ValidateBasic` and whose times fit into an `int64` gives a sound account,
whether it creates the account or is merged into a sound one.  `MsgGrant.checked` collects what the
handlers know of such a message, `grant_sound` and `grant_intact` are about both handlers and about
the redemption of liquid tokens, `clawbackChange_sound` and `clawbackChange_intact` about clawbacks.
-/

namespace Haqq.Vesting

open Lib Lib.Schedule

def maxInt64 : Int := 2 ^ 63 - 1

theorem window_int64 : Window 0 maxInt64 := by
  constructor <;> simp [maxInt64]

/-- The times of a message are after 1970 and fit into an `int64`. -/
def MsgGrant.InRange (msg : MsgGrant) : Prop :=
  0 ≤ msg.startTime ∧ msg.startTime + duration msg.lockupPeriods < 2 ^ 63 ∧
    msg.startTime + duration msg.vestingPeriods < 2 ^ 63

variable {ps : Periods}

theorem ordered_of_all (h : ps.all (fun p => decide (1 ≤ p.length)) = true) : Ordered ps := by
  intro p hp
  have := List.all_eq_true.mp h p hp
  simp only [decide_eq_true_eq] at this
  omega

theorem duration_pos_of_all (h : ps.all (fun p => decide (1 ≤ p.length)) = true) (hne : ps ≠ []) :
    0 < duration ps := by
  cases ps with
  | nil => exact absurd rfl hne
  | cons p ps =>
    simp only [List.all_cons, Bool.and_eq_true, decide_eq_true_eq] at h
    have := (ordered_of_all h.2).duration_nonneg
    rw [duration_cons]
    omega

structure MsgGrant.Checked (msg : MsgGrant) : Prop where
  lockup : Fits 0 maxInt64 msg.startTime msg.lockup (total msg.vesting)
  vesting : Fits 0 maxInt64 msg.startTime msg.vesting (total msg.vesting)
  pos : 0 < duration msg.lockup ∨ 0 < duration msg.vesting
  coins : total msg.vesting ≠ 0

theorem MsgGrant.total_vesting_ne_zero (msg : MsgGrant)
    (hnonzero : (total msg.lockupPeriods).isZero = false ∨
      (total msg.vestingPeriods).isZero = false)
    (hcoins : coinEq (total msg.vesting) (total msg.lockup) = true) : total msg.vesting ≠ 0 := by
  intro hzero
  have hlockup : total msg.lockup = 0 := (coinEq_iff.mp hcoins).symm.trans hzero
  unfold MsgGrant.lockup at hlockup
  split at hlockup
  · -- the default schedule has the coins of the other one
    rename_i hdefault
    simp_all
  · rename_i hgiven
    rw [MsgGrant.vesting, MsgGrant.lockup, if_neg hgiven] at hzero
    rcases hnonzero with hne | hne
    · simp [hlockup] at hne
    · simp_all

theorem MsgGrant.checked {msg : MsgGrant} (hbasic : msg.validateBasic = true)
    (hcoins : coinEq (total msg.vesting) (total msg.lockup) = true) (hrange : msg.InRange) :
    msg.Checked := by
  obtain ⟨hstart, hlockupEnd, hvestingEnd⟩ := hrange
  simp only [MsgGrant.validateBasic, Bool.and_eq_true, Bool.not_eq_true',
    Bool.and_eq_false_iff] at hbasic
  obtain ⟨⟨⟨⟨_, hlockupAll⟩, hvestingAll⟩, hnonzero⟩, _⟩ := hbasic
  have hlockup : Ordered msg.lockup ∧ msg.startTime + duration msg.lockup ≤ maxInt64 := by
    unfold MsgGrant.lockup
    split
    · have := (ordered_of_all hlockupAll).duration_nonneg
      exact ⟨by simp, by simp [maxInt64]; omega⟩
    · exact ⟨ordered_of_all hlockupAll, by simp only [maxInt64]; omega⟩
  have hvesting : Ordered msg.vesting ∧ msg.startTime + duration msg.vesting ≤ maxInt64 := by
    unfold MsgGrant.vesting
    split
    · have := (ordered_of_all hlockupAll).duration_nonneg
      exact ⟨by simp, by simp [maxInt64]; omega⟩
    · exact ⟨ordered_of_all hvestingAll, by simp only [maxInt64]; omega⟩
  refine ⟨⟨hlockup.1, hstart, hlockup.2, (coinEq_iff.mp hcoins).symm⟩,
    ⟨hvesting.1, hstart, hvesting.2, rfl⟩, ?_, ?_⟩
  rotate_left
  · exact msg.total_vesting_ne_zero hnonzero hcoins
  -- a schedule of the message that is not empty is used as it is
  by_cases hempty : msg.lockupPeriods = []
  · have hne : msg.vestingPeriods ≠ [] := by
      intro hvestingEmpty
      simp [hempty, hvestingEmpty] at hnonzero
    right
    rw [MsgGrant.vesting, if_neg (by simp [hne])]
    exact duration_pos_of_all hvestingAll hne
  · left
    rw [MsgGrant.lockup, if_neg (by simp [hempty])]
    exact duration_pos_of_all hlockupAll hempty

variable {lo hi : Int} {before : Option ClawbackVestingAccount} {va' : ClawbackVestingAccount}

theorem grant_sound (w : Window lo hi) {funder : Address} {coins : Coins} {startTime : Int}
    {mergeStart : ClawbackVestingAccount → Int} {lockupPeriods vestingPeriods : Periods}
    (h : Grant funder coins startTime mergeStart lockupPeriods vestingPeriods before va')
    (hbefore : ∀ va, before = some va → Sound lo hi va)
    (hlockup : Fits lo hi startTime lockupPeriods coins)
    (hvesting : Fits lo hi startTime vestingPeriods coins)
    (hpos : 0 < duration lockupPeriods ∨ 0 < duration vestingPeriods)
    (hmerge : ∀ va, before = some va → lo ≤ mergeStart va ∧ mergeStart va ≤ startTime) :
    Sound lo hi va' := by
  cases h with
  | create delegated =>
    have hsound := (newClawbackVestingAccount_sound w funder hlockup hvesting hpos).1
    exact { hsound with }
  | merge delegated _ hadd =>
    obtain ⟨hlo, hle⟩ := hmerge _ rfl
    exact (addGrant_sound w (hbefore _ rfl) (hlockup.earlier hlo hle) (hvesting.earlier hlo hle)
      hpos hadd).1

theorem grant_intact {funder : Address} {coins : Coins} {startTime : Int}
    {mergeStart : ClawbackVestingAccount → Int} {lockupPeriods vestingPeriods : Periods}
    (h : Grant funder coins startTime mergeStart lockupPeriods vestingPeriods before va')
    (hcoins : coins ≠ 0) : Intact va' := by
  cases h with
  | create delegated => exact ⟨hcoins, rfl⟩
  | merge delegated _ hadd =>
    simp only [ClawbackVestingAccount.addGrant] at hadd
    split at hadd
    · cases hadd
    · cases hadd
      exact ⟨fun hzero => hcoins (Tally.add_eq_zero.mp hzero).2, rfl⟩

section

variable {now : Int} (w : Window lo hi) (h : ClawbackChange now before va')
  (hsafe : ∀ va, before = some va → va.getVestingCoins now = some 0 ∨ Retains va now)

include w h hsafe

theorem clawbackChange_sound (hbefore : ∀ va, before = some va → Sound lo hi va) :
    Sound lo hi va' := by
  obtain ⟨va, coins, rfl, hcompute, hcoins⟩ := h
  rcases hsafe va rfl with hnone | hretains
  · simp [ClawbackVestingAccount.computeClawback, hnone] at hcompute
    simp [← hcompute.2] at hcoins
  · exact computeClawback_sound w (hbefore va rfl) hcompute hretains

theorem clawbackChange_intact
    (hbefore : ∀ va, before = some va → Sound lo hi va ∧ Intact va) : Intact va' := by
  obtain ⟨va, coins, rfl, hcompute, hcoins⟩ := h
  obtain ⟨hsound, hintact⟩ := hbefore va rfl
  rcases hsafe va rfl with hnone | hretains
  · simp [ClawbackVestingAccount.computeClawback, hnone] at hcompute
    simp [← hcompute.2] at hcoins
  · have hback := hsound.scheduled.computeClawback w hcompute
    exact ⟨hback.originalVesting ▸ hretains.1,
      hback.delegatedVesting.trans hintact.delegatedVesting⟩

end

end Haqq.Vesting
