import Haqq.Vesting.Account

/-!
# Reading any schedule

What `ReadSchedule` gives for periods of any lengths, also if the event times wrap around in an
`int64`: at most the coins of the periods, and never less at a later time.  An account that releases
its original vesting on both schedules is `Balanced`, as `Validate` demands.

* `validate_iff` says what a valid account is, `readSchedule_eq_total_take` what is read of it.
* `lockedCoins_spec`: what a valid account keeps locked.
-/

namespace Haqq.Vesting

open Lib Lib.Schedule

variable {elapsed startTime endTime t t' : Int} {periods : Periods} {coins : Coins}

@[simp] theorem readPeriods_nil (elapsed t : Int) : readPeriods elapsed [] t = 0 := rfl

theorem readPeriods_cons (elapsed t : Int) (p : Period) (ps : Periods) :
    readPeriods elapsed (p :: ps) t =
      if t < int64 (elapsed + p.length) then 0
      else p.amount + readPeriods (int64 (elapsed + p.length)) ps t := rfl

theorem readPeriods_le_total (elapsed t : Int) (ps : Periods) :
    readPeriods elapsed ps t ≤ total ps := by
  induction ps generalizing elapsed with
  | nil => exact le_rfl
  | cons p ps ih =>
    rw [readPeriods_cons, total_cons]
    split
    · exact Tally.zero_le _
    · exact add_le_add le_rfl (ih _)

theorem readPeriods_mono (elapsed : Int) (ps : Periods) (ht : t ≤ t') :
    readPeriods elapsed ps t ≤ readPeriods elapsed ps t' := by
  induction ps generalizing elapsed with
  | nil => exact le_rfl
  | cons p ps ih =>
    rw [readPeriods_cons, readPeriods_cons]
    split
    · exact Tally.zero_le _
    · rw [if_neg (by omega)]
      exact add_le_add le_rfl (ih _)

theorem readSchedule_le (htotal : total periods = coins) (t : Int) :
    readSchedule startTime endTime periods coins t ≤ coins := by
  unfold readSchedule
  split
  · exact Tally.zero_le _
  · split
    · exact le_rfl
    · rw [← htotal]
      exact readPeriods_le_total _ _ _

theorem readSchedule_mono (htotal : total periods = coins) (ht : t ≤ t') :
    readSchedule startTime endTime periods coins t ≤
      readSchedule startTime endTime periods coins t' := by
  by_cases hstart : t ≤ startTime
  · rw [readSchedule, if_pos hstart]
    exact Tally.zero_le _
  · by_cases hend : endTime ≤ t'
    · have hlast : readSchedule startTime endTime periods coins t' = coins := by
        rw [readSchedule, if_neg (by omega), if_pos hend]
      rw [hlast]
      exact readSchedule_le htotal t
    · rw [readSchedule, readSchedule, if_neg hstart, if_neg (by omega), if_neg (by omega),
        if_neg hend]
      exact readPeriods_mono _ _ ht

theorem readPeriods_eq_total_take (elapsed t : Int) (ps : Periods) :
    readPeriods elapsed ps t = total (ps.take (countPeriods elapsed ps t)) := by
  induction ps generalizing elapsed with
  | nil => rfl
  | cons p ps ih =>
    simp only [readPeriods_cons, countPeriods]
    split
    · rfl
    · rw [List.take_succ_cons, total_cons, ih]

theorem readPeriods_take_append (elapsed : Int) {now : Int} (ps rest : Periods) (ht : now ≤ t) :
    readPeriods elapsed (ps.take (countPeriods elapsed ps now) ++ rest) t =
      total (ps.take (countPeriods elapsed ps now)) +
        readPeriods (ClawbackVestingAccount.scheduleEnd elapsed
          (ps.take (countPeriods elapsed ps now))) rest t := by
  induction ps generalizing elapsed with
  | nil => simp [ClawbackVestingAccount.scheduleEnd]
  | cons p ps ih =>
    simp only [countPeriods]
    split
    · simp [ClawbackVestingAccount.scheduleEnd]
    · rw [List.take_succ_cons, List.cons_append, readPeriods_cons, if_neg (by omega), ih,
        total_cons, add_assoc]
      rfl

theorem lt_of_drop_countPeriods (elapsed now : Int) {ps rest : Periods} {p : Period}
    (h : ps.drop (countPeriods elapsed ps now) = p :: rest) :
    now < int64 (ClawbackVestingAccount.scheduleEnd elapsed
      (ps.take (countPeriods elapsed ps now)) + p.length) := by
  induction ps generalizing elapsed with
  | nil => simp at h
  | cons q ps ih =>
    simp only [countPeriods] at h ⊢
    split at h
    · rename_i hlt
      cases h
      simp [ClawbackVestingAccount.scheduleEnd, hlt]
    · rename_i hge
      rw [if_neg hge, List.take_succ_cons]
      exact ih _ h

theorem countPeriods_congr {ps qs : Periods} (h : qs.map Period.length = ps.map Period.length)
    (elapsed t : Int) : countPeriods elapsed qs t = countPeriods elapsed ps t := by
  induction qs generalizing ps elapsed with
  | nil => rw [List.map_eq_nil_iff.mp h.symm]
  | cons q qs ih =>
    cases ps with
    | nil => simp at h
    | cons p ps =>
      simp only [List.map_cons, List.cons.injEq] at h
      simp only [countPeriods, h.1, ih h.2]

theorem readPeriods_add {ps qs rs : Periods} (h : Splits ps qs rs) (elapsed t : Int) :
    readPeriods elapsed qs t + readPeriods elapsed rs t = readPeriods elapsed ps t := by
  induction h generalizing elapsed with
  | nil => rfl
  | cons hq hr hamount _ ih =>
    simp only [readPeriods_cons, hq, hr]
    split
    · exact add_zero 0
    · rw [← ih, ← hamount]
      exact add_add_add_comm _ _ _ _

theorem readPeriods_le_of_splits {ps qs rs : Periods} (h : Splits ps qs rs) (elapsed t : Int) :
    readPeriods elapsed qs t ≤ readPeriods elapsed ps t := by
  intro d
  rw [← readPeriods_add h, Tally.get_add]
  exact Nat.le_add_right _ _

theorem scheduleEnd_congr {ps qs : Periods} (h : qs.map Period.length = ps.map Period.length)
    (startTime : Int) :
    ClawbackVestingAccount.scheduleEnd startTime qs =
      ClawbackVestingAccount.scheduleEnd startTime ps := by
  unfold ClawbackVestingAccount.scheduleEnd
  rw [← @List.foldl_map _ _ _ Period.length (fun time length => int64 (time + length)) qs,
    ← @List.foldl_map _ _ _ Period.length (fun time length => int64 (time + length)) ps, h]

theorem readSchedule_eq_total_take (htotal : total periods = coins) (t : Int) :
    readSchedule startTime endTime periods coins t =
      total (periods.take (readPastPeriodCount startTime endTime periods t)) := by
  unfold readSchedule readPastPeriodCount
  split
  · rfl
  · split
    · rw [List.take_length, htotal]
    · exact readPeriods_eq_total_take _ _ _

theorem total_extendFirst (d : Int) (ps : Periods) : total (extendFirst d ps) = total ps := by
  cases ps <;> rfl

theorem total_disjunctLoop (timeA timeB endTime : Int) (as bs : Periods) :
    total (disjunctLoop timeA timeB endTime as bs).2 = total as + total bs := by
  fun_induction disjunctLoop timeA timeB endTime as bs with
  | case1 => simp
  | case2 _ _ _ a as _ _ _ heq ih =>
    rw [heq] at ih
    rw [total_cons, ih, total_cons, add_assoc]
  | case3 _ _ _ b bs _ _ _ heq ih =>
    rw [heq] at ih
    rw [total_cons, ih, total_cons, add_left_comm]
  | case4 _ _ _ a as b bs _ _ _ _ _ heq ih =>
    rw [heq] at ih
    rw [total_cons, ih, total_cons a as, add_assoc]
  | case5 _ _ _ a as b bs _ _ _ _ _ _ heq ih =>
    rw [heq] at ih
    rw [total_cons, ih, total_cons b bs, add_left_comm]
  | case6 _ _ _ a as b bs _ _ _ _ _ _ heq ih =>
    rw [heq] at ih
    rw [total_cons, ih, total_cons a as, total_cons b bs]
    exact add_add_add_comm _ _ _ _

/-! ## Balanced accounts -/

theorem coinEq_iff {x y : Coins} : coinEq x y = true ↔ x = y := by
  simp only [coinEq, Bool.and_eq_true, decide_eq_true_eq]
  exact ⟨fun h => le_antisymm h.1 h.2, fun h => h ▸ ⟨le_rfl, le_rfl⟩⟩

namespace ClawbackVestingAccount

variable {va : ClawbackVestingAccount}

theorem getUnlockedCoins_of_lt (h : va.startTime < t) :
    va.getUnlockedCoins t =
      if va.endTime ≤ t then va.originalVesting
      else readPeriods va.startTime va.lockupPeriods t :=
  if_neg (not_le.mpr h)

/-- Each schedule releases the original vesting, no more and no less. -/
structure Balanced (va : ClawbackVestingAccount) : Prop where
  lockup : total va.lockupPeriods = va.originalVesting
  vesting : total va.vestingPeriods = va.originalVesting

theorem validate_iff : va.validate = .ok () ↔
    va.startTime < va.endTime ∧ scheduleEnd va.startTime va.lockupPeriods ≤ va.endTime ∧
      scheduleEnd va.startTime va.vestingPeriods ≤ va.endTime ∧ 0 ≤ va.endTime ∧
      va.Balanced ∧ va.originalVesting ≠ 0 ∧ va.delegatedVesting ≤ va.originalVesting := by
  have hbalanced : va.Balanced ↔
      total va.lockupPeriods = va.originalVesting ∧ total va.vestingPeriods = va.originalVesting :=
    ⟨fun h => ⟨h.lockup, h.vesting⟩, fun h => ⟨h.1, h.2⟩⟩
  rw [hbalanced, ← coinEq_iff, ← coinEq_iff, ne_eq, ← Tally.isZero_iff]
  unfold validate validateBase
  split_ifs with hstart hlockupEnd hlockup hvestingEnd hvesting hend hempty hdelegated <;>
    simp_all [pure, Except.pure]

theorem of_validate (h : va.validate = .ok ()) :
    scheduleEnd va.startTime va.lockupPeriods ≤ va.endTime ∧
      total va.lockupPeriods = va.originalVesting ∧
      scheduleEnd va.startTime va.vestingPeriods ≤ va.endTime ∧
      total va.vestingPeriods = va.originalVesting := by
  obtain ⟨_, hlockupEnd, hvestingEnd, _, hbalanced, _⟩ := validate_iff.mp h
  exact ⟨hlockupEnd, hbalanced.lockup, hvestingEnd, hbalanced.vesting⟩

theorem balanced_of_validate (h : va.validate = .ok ()) : va.Balanced :=
  ⟨(of_validate h).2.1, (of_validate h).2.2.2⟩

theorem balanced_new {coins : Coins} {lockup vesting : Periods} (hlockup : total lockup = coins)
    (hvesting : total vesting = coins) (funder : Address) (startTime : Int) :
    (newClawbackVestingAccount funder coins startTime lockup vesting).Balanced :=
  ⟨(total_extendFirst _ lockup).trans hlockup, (total_extendFirst _ vesting).trans hvesting⟩

theorem Balanced.addGrant (h : va.Balanced) {delegated coins : Coins} {startTime : Int}
    {lockup vesting : Periods} {va' : ClawbackVestingAccount} (hlockup : total lockup = coins)
    (hvesting : total vesting = coins)
    (hgrant : va.addGrant delegated startTime lockup vesting coins = some va') : va'.Balanced := by
  simp only [ClawbackVestingAccount.addGrant] at hgrant
  split at hgrant
  · cases hgrant
  · cases hgrant
    constructor
    · rw [← h.lockup, ← hlockup]
      exact total_disjunctLoop _ _ _ _ _
    · rw [← h.vesting, ← hvesting]
      exact total_disjunctLoop _ _ _ _ _

namespace Balanced

section

variable (h : va.Balanced)

include h

theorem vested_le (t : Int) : va.getVestedCoins t ≤ va.originalVesting :=
  readSchedule_le h.vesting t

theorem unlocked_le (t : Int) : va.getUnlockedCoins t ≤ va.originalVesting :=
  readSchedule_le h.lockup t

theorem vested_mono (ht : t ≤ t') : va.getVestedCoins t ≤ va.getVestedCoins t' :=
  readSchedule_mono h.vesting ht

theorem unlocked_mono (ht : t ≤ t') : va.getUnlockedCoins t ≤ va.getUnlockedCoins t' :=
  readSchedule_mono h.lockup ht

theorem getVestingCoins_eq (t : Int) :
    va.getVestingCoins t = some (va.originalVesting - va.getVestedCoins t) :=
  if_pos (h.vested_le t)

theorem getLockedUpCoins_eq (t : Int) :
    va.getLockedUpCoins t = some (va.originalVesting - va.getUnlockedCoins t) :=
  if_pos (h.unlocked_le t)

theorem getLockedUpCoins_eq_total_drop (t : Int) :
    va.getLockedUpCoins t = some (total (va.lockupPeriods.drop
      (readPastPeriodCount va.startTime va.endTime va.lockupPeriods t))) := by
  have hsplit := total_append
    (va.lockupPeriods.take (readPastPeriodCount va.startTime va.endTime va.lockupPeriods t))
    (va.lockupPeriods.drop (readPastPeriodCount va.startTime va.endTime va.lockupPeriods t))
  rw [List.take_append_drop, h.lockup, ← readSchedule_eq_total_take h.lockup t] at hsplit
  rw [h.getLockedUpCoins_eq]
  refine congrArg some (Tally.ext fun d => ?_)
  have hd := congrArg (Tally.get · d) hsplit
  simp only [Tally.get_add] at hd
  rw [Tally.get_sub, getUnlockedCoins]
  omega

/-! ## The locked coins -/

theorem lockedCoins_get (t : Int) (d : Denom) :
    (va.lockedCoins t).get d =
      (va.originalVesting.get d - (va.getVestedCoins t).get d) +
        (((va.getVestedCoins t).get d -
          min ((va.getUnlockedCoins t).get d) ((va.getVestedCoins t).get d)) -
            (va.delegatedFree + va.delegatedVesting).get d) := by
  have hle := h.vested_le t
  have hfree : va.getUnlockedVestedCoins t +
      min (va.delegatedFree + va.delegatedVesting) (va.getLockedUpVestedCoins t) ≤
        va.originalVesting := by
    intro k
    have hk := hle k
    simp only [getUnlockedVestedCoins, getLockedUpVestedCoins, Tally.get_add, Tally.get_min,
      Tally.get_sub]
    omega
  have hd := hle d
  simp only [lockedCoins, if_pos hfree]
  simp only [getUnlockedVestedCoins, getLockedUpVestedCoins, Tally.get_add, Tally.get_min,
    Tally.get_sub]
  omega

theorem unvested_le_locked (t : Int) :
    va.originalVesting - va.getVestedCoins t ≤ va.lockedCoins t := by
  intro d
  rw [h.lockedCoins_get, Tally.get_sub]
  exact Nat.le_add_right _ _

theorem locked_le_original (t : Int) : va.lockedCoins t ≤ va.originalVesting := by
  intro d
  have hle := h.vested_le t d
  rw [h.lockedCoins_get]
  omega

/-- Coins that vest before they unlock only move from the unvested ones to the locked up ones. -/
theorem locked_antitone (ht : t ≤ t') : va.lockedCoins t' ≤ va.lockedCoins t := by
  intro d
  have hvested := h.vested_mono ht d
  have hunlocked := h.unlocked_mono ht d
  have hle := h.vested_le t' d
  rw [h.lockedCoins_get, h.lockedCoins_get]
  omega

end

end Balanced

def tracking (va : ClawbackVestingAccount) (free vesting : Coins) : ClawbackVestingAccount :=
  { va with delegatedFree := free, delegatedVesting := vesting }

/-- **What a valid account keeps locked**: the unvested coins and the locked up vested ones beyond
the delegations; and time only unlocks. -/
theorem lockedCoins_spec (hvalid : va.validate = .ok ()) (free vesting : Coins) (t : Int) :
    ∃ unvested, va.getVestingCoins t = some unvested ∧
      (∀ d, (((va.tracking free vesting).lockedCoins t).get d : Int) =
        unvested.get d +
          max 0 ((va.getLockedUpVestedCoins t).get d - (free.get d + vesting.get d) : Int)) ∧
      unvested ≤ (va.tracking free vesting).lockedCoins t ∧
      (va.tracking free vesting).lockedCoins t ≤ va.originalVesting ∧
      ∀ t', t ≤ t' →
        (va.tracking free vesting).lockedCoins t' ≤ (va.tracking free vesting).lockedCoins t := by
  have hva := balanced_of_validate hvalid
  have htracking : (va.tracking free vesting).Balanced := ⟨hva.lockup, hva.vesting⟩
  refine ⟨_, hva.getVestingCoins_eq t, fun d => ?_, htracking.unvested_le_locked t,
    htracking.locked_le_original t, fun t' ht => htracking.locked_antitone ht⟩
  rw [htracking.lockedCoins_get]
  simp only [tracking, getLockedUpVestedCoins, getUnlockedVestedCoins, getVestedCoins,
    getUnlockedCoins, Tally.get_sub, Tally.get_min, Tally.get_add]
  omega

end ClawbackVestingAccount

open ClawbackVestingAccount

def tenCoins : ClawbackVestingAccount :=
  newClawbackVestingAccount 1 (Tally.single .islm 10) 0 [⟨10, Tally.single .islm 10⟩]
    [⟨5, Tally.single .islm 4⟩, ⟨5, Tally.single .islm 6⟩]

theorem tenCoins_locked :
    tenCoins.validate = .ok () ∧ ∃ unvested, tenCoins.getVestingCoins 6 = some unvested ∧
      unvested.get .islm = 6 ∧
      (((tenCoins.tracking (Tally.single .islm 2) (Tally.single .islm 1)).lockedCoins 6).get .islm :
        Int) = 6 + max 0 (4 - (2 + 1)) := by
  have hvalid : tenCoins.validate = .ok () := by decide +kernel
  obtain ⟨unvested, hunvested, hlocked, _⟩ :=
    lockedCoins_spec hvalid (Tally.single .islm 2) (Tally.single .islm 1) 6
  have hsix : (tenCoins.getVestingCoins 6).map (·.get .islm) = some 6 := by decide +kernel
  have hfour : (tenCoins.getLockedUpVestedCoins 6).get .islm = 4 := by decide +kernel
  have hget : unvested.get .islm = 6 := by simpa [hunvested] using hsix
  refine ⟨hvalid, unvested, hunvested, hget, ?_⟩
  rw [hlocked, hget, hfour]
  rfl

end Haqq.Vesting
