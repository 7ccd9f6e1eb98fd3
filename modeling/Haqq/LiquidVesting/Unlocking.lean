import Haqq.LiquidVesting.ValidAccounts

/-!
# Liquid vesting and the time of unlocking

Summed over all accounts and tokens, what is unlocked at a later time never grows, as long as no
redemption goes to an account that starts before the token: the redeemed periods are counted from
the start of the account when that is earlier.

* `liquidate_unlocked`, `redeem_unlocked` and `tokenStep_unlocked` compare the sums before and after
  one message, `unlocked_le_of_run` before and after a run.
* `SoundTokens` is what the first state has to satisfy: no schedule has a negative length or
  overflows.  Nothing that the messages do breaks it.
* `redeemToEarly_accelerates`: a redemption to an earlier account unlocks early, and so does the
  liquidation of a schedule whose length wraps around to one that is shorter than the account.
-/

namespace Haqq.LiquidVesting

open Lib Lib.Schedule Vesting Function

variable {S : Type} {cfg : Config S} {st st' : ChainState S}

def accountUnlocked (t : Int) : Option ClawbackVestingAccount → Nat
  | none => 0
  | some va => (va.getUnlockedCoins t).get .islm

def unlocked (st : ChainState S) (t : Int) : Nat :=
  ∑ addr, accountUnlocked t (st.vestingAccount addr)

def denomUnlocked (t : Int) : Option LiquidDenom → Nat
  | none => 0
  | some denom => (value denom.startTime denom.lockupPeriods t).get .islm

theorem denomUnlocked_some (t : Int) (denom : LiquidDenom) :
    denomUnlocked t (some denom) = (value denom.startTime denom.lockupPeriods t).get .islm := rfl

/-- The ids of liquid tokens are `uint64`. -/
def tokensUnlocked (st : ChainState S) (t : Int) : Nat :=
  ∑ id ∈ Finset.range (2 ^ 64),
    denomUnlocked t (st.modules.liquidVesting.denoms id)

def releasedBy (cfg : Config S) (st : ChainState S) (tx : Tx TokenMsg) : Nat :=
  match tx.msg, (tx.msg.handle (cfg.atTime tx.blockTime)).run st with
  | .redeem _ _ ⟨.liquid id, amount⟩, .ok _ _ =>
    match st.modules.liquidVesting.denoms id with
    | some denom =>
      if extractUpcomingPeriods denom.startTime denom.endTime denom.lockupPeriods tx.blockTime = []
      then (Tally.single denom.originalDenom amount).get .islm
      else 0
    | none => 0
  | _, _ => 0

def released (cfg : Config S) (st : ChainState S) (txs : List (Tx TokenMsg)) : Nat :=
  Run.total (tokenStep cfg) (releasedBy cfg) st txs

/-- A redemption into an existing vesting account goes to one that starts no earlier than the token
and has nothing to unlock at its start if that lies ahead. -/
def keepsStart (st : ChainState S) (tx : Tx TokenMsg) : Bool :=
  match tx.msg with
  | .redeem _ redeemTo ⟨.liquid id, _⟩ =>
    match st.modules.liquidVesting.denoms id, st.vestingAccount redeemTo with
    | some denom, some va =>
      decide (denom.startTime ≤ va.startTime) &&
        (decide (va.startTime < tx.blockTime) ||
          (value va.startTime va.lockupPeriods va.startTime).isZero)
    | _, _ => true
  | _ => true

/-! ## One message -/

theorem unlocked_of_kept {changed : Address} (t : Int) (h : AccountsKept {changed} st st') :
    unlocked st' t + accountUnlocked t (st.vestingAccount changed) =
      unlocked st t + accountUnlocked t (st'.vestingAccount changed) := by
  apply sum_add_of_eq_off (Finset.mem_univ changed)
  intro addr _ haddr
  rw [h.vesting addr (by simpa using haddr)]

theorem unlocked_of_kept_all (t : Int) (h : AccountsKept ∅ st st') :
    unlocked st' t = unlocked st t := by
  apply Finset.sum_congr rfl
  intro addr _
  rw [h.vesting addr (Set.notMem_empty addr)]

variable {lo hi : Int} {va : ClawbackVestingAccount} {t : Int}

theorem accountUnlocked_eq (w : Window lo hi) (h : Sound lo hi va) (ht : va.startTime < t) :
    accountUnlocked t (some va) = (value va.startTime va.lockupPeriods t).get .islm := by
  rw [accountUnlocked, h.getUnlockedCoins_eq w, afterStart, if_neg (by omega)]

theorem accountUnlocked_le (w : Window lo hi) (t : Int) (h : Sound lo hi va) :
    accountUnlocked t (some va) ≤ (value va.startTime va.lockupPeriods t).get .islm := by
  rw [accountUnlocked, h.getUnlockedCoins_eq w, afterStart]
  split
  · simp
  · exact le_rfl

variable {va' : ClawbackVestingAccount} {diff : Periods}

theorem liquidate_unlocked (w : Window lo hi) {liquidateFrom liquidateTo : Address} {amount : Coin}
    (hst : SoundState lo hi st) (hcounter : st.modules.liquidVesting.denomCounter < 2 ^ 64)
    (h : LiquidateEffect cfg liquidateFrom liquidateTo amount st st' va va' diff)
    (ht : cfg.blockTime ≤ t) :
    unlocked st' t + tokensUnlocked st' t ≤ unlocked st t + tokensUnlocked st t := by
  have hva := hst.accounts _ va h.account
  have hva' := h.liquidates.sound hva
  obtain ⟨hstart, _⟩ := h.liquidates.taken
  obtain ⟨hcarries, _⟩ := h.liquidates.soundPeriods w hva
  generalize hperiods : shortenFirst (currentPeriodShift va'.startTime cfg.blockTime
    va'.lockupPeriods) diff = periods at hcarries
  obtain ⟨hrunning, _⟩ := h.liquidates.running
  have haccounts := unlocked_of_kept t h.kept
  rw [h.account, h.account', accountUnlocked_eq w hva (by omega),
    accountUnlocked_eq w hva' (by omega)] at haccounts
  -- a token that had the id before is lost
  have htokens : tokensUnlocked st' t ≤
      tokensUnlocked st t + (value cfg.blockTime periods t).get .islm := by
    have hsum := sum_add_of_eq_off
      (f := fun id => denomUnlocked t (st.modules.liquidVesting.denoms id))
      (g := fun id => denomUnlocked t (st'.modules.liquidVesting.denoms id))
      (Finset.mem_range.mpr hcounter) fun id _ hne => by rw [h.denoms, update_of_ne hne]
    simp only [h.denoms, update_self, denomUnlocked_some] at hsum
    simp only [tokensUnlocked, h.denoms, ← hperiods]
    exact (Nat.le_add_right _ _).trans hsum.le
  have hsum := congrArg (fun x => x.get .islm) (hcarries.value t)
  simp only [Tally.get_add] at hsum
  omega

variable {now : Int}

theorem grant_unlocked (w : Window lo hi) {funder : Address} {coins : Coins} {startTime : Int}
    {before : Option ClawbackVestingAccount}
    (h : Grant funder coins startTime (fun va => min startTime va.startTime) diff [⟨0, coins⟩]
      before va') (hbefore : ∀ va, before = some va → Sound lo hi va)
    (hfits : Fits lo hi startTime diff coins) (hpos : 0 < duration diff) (ht : now ≤ t)
    (hstart : ∀ va, before = some va → startTime ≤ va.startTime ∧
      (now ≤ va.startTime → value va.startTime va.lockupPeriods va.startTime = 0)) :
    accountUnlocked t (some va') ≤
      accountUnlocked t before + (value startTime diff t).get .islm := by
  have hvesting : Fits lo hi startTime [⟨0, coins⟩] coins :=
    ⟨by simp, hfits.low, by simpa using hfits.le_hi, by simp⟩
  cases h with
  | create delegated =>
    obtain ⟨hsound, hlockup⟩ :=
      newClawbackVestingAccount_sound w funder hfits hvesting (.inl hpos)
    have hle := accountUnlocked_le w t hsound
    rw [hlockup] at hle
    exact hle.trans (Nat.le_add_left _ _)
  | @merge va va' delegated _ hadd =>
    have hva := hbefore va rfl
    obtain ⟨hle, hahead⟩ := hstart va rfl
    simp only [min_eq_left hle] at hadd
    obtain ⟨hsound, hstart', hvalue⟩ := addGrant_sound w hva hfits hvesting (.inl hpos) hadd
    have hunlocked := accountUnlocked_le w t hsound
    rw [hvalue t, Tally.get_add] at hunlocked
    by_cases hafter : va.startTime < t
    · rw [accountUnlocked_eq w hva hafter]
      exact hunlocked
    · -- before its start the account itself has unlocked nothing
      have hzero : value va.startTime va.lockupPeriods t = 0 := by
        rcases Int.lt_or_eq_of_le (Int.not_lt.mp hafter) with hlt | heq
        · exact value_of_lt hva.lockupOrdered hlt
        · rw [heq]
          exact hahead (by omega)
      rw [hzero, Tally.get_zero] at hunlocked
      omega

theorem extractUpcomingPeriods_eq_nil_congr (t₀ endTime now : Int) {ps qs : Periods}
    (h : qs.map Period.length = ps.map Period.length) :
    extractUpcomingPeriods t₀ endTime qs now = [] ↔
      extractUpcomingPeriods t₀ endTime ps now = [] := by
  have hlength : qs.length = ps.length := by simpa using congrArg List.length h
  simp only [extractUpcomingPeriods, readPastPeriodCount, List.drop_eq_nil_iff, hlength,
    countPeriods_congr h]

variable {denom : LiquidDenom}

theorem duration_le_of_no_upcoming (w : Window lo hi) (h : SoundDenom lo hi denom)
    (hnone : extractUpcomingPeriods denom.startTime denom.endTime denom.lockupPeriods now = []) :
    denom.startTime + duration denom.lockupPeriods ≤ now := by
  have hend := h.endTime
  by_cases hlate : denom.endTime ≤ now
  · omega
  · by_cases hstart : denom.startTime < now
    · obtain ⟨past, hcut⟩ := extractUpcomingPeriods_cut
        (w.timely h.periods.ordered h.periods.low h.periods.high) hstart (Int.not_le.mp hlate)
      have happend := hcut.append
      rw [hnone, List.append_nil] at happend
      rw [happend]
      exact hcut.past_le
    · rw [extractUpcomingPeriods, readPastPeriodCount, if_pos (by omega), List.drop_zero] at hnone
      exact absurd hnone h.periods.ne_nil

variable {amount : Nat} {redeemFrom redeemTo : Address} {id : Nat} {decreased : Periods}

section

variable (hids : ∀ id, 2 ^ 64 ≤ id → st.modules.liquidVesting.denoms id = none)
  (h : RedeemEffect cfg redeemFrom redeemTo id amount st st' denom decreased diff)

include hids h

theorem redeem_tokensUnlocked (t : Int) :
    tokensUnlocked st' t + (value denom.startTime diff t).get .islm ≤ tokensUnlocked st t := by
  have hid : id ∈ Finset.range (2 ^ 64) := by
    rw [Finset.mem_range]
    by_contra hle
    have := h.stored
    rw [hids id (Nat.not_lt.mp hle)] at this
    cases this
  have hsum :=
    sum_add_of_eq_off (f := fun id => denomUnlocked t (st.modules.liquidVesting.denoms id))
    (g := fun id => denomUnlocked t (st'.modules.liquidVesting.denoms id)) hid fun id' _ hne => by
      rw [h.denoms, update_of_ne hne]
  have hnew : denomUnlocked t (st'.modules.liquidVesting.denoms id) ≤
      (value denom.startTime decreased t).get .islm := by
    rw [h.denoms, update_self]
    split
    · exact Nat.zero_le _
    · exact le_rfl
  obtain ⟨hsplits, _⟩ := subtractAmountFromPeriods_spec h.split
  have hvalue := congrArg (fun x => x.get .islm) (hsplits.value_add denom.startTime t)
  simp only [Tally.get_add] at hvalue
  simp only [h.stored, denomUnlocked_some] at hsum
  rw [tokensUnlocked, tokensUnlocked]
  omega

theorem redeem_unlocked (w : Window lo hi) (hst : SoundState lo hi st) (ht : cfg.blockTime ≤ t)
    (hstart : ∀ va, st.vestingAccount redeemTo = some va → denom.startTime ≤ va.startTime ∧
      (cfg.blockTime ≤ va.startTime → value va.startTime va.lockupPeriods va.startTime = 0)) :
    (unlocked st' t + tokensUnlocked st' t +
      if extractUpcomingPeriods denom.startTime denom.endTime denom.lockupPeriods cfg.blockTime = []
      then (Tally.single denom.originalDenom amount).get .islm else 0) ≤
      unlocked st t + tokensUnlocked st t := by
  have htokens := redeem_tokensUnlocked hids h t
  obtain ⟨_, hdiff, hfits⟩ := h.soundPeriods hst
  obtain ⟨hsplits, htotal, _⟩ := subtractAmountFromPeriods_spec h.split
  have hcongr := extractUpcomingPeriods_eq_nil_congr denom.startTime denom.endTime cfg.blockTime
    hsplits.lengths_right
  rcases h.accounts with ⟨hnone, hkept⟩ | ⟨hupcoming, hkept, funder, va', hgrant, hva'⟩
  · have hlate := duration_le_of_no_upcoming w hdiff hnone
    simp only at hlate
    rw [if_pos (hcongr.mp hnone), unlocked_of_kept_all t hkept]
    rw [value_of_ge hdiff.periods.ordered (by simp only; omega), htotal] at htokens
    simp only [Coin.toCoins] at htokens
    omega
  · rw [if_neg fun hnone => hupcoming (hcongr.mpr hnone)]
    have haccounts := unlocked_of_kept t hkept
    have hunlocked :=
      grant_unlocked w hgrant (hst.accounts redeemTo) hfits hdiff.periods.duration_pos
      ht hstart
    rw [hva'] at haccounts
    omega

end

/-! ## Runs -/

/-- The schedules of accounts and tokens are ordered and without overflow, and the ids of tokens
are `uint64`. -/
structure SoundTokens (lo hi : Int) (st : ChainState S) : Prop where
  sound : SoundState lo hi st
  counter : st.modules.liquidVesting.denomCounter < 2 ^ 64
  ids : ∀ id, 2 ^ 64 ≤ id → st.modules.liquidVesting.denoms id = none

theorem SoundTokens.step (w : Window lo hi) (tx : Tx TokenMsg) (h : SoundTokens lo hi st) :
    SoundTokens lo hi (tokenStep cfg st tx) := by
  rcases tokenStep_cases cfg st tx with hkeep | heffect
  · rw [hkeep]
    exact h
  have hsound := h.sound.token w heffect
  generalize tokenStep cfg st tx = st' at heffect hsound
  generalize tx.msg = msg at heffect
  cases heffect with
  | liquidate _ heffect =>
    have hcounter := h.counter
    refine ⟨hsound, ?_, fun id hid => ?_⟩
    · rw [heffect.counter]
      exact Nat.mod_lt _ (by decide)
    · rw [heffect.denoms, update_of_ne (by omega)]
      exact h.ids id hid
  | @redeem _ _ id' _ denom _ _ _ heffect =>
    refine ⟨hsound, heffect.counter ▸ h.counter, fun id hid => ?_⟩
    have hne : id ≠ id' := by
      rintro rfl
      have := heffect.stored
      rw [h.ids id hid] at this
      cases this
    rw [heffect.denoms, update_of_ne hne]
    exact h.ids id hid
  | transfer _ _ modules => exact ⟨hsound, modules ▸ h.counter, modules ▸ h.ids⟩

theorem tokenStep_unlocked (w : Window lo hi) (cfg : Config S) {tx : Tx TokenMsg}
    (h : SoundTokens lo hi st)
    (ht : tx.blockTime ≤ t) (hkeeps : keepsStart st tx = true) :
    unlocked (tokenStep cfg st tx) t + tokensUnlocked (tokenStep cfg st tx) t +
      releasedBy cfg st tx ≤ unlocked st t + tokensUnlocked st t := by
  obtain ⟨now, msg⟩ := tx
  cases hrun : (msg.handle (cfg.atTime now)).run st with
  | error e st' => simp [tokenStep, deliver, releasedBy, hrun]
  | ok u st' =>
    have heffect := TokenMsg.effect hrun
    simp only [tokenStep, deliver, releasedBy, hrun]
    cases heffect with
    | liquidate _ heffect =>
      rw [add_zero]
      exact liquidate_unlocked w h.sound h.counter heffect ht
    | redeem _ heffect =>
      simp only [heffect.stored]
      refine redeem_unlocked h.ids heffect w h.sound ht fun va hva => ?_
      simp only [keepsStart, heffect.stored, hva, Bool.and_eq_true, Bool.or_eq_true,
        decide_eq_true_eq, Tally.isZero_iff] at hkeeps
      exact ⟨hkeeps.1, fun hahead => hkeeps.2.resolve_left (Int.not_lt.mpr hahead)⟩
    | transfer kept _ modules =>
      simp only [unlocked_of_kept_all t kept, tokensUnlocked, modules, add_zero, le_refl]

/-- **Liquid vesting does not accelerate unlocking**: from a state with sound schedules, in every
run whose redemptions keep the start of the tokens. -/
theorem unlocked_le_of_run (cfg : Config S) (st : ChainState S) (txs : List (Tx TokenMsg)) (t : Int)
    (w : Window lo hi) (hst : SoundTokens lo hi st) (htimes : ∀ tx ∈ txs, tx.blockTime ≤ t)
    (hkeeps : Run.Along (tokenStep cfg) (fun st tx => keepsStart st tx = true) st txs) :
    unlocked (Run.after (tokenStep cfg) st txs) t +
      tokensUnlocked (Run.after (tokenStep cfg) st txs) t + released cfg st txs ≤
      unlocked st t + tokensUnlocked st t := by
  induction txs generalizing st with
  | nil => simp only [Run.after_nil, released, Run.total, add_zero, le_refl]
  | cons tx txs ih =>
    have hstep := tokenStep_unlocked w cfg hst (htimes tx (by simp)) hkeeps.1
    have hrest :=
      ih (tokenStep cfg st tx) (hst.step w tx) (fun tx' htx' => htimes tx' (by simp [htx']))
      hkeeps.2
    simp only [released] at hrest
    simp only [Run.after_cons, released, Run.total]
    omega

/-! ## The conditions are needed -/

def twoAccounts (va va' : ClawbackVestingAccount) : ChainState Unit :=
  ((genesis.setAccount 2 ⟨1, 0, .clawback 0 va⟩).setAccount 3 ⟨2, 0, .clawback 0 va'⟩).setBank
    ((genesis.bank.mint 2 (Tally.single .islm 10)).mint 3 (Tally.single .islm 1))

theorem twoAccounts_vestingAccount (va va' : ClawbackVestingAccount) (addr : Address) :
    (twoAccounts va va').vestingAccount addr =
      if addr = 3 then some va' else if addr = 2 then some va else none := by
  have hgenesis : vestingOf genesis.accounts addr = none := by
    simp only [vestingOf, genesis]
    split <;> rfl
  simp only [twoAccounts, Store.vestingAccount, Store.setBank_accounts, Store.setAccount_accounts,
    vestingOf_update, hgenesis, AccountKind.vesting]

def lateAccount : ClawbackVestingAccount :=
  newClawbackVestingAccount 1 (Tally.single .islm 10) 100 [⟨100, Tally.single .islm 10⟩]
    [⟨0, Tally.single .islm 10⟩]

def earlyAccount : ClawbackVestingAccount :=
  newClawbackVestingAccount 1 (Tally.single .islm 1) 0 [⟨1000, Tally.single .islm 1⟩]
    [⟨0, Tally.single .islm 1⟩]

theorem twoAccounts_sound : SoundTokens 0 maxInt64 (twoAccounts lateAccount earlyAccount) := by
  refine ⟨⟨fun addr va hva => ?_, fun id denom hdenom => (nomatch hdenom)⟩, by decide,
    fun _ _ => rfl⟩
  rw [twoAccounts_vestingAccount] at hva
  split at hva
  · cases hva
    exact (newClawbackVestingAccount_sound window_int64 _ ⟨by simp, by decide, by decide, by simp⟩
      ⟨by simp, by decide, by decide, by simp⟩ (by decide)).1
  · split at hva
    · cases hva
      exact (newClawbackVestingAccount_sound window_int64 _ ⟨by simp, by decide, by decide, by simp⟩
        ⟨by simp, by decide, by decide, by simp⟩ (by decide)).1
    · cases hva

def redeemToNew : List (Tx TokenMsg) :=
  [⟨150, .liquidate 2 2 ⟨.islm, 10⟩⟩, ⟨160, .redeem 2 4 ⟨.liquid 0, 4⟩⟩,
    ⟨165, .redeem 2 4 ⟨.liquid 0, 6⟩⟩]

theorem redeemToNew_unlocked :
    accountUnlocked 200 ((Run.after (tokenStep localConfig) (twoAccounts lateAccount earlyAccount)
      redeemToNew).vestingAccount 4) = 10 ∧
      unlocked (Run.after (tokenStep localConfig) (twoAccounts lateAccount earlyAccount)
          redeemToNew) 170 +
        tokensUnlocked (Run.after (tokenStep localConfig) (twoAccounts lateAccount earlyAccount)
          redeemToNew) 170 +
        released localConfig (twoAccounts lateAccount earlyAccount) redeemToNew ≤
      unlocked (twoAccounts lateAccount earlyAccount) 170 +
        tokensUnlocked (twoAccounts lateAccount earlyAccount) 170 :=
  ⟨by decide +kernel, unlocked_le_of_run localConfig _ redeemToNew 170 window_int64
    twoAccounts_sound (by decide) (by decide +kernel)⟩

theorem twoAccounts_lt_unlocked {va va' : ClawbackVestingAccount} (addr : Address)
    (hbefore : accountUnlocked t (some va) = 0) (hbefore' : accountUnlocked t (some va') = 0)
    (hafter : 0 < accountUnlocked t (st.vestingAccount addr)) :
    unlocked (twoAccounts va va') t + tokensUnlocked (twoAccounts va va') t < unlocked st t := by
  have haccounts : unlocked (twoAccounts va va') t = 0 := by
    apply Finset.sum_eq_zero
    intro addr _
    rw [twoAccounts_vestingAccount]
    split_ifs
    · exact hbefore'
    · exact hbefore
    · rfl
  have htokens : tokensUnlocked (twoAccounts va va') t = 0 := Finset.sum_eq_zero fun _ _ => rfl
  have hle : accountUnlocked t (st.vestingAccount addr) ≤ unlocked st t :=
    Finset.single_le_sum (f := fun addr => accountUnlocked t (st.vestingAccount addr))
      (fun _ _ => Nat.zero_le _) (Finset.mem_univ addr)
  rw [haccounts, htokens]
  omega

def redeemToEarly : List (Tx TokenMsg) :=
  [⟨150, .liquidate 2 2 ⟨.islm, 10⟩⟩, ⟨160, .redeem 2 3 ⟨.liquid 0, 10⟩⟩]

/-- The lengths of the unlocking periods add up to 500 seconds in an `int64`, the account itself
ends after 1000 seconds. -/
def wrappedAccount : ClawbackVestingAccount :=
  newClawbackVestingAccount 1 (Tally.single .islm 10) 0
    [⟨2 ^ 62, Tally.single .islm 4⟩, ⟨2 ^ 62, Tally.single .islm 4⟩,
      ⟨2 ^ 63 - 1, Tally.single .islm 1⟩, ⟨501, Tally.single .islm 1⟩]
    [⟨1, Tally.single .islm 10⟩, ⟨999, 0⟩]

theorem redeemToEarly_accelerates :
    (SoundTokens 0 maxInt64 (twoAccounts lateAccount earlyAccount) ∧
      unlocked (twoAccounts lateAccount earlyAccount) 170 +
          tokensUnlocked (twoAccounts lateAccount earlyAccount) 170 <
        unlocked (Run.after (tokenStep localConfig) (twoAccounts lateAccount earlyAccount)
          redeemToEarly) 170) ∧
    wrappedAccount.validate = .ok () ∧
      Run.Along (tokenStep localConfig) (fun st tx => keepsStart st tx = true)
        (twoAccounts wrappedAccount earlyAccount) redeemToNew ∧
      unlocked (twoAccounts wrappedAccount earlyAccount) 700 +
          tokensUnlocked (twoAccounts wrappedAccount earlyAccount) 700 <
        unlocked (Run.after (tokenStep localConfig) (twoAccounts wrappedAccount earlyAccount)
          redeemToNew) 700 :=
  ⟨⟨twoAccounts_sound, twoAccounts_lt_unlocked 3 (by decide +kernel) (by decide +kernel)
      (by decide +kernel)⟩,
    by decide +kernel, by decide +kernel,
    twoAccounts_lt_unlocked 4 (by decide +kernel) (by decide +kernel)
      (by decide +kernel)⟩

end Haqq.LiquidVesting
