import Haqq.Ethiq.Effects
import Haqq.LiquidVesting.ValidAccounts

/-!
# Burning locked coins

A burn takes the coins to be burned out of the upcoming unlocking periods, so the account has
nothing free that it would not have had otherwise.  It may become invalid: the original vesting
shrinks with the schedule, the vesting coins that are delegated do not, and nothing may be left.

* `Unlocks.valid_iff` and `Unlocks.locked_le` are about the account alone: when it stays valid, and
  how much less of it is locked up at any time.
* `burnIslmForHaqq_safe_iff`: a successful burn is safe exactly if the account is `Unlockable`.
* `unlockable_of_run`: what runs of the vesting modules guarantee of the account that is burned
  from.
-/

namespace Haqq.Ethiq

open Lib Lib.Schedule Vesting LiquidVesting

variable {S : Type} {cfg : Config S} {st st' : ChainState S}
variable {fromAddress toAddress : Address} {islmAmount haqqAmount : Nat}

/-! ## What is free -/

def redeemedState (cfg : Config S) (st : ChainState S) (addr : Address) : ChainState S :=
  finalState ((redeemAllLiquidVestingCoins cfg addr false).run st)

/-- What an address has in the bank and has delegated, beyond what is locked up at a time. -/
def freeAt (st : ChainState S) (addr : Address) (t : Int) (d : Denom) : Option Int :=
  match st.vestingAccount addr with
  | none => some ((st.bank.balance addr).get d)
  | some va => (va.getLockedUpCoins t).map fun locked =>
      ((st.bank.balance addr).get d : Int) + (va.delegatedFree + va.delegatedVesting).get d -
        locked.get d

/-- None while coins are vesting, and otherwise as much of the amount as is locked up. -/
def unlockedBy (now : Int) (amt : Nat) (va : ClawbackVestingAccount) : Nat :=
  match va.getVestingCoins now, va.getLockedUpCoins now with
  | some vesting, some locked => if vesting.isZero then min (locked.get .islm) amt else 0
  | _, _ => 0

def received (fromAddress toAddress : Address) (haqqAmount : Nat) (d : Denom) : Nat :=
  if fromAddress = toAddress then (Tally.single Denom.haqq haqqAmount).get d else 0

/-- The supply and the total follow the amount, a vesting account is valid, and nothing but the
minted coins is freed. -/
structure BurnsSafely (cfg : Config S) (fromAddress toAddress : Address)
    (islmAmount haqqAmount : Nat) (st st' : ChainState S) : Prop where
  supply : st'.bank.supply.get .islm + islmAmount = st.bank.supply.get .islm
  burned : st'.modules.ethiq.totalBurned = st.modules.ethiq.totalBurned + islmAmount
  valid : ∀ va, st'.vestingAccount fromAddress = some va → va.validate = .ok ()
  free : ∀ t d, ∃ after redeemed, freeAt st' fromAddress t d = some after ∧
    freeAt (redeemedState cfg st fromAddress) fromAddress t d = some redeemed ∧
    after ≤ redeemed + received fromAddress toAddress haqqAmount d

/-- The original vesting covers the delegated vesting coins and the unlocked ones. -/
def Covered (now : Int) (amt : Nat) (va : ClawbackVestingAccount) : Prop :=
  va.delegatedVesting.get .islm + unlockedBy now amt va ≤ va.originalVesting.get .islm

/-- Not all of the original vesting is unlocked. -/
def Remains (now : Int) (amt : Nat) (va : ClawbackVestingAccount) : Prop :=
  va.originalVesting ≠ Tally.single .islm (unlockedBy now amt va)

/-- The account with its liquid tokens redeemed is plain, or valid with enough original vesting for
the delegated vesting coins and the unlocked ones, of which something remains. -/
def Unlockable (cfg : Config S) (fromAddress : Address) (islmAmount : Nat) (st : ChainState S) :
    Prop :=
  ∀ va, (redeemedState cfg st fromAddress).vestingAccount fromAddress = some va →
    va.validate = .ok () ∧ Covered cfg.blockTime islmAmount va ∧
      Remains cfg.blockTime islmAmount va

variable {addr : Address}

theorem freeAt_plain (h : st.vestingAccount addr = none) (t : Int) (d : Denom) :
    freeAt st addr t d = some ((st.bank.balance addr).get d : Int) := by
  rw [freeAt, h]

theorem freeAt_vesting {va : ClawbackVestingAccount} {locked : Coins} {t : Int}
    (h : st.vestingAccount addr = some va) (hlocked : va.getLockedUpCoins t = some locked)
    (d : Denom) :
    freeAt st addr t d = some (((st.bank.balance addr).get d : Int) +
      (va.delegatedFree + va.delegatedVesting).get d - locked.get d) := by
  simp only [freeAt, h, hlocked, Option.map_some]

variable {redeemed : ChainState S}

theorem redeemedState_eq
    (h : (redeemLiquidCoins cfg fromAddress false
      (liquidBalances (st.bank.balance fromAddress))).run st = .ok () redeemed) :
    redeemedState cfg st fromAddress = redeemed := by
  have hrun : (redeemAllLiquidVestingCoins cfg fromAddress false).run st = .ok () redeemed := h
  rw [redeemedState, hrun, finalState_ok]

/-! ## The account -/

section Unlocks

variable {now : Int} {amt : Nat} {before after : Option ClawbackVestingAccount}

theorem Unlocks.valid_iff (h : Unlocks now amt before after)
    (hbalanced : ∀ va, before = some va → va.Balanced) :
    (∀ va, after = some va → va.validate = .ok ()) ↔
      ∀ va, before = some va → va.validate = .ok () ∧ Covered now amt va ∧ Remains now amt va := by
  have hkept : ∀ va, unlockedBy now amt va = 0 → (va.validate = .ok () ↔ va.validate = .ok () ∧
      Covered now amt va ∧ Remains now amt va) := by
    intro va hnone
    refine ⟨fun hvalid => ⟨hvalid, ?_⟩, And.left⟩
    obtain ⟨_, _, _, _, _, hne, hdelegated⟩ := ClawbackVestingAccount.validate_iff.mp hvalid
    rw [Covered, Remains, hnone, Tally.single_zero]
    exact ⟨hdelegated .islm, hne⟩
  cases h with
  | plain => simp
  | @vesting va coins hvesting hne =>
    simp only [Option.some.injEq, forall_eq']
    apply hkept
    have hzero : coins.isZero = false :=
      Bool.eq_false_iff.mpr fun hzero => hne (Tally.isZero_iff.mp hzero)
    unfold unlockedBy
    split
    · rename_i vesting locked hsome _
      rw [hvesting] at hsome
      cases hsome
      simp [hzero]
    · rfl
  | @nothing va locked hvested hlocked hzero =>
    simp only [Option.some.injEq, forall_eq']
    apply hkept
    simp [unlockedBy, hvested, hlocked, hzero]
  | @taken va va' locked diff hlocked hliq =>
    simp only [Option.some.injEq, forall_eq']
    have hunlocked : unlockedBy now amt va = min (locked.get .islm) amt := by
      simp [unlockedBy, hliq.vested, hlocked]
    rw [Covered, Remains, hunlocked]
    exact hliq.validate_iff (hbalanced va rfl)

theorem Unlocks.locked_le (h : Unlocks now amt before after)
    (hbalanced : ∀ va, before = some va → va.Balanced) :
    (before = none ∧ after = none) ∨ ∃ va va', before = some va ∧ after = some va' ∧
      va'.delegatedFree + va'.delegatedVesting = va.delegatedFree + va.delegatedVesting ∧
      ∀ t, ∃ locked locked', va.getLockedUpCoins t = some locked ∧
        va'.getLockedUpCoins t = some locked' ∧ locked ≤ locked' + Tally.single .islm amt := by
  have hkept : ∀ va : ClawbackVestingAccount, va.Balanced → ∀ t, ∃ locked locked',
      va.getLockedUpCoins t = some locked ∧ va.getLockedUpCoins t = some locked' ∧
        locked ≤ locked' + Tally.single .islm amt := by
    intro va hva t
    refine ⟨_, _, hva.getLockedUpCoins_eq t, hva.getLockedUpCoins_eq t, fun d => ?_⟩
    rw [Tally.get_add]
    exact Nat.le_add_right _ _
  cases h with
  | plain => exact .inl ⟨rfl, rfl⟩
  | @vesting va => exact .inr ⟨va, va, rfl, rfl, rfl, hkept va (hbalanced va rfl)⟩
  | @nothing va => exact .inr ⟨va, va, rfl, rfl, rfl, hkept va (hbalanced va rfl)⟩
  | @taken va va' locked diff _ hliq =>
    refine .inr ⟨va, va', rfl, rfl, ?_, fun t => ?_⟩
    · obtain ⟨_, _, _, _, _, rfl⟩ := hliq.schedules
      rfl
    · obtain ⟨locked₁, locked₂, hlocked₁, hlocked₂, hle⟩ := hliq.locked_le (hbalanced va rfl) t
      refine ⟨locked₁, locked₂, hlocked₁, hlocked₂, fun d => (hle d).trans ?_⟩
      simp only [Tally.get_add, Coin.toCoins, Tally.get_single]
      split <;> omega

end Unlocks

/-! ## The burn -/

theorem freeAt_le {now : Int} {received : Nat} {d : Denom}
    (hbalance : (st'.bank.balance fromAddress).get d + (Tally.single .islm islmAmount).get d =
      (redeemed.bank.balance fromAddress).get d + received)
    (hunlocks : Unlocks now islmAmount (redeemed.vestingAccount fromAddress)
      (st'.vestingAccount fromAddress))
    (hbalanced : ∀ va, redeemed.vestingAccount fromAddress = some va → va.Balanced) (t : Int) :
    ∃ after before, freeAt st' fromAddress t d = some after ∧
      freeAt redeemed fromAddress t d = some before ∧ after ≤ before + received := by
  rcases hunlocks.locked_le hbalanced with ⟨hnone, hnone'⟩ |
    ⟨va, va', hva, hva', hdelegated, hlocked⟩
  · exact ⟨_, _, freeAt_plain hnone' t d, freeAt_plain hnone t d, by omega⟩
  · obtain ⟨locked, locked', hbefore, hafter, hle⟩ := hlocked t
    have hmissing := hle d
    rw [Tally.get_add] at hmissing
    refine ⟨_, _, freeAt_vesting hva' hafter d, freeAt_vesting hva hbefore d, ?_⟩
    rw [hdelegated]
    omega

/-- **Burning for aHAQQ.** A successful burn is safe exactly if the account is unlockable. -/
theorem burnIslmForHaqq_safe_iff (cfg : Config S) (st st' : ChainState S)
    (fromAddress toAddress : Address) (islmAmount haqqAmount : Nat)
    (hvalid : ∀ va, st.vestingAccount fromAddress = some va → va.validate = .ok ())
    (hrun : (burnIslmForHaqq cfg islmAmount fromAddress toAddress).run st = .ok haqqAmount st') :
    BurnsSafely cfg fromAddress toAddress islmAmount haqqAmount st st' ↔
      Unlockable cfg fromAddress islmAmount st := by
  obtain ⟨_, _, redeemed, heffect, hunlocks⟩ := burnIslmForHaqq_effect hrun
  obtain ⟨hethiq, hsupply⟩ := redeemed_ethiq heffect.redeem
  have hbalanced := redeemed_balanced heffect.redeem fun va hva =>
    ClawbackVestingAccount.balanced_of_validate (hvalid va hva)
  have hiff := hunlocks.valid_iff hbalanced
  rw [Unlockable, redeemedState_eq heffect.redeem, ← hiff]
  refine ⟨fun h => h.valid, fun hafter => ⟨?_, ?_, hafter, fun t d => ?_⟩⟩
  · have hislm := congrArg (fun x => x.get .islm) heffect.supply
    simp only [Tally.get_add, Tally.get_single, reduceCtorEq, if_false, if_true, add_zero] at hislm
    rw [hislm, hsupply .islm rfl]
  · rw [heffect.modules, hethiq]
    rfl
  · rw [redeemedState_eq heffect.redeem]
    have hbalance := heffect.balance fromAddress d
    rw [if_pos rfl] at hbalance
    exact freeAt_le hbalance hunlocks hbalanced t

theorem unlockedBy_le (now : Int) (amt : Nat) (va : ClawbackVestingAccount) :
    unlockedBy now amt va ≤ va.originalVesting.get .islm := by
  unfold unlockedBy
  split
  · rename_i vesting locked _ hlocked
    obtain ⟨_, rfl⟩ := subCoins_eq_some.mp hlocked
    split
    · exact (min_le_left _ _).trans (Nat.sub_le _ _)
    · exact Nat.zero_le _
  · exact Nat.zero_le _

theorem pos_of_mem_liquidBalances {coins : Coins} {balance : Coin}
    (h : balance ∈ liquidBalances coins) : 0 < balance.amount := by
  unfold liquidBalances at h
  obtain ⟨denom, hdenom, rfl⟩ := List.mem_map.mp h
  have hmem : denom ∈ coins.support := Tally.mem_sorted.mp (List.mem_of_mem_filter hdenom)
  exact Nat.pos_of_ne_zero ((coins.mem_support denom).mp hmem)

theorem validState_redeemed (hst : ValidState st)
    (hrun : (redeemLiquidCoins cfg fromAddress false
      (liquidBalances (st.bank.balance fromAddress))).run st = .ok () redeemed) :
    ValidState redeemed := by
  refine redeemLiquidCoins_invariant (fun balance hmem s s' hround hs => ?_) hrun hst
  obtain ⟨id, denom, decreased, diff, mid, _, heffect, haccounts, _, hmodules, _⟩ :=
    hround.redeemed
  have hsound := hs.sound.redeem window_int64 heffect
  have hintact := hs.intact.redeem (pos_of_mem_liquidBalances hmem) heffect
  refine ⟨⟨fun a va hva => hsound.accounts a va ?_,
    fun id denom hdenom => hsound.denoms id denom ?_⟩,
    fun a va hva => hintact a va ?_⟩
  · rwa [Store.vestingAccount, ← haccounts]
  · rwa [hmodules] at hdenom
  · rwa [Store.vestingAccount, ← haccounts]

theorem valid_covered_of_validState (hst : ValidState st) (now : Int) (amt : Nat)
    {va : ClawbackVestingAccount} (hva : st.vestingAccount addr = some va) :
    va.validate = .ok () ∧ Covered now amt va := by
  have hintact := hst.intact addr va hva
  have hva := hst.sound.accounts addr va hva
  have hlow := hva.low
  have hlt := hva.start_lt_end
  refine ⟨hva.validate_ok window_int64 (by omega) hintact, ?_⟩
  rw [Covered, hintact.delegatedVesting, Tally.get_zero, Nat.zero_add]
  exact unlockedBy_le _ _ va

def burnConfig : Config Unit :=
  { localConfig with applications := [⟨0, 2, 4, .bank, 60, 0⟩], blockTime := 50 }

def lockedTen (delegatedVesting : Nat) : ChainState Unit :=
  (genesis.setAccount 2 ⟨1, 0, .clawback 0
    { funderAddress := 3
      originalVesting := Tally.single .islm 10
      delegatedFree := 0
      delegatedVesting := Tally.single .islm delegatedVesting
      startTime := 0
      endTime := 100
      lockupPeriods := [⟨100, Tally.single .islm 10⟩]
      vestingPeriods := [⟨0, Tally.single .islm 10⟩] }⟩).setBank
    (genesis.bank.mint 2 (Tally.single .islm 10))

theorem redeemedState_of_none (h : liquidBalances (st.bank.balance addr) = []) :
    redeemedState cfg st addr = st := by
  apply redeemedState_eq
  rw [h]
  rfl

theorem lockedTen_burned :
    ∃ haqqAmount st', (burnIslmForHaqq burnConfig 9 2 4).run (lockedTen 0) = .ok haqqAmount st' ∧
      BurnsSafely burnConfig 2 4 9 haqqAmount (lockedTen 0) st' := by
  obtain ⟨haqqAmount, st', hrun⟩ := exists_of_matches_ok
    (r := (burnIslmForHaqq burnConfig 9 2 4).run (lockedTen 0)) (by decide +kernel)
  refine ⟨haqqAmount, st', hrun, (burnIslmForHaqq_safe_iff burnConfig _ _ 2 4 9 haqqAmount ?_
    hrun).mpr ?_⟩
  · intro va hva
    cases hva
    decide +kernel
  · intro va hva
    rw [redeemedState_of_none (by decide +kernel)] at hva
    cases hva
    exact ⟨by decide +kernel, by unfold Covered; decide +kernel, by unfold Remains; decide +kernel⟩

def validateBurned (delegatedVesting amt : Nat) : Option (Except String Unit) :=
  ((finalState
    ((burnIslmForHaqq burnConfig amt 2 4).run (lockedTen delegatedVesting))).vestingAccount
    2).map (·.validate)

/-- With the same coins delegated as vesting coins, the original vesting does not cover the
delegation after the burn; and a burn of everything leaves no original vesting. -/
theorem lockedTen_burned_invalid :
    ((lockedTen 10).vestingAccount 2).map (·.validate) = some (.ok ()) ∧
    ((burnIslmForHaqq burnConfig 9 2 4).run (lockedTen 10) matches .ok _ _) ∧
    validateBurned 10 9 = some (.error
      "delegated vesting amount cannot be greater than original vesting amount") ∧
    ((lockedTen 0).vestingAccount 2).map (·.validate) = some (.ok ()) ∧
    ((burnIslmForHaqq burnConfig 10 2 4).run (lockedTen 0) matches .ok _ _) ∧
    validateBurned 0 10 = some (.error "invalid coins: ") := by
  decide +kernel

/-- In every state that the messages of the vesting modules lead to, a burn finds the account valid
and covered, and leaves it valid exactly if it does not burn all of the original vesting. -/
theorem unlockable_of_run (cfg : Config S) (st : ChainState S) (txs : List (Tx AccountMsg))
    (hst : Fresh st) (hsafe : Run.Along (accountStep cfg) AccountMsg.Safe st txs) (now : Int)
    (fromAddress toAddress : Address) (islmAmount haqqAmount : Nat) (before st' : ChainState S)
    (hbefore : before = redeemedState (cfg.atTime now) (Run.after (accountStep cfg) st txs)
      fromAddress)
    (hrun : (burnIslmForHaqq (cfg.atTime now) islmAmount fromAddress toAddress).run
      (Run.after (accountStep cfg) st txs) = .ok haqqAmount st') :
    (∀ va, before.vestingAccount fromAddress = some va →
      va.validate = .ok () ∧ Covered now islmAmount va) ∧
    ((∀ va, st'.vestingAccount fromAddress = some va → va.validate = .ok ()) ↔
      ∀ va, before.vestingAccount fromAddress = some va → Remains now islmAmount va) := by
  have hvalid := Run.invariant (fun _ _ hsafe => ValidState.step hsafe) hst.validState hsafe
  obtain ⟨_, _, redeemed, heffect, hunlocks⟩ := burnIslmForHaqq_effect hrun
  have hredeemed := validState_redeemed hvalid heffect.redeem
  rw [redeemedState_eq heffect.redeem] at hbefore
  subst hbefore
  have hcovered := fun va (hva : before.vestingAccount fromAddress = some va) =>
    valid_covered_of_validState hredeemed now islmAmount hva
  refine ⟨hcovered, ?_⟩
  have hbalanced : ∀ va, before.vestingAccount fromAddress = some va → va.Balanced :=
    fun va hva => ClawbackVestingAccount.balanced_of_validate (hcovered va hva).1
  rw [hunlocks.valid_iff hbalanced]
  refine forall₂_congr fun va hva => ?_
  exact ⟨fun h => h.2.2, fun hremains => ⟨(hcovered va hva).1, (hcovered va hva).2, hremains⟩⟩

theorem lifecycle_unlockable : ∃ haqqAmount st',
    (burnIslmForHaqq (burnConfig.atTime 8) 5 2 4).run
      (Run.after (accountStep burnConfig) funded lifecycle) = .ok haqqAmount st' ∧
    ∀ va, st'.vestingAccount 2 = some va → va.validate = .ok () := by
  obtain ⟨haqqAmount, st', hrun⟩ := exists_of_matches_ok
    (r := (burnIslmForHaqq (burnConfig.atTime 8) 5 2 4).run
      (Run.after (accountStep burnConfig) funded lifecycle)) (by decide +kernel)
  refine ⟨haqqAmount, st', hrun, (unlockable_of_run burnConfig funded lifecycle funded_fresh
    lifecycle_safe 8 2 4 5 haqqAmount _ st' rfl hrun).2.mpr fun va hva => ?_⟩
  rw [redeemedState_of_none (by decide +kernel)] at hva
  have hremains : ((Run.after (accountStep burnConfig) funded lifecycle).vestingAccount 2).all
      (fun va => decide (va.originalVesting ≠ Tally.single .islm (unlockedBy 8 5 va))) = true := by
    decide +kernel
  rw [hva] at hremains
  simpa [Remains] using hremains

end Haqq.Ethiq
