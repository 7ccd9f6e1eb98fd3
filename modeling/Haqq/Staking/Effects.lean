import Haqq.Staking.Distribution
import Haqq.Vesting.Effects

/-!
# The effects of staking

What the operations of the staking keeper do to accounts, balances and delegations.
-/

namespace Haqq.Staking

open Lib Vesting

variable {cfg : SdkConfig} {st st' : ChainState SdkState} {u : Unit}

/-! ## Delegations -/

section Delegated

variable (s : State) (delegator validator : Address) (amount : Nat) (height : Int) (a : Address)

theorem sum_update_add {κ : Type} [DecidableEq κ] (f : Address → Tally κ) (x : Tally κ) :
    (Function.update f delegator (f delegator + x) a).sum =
      (f a).sum + if a = delegator then x.sum else 0 := by
  by_cases ha : a = delegator
  · subst ha
    simp [Tally.sum_add]
  · simp [ha]

theorem sum_update_sub {κ : Type} [DecidableEq κ] (f : Address → Tally κ) {x : Tally κ}
    (h : x ≤ f delegator) :
    ((Function.update f delegator (f delegator - x) a).sum + if a = delegator then x.sum else 0) =
      (f a).sum := by
  by_cases ha : a = delegator
  · subst ha
    simp [Tally.sum_sub_add h]
  · simp [ha]

theorem delegated_bond :
    (s.bond delegator validator amount).delegated a =
      s.delegated a + if a = delegator then amount else 0 := by
  have hsum := sum_update_add delegator a s.bonded (Tally.single validator amount)
  rw [Tally.sum_single] at hsum
  simp only [State.delegated, State.bond, hsum]
  omega

theorem delegated_unbond (h : amount ≤ (s.bonded delegator).get validator) :
    ((s.unbond delegator validator amount).delegated a + if a = delegator then amount else 0) =
      s.delegated a := by
  have hsum := sum_update_sub delegator a s.bonded (Tally.single_le_iff.mpr h)
  rw [Tally.sum_single] at hsum
  simp only [State.delegated, State.unbond, ← hsum]
  omega

theorem delegated_addEntry :
    (s.addEntry delegator validator amount height).delegated a =
      s.delegated a + if a = delegator then amount else 0 := by
  have hsum := sum_update_add delegator a s.unbonding (Tally.single (validator, height) amount)
  rw [Tally.sum_single] at hsum
  simp only [State.delegated, State.addEntry, hsum]
  omega

theorem delegated_removeEntry (h : amount ≤ (s.unbonding delegator).get (validator, height)) :
    ((s.removeEntry delegator validator amount height).delegated a +
      if a = delegator then amount else 0) = s.delegated a := by
  have hsum := sum_update_sub delegator a s.unbonding (Tally.single_le_iff.mpr h)
  rw [Tally.sum_single] at hsum
  simp only [State.delegated, State.removeEntry, ← hsum]
  omega

end Delegated

/-- Only the vesting account at `addr` changes, as `note` says. -/
structure TrackEffect (addr : Address)
    (note : ClawbackVestingAccount → Option ClawbackVestingAccount) (st st' : ChainState SdkState) :
    Prop where
  exists_account : st.accounts addr ≠ none
  bank : st'.bank = st.bank
  modules : st'.modules = st.modules
  none_iff : ∀ a, st'.accounts a = none ↔ st.accounts a = none
  base : ∀ a acct, st.accounts a = some acct → acct.kind = .base → st'.accounts a = some acct
  others : ∀ a ≠ addr, st'.vestingAccount a = st.vestingAccount a
  noted : ∀ va', st'.vestingAccount addr = some va' →
    ∃ va, st.vestingAccount addr = some va ∧ note va = some va'

theorem track_effect {addr : Address}
    {note : ClawbackVestingAccount → Option ClawbackVestingAccount}
    (h : (track addr note).run st = .ok u st') : TrackEffect addr note st st' := by
  unfold track at h
  simp only [run_bind_ok, get_then, ofOption_then] at h
  obtain ⟨acct, hacct, h⟩ := h
  have hexists : st.accounts addr ≠ none := by simp [hacct]
  split at h
  · rename_i codeHash va hkind
    simp only [run_bind_ok, ofOption_then, run_setAccount_ok] at h
    obtain ⟨va', hnote, rfl⟩ := h
    refine ⟨hexists, rfl, rfl, fun a => ?_, fun a acct' hacct' hbase => ?_, fun a ha => ?_,
      fun va₁ hva₁ => ⟨va, vestingAccount_eq hacct hkind, ?_⟩⟩
    · by_cases ha : a = addr
      · subst ha
        simp [hacct]
      · simp [ha]
    · have ha : a ≠ addr := by
        rintro rfl
        rw [hacct] at hacct'
        cases hacct'
        simp [hkind] at hbase
      simpa [ha] using hacct'
    · simp [Store.vestingAccount, ha]
    · rw [hnote]
      simpa [Store.vestingAccount, AccountKind.vesting] using hva₁
  · rename_i hkind
    obtain ⟨-, rfl⟩ := run_pure_ok.mp h
    refine ⟨hexists, rfl, rfl, fun _ => Iff.rfl, fun _ _ hacct' _ => hacct', fun _ _ => rfl,
      fun va' hva' => ?_⟩
    simp only [Store.vestingAccount, vestingOf, hacct, Option.bind_some] at hva'
    cases hacctKind : acct.kind with
    | base => simp [hacctKind, AccountKind.vesting] at hva'
    | eth => simp [hacctKind, AccountKind.vesting] at hva'
    | clawback codeHash va => exact absurd hacctKind (hkind codeHash va)

/-! ## Rewards -/

theorem staking_sendCoins {env : Env} {src dst : Address} {coins : Coins}
    (h : (Bank.sendCoins env src dst coins).run st = .ok u st') : st'.staking = st.staking := by
  obtain ⟨bank, -, rfl⟩ := Bank.run_sendCoins_ok.mp h
  exact congrArg (fun modules : Modules SdkState => modules.rest.staking)
    (Bank.withRecipient_modules dst)

variable {dst : Address} {coins : Coins}

/-- `coins` of the distribution module are sent to `dst`, if there are any. -/
structure RewardEffect (cfg : SdkConfig) (dst : Address) (coins : Coins)
    (st st' : ChainState SdkState) : Prop where
  staking : st'.staking = st.staking
  withdrawAddr : st'.distribution.withdrawAddr = st.distribution.withdrawAddr
  paid : coins = 0 ∧ st'.bank = st.bank ∧ st'.accounts = st.accounts ∨ ∃ paid,
    (Bank.sendCoins cfg.toEnv cfg.distributionModule dst coins).run st = .ok () paid ∧
      st'.bank = paid.bank ∧ st'.accounts = paid.accounts

theorem payOut_effect (h : (payOut cfg dst coins).run st = .ok u st') :
    RewardEffect cfg dst coins st st' ∧ st'.distribution = st.distribution := by
  unfold payOut at h
  split at h
  · obtain ⟨-, rfl⟩ := run_pure_ok.mp h
    exact ⟨⟨rfl, rfl, .inl ⟨Tally.isZero_iff.mp ‹_›, rfl, rfl⟩⟩, rfl⟩
  · obtain ⟨-, bank, hsend, rfl⟩ := Bank.run_sendCoinsFromModuleToAccount_ok.mp h
    have hrun : (Bank.sendCoins cfg.toEnv cfg.distributionModule dst coins).run st =
        .ok () (Bank.withRecipient cfg.toEnv (st.setBank bank) dst) :=
      Bank.run_sendCoins_ok.mpr ⟨bank, hsend, rfl⟩
    have hdistribution : (Bank.withRecipient cfg.toEnv (st.setBank bank) dst).distribution =
        st.distribution :=
      congrArg (fun modules : Modules SdkState => modules.rest.distribution)
        (Bank.withRecipient_modules dst)
    exact ⟨⟨staking_sendCoins hrun, by rw [hdistribution], .inr ⟨_, hrun, rfl, rfl⟩⟩, hdistribution⟩

section Rewards

variable {delegator validator : Address}

theorem withdrawDelegationRewards_effect
    (h : (withdrawDelegationRewards cfg delegator validator).run st = .ok coins st') :
    coins = st.distribution.rewards delegator validator ∧
      RewardEffect cfg (st.distribution.withdrawAddress delegator) coins st st' ∧
      ∀ other ≠ validator,
        st'.distribution.rewards delegator other = st.distribution.rewards delegator other := by
  unfold withdrawDelegationRewards at h
  simp only [run_bind_ok, get_then, run_modify_ok, run_pure_ok] at h
  obtain ⟨_, mid, hpay, _, _, rfl, rfl, rfl⟩ := h
  obtain ⟨heffect, hdistribution⟩ := payOut_effect hpay
  refine ⟨rfl, { heffect with }, fun other hother => ?_⟩
  rw [← hdistribution]
  simp [Store.distribution, Store.setDistribution, Store.setRest, hother]

theorem withdrawChecked_effect
    (h : (Distribution.withdrawDelegationRewards cfg delegator validator).run st = .ok coins st') :
    coins = st.distribution.rewards delegator validator ∧
      RewardEffect cfg (st.distribution.withdrawAddress delegator) coins st st' ∧
      ∀ other ≠ validator,
        st'.distribution.rewards delegator other = st.distribution.rewards delegator other := by
  unfold Distribution.withdrawDelegationRewards at h
  simp only [run_bind_ok, get_then, ensure_then] at h
  exact withdrawDelegationRewards_effect h.2.2

theorem beforeDelegationSharesModified_effect
    (h : (beforeDelegationSharesModified cfg delegator validator).run st = .ok u st') :
    RewardEffect cfg (st.distribution.withdrawAddress delegator)
        (if (st.staking.bonded delegator).get validator = 0 then 0
          else st.distribution.rewards delegator validator) st st' ∧
      ∀ other ≠ validator,
        st'.distribution.rewards delegator other = st.distribution.rewards delegator other := by
  unfold beforeDelegationSharesModified at h
  rw [run_bind_ok, get_then] at h
  split at h
  · obtain ⟨rewards, mid, hpay, hend⟩ := run_bind_ok.mp h
    obtain ⟨-, rfl⟩ := run_pure_ok.mp hend
    obtain ⟨rfl, heffect⟩ := withdrawDelegationRewards_effect hpay
    rwa [if_neg ‹_›]
  · obtain ⟨-, rfl⟩ := run_pure_ok.mp h
    rw [if_pos (not_not.mp ‹_›)]
    exact ⟨⟨rfl, rfl, .inl ⟨rfl, rfl, rfl⟩⟩, fun _ _ => rfl⟩

end Rewards

theorem RewardEffect.balance (h : RewardEffect cfg dst coins st st') (a : Address) (d : Denom) :
    ((st'.bank.balance a).get d + if a = cfg.distributionModule then coins.get d else 0) =
      (st.bank.balance a).get d + if a = dst then coins.get d else 0 := by
  obtain ⟨rfl, hbank, -⟩ | ⟨paid, hrun, hbank, -⟩ := h.paid
  · simp [hbank]
  · obtain ⟨bank, hsend, rfl⟩ := Bank.run_sendCoins_ok.mp hrun
    rw [hbank, Bank.withRecipient_bank]
    exact Ledger.balance_send hsend a d

theorem RewardEffect.balance_le (h : RewardEffect cfg dst coins st st') {a : Address}
    (ha : a ≠ cfg.distributionModule) : st.bank.balance a ≤ st'.bank.balance a := by
  intro d
  have hbalance := h.balance a d
  rw [if_neg ha] at hbalance
  exact Nat.le.intro hbalance.symm

theorem RewardEffect.vesting (h : RewardEffect cfg dst coins st st') (a : Address) :
    st'.vestingAccount a = st.vestingAccount a := by
  obtain ⟨-, -, haccounts⟩ | ⟨paid, hrun, -, haccounts⟩ := h.paid
  · rw [Store.vestingAccount, haccounts]
    rfl
  · obtain ⟨bank, hsend, rfl⟩ := Bank.run_sendCoins_ok.mp hrun
    rw [Store.vestingAccount, haccounts]
    exact Bank.vestingOf_withRecipient dst a

/-- A delegation pays out the rewards, moves the coins to the pool and notes them in the account. -/
structure DelegateEffect (cfg : SdkConfig) (delegator validator : Address) (amount : Nat)
    (st mid noted st' : ChainState SdkState) (bank : Ledger Address Denom) : Prop where
  rewards : RewardEffect cfg (st.distribution.withdrawAddress delegator)
    (if (st.staking.bonded delegator).get validator = 0 then 0
      else st.distribution.rewards delegator validator) st mid
  sent : mid.bank.send 0 delegator cfg.bondedPool (Tally.single .islm amount) = some bank
  tracked : TrackEffect delegator
    (fun va => va.trackDelegation (mid.bank.balance delegator) (Tally.single .islm amount))
    (mid.setBank bank) noted
  bonded : st' = noted.setStaking (noted.staking.bond delegator validator amount)

theorem delegate_effect {delegator validator : Address} {amount : Nat}
    (h : (delegate cfg delegator validator amount).run st = .ok u st') :
    ∃ mid noted bank, DelegateEffect cfg delegator validator amount st mid noted st' bank := by
  unfold delegate delegateCoins modifyStaking at h
  simp only [run_bind_ok, ensure_then, get_then, run_modify_ok, Bank.run_liftBank_ok] at h
  obtain ⟨_, _, mid, hhook, _, noted, hcoins, rfl⟩ := h
  obtain ⟨_, _, ⟨bank, hsend, rfl⟩, htrack⟩ := hcoins
  exact ⟨mid, noted, bank, (beforeDelegationSharesModified_effect hhook).1, hsend,
    track_effect htrack, rfl⟩

structure CompleteEffect (cfg : SdkConfig) (delegator validator : Address) (height : Int)
    (st noted st' : ChainState SdkState) (bank : Ledger Address Denom) (amount : Nat) : Prop where
  entry : amount = (st.staking.unbonding delegator).get (validator, height)
  sent : st.bank.send (lockedCoins cfg.toEnv st cfg.notBondedPool) cfg.notBondedPool delegator
    (Tally.single .islm amount) = some bank
  tracked : TrackEffect delegator
    (fun va => some (va.trackUndelegation (Tally.single .islm amount)))
    (st.setBank bank) noted
  removed : st' = noted.setStaking (noted.staking.removeEntry delegator validator amount height)

theorem completeUnbonding_effect {delegator validator : Address} {height : Int}
    (h : (completeUnbonding cfg delegator validator height).run st = .ok u st') :
    ∃ noted bank amount,
      CompleteEffect cfg delegator validator height st noted st' bank amount := by
  unfold completeUnbonding undelegateCoins modifyStaking at h
  simp only [run_bind_ok, get_then, run_modify_ok, Bank.run_liftBank_ok] at h
  obtain ⟨_, noted, ⟨_, _, ⟨bank, hsend, rfl⟩, htrack⟩, rfl⟩ := h
  exact ⟨noted, bank, _, rfl, hsend, track_effect htrack, rfl⟩

end Haqq.Staking
