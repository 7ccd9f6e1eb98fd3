import Haqq.Staking.Effects
import Haqq.Vesting.Grants
import Haqq.Vesting.Locked

/-!
# Clawbacks can be paid

The balance of every clawback vesting account covers its locked coins, and the account tracks
exactly what it has bonded and unbonding: the staking message server counts what has not vested, the
bank what is locked, and the locked coins fall with the delegations.
-/

namespace Haqq.Staking

open Lib Lib.Schedule Vesting

variable {cfg : SdkConfig} {now : Int} {st mid st' : ChainState SdkState} {u : Unit}

structure FundedAccount (now : Int) (st : ChainState SdkState) (a : Address)
    (va : ClawbackVestingAccount) : Prop where
  scheduled : Scheduled 0 maxInt64 va
  covered : va.lockedCoins now ≤ st.bank.balance a
  tracked : va.delegatedFree + va.delegatedVesting =
    Tally.single .islm (st.staking.delegated a)

/-- Every clawback vesting account has its locked coins and tracks its delegations. -/
structure Funded (cfg : SdkConfig) (now : Int) (st : ChainState SdkState) : Prop where
  accounts : ∀ a va, st.vestingAccount a = some va → FundedAccount now st a va
  delegators : ∀ a, st.accounts a = none → st.staking.delegated a = 0
  distribution : ∃ acct, st.accounts cfg.distributionModule = some acct ∧ acct.kind = .base

variable {a : Address} {va : ClawbackVestingAccount}

theorem FundedAccount.unvested_le (h : FundedAccount now st a va) :
    va.originalVesting - va.getVestedCoins now ≤ st.bank.balance a :=
  (h.scheduled.balanced.unvested_le_locked now).trans h.covered

theorem Funded.later (h : Funded cfg now st) {later : Int} (hle : now ≤ later) :
    Funded cfg later st where
  accounts a va hva :=
    have hold := h.accounts a va hva
    { hold with covered := (hold.scheduled.balanced.locked_antitone hle).trans hold.covered }
  delegators := h.delegators
  distribution := h.distribution

/-! ## Sends -/

variable {env : Env} {src dst : Address} {coins : Coins} {bank : Ledger Address Denom}

theorem Funded.of_send (hsend : mid.bank.send (lockedCoins env mid src) src dst coins = some bank)
    (haccounts : ∀ a va, mid.vestingAccount a = some va → Scheduled 0 maxInt64 va ∧
      (∀ d, (va.lockedCoins env.blockTime).get d ≤
        (mid.bank.balance a).get d + if a = dst then coins.get d else 0) ∧
      va.delegatedFree + va.delegatedVesting = Tally.single .islm (mid.staking.delegated a))
    (hdelegators : ∀ a, mid.accounts a = none → mid.staking.delegated a = 0)
    (hdistribution : ∃ acct, mid.accounts cfg.distributionModule = some acct ∧ acct.kind = .base) :
    Funded cfg env.blockTime (Bank.withRecipient env (mid.setBank bank) dst) := by
  have hstaking : (Bank.withRecipient env (mid.setBank bank) dst).staking = mid.staking :=
    staking_sendCoins (u := ()) (Bank.run_sendCoins_ok.mpr ⟨bank, hsend, rfl⟩)
  have hkept : ∀ a acct, mid.accounts a = some acct →
      (Bank.withRecipient env (mid.setBank bank) dst).accounts a = some acct :=
    fun a acct hacct => Bank.withRecipient_accounts dst hacct
  refine ⟨fun a va hva => ?_, fun a hnone => ?_, ?_⟩
  · rw [Store.vestingAccount, Bank.vestingOf_withRecipient] at hva
    change mid.vestingAccount a = some va at hva
    obtain ⟨hscheduled, hcover, htracked⟩ := haccounts a va hva
    refine ⟨hscheduled, fun d => ?_, hstaking ▸ htracked⟩
    rw [Bank.withRecipient_bank]
    apply Ledger.le_balance_of_send hsend (hcover d)
    rintro rfl
    rw [lockedCoins_eq hva]
    exact Nat.le_add_right _ _
  · rw [hstaking]
    apply hdelegators a
    by_contra hsome
    obtain ⟨acct, hacct⟩ := Option.ne_none_iff_exists'.mp hsome
    cases (hkept a acct hacct).symm.trans hnone
  · obtain ⟨acct, hacct, hbase⟩ := hdistribution
    exact ⟨acct, hkept _ acct hacct, hbase⟩

theorem Funded.send (h : Funded cfg now st) (hnow : env.blockTime = now)
    (hrun : (Bank.sendCoins env src dst coins).run st = .ok u st') : Funded cfg now st' := by
  obtain ⟨bank, hsend, rfl⟩ := Bank.run_sendCoins_ok.mp hrun
  subst hnow
  refine .of_send hsend (fun a va hva => ?_) h.delegators h.distribution
  obtain ⟨hscheduled, hcovered, htracked⟩ := h.accounts a va hva
  exact ⟨hscheduled, fun d => (hcovered d).trans (Nat.le_add_right _ _), htracked⟩

theorem Funded.congr (h : Funded cfg now st) (haccounts : st'.accounts = st.accounts)
    (hbank : st'.bank = st.bank)
    (hstaking : ∀ a, st'.staking.delegated a = st.staking.delegated a) :
    Funded cfg now st' := by
  have hvesting : ∀ a, st'.vestingAccount a = st.vestingAccount a := fun a => by
    rw [Store.vestingAccount, haccounts]
    rfl
  refine ⟨fun a va hva => ?_, fun a hnone => ?_, haccounts ▸ h.distribution⟩
  · obtain ⟨hscheduled, hcovered, htracked⟩ := h.accounts a va (hvesting a ▸ hva)
    exact ⟨hscheduled, hbank ▸ hcovered, (hstaking a).symm ▸ htracked⟩
  · rw [hstaking]
    exact h.delegators a (haccounts ▸ hnone)

theorem Funded.rewards (h : Funded cfg now st) (hnow : cfg.blockTime = now)
    (heffect : RewardEffect cfg dst coins st mid) : Funded cfg now mid := by
  have hstaking := heffect.staking
  obtain ⟨-, hbank, haccounts⟩ | ⟨paid, hrun, hbank, haccounts⟩ := heffect.paid
  · exact h.congr haccounts hbank fun a => by rw [hstaking]
  · have hpaid := h.send hnow hrun
    exact hpaid.congr haccounts hbank fun a => by rw [hstaking, staking_sendCoins hrun]

/-! ## Staking -/

theorem Funded.ne_distribution (h : Funded cfg now st) (hva : st.vestingAccount a = some va) :
    a ≠ cfg.distributionModule := by
  rintro rfl
  obtain ⟨acct, hacct, hbase⟩ := h.distribution
  simp [Store.vestingAccount, vestingOf, hacct, hbase, AccountKind.vesting] at hva

variable {addr : Address} {staking : Staking.State}

theorem Funded.track {note : ClawbackVestingAccount → Option ClawbackVestingAccount}
    {noted : ChainState SdkState} (h : Funded cfg now st)
    (heffect : TrackEffect addr note (st.setBank bank) noted)
    (hothers : ∀ a ≠ addr, ∀ va, st.vestingAccount a = some va →
      va.lockedCoins now ≤ bank.balance a)
    (hdelegated : ∀ a ≠ addr, staking.delegated a = st.staking.delegated a)
    (hnoted : ∀ va va', st.vestingAccount addr = some va → note va = some va' →
      Scheduled 0 maxInt64 va' ∧ va'.lockedCoins now ≤ bank.balance addr ∧
        va'.delegatedFree + va'.delegatedVesting = Tally.single .islm (staking.delegated addr)) :
    Funded cfg now (noted.setStaking staking) := by
  refine ⟨fun a va' hva' => ?_, fun a hnone => ?_, ?_⟩
  · by_cases ha : a = addr
    · subst ha
      obtain ⟨va, hva, hnote⟩ := heffect.noted va' hva'
      obtain ⟨hscheduled, hcovered, htracked⟩ := hnoted va va' hva hnote
      exact ⟨hscheduled, heffect.bank ▸ hcovered, htracked⟩
    · have hva := (heffect.others a ha).symm.trans hva'
      obtain ⟨hscheduled, -, htracked⟩ := h.accounts a va' hva
      exact ⟨hscheduled, heffect.bank ▸ hothers a ha va' hva, (hdelegated a ha).symm ▸ htracked⟩
  · have hnone : st.accounts a = none := (heffect.none_iff a).mp hnone
    have ha : a ≠ addr := by
      rintro rfl
      exact heffect.exists_account hnone
    exact (hdelegated a ha).trans (h.delegators a hnone)
  · obtain ⟨acct, hacct, hbase⟩ := h.distribution
    exact ⟨acct, heffect.base _ acct hacct hbase, hbase⟩

variable {va' : ClawbackVestingAccount} {balance : Coins} {amount : Nat}

theorem locked_trackDelegation_le (hva : Scheduled 0 maxInt64 va)
    (hnote : va.trackDelegation balance (Tally.single .islm amount) = some va')
    (hcovered : va.lockedCoins now ≤ balance)
    (hroom : (va.originalVesting - va.getVestedCoins now).get .islm + amount ≤ balance.get .islm) :
    Scheduled 0 maxInt64 va' ∧ va'.lockedCoins now + Tally.single .islm amount ≤ balance ∧
      va'.delegatedFree + va'.delegatedVesting =
        va.delegatedFree + va.delegatedVesting + Tally.single .islm amount := by
  unfold ClawbackVestingAccount.trackDelegation at hnote
  split at hnote
  · cases hnote
    have hva' := hva.withDelegated (va.delegatedFree + Tally.single .islm amount)
      va.delegatedVesting
    refine ⟨hva', fun d => ?_, add_right_comm _ _ _⟩
    have hformula := hva'.balanced.lockedCoins_get now d
    have hle := hcovered d
    rw [hva.balanced.lockedCoins_get] at hle
    simp only [Tally.get_add] at hformula hle ⊢
    simp only [Tally.get_sub] at hroom
    rw [hformula]
    by_cases hd : d = .islm
    · subst hd
      simp only [Tally.get_single_self]
      show _ - (va.getVestedCoins now).get _ + ((va.getVestedCoins now).get _ -
        min ((va.getUnlockedCoins now).get _) ((va.getVestedCoins now).get _) - _) + _ ≤ _
      omega
    · simp only [Tally.get_single_of_ne _ hd, add_zero]
      exact hle
  · cases hnote

def HasRoom (now : Int) (st : ChainState SdkState) (delegator : Address) (amount : Nat) : Prop :=
  ∀ va, st.vestingAccount delegator = some va →
    (va.originalVesting - va.getVestedCoins now).get .islm + amount ≤
      (st.bank.balance delegator).get .islm

variable {delegator validator : Address}

theorem Funded.delegate (h : Funded cfg now st) (hnow : cfg.blockTime = now)
    (hroom : HasRoom now st delegator amount)
    (hrun : (Staking.delegate cfg delegator validator amount).run st = .ok u st') :
    Funded cfg now st' := by
  obtain ⟨mid, noted, bank, heffect⟩ := delegate_effect hrun
  have hmid := h.rewards hnow heffect.rewards
  have hbalance := Ledger.balance_send heffect.sent
  rw [heffect.bonded]
  have hstaking : noted.staking = mid.staking :=
    congrArg (fun modules : Modules SdkState => modules.rest.staking) heffect.tracked.modules
  apply hmid.track heffect.tracked
  · intro a ha va hva d
    have hd := hbalance a d
    rw [if_neg ha] at hd
    exact ((hmid.accounts a va hva).covered d).trans (Nat.le.intro hd.symm)
  · intro a ha
    rw [delegated_bond, if_neg ha, hstaking, add_zero]
  · intro va va' hva hnote
    have hva₀ := (heffect.rewards.vesting delegator).symm.trans hva
    have hricher := heffect.rewards.balance_le (h.ne_distribution hva₀)
    obtain ⟨hold, hcovered, htracked⟩ := hmid.accounts _ va hva
    obtain ⟨hscheduled, hlocked, hdelegated⟩ := locked_trackDelegation_le hold hnote hcovered
      ((hroom va hva₀).trans (hricher .islm))
    refine ⟨hscheduled, fun d => ?_, ?_⟩
    · have hd := hbalance delegator d
      have hlockedD := hlocked d
      rw [if_pos rfl] at hd
      rw [Tally.get_add] at hlockedD
      omega
    · rw [hdelegated, htracked, delegated_bond, if_pos rfl, hstaking,
        Tally.single_add]

theorem locked_trackUndelegation_le (hva : Scheduled 0 maxInt64 va)
    (hcovered : va.lockedCoins now ≤ balance)
    (hle : Tally.single .islm amount ≤ va.delegatedFree + va.delegatedVesting) :
    Scheduled 0 maxInt64 (va.trackUndelegation (Tally.single .islm amount)) ∧
      (va.trackUndelegation (Tally.single .islm amount)).lockedCoins now ≤
        balance + Tally.single .islm amount ∧
      (va.trackUndelegation (Tally.single .islm amount)).delegatedFree +
        (va.trackUndelegation (Tally.single .islm amount)).delegatedVesting +
          Tally.single .islm amount = va.delegatedFree + va.delegatedVesting := by
  have hva' : Scheduled 0 maxInt64 (va.trackUndelegation (Tally.single .islm amount)) :=
    hva.withDelegated _ _
  have hreturned : (va.trackUndelegation (Tally.single .islm amount)).delegatedFree +
      (va.trackUndelegation (Tally.single .islm amount)).delegatedVesting +
        Tally.single .islm amount = va.delegatedFree + va.delegatedVesting := by
    ext d
    have hd := hle d
    simp only [ClawbackVestingAccount.trackUndelegation, Tally.get_add, Tally.get_sub,
      Tally.get_min] at hd ⊢
    omega
  refine ⟨hva', fun d => ?_, hreturned⟩
  have hformula := hva'.balanced.lockedCoins_get now d
  have hcoveredD := hcovered d
  have hreturnedD := congrArg (fun coins => Tally.get coins d) hreturned
  rw [hva.balanced.lockedCoins_get] at hcoveredD
  simp only [Tally.get_add] at hformula hcoveredD hreturnedD ⊢
  rw [hformula]
  show _ - (va.getVestedCoins now).get d + ((va.getVestedCoins now).get d -
    min ((va.getUnlockedCoins now).get d) ((va.getVestedCoins now).get d) - _) ≤ _
  have horiginal : (va.trackUndelegation (Tally.single .islm amount)).originalVesting =
    va.originalVesting := rfl
  rw [horiginal]
  omega

variable {height : Int}

theorem Funded.completeUnbonding (h : Funded cfg now st) (hnow : cfg.blockTime = now)
    (hrun : (Staking.completeUnbonding cfg delegator validator height).run st = .ok u st') :
    Funded cfg now st' := by
  obtain ⟨noted, bank, amount, heffect⟩ := completeUnbonding_effect hrun
  have hbalance := Ledger.balance_send heffect.sent
  have hstaking : noted.staking = st.staking :=
    congrArg (fun modules : Modules SdkState => modules.rest.staking) heffect.tracked.modules
  have hremoved := fun a => delegated_removeEntry st.staking delegator validator amount height a
    heffect.entry.le
  rw [heffect.removed, hstaking]
  apply h.track heffect.tracked
  · intro a ha va hva d
    apply Ledger.le_balance_of_send heffect.sent
    · exact ((h.accounts a va hva).covered d).trans (Nat.le_add_right _ _)
    · rintro rfl
      rw [lockedCoins_eq hva, hnow]
      exact Nat.le_add_right _ _
  · intro a ha
    have ha' := hremoved a
    rwa [if_neg ha] at ha'
  · intro va va' hva hnote
    cases hnote
    obtain ⟨hold, hcovered, htracked⟩ := h.accounts _ va hva
    have hle : Tally.single .islm amount ≤ va.delegatedFree + va.delegatedVesting := by
      rw [htracked, Tally.single_le_iff, Tally.get_single_self]
      have hdelegator := hremoved delegator
      rw [if_pos rfl] at hdelegator
      omega
    obtain ⟨hscheduled, hlocked, hreturned⟩ := locked_trackUndelegation_le hold le_rfl hle
    refine ⟨hscheduled, fun d => ?_, ?_⟩
    · have hlockedD := hlocked d
      rw [Tally.get_add] at hlockedD
      apply Ledger.le_balance_of_send heffect.sent
      · rw [if_pos rfl]
        exact hlockedD.trans (Nat.add_le_add_right (hcovered d) _)
      · intro hpool
        rw [if_pos rfl, ← hpool, lockedCoins_eq hva, hnow]
        exact hlockedD
    · have hdelegator := hremoved delegator
      rw [if_pos rfl] at hdelegator
      rw [htracked, ← hdelegator, Tally.single_add] at hreturned
      exact add_right_cancel hreturned

theorem Funded.setStaking (h : Funded cfg now st)
    (hdelegated : ∀ a, staking.delegated a = st.staking.delegated a) :
    Funded cfg now (st.setStaking staking) :=
  h.congr rfl rfl hdelegated

section

variable (h : Funded cfg now st) (hnow : cfg.blockTime = now)

include h hnow

theorem Funded.rewardsThenSend
    (hhook : (beforeDelegationSharesModified cfg delegator validator).run st = .ok u mid)
    (hsend : (Bank.sendCoins cfg.toEnv src dst coins).run mid = .ok u st') :
    Funded cfg now st' ∧ st'.staking = st.staking := by
  have heffect := (beforeDelegationSharesModified_effect hhook).1
  exact ⟨(h.rewards hnow heffect).send hnow hsend, (staking_sendCoins hsend).trans heffect.staking⟩

theorem Funded.undelegate
    (hrun : (Staking.undelegate cfg height delegator validator amount).run st = .ok u st') :
    Funded cfg now st' := by
  unfold Staking.undelegate modifyStaking at hrun
  simp only [run_bind_ok, ensure_then, get_then, run_modify_ok] at hrun
  obtain ⟨hle, _, mid, hhook, _, sent, hsend, rfl⟩ := hrun
  obtain ⟨hsent, hstaking⟩ := h.rewardsThenSend hnow hhook hsend
  apply hsent.setStaking
  intro a
  have hunbond := delegated_unbond st.staking delegator validator amount a hle
  rw [hstaking, delegated_addEntry, hunbond]

theorem Funded.beginRedelegate {source target : Address}
    (hrun : (Staking.beginRedelegate cfg delegator source target amount).run st = .ok u st') :
    Funded cfg now st' := by
  unfold Staking.beginRedelegate modifyStaking at hrun
  simp only [run_bind_ok, ensure_then, get_then, run_modify_ok] at hrun
  obtain ⟨_, hle, _, mid, hsource, _, paid, htarget, rfl⟩ := hrun
  have hmid := (beforeDelegationSharesModified_effect hsource).1
  have hpaid := (beforeDelegationSharesModified_effect htarget).1
  have hstaking : paid.staking = st.staking := hpaid.staking.trans hmid.staking
  apply ((h.rewards hnow hmid).rewards hnow hpaid).setStaking
  intro a
  have hunbond := delegated_unbond st.staking delegator source amount a hle
  rw [hstaking, delegated_bond, hunbond]

theorem Funded.cancelUnbondingDelegation
    (hrun : (Staking.cancelUnbondingDelegation cfg delegator validator amount height).run st =
      .ok u st')
    :
    Funded cfg now st' := by
  unfold Staking.cancelUnbondingDelegation modifyStaking at hrun
  simp only [run_bind_ok, ensure_then, get_then, run_modify_ok] at hrun
  obtain ⟨hle, _, mid, hhook, _, sent, hsend, rfl⟩ := hrun
  obtain ⟨hsent, hstaking⟩ := h.rewardsThenSend hnow hhook hsend
  apply hsent.setStaking
  intro a
  have hremove := delegated_removeEntry st.staking delegator validator amount height a hle
  rw [hstaking, delegated_bond, hremove]

/-! ## Grants and clawbacks -/

theorem Funded.replace {change : Option ClawbackVestingAccount → ClawbackVestingAccount → Prop}
    (heffect : AccountEffect change addr st mid va') (hbank : mid.bank = st.bank)
    (hkind : ∀ acct, st.accounts addr = some acct → acct.kind ≠ .base)
    (hsend : (Bank.sendCoins cfg.toEnv src dst coins).run mid = .ok u st')
    (hscheduled : Scheduled 0 maxInt64 va')
    (hcover : ∀ d, (va'.lockedCoins now).get d ≤ (st.bank.balance addr).get d +
      if addr = dst then coins.get d else 0)
    (htracked : va'.delegatedFree + va'.delegatedVesting =
      Tally.single .islm (st.staking.delegated addr))
    :
    Funded cfg now st' := by
  have hstaking : mid.staking = st.staking :=
    congrArg (fun modules : Modules SdkState => modules.rest.staking) heffect.modules
  obtain ⟨bank, hsent, rfl⟩ := Bank.run_sendCoins_ok.mp hsend
  subst hnow
  refine .of_send hsent (fun a va hva => ?_) (fun a hnone => ?_) ?_
  · rw [hbank, hstaking]
    by_cases ha : a = addr
    · subst ha
      cases heffect.account'.symm.trans hva
      exact ⟨hscheduled, hcover, htracked⟩
    · obtain ⟨hscheduled, hcovered, htracked⟩ :=
        h.accounts a va ((heffect.kept.vesting a ha).symm.trans hva)
      exact ⟨hscheduled, fun d => (hcovered d).trans (Nat.le_add_right _ _), htracked⟩
  · rw [hstaking]
    by_cases ha : a = addr
    · subst ha
      cases (vestingAccount_eq_none_of_none hnone).symm.trans heffect.account'
    · apply h.delegators a
      by_contra hsome
      obtain ⟨acct, hacct⟩ := Option.ne_none_iff_exists'.mp hsome
      cases (heffect.kept.existing a ha acct hacct).symm.trans hnone
  · obtain ⟨acct, hacct, hbase⟩ := h.distribution
    have hne : cfg.distributionModule ∉ ({addr} : Set Address) := by
      rintro rfl
      exact hkind acct hacct hbase
    exact ⟨acct, heffect.kept.existing _ hne acct hacct, hbase⟩

end

structure Granted (now : Int) (st : ChainState SdkState) (msg : MsgGrant)
    (va' : ClawbackVestingAccount) : Prop where
  scheduled : Scheduled 0 maxInt64 va'
  covered : ∀ d, (va'.lockedCoins now).get d ≤
    (st.bank.balance msg.toAddress).get d + (total msg.vesting).get d
  tracked : va'.delegatedFree + va'.delegatedVesting =
    Tally.single .islm (st.staking.delegated msg.toAddress)
  /-- What the grant has vested by its own schedule is not needed for the unvested coins. -/
  room : ∀ d, (va'.originalVesting - va'.getVestedCoins now).get d +
    (afterStart msg.startTime msg.vesting now).get d ≤
      (st.bank.balance msg.toAddress).get d + (total msg.vesting).get d

variable {msg : MsgGrant} {mergeStart : ClawbackVestingAccount → Int}

theorem Funded.granted (h : Funded cfg now st) (hchecked : msg.Checked)
    (heffect : GrantEffect cfg.toConfig msg mergeStart st mid st' va')
    (hmerge : ∀ va, Scheduled 0 maxInt64 va → 0 ≤ mergeStart va ∧ mergeStart va ≤ msg.startTime) :
    Granted now st msg va' := by
  have hreceives := heffect.receives
  have hchange := heffect.account.change
  have hold := h.accounts msg.toAddress
  have htracked : va'.delegatedFree + va'.delegatedVesting =
      Tally.single .islm (st.staking.delegated msg.toAddress) := by
    rw [hreceives.delegatedVesting, add_zero]
    obtain hfree | ⟨hnone, hfree⟩ := hreceives.delegatedFree
    · rw [hfree, cfg.delegated_eq]
      rfl
    · rw [hfree, h.delegators _ hnone, Tally.single_zero]
  generalize st.vestingAccount msg.toAddress = before at hchange hold
  rcases hchange with ⟨delegated⟩ | ⟨delegated, -, hadd⟩
  case create =>
    have hnew := newClawbackVestingAccount_scheduled window_int64 msg.fromAddress hchecked.lockup
      hchecked.vesting
    have hva' := hnew.withDelegated delegated 0
    rw [newClawbackVestingAccount_eq window_int64 _ hchecked.lockup hchecked.vesting]
      at hva' htracked ⊢
    refine ⟨hva', fun d => ?_, htracked, fun d => ?_⟩
    · exact (hva'.balanced.locked_le_original now d).trans (Nat.le_add_left _ _)
    · have hle := hva'.balanced.vested_le now d
      rw [hva'.getVestedCoins_eq window_int64] at hle ⊢
      rw [Tally.get_sub]
      dsimp only at hle ⊢
      omega
  case merge va =>
    obtain ⟨hva, hcovered, hdelegated⟩ := hold va rfl
    obtain ⟨hlow, hle⟩ := hmerge va hva
    obtain ⟨hmerged, hfree⟩ := hva.addGrant window_int64 (hchecked.lockup.earlier hlow hle)
      (hchecked.vesting.earlier hlow hle) hadd
    rw [hmerged.delegatedVesting, add_zero, hfree] at htracked
    have hlocked := addGrant_locked_le window_int64 hva hchecked.lockup hchecked.vesting hlow hle
      hadd (hdelegated.trans htracked.symm) now
    have hvested := (addGrant_le window_int64 hva hchecked.lockup hchecked.vesting hlow hle hadd
      now).2
    refine ⟨hmerged.scheduled, fun d => ?_, ?_, fun d => ?_⟩
    · have hlockedD := hlocked d
      rw [Tally.get_add] at hlockedD
      exact hlockedD.trans (Nat.add_le_add_right (hcovered d) _)
    · rw [hmerged.delegatedVesting, add_zero, hfree, htracked]
    · have hvestedD := hvested d
      have hunvested := (hva.balanced.unvested_le_locked now).trans hcovered d
      have hleD := hmerged.scheduled.balanced.vested_le now d
      rw [Tally.get_sub] at hunvested ⊢
      rw [hmerged.originalVesting, Tally.get_add] at hleD ⊢
      rw [Tally.get_add] at hvestedD
      omega

theorem Funded.grant (h : Funded cfg now st) (hnow : cfg.blockTime = now)
    (heffect : GrantEffect cfg.toConfig msg mergeStart st mid st' va')
    (hgranted : Granted now st msg va') : Funded cfg now st' := by
  apply h.replace hnow heffect.account heffect.bank heffect.receives.kind heffect.paid
    hgranted.scheduled
  · intro d
    rw [if_pos rfl]
    exact hgranted.covered d
  · exact hgranted.tracked

theorem Funded.clawback {funder : Address} {destAddress : Option Address} (h : Funded cfg now st)
    (hnow : cfg.blockTime = now)
    (hrun : (Vesting.clawback cfg.toConfig funder addr destAddress).run st = .ok u st') :
    Funded cfg now st' := by
  obtain rfl | ⟨mid, va, va', coins, heffect⟩ := clawback_cases hrun
  · exact h
  · obtain ⟨hva, hcovered, htracked⟩ := h.accounts addr va heffect.account
    have hcompute := heffect.compute
    rw [hnow] at hcompute
    have hclawed := hva.computeClawback window_int64 hcompute
    have hlocked := hclawed.locked_add window_int64 hva
    apply h.replace hnow heffect.updated heffect.bank ?_ heffect.sent hclawed.scheduled
    · intro d
      have hd := hcovered d
      rw [← hlocked, Tally.get_add] at hd
      omega
    · rw [hclawed.delegatedFree, hclawed.delegatedVesting]
      exact htracked
    · intro acct hacct hbase
      have hnone := vestingAccount_eq_none hacct (by rw [hbase]; rfl)
      rw [heffect.account] at hnone
      cases hnone

theorem Funded.transferClawback (h : Funded cfg now st) (hnow : cfg.blockTime = now)
    {acct : AuthAccount} {codeHash : Hash} (hacct : st.accounts addr = some acct)
    (hkind : acct.kind = .clawback codeHash va) (dest : Address) :
    ∃ st', (Vesting.transferClawback cfg.toConfig addr acct codeHash va dest).run st =
      .ok () st' := by
  obtain ⟨hscheduled, hcovered, -⟩ := h.accounts addr va (vestingAccount_eq hacct hkind)
  obtain ⟨va', coins, hcompute⟩ := hscheduled.exists_computeClawback now
  have hlocked := (hscheduled.computeClawback window_int64 hcompute).locked_add window_int64
    hscheduled
  have hcomputed : (ofOption KeeperError.panic (va.computeClawback cfg.blockTime)).run st =
      .ok (va', coins) st := by
    rw [run_ofOption_ok, hnow]
    exact ⟨hcompute, rfl⟩
  by_cases hzero : coins.isZero = true
  · refine ⟨st, run_bind_ok.mpr ⟨_, _, hcomputed, ?_⟩⟩
    dsimp only
    rw [if_pos hzero]
    rfl
  · -- the account is updated before the coins are sent, and the bank sees the new one
    let updated := st.setAccount addr { acct with kind := .clawback codeHash va' }
    have hupdated : updated.vestingAccount addr = some va' := by
      simp [updated, Store.vestingAccount, AccountKind.vesting]
    have hsend : (updated.bank.send (lockedCoins cfg.toEnv updated addr) addr dest coins).isSome =
        true := by
      apply Ledger.send_isSome
      intro d
      rw [lockedCoins_eq hupdated, hnow, ← Tally.get_add, hlocked]
      exact hcovered d
    obtain ⟨bank, hbank⟩ := Option.isSome_iff_exists.mp hsend
    refine ⟨Bank.withRecipient cfg.toEnv (updated.setBank bank) dest,
      run_bind_ok.mpr ⟨_, _, hcomputed, ?_⟩⟩
    dsimp only
    rw [if_neg hzero]
    exact run_bind_ok.mpr ⟨(), updated, run_setAccount_ok.mpr rfl,
      Bank.run_sendCoins_ok.mpr ⟨bank, hbank, rfl⟩⟩

end Haqq.Staking
