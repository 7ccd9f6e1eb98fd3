import Haqq.Evm.Tracking
import Haqq.Precompiles.Authority
import Haqq.Staking.Effects

/-!
# What the precompiles mirror

`TxCall.mirrored` lists the accounts that a call returns entries for, `TxCall.unmirrored` those
whose aISLM it can change without one: escrow accounts, accounts of modules, and the account that
the rewards of a delegation are paid to.  For all other accounts the entries are exact.
-/

namespace Haqq.Precompiles

open Lib Lib.Ledger Authz Evm

variable {cfg : CallConfig} {origin caller : Address} {st mid st' : ChainState SdkState}

theorem netChange_balanceDelta (addr : Address) (before after : Nat) :
    netChange (balanceDelta addr before after) = Pi.single addr ((after : Int) - before) := by
  unfold balanceDelta
  split
  · rename_i heq
    simp [heq]
  · split
    · rename_i hlt
      simp [change, Nat.cast_sub hlt.le]
    · rename_i hle
      simp [change, Nat.cast_sub (not_lt.mp hle)]

variable {addr : Address} {entry : BalanceChangeEntry}

theorem account_of_mem_balanceDelta {before after : Nat}
    (h : entry ∈ balanceDelta addr before after) : entry.account = addr := by
  unfold balanceDelta at h
  split at h
  · cases h
  · split at h
    · rw [List.mem_singleton.mp h]
    · rw [List.mem_singleton.mp h]

variable {addrs : List Address}

theorem netChange_flatMap (hnodup : addrs.Nodup) (before after : Address → Nat) (a : Address) :
    netChange (addrs.flatMap fun addr => balanceDelta addr (before addr) (after addr)) a =
      if a ∈ addrs then (after a : Int) - before a else 0 := by
  induction addrs with
  | nil => simp
  | cons addr rest ih =>
    obtain ⟨hnew, hrest⟩ := List.nodup_cons.mp hnodup
    rw [List.flatMap_cons, netChange_append, Pi.add_apply, ih hrest, netChange_balanceDelta,
      Pi.single_apply]
    by_cases ha : a = addr
    · subst ha
      simp [hnew]
    · simp [ha]

/-- Outside `U` the aISLM balances change by `δ`. -/
def Shifts (U : Set Address) (δ : Address → Int) (st st' : ChainState SdkState) : Prop :=
  ∀ a ∉ U, (islmBalance st' a : Int) = islmBalance st a + δ a

variable {coins : Coins} {src dst : Address}

namespace Shifts

variable {U U' : Set Address} {δ δ' : Address → Int}

theorem of_bank (h : st'.bank = st.bank) : Shifts U 0 st st' := by
  intro a _
  simp [islmBalance, h]

theorem trans (h : Shifts U δ st mid) (h' : Shifts U δ' mid st') : Shifts U (δ + δ') st st' := by
  intro a ha
  rw [h' a ha, h a ha, Pi.add_apply, add_assoc]

theorem mono (h : Shifts U δ st st') (hU : U ⊆ U') : Shifts U' δ st st' :=
  fun a ha => h a fun hmem => ha (hU hmem)

theorem congr (h : Shifts U δ st st') (hδ : ∀ a ∉ U, δ a = δ' a) : Shifts U δ' st st' := by
  intro a ha
  rw [← hδ a ha]
  exact h a ha

theorem between {st₁ st₂ : ChainState SdkState} (h : Shifts U δ st₁ st₂)
    (hbefore : st₁.bank = st.bank)
    (hafter : st'.bank = st₂.bank) : Shifts U δ st st' := by
  intro a ha
  have hshift := h a ha
  unfold islmBalance at hshift ⊢
  rw [hafter, ← hbefore]
  exact hshift

theorem send {bank : Ledger Address Denom} {locked : Coins}
    (h : st.bank.send locked src dst coins = some bank) (hst' : st'.bank = bank) :
    Shifts U (Pi.single dst (coins.get .islm : Int) - Pi.single src (coins.get .islm : Int))
      st st' := by
  intro a _
  have hbalance := balance_send h a .islm
  simp only [islmBalance, hst', Pi.sub_apply, Pi.single_apply]
  split_ifs at hbalance ⊢ <;> omega

theorem of_transfers {D T : Set Address} (h : Transfers (Between D T) st st') (hT : T ⊆ U) :
    Shifts U 0 st st' := by
  intro a ha
  have hsame := islm_eq_of_between h.bank fun hmem => ha (hT hmem)
  simp [islmBalance, hsame]

end Shifts

theorem SameButGrants.bank (h : SameButGrants st st') : st'.bank = st.bank := by
  obtain ⟨grants, rfl⟩ := h
  rfl

variable {delegator : Address} {msg : Msg} {x : SdkM Unit} {u : Unit}

/-! ## Rewards -/

structure Paid (cfg : SdkConfig) (dst : Address) (amount : Nat) (st st' : ChainState SdkState) :
    Prop where
  shifts : Shifts {cfg.distributionModule} (Pi.single dst (amount : Int)) st st'
  staking : st'.staking = st.staking
  withdrawAddr : st'.distribution.withdrawAddr = st.distribution.withdrawAddr

theorem Paid.withdrawAddress {cfg : SdkConfig} {amount : Nat} (h : Paid cfg dst amount st st')
    (delegator : Address) :
    st'.distribution.withdrawAddress delegator = st.distribution.withdrawAddress delegator := by
  unfold Distribution.State.withdrawAddress
  rw [h.withdrawAddr]

theorem Paid.trans {cfg : SdkConfig} {amount amount' : Nat} (h : Paid cfg dst amount st mid)
    (h' : Paid cfg dst amount' mid st') : Paid cfg dst (amount + amount') st st' := by
  refine ⟨?_, h'.staking.trans h.staking, h'.withdrawAddr.trans h.withdrawAddr⟩
  have hboth := h.shifts.trans h'.shifts
  rwa [← Pi.single_add, ← Nat.cast_add] at hboth

variable {U : Set Address}

section Rewards

variable {cfg : SdkConfig} {u : Unit} {delegator validator : Address} {coins : Coins}

theorem sendCoins_shifts (h : (Bank.sendCoins cfg.toEnv src dst coins).run st = .ok u st') :
    Shifts U
      (Pi.single dst (coins.get .islm : Int) - Pi.single src (coins.get .islm : Int)) st st' ∧
      st'.modules.rest = st.modules.rest := by
  obtain ⟨bank, hsend, rfl⟩ := Bank.run_sendCoins_ok.mp h
  have hrest : (Bank.withRecipient cfg.toEnv (st.setBank bank) dst).modules = st.modules :=
    Bank.withRecipient_modules dst
  exact ⟨.send hsend (Bank.withRecipient_bank dst), congrArg Modules.rest hrest⟩

def pendingRewards (s : SdkState) (delegator validator : Address) : Nat :=
  if (s.staking.bonded delegator).get validator = 0 then 0
  else (s.distribution.rewards delegator validator).get .islm

theorem Paid.of_effect (h : Staking.RewardEffect cfg dst coins st st') :
    Paid cfg dst (coins.get .islm) st st' := by
  refine ⟨fun a ha => ?_, h.staking, h.withdrawAddr⟩
  have hbalance := h.balance a .islm
  rw [if_neg (Set.notMem_singleton_iff.mp ha), add_zero] at hbalance
  unfold islmBalance
  rw [hbalance, Pi.single_apply]
  split <;> simp

end Rewards

/-! ## Messages of the staking module -/

def rewarded (s : SdkState) (delegator validator : Address) : Set Address :=
  {a | a = s.distribution.withdrawAddress delegator ∧ pendingRewards s delegator validator ≠ 0}

variable {height : Int} {source target : Address}

section Staking

variable {cfg : SdkConfig} {u : Unit} {delegator validator : Address} {amount : Coin}

theorem rewards_shifts (h : Staking.RewardEffect cfg (st.distribution.withdrawAddress delegator)
      (if (st.staking.bonded delegator).get validator = 0 then 0
        else st.distribution.rewards delegator validator) st st') :
    Shifts ({cfg.distributionModule} ∪ rewarded st.modules.rest delegator validator) 0 st st' := by
  refine ((Paid.of_effect h).shifts.mono Set.subset_union_left).congr fun a ha => ?_
  rw [Pi.single_apply, Pi.zero_apply]
  split
  · rw [apply_ite (fun coins : Coins => coins.get .islm)]
    by_contra hne
    exact ha (.inr ⟨‹_›, fun hzero => hne (congrArg Nat.cast hzero)⟩)
  · rfl

theorem beforeDelegationSharesModified_shifts
    (h : (Staking.beforeDelegationSharesModified cfg delegator validator).run st = .ok u st') :
    Shifts ({cfg.distributionModule} ∪ rewarded st.modules.rest delegator validator) 0 st st' :=
  rewards_shifts (Staking.beforeDelegationSharesModified_effect h).1

theorem sendCoins_shifts_zero (hsrc : src ∈ U) (hdst : dst ∈ U)
    (h : (Bank.sendCoins cfg.toEnv src dst coins).run st = .ok u st') : Shifts U 0 st st' := by
  refine (sendCoins_shifts h).1.congr fun a ha => ?_
  have hnesrc : a ≠ src := fun heq => ha (heq ▸ hsrc)
  have hnedst : a ≠ dst := fun heq => ha (heq ▸ hdst)
  rw [Pi.sub_apply, Pi.single_eq_of_ne hnesrc, Pi.single_eq_of_ne hnedst, sub_zero, Pi.zero_apply]

theorem msgDelegate_shifts
    (h : (Staking.msgDelegate cfg delegator validator amount).run st = .ok u st') :
    Shifts ({cfg.bondedPool, cfg.distributionModule} ∪ rewarded st.modules.rest delegator validator)
      (Pi.single delegator (-amount.amount : Int)) st st' := by
  unfold Staking.msgDelegate at h
  simp only [run_bind_ok] at h
  obtain ⟨_, _, hvalidate, _, _, hcheck, hdelegate⟩ := h
  obtain rfl : _ = _ := relates_validateDelegationAmountNotUnvested _ _ _ _ _ hvalidate
  obtain rfl : _ = _ := relates_checkAmount _ _ _ _ hcheck
  obtain ⟨mid, noted, bank, heffect⟩ := Staking.delegate_effect hdelegate
  have hmodule : {cfg.distributionModule} ⊆
      ({cfg.bondedPool, cfg.distributionModule} : Set Address) :=
    Set.subset_insert _ _
  have hpaid := (rewards_shifts heffect.rewards).mono (Set.union_subset_union_left _ hmodule)
  have hbank : st'.bank = bank := by
    rw [heffect.bonded]
    exact heffect.tracked.bank
  refine (hpaid.trans (.send heffect.sent hbank)).congr fun a ha => ?_
  have hne : a ≠ cfg.bondedPool := fun heq => ha (.inl (.inl heq))
  rw [zero_add, Tally.get_single_self, Pi.sub_apply, Pi.single_eq_of_ne hne, Pi.single_neg,
    Pi.neg_apply, zero_sub]

def stakingPools (cfg : SdkConfig) : Set Address :=
  {cfg.bondedPool, cfg.notBondedPool, cfg.distributionModule}

theorem betweenPools_shifts (hsrc : src ∈ stakingPools cfg) (hdst : dst ∈ stakingPools cfg)
    (hrewards : (Staking.beforeDelegationSharesModified cfg delegator validator).run st = .ok u
      mid) (hcoins : (Bank.sendCoins cfg.toEnv src dst coins).run mid = .ok u st') :
    Shifts (stakingPools cfg ∪ rewarded st.modules.rest delegator validator) 0 st st' := by
  have hmodule : {cfg.distributionModule} ⊆ stakingPools cfg := by simp [stakingPools]
  have hpaid := (beforeDelegationSharesModified_shifts hrewards).mono
    (Set.union_subset_union_left _ hmodule)
  have hsent := hpaid.trans (sendCoins_shifts_zero (.inl hsrc) (.inl hdst) hcoins)
  rwa [zero_add] at hsent

theorem msgUndelegate_shifts
    (h : (Staking.msgUndelegate cfg height delegator validator amount).run st = .ok u st') :
    Shifts (stakingPools cfg ∪ rewarded st.modules.rest delegator validator) 0 st st' := by
  unfold Staking.msgUndelegate Haqq.Staking.undelegate Staking.modifyStaking at h
  simp only [run_bind_ok, get_then, ensure_then, run_modify_ok] at h
  obtain ⟨_, _, hcheck, -, _, paid, hrewards, _, sent, hcoins, rfl⟩ := h
  obtain rfl : _ = _ := relates_checkAmount _ _ _ _ hcheck
  have hsent := betweenPools_shifts (.inl rfl) (.inr (.inl rfl)) hrewards hcoins
  exact hsent.between rfl rfl

theorem msgCancelUnbondingDelegation_shifts
    (h : (Staking.msgCancelUnbondingDelegation cfg delegator validator amount height).run st =
      .ok u st') :
    Shifts (stakingPools cfg ∪ rewarded st.modules.rest delegator validator) 0 st st' := by
  unfold Staking.msgCancelUnbondingDelegation Haqq.Staking.cancelUnbondingDelegation
    Staking.modifyStaking at h
  simp only [run_bind_ok, get_then, ensure_then, run_modify_ok] at h
  obtain ⟨_, _, hcheck, -, _, paid, hrewards, _, sent, hcoins, rfl⟩ := h
  obtain rfl : _ = _ := relates_checkAmount _ _ _ _ hcheck
  have hsent := betweenPools_shifts (.inr (.inl rfl)) (.inl rfl) hrewards hcoins
  exact hsent.between rfl rfl

theorem rewarded_after_payment (hne : target ≠ source)
    (h : (Staking.beforeDelegationSharesModified cfg delegator source).run st = .ok u st') :
    rewarded st'.modules.rest delegator target = rewarded st.modules.rest delegator target := by
  obtain ⟨heffect, hother⟩ := Staking.beforeDelegationSharesModified_effect h
  have hpending : pendingRewards st'.modules.rest delegator target =
      pendingRewards st.modules.rest delegator target := by
    have hstaking : st'.modules.rest.staking = st.modules.rest.staking := heffect.staking
    have hrewards : st'.modules.rest.distribution.rewards delegator target =
        st.modules.rest.distribution.rewards delegator target := hother target hne
    unfold pendingRewards
    rw [hstaking, hrewards]
  have hwithdraw : st'.modules.rest.distribution.withdrawAddress delegator =
      st.modules.rest.distribution.withdrawAddress delegator :=
    (Paid.of_effect heffect).withdrawAddress delegator
  unfold rewarded
  rw [hpending, hwithdraw]

theorem msgBeginRedelegate_shifts
    (h : (Staking.msgBeginRedelegate cfg delegator source target amount).run st = .ok u st') :
    Shifts ({cfg.distributionModule} ∪ (rewarded st.modules.rest delegator source ∪
      rewarded st.modules.rest delegator target)) 0 st st' := by
  unfold Staking.msgBeginRedelegate Staking.beginRedelegate Staking.modifyStaking at h
  simp only [run_bind_ok, get_then, ensure_then, run_modify_ok] at h
  obtain ⟨_, _, hcheck, ⟨hne, -⟩, -, _, paid, hsource, _, paid', htarget, rfl⟩ := h
  obtain rfl : _ = _ := relates_checkAmount _ _ _ _ hcheck
  have hfirst := beforeDelegationSharesModified_shifts hsource
  have hsecond := beforeDelegationSharesModified_shifts htarget
  rw [rewarded_after_payment hne.symm hsource] at hsecond
  have hboth : Shifts ({cfg.distributionModule} ∪ (rewarded st.modules.rest delegator source ∪
      rewarded st.modules.rest delegator target)) (0 + 0) st paid' :=
    (hfirst.mono (Set.union_subset_union_right _ Set.subset_union_left)).trans
      (hsecond.mono (Set.union_subset_union_right _ Set.subset_union_right))
  rw [zero_add] at hboth
  exact hboth.between rfl rfl

end Staking

section Distribution

variable {delegator validator : Address} {coins : Coins}

theorem withdrawAll_paid {validators : List Address}
    (h : (Distribution.withdrawAll cfg delegator validators).run st = .ok coins st') :
    Paid cfg.toSdkConfig (st.distribution.withdrawAddress delegator) (coins.get .islm) st st' := by
  induction validators generalizing st coins with
  | nil =>
    obtain ⟨rfl, rfl⟩ := run_pure_ok.mp h
    refine ⟨?_, rfl, rfl⟩
    rw [Tally.get_zero, Nat.cast_zero, Pi.single_zero]
    exact .of_bank rfl
  | cons validator rest ih =>
    simp only [Distribution.withdrawAll, run_bind_ok, run_pure_ok] at h
    obtain ⟨first, mid, hfirst, others, _, hrest, rfl, rfl⟩ := h
    have hpaid := Paid.of_effect (Staking.withdrawChecked_effect hfirst).2.1
    have hpaid' := ih hrest
    rw [hpaid.withdrawAddress] at hpaid'
    rw [Tally.get_add]
    exact hpaid.trans hpaid'

theorem withdrawValidatorCommission_paid {cfg : SdkConfig}
    (h : (Haqq.Distribution.withdrawValidatorCommission cfg validator).run st = .ok coins st') :
    coins = st.distribution.commission validator ∧
      Paid cfg (st.distribution.withdrawAddress validator) (coins.get .islm) st st' := by
  unfold Haqq.Distribution.withdrawValidatorCommission at h
  simp only [run_bind_ok, get_then, ensure_then, run_modify_ok, run_pure_ok] at h
  obtain ⟨-, _, paid, hpay, _, _, rfl, rfl, rfl⟩ := h
  exact ⟨rfl, { Paid.of_effect (Staking.payOut_effect hpay).1 with }⟩

/-- An account that is paid coins of which the first, whose amount is mirrored, is not
aISLM. -/
def misreported (dst : Address) (coins : Coins) : Set Address :=
  {a | a = dst ∧ Distribution.firstAmount coins ≠ coins.get .islm}

end Distribution

/-! ## All transactions -/

def TxCall.mirrored (cfg : CallConfig) (s : SdkState) : TxCall → Set Address
  | mintHaqq sender _ _ => {sender}
  | mintHaqqByApplication sender appId =>
    {applicationPayer cfg.toConfig sender (Ethiq.applicationID appId)}
  | liquidate sender _ _ => {sender}
  | redeem sender receiver _ _ => {sender, receiver}
  | delegate delegator _ _ => {delegator}
  | claimRewards delegator _ => {s.distribution.withdrawAddress delegator}
  | withdrawDelegatorRewards delegator _ => {s.distribution.withdrawAddress delegator}
  | withdrawValidatorCommission validator => {s.distribution.withdrawAddress validator}
  | fundCommunityPool depositor _ => {depositor}
  | _ => ∅

/-- Validators are not created or edited by contracts. -/
def TxCall.unmirrored (cfg : CallConfig) (s : SdkState) : TxCall → Set Address
  | convertToHaqq sender _ _ => {cfg.escrow sender, cfg.liquidModule, cfg.ethiqModule}
  | transferOwnership owner newOwner => {cfg.escrow owner, cfg.escrow newOwner}
  | transferOwnershipWithAmount owner newOwner _ _ => {cfg.escrow owner, cfg.escrow newOwner}
  | mintHaqq _ _ _ => {cfg.liquidModule, cfg.ethiqModule}
  | mintHaqqByApplication _ _ => {cfg.liquidModule, cfg.ethiqModule}
  | liquidate _ _ _ => {cfg.liquidModule}
  | redeem _ _ _ _ => {cfg.liquidModule}
  | delegate delegator validator _ =>
    {cfg.bondedPool, cfg.distributionModule} ∪ rewarded s delegator validator
  | undelegate delegator validator _ =>
    stakingPools cfg.toSdkConfig ∪ rewarded s delegator validator
  | redelegate delegator source target _ =>
    {cfg.distributionModule} ∪ (rewarded s delegator source ∪ rewarded s delegator target)
  | cancelUnbondingDelegation delegator validator _ _ =>
    stakingPools cfg.toSdkConfig ∪ rewarded s delegator validator
  | claimRewards _ _ => {cfg.distributionModule}
  | withdrawDelegatorRewards delegator validator =>
    {cfg.distributionModule} ∪ misreported (s.distribution.withdrawAddress delegator)
      (s.distribution.rewards delegator validator)
  | withdrawValidatorCommission validator =>
    {cfg.distributionModule} ∪ misreported (s.distribution.withdrawAddress validator)
      (s.distribution.commission validator)
  | fundCommunityPool _ _ => {cfg.distributionModule}
  | createValidator _ _ => ∅
  | editValidator _ => ∅
  | setWithdrawAddress _ _ => ∅
  | authorization _ => ∅

structure Mirrors (A U : Set Address) (entries : List BalanceChangeEntry)
    (st st' : ChainState SdkState) : Prop where
  accounts : ∀ entry ∈ entries, entry.account ∈ A
  shifts : Shifts U (netChange entries) st st'

variable {A : Set Address}

theorem Mirrors.none (h : Shifts U 0 st st') : Mirrors A U [] st st' :=
  ⟨nofun, h⟩

theorem Mirrors.single (hA : entry.account ∈ A) (h : Shifts U (netChange [entry]) st st') :
    Mirrors A U [entry] st st' := by
  refine ⟨fun other hother => ?_, h⟩
  rwa [List.mem_singleton.mp hother]

variable {entries : List BalanceChangeEntry}

theorem Mirrors.between {before after : ChainState SdkState} (h : Mirrors A U entries before after)
    (hbefore : before.bank = st.bank) (hafter : st'.bank = after.bank) :
    Mirrors A U entries st st' :=
  ⟨h.accounts, h.shifts.between hbefore hafter⟩

theorem Paid.mirrors {amount entered : Nat} (hpaid : Paid cfg.toSdkConfig dst amount st mid)
    (hdst : dst = st.distribution.withdrawAddress addr) (hcaller : caller ≠ origin) (hA : dst ∈ A)
    (hmodule : cfg.distributionModule ∈ U) (hamount : dst ∉ U → entered = amount)
    (h : (Distribution.withdrawEntry origin caller addr entered).run mid = .ok entries st') :
    Mirrors A U entries st st' := by
  unfold Distribution.withdrawEntry at h
  simp only [run_bind_ok, get_then, run_pure_ok, if_neg hcaller] at h
  obtain ⟨rfl, rfl⟩ := h
  rw [hpaid.withdrawAddress, ← hdst]
  refine .single hA
    ((hpaid.shifts.mono (Set.singleton_subset_iff.mpr hmodule)).congr fun a ha => ?_)
  simp only [netChange_cons, netChange_nil, add_zero, change, Pi.single_apply]
  split
  · rename_i heq
    subst heq
    rw [hamount ha]
  · rfl

theorem firstAmount_of_reported (h : dst ∉ U ∪ misreported dst coins) :
    Distribution.firstAmount coins = coins.get .islm := by
  by_contra hne
  exact h (.inr ⟨rfl, hne⟩)

theorem mirrors_mirrorBankBaseDeltas {party : Address}
    (hx : Relates (Transfers (Between Set.univ (insert party U))) x) (hparty : party ∈ addrs)
    (hA : ∀ a ∈ addrs, a ∈ A) (hcaller : caller ≠ origin)
    (h : (mirrorBankBaseDeltas origin caller addrs x).run st = .ok entries st') :
    Mirrors A U entries st st' := by
  unfold mirrorBankBaseDeltas at h
  simp only [run_bind_ok, get_then, run_pure_ok, run_keeper_ok, if_neg hcaller] at h
  obtain ⟨_, _, hrun, rfl, rfl⟩ := h
  constructor
  · intro entry hentry
    obtain ⟨addr, haddr, hdelta⟩ := List.mem_flatMap.mp hentry
    rw [account_of_mem_balanceDelta hdelta]
    exact hA addr (List.mem_dedup.mp haddr)
  · intro a ha
    rw [netChange_flatMap (List.nodup_dedup addrs)]
    split
    · ring
    · rename_i hnew
      have hsame : Shifts (insert party U) 0 _ _ := .of_transfers (hx _ _ _ hrun) subset_rfl
      refine hsame a fun hmem => ?_
      rcases hmem with rfl | hunmirrored
      · exact hnew (List.mem_dedup.mpr hparty)
      · exact ha hunmirrored

variable {sender : Address}

section Calls

variable {entries : List BalanceChangeEntry} {A U : Set Address}

theorem mirrors_of_check {expected : Authorization → Bool}
    {rest : Address → CallM (List BalanceChangeEntry)}
    (hrest : ∀ granter st st', (rest granter).run st = .ok entries st' →
      Mirrors A U entries st st')
    (h : (resolveSender origin caller sender >>= fun granter =>
      checkAndAcceptAuthorizationIfNeeded cfg caller expected granter msg >>= fun _ =>
      rest granter).run st = .ok entries st') : Mirrors A U entries st st' := by
  simp only [run_bind_ok] at h
  obtain ⟨granter, _, hresolve, _, checked, hcheck, hend⟩ := h
  obtain ⟨rfl, -, -⟩ := run_resolveSender_ok hresolve
  exact (hrest granter _ _ hend).between (consumeGrant_uses hcheck).1.bank rfl

theorem mirrors_of_authorize {rest : CallM (List BalanceChangeEntry)}
    (hrest : ∀ st st', rest.run st = .ok entries st' → Mirrors A U entries st st')
    (h : (Liquid.authorize cfg origin caller sender msg >>= fun _ => rest).run st =
      .ok entries st') : Mirrors A U entries st st' := by
  obtain ⟨_, checked, hcheck, hend⟩ := run_bind_ok.mp h
  exact (hrest _ _ hend).between (run_authorize_ok hcheck).1.bank rfl

theorem mirrors_unmirrored (hx : Relates (Transfers (Between Set.univ U)) x)
    (h : (keeper x >>= fun _ => pure []).run st = .ok entries st') :
    Mirrors A U entries st st' := by
  simp only [run_bind_ok, run_keeper_ok, run_pure_ok] at h
  obtain ⟨_, _, hrun, rfl, rfl⟩ := h
  exact .none (.of_transfers (hx _ _ _ hrun) subset_rfl)

theorem mirrors_of_execute {amount : Nat} {result : List BalanceChangeEntry}
    (hA : ∀ entry ∈ result, entry.account ∈ A)
    (hx : ∀ after, x.run st = .ok () after → Shifts U (netChange result) st after)
    (h : (Staking.execute cfg origin caller delegator msg amount x >>= fun _ =>
      pure result).run st =
      .ok entries st') : Mirrors A U entries st st' := by
  simp only [run_bind_ok, run_pure_ok] at h
  obtain ⟨_, _, hexecute, rfl, rfl⟩ := h
  obtain ⟨after, hrun, hafter, -, -⟩ := run_execute_ok hexecute
  exact ⟨hA, (hx after hrun).between rfl hafter.bank⟩

theorem TxCall.mirrors {call : TxCall} (hcaller : caller ≠ origin)
    (h : (call.run cfg origin caller).run st = .ok entries st') :
    Mirrors (call.mirrored cfg st.modules.rest) (call.unmirrored cfg st.modules.rest) entries st
      st' := by
  have hmodules : ∀ {T : Set Address}, cfg.liquidModule ∈ T → cfg.ethiqModule ∈ T →
      ModuleAccounts cfg.toConfig Set.univ T :=
    fun hliquid hethiq => ⟨⟨trivial, hliquid⟩, ⟨trivial, hethiq⟩⟩
  cases call with
  | convertToHaqq sender receiver amount =>
    refine mirrors_of_check (fun granter st st' hrest => mirrors_unmirrored ?_ hrest) h
    exact transfers_msgConvertToHaqq _ _ ⟨trivial, .inl rfl⟩
      (hmodules (.inr (.inl rfl)) (.inr (.inr rfl)))
  | transferOwnership owner newOwner =>
    refine mirrors_of_check (fun granter st st' hrest =>
      mirrors_unmirrored ?_ (ensure_then.mp (run_bind_ok.mp hrest)).2) h
    exact transfers_msgTransferOwnership ⟨trivial, .inl rfl⟩ (.inr rfl)
  | transferOwnershipWithAmount owner newOwner denoms amounts =>
    obtain ⟨-, h⟩ := ensure_then.mp (run_bind_ok.mp h)
    refine mirrors_of_check (fun granter st st' hrest =>
      mirrors_unmirrored ?_ (ensure_then.mp (run_bind_ok.mp hrest)).2) h
    exact transfers_msgTransferOwnershipWithAmount _ ⟨trivial, .inl rfl⟩ (.inr rfl)
  | mintHaqq sender receiver amount =>
    refine mirrors_of_check (fun granter st st' hrest => ?_) h
    refine mirrors_mirrorBankBaseDeltas ?_ (List.mem_singleton_self sender)
      (fun _ => List.mem_singleton.mp) hcaller hrest
    exact transfers_msgMintHaqq _ _ ⟨trivial, .inl rfl⟩
        (hmodules (.inr (.inl rfl)) (.inr (.inr rfl)))
  | mintHaqqByApplication sender appId =>
    refine mirrors_of_check (fun granter st st' hrest => ?_) h
    obtain ⟨application, happlication, hrest⟩ := ofOption_then.mp (run_bind_ok.mp hrest)
    have hpayer : applicationPayer cfg.toConfig sender (Ethiq.applicationID appId) =
        if application.source = .ucdao then cfg.escrow sender else sender := by
      unfold applicationPayer
      rw [happlication]
    rw [← hpayer] at hrest
    refine mirrors_mirrorBankBaseDeltas ?_ (List.mem_singleton_self _)
      (fun _ => List.mem_singleton.mp) hcaller hrest
    exact transfers_msgMintHaqqByApplication ⟨trivial, .inl rfl⟩
        (hmodules (.inr (.inl rfl)) (.inr (.inr rfl)))
  | liquidate sender receiver amount =>
    refine mirrors_of_authorize (fun st st' hrest => ?_) h
    refine mirrors_mirrorBankBaseDeltas ?_ (List.mem_singleton_self sender)
      (fun _ => List.mem_singleton.mp) hcaller hrest
    exact .bind (transfers_msgLiquidate _ _ ⟨trivial, .inl rfl⟩ ⟨trivial, .inr rfl⟩) fun _ =>
        .pure _
  | redeem sender receiver denom amount =>
    refine mirrors_of_authorize (fun st st' hrest => ?_) h
    have hreceiver : receiver ∈ [sender, receiver] := by simp
    refine mirrors_mirrorBankBaseDeltas ?_ hreceiver ?_ hcaller hrest
    · exact transfers_msgRedeem _ trivial ⟨trivial, .inr rfl⟩ (.inl rfl)
    · intro a ha
      simpa [TxCall.mirrored] using ha
  | createValidator validator value =>
    obtain ⟨_, _, hcheck, -⟩ := run_bind_ok.mp h
    exact absurd (run_checkOperator_ok hcheck).1 hcaller
  | editValidator validator =>
    obtain ⟨_, _, hcheck, -⟩ := run_bind_ok.mp h
    exact absurd (run_checkOperator_ok hcheck).1 hcaller
  | delegate delegator validator amount =>
    have hentries : (if caller = origin then [] else
        [(⟨delegator, amount.val, .sub⟩ : BalanceChangeEntry)]) = [⟨delegator, amount.val, .sub⟩] :=
      if_neg hcaller
    simp only [TxCall.run, Staking.delegate, hentries] at h
    refine mirrors_of_execute (fun entry hentry => ?_) (fun after hrun => ?_) h
    · rw [List.mem_singleton.mp hentry]
      rfl
    · simpa [netChange, change, TxCall.unmirrored] using msgDelegate_shifts hrun
  | undelegate delegator validator amount =>
    exact mirrors_of_execute (List.forall_mem_nil _)
      (fun _ hrun => msgUndelegate_shifts hrun) h
  | redelegate delegator source target amount =>
    exact mirrors_of_execute (List.forall_mem_nil _)
      (fun _ hrun => msgBeginRedelegate_shifts hrun) h
  | cancelUnbondingDelegation delegator validator amount creationHeight =>
    exact mirrors_of_execute (List.forall_mem_nil _)
      (fun _ hrun => msgCancelUnbondingDelegation_shifts hrun) h
  | claimRewards delegator maxRetrieve =>
    simp only [TxCall.run, Distribution.claimRewards, Distribution.checkAccount, run_bind_ok,
      ensure_then, get_then, run_keeper_ok] at h
    obtain ⟨-, -, -, coins, paid, hpay, h⟩ := h
    exact (withdrawAll_paid hpay).mirrors rfl hcaller rfl rfl (fun _ => rfl) h
  | setWithdrawAddress delegator withdrawAddress =>
    simp only [TxCall.run, Distribution.setWithdrawAddress, Distribution.checkAccount,
      Haqq.Distribution.setWithdrawAddr, run_bind_ok, ensure_then, run_keeper_ok, run_modify_ok,
      run_pure_ok] at h
    obtain ⟨-, -, _, _, ⟨-, -, rfl⟩, rfl, rfl⟩ := h
    exact .none (.of_bank rfl)
  | withdrawDelegatorRewards delegator validator =>
    simp only [TxCall.run, Distribution.withdrawDelegatorRewards, Distribution.checkAccount,
      run_bind_ok, ensure_then, run_keeper_ok] at h
    obtain ⟨-, -, coins, paid, hpay, h⟩ := h
    obtain ⟨rfl, heffect, -⟩ := Staking.withdrawChecked_effect hpay
    exact (Paid.of_effect heffect).mirrors rfl hcaller rfl (.inl rfl) firstAmount_of_reported h
  | withdrawValidatorCommission validator =>
    simp only [TxCall.run, Distribution.withdrawValidatorCommission, Distribution.checkAccount,
      run_bind_ok, ensure_then, run_keeper_ok] at h
    obtain ⟨-, coins, paid, hpay, h⟩ := h
    obtain ⟨rfl, hpaid⟩ := withdrawValidatorCommission_paid hpay
    exact hpaid.mirrors rfl hcaller rfl (.inl rfl) firstAmount_of_reported h
  | fundCommunityPool depositor amount =>
    simp only [TxCall.run, Distribution.fundCommunityPool, Distribution.checkAccount,
      Haqq.Distribution.fundCommunityPool, Bank.sendCoinsFromAccountToModule, run_bind_ok,
      ensure_then, run_keeper_ok, run_pure_ok, if_neg hcaller] at h
    obtain ⟨-, -, _, _, ⟨-, hsend⟩, rfl, rfl⟩ := h
    refine .single rfl ((sendCoins_shifts hsend).1.congr fun a ha => ?_)
    have hne : a ≠ cfg.distributionModule := ha
    simp [change, hne, Pi.single_neg, Tally.get_single_self]
  | authorization change =>
    simp only [TxCall.run, run_bind_ok, get_then, runExcept_then, run_modify_ok, run_pure_ok] at h
    obtain ⟨grants, -, _, _, rfl, rfl, rfl⟩ := h
    exact .none (.of_bank rfl)

end Calls

end Haqq.Precompiles
