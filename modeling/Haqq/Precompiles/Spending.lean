import Haqq.Precompiles.Transfers
import Haqq.Staking.Distribution

/-!
# Whose coins and delegations the SDK modules spend

`Spends D` says that only accounts in `D` are debited, in the bank or in their delegations, and that
grants stay.
-/

namespace Haqq

open Lib Lib.Ledger Vesting

/-- Like `Spends`, with any change of grants. -/
structure Debits (D : Set Address) (st st' : ChainState SdkState) : Prop where
  bank : Moves (Between D Set.univ) st.bank st'.bank
  bonded : ∀ a ∉ D, st'.staking.bonded a = st.staking.bonded a
  unbonding : ∀ a ∉ D, st'.staking.unbonding a = st.staking.unbonding a

structure Spends (D : Set Address) (st st' : ChainState SdkState) : Prop extends
    Debits D st st' where
  grants : st'.grants = st.grants

variable {D : Set Address} {cfg : SdkConfig} {st st' : ChainState SdkState} {α : Type}

instance : IsPreorder (ChainState SdkState) (Debits D) where
  refl _ := ⟨refl_of (Moves _) _, fun _ _ => rfl, fun _ _ => rfl⟩
  trans _ _ _ h h' :=
    ⟨trans_of (Moves _) h.bank h'.bank, fun a ha => (h'.bonded a ha).trans (h.bonded a ha),
      fun a ha => (h'.unbonding a ha).trans (h.unbonding a ha)⟩

instance : IsPreorder (ChainState SdkState) (Spends D) where
  refl st := ⟨refl_of (Debits D) st, rfl⟩
  trans _ _ _ h h' := ⟨trans_of (Debits D) h.toDebits h'.toDebits, h'.grants.trans h.grants⟩

theorem Spends.mono {D' : Set Address} (h : Spends D st st') (hD : D ⊆ D') : Spends D' st st' where
  bank := by
    refine h.bank.mono fun m hm => ?_
    cases m with
    | send src dst coins => exact ⟨hD hm.1, .inr ⟨trivial, trivial⟩⟩
    | mint a coins => exact .inr trivial
    | burn a coins => exact ⟨hD hm.1, .inr trivial⟩
  bonded a ha := h.bonded a fun hmem => ha (hD hmem)
  unbonding a ha := h.unbonding a fun hmem => ha (hD hmem)
  grants := h.grants

theorem Transfers.spends (h : Transfers (Between D Set.univ) st st') : Spends D st st' where
  bank := h.bank
  bonded a _ := congrArg (fun rest : SdkState => rest.staking.bonded a) h.rest
  unbonding a _ := congrArg (fun rest : SdkState => rest.staking.unbonding a) h.rest
  grants := congrArg SdkState.grants h.rest

theorem spends_of_transfers {x : SdkM α} (h : Relates (Transfers (Between D Set.univ)) x) :
    Relates (Spends D) x :=
  fun st a st' hrun => (h st a st' hrun).spends

section Bank

variable {src dst : Address} {coins : Coins}

theorem spends_sendCoins (hsrc : src ∈ D) :
    Relates (Spends D) (Bank.sendCoins cfg.toEnv src dst coins : SdkM Unit) :=
  spends_of_transfers (transfers_sendCoins ⟨hsrc, .inr ⟨trivial, trivial⟩⟩)

theorem spends_liftSend {locked : ChainState SdkState → Coins} (hsrc : src ∈ D) :
    Relates (Spends D)
      (liftBank .insufficientFunds fun st => st.bank.send (locked st) src dst coins) := by
  intro st u st' hrun
  obtain ⟨bank, hsend, rfl⟩ := Bank.run_liftBank_ok.mp hrun
  have hmove : Between D Set.univ (.send src dst coins) := ⟨hsrc, .inr ⟨trivial, trivial⟩⟩
  exact ⟨⟨.single hmove (.send hsend), fun _ _ => rfl, fun _ _ => rfl⟩, rfl⟩

end Bank

/-! ## The modules of the chain -/

variable {newOwner : Address}

section Modules

variable {T : Set Address} {addr : Address}

theorem transfers_msgConvertToHaqq (receiver : Address) (islmAmount : Nat)
    (hescrow : cfg.escrow addr ∈ D ∧ cfg.escrow addr ∈ T)
    (hmodules : ModuleAccounts cfg.toConfig D T) :
    Relates (Transfers (Between D T))
      ((Ucdao.Msg.convertToHaqq addr receiver islmAmount).handle cfg.toConfig) :=
  .bind (.ensure _ _) fun _ =>
    .bind (transfers_convertToHaqq _ _ hescrow hmodules) fun _ => .pure _

theorem transfers_msgTransferOwnership (hescrow : cfg.escrow addr ∈ D ∧ cfg.escrow addr ∈ T)
    (hnewOwner : cfg.escrow newOwner ∈ T) :
    Relates (Transfers (Between D T))
      ((Ucdao.Msg.transferOwnership addr newOwner).handle cfg.toConfig) :=
  .bind .get fun _ => .bind (.ensure _ _) fun _ => transfers_transferOwnership _ hescrow hnewOwner

theorem transfers_msgTransferOwnershipWithAmount (amount : Coins)
    (hescrow : cfg.escrow addr ∈ D ∧ cfg.escrow addr ∈ T) (hnewOwner : cfg.escrow newOwner ∈ T) :
    Relates (Transfers (Between D T))
      ((Ucdao.Msg.transferOwnershipWithAmount addr newOwner amount).handle cfg.toConfig) :=
  .bind .get fun _ => .bind (.ensure _ _) fun _ => transfers_transferOwnership _ hescrow hnewOwner

theorem transfers_msgMintHaqq (toAddress : Address) (islmAmount : Nat)
    (haddr : addr ∈ D ∧ addr ∈ T) (hmodules : ModuleAccounts cfg.toConfig D T) :
    Relates (Transfers (Between D T))
      ((Ethiq.Msg.mintHaqq addr toAddress islmAmount).handle cfg.toConfig) :=
  .bind (transfers_burnIslmForHaqq _ _ haddr hmodules) fun _ => .pure _

theorem transfers_msgMintHaqqByApplication {appId : Nat}
    (hpayer : applicationPayer cfg.toConfig addr appId ∈ D ∧
      applicationPayer cfg.toConfig addr appId ∈ T)
    (hmodules : ModuleAccounts cfg.toConfig D T) :
    Relates (Transfers (Between D T))
      ((Ethiq.Msg.mintHaqqByApplication addr appId).handle cfg.toConfig) :=
  .bind (transfers_burnIslmForHaqqByApplicationID hpayer hmodules) fun _ => .pure _

theorem transfers_msgLiquidate (liquidateTo : Address) (amount : Coin)
    (haddr : addr ∈ D ∧ addr ∈ T) (hmodule : cfg.liquidModule ∈ D ∧ cfg.liquidModule ∈ T) :
    Relates (Transfers (Between D T))
      (LiquidVesting.msgLiquidate cfg.toConfig addr liquidateTo amount) :=
  .bind (.ensure _ _) fun _ => transfers_liquidate _ _ haddr hmodule

theorem transfers_msgRedeem {redeemTo : Address} (amount : Coin) (haddr : addr ∈ D)
    (hmodule : cfg.liquidModule ∈ D ∧ cfg.liquidModule ∈ T) (hto : redeemTo ∈ T) :
    Relates (Transfers (Between D T))
      (LiquidVesting.msgRedeem cfg.toConfig addr redeemTo amount) :=
  .bind (.ensure _ _) fun _ => transfers_redeem _ haddr hmodule hto

end Modules

section Distribution

theorem spends_setDistribution (f : ChainState SdkState → Distribution.State) :
    Relates (Spends D) (modify fun st => st.setDistribution (f st) : SdkM PUnit) :=
  .modify fun _ => ⟨⟨refl_of (Moves _) _, fun _ _ => rfl, fun _ _ => rfl⟩, rfl⟩

section

variable (hmodule : cfg.distributionModule ∈ D)

include hmodule

theorem spends_payOut (dst : Address) (coins : Coins) :
    Relates (Spends D) (Staking.payOut cfg dst coins) := by
  unfold Staking.payOut
  split
  · exact .pure _
  · exact .bind (.ensure _ _) fun _ => spends_sendCoins hmodule

theorem spends_withdrawDelegationRewards (delegator validator : Address) :
    Relates (Spends D) (Staking.withdrawDelegationRewards cfg delegator validator) :=
  .bind .get fun _ => .bind (spends_payOut hmodule _ _) fun _ =>
    .bind (spends_setDistribution _) fun _ => .pure _

theorem spends_withdrawChecked (delegator validator : Address) :
    Relates (Spends D) (Distribution.withdrawDelegationRewards cfg delegator validator) :=
  .bind .get fun _ => .bind (.ensure _ _) fun _ => .bind (.ensure _ _) fun _ =>
    spends_withdrawDelegationRewards hmodule _ _

theorem spends_withdrawValidatorCommission (validator : Address) :
    Relates (Spends D) (Distribution.withdrawValidatorCommission cfg validator) :=
  .bind .get fun _ => .bind (.ensure _ _) fun _ => .bind (spends_payOut hmodule _ _) fun _ =>
    .bind (spends_setDistribution _) fun _ => .pure _

end

theorem spends_setWithdrawAddr (enabled : Bool) (delegator withdrawAddr : Address) :
    Relates (Spends D) (Distribution.setWithdrawAddr cfg enabled delegator withdrawAddr) :=
  .bind (.ensure _ _) fun _ => .bind (.ensure _ _) fun _ => spends_setDistribution _

theorem spends_fundCommunityPool {depositor : Address} (amount : Nat) (hdepositor : depositor ∈ D) :
    Relates (Spends D) (Distribution.fundCommunityPool cfg depositor amount) :=
  .bind (.ensure _ _) fun _ => spends_sendCoins hdepositor

end Distribution

/-! ## Staking -/

variable {delegator : Address} {R : ChainState SdkState → ChainState SdkState → Prop}

section Staking

open Staking

theorem spends_modifyStaking {f : Staking.State → Staking.State}
    (hbonded : ∀ s, ∀ a ∉ D, (f s).bonded a = s.bonded a)
    (hunbonding : ∀ s, ∀ a ∉ D, (f s).unbonding a = s.unbonding a) :
    Relates (Spends D) (modifyStaking f) :=
  .modify fun st => ⟨⟨refl_of (Moves _) _, hbonded st.staking, hunbonding st.staking⟩, rfl⟩

theorem update_of_notMem {β : Type} {f : Address → β} {value : β} (hdelegator : delegator ∈ D) :
    ∀ a ∉ D, Function.update f delegator value a = f a := by
  intro a ha
  have hne : a ≠ delegator := by
    rintro rfl
    exact ha hdelegator
  exact Function.update_of_ne hne _ _

theorem spends_track (addr : Address)
    (note : ClawbackVestingAccount → Option ClawbackVestingAccount) :
    Relates (Spends D) (track addr note) := by
  refine .bind .get fun _ => .bind (.ofOption _ _) fun _ => ?_
  split
  · exact .bind (.ofOption _ _) fun _ => spends_of_transfers (transfers_setAccount _ _)
  · exact .pure _

theorem spends_delegateCoins (module : Address) (coins : Coins) (hdelegator : delegator ∈ D) :
    Relates (Spends D) (delegateCoins delegator module coins) :=
  .bind .get fun _ => .bind (spends_liftSend hdelegator) fun _ => spends_track _ _

theorem spends_beforeDelegationSharesModified (delegator validator : Address)
    (hmodule : cfg.distributionModule ∈ D) :
    Relates (Spends D) (beforeDelegationSharesModified cfg delegator validator) := by
  refine .bind .get fun _ => ?_
  split
  · exact .bind (spends_withdrawDelegationRewards hmodule _ _) fun _ => .pure _
  · exact .pure _

variable {delegator : Address}

structure StakingAccounts (cfg : SdkConfig) (D : Set Address) : Prop where
  distribution : cfg.distributionModule ∈ D
  bonded : cfg.bondedPool ∈ D
  notBonded : cfg.notBondedPool ∈ D

theorem spends_delegate (validator : Address) (amount : Nat) (hdelegator : delegator ∈ D)
    (hmodules : StakingAccounts cfg D) :
    Relates (Spends D) (delegate cfg delegator validator amount) :=
  .bind .get fun _ => .bind (.ensure _ _) fun _ =>
    .bind (spends_beforeDelegationSharesModified _ _ hmodules.distribution) fun _ =>
    .bind (spends_delegateCoins _ _ hdelegator) fun _ =>
    spends_modifyStaking (fun _ => update_of_notMem hdelegator) fun _ _ _ => rfl

theorem relates_checkAmount [IsPreorder (ChainState SdkState) R] (amount : Coin) :
    Relates R (checkAmount amount) :=
  .bind (.ensure _ _) fun _ => .ensure _ _

theorem relates_validateDelegationAmountNotUnvested [IsPreorder (ChainState SdkState) R]
    (addr : Address) (amount : Nat) :
    Relates R (validateDelegationAmountNotUnvested cfg addr amount) := by
  refine .bind .get fun _ => .bind (.ofOption _ _) fun _ => ?_
  split
  · exact .bind (.ofOption _ _) fun _ => .ensure _ _
  · exact .pure _

theorem spends_msgDelegate (validator : Address) (amount : Coin) (hdelegator : delegator ∈ D)
    (hmodules : StakingAccounts cfg D) :
    Relates (Spends D) (msgDelegate cfg delegator validator amount) :=
  .bind (relates_validateDelegationAmountNotUnvested _ _) fun _ => .bind (relates_checkAmount _)
    fun _ => spends_delegate _ _ hdelegator hmodules

theorem spends_msgCreateValidator {validator : Address} (value : Coin) (hvalidator : validator ∈ D)
    (hmodules : StakingAccounts cfg D) :
    Relates (Spends D) (msgCreateValidator cfg validator value) :=
  .bind (relates_validateDelegationAmountNotUnvested _ _) fun _ => .bind (relates_checkAmount _)
    fun _ => .bind .get fun _ => .bind (.ensure _ _) fun _ =>
    .bind (spends_modifyStaking (fun _ _ _ => rfl) fun _ _ _ => rfl) fun _ =>
    spends_delegate _ _ hvalidator hmodules

section

variable (amount : Coin) (hdelegator : delegator ∈ D) (hmodules : StakingAccounts cfg D)

include hdelegator hmodules

theorem spends_msgUndelegate (height : Int) (validator : Address) :
    Relates (Spends D) (msgUndelegate cfg height delegator validator amount) :=
  .bind (relates_checkAmount _) fun _ => .bind .get fun _ => .bind (.ensure _ _) fun _ =>
    .bind (spends_beforeDelegationSharesModified _ _ hmodules.distribution) fun _ =>
    .bind (spends_sendCoins hmodules.bonded) fun _ =>
    spends_modifyStaking (fun _ => update_of_notMem hdelegator) fun _ =>
      update_of_notMem hdelegator

theorem spends_msgBeginRedelegate (source target : Address) :
    Relates (Spends D) (msgBeginRedelegate cfg delegator source target amount) :=
  .bind (relates_checkAmount _) fun _ => .bind .get fun _ => .bind (.ensure _ _) fun _ =>
    .bind .get fun _ => .bind (.ensure _ _) fun _ =>
    .bind (spends_beforeDelegationSharesModified _ _ hmodules.distribution) fun _ =>
    .bind (spends_beforeDelegationSharesModified _ _ hmodules.distribution) fun _ =>
    spends_modifyStaking
      (fun _ a ha => (update_of_notMem hdelegator a ha).trans (update_of_notMem hdelegator a ha))
      fun _ _ _ => rfl

theorem spends_msgCancelUnbondingDelegation (validator : Address) (height : Int) :
    Relates (Spends D) (msgCancelUnbondingDelegation cfg delegator validator amount height) :=
  .bind (relates_checkAmount _) fun _ => .bind .get fun _ => .bind (.ensure _ _) fun _ =>
    .bind (spends_beforeDelegationSharesModified _ _ hmodules.distribution) fun _ =>
    .bind (spends_sendCoins hmodules.notBonded) fun _ =>
    spends_modifyStaking (fun _ => update_of_notMem hdelegator) fun _ =>
      update_of_notMem hdelegator

end

end Staking

end Haqq
