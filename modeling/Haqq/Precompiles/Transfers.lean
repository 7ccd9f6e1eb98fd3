import Haqq.Lib.Movements
import Haqq.Ucdao.Keeper
import Haqq.Vesting.Effects

/-!
# Whose coins the keepers move

`Between D T` says of one movement that its source is in `D` and that aISLM moves within `T`; every
call of the liquid vesting, ethiq and UCDAO keepers consists of such movements, and leaves the other
modules alone.
-/

namespace Haqq

open Lib Lib.Ledger Vesting

/-- Coins of an account in `D` move, and aISLM only within `T`. -/
def Between (D T : Set Address) : Move Address Denom → Prop
  | .send src dst coins => src ∈ D ∧ (coins.get .islm = 0 ∨ src ∈ T ∧ dst ∈ T)
  | .mint a coins => coins.get .islm = 0 ∨ a ∈ T
  | .burn a coins => a ∈ D ∧ (coins.get .islm = 0 ∨ a ∈ T)

structure Transfers {S : Type} (P : Move Address Denom → Prop) (st st' : ChainState S) : Prop where
  bank : Moves P st.bank st'.bank
  rest : st'.modules.rest = st.modules.rest

variable {S : Type} {cfg : Config S} {D T : Set Address} {P : Move Address Denom → Prop}

instance : IsPreorder (ChainState S) (Transfers P) where
  refl _ := ⟨refl_of (Moves P) _, rfl⟩
  trans _ _ _ h h' := ⟨trans_of (Moves P) h.bank h'.bank, h'.rest.trans h.rest⟩

section Between

variable {b : Address} {m : Move Address Denom}

theorem Between.source_mem (h : Between D T m) : ∀ a, m.source = some a → a ∈ D := by
  intro a ha
  cases m with
  | send src dst coins =>
    cases ha
    exact h.1
  | mint a coins => cases ha
  | burn a coins =>
    cases ha
    exact h.1

theorem Between.islm_eq_zero (h : Between D T m) (hb : b ∉ T) (hparty : b ∈ m.parties) :
    m.coins.get .islm = 0 := by
  cases m with
  | send src dst coins =>
    obtain hzero | ⟨hsrc, hdst⟩ := h.2
    · exact hzero
    · simp only [Move.parties, List.mem_cons, List.not_mem_nil, or_false] at hparty
      rcases hparty with rfl | rfl
      · exact absurd hsrc hb
      · exact absurd hdst hb
  | mint a coins =>
    refine h.resolve_right fun ha => hb ?_
    rwa [List.mem_singleton.mp hparty]
  | burn a coins =>
    refine h.2.resolve_right fun ha => hb ?_
    rwa [List.mem_singleton.mp hparty]

theorem le_balance_of_between {l l' : Ledger Address Denom} (h : Moves (Between D T) l l')
    (hb : b ∉ D) (d : Denom) : (l.balance b).get d ≤ (l'.balance b).get d :=
  h.le_balance fun _ hm hsource => hb (hm.source_mem b hsource)

theorem islm_eq_of_between {l l' : Ledger Address Denom} (h : Moves (Between D T) l l')
    (hb : b ∉ T) : (l'.balance b).get .islm = (l.balance b).get .islm :=
  h.balance_eq fun _ hm => hm.islm_eq_zero hb

end Between

section Bank

variable {env : Env} {src dst module : Address} {coins : Coins}

theorem transfers_sendCoins (h : P (.send src dst coins)) :
    Relates (Transfers P) (Bank.sendCoins env src dst coins : ModuleM S Unit) := by
  intro st u st' hrun
  obtain ⟨bank, hsend, rfl⟩ := Bank.run_sendCoins_ok.mp hrun
  refine ⟨?_, by simp⟩
  rw [Bank.withRecipient_bank]
  exact .single h (.send hsend)

theorem transfers_sendCoinsFromModuleToAccount (h : P (.send module dst coins)) :
    Relates (Transfers P)
      (Bank.sendCoinsFromModuleToAccount env module dst coins : ModuleM S Unit) :=
  .bind (.ensure _ _) fun _ => transfers_sendCoins h

theorem transfers_mintCoins (h : P (.mint module coins)) :
    Relates (Transfers P) (Bank.mintCoins module coins : ModuleM S Unit) :=
  .modify fun _ => ⟨.single h (.mint _ _ _), rfl⟩

theorem transfers_burnCoins (h : P (.burn module coins)) :
    Relates (Transfers P) (Bank.burnCoins module coins : ModuleM S Unit) := by
  intro st u st' hrun
  obtain ⟨bank, hburn, rfl⟩ := Bank.run_liftBank_ok.mp hrun
  exact ⟨.single h (.burn hburn), rfl⟩

theorem transfers_modify {g : ChainState S → ChainState S} (hbank : ∀ st, (g st).bank = st.bank)
    (hrest : ∀ st, (g st).modules.rest = st.modules.rest) :
    Relates (Transfers P) (modify g : ModuleM S PUnit) :=
  .modify fun st => ⟨hbank st ▸ refl_of (Moves P) _, hrest st⟩

theorem transfers_setAccount (addr : Address) (acct : AuthAccount) :
    Relates (Transfers P) (setAccount addr acct : ModuleM S Unit) :=
  transfers_modify (fun _ => rfl) fun _ => rfl

end Bank

/-! ## Liquid tokens -/

theorem transfers_applyVestingSchedule (funder funded : Address) (coins : Coins) (startTime : Int)
    (lockupPeriods vestingPeriods : Periods) (merge : Bool) :
    Relates (Transfers P) (applyVestingSchedule cfg funder funded coins startTime lockupPeriods
      vestingPeriods merge) := by
  intro st u st' hrun
  obtain ⟨⟨va', heffect, -⟩, hbank⟩ := applyVestingSchedule_effect hrun
  exact ⟨hbank ▸ refl_of (Moves P) _, congrArg Modules.rest heffect.modules⟩

section LiquidVesting

open LiquidVesting

theorem transfers_modifyLiquidVesting (f : LiquidVesting.State → LiquidVesting.State) :
    Relates (Transfers P) (modifyLiquidVesting f : ModuleM S Unit) :=
  transfers_modify (fun _ => rfl) fun _ => rfl

theorem transfers_saveDenomPeriods (id : Nat) (periods : Periods) :
    Relates (Transfers P) (saveDenomPeriods id periods : ModuleM S Unit) := by
  unfold saveDenomPeriods deleteDenom toggleConversion updateDenomPeriods
  split
  · exact .bind (transfers_modifyLiquidVesting _) fun _ => .bind .get fun _ =>
      .bind (.ofOption _ _) fun _ => transfers_modifyLiquidVesting _
  · exact .bind .get fun _ => .bind (.ofOption _ _) fun _ => transfers_modifyLiquidVesting _

theorem transfers_lockRedeemed (toAddress : Address) (denom : LiquidDenom) (periods : Periods)
    (coins : Coins) : Relates (Transfers P) (lockRedeemed cfg toAddress denom periods coins) :=
  .bind .get fun _ => .bind (.ofOption _ _) fun _ =>
    transfers_applyVestingSchedule _ _ _ _ _ _ _

theorem islm_single_liquid (id amount : Nat) :
    (Tally.single (Denom.liquid id) amount).get .islm = 0 :=
  Tally.get_single_of_ne _ (by simp)

theorem transfers_redeem {fromAddress toAddress : Address} (amount : Coin)
    (hfrom : fromAddress ∈ D) (hmodule : cfg.liquidModule ∈ D ∧ cfg.liquidModule ∈ T)
    (hto : toAddress ∈ T) :
    Relates (Transfers (Between D T)) (redeem cfg fromAddress toAddress amount) := by
  unfold redeem
  split
  · refine .bind .get fun _ => .bind (.ensure _ _) fun _ => .bind (.ensure _ _) fun _ =>
      .bind (.ofOption _ _) fun _ => .bind (.ensure _ _) fun _ => .bind (.ensure _ _) fun _ =>
      .bind (transfers_sendCoins ⟨hfrom, .inl (islm_single_liquid _ _)⟩) fun _ =>
      .bind (transfers_burnCoins ⟨hmodule.1, .inr hmodule.2⟩) fun _ =>
      .bind (.ofOption _ _) fun _ => .bind (transfers_saveDenomPeriods _ _) fun _ =>
      .bind (transfers_sendCoinsFromModuleToAccount ⟨hmodule.1, .inr ⟨hmodule.2, hto⟩⟩) fun _ => ?_
    split
    · exact .pure _
    · exact transfers_lockRedeemed _ _ _ _
  · exact .bind .get fun _ => .bind (.ensure _ _) fun _ => .throw _

theorem transfers_liquidateSchedule (now : Int) (va : ClawbackVestingAccount) (amount : Coin) :
    Relates (Transfers P)
      (liquidateSchedule now va amount : ModuleM S (ClawbackVestingAccount × Periods)) :=
  .bind (.ofOption _ _) fun _ => .bind (.ensure _ _) fun _ => .bind (.ofOption _ _) fun _ =>
    .bind (.ensure _ _) fun _ => .bind (.ensure _ _) fun _ => .bind (.ofOption _ _) fun _ =>
    .bind (.ofOption _ _) fun _ => .bind (.ofOption _ _) fun _ => .pure _

theorem transfers_liquidate {liquidateFrom : Address} (liquidateTo : Address) (amount : Coin)
    (hfrom : liquidateFrom ∈ D ∧ liquidateFrom ∈ T)
    (hmodule : cfg.liquidModule ∈ D ∧ cfg.liquidModule ∈ T) :
    Relates (Transfers (Between D T)) (liquidate cfg liquidateFrom liquidateTo amount) := by
  refine .bind .get fun _ => .bind (.ensure _ _) fun _ => .bind (.ensure _ _) fun _ =>
    .bind (.ensure _ _) fun _ => .bind (.ofOption _ _) fun _ => .bind (.ofOption _ _) fun _ =>
    .bind (transfers_liquidateSchedule _ _ _) fun _ => .bind (transfers_setAccount _ _) fun _ =>
    .bind (transfers_sendCoins ⟨hfrom.1, .inr ⟨hfrom.2, hmodule.2⟩⟩) fun _ =>
    .bind ?_ fun _ => .bind (transfers_mintCoins (.inr hmodule.2)) fun _ =>
    .bind (transfers_sendCoinsFromModuleToAccount
      ⟨hmodule.1, .inl (islm_single_liquid _ _)⟩) fun _ =>
    .bind (transfers_modifyLiquidVesting _) fun _ => .pure _
  exact .bind .get fun _ => .bind (.ensure _ _) fun _ =>
    .bind (transfers_modifyLiquidVesting _) fun _ => .pure _

end LiquidVesting

/-! ## Burning aISLM for aHAQQ -/

section Ethiq

open Ethiq

theorem transfers_modifyUcdao (f : Ucdao.State → Ucdao.State) :
    Relates (Transfers P) (Ucdao.modifyUcdao f : ModuleM S Unit) :=
  transfers_modify (fun _ => rfl) fun _ => rfl

theorem transfers_trackSubBalance (coin : Coin) :
    Relates (Transfers P) (Ucdao.trackSubBalance coin : ModuleM S Unit) :=
  .bind .get fun _ => .bind (.ensure _ _) fun _ => transfers_modifyUcdao _

theorem transfers_modifyEthiq (f : Ethiq.State → Ethiq.State) :
    Relates (Transfers P) (modifyEthiq f : ModuleM S Unit) :=
  transfers_modify (fun _ => rfl) fun _ => rfl

theorem transfers_redeemLiquidCoins {addr : Address} (isUcdao : Bool) (balances : List Coin)
    (haddr : addr ∈ D ∧ addr ∈ T) (hmodule : cfg.liquidModule ∈ D ∧ cfg.liquidModule ∈ T) :
    Relates (Transfers (Between D T)) (redeemLiquidCoins cfg addr isUcdao balances) := by
  refine .forM fun balance _ => .bind (transfers_redeem balance haddr.1 hmodule haddr.2) fun _ => ?_
  split
  · exact .bind (transfers_modifyUcdao _) fun _ => transfers_trackSubBalance _
  · exact .pure _

theorem transfers_unlockSchedule (now : Int) (va : ClawbackVestingAccount) (amt : Nat) :
    Relates (Transfers P)
      (unlockSchedule now va amt : ModuleM S (Option ClawbackVestingAccount)) := by
  refine .bind (.ofOption _ _) fun _ => ?_
  split
  · refine .bind (.ofOption _ _) fun _ => ?_
    split
    · exact .pure _
    · exact .bind (.ofOption _ _) fun _ => .bind (.ofOption _ _) fun _ =>
        .bind (.ofOption _ _) fun _ => .pure _
  · exact .pure _

theorem transfers_unlockVestingCoins (fromAddress : Address) (amt : Nat) :
    Relates (Transfers P) (unlockVestingCoins cfg fromAddress amt) := by
  refine .bind .get fun _ => .bind (.ofOption _ _) fun _ => ?_
  split
  · refine .bind (transfers_unlockSchedule _ _ _) fun _ => ?_
    split
    · exact transfers_setAccount _ _
    · exact .pure _
  · exact .pure _

theorem transfers_checkAmountToBeMinted (amt : Nat) :
    Relates (Transfers P) (checkAmountToBeMinted amt : ModuleM S Unit) :=
  .bind .get fun _ => .bind (.ensure _ _) fun _ => .bind (.ensure _ _) fun _ =>
    .bind (.ensure _ _) fun _ => .ensure _ _

structure ModuleAccounts (cfg : Config S) (D T : Set Address) : Prop where
  liquid : cfg.liquidModule ∈ D ∧ cfg.liquidModule ∈ T
  ethiq : cfg.ethiqModule ∈ D ∧ cfg.ethiqModule ∈ T

theorem islm_single_haqq (amount : Nat) : (Tally.single Denom.haqq amount).get .islm = 0 :=
  Tally.get_single_of_ne _ (by simp)

theorem transfers_exchange {payer : Address} (toAddress : Address) (islmAmount haqqAmount : Nat)
    (isApplication isUcdao : Bool) (hpayer : payer ∈ D ∧ payer ∈ T)
    (hmodules : ModuleAccounts cfg D T) :
    Relates (Transfers (Between D T))
      (exchange cfg payer toAddress islmAmount haqqAmount isApplication isUcdao) := by
  refine .bind (transfers_checkAmountToBeMinted _) fun _ => .bind ?_ fun _ =>
    .bind (transfers_unlockVestingCoins _ _) fun _ => .bind ?_ fun _ => ?_
  · exact .bind .get fun _ => transfers_redeemLiquidCoins _ _ hpayer hmodules.liquid
  · exact .bind (transfers_sendCoins ⟨hpayer.1, .inr ⟨hpayer.2, hmodules.ethiq.2⟩⟩) fun _ =>
      .bind (transfers_burnCoins ⟨hmodules.ethiq.1, .inr hmodules.ethiq.2⟩) fun _ =>
      transfers_modifyEthiq _
  · exact .bind (transfers_mintCoins (.inr hmodules.ethiq.2)) fun _ =>
      transfers_sendCoinsFromModuleToAccount ⟨hmodules.ethiq.1, .inl (islm_single_haqq _)⟩

theorem transfers_burnIslmForHaqq (islmAmount : Nat) {fromAddress : Address} (toAddress : Address)
    (hpayer : fromAddress ∈ D ∧ fromAddress ∈ T) (hmodules : ModuleAccounts cfg D T) :
    Relates (Transfers (Between D T)) (burnIslmForHaqq cfg islmAmount fromAddress toAddress) := by
  refine .bind .get fun _ => .bind (.ensure _ _) fun _ => .bind (.ensure _ _) fun _ =>
    .bind ?_ fun _ => .bind (transfers_exchange _ _ _ _ _ hpayer hmodules) fun _ => .pure _
  exact .bind .get fun _ => .bind (.ensure _ _) fun _ => .bind (.ensure _ _) fun _ =>
    .bind (.ofOption _ _) fun _ => .bind (.ensure _ _) fun _ => .runExcept _

/-- The coins of a UCDAO application are in escrow. -/
def applicationPayer (cfg : Config S) (fromAddress : Address) (appId : Nat) : Address :=
  match getApplicationByID cfg appId with
  | some application => if application.source = .ucdao then cfg.escrow fromAddress else fromAddress
  | none => fromAddress

theorem transfers_burnIslmForHaqqByApplicationID {fromAddress : Address} {appId : Nat}
    (hpayer : applicationPayer cfg fromAddress appId ∈ D ∧
      applicationPayer cfg fromAddress appId ∈ T)
    (hmodules : ModuleAccounts cfg D T) :
    Relates (Transfers (Between D T)) (burnIslmForHaqqByApplicationID cfg fromAddress appId) := by
  refine .bind .get fun _ => .bind (.ensure _ _) fun _ => .bind_ofOption fun application hget =>
    .bind .get fun _ => .bind (.ensure _ _) fun _ => .bind (.ensure _ _) fun _ =>
    .bind (.ensure _ _) fun _ => .bind (.runExcept _) fun _ =>
    .bind (transfers_exchange _ _ _ _ _ ?_ hmodules) fun _ =>
    .bind (transfers_modifyEthiq _) fun _ => .pure _
  simpa [applicationPayer, hget] using hpayer

end Ethiq

section Ucdao

open Ucdao

theorem transfers_setHoldersIndex (addr : Address) :
    Relates (Transfers P) (setHoldersIndex cfg addr) := by
  intro st u st' hrun
  rw [run_setHoldersIndex_ok] at hrun
  subst hrun
  exact ⟨refl_of (Moves P) _, rfl⟩

theorem transfers_transferOwnership {owner newOwner : Address} (amount : List Coin)
    (howner : cfg.escrow owner ∈ D ∧ cfg.escrow owner ∈ T) (hnewOwner : cfg.escrow newOwner ∈ T) :
    Relates (Transfers (Between D T)) (transferOwnership cfg owner newOwner amount) := by
  refine .bind .get fun _ => .bind (.ensure _ _) fun _ => .bind .get fun _ =>
    .bind (.ensure _ _) fun _ => .bind ?_ fun _ => .bind (transfers_setHoldersIndex _) fun _ =>
    transfers_setHoldersIndex _
  exact .bind (.ensure _ _) fun _ => transfers_sendCoins ⟨howner.1, .inr ⟨howner.2, hnewOwner⟩⟩

theorem transfers_convertToHaqq {sender : Address} (receiver : Address) (islmAmount : Nat)
    (hescrow : cfg.escrow sender ∈ D ∧ cfg.escrow sender ∈ T) (hmodules : ModuleAccounts cfg D T) :
    Relates (Transfers (Between D T)) (convertToHaqq cfg sender receiver islmAmount) :=
  .bind .get fun _ => .bind (.ensure _ _) fun _ => .bind (.ensure _ _) fun _ =>
    .bind (.ensure _ _) fun _ =>
    .bind (transfers_redeemLiquidCoins _ _ hescrow hmodules.liquid) fun _ =>
    .bind (transfers_burnIslmForHaqq _ _ hescrow hmodules) fun _ =>
    .bind (transfers_trackSubBalance _) fun _ => .bind (transfers_setHoldersIndex _) fun _ =>
    .pure _

end Ucdao

end Haqq
