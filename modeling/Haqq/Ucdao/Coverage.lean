import Haqq.Ethiq.NoPanic
import Haqq.Ucdao.Genesis

/-!
# Conversions and the tracked total

`ConvertToHaqq` burns what an escrow account really holds and then subtracts it from the tracked
total with `Coin.Sub`, which panics if the total is too small.  Coins that are sent directly to the
escrow account of someone who takes part are missing from it.

* `Guarded.step`: the total covers what the escrow accounts hold.
* `converts_of_run`: then a conversion does not panic.
-/

namespace Haqq.Ucdao

open Lib LiquidVesting Ethiq Vesting

variable {S : Type} {cfg : Config S} {owners : Finset Address} {st st' : ChainState S} {u : Unit}

def Supported (d : Denom) : Prop := d = .islm ∨ d.isLiquid = true

def held (cfg : Config S) (owners : Finset Address) (bank : Ledger Address Denom) (d : Denom) :
    Nat :=
  ∑ e ∈ owners.image cfg.escrow, (bank.balance e).get d

/-- The total covers what the owners hold in escrow.  The rest is what a burn relies on. -/
structure Covered (cfg : Config S) (owners : Finset Address) (st : ChainState S) : Prop where
  total : ∀ d, Supported d → held cfg owners st.bank d ≤ st.modules.ucdao.totalBalance.get d
  islmOnly : IslmOnly st
  balanced : ∀ a ∈ owners, ∀ va, st.vestingAccount (cfg.escrow a) = some va → va.Balanced
  positioned : Positioned cfg st.modules.ethiq

variable {bank : Ledger Address Denom} {locked coins : Coins} {src dst : Address}

theorem held_send {bank' : Ledger Address Denom} (h : bank.send locked src dst coins = some bank')
    (d : Denom) :
    (held cfg owners bank' d + if src ∈ owners.image cfg.escrow then coins.get d else 0) =
      held cfg owners bank d + if dst ∈ owners.image cfg.escrow then coins.get d else 0 := by
  have hsum := Finset.sum_congr rfl fun e (_ : e ∈ owners.image cfg.escrow) =>
    Ledger.balance_send h e d
  simpa only [held, Finset.sum_add_distrib, Finset.sum_ite_eq'] using hsum

variable {sender : Address} {amount : List Coin} {owner : Address} {balance : Coin}
  {receiver : Address} {islmAmount haqqAmount : Nat}

namespace Covered

section

variable (h : Covered cfg owners st)

include h

theorem balance_le {a : Address} {d : Denom} (ha : a ∈ owners) (hd : Supported d) :
    (st.bank.balance (cfg.escrow a)).get d ≤ st.modules.ucdao.totalBalance.get d := by
  have hsingle : (st.bank.balance (cfg.escrow a)).get d ≤ held cfg owners st.bank d :=
    Finset.single_le_sum (f := fun e => (st.bank.balance e).get d) (fun _ _ => Nat.zero_le _)
      (Finset.mem_image_of_mem cfg.escrow ha)
  exact hsingle.trans (h.total d hd)

theorem move
    (htotal : ∀ d, Supported d →
      held cfg owners st'.bank d + st.modules.ucdao.totalBalance.get d ≤
        held cfg owners st.bank d + st'.modules.ucdao.totalBalance.get d)
    (hdenoms : st'.modules.liquidVesting = st.modules.liquidVesting)
    (hethiq : st'.modules.ethiq = st.modules.ethiq)
    (hvesting : ∀ a, st'.vestingAccount a = st.vestingAccount a) : Covered cfg owners st' := by
  refine ⟨fun d hd => ?_, ?_, fun a ha va hva => ?_, hethiq ▸ h.positioned⟩
  · have hmove := htotal d hd
    have hbefore := h.total d hd
    omega
  · rw [IslmOnly, hdenoms]
    exact h.islmOnly
  · rw [hvesting] at hva
    exact h.balanced a ha va hva

theorem setHoldersIndex {addr : Address}
    (hrun : (Ucdao.setHoldersIndex cfg addr).run st = .ok u st') : Covered cfg owners st' := by
  obtain rfl := run_setHoldersIndex_ok.mp hrun
  exact h.move (fun _ _ => le_rfl) rfl rfl fun _ => rfl

theorem fundCoin {coin : Coin} (hsender : sender ∈ owners)
    (hrun : (Ucdao.fundCoin cfg sender coin).run st = .ok u st') : Covered cfg owners st' := by
  rcases fundCoin_effect hrun with rfl | ⟨bank, hsend, rfl⟩
  · exact h
  · refine h.move (fun d _ => ?_) (by simp) (by simp) (by simp [Store.vestingAccount])
    have hsum := @held_send S cfg owners _ _ _ _ _ _ hsend d
    rw [if_pos (Finset.mem_image_of_mem cfg.escrow hsender)] at hsum
    simp only [Store.setUcdao_bank, Store.setUcdao_modules, Bank.withRecipient_bank,
      Store.setBank_bank, Tally.get_add]
    omega

theorem fund (hsender : sender ∈ owners) (hrun : (Ucdao.fund cfg amount sender).run st = .ok u st')
    :
    Covered cfg owners st' := by
  obtain ⟨mid, hloop, hindex⟩ := fund_effect hrun
  have hmid : Covered cfg owners mid :=
    run_forM_invariant (fun coin _ s s' hcoin hs => hs.fundCoin hsender hcoin) hloop h
  exact hmid.setHoldersIndex hindex

theorem send (hsend : st.bank.send locked src dst coins = some bank)
    (hdst : dst ∈ owners.image cfg.escrow → src ∈ owners.image cfg.escrow ∨
      ∀ d, Supported d → coins.get d = 0)
    :
    Covered cfg owners (Bank.withRecipient cfg.toEnv (st.setBank bank) dst) := by
  refine h.move (fun d hd => ?_) (by simp) (by simp) (by simp [Store.vestingAccount])
  have hsum := @held_send S cfg owners _ _ _ _ _ _ hsend d
  simp only [Bank.withRecipient_bank, Bank.withRecipient_modules, Store.setBank_bank,
    Store.setBank_modules]
  by_cases hmem : dst ∈ owners.image cfg.escrow
  · rcases hdst hmem with hsrc | hzero
    · rw [if_pos hmem, if_pos hsrc] at hsum
      omega
    · simp only [hzero d hd, ite_self] at hsum
      omega
  · rw [if_neg hmem] at hsum
    omega

theorem transferOwnership {newOwner : Address} (howner : owner ∈ owners)
    (hrun : (Ucdao.transferOwnership cfg owner newOwner amount).run st = .ok u st') :
    Covered cfg owners st' := by
  obtain ⟨_, _, _, bank, hsend, hindex⟩ := run_transferOwnership_ok.mp hrun
  obtain ⟨_, _, hfirst, hsecond⟩ := run_bind_ok.mp hindex
  have hmoved := h.send hsend fun _ => .inl (Finset.mem_image_of_mem cfg.escrow howner)
  exact (hmoved.setHoldersIndex hfirst).setHoldersIndex hsecond

/-! ## Converting -/

theorem redeemRound (howner : owner ∈ owners)
    (hround : RedeemRound cfg (cfg.escrow owner) true balance st st') : Covered cfg owners st' := by
  obtain ⟨hislm, hbalance⟩ := redeemRound_balance h.islmOnly hround
  obtain ⟨_, _, _, _, mid, _, heffect, haccounts, _, hmodules, _⟩ := hround.redeemed
  refine ⟨fun d hd => ?_, hislm, fun a ha va hva => ?_, ?_⟩
  · have hsum := Finset.sum_congr rfl fun e (_ : e ∈ owners.image cfg.escrow) => hbalance e d
    have htotal := redeemRound_total hround d
    have hbefore := h.total d hd
    simp only [Finset.sum_add_distrib, Finset.sum_ite_eq',
      if_pos (Finset.mem_image_of_mem cfg.escrow howner)] at hsum
    simp only [held] at hbefore ⊢
    omega
  · refine heffect.balanced (h.balanced a ha) va ?_
    rwa [Store.vestingAccount, ← haccounts]
  · have hethiq : st'.modules.ethiq = st.modules.ethiq := by rw [hmodules, heffect.others]
    exact hethiq ▸ h.positioned

theorem burned (hsender : sender ∈ owners)
    (heffect : ExchangeEffect cfg (cfg.escrow sender) receiver islmAmount haqqAmount false false
      st st st')
    (hunlocks : Unlocks cfg.blockTime islmAmount (st.vestingAccount (cfg.escrow sender))
      (st'.vestingAccount (cfg.escrow sender)))
    (hle : islmAmount ≤ st'.modules.ucdao.totalBalance.get .islm) :
    Covered cfg owners (st'.setUcdao { st'.modules.ucdao with
      totalBalance := st'.modules.ucdao.totalBalance - Tally.single .islm islmAmount }) := by
  have hmodules := heffect.modules
  refine ⟨fun d hd => ?_, ?_, fun a ha => ?_, ?_⟩
  · have hsum := Finset.sum_congr rfl fun e (_ : e ∈ owners.image cfg.escrow) => heffect.balance e d
    have hcover := Tally.single_le_iff.mpr hle d
    have hbefore := h.total d hd
    -- aHAQQ may well be sent to escrow, but is not tracked
    have hhaqq : (Tally.single Denom.haqq haqqAmount).get d = 0 := by
      refine Tally.get_single_of_ne _ ?_
      rintro rfl
      rcases hd with hd | hd <;> cases hd
    simp only [Finset.sum_add_distrib, Finset.sum_ite_eq', hhaqq, ite_self, add_zero,
      if_pos (Finset.mem_image_of_mem cfg.escrow hsender)] at hsum
    simp only [held, Store.setUcdao_bank, Store.setUcdao_modules, Tally.get_sub, hmodules]
      at hbefore hcover ⊢
    omega
  · simpa [IslmOnly, hmodules] using h.islmOnly
  · by_cases heq : cfg.escrow a = cfg.escrow sender
    · rw [heq]
      exact hunlocks.balanced (h.balanced sender hsender)
    · have hkept := heffect.accounts.vesting _ heq
      exact fun va hva => h.balanced a ha va (hkept.symm.trans hva)
  · obtain ⟨sum, hsum, hposition⟩ := h.positioned
    refine ⟨sum, hsum, ?_⟩
    simp only [Store.setUcdao_modules, hmodules, State.addBurned]
    simp only [Bool.false_eq_true, if_false]
    omega

theorem redeemed {balances : List Coin} (hsender : sender ∈ owners)
    (hrun : (redeemLiquidCoins cfg (cfg.escrow sender) true balances).run st = .ok u st') :
    Covered cfg owners st' :=
  redeemLiquidCoins_invariant (fun _ _ _ _ hround hs => hs.redeemRound hsender hround) hrun h

theorem convertToHaqq (hholders : holders st ⊆ owners)
    (hrun : (Ucdao.convertToHaqq cfg sender receiver islmAmount).run st = .ok haqqAmount st') :
    Covered cfg owners st' := by
  obtain ⟨hholder, redeemed, burned, hredeem, hburn, hle, hindex⟩ := convertToHaqq_effect hrun
  have hsender : sender ∈ owners := hholders (of_decide_eq_true hholder)
  obtain ⟨heffect, hunlocks⟩ := burned_after_redeeming h.islmOnly hredeem hburn
  exact ((h.redeemed hsender hredeem).burned hsender heffect hunlocks hle).setHoldersIndex hindex

theorem avoids_redeemRound (hsender : sender ∈ owners) :
    Avoids .panic (do
      LiquidVesting.redeem cfg (cfg.escrow sender) (cfg.escrow sender) balance
      if true then
        trackAddBalance ⟨.islm, balance.amount⟩
        trackSubBalance balance : ModuleM S Unit) st := by
  refine .bind avoids_redeem fun _ mid hredeem => ?_
  obtain ⟨id, denom, decreased, diff, hdenom, heffect⟩ := redeem_effect hredeem
  have hmid : mid.modules.ucdao = st.modules.ucdao := by rw [heffect.others]
  have hcover : balance.amount ≤ st.modules.ucdao.totalBalance.get balance.denom := by
    refine le_trans ?_ (h.balance_le hsender (.inr (by rw [hdenom]; rfl)))
    obtain ⟨_, _, bank, _, hsend, _⟩ := heffect.bank
    have hle := Ledger.le_balance_src_of_send hsend (.liquid id)
    rwa [Tally.get_single_self, ← hdenom] at hle
  refine .bind (.modify _) fun _ _ htrack => ?_
  obtain rfl := run_trackAddBalance_ok.mp htrack
  refine .bind_get (.bind_ensure (fun hnot => absurd ?_ hnot) fun _ => .modify _)
  rw [Store.setUcdao_modules, hmid, Tally.get_add]
  omega

theorem avoids_convertToHaqq (hholders : holders st ⊆ owners) :
    Avoids .panic (Ucdao.convertToHaqq cfg sender receiver islmAmount) st := by
  refine .bind_get (.bind_ensure (fun _ => by decide) fun _ => ?_)
  refine .bind_ensure (fun _ => by decide) fun hholder => ?_
  have hsender : sender ∈ owners := hholders (of_decide_eq_true hholder)
  refine .bind_ensure (fun _ => by decide) fun _ => ?_
  have hloop : Avoids .panic (redeemLiquidCoins cfg (cfg.escrow sender) true
      (liquidBalances (getAccountBalances cfg st sender))) st :=
    .forM (Covered cfg owners) (fun _ _ _ hs => hs.avoids_redeemRound hsender)
      (fun _ _ _ _ hround hs => hs.redeemRound hsender (redeemRound_of_run hround)) h
  refine .bind hloop fun _ redeemed hredeem => ?_
  have hredeemed := h.redeemed hsender hredeem
  refine .bind (avoids_burnIslmForHaqq hredeemed.positioned (hredeemed.balanced sender hsender))
    fun haqqAmount burned hburn => ?_
  -- what was burned was in escrow
  obtain ⟨heffect, _⟩ := burned_after_redeeming h.islmOnly hredeem hburn
  have hcover : islmAmount ≤ burned.modules.ucdao.totalBalance.get .islm := by
    have hb := heffect.balance (cfg.escrow sender) .islm
    have hescrow := hredeemed.balance_le hsender (.inl rfl)
    rw [if_pos rfl, Tally.get_single_self, Tally.get_single_of_ne _ (by decide), ite_self] at hb
    have hucdao : burned.modules.ucdao = redeemed.modules.ucdao := by rw [heffect.modules]
    rw [hucdao]
    omega
  refine .bind (.of_ok ((run_trackSubBalance_ok (u := ())).mpr ⟨hcover, rfl⟩)) fun _ _ _ => ?_
  exact .bind (.modify _) fun _ _ _ => .pure _

end

end Covered

/-! ## Runs -/

/-- The parties of a message are owners, and none of the module's coins are sent to the escrow
account of an owner.  A conversion is open to everyone. -/
def DaoMsg.Accounted (cfg : Config S) (owners : Finset Address) : DaoMsg → Prop
  | ucdao (.fund depositor _) => depositor ∈ owners
  | ucdao (.transferOwnership owner newOwner) => owner ∈ owners ∧ newOwner ∈ owners
  | ucdao (.transferOwnershipWithRatio owner newOwner _) => owner ∈ owners ∧ newOwner ∈ owners
  | ucdao (.transferOwnershipWithAmount owner newOwner _) => owner ∈ owners ∧ newOwner ∈ owners
  | ucdao (.convertToHaqq _ _ _) => True
  | send _ toAddress amount =>
    NotEscrow cfg owners toAddress ∨ ∀ d, Supported d → amount.get d = 0

structure Guarded (cfg : Config S) (owners : Finset Address) (st : ChainState S) : Prop where
  covered : Covered cfg owners st
  holders : Ucdao.holders st ⊆ owners

theorem Guarded.handle {msg : DaoMsg} (hmsg : msg.Accounted cfg owners) (h : Guarded cfg owners st)
    (hrun : (msg.handle cfg).run st = .ok u st') : Guarded cfg owners st' := by
  obtain ⟨hcovered, hholders⟩ := h
  cases msg with
  | ucdao msg =>
    cases Msg.effect_of_handle hrun with
    | fund hfund => exact ⟨hcovered.fund hmsg hfund, holders_fund hmsg hholders hfund⟩
    | transferOwnership htransfer | transferOwnershipWithRatio htransfer
    | transferOwnershipWithAmount htransfer =>
      exact ⟨hcovered.transferOwnership hmsg.1 htransfer,
        holders_transferOwnership hmsg.1 hmsg.2 hholders htransfer⟩
    | convertToHaqq hconvert =>
      have hsender := hholders (of_decide_eq_true (convertToHaqq_effect hconvert).1)
      exact ⟨hcovered.convertToHaqq hholders hconvert,
        holders_convertToHaqq hsender hholders hconvert⟩
  | send fromAddress toAddress amount =>
    simp only [DaoMsg.handle, run_bind_ok, ensure_then, Bank.run_sendCoins_ok] at hrun
    obtain ⟨_, bank, hsend, rfl⟩ := hrun
    refine ⟨hcovered.send hsend fun hto => ?_, by simpa [Ucdao.holders] using hholders⟩
    obtain ⟨a, ha, hescrow⟩ := Finset.mem_image.mp hto
    exact .inr (hmsg.resolve_left fun hout => hout a ha hescrow)

theorem Guarded.atTime (h : Guarded cfg owners st) (now : Int) :
    Guarded (cfg.atTime now) owners st := ⟨{ h.covered with }, h.holders⟩

theorem Guarded.step {tx : Tx DaoMsg} (hmsg : tx.msg.Accounted cfg owners)
    (h : Guarded cfg owners st) : Guarded cfg owners (daoStep cfg st tx) := by
  rcases deliver_cases (tx.msg.handle (cfg.atTime tx.blockTime)) st with hkeep | hrun
  · rw [daoStep, hkeep]
    exact h
  · have hmsgNow : tx.msg.Accounted (cfg.atTime tx.blockTime) owners := by
      generalize tx.msg = msg at hmsg
      cases msg with
      | ucdao msg => cases msg <;> exact hmsg
      | send _ _ _ => exact hmsg
    obtain ⟨hcovered, hholders⟩ := (h.atTime tx.blockTime).handle hmsgNow hrun
    exact ⟨{ hcovered with }, hholders⟩

/-- A conversion fails with an error, or the tracked total covers what is subtracted from it: the
redeemed liquid tokens, and the burned aISLM after the redeemed aISLM was added. -/
def Converts (cfg : Config S) (sender receiver : Address) (islmAmount : Nat)
    (st : ChainState S) : Prop :=
  (∃ e st', e ≠ .panic ∧ (convertToHaqq cfg sender receiver islmAmount).run st = .error e st') ∨
  ∃ haqqAmount st', (convertToHaqq cfg sender receiver islmAmount).run st = .ok haqqAmount st' ∧
    ∀ d, st'.modules.ucdao.totalBalance.get d +
        (sumCoins (liquidBalances (getAccountBalances cfg st sender))).get d +
        (Tally.single .islm islmAmount).get d =
      st.modules.ucdao.totalBalance.get d + (Tally.single Denom.islm
        ((liquidBalances (getAccountBalances cfg st sender)).map Coin.amount).sum).get d

theorem Guarded.converts (h : Guarded cfg owners st) (sender receiver : Address)
    (islmAmount : Nat) : Converts cfg sender receiver islmAmount st := by
  have havoids : Avoids .panic (convertToHaqq cfg sender receiver islmAmount) st :=
    h.covered.avoids_convertToHaqq h.holders
  cases hrun : (convertToHaqq cfg sender receiver islmAmount).run st with
  | error e st' =>
    refine .inl ⟨e, st', fun hpanic => havoids st' ?_, hrun⟩
    rw [hrun, hpanic]
  | ok haqqAmount st' =>
    refine .inr ⟨haqqAmount, st', hrun, fun d => ?_⟩
    obtain ⟨_, redeemed, burned, hredeem, hburn, hle, hindex⟩ := convertToHaqq_effect hrun
    obtain ⟨heffect, _⟩ := burned_after_redeeming h.covered.islmOnly hredeem hburn
    have hcover := Tally.single_le_iff.mpr hle d
    have htotal := redeemed_total hredeem d
    rw [(setHoldersIndex_frame hindex).2.1]
    simp only [Store.setUcdao_modules, Tally.get_sub, heffect.modules] at hcover ⊢
    omega

/-- **Conversions do not panic** in any run in which no aISLM and no liquid tokens are sent directly
to the escrow account of someone who takes part. -/
theorem converts_of_run (cfg : Config S) (owners : Finset Address) (st : ChainState S)
    (txs : List (Tx DaoMsg)) (hst : Guarded cfg owners st)
    (hmsgs : ∀ tx ∈ txs, tx.msg.Accounted cfg owners) (now : Int) (sender receiver : Address)
    (islmAmount : Nat) :
    Converts (cfg.atTime now) sender receiver islmAmount (Run.after (daoStep cfg) st txs) := by
  have hrun : Run.Along (daoStep cfg) (fun _ tx => tx.msg.Accounted cfg owners) st txs :=
    Run.along_of_forall hmsgs st
  have hguarded : Guarded cfg owners (Run.after (daoStep cfg) st txs) :=
    Run.invariant (fun _ _ hmsg hs => hs.step hmsg) hst hrun
  exact (hguarded.atTime now).converts sender receiver islmAmount

theorem beforeFunding_guarded : Guarded escrowConfig {2, 3} beforeFunding := by
  refine ⟨⟨fun d _ => ?_, fun id denom hdenom => (by cases hdenom), fun a ha va hva => ?_,
    ⟨60, rfl, by decide +kernel⟩⟩, Finset.empty_subset _⟩
  · have hempty : ∀ e ∈ ({2, 3} : Finset Address).image escrowConfig.escrow,
        beforeFunding.bank.balance e = 0 := Finset.forall_mem_image.mpr beforeFunding_empty
    rw [held, Finset.sum_eq_zero fun e he => by rw [hempty e he, Tally.get_zero]]
    exact Nat.zero_le _
  · have hnone : beforeFunding.accounts (escrowConfig.escrow a) = none := by
      simp only [Finset.mem_insert, Finset.mem_singleton] at ha
      rcases ha with rfl | rfl <;> decide +kernel
    rw [vestingAccount_eq_none_of_none hnone] at hva
    cases hva

theorem sentElsewhere_converts :
    (convertToHaqq (escrowConfig.atTime 4) 3 4 20).run
      (Run.after (daoStep escrowConfig) beforeFunding sentElsewhere) matches .ok _ _ ∧
    Converts (escrowConfig.atTime 4) 3 4 20
      (Run.after (daoStep escrowConfig) beforeFunding sentElsewhere) := by
  refine ⟨by decide +kernel, converts_of_run escrowConfig {2, 3} beforeFunding sentElsewhere
    beforeFunding_guarded ?_ 4 3 4 20⟩
  simp only [sentElsewhere, List.forall_mem_cons, DaoMsg.Accounted]
  exact ⟨by decide +kernel, by decide +kernel, .inl (by decide +kernel), by simp⟩

/-- Sixty-five coins are there to be converted, but the total is only sixty. -/
theorem sentToEscrow_conversion_panics :
    (Run.after (daoStep escrowConfig) beforeFunding sentToEscrow).modules.ucdao.totalBalance =
      Tally.single .islm 60 ∧
    getAccountBalances escrowConfig
        (Run.after (daoStep escrowConfig) beforeFunding sentToEscrow) 2 =
      Tally.single .islm 65 ∧
    (convertToHaqq (escrowConfig.atTime 3) 2 4 65).run
      (Run.after (daoStep escrowConfig) beforeFunding sentToEscrow) matches .error .panic _ := by
  decide +kernel

end Haqq.Ucdao
