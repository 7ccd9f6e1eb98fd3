import Haqq.Ethiq.Keeper
import Haqq.LiquidVesting.Effects

/-!
# The effects of minting aHAQQ

What a successful exchange of aISLM for aHAQQ does: the liquid tokens of the payer are redeemed one
after the other, then the payer's aISLM is burned and the recipient's aHAQQ minted.
-/

namespace Haqq.Ethiq

open Lib Lib.Schedule Vesting LiquidVesting

variable {S : Type} {cfg : Config S} {st st' : ChainState S} {u : Unit}

@[simp] theorem run_modifyEthiq_ok {f : State → State} :
    (modifyEthiq f : ModuleM S Unit).run st = .ok u st' ↔ st' = st.setEthiq (f st.modules.ethiq) :=
  run_modify_ok

/-! ## Redeeming -/

/-- One liquid token of `addr` was redeemed, and the total in escrow follows. -/
structure RedeemRound (cfg : Config S) (addr : Address) (isUcdao : Bool) (balance : Coin)
    (st st' : ChainState S) : Prop where
  redeemed : ∃ id denom decreased diff mid, balance.denom = .liquid id ∧
    RedeemEffect cfg addr addr id balance.amount st mid denom decreased diff ∧
    st'.accounts = mid.accounts ∧ st'.bank = mid.bank ∧
    st'.modules = { mid.modules with ucdao := st'.modules.ucdao } ∧
    if isUcdao then
      balance.amount ≤ (mid.modules.ucdao.totalBalance + Tally.single Denom.islm balance.amount).get
        balance.denom ∧
      st'.modules.ucdao = { mid.modules.ucdao with
        totalBalance := mid.modules.ucdao.totalBalance + Tally.single Denom.islm balance.amount -
          balance.toCoins }
    else st'.modules.ucdao = mid.modules.ucdao

variable {addr : Address} {isUcdao : Bool}

theorem redeemLiquidCoins_nil :
    (redeemLiquidCoins cfg addr isUcdao []).run st = .ok u st' ↔ st = st' :=
  run_forM_nil_ok

theorem redeemRound_of_run {balance : Coin}
    (h : (do
      LiquidVesting.redeem cfg addr addr balance
      if isUcdao then
        Ucdao.trackAddBalance ⟨.islm, balance.amount⟩
        Ucdao.trackSubBalance balance : ModuleM S Unit).run st = .ok u st') :
    RedeemRound cfg addr isUcdao balance st st' := by
  rw [run_bind_ok] at h
  obtain ⟨_, first, hredeem, htrack⟩ := h
  obtain ⟨id, denom, decreased, diff, hdenom, heffect⟩ := redeem_effect hredeem
  cases isUcdao with
  | false =>
    obtain ⟨_, rfl⟩ := run_pure_ok.mp htrack
    exact ⟨id, denom, decreased, diff, _, hdenom, heffect, rfl, rfl, rfl, rfl⟩
  | true =>
    simp only [if_true, run_bind_ok, Ucdao.run_trackAddBalance_ok, Ucdao.run_trackSubBalance_ok]
      at htrack
    obtain ⟨_, _, rfl, hle, rfl⟩ := htrack
    exact ⟨id, denom, decreased, diff, first, hdenom, heffect, rfl, rfl, rfl, by
      simpa [Coin.toCoins] using hle⟩

variable {balances : List Coin}

theorem redeemLiquidCoins_cons {balance : Coin}
    (h : (redeemLiquidCoins cfg addr isUcdao (balance :: balances)).run st = .ok u st') :
    ∃ mid, RedeemRound cfg addr isUcdao balance st mid ∧
      (redeemLiquidCoins cfg addr isUcdao balances).run mid = .ok u st' := by
  obtain ⟨mid, hround, hrest⟩ := run_forM_cons_ok.mp h
  exact ⟨mid, redeemRound_of_run hround, hrest⟩

theorem redeemLiquidCoins_invariant {P : ChainState S → Prop}
    (hround : ∀ balance ∈ balances, ∀ s s', RedeemRound cfg addr isUcdao balance s s' → P s → P
      s') (h : (redeemLiquidCoins cfg addr isUcdao balances).run st = .ok u st') (hst : P st) :
    P st' := by
  induction balances generalizing st with
  | nil => rwa [← redeemLiquidCoins_nil.mp h]
  | cons balance balances ih =>
    obtain ⟨mid, hfirst, hrest⟩ := redeemLiquidCoins_cons h
    have hmid := hround balance (by simp) st mid hfirst hst
    exact ih (fun b hb => hround b (by simp [hb])) hrest hmid

variable {payer : Address}

theorem redeemed_ethiq (h : (redeemLiquidCoins cfg payer isUcdao balances).run st = .ok u st') :
    st'.modules.ethiq = st.modules.ethiq ∧
      ∀ d : Denom, d.isLiquid = false → st'.bank.supply.get d = st.bank.supply.get d := by
  refine redeemLiquidCoins_invariant (P := fun s => s.modules.ethiq = st.modules.ethiq ∧
    ∀ d : Denom, d.isLiquid = false → s.bank.supply.get d = st.bank.supply.get d)
    (fun balance _ s s' hround hs => ?_) h ⟨rfl, fun _ _ => rfl⟩
  obtain ⟨id, denom, decreased, diff, mid, _, heffect, _, hbank, hmodules, _⟩ := hround.redeemed
  refine ⟨by rw [hmodules, heffect.others]; exact hs.1, fun d hd => ?_⟩
  have hne : d ≠ .liquid id := by
    rintro rfl
    cases hd
  have hsupply := congrArg (fun x => x.get d) heffect.supply
  simp only [Tally.get_add, Tally.get_single, if_neg hne, add_zero] at hsupply
  rw [hbank, hsupply]
  exact hs.2 d hd

theorem redeemed_balanced {a : Address}
    (h : (redeemLiquidCoins cfg payer isUcdao balances).run st = .ok u st')
    (hst : ∀ va, st.vestingAccount a = some va → va.Balanced) :
    ∀ va, st'.vestingAccount a = some va → va.Balanced := by
  refine redeemLiquidCoins_invariant (P := fun s => ∀ va, s.vestingAccount a = some va →
    va.Balanced) (fun balance _ s s' hround hs va hva => ?_) h hst
  obtain ⟨id, denom, decreased, diff, mid, _, heffect, haccounts, _⟩ := hround.redeemed
  refine heffect.balanced hs va ?_
  rwa [Store.vestingAccount, ← haccounts]

/-! ## Unlocking -/

/-- Nothing happens to a plain account, while coins are vesting or if no aISLM is locked. -/
inductive Unlocks (now : Int) (amt : Nat) :
    Option ClawbackVestingAccount → Option ClawbackVestingAccount → Prop
  | plain : Unlocks now amt none none
  | vesting {va : ClawbackVestingAccount} {coins : Coins}
      (hvesting : va.getVestingCoins now = some coins)
        (hne : coins ≠ 0) : Unlocks now amt (some va) (some va)
  | nothing {va : ClawbackVestingAccount} {locked : Coins}
      (hvested : va.getVestingCoins now = some 0)
      (hlocked : va.getLockedUpCoins now = some locked) (hzero : locked.get .islm = 0) :
      Unlocks now amt (some va) (some va)
  | taken {va va' : ClawbackVestingAccount} {locked : Coins} {diff : Periods}
      (hlocked : va.getLockedUpCoins now = some locked)
      (hliq : Liquidates now va ⟨.islm, min (locked.get .islm) amt⟩ va' diff) :
      Unlocks now amt (some va) (some va')

variable {now : Int} {amt : Nat}

theorem Unlocks.balanced {before after : Option ClawbackVestingAccount}
    (h : Unlocks now amt before after) (hbefore : ∀ va, before = some va → va.Balanced) :
    ∀ va, after = some va → va.Balanced := by
  cases h with
  | plain | vesting | nothing => exact hbefore
  | taken _ hliq =>
    rintro va ⟨⟩
    exact hliq.balanced (hbefore _ rfl)

theorem unlockSchedule_unlocks {va : ClawbackVestingAccount} {r : Option ClawbackVestingAccount}
    (h : (unlockSchedule now va amt).run st = .ok r st') :
    st = st' ∧ Unlocks now amt (some va) (some (r.getD va)) := by
  unfold unlockSchedule at h
  rw [run_bind_ok] at h
  obtain ⟨vesting, _, hread, h⟩ := h
  obtain ⟨hvesting, rfl⟩ := run_ofOption_ok.mp hread
  split at h
  · rename_i hzero
    rw [Tally.isZero_iff.mp hzero] at hvesting
    rw [run_bind_ok] at h
    obtain ⟨locked, _, hread, h⟩ := h
    obtain ⟨hlocked, rfl⟩ := run_ofOption_ok.mp hread
    split at h
    · rename_i hnone
      obtain ⟨rfl, rfl⟩ := run_pure_ok.mp h
      exact ⟨rfl, .nothing hvesting hlocked hnone⟩
    · rename_i hne
      simp only [run_bind_ok, ofOption_then, run_pure_ok, subCoins_eq_some] at h
      obtain ⟨⟨decreased, diff⟩, hsub, ⟨decreasedVesting, diffVesting⟩, hsubVesting, _, ⟨hle, rfl⟩,
        rfl, rfl⟩ := h
      exact ⟨rfl, .taken hlocked ⟨hvesting, ⟨locked, hlocked, hne⟩, hle, decreased,
        decreasedVesting, diffVesting, hsub, hsubVesting, rfl⟩⟩
  · rename_i hzero
    obtain ⟨rfl, rfl⟩ := run_pure_ok.mp h
    refine ⟨rfl, .vesting hvesting fun hnone => hzero ?_⟩
    rw [hnone, Tally.isZero_zero]

theorem unlockVestingCoins_effect (h : (unlockVestingCoins cfg payer amt).run st = .ok u st') :
    AccountsKept {payer} st st' ∧ st'.bank = st.bank ∧ st'.modules = st.modules ∧
      Unlocks cfg.blockTime amt (st.vestingAccount payer) (st'.vestingAccount payer) := by
  have hrefl : AccountsKept {payer} st st := ⟨fun _ _ _ h => h, fun _ _ => rfl⟩
  unfold unlockVestingCoins at h
  simp only [run_bind_ok, get_then, ofOption_then] at h
  obtain ⟨acct, hacct, h⟩ := h
  split at h
  · rename_i codeHash va hkind
    rw [run_bind_ok] at h
    obtain ⟨r, _, hschedule, h⟩ := h
    obtain ⟨rfl, hunlocks⟩ := unlockSchedule_unlocks hschedule
    rw [← vestingAccount_eq hacct hkind] at hunlocks
    split at h
    · rename_i va'
      rw [run_setAccount_ok] at h
      subst h
      refine ⟨accountsKept_setAccount, rfl, rfl, ?_⟩
      have haccount : (st.setAccount payer
          { acct with kind := .clawback codeHash va' }).vestingAccount payer = some va' := by
        simp [Store.vestingAccount, AccountKind.vesting]
      rw [haccount]
      exact hunlocks
    · obtain ⟨_, rfl⟩ := run_pure_ok.mp h
      refine ⟨hrefl, rfl, rfl, ?_⟩
      rw [Option.getD_none, ← vestingAccount_eq hacct hkind] at hunlocks
      exact hunlocks
  · rename_i hkind
    obtain ⟨_, rfl⟩ := run_pure_ok.mp h
    have hnone : st.vestingAccount payer = none := by
      refine vestingAccount_eq_none hacct ?_
      cases hcase : acct.kind with
      | base | eth => rfl
      | clawback codeHash va => exact (hkind codeHash va hcase).elim
    rw [hnone]
    exact ⟨hrefl, rfl, rfl, .plain⟩

/-! ## Exchanging -/

def State.addBurned (ethiq : State) (amt : Nat) (isApplication : Bool) : State :=
  { ethiq with
    totalBurned := ethiq.totalBurned + amt
    totalBurnedFromApplications :=
      if isApplication then ethiq.totalBurnedFromApplications + amt
      else ethiq.totalBurnedFromApplications }

/-- `redeemed` is the state after the payer's liquid tokens were redeemed. -/
structure ExchangeEffect (cfg : Config S) (payer toAddress : Address) (islmAmount haqqAmount : Nat)
    (isApplication isUcdao : Bool) (st redeemed st' : ChainState S) : Prop where
  pos : 1 ≤ haqqAmount
  maxSupply : st.bank.supply.get .haqq + haqqAmount ≤ st.modules.ethiq.maxSupply
  notBlocked : cfg.blocked toAddress = false
  redeem : (redeemLiquidCoins cfg payer isUcdao
    (liquidBalances (st.bank.balance payer))).run st = .ok () redeemed
  accounts : AccountsKept {payer} redeemed st'
  bank : ∃ locked locked' bank bank',
    redeemed.bank.send locked payer cfg.ethiqModule (Tally.single .islm islmAmount) = some bank ∧
    bank.burn cfg.ethiqModule (Tally.single .islm islmAmount) = some bank' ∧
    (bank'.mint cfg.ethiqModule (Tally.single .haqq haqqAmount)).send locked' cfg.ethiqModule
      toAddress (Tally.single .haqq haqqAmount) = some st'.bank
  modules : st'.modules = { redeemed.modules with
    ethiq := redeemed.modules.ethiq.addBurned islmAmount isApplication }

variable {toAddress : Address} {islmAmount haqqAmount : Nat}

theorem exchange_effect {isApplication : Bool}
    (h : (exchange cfg payer toAddress islmAmount haqqAmount isApplication isUcdao).run st =
      .ok u st') :
    ∃ redeemed, ExchangeEffect cfg payer toAddress islmAmount haqqAmount isApplication isUcdao
      st redeemed st' ∧
      Unlocks cfg.blockTime islmAmount (redeemed.vestingAccount payer)
        (st'.vestingAccount payer) := by
  unfold exchange checkAmountToBeMinted redeemAllLiquidVestingCoins burnCoins mintCoins at h
  simp only [run_bind_ok, get_then, ensure_then, Bank.sendCoinsFromAccountToModule,
    Bank.run_sendCoins_ok, Bank.run_burnCoins_ok, Bank.run_mintCoins_ok, run_modifyEthiq_ok,
    Bank.run_sendCoinsFromModuleToAccount_ok] at h
  obtain ⟨_, _, hcheck, _, redeemed, hredeem, _, unlocked, hunlock, h⟩ := h
  obtain ⟨-, -, hpos, hcheck⟩ := hcheck
  obtain ⟨hmax, rfl⟩ := run_ensure_ok.mp hcheck
  obtain ⟨hkept, hbank, hmodules, hunlocks⟩ := unlockVestingCoins_effect hunlock
  obtain ⟨_, _, ⟨_, _, ⟨bank, hsend, rfl⟩, _, _, ⟨bank', hburn, rfl⟩, rfl⟩, h⟩ := h
  obtain ⟨_, _, rfl, hblocked, bank'', hsend', rfl⟩ := h
  simp only [Bank.withRecipient_bank, Bank.withRecipient_modules, Store.setBank_bank,
    Store.setBank_modules, Store.setEthiq_bank, hbank] at hsend hburn hsend'
  refine ⟨redeemed, ⟨hpos, hmax, hblocked, hredeem, ?_, ?_, ?_⟩, by
    simpa [Store.vestingAccount] using hunlocks⟩
  · refine ⟨fun a ha acct hacct => ?_, fun a ha => ?_⟩
    · have hexisting := hkept.existing a ha acct hacct
      exact Bank.withRecipient_accounts _ (Bank.withRecipient_accounts _ hexisting)
    · simpa [Store.vestingAccount] using hkept.vesting a ha
  · exact ⟨_, _, bank, bank', hsend, hburn, by simpa using hsend'⟩
  · simp [hmodules, State.addBurned]

namespace ExchangeEffect

variable {payer toAddress : Address} {islmAmount haqqAmount : Nat} {isApplication isUcdao : Bool}
  {redeemed : ChainState S}

theorem balance (h : ExchangeEffect cfg payer toAddress islmAmount haqqAmount isApplication isUcdao
      st redeemed st') (a : Address) (d : Denom) :
    ((st'.bank.balance a).get d +
        if a = payer then (Tally.single .islm islmAmount).get d else 0) =
      (redeemed.bank.balance a).get d +
        if a = toAddress then (Tally.single .haqq haqqAmount).get d else 0 := by
  obtain ⟨_, _, bank, bank', hsend, hburn, hsend'⟩ := h.bank
  have h₁ := Ledger.balance_send hsend a d
  have h₂ := Ledger.balance_burn hburn a d
  have h₃ := Ledger.balance_send hsend' a d
  rw [Ledger.balance_mint] at h₃
  omega

theorem supply (h : ExchangeEffect cfg payer toAddress islmAmount haqqAmount isApplication isUcdao
      st redeemed st') :
    st'.bank.supply + Tally.single .islm islmAmount =
      redeemed.bank.supply + Tally.single .haqq haqqAmount := by
  obtain ⟨_, _, bank, bank', hsend, hburn, hsend'⟩ := h.bank
  have hburned := Ledger.supply_burn hburn
  rw [Ledger.supply_send hsend] at hburned
  rw [Ledger.supply_send hsend', Ledger.supply_mint, ← hburned]
  ext d
  simp only [Tally.get_add]
  omega

end ExchangeEffect

/-! ## Messages -/

variable {fromAddress : Address}

theorem burnIslmForHaqq_effect
    (h : (burnIslmForHaqq cfg islmAmount fromAddress toAddress).run st = .ok haqqAmount st') :
    0 < islmAmount ∧
    (∃ sum, getSumOfAllApplications cfg = some sum ∧
      st.modules.ethiq.totalBurnedFromApplications ≤ st.modules.ethiq.totalBurned + sum ∧
      calculateHaqqAmount cfg.prices
        (st.modules.ethiq.totalBurned + sum - st.modules.ethiq.totalBurnedFromApplications)
        islmAmount = .ok haqqAmount) ∧
    ∃ redeemed, ExchangeEffect cfg fromAddress toAddress islmAmount haqqAmount false false
      st redeemed st' ∧ Unlocks cfg.blockTime islmAmount (redeemed.vestingAccount fromAddress)
        (st'.vestingAccount fromAddress) := by
  unfold burnIslmForHaqq calculateHaqqCoinsToMint at h
  simp only [run_bind_ok, get_then, ensure_then, ofOption_then, run_pure_ok] at h
  obtain ⟨-, hpos, amount, _, hcalculate, _, _, hexchange, rfl, rfl⟩ := h
  obtain ⟨-, -, sum, hsum, hle, hcalculate⟩ := hcalculate
  obtain ⟨hamount, rfl⟩ := run_runExcept_ok.mp hcalculate
  exact ⟨hpos, ⟨sum, hsum, hle, hamount⟩, exchange_effect hexchange⟩

theorem burnIslmForHaqqByApplicationID_effect {appId : Nat}
    (h : (burnIslmForHaqqByApplicationID cfg fromAddress appId).run st =
      .ok (haqqAmount, toAddress) st') :
    ∃ application, getApplicationByID cfg appId = some application ∧
      application.id ∉ st.modules.ethiq.executed ∧ application.burnAmount ≠ 0 ∧
      application.fromAddress = fromAddress ∧ toAddress = application.toAddress ∧
      calculateHaqqAmount cfg.prices application.burnedBeforeAmount application.burnAmount =
        .ok haqqAmount ∧
      ∃ redeemed mid, ExchangeEffect cfg
        (if application.source = .ucdao then cfg.escrow fromAddress else fromAddress)
        application.toAddress application.burnAmount haqqAmount true
        (decide (application.source = .ucdao)) st redeemed mid ∧
      st' = mid.setEthiq { mid.modules.ethiq with
        executed := insert appId mid.modules.ethiq.executed } := by
  unfold burnIslmForHaqqByApplicationID at h
  simp only [run_bind_ok, get_then, ensure_then, ofOption_then, runExcept_then,
    run_pure_ok, run_modifyEthiq_ok] at h
  obtain ⟨_, h⟩ := h
  obtain ⟨application, happ, h⟩ := h
  obtain ⟨hexecuted, h⟩ := h
  obtain ⟨hcanceled, h⟩ := h
  obtain ⟨hfrom, h⟩ := h
  obtain ⟨amount, hamount, h⟩ := h
  obtain ⟨_, mid, hexchange, h⟩ := h
  obtain ⟨_, _, rfl, hresult, rfl⟩ := h
  cases hresult
  obtain ⟨redeemed, heffect, _⟩ := exchange_effect hexchange
  refine ⟨application, happ, hexecuted, ?_, hfrom, rfl, hamount, redeemed, mid, ?_, rfl⟩
  · simpa [BurnApplication.isCanceled] using hcanceled
  · simpa using heffect

end Haqq.Ethiq
