import Haqq.LiquidVesting.Liquidation
import Haqq.Vesting.Effects

/-!
# The effects of the liquid vesting messages

What a successful `Liquidate` or `Redeem` does to the accounts, the bank and the state of the
module, in one statement for each message.
-/

namespace Haqq.LiquidVesting

open Lib Lib.Schedule Vesting

variable {S : Type} {cfg : Config S} {st st' : ChainState S} {u : Unit}

@[simp] theorem run_modifyLiquidVesting_ok {f : State → State} :
    (modifyLiquidVesting f).run st = .ok u st' ↔
      st' = st.setLiquidVesting (f st.modules.liquidVesting) :=
  run_modify_ok

def OthersKept (st st' : ChainState S) : Prop :=
  st'.modules = { st.modules with liquidVesting := st'.modules.liquidVesting }

/-! ## Liquidate -/

/-- The token that a liquidation creates: it starts now, and the first period is what remains of the
current one. -/
def liquidatedDenom (now : Int) (va' : ClawbackVestingAccount) (originalDenom : Denom)
    (diff : Periods) : LiquidDenom :=
  newDenom originalDenom now
    (shortenFirst (currentPeriodShift va'.startTime now va'.lockupPeriods) diff)

/-- All that a successful `Liquidate` does to the state. -/
structure LiquidateEffect (cfg : Config S) (liquidateFrom liquidateTo : Address) (amount : Coin)
    (st st' : ChainState S) (va va' : ClawbackVestingAccount) (diff : Periods) : Prop where
  denom : amount.denom = .islm
  account : st.vestingAccount liquidateFrom = some va
  liquidates : Liquidates cfg.blockTime va amount va' diff
  account' : st'.vestingAccount liquidateFrom = some va'
  kind : ∃ acct codeHash, st.accounts liquidateFrom = some acct ∧
    acct.kind = .clawback codeHash va
  kept : AccountsKept {liquidateFrom} st st'
  bank : ∃ locked locked' bank,
    st.bank.send locked liquidateFrom cfg.liquidModule amount.toCoins = some bank ∧
    (bank.mint cfg.liquidModule
      (Tally.single (.liquid st.modules.liquidVesting.denomCounter) amount.amount)).send
      locked' cfg.liquidModule liquidateTo
      (Tally.single (.liquid st.modules.liquidVesting.denomCounter) amount.amount) =
      some st'.bank
  others : OthersKept st st'
  counter : st'.modules.liquidVesting.denomCounter =
    (st.modules.liquidVesting.denomCounter + 1) % 2 ^ 64
  marshals : (liquidatedDenom cfg.blockTime va' .islm diff).marshals = true
  denoms : st'.modules.liquidVesting.denoms =
    Function.update st.modules.liquidVesting.denoms st.modules.liquidVesting.denomCounter
      (some (liquidatedDenom cfg.blockTime va' .islm diff))

theorem liquidate_effect {liquidateFrom liquidateTo : Address} {amount coin : Coin}
    (h : (liquidate cfg liquidateFrom liquidateTo amount).run st = .ok coin st') :
    ∃ va va' diff, LiquidateEffect cfg liquidateFrom liquidateTo amount st st' va va' diff := by
  unfold liquidate createDenom at h
  simp only [run_bind_ok, get_then, ofOption_then, ensure_then, run_pure_ok,
    run_setAccount_ok, Bank.sendCoinsFromAccountToModule, Bank.run_sendCoins_ok,
    Bank.run_sendCoinsFromModuleToAccount_ok, Bank.run_mintCoins_ok,
    run_modifyLiquidVesting_ok] at h
  obtain ⟨-, hdenom, -, acct, hacct, ⟨codeHash, va⟩, hkind, ⟨va', diff⟩, _, hschedule, h⟩ := h
  obtain ⟨_, _, rfl, _, _, ⟨bank, hsend, rfl⟩, h⟩ := h
  obtain ⟨id, _, ⟨hmarshals, _, _, rfl, rfl, rfl⟩, h⟩ := h
  obtain ⟨_, _, rfl, _, _, ⟨_, bank', hsend', rfl⟩, _, _, rfl, _, rfl⟩ := h
  obtain ⟨rfl, hliquidates⟩ := liquidates_of_run hschedule
  rw [AccountKind.asClawback_eq_some] at hkind
  refine ⟨va, va', diff, hdenom, vestingAccount_eq hacct hkind, hliquidates, ?_, ?_, ?_, ?_, ?_,
    ?_, hdenom ▸ hmarshals, ?_⟩
  · simp [Store.vestingAccount, AccountKind.vesting]
  · exact ⟨acct, codeHash, hacct, hkind⟩
  · refine ⟨fun a ha acct' hacct' => ?_, fun a ha => ?_⟩ <;> rw [Set.mem_singleton_iff] at ha
    · exact Bank.withRecipient_accounts _
        (Bank.withRecipient_accounts _ (by simpa [ha] using hacct'))
    · simp [Store.vestingAccount, ha]
  · simp only [Bank.withRecipient_bank, Bank.withRecipient_modules, Store.setBank_bank,
      Store.setBank_modules, Store.setAccount_modules, Store.setLiquidVesting_bank] at hsend' ⊢
    exact ⟨_, _, bank, hsend, hsend'⟩
  · simp [OthersKept]
  · simp
  · simp [hdenom, liquidatedDenom]

/-! ## Redeem -/

theorem run_saveDenomPeriods_ok {id : Nat} {denom : LiquidDenom} {decreased : Periods}
    (hdenom : st.modules.liquidVesting.denoms id = some denom)
    (h : (saveDenomPeriods id decreased).run st = .ok u st') :
    ∃ lv, st' = st.setLiquidVesting lv ∧
      lv.denomCounter = st.modules.liquidVesting.denomCounter ∧
      lv.denoms = Function.update st.modules.liquidVesting.denoms id
        (if (total decreased).isZero then none else some
          { denom with lockupPeriods := decreased }) := by
  unfold saveDenomPeriods at h
  split at h
  · rename_i hzero
    unfold deleteDenom toggleConversion at h
    simp only [run_bind_ok, run_modifyLiquidVesting_ok, get_then, ofOption_then] at h
    obtain ⟨_, _, rfl, _, _, rfl⟩ := h
    exact ⟨_, rfl, rfl, by simp [hzero]⟩
  · rename_i hzero
    unfold updateDenomPeriods at h
    simp only [run_bind_ok, run_modifyLiquidVesting_ok, get_then, ofOption_then] at h
    obtain ⟨_, hdenom', rfl⟩ := h
    rw [hdenom] at hdenom'
    cases hdenom'
    exact ⟨_, rfl, rfl, by simp [hzero]⟩

/-- All that a successful `Redeem` does; `diff` is the part of the schedule that is paid out. -/
structure RedeemEffect (cfg : Config S) (redeemFrom redeemTo : Address) (id amount : Nat)
    (st st' : ChainState S) (denom : LiquidDenom) (decreased diff : Periods) : Prop where
  notBlocked : cfg.blocked redeemTo = false
  stored : st.modules.liquidVesting.denoms id = some denom
  split : subtractAmountFromPeriods denom.lockupPeriods ⟨denom.originalDenom, amount⟩ =
    some (decreased, diff)
  bank : ∃ locked locked' bank bank',
    st.bank.send locked redeemFrom cfg.liquidModule (Tally.single (.liquid id) amount) = some bank ∧
    bank.burn cfg.liquidModule (Tally.single (.liquid id) amount) = some bank' ∧
    bank'.send locked' cfg.liquidModule redeemTo (Tally.single denom.originalDenom amount) =
      some st'.bank
  others : OthersKept st st'
  counter : st'.modules.liquidVesting.denomCounter = st.modules.liquidVesting.denomCounter
  denoms : st'.modules.liquidVesting.denoms =
    Function.update st.modules.liquidVesting.denoms id
      (if (total decreased).isZero then none else some { denom with lockupPeriods := decreased })
  accounts :
    (extractUpcomingPeriods denom.startTime denom.endTime diff cfg.blockTime = [] ∧
      AccountsKept ∅ st st') ∨
    (extractUpcomingPeriods denom.startTime denom.endTime diff cfg.blockTime ≠ [] ∧
      AccountsKept {redeemTo} st st' ∧
      ∃ funder va',
        Grant funder (Tally.single denom.originalDenom amount) denom.startTime
          (fun va => min denom.startTime va.startTime) diff
          [⟨0, Tally.single denom.originalDenom amount⟩] (st.vestingAccount redeemTo) va' ∧
        st'.vestingAccount redeemTo = some va')

theorem redeemDenom_effect {redeemFrom redeemTo : Address} {id amount : Nat}
    (h : (redeemDenom cfg redeemFrom redeemTo id amount).run st = .ok u st') :
    ∃ denom decreased diff,
      RedeemEffect cfg redeemFrom redeemTo id amount st st' denom decreased diff := by
  unfold redeemDenom at h
  simp only [run_bind_ok, get_then, ofOption_then, ensure_then,
    Bank.sendCoinsFromAccountToModule, Bank.run_sendCoins_ok,
    Bank.run_sendCoinsFromModuleToAccount_ok, Bank.run_burnCoins_ok] at h
  obtain ⟨-, -, denom, hdenom, -, -, _, _, ⟨bank, hsend, rfl⟩, _, _, ⟨bank', hburn, rfl⟩, h⟩ := h
  obtain ⟨⟨decreased, diff⟩, hsplit, _, _, hsave, h⟩ := h
  obtain ⟨_, mid, ⟨hblocked, bank'', hsend', hmid⟩, h⟩ := h
  obtain ⟨lv, rfl, hcounter, hdenoms⟩ := run_saveDenomPeriods_ok (by simpa using hdenom) hsave
  simp only [Bank.withRecipient_bank, Bank.withRecipient_modules, Store.setBank_bank,
    Store.setBank_modules, Store.setLiquidVesting_bank] at hburn hsend' hcounter hdenoms
  -- up to here no account has changed
  have hkept : AccountsKept ∅ st mid := by
    rw [hmid]
    refine ⟨fun a _ acct hacct => ?_, fun a _ => by simp [Store.vestingAccount]⟩
    exact Bank.withRecipient_accounts _ (Bank.withRecipient_accounts _ hacct)
  have hbank : mid.bank = bank'' := by simp [hmid]
  have hmodules : mid.modules = { st.modules with liquidVesting := lv } := by simp [hmid]
  refine ⟨denom, decreased, diff, ?_⟩
  split at h
  · rename_i hupcoming
    obtain ⟨_, rfl⟩ := run_pure_ok.mp h
    refine ⟨hblocked, hdenom, hsplit, ⟨_, _, bank, bank', hsend, hburn, hbank ▸ hsend'⟩, ?_, ?_, ?_,
      .inl ⟨hupcoming, hkept⟩⟩
    · simp [OthersKept, hmodules]
    · simp [hmodules, hcounter]
    · simp [hmodules, hdenoms]
  · rename_i hupcoming
    unfold lockRedeemed at h
    simp only [run_bind_ok, get_then, ofOption_then] at h
    obtain ⟨acct, hacct, happly⟩ := h
    obtain ⟨⟨va', heffect, _⟩, hbank'⟩ := applyVestingSchedule_effect happly
    have hchange := heffect.change
    rw [hkept.vesting _ (Set.notMem_empty _)] at hchange
    refine ⟨hblocked, hdenom, hsplit,
      ⟨_, _, bank, bank', hsend, hburn, (hbank'.trans hbank) ▸ hsend'⟩, ?_, ?_, ?_,
      .inr ⟨hupcoming, hkept.trans heffect.kept, _, va', hchange, heffect.account'⟩⟩
    · simp [OthersKept, heffect.modules, hmodules]
    · simp [heffect.modules, hmodules, hcounter]
    · simp [heffect.modules, hmodules, hdenoms]

theorem redeem_effect {redeemFrom redeemTo : Address} {amount : Coin}
    (h : (redeem cfg redeemFrom redeemTo amount).run st = .ok u st') :
    ∃ id denom decreased diff, amount.denom = .liquid id ∧
      RedeemEffect cfg redeemFrom redeemTo id amount.amount st st' denom decreased diff := by
  obtain ⟨denom, n⟩ := amount
  cases denom with
  | liquid id =>
    obtain ⟨denom, decreased, diff, heffect⟩ := redeemDenom_effect h
    exact ⟨id, denom, decreased, diff, rfl, heffect⟩
  | islm | haqq | other =>
    simp only [LiquidVesting.redeem, run_bind_ok, run_throw_ok, and_false, exists_false] at h

namespace RedeemEffect

variable {redeemFrom redeemTo : Address} {id amount : Nat} {denom : LiquidDenom}
  {decreased diff : Periods}
  (h : RedeemEffect cfg redeemFrom redeemTo id amount st st' denom decreased diff)

include h

theorem balance (a : Address) (d : Denom) :
    ((st'.bank.balance a).get d +
        if a = redeemFrom then (Tally.single (.liquid id) amount).get d else 0) +
        (if a = cfg.liquidModule then (Tally.single denom.originalDenom amount).get d else 0) =
      (st.bank.balance a).get d +
        if a = redeemTo then (Tally.single denom.originalDenom amount).get d else 0 := by
  obtain ⟨_, _, bank, bank', hsend, hburn, hsend'⟩ := h.bank
  have h₁ := Ledger.balance_send hsend a d
  have h₂ := Ledger.balance_burn hburn a d
  have h₃ := Ledger.balance_send hsend' a d
  omega

theorem supply : st'.bank.supply + Tally.single (.liquid id) amount = st.bank.supply := by
  obtain ⟨_, _, bank, bank', hsend, hburn, hsend'⟩ := h.bank
  rw [Ledger.supply_send hsend', Ledger.supply_burn hburn, Ledger.supply_send hsend]

theorem balanced {a : Address} (hst : ∀ va, st.vestingAccount a = some va → va.Balanced) :
    ∀ va, st'.vestingAccount a = some va → va.Balanced := by
  intro va hva
  rcases h.accounts with ⟨_, hkept⟩ | ⟨_, hkept, funder, va', hgrant, haccount⟩
  · rw [hkept.vesting a (Set.notMem_empty a)] at hva
    exact hst va hva
  · by_cases ha : a = redeemTo
    · subst ha
      rw [haccount] at hva
      cases hva
      obtain ⟨_, htotal, _⟩ := subtractAmountFromPeriods_spec h.split
      exact hgrant.balanced htotal (add_zero _) hst
    · rw [hkept.vesting a ha] at hva
      exact hst va hva

end RedeemEffect

inductive TokenEffect (cfg : Config S) (st st' : ChainState S) : TokenMsg → Prop
  | liquidate {liquidateFrom liquidateTo : Address} {amount : Coin}
      {va va' : ClawbackVestingAccount} {diff : Periods} (hpos : 0 < amount.amount)
      (h : LiquidateEffect cfg liquidateFrom liquidateTo amount st st' va va' diff) :
      TokenEffect cfg st st' (.liquidate liquidateFrom liquidateTo amount)
  | redeem {redeemFrom redeemTo : Address} {id amount : Nat} {denom : LiquidDenom}
      {decreased diff : Periods} (hpos : 0 < amount)
      (h : RedeemEffect cfg redeemFrom redeemTo id amount st st' denom decreased diff) :
      TokenEffect cfg st st' (.redeem redeemFrom redeemTo ⟨.liquid id, amount⟩)
  | transfer {src dst : Address} {id amount : Nat} {locked : Coins} (kept : AccountsKept ∅ st st')
      (bank : st.bank.send locked src dst (Tally.single (.liquid id) amount) = some st'.bank)
      (modules : st'.modules = st.modules) :
      TokenEffect cfg st st' (.transfer src dst id amount)

theorem TokenMsg.effect {msg : TokenMsg} (h : (msg.handle cfg).run st = .ok u st') :
    TokenEffect cfg st st' msg := by
  cases msg with
  | liquidate liquidateFrom liquidateTo amount =>
    simp only [handle, msgLiquidate, run_bind_ok, ensure_then, run_pure_ok] at h
    obtain ⟨coin, _, ⟨hpos, h⟩, _, rfl⟩ := h
    obtain ⟨va, va', diff, heffect⟩ := liquidate_effect h
    exact .liquidate hpos heffect
  | redeem redeemFrom redeemTo amount =>
    simp only [handle, msgRedeem, run_bind_ok, ensure_then] at h
    obtain ⟨hpos, h⟩ := h
    obtain ⟨id, denom, decreased, diff, hdenom, heffect⟩ := redeem_effect h
    obtain ⟨_, n⟩ := amount
    cases hdenom
    exact .redeem hpos heffect
  | transfer src dst id amount =>
    simp only [handle, Bank.run_sendCoins_ok] at h
    obtain ⟨bank, hsend, rfl⟩ := h
    refine .transfer ⟨fun a _ acct hacct => Bank.withRecipient_accounts _ hacct, fun a _ => ?_⟩
      (by simpa using hsend) (by simp)
    simp [Store.vestingAccount]

theorem tokenStep_cases (cfg : Config S) (st : ChainState S) (tx : Tx TokenMsg) :
    tokenStep cfg st tx = st ∨
      TokenEffect (cfg.atTime tx.blockTime) st (tokenStep cfg st tx) tx.msg := by
  rcases deliver_cases (tx.msg.handle (cfg.atTime tx.blockTime)) st with hkeep | hrun
  · exact .inl hkeep
  · exact .inr (TokenMsg.effect hrun)

end Haqq.LiquidVesting
