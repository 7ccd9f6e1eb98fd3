import Haqq.Staking.Fundable

/-!
# Runs of grants, delegations and clawbacks

The messages that touch clawback vesting accounts and the coins they hold, in blocks whose times do
not go back.  A grant whose times overflow breaks the invariant.

* `Funded.step` is the step, `clawback_fundable_of_run` the result over runs.
* `overflowRun` is the grant that overflows.
-/

namespace Haqq.Staking

open Lib Lib.Schedule Vesting

variable {cfg : SdkConfig} {now : Int} {st mid st' : ChainState SdkState} {u : Unit}

/-! ## The message server -/

variable {delegator : Address} {amount : Nat}

theorem hasRoom_of_validate (h : Funded cfg now st) (hnow : cfg.blockTime = now) (hpos : 0 < amount)
    (hrun : (validateDelegationAmountNotUnvested cfg delegator amount).run st = .ok u st') :
    st' = st ∧ HasRoom now st delegator amount := by
  unfold validateDelegationAmountNotUnvested at hrun
  simp only [run_bind_ok, get_then, ofOption_then] at hrun
  obtain ⟨acct, hacct, hrun⟩ := hrun
  split at hrun
  · rename_i codeHash va hkind
    simp only [run_bind_ok, ofOption_then] at hrun
    obtain ⟨unvested, hunvested, hrun⟩ := hrun
    obtain ⟨hle, rfl⟩ := run_ensure_ok.mp hrun
    refine ⟨rfl, fun va' hva' => ?_⟩
    rw [vestingAccount_eq hacct hkind] at hva'
    cases hva'
    have hva := (h.accounts delegator va (vestingAccount_eq hacct hkind)).scheduled
    rw [hnow, hva.balanced.getVestingCoins_eq] at hunvested
    cases hunvested
    omega
  · rename_i hother
    refine ⟨(run_pure_ok.mp hrun).2.symm, fun va hva => ?_⟩
    have hnone : acct.kind.vesting = none := by
      cases hkind : acct.kind with
      | clawback codeHash va => exact absurd hkind (hother codeHash va)
      | base => rfl
      | eth codeHash => rfl
    rw [vestingAccount_eq_none hacct hnone] at hva
    cases hva

theorem run_checkAmount_ok {amount : Coin} (hrun : (checkAmount amount).run st = .ok u st') :
    0 < amount.amount ∧ st' = st := by
  unfold checkAmount at hrun
  simp only [run_bind_ok, ensure_then] at hrun
  exact ⟨hrun.1, (run_ensure_ok.mp hrun.2).2.symm⟩

variable {validator : Address}

theorem Funded.msgDelegate {amount : Coin} (h : Funded cfg now st) (hnow : cfg.blockTime = now)
    (hrun : (Staking.msgDelegate cfg delegator validator amount).run st = .ok u st') :
    Funded cfg now st' := by
  unfold Staking.msgDelegate at hrun
  simp only [run_bind_ok] at hrun
  obtain ⟨_, checked, hvalidate, _, mid, hamount, hdelegate⟩ := hrun
  obtain ⟨hpos, rfl⟩ := run_checkAmount_ok hamount
  obtain ⟨rfl, hroom⟩ := hasRoom_of_validate h hnow hpos hvalidate
  exact h.delegate hnow hroom hdelegate

theorem Funded.msgCreateValidator {value : Coin} (h : Funded cfg now st)
    (hnow : cfg.blockTime = now)
    (hrun : (Staking.msgCreateValidator cfg validator value).run st = .ok u st') :
    Funded cfg now st' := by
  unfold Staking.msgCreateValidator modifyStaking at hrun
  simp only [run_bind_ok, get_then, ensure_then, run_modify_ok] at hrun
  obtain ⟨_, checked, hvalidate, _, mid, hamount, -, _, _, rfl, hdelegate⟩ := hrun
  obtain ⟨hpos, rfl⟩ := run_checkAmount_ok hamount
  obtain ⟨rfl, hroom⟩ := hasRoom_of_validate h hnow hpos hvalidate
  have hinserted : Funded cfg now (mid.setStaking
      { mid.staking with validators := insert validator mid.staking.validators }) :=
    h.setStaking fun _ => rfl
  exact hinserted.delegate hnow hroom hdelegate

/-! ## Grants that are delegated at once -/

variable {msg : MsgGrant}

theorem Granted.hasRoom {mergeStart : ClawbackVestingAccount → Int} {va' : ClawbackVestingAccount}
    (hgranted : Granted now st msg va') (hnow : cfg.blockTime = now)
    (heffect : GrantEffect cfg.toConfig msg mergeStart st mid st' va')
    (hle : amount ≤ (afterStart msg.startTime msg.vesting now).get .islm)
    (htotal : amount ≤ (total msg.vesting).get .islm) : HasRoom now st' msg.toAddress amount := by
  intro va hva
  rw [heffect.accountEffect.account'] at hva
  cases hva
  obtain ⟨bank, hsent, rfl⟩ := Bank.run_sendCoins_ok.mp heffect.paid
  have hroom := hgranted.room .islm
  have hunvested := hgranted.scheduled.balanced.unvested_le_locked now .islm
  rw [Bank.withRecipient_bank]
  apply Ledger.le_balance_of_send hsent
  · rw [heffect.bank, if_pos rfl]
    exact (Nat.add_le_add_left hle _).trans hroom
  · -- a funder who grants to their own account pays with coins that are not locked
    intro hself
    rw [if_pos rfl, ← hself, lockedCoins_eq heffect.account.account']
    show _ ≤ (va'.lockedCoins cfg.blockTime).get .islm + _
    rw [hnow]
    exact Nat.add_le_add hunvested htotal

theorem delegateVestedCoins_ok (hchecked : msg.Checked)
    (hrun : (delegateVestedCoins cfg msg validator).run st = .ok u st') :
    ∃ amount, amount ≤ (afterStart msg.startTime msg.vesting cfg.blockTime).get .islm ∧
      (delegate cfg msg.toAddress validator amount).run st = .ok u st' := by
  unfold delegateVestedCoins at hrun
  simp only [run_bind_ok, get_then, ensure_then] at hrun
  obtain ⟨_, hrun⟩ := hrun
  dsimp only [disjunctPeriods] at hrun
  obtain ⟨_, hdelegate⟩ := hrun
  refine ⟨_, le_of_eq ?_, hdelegate⟩
  have hne : msg.vesting ≠ [] := fun hempty => hchecked.coins (by rw [hempty]; rfl)
  have hfits := hchecked.vesting
  obtain ⟨-, -, -, hend⟩ := hfits.disjunct window_int64 hfits
  rw [min_self] at hend ⊢
  rw [(hfits.timely window_int64).readSchedule_eq (hend hne) rfl]

theorem Funded.msgConvertIntoVestingAccount {stake : Option Address} (h : Funded cfg now st)
    (hnow : cfg.blockTime = now) (hbasic : msg.validateBasic = true) (hrange : msg.InRange)
    (hrun : (Staking.msgConvertIntoVestingAccount cfg msg stake).run st = .ok u st') :
    Funded cfg now st' := by
  unfold Staking.msgConvertIntoVestingAccount at hrun
  rw [run_bind_ok] at hrun
  obtain ⟨_, converted, hconvert, hrun⟩ := hrun
  obtain ⟨mid, va', heffect⟩ := convertIntoVestingAccount_grant hconvert
  have hchecked := MsgGrant.checked hbasic heffect.coins hrange
  have hgranted := h.granted hchecked heffect fun va hva =>
    ⟨le_min hrange.1 hva.lockup.low, min_le_left _ _⟩
  have hconverted := h.grant hnow heffect hgranted
  cases stake with
  | none =>
    obtain ⟨-, rfl⟩ := run_pure_ok.mp hrun
    exact hconverted
  | some validator =>
    obtain ⟨amount, hle, hdelegate⟩ := delegateVestedCoins_ok hchecked hrun
    rw [hnow] at hle
    have htotal : amount ≤ (total msg.vesting).get .islm :=
      hle.trans (((afterStart_le_value _ _).trans (value_le_total (nonneg_amounts _) _ _)) _)
    exact hconverted.delegate hnow (hgranted.hasRoom hnow heffect hle htotal) hdelegate

/-! ## Runs -/

/-- The messages that change clawback vesting accounts or the coins they hold, and the end
of an unbonding. -/
inductive Msg
  | createClawbackVestingAccount (msg : MsgGrant)
  | convertIntoVestingAccount (msg : MsgGrant) (stake : Option Address)
  | clawback (funder addr : Address) (destAddress : Option Address)
  | send (src dst : Address) (coins : Coins)
  | delegate (delegator validator : Address) (amount : Coin)
  | createValidator (validator : Address) (value : Coin)
  | undelegate (height : Int) (delegator validator : Address) (amount : Coin)
  | beginRedelegate (delegator source target : Address) (amount : Coin)
  | cancelUnbondingDelegation (delegator validator : Address) (amount : Coin) (height : Int)
  | completeUnbonding (delegator validator : Address) (height : Int)

namespace Msg

def handle (cfg : SdkConfig) : Msg → SdkM Unit
  | createClawbackVestingAccount msg => do
    ensure (msg.validateBasic = true) .invalidRequest
    Vesting.createClawbackVestingAccount cfg.toConfig msg
  | convertIntoVestingAccount msg stake => do
    ensure (msg.validateBasic = true) .invalidRequest
    msgConvertIntoVestingAccount cfg msg stake
  | clawback funder addr destAddress => Vesting.clawback cfg.toConfig funder addr destAddress
  | send src dst coins => Bank.sendCoins cfg.toEnv src dst coins
  | delegate delegator validator amount => msgDelegate cfg delegator validator amount
  | createValidator validator value => msgCreateValidator cfg validator value
  | undelegate height delegator validator amount =>
    msgUndelegate cfg height delegator validator amount
  | beginRedelegate delegator source target amount =>
    msgBeginRedelegate cfg delegator source target amount
  | cancelUnbondingDelegation delegator validator amount height =>
    msgCancelUnbondingDelegation cfg delegator validator amount height
  | completeUnbonding delegator validator height =>
    Staking.completeUnbonding cfg delegator validator height

def InRange : Msg → Prop
  | createClawbackVestingAccount msg => msg.InRange
  | convertIntoVestingAccount msg _ => msg.InRange
  | _ => True

end Msg

theorem Funded.handle {msg : Msg} (h : Funded cfg now st) (hnow : cfg.blockTime = now)
    (hrange : msg.InRange) (hrun : (msg.handle cfg).run st = .ok u st') :
    Funded cfg now st' := by
  cases msg with
  | createClawbackVestingAccount msg =>
    simp only [Msg.handle, run_bind_ok, ensure_then] at hrun
    obtain ⟨hbasic, hrun⟩ := hrun
    obtain ⟨mid, va', heffect⟩ := createClawbackVestingAccount_grant hrun
    have hchecked := MsgGrant.checked hbasic heffect.coins hrange
    exact h.grant hnow heffect (h.granted hchecked heffect fun _ _ => ⟨hrange.1, le_rfl⟩)
  | convertIntoVestingAccount msg stake =>
    simp only [Msg.handle, run_bind_ok, ensure_then] at hrun
    obtain ⟨hbasic, hrun⟩ := hrun
    exact h.msgConvertIntoVestingAccount hnow hbasic hrange hrun
  | clawback funder addr destAddress => exact h.clawback hnow hrun
  | send src dst coins => exact h.send hnow hrun
  | delegate delegator validator amount => exact h.msgDelegate hnow hrun
  | createValidator validator value => exact h.msgCreateValidator hnow hrun
  | undelegate height delegator validator amount =>
    simp only [Msg.handle, msgUndelegate, run_bind_ok] at hrun
    obtain ⟨_, mid, hamount, hrun⟩ := hrun
    obtain ⟨-, rfl⟩ := run_checkAmount_ok hamount
    exact h.undelegate hnow hrun
  | beginRedelegate delegator source target amount =>
    simp only [Msg.handle, msgBeginRedelegate, run_bind_ok] at hrun
    obtain ⟨_, mid, hamount, hrun⟩ := hrun
    obtain ⟨-, rfl⟩ := run_checkAmount_ok hamount
    exact h.beginRedelegate hnow hrun
  | cancelUnbondingDelegation delegator validator amount height =>
    simp only [Msg.handle, msgCancelUnbondingDelegation, run_bind_ok] at hrun
    obtain ⟨_, mid, hamount, hrun⟩ := hrun
    obtain ⟨-, rfl⟩ := run_checkAmount_ok hamount
    exact h.cancelUnbondingDelegation hnow hrun
  | completeUnbonding delegator validator height => exact h.completeUnbonding hnow hrun

structure Event where
  elapsed : Nat
  msg : Msg

structure Chain where
  now : Int
  state : ChainState SdkState

def step (cfg : SdkConfig) (c : Chain) (e : Event) : Chain :=
  let now := c.now + e.elapsed
  ⟨now, deliver (e.msg.handle (cfg.atTime now)) c.state⟩

theorem Funded.atTime (h : Funded cfg now st) (blockTime : Int) :
    Funded (cfg.atTime blockTime) now st :=
  { h with }

theorem Funded.step {c : Chain} {e : Event} (hrange : e.msg.InRange)
    (h : Funded cfg c.now c.state) :
    Funded cfg (step cfg c e).now (step cfg c e).state := by
  have hlater : Funded cfg (c.now + e.elapsed) c.state := h.later (by omega)
  rcases deliver_cases (e.msg.handle (cfg.atTime (c.now + e.elapsed))) c.state with hkeep | hrun
  · simp only [Staking.step, hkeep]
    exact hlater
  · have hstep := (hlater.atTime (c.now + e.elapsed)).handle rfl hrange hrun
    exact { hstep with }

/-- Nobody has a clawback vesting account, and whoever delegates has an account, as the distribution
module has. -/
structure Start (cfg : SdkConfig) (st : ChainState SdkState) : Prop where
  accounts : ∀ a, st.vestingAccount a = none
  delegators : ∀ a, st.accounts a = none → st.staking.delegated a = 0
  distribution : ∃ acct, st.accounts cfg.distributionModule = some acct ∧ acct.kind = .base

/-- In every run of messages whose times fit, the balance of a clawback vesting account covers its
unvested coins, and what a clawback takes can be sent. -/
theorem clawback_fundable_of_run (cfg : SdkConfig) (start : Int) (st : ChainState SdkState)
    (events : List Event) (hst : Start cfg st) (hrange : ∀ e ∈ events, e.msg.InRange)
    (c : Chain) (hc : c = Run.after (step cfg) ⟨start, st⟩ events) (addr : Address)
    (acct : AuthAccount) (codeHash : Hash) (va : ClawbackVestingAccount)
    (hacct : c.state.accounts addr = some acct) (hkind : acct.kind = .clawback codeHash va) :
    (∃ unvested, va.getVestingCoins c.now = some unvested ∧
      unvested ≤ c.state.bank.balance addr) ∧
    ∀ dest, ∃ st', (transferClawback (cfg.atTime c.now).toConfig addr acct codeHash va dest).run
      c.state = .ok () st' := by
  have hfunded : Funded cfg c.now c.state := by
    rw [hc]
    exact @Run.invariant Chain Event (step cfg) (fun c => Funded cfg c.now c.state)
      (fun _ e => e.msg.InRange) ⟨start, st⟩ events (fun _ _ => Funded.step)
      ⟨fun a va hva => by simp [hst.accounts] at hva, hst.delegators, hst.distribution⟩
      (Run.along_of_forall hrange _)
  have hva := hfunded.accounts addr va (vestingAccount_eq hacct hkind)
  refine ⟨⟨_, hva.scheduled.balanced.getVestingCoins_eq _, hva.unvested_le⟩, fun dest => ?_⟩
  exact (hfunded.atTime c.now).transferClawback rfl hacct hkind dest

def beforeGrants : ChainState SdkState :=
  sdkGenesis.setBank (sdkGenesis.bank.mint 1 (Tally.single .islm 100))

theorem start_beforeGrants : Start sdkConfig beforeGrants where
  accounts a := by
    simp only [Store.vestingAccount, vestingOf, beforeGrants, sdkGenesis, genesis,
      Store.setBank_accounts]
    split <;> rfl
  delegators _ _ := rfl
  distribution := ⟨⟨0, 0, .base⟩, rfl, rfl⟩

def twoHalves : MsgGrant :=
  ⟨1, 2, 0, [], [⟨10, Tally.single .islm 5⟩, ⟨10, Tally.single .islm 5⟩], false⟩

def lockedOnly : MsgGrant := ⟨1, 3, 0, [⟨100, Tally.single .islm 8⟩], [], false⟩

def delegateHalf : List Event :=
  [⟨0, .createClawbackVestingAccount twoHalves⟩, ⟨12, .delegate 2 50 ⟨.islm, 6⟩⟩,
    ⟨0, .delegate 2 50 ⟨.islm, 5⟩⟩, ⟨0, .undelegate 7 2 50 ⟨.islm, 2⟩⟩,
    ⟨1, .completeUnbonding 2 50 7⟩, ⟨0, .convertIntoVestingAccount lockedOnly (some 50)⟩]

def accountTwo (events : List Event) : Option (Nat × Nat × Option Nat) :=
  let c := Run.after (step sdkConfig) ⟨0, beforeGrants⟩ events
  (c.state.vestingAccount 2).map fun va =>
    ((c.state.bank.balance 2).get .islm, c.state.staking.delegated 2,
      (va.getVestingCoins c.now).map (·.get .islm))

theorem delegateHalf_fundable :
    accountTwo delegateHalf = some (7, 3, some 5) ∧
      (Run.after (step sdkConfig) ⟨0, beforeGrants⟩ delegateHalf).state.staking.delegated 3 = 8 ∧
      ∀ acct codeHash va,
        (Run.after (step sdkConfig) ⟨0, beforeGrants⟩ delegateHalf).state.accounts 2 = some acct →
        acct.kind = .clawback codeHash va →
        ∀ dest, ∃ st', (transferClawback (sdkConfig.atTime
          (Run.after (step sdkConfig) ⟨0, beforeGrants⟩ delegateHalf).now).toConfig 2 acct codeHash
            va dest).run (Run.after (step sdkConfig) ⟨0, beforeGrants⟩ delegateHalf).state =
              .ok () st' := by
  refine ⟨by decide +kernel, by decide +kernel, fun acct codeHash va hacct hkind => ?_⟩
  have hrange : ∀ e ∈ delegateHalf, e.msg.InRange := by
    have htwoHalves : twoHalves.InRange := ⟨by decide, by decide, by decide⟩
    have hlockedOnly : lockedOnly.InRange := ⟨by decide, by decide, by decide⟩
    simp [delegateHalf, Msg.InRange, htwoHalves, hlockedOnly]
  exact (clawback_fundable_of_run sdkConfig 0 beforeGrants delegateHalf start_beforeGrants hrange _
    rfl 2 acct codeHash va hacct hkind).2

def overflowingVesting : MsgGrant :=
  ⟨1, 2, 0, [], [⟨2 ^ 62, Tally.single .islm 5⟩, ⟨2 ^ 63 - 1, Tally.single .islm 5⟩], false⟩

def thousandSeconds : MsgGrant :=
  ⟨1, 2, 0, [⟨500, Tally.single .islm 10⟩], [⟨1000, Tally.single .islm 10⟩], true⟩

def overflowRun : List Event :=
  [⟨0, .createClawbackVestingAccount overflowingVesting⟩, ⟨1, .delegate 2 50 ⟨.islm, 10⟩⟩,
    ⟨1, .createClawbackVestingAccount thousandSeconds⟩]

theorem clawback_not_fundable_of_overflow :
    overflowingVesting.validateBasic = true ∧ thousandSeconds.validateBasic = true ∧
      accountTwo overflowRun = some (10, 10, some 20) ∧
      (match ((Msg.clawback 1 2 none).handle (sdkConfig.atTime 2)).run
          (Run.after (step sdkConfig) ⟨0, beforeGrants⟩ overflowRun).state with
        | .error .insufficientFunds _ => true
        | _ => false) = true := by
  decide +kernel

end Haqq.Staking
