import Haqq.Vesting.Keeper
import Haqq.Vesting.Reading

/-!
# The effects of the vesting messages

A successful message changes the clawback vesting account of one address, by a grant or by a
clawback; all other accounts stay, up to empty ones created for the recipients of coins.
-/

namespace Haqq.Vesting

open Lib Lib.Schedule

variable {S : Type} {cfg : Config S} {st st' : ChainState S} {u : Unit}

variable {addr : Address} {acct : AuthAccount}

@[simp] theorem run_setAccount_ok :
    (setAccount addr acct).run st = .ok u st' ↔
      st' = st.setAccount addr acct :=
  run_modify_ok

variable {va : ClawbackVestingAccount}

@[simp] theorem run_createVestingAccount_ok :
    (createVestingAccount cfg addr va).run st = .ok u st' ↔
      st' = st.newAccount addr (.clawback cfg.emptyCodeHash va) := by
  unfold createVestingAccount newAccountWithAddress
  simp [setAccount, Store.setAccount, Store.newAccount, eq_comm]

variable {va' : ClawbackVestingAccount} {grantStartTime : Int}
  {lockupPeriods vestingPeriods : Periods} {coins : Coins}

@[simp] theorem run_addGrant_ok :
    (addGrant cfg addr va grantStartTime lockupPeriods vestingPeriods coins).run st = .ok va' st' ↔
      va.addGrant (cfg.delegated st.modules.rest addr) grantStartTime lockupPeriods
        vestingPeriods coins = some va' ∧ st = st' := by
  unfold addGrant
  simp

variable {codeHash : Hash}

theorem vestingAccount_eq (hacct : st.accounts addr = some acct)
    (hkind : acct.kind = .clawback codeHash va) : st.vestingAccount addr = some va := by
  simp [Store.vestingAccount, vestingOf, hacct, hkind, AccountKind.vesting]

/-- Up to accounts created for recipients. -/
structure AccountsKept (changed : Set Address) (st st' : ChainState S) : Prop where
  existing : ∀ a ∉ changed, ∀ acct, st.accounts a = some acct → st'.accounts a = some acct
  vesting : ∀ a ∉ changed, st'.vestingAccount a = st.vestingAccount a

variable {changed : Set Address} {bank : Ledger Address Denom} {dst : Address}

theorem AccountsKept.withRecipient (h : AccountsKept changed st st') :
    AccountsKept changed st (Bank.withRecipient cfg.toEnv (st'.setBank bank) dst) where
  existing a ha acct hacct := Bank.withRecipient_accounts _ (h.existing a ha acct hacct)
  vesting a ha := by simpa [Store.vestingAccount] using h.vesting a ha

variable {mid : ChainState S}

theorem AccountsKept.trans (h : AccountsKept ∅ st mid) (h' : AccountsKept changed mid st') :
    AccountsKept changed st st' where
  existing a ha acct hacct := h'.existing a ha acct (h.existing a (Set.notMem_empty a) acct hacct)
  vesting a ha := (h'.vesting a ha).trans (h.vesting a (Set.notMem_empty a))

/-- `mergeStart` is the start of the grant when it is merged into an existing account. -/
inductive Grant (funder : Address) (coins : Coins) (startTime : Int)
    (mergeStart : ClawbackVestingAccount → Int) (lockupPeriods vestingPeriods : Periods) :
    Option ClawbackVestingAccount → ClawbackVestingAccount → Prop
  | create (delegated : Coins) :
      Grant funder coins startTime mergeStart lockupPeriods vestingPeriods none
        { newClawbackVestingAccount funder coins startTime lockupPeriods vestingPeriods with
          delegatedFree := delegated }
  | merge {va va' : ClawbackVestingAccount} (delegated : Coins)
      (hfunder : funder = va.funderAddress)
      (hmerge : va.addGrant delegated (mergeStart va) lockupPeriods vestingPeriods coins =
        some va') :
      Grant funder coins startTime mergeStart lockupPeriods vestingPeriods (some va) va'

variable {funder : Address} {startTime : Int} {mergeStart : ClawbackVestingAccount → Int}

theorem Grant.balanced {before : Option ClawbackVestingAccount}
    (h : Grant funder coins startTime mergeStart lockupPeriods vestingPeriods before va')
    (hlockup : total lockupPeriods = coins) (hvesting : total vestingPeriods = coins)
    (hbefore : ∀ va, before = some va → va.Balanced) : va'.Balanced := by
  cases h with
  | create delegated =>
    have hnew := ClawbackVestingAccount.balanced_new hlockup hvesting funder startTime
    exact ⟨hnew.lockup, hnew.vesting⟩
  | merge delegated _ hmerge => exact (hbefore _ rfl).addGrant hlockup hvesting hmerge

structure AccountEffect (change : Option ClawbackVestingAccount → ClawbackVestingAccount → Prop)
    (addr : Address) (st st' : ChainState S) (va' : ClawbackVestingAccount) : Prop where
  change : change (st.vestingAccount addr) va'
  account' : st'.vestingAccount addr = some va'
  kept : AccountsKept {addr} st st'
  modules : st'.modules = st.modules

theorem accountsKept_setAccount :
    AccountsKept {addr} st (st.setAccount addr acct) where
  existing a ha acct' hacct' := by
    rw [Set.mem_singleton_iff] at ha
    simpa [ha] using hacct'
  vesting a ha := by
    rw [Set.mem_singleton_iff] at ha
    simp [Store.vestingAccount, ha]

section

variable {change : Option ClawbackVestingAccount → ClawbackVestingAccount → Prop} {addr : Address}
  {va' : ClawbackVestingAccount}

theorem accountEffect_setAccount (hkind : acct.kind = .clawback codeHash va')
    (hchange : change (st.vestingAccount addr) va') :
    AccountEffect change addr st (st.setAccount addr acct) va' where
  change := hchange
  account' := by simp [Store.vestingAccount, hkind, AccountKind.vesting]
  kept := accountsKept_setAccount
  modules := rfl

theorem accountEffect_newAccount (hchange : change (st.vestingAccount addr) va') :
    AccountEffect change addr st (st.newAccount addr (.clawback codeHash va')) va' where
  change := hchange
  account' := by simp [Store.vestingAccount, AccountKind.vesting]
  kept := ⟨accountsKept_setAccount.existing, accountsKept_setAccount.vesting⟩
  modules := rfl

theorem AccountEffect.withRecipient (h : AccountEffect change addr st st' va') :
    AccountEffect change addr st (Bank.withRecipient cfg.toEnv (st'.setBank bank) dst) va' where
  change := h.change
  account' := by simpa [Store.vestingAccount] using h.account'
  kept := h.kept.withRecipient
  modules := by simpa using h.modules

end

/-! ## Grants -/

theorem vestingAccount_eq_none (hacct : st.accounts addr = some acct)
    (hkind : acct.kind.vesting = none) : st.vestingAccount addr = none := by
  simp [Store.vestingAccount, vestingOf, hacct, hkind]

theorem vestingAccount_eq_none_of_none (h : st.accounts addr = none) :
    st.vestingAccount addr = none := by
  simp [Store.vestingAccount, vestingOf, h]

/-- Module accounts receive no grant, an account that exists tracks the delegations that the staking
keeper knows, and a new one tracks none. -/
structure Receives (cfg : Config S) (st : ChainState S) (addr : Address)
    (va' : ClawbackVestingAccount) : Prop where
  kind : ∀ acct, st.accounts addr = some acct → acct.kind ≠ .base
  delegatedFree : va'.delegatedFree = cfg.delegated st.modules.rest addr ∨
    st.accounts addr = none ∧ va'.delegatedFree = 0
  delegatedVesting : va'.delegatedVesting = 0

theorem receives_new (hnone : st.accounts addr = none) (hfree : va'.delegatedFree = 0)
    (hvesting : va'.delegatedVesting = 0) :
    Receives cfg st addr va' where
  kind acct hacct := by simp [hnone] at hacct
  delegatedFree := .inr ⟨hnone, hfree⟩
  delegatedVesting := hvesting

theorem receives_addGrant (hacct : st.accounts addr = some acct) (hkind : acct.kind ≠ .base)
    (h : va.addGrant (cfg.delegated st.modules.rest addr) grantStartTime lockupPeriods
      vestingPeriods
      coins = some va') : Receives cfg st addr va' := by
  simp only [ClawbackVestingAccount.addGrant] at h
  split at h
  · cases h
  · cases h
    refine ⟨fun acct' hacct' => ?_, .inl rfl, rfl⟩
    rw [hacct] at hacct'
    cases hacct'
    exact hkind

theorem applyVestingSchedule_effect {funded : Address} {merge : Bool}
    (h : (applyVestingSchedule cfg funder funded coins startTime lockupPeriods vestingPeriods
      merge).run st = .ok u st') :
    (∃ va', AccountEffect (Grant funder coins startTime (fun va => min startTime va.startTime)
      lockupPeriods vestingPeriods) funded st st' va' ∧ Receives cfg st funded va') ∧
      st'.bank = st.bank := by
  unfold applyVestingSchedule at h
  rw [run_bind_ok, get_then] at h
  split at h
  case h_1 hnone =>
    rw [run_createVestingAccount_ok] at h
    subst h
    refine ⟨⟨_, accountEffect_newAccount ?_, receives_new hnone rfl rfl⟩, rfl⟩
    rw [vestingAccount_eq_none_of_none hnone]
    exact .create 0
  case h_2 acct hacct =>
    split at h
    · exact (run_throw_ok.mp h).elim
    · rename_i codeHash hkind
      rw [run_setAccount_ok] at h
      subst h
      refine ⟨⟨_, accountEffect_setAccount rfl ?_, fun acct' hacct' => ?_, .inl rfl, rfl⟩, rfl⟩
      · rw [vestingAccount_eq_none hacct (by rw [hkind]; rfl)]
        exact .create _
      · rw [hacct] at hacct'
        cases hacct'
        simp [hkind]
    · rename_i codeHash va hkind
      simp only [run_bind_ok, ensure_then, run_addGrant_ok, run_setAccount_ok] at h
      obtain ⟨-, hfunder, va', _, ⟨hmerge, rfl⟩, rfl⟩ := h
      refine ⟨⟨va', accountEffect_setAccount rfl ?_,
        receives_addGrant hacct (by simp [hkind]) hmerge⟩, rfl⟩
      rw [vestingAccount_eq hacct hkind]
      exact .merge _ hfunder hmerge

def MsgGrant.change (msg : MsgGrant) (mergeStart : ClawbackVestingAccount → Int) :
    Option ClawbackVestingAccount → ClawbackVestingAccount → Prop :=
  Grant msg.fromAddress (total msg.vesting) msg.startTime mergeStart msg.lockup msg.vesting

/-- The account of the recipient changes first, and then the coins of the grant are sent. -/
structure GrantEffect (cfg : Config S) (msg : MsgGrant) (mergeStart : ClawbackVestingAccount → Int)
    (st mid st' : ChainState S) (va' : ClawbackVestingAccount) : Prop where
  coins : coinEq (total msg.vesting) (total msg.lockup) = true
  account : AccountEffect (msg.change mergeStart) msg.toAddress st mid va'
  receives : Receives cfg st msg.toAddress va'
  bank : mid.bank = st.bank
  paid : (Bank.sendCoins cfg.toEnv msg.fromAddress msg.toAddress (total msg.vesting)).run mid =
    .ok () st'

variable {msg : MsgGrant}

theorem GrantEffect.accountEffect (h : GrantEffect cfg msg mergeStart st mid st' va') :
    AccountEffect (msg.change mergeStart) msg.toAddress st st' va' := by
  obtain ⟨bank, -, rfl⟩ := Bank.run_sendCoins_ok.mp h.paid
  exact h.account.withRecipient

theorem createClawbackVestingAccount_grant
    (h : (createClawbackVestingAccount cfg msg).run st = .ok u st') :
    ∃ mid va', GrantEffect cfg msg (fun _ => msg.startTime) st mid st' va' := by
  unfold createClawbackVestingAccount at h
  simp only [run_bind_ok, ensure_then, get_then] at h
  obtain ⟨_, hcoins, h⟩ := h
  split at h
  · rename_i acct hacct
    split at h
    · rename_i codeHash va hkind
      simp only [run_bind_ok, ensure_then, run_addGrant_ok, run_setAccount_ok] at h
      obtain ⟨-, hfunder, va', _, ⟨hmerge, rfl⟩, _, mid, rfl, hsend⟩ := h
      refine ⟨_, va', hcoins, accountEffect_setAccount rfl ?_,
        receives_addGrant hacct (by simp [hkind]) hmerge, rfl, hsend⟩
      rw [vestingAccount_eq hacct hkind]
      exact .merge _ hfunder hmerge
    · simp at h
  · rename_i hnone
    simp only [run_bind_ok, run_createVestingAccount_ok] at h
    obtain ⟨_, _, rfl, hsend⟩ := h
    refine ⟨_, _, hcoins, accountEffect_newAccount ?_, receives_new hnone rfl rfl, rfl, hsend⟩
    rw [vestingAccount_eq_none_of_none hnone]
    exact .create 0

theorem createClawbackVestingAccount_effect
    (h : (createClawbackVestingAccount cfg msg).run st = .ok u st') :
    coinEq (total msg.vesting) (total msg.lockup) = true ∧
      ∃ va', AccountEffect (msg.change fun _ => msg.startTime) msg.toAddress st st' va' := by
  obtain ⟨_, va', heffect⟩ := createClawbackVestingAccount_grant h
  exact ⟨heffect.coins, va', heffect.accountEffect⟩

theorem convertIntoVestingAccount_grant
    (h : (convertIntoVestingAccount cfg msg).run st = .ok u st') :
    ∃ mid va', GrantEffect cfg msg (fun va => min msg.startTime va.startTime) st mid st' va' := by
  unfold convertIntoVestingAccount at h
  simp only [run_bind_ok, ensure_then, get_then] at h
  obtain ⟨-, -, hcoins, _, mid, happly, hsend⟩ := h
  obtain ⟨⟨va', hva', hreceives⟩, hbank⟩ := applyVestingSchedule_effect happly
  exact ⟨mid, va', hcoins, hva', hreceives, hbank, hsend⟩

theorem convertIntoVestingAccount_effect
    (h : (convertIntoVestingAccount cfg msg).run st = .ok u st') :
    coinEq (total msg.vesting) (total msg.lockup) = true ∧
      ∃ va', AccountEffect (msg.change fun va => min msg.startTime va.startTime) msg.toAddress
        st st' va' := by
  obtain ⟨_, va', heffect⟩ := convertIntoVestingAccount_grant h
  exact ⟨heffect.coins, va', heffect.accountEffect⟩

/-- The change of an account by a clawback at `now` that takes something away. -/
def ClawbackChange (now : Int) (before : Option ClawbackVestingAccount)
    (va' : ClawbackVestingAccount) : Prop :=
  ∃ va coins, before = some va ∧ va.computeClawback now = some (va', coins) ∧
    coins.isZero = false

/-- The account is updated first, and then the unvested coins are sent. -/
structure ClawbackEffect (cfg : Config S) (addr dest : Address) (st mid st' : ChainState S)
    (va va' : ClawbackVestingAccount) (coins : Coins) : Prop where
  account : st.vestingAccount addr = some va
  compute : va.computeClawback cfg.blockTime = some (va', coins)
  nonzero : coins.isZero = false
  updated : AccountEffect (ClawbackChange cfg.blockTime) addr st mid va'
  bank : mid.bank = st.bank
  sent : (Bank.sendCoins cfg.toEnv addr dest coins).run mid = .ok () st'

variable {destAddress : Option Address}

theorem clawback_cases (h : (clawback cfg funder addr destAddress).run st = .ok u st') :
    st' = st ∨ ∃ mid va va' coins,
      ClawbackEffect cfg addr (destAddress.getD funder) st mid st' va va' coins := by
  unfold clawback at h
  simp only [run_bind_ok, ensure_then, get_then, ofOption_then] at h
  obtain ⟨_, acct, hacct, h⟩ := h
  split at h
  · rename_i codeHash va hkind
    unfold transferClawback at h
    simp only [run_bind_ok, ensure_then, ofOption_then] at h
    obtain ⟨-, -, ⟨va', coins⟩, hcompute, h⟩ := h
    dsimp only at h
    split at h
    · exact .inl ((run_pure_ok.mp h).2.symm)
    · rename_i hcoins
      have hcoins : coins.isZero = false := by simpa using hcoins
      have hva := vestingAccount_eq hacct hkind
      obtain ⟨_, mid, hset, hsend⟩ := run_bind_ok.mp h
      rw [run_setAccount_ok] at hset
      subst hset
      exact .inr ⟨_, va, va', coins, hva, hcompute, hcoins,
        accountEffect_setAccount rfl ⟨va, coins, hva, hcompute, hcoins⟩, rfl, hsend⟩
  · exact (run_throw_ok.mp h).elim

theorem clawback_effect (h : (clawback cfg funder addr destAddress).run st = .ok u st') :
    st' = st ∨ ∃ va', AccountEffect (ClawbackChange cfg.blockTime) addr st st' va' := by
  obtain hsame | ⟨mid, va, va', coins, heffect⟩ := clawback_cases h
  · exact .inl hsame
  · obtain ⟨bank, -, rfl⟩ := Bank.run_sendCoins_ok.mp heffect.sent
    exact .inr ⟨va', heffect.updated.withRecipient⟩

end Haqq.Vesting
