import Haqq.Precompiles.Calls

/-!
# Delegated authority

Whose coins, delegations and escrow a call of a precompile can take: those of the caller, and those
of an account that granted the caller the message.  Payments into the community pool are left out:
with them a caller spends coins of the origin without any grant.

* `Debits` says who pays, `Authority` by which right; `TxCall.acts` goes through the methods.
* `debited_permitted` is the result for any call of any precompile.
-/

namespace Haqq.Precompiles

open Lib Lib.Ledger Authz Evm

variable {cfg : CallConfig} {origin caller : Address} {st mid st' : ChainState SdkState} {α : Type}

/-- Some coins, bonded tokens or unbonding tokens of an account become fewer. -/
def Debited (x : Address) (st st' : ChainState SdkState) : Prop :=
  (∃ denom, (st'.bank.balance x).get denom < (st.bank.balance x).get denom) ∨
  (∃ validator, (st'.staking.bonded x).get validator < (st.staking.bonded x).get validator) ∨
  ∃ entry, (st'.staking.unbonding x).get entry < (st.staking.unbonding x).get entry

theorem mem_of_debited {x : Address} (h : Debits D st st') (hx : Debited x st st') : x ∈ D := by
  by_contra hnot
  obtain ⟨denom, hlt⟩ | ⟨validator, hlt⟩ | ⟨entry, hlt⟩ := hx
  · exact absurd (le_balance_of_between h.bank hnot denom) (not_le_of_gt hlt)
  · rw [h.bonded x hnot] at hlt
    exact lt_irrefl _ hlt
  · rw [h.unbonding x hnot] at hlt
    exact lt_irrefl _ hlt

/-- Only grants differ. -/
def SameButGrants (st st' : ChainState SdkState) : Prop := ∃ grants, st' = st.setGrants grants

instance : IsPreorder (ChainState SdkState) SameButGrants where
  refl st := ⟨st.grants, rfl⟩
  trans _ _ _ := by
    rintro ⟨_, rfl⟩ ⟨grants, rfl⟩
    exact ⟨grants, rfl⟩

theorem SameButGrants.debits (h : SameButGrants st st') : Debits D st st' := by
  obtain ⟨grants, rfl⟩ := h
  exact ⟨refl_of (Moves _) _, fun _ _ => rfl, fun _ _ => rfl⟩

def moduleAccounts (cfg : CallConfig) : Set Address :=
  {cfg.liquidModule, cfg.ethiqModule, cfg.distributionModule, cfg.bondedPool, cfg.notBondedPool,
    cfg.ibc.transferModule, cfg.ibc.erc20Module}

/-! ## For whom a call acts -/

def TxCall.spender : TxCall → Option Address
  | convertToHaqq sender _ _ => some sender
  | transferOwnership owner _ => some owner
  | transferOwnershipWithAmount owner _ _ _ => some owner
  | mintHaqq sender _ _ => some sender
  | mintHaqqByApplication sender _ => some sender
  | liquidate sender _ _ => some sender
  | redeem sender _ _ _ => some sender
  | createValidator validator _ => some validator
  | delegate delegator _ _ => some delegator
  | undelegate delegator _ _ => some delegator
  | redelegate delegator _ _ _ => some delegator
  | cancelUnbondingDelegation delegator _ _ _ => some delegator
  | fundCommunityPool depositor _ => some depositor
  | _ => none

def TxCall.msg : TxCall → Option Msg
  | convertToHaqq sender receiver amount => some (.convertToHaqq sender receiver amount.val)
  | transferOwnership owner newOwner => some (.transferOwnership owner newOwner)
  | transferOwnershipWithAmount owner newOwner denoms amounts =>
    some (.transferOwnershipWithAmount owner newOwner
      (Ucdao.rawCoins (Ucdao.argumentCoins denoms amounts)))
  | mintHaqq sender receiver amount => some (.mintHaqq sender receiver amount.val)
  | mintHaqqByApplication sender appId =>
    some (.mintHaqqByApplication sender (Ethiq.applicationID appId))
  | liquidate sender receiver amount => some (.liquidate sender receiver ⟨.islm, amount.val⟩)
  | redeem sender receiver denom amount => some (.redeem sender receiver ⟨denom, amount.val⟩)
  | delegate delegator validator amount => some (.delegate delegator validator ⟨.islm, amount.val⟩)
  | undelegate delegator validator amount =>
    some (.undelegate delegator validator ⟨.islm, amount.val⟩)
  | redelegate delegator source target amount =>
    some (.beginRedelegate delegator source target ⟨.islm, amount.val⟩)
  | cancelUnbondingDelegation delegator validator amount creationHeight =>
    some (.cancelUnbondingDelegation delegator validator ⟨.islm, amount.val⟩
      (int64 creationHeight.val))
  | _ => none

namespace AnyCall

def spender (caller : Address) : AnyCall → Option Address
  | module call => call.spender
  | erc20Transfer _ _ _ => some caller
  | erc20TransferFrom _ src _ _ => some src
  | ics20Transfer sender _ _ _ _ _ _ => some sender

def msg : AnyCall → Option Msg
  | module call => call.msg
  | erc20Transfer _ _ _ => none
  | erc20TransferFrom denom src dst amount => some (.send src dst (Tally.single denom amount.val))
  | ics20Transfer sender receiver sourcePort sourceChannel denom amount memo =>
    some (.transfer sender receiver sourcePort sourceChannel ⟨denom, amount.val⟩ memo)

def granter (origin : Address) : AnyCall → Address
  | erc20TransferFrom _ src _ _ => src
  | _ => origin

def FundsPoolOf (origin caller : Address) (call : AnyCall) : Prop :=
  caller ≠ origin ∧ ∃ amount, call = module (.fundCommunityPool origin amount)

end AnyCall

/-! ## Grants -/

/-- An unexpired grant for the message is stored as the authorization leaves it. -/
def UsesGrant (cfg : CallConfig) (granter grantee : Address) (msg : Msg)
    (st st' : ChainState SdkState) : Prop :=
  ∃ grant, st.grants.getAuthorization cfg.blockTime ⟨grantee, granter, msg.typeURL⟩ = some grant ∧
    useGrant (some grant.authorization) msg =
      some ((st'.grants.grant ⟨grantee, granter, msg.typeURL⟩).map Grant.authorization)

variable {granter a : Address} {msg : Msg} {x : SdkM Unit} {u : Unit}

section UsesGrant

variable {resp : AcceptResponse} {grant : Grant} {key : GrantKey} {expiration : Option Int}
  {grants grants' : GrantStore}

theorem usesGrant_of_replace
    (hfound : st.grants.getAuthorization cfg.blockTime ⟨caller, granter, msg.typeURL⟩ = some grant)
    (haccept : grant.authorization.accept msg = .ok resp)
    (hreplace : (st'.grants.grant ⟨caller, granter, msg.typeURL⟩).map Grant.authorization =
      resp.replace grant.authorization) :
    UsesGrant cfg granter caller msg st st' := by
  refine ⟨grant, hfound, ?_⟩
  rw [hreplace]
  simp [useGrant, haccept, (Authorization.keeps_accept haccept).accept]

theorem grant_put_of_accept {auth : Authorization} (hstored : grants.grant key = some grant)
    (haccept : grant.authorization.accept msg = .ok resp) (hupdated : resp.updated = some auth) :
    (grants.put key.grantee key.granter auth expiration).grant key = some ⟨auth, expiration⟩ := by
  have hurl : auth.msgTypeURL = key.url :=
    ((Authorization.keeps_accept haccept).msgTypeURL auth hupdated).trans
      (grants.keyed key grant hstored)
  rw [GrantStore.put_grant, hurl, if_pos rfl]

theorem grant_updatedAllowance (hstored : grants.grant key = some grant)
    (haccept : grant.authorization.accept msg = .ok resp)
    (h : Erc20.updatedAllowance key expiration resp grants = .ok grants') :
    (grants'.grant key).map Grant.authorization = resp.replace grant.authorization := by
  unfold Erc20.updatedAllowance at h
  unfold AcceptResponse.replace
  split at h
  · rename_i hdelete
    obtain ⟨-, rfl⟩ := GrantStore.deleteGrant_ok.mp h
    rw [GrantStore.erase_grant, if_pos rfl, if_pos hdelete, Option.map_none]
  · rename_i hdelete
    rw [if_neg hdelete]
    split at h
    · rename_i auth hupdated
      cases h
      rw [grant_put_of_accept hstored haccept hupdated, hupdated, Option.map_some,
        Option.getD_some]
    · rename_i hupdated
      cases h
      rw [hstored, hupdated, Option.map_some, Option.getD_none]

theorem updatedAllowance_of_updatedGrants {now : Int}
    (h : updatedGrants now key expiration resp grants = .ok grants') :
    Erc20.updatedAllowance key expiration resp grants = .ok grants' := by
  unfold updatedGrants at h
  unfold Erc20.updatedAllowance
  split at h
  · rename_i hdelete
    rw [if_pos hdelete]
    exact h
  · rename_i hdelete
    rw [if_neg hdelete]
    split at h
    · obtain ⟨-, rfl⟩ := GrantStore.saveGrant_ok.mp h
      rfl
    · exact h

theorem run_acceptMsg_ok (h : (acceptMsg grant msg).run st = .ok resp st') :
    grant.authorization.accept msg = .ok resp ∧ st = st' := by
  unfold acceptMsg at h
  simp only [run_bind_ok, runExcept_then, ensure_then, run_pure_ok, except_mapError_ok] at h
  obtain ⟨_, haccept, -, rfl, rfl⟩ := h
  exact ⟨haccept, rfl⟩

theorem run_updateGrant_ok (h : (updateGrant cfg key expiration resp).run st = .ok u st') :
    ∃ grants, updatedGrants cfg.blockTime key expiration resp st.grants = .ok grants ∧
      st' = st.setGrants grants := by
  unfold updateGrant at h
  simp only [run_bind_ok, get_then, runExcept_then, run_modify_ok, except_mapError_ok] at h
  exact h

theorem updateGrant_uses
    (hfound : st.grants.getAuthorization cfg.blockTime ⟨caller, granter, msg.typeURL⟩ = some grant)
    (haccept : grant.authorization.accept msg = .ok resp)
    (hupdate : (updateGrant cfg ⟨caller, granter, msg.typeURL⟩ expiration resp).run mid =
      .ok u st') :
    SameButGrants mid st' ∧ (mid.grants = st.grants → UsesGrant cfg granter caller msg st st') := by
  obtain ⟨grants', hgrants, rfl⟩ := run_updateGrant_ok hupdate
  refine ⟨⟨grants', rfl⟩, fun hmid => ?_⟩
  rw [hmid] at hgrants
  have hstored := (GrantStore.getAuthorization_some.mp hfound).1
  exact usesGrant_of_replace hfound haccept
    (grant_updatedAllowance hstored haccept (updatedAllowance_of_updatedGrants hgrants))

theorem consumeGrant_uses {missing : CallError} {expected : Authorization → Bool}
    (h : (if caller = granter then pure ()
      else consumeGrant cfg caller missing expected granter msg).run st = .ok u st') :
    SameButGrants st st' ∧ (caller = granter ∨ UsesGrant cfg granter caller msg st st') := by
  split at h
  · obtain ⟨-, rfl⟩ := run_pure_ok.mp h
    exact ⟨refl_of _ st, .inl ‹_›⟩
  · unfold consumeGrant findGrant at h
    simp only [run_bind_ok, get_then, ofOption_then, ensure_then] at h
    obtain ⟨grant, hfound, -, resp, _, hmsg, hupdate⟩ := h
    obtain ⟨haccept, rfl⟩ := run_acceptMsg_ok hmsg
    obtain ⟨hsame, huses⟩ := updateGrant_uses hfound haccept hupdate
    exact ⟨hsame, .inr (huses rfl)⟩

theorem dispatchActions_uses
    (h : (Erc20.dispatchActions cfg caller granter msg x).run st = .ok u st') :
    ∃ mid, SameButGrants st mid ∧ UsesGrant cfg granter caller msg st mid ∧
      x.run mid = .ok u st' := by
  unfold Erc20.dispatchActions findGrant at h
  simp only [run_bind_ok, get_then, ofOption_then, runExcept_then, run_modify_ok,
    except_mapError_ok, run_keeper_ok] at h
  obtain ⟨grant, hfound, resp, _, hmsg, grants, hgrants, _, _, rfl, hrun⟩ := h
  obtain ⟨haccept, rfl⟩ := run_acceptMsg_ok hmsg
  have hstored := (GrantStore.getAuthorization_some.mp hfound).1
  exact ⟨_, ⟨grants, rfl⟩, usesGrant_of_replace hfound haccept
    (grant_updatedAllowance hstored haccept hgrants), hrun⟩

end UsesGrant

theorem run_resolveSender_ok (h : (resolveSender origin caller a).run st = .ok granter st') :
    st = st' ∧ granter = origin ∧ (caller = a ∨ origin = a) := by
  unfold resolveSender at h
  split at h
  · rename_i hcaller
    obtain ⟨rfl, rfl⟩ := run_pure_ok.mp h
    exact ⟨rfl, rfl, .inl hcaller⟩
  · simp only [run_bind_ok, ensure_then, run_pure_ok] at h
    obtain ⟨rfl, rfl, rfl⟩ := h
    exact ⟨rfl, rfl, .inr rfl⟩

theorem run_authorize_ok (h : (Liquid.authorize cfg origin caller a msg).run st = .ok u st') :
    SameButGrants st st' ∧ (caller = a ∨ origin = a) ∧
      (caller = origin ∨ UsesGrant cfg origin caller msg st st') := by
  unfold Liquid.authorize at h
  simp only [run_bind_ok, ensure_then] at h
  obtain ⟨-, hwho, h⟩ := h
  exact ⟨(consumeGrant_uses h).1, hwho, (consumeGrant_uses h).2⟩

theorem run_execute_ok {amount : Nat}
    (h : (Staking.execute cfg origin caller a msg amount x).run st = .ok u st') :
    ∃ mid, x.run st = .ok u mid ∧ SameButGrants mid st' ∧ (caller = a ∨ origin = a) ∧
      (caller = origin ∨ (mid.grants = st.grants → UsesGrant cfg origin caller msg st st')) := by
  unfold Staking.execute at h
  simp only [run_bind_ok, ensure_then] at h
  obtain ⟨-, granter, _, hresolve, h⟩ := h
  obtain ⟨rfl, rfl, hwho⟩ := run_resolveSender_ok hresolve
  split at h
  · exact ⟨st', run_keeper_ok.mp h, refl_of _ st', hwho, .inl ‹_›⟩
  · unfold Staking.checkAuthzAndAllowanceForGranter Staking.updateStakingAuthorization
      findGrant at h
    simp only [run_bind_ok, get_then, ofOption_then, ensure_then, run_pure_ok, runExcept_then,
      except_mapError_ok, run_keeper_ok] at h
    obtain ⟨grant, _, ⟨_, hfound, _, -, -, rfl, rfl⟩, _, mid, hrun, resp, haccept, hupdate⟩ := h
    obtain ⟨hsame, huses⟩ := updateGrant_uses hfound haccept hupdate
    exact ⟨mid, hrun, hsame, hwho, .inr huses⟩

/-- The grant is accepted before the message and stored after it. -/
theorem run_transfer_ok (h : (Ics20.execute cfg origin caller msg x).run st = .ok u st') :
    ∃ mid, x.run st = .ok u mid ∧ SameButGrants mid st' ∧
      (caller = origin ∨ (mid.grants = st.grants → UsesGrant cfg origin caller msg st st')) := by
  unfold Ics20.execute at h
  split at h
  · exact ⟨st', run_keeper_ok.mp h, refl_of _ st', .inl ‹_›⟩
  · unfold findGrant at h
    simp only [run_bind_ok, get_then, ofOption_then, ensure_then, run_keeper_ok] at h
    obtain ⟨grant, hfound, -, resp, _, hmsg, _, mid, hrun, hupdate⟩ := h
    obtain ⟨haccept, rfl⟩ := run_acceptMsg_ok hmsg
    obtain ⟨hsame, huses⟩ := updateGrant_uses hfound haccept hupdate
    exact ⟨mid, hrun, hsame, .inr huses⟩

/-! ## Authority -/

def Authority (cfg : CallConfig) (granter caller a : Address) (msg : Option Msg)
    (st st' : ChainState SdkState) : Prop :=
  a = caller ∨ a = granter ∧ ∃ m, msg = some m ∧ UsesGrant cfg granter caller m st st'

/-- Only `D` is debited, and with the authority of `a`. -/
def Acts (cfg : CallConfig) (D : Set Address) (granter caller a : Address) (msg : Option Msg)
    (st st' : ChainState SdkState) : Prop :=
  Debits D st st' ∧ Authority cfg granter caller a msg st st'

theorem Authority.of_grant (hwho : caller = a ∨ granter = a)
    (hgrant : caller = granter ∨ UsesGrant cfg granter caller msg st st') :
    Authority cfg granter caller a (some msg) st st' := by
  rcases hwho with rfl | rfl
  · exact .inl rfl
  · exact hgrant.imp Eq.symm fun huses => ⟨rfl, msg, rfl, huses⟩

theorem acts_of_checked (hsame : SameButGrants st mid) (hwho : caller = a ∨ granter = a)
    (hgrant : caller = granter ∨ UsesGrant cfg granter caller msg st mid)
    (hspends : Spends D mid st') : Acts cfg D granter caller a (some msg) st st' := by
  refine ⟨trans_of (Debits D) hsame.debits hspends.toDebits, .of_grant hwho ?_⟩
  unfold UsesGrant
  rw [hspends.grants]
  exact hgrant

theorem acts_of_updated (hspends : Spends D st mid) (hsame : SameButGrants mid st')
    (hwho : caller = a ∨ granter = a) (hgrant : caller = granter ∨
      (mid.grants = st.grants → UsesGrant cfg granter caller msg st st')) :
    Acts cfg D granter caller a (some msg) st st' :=
  ⟨trans_of (Debits D) hspends.toDebits hsame.debits,
    .of_grant hwho (hgrant.imp_right fun huses => huses hspends.grants)⟩

section Methods

variable {β : Type} {b : β}

theorem acts_of_check {expected : Authorization → Bool} {rest : Address → CallM β}
    (hrest : ∀ granter, Relates (Spends D) (rest granter))
    (h : (resolveSender origin caller a >>= fun granter =>
      checkAndAcceptAuthorizationIfNeeded cfg caller expected granter msg >>= fun _ =>
      rest granter).run st = .ok b st') : Acts cfg D origin caller a (some msg) st st' := by
  simp only [run_bind_ok] at h
  obtain ⟨granter, _, hresolve, _, mid, hcheck, hend⟩ := h
  obtain ⟨rfl, rfl, hwho⟩ := run_resolveSender_ok hresolve
  obtain ⟨hsame, hgrant⟩ := consumeGrant_uses hcheck
  exact acts_of_checked hsame hwho hgrant (hrest _ _ _ _ hend)

theorem acts_of_authorize {rest : CallM β} (hrest : Relates (Spends D) rest)
    (h : (Liquid.authorize cfg origin caller a msg >>= fun _ => rest).run st = .ok b st') :
    Acts cfg D origin caller a (some msg) st st' := by
  obtain ⟨_, mid, hcheck, hend⟩ := run_bind_ok.mp h
  obtain ⟨hsame, hwho, hgrant⟩ := run_authorize_ok hcheck
  exact acts_of_checked hsame hwho hgrant (hrest _ _ _ hend)

theorem acts_of_execute {amount : Nat} {result : β} (hx : Relates (Spends D) x)
    (h : (Staking.execute cfg origin caller a msg amount x >>= fun _ => pure result).run st =
      .ok b st') : Acts cfg D origin caller a (some msg) st st' := by
  obtain ⟨_, _, hexecute, hend⟩ := run_bind_ok.mp h
  obtain ⟨-, rfl⟩ := run_pure_ok.mp hend
  obtain ⟨mid, hrun, hsame, hwho, hgrant⟩ := run_execute_ok hexecute
  exact acts_of_updated (hx _ _ _ hrun) hsame hwho hgrant

theorem Acts.of_spender {P : Prop} {m : Option Msg} (h : Acts cfg D granter caller a m st st') :
    Debits D st st' ∧ (P → ∀ b, some a = some b → Authority cfg granter caller b m st st') :=
  ⟨h.1, fun _ _ heq => Option.some.inj heq ▸ h.2⟩

theorem Relates.of_nobody {P : Prop} {Q : Address → Prop} {y : CallM β} (hy : Relates (Spends D) y)
    (h : y.run st = .ok b st') : Debits D st st' ∧ (P → ∀ b, none = some b → Q b) :=
  ⟨(hy _ _ _ h).toDebits, fun _ _ heq => nomatch heq⟩

theorem spends_keeper {x : SdkM α} (h : Relates (Spends D) x) : Relates (Spends D) (keeper x) :=
  fun st a st' hrun => h st a st' (run_keeper_ok.mp hrun)

theorem spends_mirror (addrs : List Address) (h : Relates (Spends D) x) :
    Relates (Spends D) (mirrorBankBaseDeltas origin caller addrs x) :=
  .bind .get fun _ => .bind (spends_keeper h) fun _ => .bind .get fun _ => .pure _

theorem spends_withdrawEntry (addr : Address) (amount : Nat) :
    Relates (Spends D) (Distribution.withdrawEntry origin caller addr amount) :=
  .bind .get fun _ => .pure _

theorem spends_checkOperator (validator : Address) :
    Relates (Spends D) (Staking.checkOperator origin caller validator) :=
  .bind (.ensure _ _) fun _ => .bind (.ensure _ _) fun _ => .ensure _ _

theorem run_checkOperator_ok {validator : Address}
    (h : (Staking.checkOperator origin caller validator).run st = .ok u st') :
    caller = origin ∧ origin = validator := by
  simp only [Staking.checkOperator, run_bind_ok, ensure_then] at h
  exact ⟨h.2.1, (run_ensure_ok.mp h.2.2).1⟩

end Methods

theorem spends_withdrawAll (delegator : Address) (validators : List Address)
    (hmodule : cfg.distributionModule ∈ D) :
    Relates (Spends D) (Distribution.withdrawAll cfg delegator validators) := by
  induction validators with
  | nil => exact .pure _
  | cons validator rest ih =>
    exact .bind (spends_withdrawChecked hmodule _ _) fun _ => .bind ih fun _ => .pure _

variable {entries : List BalanceChangeEntry}

theorem TxCall.acts {call : TxCall} (hmodules : moduleAccounts cfg ⊆ D)
    (hspender : ∀ a, call.spender = some a → a ∈ D ∧ cfg.escrow a ∈ D)
    (h : (call.run cfg origin caller).run st = .ok entries st') :
    Debits D st st' ∧ (¬ (AnyCall.module call).FundsPoolOf origin caller →
      ∀ a, call.spender = some a → Authority cfg origin caller a call.msg st st') := by
  have hboth : ModuleAccounts cfg.toConfig D Set.univ :=
    ⟨⟨hmodules (by simp [moduleAccounts]), trivial⟩, ⟨hmodules (by simp [moduleAccounts]), trivial⟩⟩
  have hstaking : StakingAccounts cfg.toSdkConfig D :=
    ⟨hmodules (by simp [moduleAccounts]), hmodules (by simp [moduleAccounts]),
      hmodules (by simp [moduleAccounts])⟩
  cases call with
  | convertToHaqq sender receiver amount =>
    refine (acts_of_check (fun _ => .bind (spends_keeper (spends_of_transfers ?_)) fun _ =>
      .pure _) h).of_spender
    exact transfers_msgConvertToHaqq _ _ ⟨(hspender _ rfl).2, trivial⟩ hboth
  | transferOwnership owner newOwner =>
    refine (acts_of_check (fun _ => .bind (.ensure _ _) fun _ =>
      .bind (spends_keeper (spends_of_transfers ?_)) fun _ => .pure _) h).of_spender
    exact transfers_msgTransferOwnership ⟨(hspender _ rfl).2, trivial⟩ trivial
  | transferOwnershipWithAmount owner newOwner denoms amounts =>
    rw [TxCall.run, Ucdao.transferOwnershipWithAmount, run_bind_ok, ensure_then] at h
    refine (acts_of_check (fun _ => .bind (.ensure _ _) fun _ =>
      .bind (spends_keeper (spends_of_transfers ?_)) fun _ => .pure _) h.2).of_spender
    exact transfers_msgTransferOwnershipWithAmount _ ⟨(hspender _ rfl).2, trivial⟩ trivial
  | mintHaqq sender receiver amount =>
    refine (acts_of_check (fun _ => spends_mirror _ (spends_of_transfers ?_)) h).of_spender
    exact transfers_msgMintHaqq _ _ ⟨(hspender _ rfl).1, trivial⟩ hboth
  | mintHaqqByApplication sender appId =>
    refine (acts_of_check (fun _ => .bind (.ofOption _ _) fun _ =>
      spends_mirror _ (spends_of_transfers ?_)) h).of_spender
    refine transfers_msgMintHaqqByApplication ⟨?_, trivial⟩ hboth
    unfold applicationPayer
    split
    · split
      · exact (hspender _ rfl).2
      · exact (hspender _ rfl).1
    · exact (hspender _ rfl).1
  | liquidate sender receiver amount =>
    refine (acts_of_authorize (spends_mirror _ (.bind (spends_of_transfers ?_) fun _ =>
      .pure _)) h).of_spender
    exact transfers_msgLiquidate _ _ ⟨(hspender _ rfl).1, trivial⟩ hboth.liquid
  | redeem sender receiver denom amount =>
    refine (acts_of_authorize (spends_mirror _ (spends_of_transfers ?_)) h).of_spender
    exact transfers_msgRedeem _ (hspender _ rfl).1 hboth.liquid trivial
  | createValidator validator value =>
    have hspends : Relates (Spends D) (Staking.createValidator cfg origin caller validator value) :=
      .bind (spends_checkOperator _) fun _ =>
      .bind (spends_keeper (spends_msgCreateValidator _ (hspender _ rfl).1 hstaking)) fun _ =>
      .pure _
    obtain ⟨_, _, hcheck, -⟩ := run_bind_ok.mp h
    obtain ⟨hcaller, horigin⟩ := run_checkOperator_ok hcheck
    exact Acts.of_spender ⟨(hspends _ _ _ h).toDebits, .inl (hcaller.trans horigin).symm⟩
  | editValidator validator =>
    exact Relates.of_nobody (.bind (spends_checkOperator _) fun _ => .bind .get fun _ =>
      .bind (.ensure _ _) fun _ => .pure _) h
  | delegate delegator validator amount =>
    exact (acts_of_execute (spends_msgDelegate _ _ (hspender _ rfl).1 hstaking) h).of_spender
  | undelegate delegator validator amount =>
    exact (acts_of_execute (spends_msgUndelegate _ (hspender _ rfl).1 hstaking _ _) h).of_spender
  | redelegate delegator source target amount =>
    exact (acts_of_execute
      (spends_msgBeginRedelegate _ (hspender _ rfl).1 hstaking _ _) h).of_spender
  | cancelUnbondingDelegation delegator validator amount creationHeight =>
    exact (acts_of_execute
      (spends_msgCancelUnbondingDelegation _ (hspender _ rfl).1 hstaking _ _) h).of_spender
  | claimRewards delegator maxRetrieve =>
    exact Relates.of_nobody (.bind (.ensure _ _) fun _ => .bind (.ensure _ _) fun _ =>
      .bind (.ensure _ _) fun _ => .bind .get fun _ =>
      .bind (spends_keeper (spends_withdrawAll _ _ hstaking.distribution)) fun _ =>
      spends_withdrawEntry _ _) h
  | setWithdrawAddress delegator withdrawAddress =>
    exact Relates.of_nobody (.bind (.ensure _ _) fun _ => .bind (.ensure _ _) fun _ =>
      .bind (spends_keeper (spends_setWithdrawAddr _ _ _)) fun _ => .pure _) h
  | withdrawDelegatorRewards delegator validator =>
    exact Relates.of_nobody (.bind (.ensure _ _) fun _ => .bind (.ensure _ _) fun _ =>
      .bind (spends_keeper (spends_withdrawChecked hstaking.distribution _ _)) fun _ =>
      spends_withdrawEntry _ _) h
  | withdrawValidatorCommission validator =>
    exact Relates.of_nobody (.bind (.ensure _ _) fun _ =>
      .bind (spends_keeper (spends_withdrawValidatorCommission hstaking.distribution _)) fun _ =>
      spends_withdrawEntry _ _) h
  | fundCommunityPool depositor amount =>
    have hspends : Relates (Spends D) (Distribution.fundCommunityPool cfg origin caller depositor
        amount) :=
      .bind (.ensure _ _) fun _ => .bind (.ensure _ _) fun _ =>
      .bind (spends_keeper (spends_fundCommunityPool _ (hspender _ rfl).1)) fun _ => .pure _
    refine ⟨(hspends _ _ _ h).toDebits, fun hcall a hdepositor => ?_⟩
    cases hdepositor
    unfold TxCall.run Distribution.fundCommunityPool Distribution.checkAccount at h
    simp only [run_bind_ok, ensure_then, decide_eq_true_eq] at h
    obtain ⟨-, ⟨hcaller, -⟩ | rfl, -⟩ := h
    · exact .inl hcaller.symm
    · by_contra hnot
      exact hcall ⟨fun hcaller => hnot (.inl hcaller.symm), amount, rfl⟩
  | authorization change =>
    simp only [TxCall.run, run_bind_ok, get_then, runExcept_then, run_modify_ok, run_pure_ok] at h
    obtain ⟨grants, -, _, _, rfl, -, rfl⟩ := h
    exact ⟨SameButGrants.debits ⟨grants, rfl⟩, fun _ _ heq => by cases heq⟩

variable {src sender : Address}

theorem spends_msgSend (dst : Address) (amount : Coins) (hsrc : src ∈ D) :
    Relates (Spends D) (Erc20.msgSend cfg src dst amount) :=
  .bind (.ensure _ _) fun _ => .bind (.ensure _ _) fun _ => spends_sendCoins hsrc

theorem spends_transferTokens (receiver sourcePort sourceChannel : String) (token : Coin)
    (memo : String) (hmodules : moduleAccounts cfg ⊆ D) (hsender : sender ∈ D) :
    Relates (Spends D)
      (Ics20.transferTokens cfg sender receiver sourcePort sourceChannel token memo) := by
  have htransfer : {sender, cfg.ibc.transferModule} ⊆ D :=
    Set.insert_subset hsender (Set.singleton_subset_iff.mpr (hmodules (by simp [moduleAccounts])))
  have hconvert : {sender, cfg.ibc.erc20Module} ⊆ D :=
    Set.insert_subset hsender (Set.singleton_subset_iff.mpr (hmodules (by simp [moduleAccounts])))
  refine .bind (.bind .get fun _ => ?_) fun _ st u st' hrun =>
    (cfg.ibc.transfer_spends _ _ _ _ _ _ st u st' hrun).mono htransfer
  dsimp only
  split
  · exact fun st u st' hrun => (cfg.ibc.convertERC20_spends _ _ _ st u st' hrun).mono hconvert
  · exact .pure _

theorem run_erc20Transfer_ok {denom : Denom} {dst : Address} {amount : Uint256} (hsrc : src ∈ D)
    (h : (Erc20.transfer cfg caller denom src dst amount).run st = .ok entries st') :
    Acts cfg D src caller src (some (.send src dst (Tally.single denom amount.val))) st st' := by
  unfold Erc20.transfer Erc20.send at h
  simp only [run_bind_ok, ensure_then, run_pure_ok] at h
  obtain ⟨-, _, _, hsend, -, rfl⟩ := h
  split at hsend
  · rename_i hcaller
    exact ⟨(spends_msgSend _ _ hsrc _ _ _ (run_keeper_ok.mp hsend)).toDebits, .inl hcaller.symm⟩
  · simp only [findGrant, run_bind_ok, get_then, ofOption_then, ensure_then] at hsend
    obtain ⟨-, -, -, hsend⟩ := hsend
    obtain ⟨mid, hsame, huses, hrun⟩ := dispatchActions_uses hsend
    exact acts_of_checked hsame (.inr rfl) (.inr huses) (spends_msgSend _ _ hsrc _ _ _ hrun)

variable {call : AnyCall}

theorem AnyCall.acts (hmodules : moduleAccounts cfg ⊆ D)
    (hspender : ∀ a, call.spender caller = some a → a ∈ D ∧ cfg.escrow a ∈ D)
    (h : (call.run cfg origin caller).run st = .ok entries st') :
    Debits D st st' ∧ (¬ call.FundsPoolOf origin caller → ∀ a, call.spender caller = some a →
      Authority cfg (call.granter origin) caller a call.msg st st') := by
  cases call with
  | module call => exact TxCall.acts hmodules hspender h
  | erc20Transfer denom dst amount =>
    exact Acts.of_spender ⟨(run_erc20Transfer_ok (hspender _ rfl).1 h).1, .inl rfl⟩
  | erc20TransferFrom denom src dst amount =>
    exact (run_erc20Transfer_ok (hspender _ rfl).1 h).of_spender
  | ics20Transfer sender receiver sourcePort sourceChannel denom amount memo =>
    unfold AnyCall.run Ics20.transfer at h
    simp only [run_bind_ok, ensure_then, run_pure_ok] at h
    obtain ⟨-, -, hwho, _, _, hexecute, -, rfl⟩ := h
    obtain ⟨mid, hrun, hsame, hgrant⟩ := run_transfer_ok hexecute
    have hspends := spends_transferTokens _ _ _ _ _ hmodules (hspender _ rfl).1 _ _ _ hrun
    exact (acts_of_updated hspends hsame hwho hgrant).of_spender

/-- The address belongs to a module, is the account or the escrow of the caller, or that of a
granter whose grant for the message is used. -/
def Permitted (cfg : CallConfig) (granter caller : Address) (msg : Option Msg)
    (st st' : ChainState SdkState) (x : Address) : Prop :=
  x ∈ moduleAccounts cfg ∨ x = caller ∨ x = cfg.escrow caller ∨
    (x = granter ∨ x = cfg.escrow granter) ∧
      ∃ m, msg = some m ∧ UsesGrant cfg granter caller m st st'

/-- A precompile debits the caller, or the granter of a grant to the caller that it uses; payments
of another caller from the origin into the community pool are not covered. -/
theorem debited_permitted (cfg : CallConfig) (origin caller : Address) (call : AnyCall)
    (st st' : ChainState SdkState) (entries : List BalanceChangeEntry)
    (hcall : ¬ call.FundsPoolOf origin caller)
    (hrun : (call.run cfg origin caller).run st = .ok entries st') (x : Address)
    (hx : Debited x st st') : Permitted cfg (call.granter origin) caller call.msg st st' x := by
  obtain ⟨hdebits, hauthority⟩ := AnyCall.acts
    (D := moduleAccounts cfg ∪ {x | ∃ a, call.spender caller = some a ∧ (x = a ∨ x = cfg.escrow a)})
    Set.subset_union_left
    (fun a ha => ⟨.inr ⟨a, ha, .inl rfl⟩, .inr ⟨a, ha, .inr rfl⟩⟩) hrun
  rcases mem_of_debited hdebits hx with hmodule | ⟨a, hspender, hxa⟩
  · exact .inl hmodule
  · rcases hauthority hcall a hspender with rfl | ⟨rfl, huses⟩
    · rcases hxa with rfl | rfl
      · exact .inr (.inl rfl)
      · exact .inr (.inr (.inl rfl))
    · exact .inr (.inr (.inr ⟨hxa, huses⟩))

/-! ## A contract at work -/

def noChannels : TransferKeeper where
  transferModule := 106
  erc20Module := 107
  hasChannel _ _ := false
  channelEscrow _ _ := 108
  tokenPair _ := none
  transfer _ _ _ _ _ _ := throw .notFound
  convertERC20 _ _ _ := throw .notFound
  transfer_spends _ _ _ _ _ _ := .throw _
  convertERC20_spends _ _ _ := .throw _

def callConfig : CallConfig :=
  { sdkConfig with
    height := 1
    maxValidators := 100
    withdrawAddrEnabled := true
    sendEnabled := fun _ => true
    ibc := noChannels }

def allowanceState : ChainState SdkState :=
  ({ sdkGenesis with bank := sdkGenesis.bank.mint 1 (Tally.single .islm 100) }).setGrants
    (GrantStore.empty.put 2 1 (.send (Tally.single .islm 50) []) none)

def spendAllowance : AnyCall := .erc20TransferFrom .islm 1 4 30

def afterCall (origin caller : Address) (call : AnyCall) (st : ChainState SdkState) :
    ChainState SdkState :=
  finalState ((call.run callConfig origin caller).run st)

theorem spendAllowance_permitted :
    Permitted callConfig 1 2 spendAllowance.msg allowanceState
      (afterCall 3 2 spendAllowance allowanceState) 1 := by
  have hcall : ¬ spendAllowance.FundsPoolOf 3 2 := by
    rintro ⟨-, amount, hamount⟩
    cases hamount
  exact debited_permitted callConfig 3 2 spendAllowance allowanceState _ _ hcall rfl 1
    (.inl ⟨.islm, by decide +kernel⟩)

def withoutGrants : ChainState SdkState :=
  { sdkGenesis with bank := sdkGenesis.bank.mint 1 (Tally.single .islm 100) }

def payPool : AnyCall := .module (.fundCommunityPool 1 40)

/-- Account 1 is neither the caller 2 nor the signer 3; and without any grant account 2 pays 40
aISLM of the signer 1 into the community pool. -/
theorem debited_without_grant_of_origin :
    ((spendAllowance.run callConfig 3 2).run allowanceState =
        .ok [⟨1, 30, .sub⟩, ⟨4, 30, .add⟩] (afterCall 3 2 spendAllowance allowanceState) ∧
      Debited 1 allowanceState (afterCall 3 2 spendAllowance allowanceState) ∧
      ¬ Permitted callConfig 3 2 spendAllowance.msg allowanceState
        (afterCall 3 2 spendAllowance allowanceState) 1) ∧
    withoutGrants.grants = .empty ∧
      (payPool.run callConfig 1 2).run withoutGrants =
        .ok [⟨1, 40, .sub⟩] (afterCall 1 2 payPool withoutGrants) ∧
      Debited 1 withoutGrants (afterCall 1 2 payPool withoutGrants) ∧
      ¬ Permitted callConfig 1 2 payPool.msg withoutGrants
        (afterCall 1 2 payPool withoutGrants) 1 := by
  have hmodule : (1 : Address) ∉ moduleAccounts callConfig := by
    simp only [moduleAccounts, Set.mem_insert_iff, Set.mem_singleton_iff, not_or]
    decide +kernel
  refine ⟨⟨rfl, .inl ⟨.islm, by decide +kernel⟩, ?_⟩, rfl, rfl, .inl ⟨.islm, by decide +kernel⟩, ?_⟩
  · rintro (h | h | h | ⟨h | h, -⟩)
    · exact hmodule h
    · exact absurd h (by decide +kernel)
    · exact absurd h (by decide +kernel)
    · exact absurd h (by decide +kernel)
    · exact absurd h (by decide +kernel)
  · rintro (h | h | h | ⟨-, m, hm, -⟩)
    · exact hmodule h
    · exact absurd h (by decide +kernel)
    · exact absurd h (by decide +kernel)
    · cases hm

end Haqq.Precompiles
