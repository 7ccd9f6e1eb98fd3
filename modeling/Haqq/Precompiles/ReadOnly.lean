import Haqq.Evm.Atomicity
import Haqq.Evm.CallBound
import Haqq.Evm.Nonces
import Haqq.Precompiles.Authority
import Haqq.Precompiles.Dispatch
import Mathlib.Logic.Equiv.List
import Mathlib.Tactic.DeriveCountable

/-!
# Read-only calls of the precompiles

`STATICCALL`, `DELEGATECALL` and `CALLCODE` run a precompile in read-only mode, in which `RunSetup`
refuses the methods that `IsTransaction` lists.  The UCDAO precompile does not list its four
authorization methods.

* `pure_of_listed` and `run_ucdaoApproval` are the two directions.
* `readOnly_pure_iff`: which methods leave the state alone.
-/

namespace Haqq.Precompiles

open Lib Authz Evm StateDB

/-! ## The cache context after a call -/

section Cache

variable {M : Type} {env : Env}

def flushed (env : Env) (s : StateDB M) : Store M :=
  finalState ((s.commitWithCtx env).run s.cacheStore)

theorem fixes_commitWithCtx_modules (s : StateDB M) :
    Fixes (Store.modules (M := M)) (s.commitWithCtx env) :=
  fixes_commitWithCtx fun _ o _ => fixes_commitObject (fun _ _ => rfl) (fun _ _ => rfl)
    fun _ st => ⟨(writeCode_fields o st).2.2.2, rfl⟩

variable {p : Precompile M} {origin : Address} {contract : Contract} {readOnly : Bool}
  {method : Method M} {s s' : StateDB M} {err : Option PrecompileError} {cms : Store M}

theorem addJournalEntries_cacheStore (env : Env) (p : Precompile M)
    (entries : List BalanceChangeEntry) (logs : List LogEntry) (cms st : Store M)
    (s : StateDB M) :
    (p.addJournalEntries env entries cms
      (Precompile.addLogs (withCache s st) logs)).1.cacheStore = st := by
  rw [addJournalEntries_eq]
  rfl

theorem runAtomic_cases (h : p.runAtomic env origin contract method cms s = some (s', err)) :
    (err ≠ none ∧ s'.cacheStore = cms) ∨
      ∃ st logs entries, err = none ∧ s'.cacheStore = st ∧
        method.run origin contract.caller contract.input s.cacheStore =
          .ok st logs entries true := by
  unfold Precompile.runAtomic at h
  split at h
  · cases h
  · cases h
    exact .inl ⟨nofun, rfl⟩
  · cases h
    exact .inl ⟨nofun, rfl⟩
  · rename_i st logs entries gasLeft hrun
    cases gasLeft with
    | false =>
      cases h
      exact .inl ⟨nofun, rfl⟩
    | true =>
      have hcache := addJournalEntries_cacheStore env p entries logs cms st s
      unfold withCache at hcache
      simp only [if_true] at h
      split at h
      · rename_i s₁ hpair
        cases h
        rw [hpair] at hcache
        exact .inr ⟨st, logs, entries, rfl, hcache, hrun⟩
      · cases h
        exact .inl ⟨nofun, rfl⟩

theorem runSetup_flushed {result : Except PrecompileError (Method M)}
    (h : p.runSetup env contract readOnly s = some (s', result)) :
    (s'.cacheStore = s.cacheStore ∨ s'.cacheStore = flushed env s) ∧
      ∀ method, result = .ok method → s'.cacheStore = flushed env s ∧
        p.selectMethod contract = some (.ok method) ∧
          (readOnly && method.isTransaction) = false := by
  unfold flushed
  obtain ⟨_, st, hrun, rfl, rfl⟩ | ⟨st, hrun, hcases⟩ := Precompile.runSetup_cases h
  · rw [hrun]
    exact ⟨.inr rfl, nofun⟩
  · rw [hrun]
    obtain ⟨_, rfl, rfl⟩ | ⟨-, rfl, rfl⟩ | ⟨method, hselected, hlisted, -, rfl, rfl⟩ := hcases
    · exact ⟨.inr rfl, nofun⟩
    · exact ⟨.inl rfl, nofun⟩
    · refine ⟨.inr rfl, fun method' hmethod' => ?_⟩
      cases hmethod'
      exact ⟨rfl, hselected, hlisted⟩

theorem run_cases (h : p.run env origin contract readOnly s = some (s', err)) :
    (s'.cacheStore = s.cacheStore ∨ s'.cacheStore = flushed env s) ∨
      ∃ method st logs entries, p.selectMethod contract = some (.ok method) ∧
        (readOnly && method.isTransaction) = false ∧ s'.cacheStore = st ∧
          method.run origin contract.caller contract.input (flushed env s) =
            .ok st logs entries true := by
  unfold Precompile.run at h
  split at h
  · cases h
  · rename_i hsetup
    cases h
    exact .inl (runSetup_flushed hsetup).1
  · rename_i s₁ method hsetup
    obtain ⟨hflushed, hselected, hlisted⟩ := (runSetup_flushed hsetup).2 method rfl
    rcases runAtomic_cases h with ⟨-, hcms⟩ | ⟨st, logs, entries, -, hst, hmethod⟩
    · exact .inl (.inl hcms)
    · rw [hflushed] at hmethod
      exact .inr ⟨method, st, logs, entries, hselected, hlisted, hst, hmethod⟩

end Cache

/-- Nothing but the pending changes of the EVM is written to the cache context, and the stores of
the modules are the same after the final `Commit`. -/
structure Pure (env : Env) (s s' : StateDB (Modules SdkState)) : Prop where
  cache : s'.cacheStore = s.cacheStore ∨ s'.cacheStore = flushed env s
  modules : (finalState (s'.commit env)).modules = s.cacheStore.modules

theorem Pure.of_cache {env : Env} {s s' : StateDB (Modules SdkState)}
    (h : s'.cacheStore = s.cacheStore ∨ s'.cacheStore = flushed env s) : Pure env s s' := by
  refine ⟨h, (fixes_commitWithCtx_modules s' s'.cacheStore).trans ?_⟩
  rcases h with h | h
  · rw [h]
  · rw [h]
    exact fixes_commitWithCtx_modules s s.cacheStore

/-! ## Methods that only read -/

section Reads

variable (cfg : CallConfig)

theorem relates_allowance (spendLimit : Authorization → Except QueryError (Option Coin))
    (grantee granter : Address) (url : MsgURL) :
    Relates Eq (allowance cfg spendLimit grantee granter url) := by
  refine .bind (.ensure _ _) fun _ => ?_
  refine .bind (.ensure _ _) fun _ => ?_
  refine .bind (.ensure _ _) fun _ => ?_
  refine .bind .get fun st => ?_
  split
  · exact .pure _
  · refine .bind (.runExcept _) fun _ => ?_
    exact .pure _

theorem relates_estimate (islmAmount haqqAmount : Nat) (receiver : Option Address) :
    Relates Eq (Ethiq.estimate islmAmount haqqAmount receiver) := by
  refine .bind .get fun _ => ?_
  exact .pure _

theorem relates_calculate (islmAmount : Uint256) :
    Relates Eq (Ethiq.calculate cfg islmAmount) := by
  refine .bind (.ensure _ _) fun _ => ?_
  have hcalculate : Relates Eq
      (Haqq.Ethiq.calculateHaqqCoinsToMint cfg.toConfig islmAmount.val) := by
    refine .bind .get fun st => ?_
    refine .bind (.ensure _ _) fun _ => ?_
    refine .bind (.ensure _ _) fun _ => ?_
    refine .bind (.ofOption _ _) fun _ => ?_
    refine .bind (.ensure _ _) fun _ => ?_
    exact .runExcept _
  refine .bind (fun st a st' h => hcalculate st a st' (run_adaptExcept_ok.mp h))
    fun haqqAmount => ?_
  exact relates_estimate _ _ _

theorem relates_calculateForApplication (appId : Uint256) :
    Relates Eq (Ethiq.calculateForApplication cfg appId) := by
  refine .bind (.ofOption _ _) fun application => ?_
  refine .bind (.runExcept _) fun haqqAmount => ?_
  exact relates_estimate _ _ _

theorem relates_erc20Allowance (denom : Denom) (owner spender : Address) :
    Relates Eq (Erc20.allowance cfg denom owner spender) := by
  unfold Erc20.allowance
  split
  · exact .pure _
  · refine .bind .get fun st => ?_
    split
    · exact .pure _
    · exact .pure _

theorem Query.relates (ext : Externals) (query : Query) :
    Relates Eq (query.run cfg ext) := by
  cases query with
  | ucdaoAllowance grantee granter url => exact relates_allowance cfg _ _ _ _
  | ethiqAllowance grantee granter url => exact relates_allowance cfg _ _ _ _
  | stakingAllowance grantee granter url => exact relates_allowance cfg _ _ _ _
  | erc20Allowance denom owner spender => exact relates_erc20Allowance cfg denom owner spender
  | calculate islmAmount => exact relates_calculate cfg islmAmount
  | calculateForApplication appId => exact relates_calculateForApplication cfg appId
  | totalSupply denom =>
    refine .bind .get fun _ => ?_
    exact .pure _
  | balanceOf denom account =>
    refine .bind .get fun _ => ?_
    exact .pure _
  | sdk p m h args =>
    refine .bind .get fun _ => ?_
    exact .runExcept _

variable {p : PrecompileName} {m : MethodName}

theorem isTransaction_of_approval (h : m ∈ p.approvals) : p.isTransaction m = true := by
  cases p <;> simp only [PrecompileName.approvals, List.mem_cons, List.not_mem_nil, or_false] at h
  case ethiq => rcases h with rfl | rfl | rfl | rfl | rfl | rfl <;> rfl
  case staking => rcases h with rfl | rfl | rfl | rfl <;> rfl
  case erc20 => rcases h with rfl | rfl | rfl <;> rfl

theorem TxCall.isTransaction_name {call : TxCall} (h : call.name = some (p, m)) :
    p.isTransaction m = true := by
  cases call <;> cases h <;> rfl

theorem AnyCall.isTransaction_name {call : AnyCall} (h : call.name = some (p, m)) :
    p.isTransaction m = true := by
  cases call with
  | module call => exact TxCall.isTransaction_name h
  | erc20Transfer denom dst amount =>
    cases h
    rfl
  | erc20TransferFrom denom src dst amount =>
    cases h
    rfl
  | ics20Transfer => cases h

def unlistedApprovals : List MethodName :=
  [.approve, .revoke, .increaseAllowance, .decreaseAllowance]

theorem Ucdao.ApprovalCall.name_mem (call : ApprovalCall) : call.name ∈ unlistedApprovals := by
  cases call <;> simp [name, unlistedApprovals]

theorem Call.run_ok_unlisted {ext : Externals} {call : Call p m} {gas : Gas}
    {logs logs' : List LogEntry} {origin caller : Address} {st st' : ChainState SdkState}
    {entries : List BalanceChangeEntry} {gasLeft : Bool} (hm : p.isTransaction m = false)
    (hucdao : p = .ucdao → m ∉ unlistedApprovals)
    (h : call.run cfg ext gas logs origin caller st = .ok st' logs' entries gasLeft) :
    st' = st := by
  cases gas with
  | outOfGas store => cases h
  | used left =>
    cases call with
    | ucdaoApproval call hcall =>
      obtain ⟨rfl, rfl⟩ := hcall
      exact absurd call.name_mem (hucdao rfl)
    | approval hmem args => simp [isTransaction_of_approval hmem] at hm
    | transaction call hcall => simp [AnyCall.isTransaction_name hcall] at hm
    | query request hrequest =>
      simp only [Call.run] at h
      unfold nativeResult at h
      split at h
      · rename_i answer st₁ hrun
        cases h
        exact (Query.relates cfg ext request st answer _ hrun).symm
      · split at h <;> cases h

end Reads

/-! ## Calls of the precompiles -/

section Calls

variable {cfg : CallConfig} {ext : Externals} {abi : Abi} {gas : Gas} {logs : List LogEntry}
  {p : PrecompileName} {origin : Address} {contract : Contract}

theorem selectMethod_ok {found : Method (Modules SdkState)}
    (h : (precompile cfg ext abi gas logs p).selectMethod contract = some (.ok found)) :
    ∃ m, selected abi p contract = some m ∧ found = method cfg ext abi gas logs p m := by
  obtain hreceive | hfallback | ⟨hlong, hfound⟩ := Precompile.selectMethod_ok h
  · cases hreceive
  · cases hfallback
  · obtain ⟨m, hm, rfl⟩ := Option.map_eq_some_iff.mp hfound
    exact ⟨m, by rw [selected, if_neg hlong, hm], rfl⟩

theorem pure_of_listed {s s' : StateDB (Modules SdkState)} {err : Option PrecompileError}
    (hselected : p = .ucdao → ∀ m ∈ selected abi p contract, m ∉ unlistedApprovals)
    (h : (precompile cfg ext abi gas logs p).run cfg.toEnv origin contract true s =
      some (s', err)) : Pure cfg.toEnv s s' := by
  rcases run_cases h with hcache | ⟨found, st, logs', entries, hfound, hlisted, hst, hmethod⟩
  · exact .of_cache hcache
  · obtain ⟨m, hm, rfl⟩ := selectMethod_ok hfound
    apply Pure.of_cache
    right
    simp only [method] at hmethod
    split at hmethod
    · exact hst.trans (Call.run_ok_unlisted cfg hlisted (fun hp => hselected hp m hm) hmethod)
    · cases hmethod

theorem commitWithCtx_new (env : Env) (st : ChainState SdkState) :
    ((StateDB.new st).commitWithCtx env).run st = .ok () st := rfl

theorem run_ucdaoApproval (cfg : CallConfig) (ext : Externals) (abi : Abi)
    {call : Ucdao.ApprovalCall} (caller : Address) (st : ChainState SdkState) {grants : GrantStore}
    (hperform : call.perform cfg.blockTime origin st.grants = .ok grants) :
    ∃ contract s', contract.caller = caller ∧ selected abi .ucdao contract = some call.name ∧
      (precompile cfg ext abi (.used true) [] .ucdao).run cfg.toEnv origin contract true
        (StateDB.new st) = some (s', none) ∧
      s'.cacheStore = st.setGrants grants := by
  obtain ⟨selector, args, hlength, hid, hunpack⟩ := abi.encodes call
  let contract : Contract := ⟨caller, selector ++ args, some 0, true⟩
  have htake : contract.input.take 4 = selector := by simp [contract, ← hlength]
  have hdrop : contract.input.drop 4 = args := by simp [contract, ← hlength]
  have hlong : ¬ contract.input.length < 4 := by simp [contract, hlength]
  have hselect : (precompile cfg ext abi (.used true) [] .ucdao).selectMethod contract =
      some (.ok (method cfg ext abi (.used true) [] .ucdao call.name)) := by
    have hne : ¬ contract.input.length = 0 := by omega
    simp [Precompile.selectMethod, Precompile.standardCallData, precompile, hne, hlong, htake, hid]
  have hunlisted : PrecompileName.isTransaction .ucdao call.name = false := by
    cases call <;> rfl
  have hmethod : (method cfg ext abi (.used true) [] .ucdao call.name).run origin caller
      contract.input st = .ok (st.setGrants grants) [] [] true := by
    have hrun : ((TxCall.authorization fun grants => call.perform cfg.blockTime origin grants).run
        cfg origin caller).run st = .ok [] (st.setGrants grants) := by
      simp only [TxCall.run, EStateM.run_bind, EStateM.run_get, hperform]
      rfl
    simp only [method, hdrop, hunpack, Call.run, hrun]
    rfl
  have hsetup : (precompile cfg ext abi (.used true) [] .ucdao).runSetup cfg.toEnv contract true
      (StateDB.new st) = some (withCache (StateDB.new st) st,
        .ok (method cfg ext abi (.used true) [] .ucdao call.name)) := by
    rw [runSetup_of_ok (commitWithCtx_new cfg.toEnv st), hselect]
    simp [Except.bind, Precompile.checkMethod, method, hunlisted, hdrop, hunpack, contract]
  have hcompletes := (runAtomic_counter cfg.toEnv (precompile cfg ext abi (.used true) [] .ucdao)
    origin contract (method cfg ext abi (.used true) [] .ucdao call.name) st
    (withCache (StateDB.new st) st)).2
  have hcounter : (0 : UInt8) + 1 ≤ maxPrecompileCalls := by decide
  obtain ⟨s', hs'⟩ := hcompletes.mpr ⟨by
    rw [withCache_cacheStore, show contract.caller = caller from rfl, hmethod]
    rfl, hcounter⟩
  refine ⟨contract, s', rfl, ?_, ?_, ?_⟩
  · rw [selected, if_neg hlong, htake, hid]
  · unfold Precompile.run
    rw [hsetup]
    exact hs'
  · rcases runAtomic_cases hs' with ⟨herr, -⟩ | ⟨st', logs', entries, -, hst', hrun⟩
    · exact absurd rfl herr
    · rw [withCache_cacheStore, show contract.caller = caller from rfl, hmethod] at hrun
      cases hrun
      exact hst'

end Calls

/-! ## The unlisted approvals -/

def fiveGranted : GrantStore := GrantStore.empty.put 3 2 (.convertToHaqq (some ⟨.islm, 5⟩)) none

theorem exists_perform_ne (now : Int) {m : MethodName} (hm : m ∈ unlistedApprovals) :
    ∃ (call : Ucdao.ApprovalCall) (grants grants' : GrantStore), call.name = m ∧
      call.perform now 2 grants = .ok grants' ∧ grants' ≠ grants := by
  have hfuture : ¬ now + Ucdao.approvalExpiration ≤ now := by
    unfold Ucdao.approvalExpiration
    omega
  have hne : ∀ {grants grants' : GrantStore},
      grants'.grant ⟨3, 2, .convertToHaqq⟩ ≠ grants.grant ⟨3, 2, .convertToHaqq⟩ →
        grants' ≠ grants := by
    rintro grants _ h rfl
    exact h rfl
  simp only [unlistedApprovals, List.mem_cons, List.not_mem_nil, or_false] at hm
  rcases hm with rfl | rfl | rfl | rfl
  · refine ⟨.approve 3 5 [.convertToHaqq], .empty,
      GrantStore.empty.put 3 2 (.convertToHaqq (some ⟨.islm, 5⟩))
        (some (now + Ucdao.approvalExpiration)), rfl, ?_, hne ?_⟩
    · show Ucdao.forTypeURLs "ucdao" (Ucdao.grantOrDeleteAuthz now 3 2 (some ⟨.islm, 5⟩))
        [.convertToHaqq] .empty = _
      rw [Ucdao.forTypeURLs_singleton (.inl rfl)]
      apply except_mapError_ok.mpr
      exact GrantStore.saveGrant_ok.mpr ⟨decide_eq_false hfuture, rfl⟩
    · simp [GrantStore.put_grant, GrantStore.empty, Authorization.msgTypeURL]
  · exact ⟨.revoke 3 [.convertToHaqq], fiveGranted, fiveGranted.erase ⟨3, 2, .convertToHaqq⟩, rfl,
      rfl, hne (by decide +kernel)⟩
  · exact ⟨.increaseAllowance 3 1 [.convertToHaqq], fiveGranted,
      fiveGranted.put 3 2 (.convertToHaqq (some ⟨.islm, 6⟩)) none, rfl, rfl,
      hne (by decide +kernel)⟩
  · exact ⟨.decreaseAllowance 3 1 [.convertToHaqq], fiveGranted,
      fiveGranted.put 3 2 (.convertToHaqq (some ⟨.islm, 4⟩)) none, rfl, rfl,
      hne (by decide +kernel)⟩

/-- Read-only calls are pure exactly if they do not select one of the authorization methods of
the UCDAO precompile. -/
theorem readOnly_pure_iff (cfg : CallConfig) (ext : Externals) (abi : Abi) (p : PrecompileName)
    (o : Option MethodName) :
    (∀ (gas : Gas) (logs : List LogEntry) (origin : Address) (contract : Contract)
        (s s' : StateDB (Modules SdkState)) (err : Option PrecompileError),
      selected abi p contract = o →
      (precompile cfg ext abi gas logs p).run cfg.toEnv origin contract true s = some (s', err) →
        Pure cfg.toEnv s s') ↔
      ¬ (p = .ucdao ∧ ∃ m ∈ o, m ∈ unlistedApprovals) := by
  constructor
  · rintro hpure ⟨rfl, m, rfl, hm⟩
    obtain ⟨call, grants, grants', rfl, hperform, hne⟩ := exists_perform_ne cfg.blockTime hm
    obtain ⟨contract, s', -, hselected, hrun, hcache⟩ :=
      run_ucdaoApproval cfg ext abi 3 (sdkGenesis.setGrants grants) hperform
    have hmodules := (hpure _ _ _ contract _ s' none hselected hrun).modules
    have hcommit : (finalState (s'.commit cfg.toEnv)).modules =
        ((sdkGenesis.setGrants grants).setGrants grants').modules := by
      rw [← hcache]
      exact fixes_commitWithCtx_modules s' s'.cacheStore
    apply hne
    exact congrArg (fun modules => modules.rest.grants) (hcommit.symm.trans hmodules)
  · rintro hunlisted gas logs origin contract s s' err rfl hrun
    apply pure_of_listed _ hrun
    intro hp m hm hmem
    exact hunlisted ⟨hp, m, hm, hmem⟩

/-! ## A static call that grants -/

instance countableChar : Countable Char :=
  Function.Injective.countable (f := Char.toNat) fun _ _ => Char.toNat_inj.mp

instance countableString : Countable String :=
  Function.Injective.countable (f := String.toList) fun _ _ => String.toList_inj.mp

deriving instance Countable for MsgURL

deriving instance Countable for Ucdao.ApprovalCall

noncomputable def approvalCode : Ucdao.ApprovalCall → Nat :=
  (exists_injective_nat Ucdao.ApprovalCall).choose

theorem approvalCode_injective : Function.Injective approvalCode :=
  (exists_injective_nat Ucdao.ApprovalCall).choose_spec

def approvalSelectors : List (Bytes × MethodName) :=
  [([0, 0, 0, 1], .approve), ([0, 0, 0, 2], .revoke), ([0, 0, 0, 3], .increaseAllowance),
    ([0, 0, 0, 4], .decreaseAllowance)]

open Classical in
noncomputable def unaryAbi : Abi where
  address _ := 0x901
  methodById p selector := if p = .ucdao then approvalSelectors.lookup selector else none
  unpack p m args :=
    if h : ∃ call : Ucdao.ApprovalCall, (p = .ucdao ∧ call.name = m) ∧
        approvalCode call = args.length then
      some (.ucdaoApproval h.choose h.choose_spec.1)
    else none
  encodes call := by
    have hselector : ∃ selector : Bytes, selector.length = 4 ∧
        approvalSelectors.lookup selector = some call.name := by
      cases call with
      | approve => exact ⟨[0, 0, 0, 1], rfl, rfl⟩
      | revoke => exact ⟨[0, 0, 0, 2], rfl, rfl⟩
      | increaseAllowance => exact ⟨[0, 0, 0, 3], rfl, rfl⟩
      | decreaseAllowance => exact ⟨[0, 0, 0, 4], rfl, rfl⟩
    obtain ⟨selector, hlength, hlookup⟩ := hselector
    have hcall : ∃ call' : Ucdao.ApprovalCall, (PrecompileName.ucdao = .ucdao ∧
        call'.name = call.name) ∧ approvalCode call' =
          (List.replicate (approvalCode call) (0 : UInt8)).length :=
      ⟨call, ⟨rfl, rfl⟩, by simp⟩
    refine ⟨selector, List.replicate (approvalCode call) 0, hlength, by simp [hlookup], ?_⟩
    rw [dif_pos hcall, Option.some.injEq, Call.ucdaoApproval.injEq]
    exact approvalCode_injective (hcall.choose_spec.2.trans List.length_replicate)

def noExternals : Externals where
  approval _ _ _ _ _ := throw .unknownAuthorizationType
  querier _ _ _ _ := .error .querier

/-- A contract calls `approve` of the UCDAO precompile by `STATICCALL`, and after the final `Commit`
it may convert 5 aISLM of the signer. -/
theorem static_approve_grants : ∃ (contract : Contract) (s' : StateDB (Modules SdkState)),
    contract.caller = 3 ∧ selected unaryAbi .ucdao contract = some .approve ∧
      (precompile callConfig noExternals unaryAbi (.used true) [] .ucdao).run callConfig.toEnv 2
        contract true (StateDB.new sdkGenesis) = some (s', none) ∧
      sdkGenesis.grants.grant ⟨3, 2, .convertToHaqq⟩ = none ∧
      (finalState (s'.commit callConfig.toEnv)).grants.grant ⟨3, 2, .convertToHaqq⟩ =
        some ⟨.convertToHaqq (some ⟨.islm, 5⟩), some Ucdao.approvalExpiration⟩ := by
  have hperform : (Ucdao.ApprovalCall.approve 3 5 [.convertToHaqq]).perform callConfig.blockTime 2
      sdkGenesis.grants = .ok (GrantStore.empty.put 3 2 (.convertToHaqq (some ⟨.islm, 5⟩))
        (some Ucdao.approvalExpiration)) := rfl
  obtain ⟨contract, s', hcaller, hselected, hrun, hcache⟩ :=
    run_ucdaoApproval callConfig noExternals unaryAbi 3 sdkGenesis hperform
  refine ⟨contract, s', hcaller, hselected, hrun, rfl, ?_⟩
  rw [Store.grants, StateDB.commit, fixes_commitWithCtx_modules s' s'.cacheStore, hcache]
  rfl

end Haqq.Precompiles
