import Haqq.Ethiq.Effects
import Haqq.Ethiq.Waitlist
import Haqq.Precompiles.Authority
import Haqq.Precompiles.Dispatch

/-!
# Applications by their id

Three methods of the `ethiq` precompile (`precompiles/ethiq/types.go` and `approve.go`) take the id
of an application as a 256-bit integer, keep its low 64 bits and drop the rest without a check.

`calls_concern_iff`: for which ids every call concerns the application with that id, or fails.
-/

namespace Haqq.Precompiles.Ethiq

open Lib Authz Evm

inductive ApprovalError
  /-- `ErrInvalidMsgType` for "ethiq". -/
  | invalidMsgType (url : MsgURL)
  /-- "expected: *ethiqtypes.MintHaqqByApplicationIDAuthorization, received: %T" -/
  | unknownAuthorizationType
  | invalidApplicationID
  | authz (err : AuthzError)

section Approvals

variable (cfg : CallConfig) (now : Int) (origin grantee : Address)

def isApplicationExists (appID : Nat) : Bool := decide (appID < cfg.applications.length)

def mergeApplicationID (appID : Nat) (grants : GrantStore) : Except ApprovalError (List Nat) :=
  match grants.getAuthorization now ⟨grantee, origin, .mintHaqqByApplication⟩ with
  | none => .ok [appID]
  | some ⟨.mintHaqqByApplicationID applicationsList, _⟩ =>
    .ok (if appID ∈ applicationsList then applicationsList else applicationsList ++ [appID])
  | some _ => .error .unknownAuthorizationType

def approveApplicationID (appId : Uint256) (methods : List MsgURL) (grants : GrantStore) :
    Except ApprovalError GrantStore :=
  match methods.find? (· ≠ .mintHaqqByApplication) with
  | some url => .error (.invalidMsgType url)
  | none =>
    match mergeApplicationID now origin grantee (applicationID appId) grants with
    | .error err => .error err
    | .ok appIDs =>
      if appIDs.all (isApplicationExists cfg) then
        (grants.saveGrant now grantee origin (.mintHaqqByApplicationID appIDs)
          (some (now + Ucdao.approvalExpiration))).mapError .authz
      else .error .invalidApplicationID

end Approvals

/-! ## What a call is about -/

section Concerns

variable (cfg : CallConfig)

/-- The application of the sender is executed and its amount burned. -/
def MintsFor (id : Nat) (sender : Address) (st st' : ChainState SdkState) : Prop :=
  ∃ application, cfg.applications[id]? = some application ∧ application.fromAddress = sender ∧
    st'.modules.ethiq = { st.modules.ethiq.addBurned application.burnAmount true with
      executed := insert id st.modules.ethiq.executed }

def EstimatesFor (id : Nat) (st : ChainState SdkState) (answer : Answer) : Prop :=
  ∃ application haqqAmount averagePrice, cfg.applications[id]? = some application ∧
    Haqq.Ethiq.calculateHaqqAmount cfg.prices application.burnedBeforeAmount
      application.burnAmount = .ok haqqAmount ∧
    answer = .estimate haqqAmount (st.bank.supply.get .haqq)
      (st.bank.supply.get .haqq + haqqAmount) averagePrice (some application.toAddress)

def granted (now : Int) (origin grantee : Address) (grants : GrantStore) : List Nat :=
  match grants.getAuthorization now ⟨grantee, origin, .mintHaqqByApplication⟩ with
  | some ⟨.mintHaqqByApplicationID applicationsList, _⟩ => applicationsList
  | _ => []

/-- The grantee may execute the application, and those that it could execute before. -/
def GrantsFor (id : Nat) (now : Int) (origin grantee : Address) (grants grants' : GrantStore) :
    Prop :=
  id < cfg.applications.length ∧ ∀ appID, appID ∈ granted now origin grantee grants' ↔
    appID = id ∨ appID ∈ granted now origin grantee grants

inductive ApplicationCall
  | mint (origin caller sender : Address) (st : ChainState SdkState)
  | calculate (st : ChainState SdkState)
  | approve (now : Int) (origin grantee : Address) (methods : List MsgURL) (grants : GrantStore)

namespace ApplicationCall

variable (appId : Uint256)

def Succeeds : ApplicationCall → Prop
  | mint origin caller sender st => ∃ changes st',
      (mintHaqqByApplication cfg origin caller sender appId).run st = .ok changes st'
  | calculate st => ∃ answer st', (calculateForApplication cfg appId).run st = .ok answer st'
  | approve now origin grantee methods grants => ∃ grants',
      approveApplicationID cfg now origin grantee appId methods grants = .ok grants'

/-- The call fails, or concerns the application with the id `id`. -/
def Concerns (id : Nat) : ApplicationCall → Prop
  | mint origin caller sender st => ∀ changes st',
      (mintHaqqByApplication cfg origin caller sender appId).run st = .ok changes st' →
        MintsFor cfg id sender st st'
  | calculate st => ∀ answer st', (calculateForApplication cfg appId).run st = .ok answer st' →
      EstimatesFor cfg id st answer
  | approve now origin grantee methods grants => ∀ grants',
      approveApplicationID cfg now origin grantee appId methods grants = .ok grants' →
        GrantsFor cfg id now origin grantee grants grants'

end ApplicationCall

end Concerns

/-! ## The id that is left -/

variable {cfg : CallConfig} {appId : Uint256}

variable {st st' : ChainState SdkState}

theorem mintsFor_of_run {origin caller sender : Address} {changes : List BalanceChangeEntry}
    (h : (mintHaqqByApplication cfg origin caller sender appId).run st = .ok changes st') :
    MintsFor cfg (applicationID appId) sender st st' := by
  unfold mintHaqqByApplication at h
  simp only [run_bind_ok, ofOption_then, mirrorBankBaseDeltas, get_then, run_keeper_ok,
    Haqq.Ethiq.Msg.handle, run_pure_ok] at h
  obtain ⟨granter, _, hresolve, _, checked, hcheck, h⟩ := h
  obtain ⟨rfl, -, -⟩ := run_resolveSender_ok hresolve
  obtain ⟨⟨grants, rfl⟩, -⟩ := consumeGrant_uses hcheck
  obtain ⟨application, happlication, _, _, h, hend⟩ := h
  obtain ⟨⟨haqqAmount, toAddress⟩, _, hrun, _, rfl⟩ := h
  obtain ⟨-, rfl⟩ := hend
  obtain ⟨_, hfound, -, -, hfrom, -, -, redeemed, mid, heffect, rfl⟩ :=
    Haqq.Ethiq.burnIslmForHaqqByApplicationID_effect hrun
  cases happlication.symm.trans hfound
  refine ⟨application, happlication, hfrom, ?_⟩
  have hmid : mid.modules.ethiq = st.modules.ethiq.addBurned application.burnAmount true := by
    rw [heffect.modules]
    exact congrArg (·.addBurned application.burnAmount true)
      (Haqq.Ethiq.redeemed_ethiq heffect.redeem).1
  exact congrArg (fun ethiq : Haqq.Ethiq.State =>
    { ethiq with executed := insert (applicationID appId) ethiq.executed }) hmid

theorem estimatesFor_of_run {answer : Answer}
    (h : (calculateForApplication cfg appId).run st = .ok answer st') :
    EstimatesFor cfg (applicationID appId) st answer := by
  unfold calculateForApplication estimate at h
  simp only [run_bind_ok, ofOption_then, runExcept_then, get_then, run_pure_ok] at h
  obtain ⟨application, happlication, haqqAmount, hamount, h⟩ := h
  obtain ⟨rfl, rfl⟩ := h
  exact ⟨application, haqqAmount, _, happlication, except_mapError_ok.mp hamount, rfl⟩

variable {id : Nat} {grants : GrantStore} {appIDs : List Nat}

theorem mem_of_mergeApplicationID {now : Int} {origin grantee : Address}
    (h : mergeApplicationID now origin grantee id grants = .ok appIDs) (appID : Nat) :
    appID ∈ appIDs ↔ appID = id ∨ appID ∈ granted now origin grantee grants := by
  unfold mergeApplicationID at h
  unfold granted
  split at h
  · rename_i hnone
    cases h
    rw [hnone]
    simp
  · rename_i applicationsList _ hsome
    cases h
    rw [hsome]
    split
    · rename_i hmem
      exact ⟨.inr, fun h => h.elim (fun heq => heq ▸ hmem) fun hold => hold⟩
    · rw [List.mem_append, List.mem_singleton, or_comm]
  · cases h

theorem granted_put {now : Int} {origin grantee : Address} {expiration : Int}
    (h : now ≤ expiration) :
    granted now origin grantee (grants.put grantee origin (.mintHaqqByApplicationID appIDs)
      (some expiration)) = appIDs := by
  have hget : (grants.put grantee origin (.mintHaqqByApplicationID appIDs)
      (some expiration)).getAuthorization now ⟨grantee, origin, .mintHaqqByApplication⟩ =
      some ⟨.mintHaqqByApplicationID appIDs, some expiration⟩ := by
    rw [GrantStore.getAuthorization_some, GrantStore.put_grant]
    exact ⟨if_pos rfl, by simpa [Grant.expired] using h⟩
  rw [granted, hget]

theorem grantsFor_of_approve {now : Int} {origin grantee : Address} {methods : List MsgURL}
    {grants' : GrantStore}
    (h : approveApplicationID cfg now origin grantee appId methods grants = .ok grants') :
    GrantsFor cfg (applicationID appId) now origin grantee grants grants' := by
  unfold approveApplicationID at h
  split at h
  · cases h
  · split at h
    · cases h
    · rename_i appIDs hmerge
      split at h
      · rename_i hexist
        rw [except_mapError_ok, GrantStore.saveGrant_ok] at h
        obtain ⟨-, rfl⟩ := h
        have hmem := mem_of_mergeApplicationID hmerge
        refine ⟨?_, fun appID => ?_⟩
        · exact of_decide_eq_true (List.all_eq_true.mp hexist _ ((hmem _).mpr (.inl rfl)))
        · rw [granted_put (by unfold Ucdao.approvalExpiration; omega)]
          exact hmem appID
      · cases h

theorem ApplicationCall.concerns_applicationID (call : ApplicationCall) :
    call.Concerns cfg appId (applicationID appId) := by
  cases call with
  | mint origin caller sender st => exact fun _ _ h => mintsFor_of_run h
  | calculate st => exact fun _ _ h => estimatesFor_of_run h
  | approve now origin grantee methods grants => exact fun _ h => grantsFor_of_approve h

variable {call : ApplicationCall}

theorem ApplicationCall.Concerns.lt_length (h : call.Concerns cfg appId id)
    (hsucceeds : call.Succeeds cfg appId) : id < cfg.applications.length := by
  cases call with
  | mint origin caller sender st =>
    obtain ⟨changes, st', hrun⟩ := hsucceeds
    obtain ⟨application, happlication, -⟩ := h changes st' hrun
    exact (List.getElem?_eq_some_iff.mp happlication).1
  | calculate st =>
    obtain ⟨answer, st', hrun⟩ := hsucceeds
    obtain ⟨application, _, _, happlication, -⟩ := h answer st' hrun
    exact (List.getElem?_eq_some_iff.mp happlication).1
  | approve now origin grantee methods grants =>
    obtain ⟨grants', hrun⟩ := hsucceeds
    exact (h grants' hrun).1

theorem ApplicationCall.concerns_of_not_succeeds (id : Nat) (h : ¬ call.Succeeds cfg appId) :
    call.Concerns cfg appId id := by
  cases call with
  | mint origin caller sender st => exact fun changes st' hrun => absurd ⟨changes, st', hrun⟩ h
  | calculate st => exact fun answer st' hrun => absurd ⟨answer, st', hrun⟩ h
  | approve now origin grantee methods grants =>
    exact fun grants' hrun => absurd ⟨grants', hrun⟩ h

def firstApproval : ApplicationCall := .approve 0 0 0 [] .empty

theorem firstApproval_succeeds (h : applicationID appId < cfg.applications.length) :
    firstApproval.Succeeds cfg appId := by
  refine ⟨GrantStore.empty.put 0 0 (.mintHaqqByApplicationID [applicationID appId])
    (some (0 + Ucdao.approvalExpiration)), ?_⟩
  have hexists : [applicationID appId].all (isApplicationExists cfg) = true := by
    simpa [isApplicationExists] using h
  simp only [approveApplicationID, mergeApplicationID, List.find?_nil,
    show GrantStore.empty.getAuthorization 0 ⟨0, 0, .mintHaqqByApplication⟩ = none from rfl,
    hexists, if_true]
  rfl

/-- Every call concerns the application with its id, or fails, exactly if the id fits into 64 bits
or its low 64 bits are no id either. -/
theorem calls_concern_iff (cfg : CallConfig) (waitlist : Haqq.Ethiq.Waitlist cfg.applications)
    (appId : Uint256) :
    ((∀ call : ApplicationCall, call.Concerns cfg appId appId.val) ↔
      appId.val < 2 ^ 64 ∨ cfg.applications.length ≤ appId.val % 2 ^ 64) ∧
    ∀ call : ApplicationCall, call.Succeeds cfg appId →
      (call.Concerns cfg appId appId.val ↔ appId.val < 2 ^ 64) := by
  have hlength := waitlist.length_lt
  have hfits : appId.val < 2 ^ 64 →
      ∀ call : ApplicationCall, call.Concerns cfg appId appId.val := by
    intro hlt call
    have hsame : applicationID appId = appId.val := Nat.mod_eq_of_lt hlt
    exact hsame ▸ call.concerns_applicationID
  have hlt : ∀ call : ApplicationCall, call.Succeeds cfg appId →
      call.Concerns cfg appId appId.val → appId.val < 2 ^ 64 := by
    intro call hsucceeds hconcerns
    have := hconcerns.lt_length hsucceeds
    omega
  refine ⟨⟨fun h => ?_, ?_⟩, fun call hsucceeds => ⟨hlt call hsucceeds, fun h => hfits h call⟩⟩
  · by_contra hnot
    rw [not_or, Nat.not_le] at hnot
    exact hnot.1 (hlt firstApproval (firstApproval_succeeds hnot.2) (h firstApproval))
  · rintro (h | hmissing) call
    · exact hfits h call
    · refine call.concerns_of_not_succeeds appId.val fun hsucceeds => ?_
      exact absurd (call.concerns_applicationID.lt_length hsucceeds) (Nat.not_lt.mpr hmissing)

def applicationConfig : CallConfig :=
  { callConfig with applications := [⟨0, 2, 3, .bank, 600, 0⟩] }

def applicantState : ChainState SdkState :=
  { sdkGenesis with
    accounts := fun a => if a = 2 then some ⟨0, 0, .eth 0⟩ else sdkGenesis.accounts a
    bank := sdkGenesis.bank.mint 2 (Tally.single .islm 1000) }

theorem dropped_bits_accepted :
    (∃ changes st', (mintHaqqByApplication applicationConfig 2 2 2 18446744073709551616).run
      applicantState = .ok changes st' ∧ st'.modules.ethiq.executed = {0}) ∧
    ¬ (ApplicationCall.mint 2 2 2 applicantState).Concerns applicationConfig
      18446744073709551616 18446744073709551616 ∧
    ¬ (ApplicationCall.calculate applicantState).Concerns applicationConfig
      18446744073709551616 18446744073709551616 ∧
    ¬ firstApproval.Concerns applicationConfig 18446744073709551616 18446744073709551616 := by
  have hbeyond : ¬ 18446744073709551616 < applicationConfig.applications.length := by decide
  obtain ⟨changes, st', hrun⟩ := exists_of_matches_ok
    (r := (mintHaqqByApplication applicationConfig 2 2 2 18446744073709551616).run applicantState)
    (by decide +kernel)
  obtain ⟨answer, queried, hquery⟩ := exists_of_matches_ok
    (r := (calculateForApplication applicationConfig 18446744073709551616).run applicantState)
    (by decide +kernel)
  refine ⟨⟨changes, st', hrun, ?_⟩, fun h => hbeyond (h.lt_length ⟨changes, st', hrun⟩),
    fun h => hbeyond (h.lt_length ⟨answer, queried, hquery⟩),
    fun h => hbeyond (h.lt_length (firstApproval_succeeds (by decide)))⟩
  obtain ⟨application, -, -, hethiq⟩ := mintsFor_of_run hrun
  rw [hethiq]
  rfl

end Haqq.Precompiles.Ethiq
