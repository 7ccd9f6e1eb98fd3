import Haqq.Authz.Grants

/-!
# Allowances of the UCDAO precompile

`precompiles/ucdao/approve.go`: the origin grants, changes and revokes what a grantee may convert or
transfer.  For transfers the grant is not stored under `TransferOwnershipMsgURL`, which is the URL
of `MsgTransferOwnership`.

* `SetsLimit` is what a method does to each limit.
* `lifeCycle_iff`: the allowance has its life cycle for conversions and not for transfers.
-/

namespace Haqq.Precompiles.Ucdao

open Lib Authz

inductive ApprovalError
  /-- "invalid granter address: %v" -/
  | invalidGranter
  /-- "no methods defined; expected at least one message type url" -/
  | emptyMethods
  /-- "empty string found in methods array; expected no empty strings to be passed; got: %v" -/
  | emptyStringInMethods (typeURLs : List MsgURL)
  /-- `ErrInvalidMsgType` with the name of the precompile. -/
  | invalidMsgType (precompile : String) (url : MsgURL)
  /-- "authorization to %s for address %s does not exist or is expired" -/
  | authzDoesNotExistOrExpired (url : MsgURL) (grantee : Address)
  | invalidSpendLimit
  | unknownAuthorizationType
  /-- "amount by which the allowance should be decreased is greater than the authorization
  limit: %s > %s" -/
  | decreaseAmountTooBig (amount limit : Nat)
  | authz (err : AuthzError)
  /-- A nil coin is dereferenced, or a sum has more than 256 bits. -/
  | panic
  deriving DecidableEq, Repr

def approvalExpiration : Int := 365 * 24 * 3600

/-- Without a coin the allowance is unlimited. -/
def checkApprovalArgs (grantee : Address) (amount : Uint256) (typeURLs : List MsgURL) :
    Except ApprovalError (Option Coin) :=
  if grantee = 0 then .error .invalidGranter
  else if typeURLs = [] then .error .emptyMethods
  else if .other "" ∈ typeURLs then .error (.emptyStringInMethods typeURLs)
  else .ok (if amount = maxUint256 then none else some ⟨.islm, amount⟩)

def checkRevokeArgs (grantee : Address) (typeURLs : List MsgURL) : Except ApprovalError Unit :=
  if grantee = 0 then .error .invalidGranter
  else if typeURLs = [] then .error .emptyMethods
  else if .other "" ∈ typeURLs then .error (.emptyStringInMethods typeURLs)
  else .ok ()

section Grants

variable (now : Int) (grantee granter : Address)

def checkAuthzExists (url : MsgURL) (grants : GrantStore) : Except ApprovalError Grant :=
  match grants.getAuthorization now ⟨grantee, granter, url⟩ with
  | some grant => .ok grant
  | none => .error (.authzDoesNotExistOrExpired url grantee)

def saveGrant (auth : Authorization) (expiration : Option Int) (grants : GrantStore) :
    Except ApprovalError GrantStore :=
  (grants.saveGrant now grantee granter auth expiration).mapError .authz

def deleteGrant (url : MsgURL) (grants : GrantStore) : Except ApprovalError GrantStore :=
  (grants.deleteGrant ⟨grantee, granter, url⟩).mapError .authz

def newAuthorization (coin : Option Coin) : MsgURL → Option Authorization
  | .convertToHaqq => some (.convertToHaqq coin)
  | .transferOwnership => some (.transferOwnership coin)
  | _ => none

def createAuthz (coin : Option Coin) (msgType : MsgURL) (grants : GrantStore) :
    Except ApprovalError GrantStore :=
  match newAuthorization coin msgType with
  | none => .error (.invalidMsgType "ucdao" msgType)
  | some auth =>
    if Authorization.spendLimitValid coin then
      saveGrant now grantee granter auth (some (now + approvalExpiration)) grants
    else .error .invalidSpendLimit

def grantOrDeleteAuthz (coin : Option Coin) (msgType : MsgURL) (grants : GrantStore) :
    Except ApprovalError GrantStore :=
  match coin with
  | none => createAuthz now grantee granter none msgType grants
  | some coin =>
    if coin.amount = 0 then deleteGrant grantee granter msgType grants
    else createAuthz now grantee granter (some coin) msgType grants

/-- The spend limit, and the authorization with another one. -/
def assertType : MsgURL → Authorization → Option (Option Coin × (Option Coin → Authorization))
  | .convertToHaqq, .convertToHaqq spendLimit => some (spendLimit, .convertToHaqq)
  | .transferOwnership, .transferOwnership spendLimit => some (spendLimit, .transferOwnership)
  | _, _ => none

def increaseAllowance (coin : Option Coin) (msgURL : MsgURL) (grants : GrantStore) :
    Except ApprovalError GrantStore := do
  let existing ← checkAuthzExists now grantee granter msgURL grants
  match assertType msgURL existing.authorization with
  | none => .error .unknownAuthorizationType
  | some (none, _) => .ok grants
  | some (some limit, rebuild) =>
    match coin with
    | none => .error .panic
    | some coin =>
      let auth := rebuild (some ⟨limit.denom, limit.amount + coin.amount⟩)
      if 2 ^ 256 ≤ limit.amount + coin.amount then .error .panic
      else saveGrant now grantee granter auth existing.expiration grants

/-- The branch is chosen by the URL of the stored authorization, not by the one passed. -/
def decreaseAllowance (coin : Option Coin) (existing : Grant) (grants : GrantStore) :
    Except ApprovalError GrantStore :=
  match assertType existing.authorization.msgTypeURL existing.authorization with
  | none => .error .unknownAuthorizationType
  | some (none, _) => .ok grants
  | some (some limit, rebuild) =>
    match coin with
    | none => .error .panic
    | some coin =>
      let auth := rebuild (some ⟨limit.denom, limit.amount - coin.amount⟩)
      if limit.amount < coin.amount then .error (.decreaseAmountTooBig coin.amount limit.amount)
      else saveGrant now grantee granter auth existing.expiration grants

end Grants

/-- Other URLs than the two supported ones are refused. -/
def forTypeURLs (precompile : String) (body : MsgURL → GrantStore → Except ApprovalError GrantStore)
    (typeURLs : List MsgURL) (grants : GrantStore) : Except ApprovalError GrantStore :=
  typeURLs.foldlM (fun grants url =>
    if url = .convertToHaqq ∨ url = .transferOwnership then body url grants
    else .error (.invalidMsgType precompile url)) grants

section Methods

variable (now : Int) (origin grantee : Address) (amount : Uint256) (typeURLs : List MsgURL)
  (grants : GrantStore)

def approveMethod : Except ApprovalError GrantStore := do
  let coin ← checkApprovalArgs grantee amount typeURLs
  forTypeURLs "ucdao" (grantOrDeleteAuthz now grantee origin coin) typeURLs grants

def revokeMethod : Except ApprovalError GrantStore := do
  checkRevokeArgs grantee typeURLs
  forTypeURLs "ucdao" (deleteGrant grantee origin) typeURLs grants

def increaseAllowanceMethod : Except ApprovalError GrantStore := do
  let coin ← checkApprovalArgs grantee amount typeURLs
  forTypeURLs "ethiq" (increaseAllowance now grantee origin coin) typeURLs grants

def decreaseAllowanceMethod : Except ApprovalError GrantStore := do
  let coin ← checkApprovalArgs grantee amount typeURLs
  forTypeURLs "ethiq" (fun url grants => do
    let existing ← checkAuthzExists now grantee origin url grants
    decreaseAllowance now grantee origin coin existing grants) typeURLs grants

end Methods

inductive ApprovalCall
  | approve (grantee : Address) (amount : Uint256) (typeURLs : List MsgURL)
  | revoke (grantee : Address) (typeURLs : List MsgURL)
  | increaseAllowance (grantee : Address) (amount : Uint256) (typeURLs : List MsgURL)
  | decreaseAllowance (grantee : Address) (amount : Uint256) (typeURLs : List MsgURL)
  deriving DecidableEq, Repr

namespace ApprovalCall

def grantee : ApprovalCall → Address
  | approve grantee _ _ => grantee
  | revoke grantee _ => grantee
  | increaseAllowance grantee _ _ => grantee
  | decreaseAllowance grantee _ _ => grantee

def typeURLs : ApprovalCall → List MsgURL
  | approve _ _ typeURLs => typeURLs
  | revoke _ typeURLs => typeURLs
  | increaseAllowance _ _ typeURLs => typeURLs
  | decreaseAllowance _ _ typeURLs => typeURLs

def perform (now : Int) (origin : Address) (grants : GrantStore) :
    ApprovalCall → Except ApprovalError GrantStore
  | approve grantee amount typeURLs => approveMethod now origin grantee amount typeURLs grants
  | revoke grantee typeURLs => revokeMethod origin grantee typeURLs grants
  | increaseAllowance grantee amount typeURLs =>
    increaseAllowanceMethod now origin grantee amount typeURLs grants
  | decreaseAllowance grantee amount typeURLs =>
    decreaseAllowanceMethod now origin grantee amount typeURLs grants

end ApprovalCall

structure ApprovalTx where
  now : Int
  origin : Address
  call : ApprovalCall

def ApprovalTx.perform (grants : GrantStore) (tx : ApprovalTx) : Except ApprovalError GrantStore :=
  tx.call.perform tx.now tx.origin grants

/-- `none` is no authority, `⊤` no limit. -/
def ApprovalCall.count : ApprovalCall → Option ℕ∞ → Option ℕ∞
  | approve _ amount _, _ =>
    if amount = maxUint256 then some ⊤ else if amount = 0 then none else some amount.val
  | revoke _ _, _ => none
  | increaseAllowance _ amount _, total => total.map (· + amount.val)
  | decreaseAllowance _ amount _, total => total.map (· - amount.val)

/-- The call can name the URL several times. -/
def ApprovalTx.total (granter grantee : Address) (url : MsgURL) (total : Option ℕ∞)
    (tx : ApprovalTx) : Option ℕ∞ :=
  tx.call.typeURLs.foldl (fun total u =>
    if tx.origin = granter ∧ tx.call.grantee = grantee ∧ u = url then tx.call.count total
    else total) total

/-- With an allowance for `TransferOwnershipMsgURL` one transfers by amount. -/
def spendingURL : MsgURL → MsgURL
  | .transferOwnership => .transferOwnershipWithAmount
  | url => url

def held (grants : GrantStore) (granter grantee : Address) (url : MsgURL) : Option ℕ∞ :=
  (grants.grant ⟨grantee, granter, spendingURL url⟩).map fun grant => grant.authorization.budget

/-- A grant from its approval to its end. -/
structure LifeCycle (url : MsgURL) : Prop where
  /-- The grant holds the running total of the accepted calls. -/
  total : ∀ (granter grantee : Address) (txs : List ApprovalTx) (grants grants' : GrantStore),
    txs.foldlM ApprovalTx.perform grants = .ok grants' →
      held grants' granter grantee url =
        txs.foldl (ApprovalTx.total granter grantee url) (held grants granter grantee url)
  /-- The methods that change the allowance find the grant of an approval until it expires. -/
  found : ∀ (granter grantee : Address) (amount : Uint256) (grants grants' : GrantStore)
    (now t : Int),
    0 < amount → t ≤ now + approvalExpiration →
    approveMethod now granter grantee amount [url] grants = .ok grants' →
      ∃ grant, checkAuthzExists t grantee granter url grants' = .ok grant ∧
        held grants' granter grantee url = some grant.authorization.budget
  /-- The granter can take back the grantee's authority, in both ways. -/
  removed : ∀ (granter grantee : Address) (grants : GrantStore) (now : Int),
    grantee ≠ 0 → held grants granter grantee url ≠ none →
      (∃ grants', revokeMethod granter grantee [url] grants = .ok grants' ∧
        held grants' granter grantee url = none) ∧
      ∃ grants', approveMethod now granter grantee 0 [url] grants = .ok grants' ∧
        held grants' granter grantee url = none

/-! ## Conversions -/

def limitAt (grants : GrantStore) (key : GrantKey) : Option ℕ∞ :=
  (grants.grant key).map fun grant => grant.authorization.budget

variable {auth : Authorization} {url : MsgURL} {grant : Grant} {coin spendLimit : Option Coin}
  {rebuild : Option Coin → Authorization}

section Limits

variable {now : Int} {grantee granter : Address} {grants grants' : GrantStore}

theorem limitAt_saveGrant {expiration : Option Int}
    (h : saveGrant now grantee granter auth expiration grants = .ok grants') (key : GrantKey) :
    limitAt grants' key =
      if key = ⟨grantee, granter, auth.msgTypeURL⟩ then some auth.budget
        else limitAt grants key := by
  obtain ⟨-, rfl⟩ := GrantStore.saveGrant_ok.mp (except_mapError_ok.mp h)
  unfold limitAt
  rw [GrantStore.put_grant]
  split <;> rfl

theorem limitAt_deleteGrant (h : deleteGrant grantee granter url grants = .ok grants')
    (key : GrantKey) :
    limitAt grants' key = if key = ⟨grantee, granter, url⟩ then none else limitAt grants key := by
  obtain ⟨-, rfl⟩ := GrantStore.deleteGrant_ok.mp (except_mapError_ok.mp h)
  unfold limitAt
  rw [GrantStore.erase_grant]
  split <;> rfl

theorem checkAuthzExists_ok :
    checkAuthzExists now grantee granter url grants = .ok grant ↔
      grants.grant ⟨grantee, granter, url⟩ = some grant ∧ grant.expired now = false := by
  rw [← GrantStore.getAuthorization_some, checkAuthzExists]
  cases grants.getAuthorization now ⟨grantee, granter, url⟩ <;> simp

theorem limitAt_of_exists (h : checkAuthzExists now grantee granter url grants = .ok grant) :
    limitAt grants ⟨grantee, granter, url⟩ = some grant.authorization.budget := by
  rw [limitAt, (checkAuthzExists_ok.mp h).1, Option.map_some]

theorem limitAt_createAuthz (h : createAuthz now grantee granter coin url grants = .ok grants') :
    ∃ auth, newAuthorization coin url = some auth ∧ ∀ key, limitAt grants' key =
      if key = ⟨grantee, granter, auth.msgTypeURL⟩ then some auth.budget
      else limitAt grants key := by
  unfold createAuthz at h
  split at h
  · cases h
  · rename_i auth hauth
    split at h
    · exact ⟨auth, hauth, limitAt_saveGrant h⟩
    · cases h

theorem assertType_some (h : assertType url auth = some (spendLimit, rebuild)) :
    url = .convertToHaqq ∧ auth = .convertToHaqq spendLimit ∧ rebuild = .convertToHaqq ∨
    url = .transferOwnership ∧ auth = .transferOwnership spendLimit ∧
      rebuild = .transferOwnership := by
  unfold assertType at h
  split at h
  · cases h
    exact .inl ⟨rfl, rfl, rfl⟩
  · cases h
    exact .inr ⟨rfl, rfl, rfl⟩
  · cases h

/-- A grant for transfers is never stored under the URL that the methods look under. -/
theorem assertType_exists (hexists : checkAuthzExists now grantee granter url grants = .ok grant)
    (h : assertType url grant.authorization = some (spendLimit, rebuild)) :
    url = .convertToHaqq ∧ grant.authorization = .convertToHaqq spendLimit ∧
      rebuild = .convertToHaqq := by
  obtain hconvert | ⟨hurl, hauth, -⟩ := assertType_some h
  · exact hconvert
  · have hkeyed := grants.keyed _ _ (checkAuthzExists_ok.mp hexists).1
    rw [hauth, hurl] at hkeyed
    cases hkeyed

end Limits

variable {key : GrantKey}

namespace ApprovalCall

def body (now : Int) (origin : Address) : ApprovalCall → MsgURL → GrantStore →
    Except ApprovalError GrantStore
  | approve grantee amount _ => grantOrDeleteAuthz now grantee origin
      (if amount = maxUint256 then none else some ⟨.islm, amount⟩)
  | revoke grantee _ => deleteGrant grantee origin
  | increaseAllowance grantee amount _ => Ucdao.increaseAllowance now grantee origin
      (if amount = maxUint256 then none else some ⟨.islm, amount⟩)
  | decreaseAllowance grantee amount _ => fun url grants => do
      let existing ← checkAuthzExists now grantee origin url grants
      Ucdao.decreaseAllowance now grantee origin
        (if amount = maxUint256 then none else some ⟨.islm, amount⟩) existing grants

variable {now : Int} {origin grantee : Address} {grants grants' : GrantStore}
  {call : ApprovalCall} {amount : Uint256} {typeURLs : List MsgURL}

theorem checkApprovalArgs_ok (h : checkApprovalArgs grantee amount typeURLs = .ok coin) :
    coin = if amount = maxUint256 then none else some ⟨.islm, amount⟩ := by
  simp only [checkApprovalArgs, ite_error_ok] at h
  exact (Except.ok.inj h.2.2.2).symm

theorem perform_ok (h : call.perform now origin grants = .ok grants') :
    ∃ precompile, forTypeURLs precompile (call.body now origin) call.typeURLs grants =
      .ok grants' := by
  cases call with
  | approve grantee amount typeURLs =>
    obtain ⟨coin, hcoin, h⟩ := except_bind_ok.mp h
    cases checkApprovalArgs_ok hcoin
    exact ⟨_, h⟩
  | revoke grantee typeURLs =>
    obtain ⟨_, -, h⟩ := except_bind_ok.mp h
    exact ⟨_, h⟩
  | increaseAllowance grantee amount typeURLs =>
    obtain ⟨coin, hcoin, h⟩ := except_bind_ok.mp h
    cases checkApprovalArgs_ok hcoin
    exact ⟨_, h⟩
  | decreaseAllowance grantee amount typeURLs =>
    obtain ⟨coin, hcoin, h⟩ := except_bind_ok.mp h
    cases checkApprovalArgs_ok hcoin
    exact ⟨_, h⟩

def SetsLimit (grants grants' : GrantStore) (key : GrantKey) (limit : Option ℕ∞) : Prop :=
  ∀ key', limitAt grants' key' = if key' = key then limit else limitAt grants key'

theorem SetsLimit.unchanged {limit : Option ℕ∞} (h : limitAt grants key = limit) :
    SetsLimit grants grants key limit := by
  intro key'
  split
  · rename_i hkey
    rw [hkey, h]
  · rfl

theorem setsLimit_approve
    (h : (approve grantee amount typeURLs).body now origin .convertToHaqq grants = .ok grants') :
    SetsLimit grants grants' ⟨grantee, origin, .convertToHaqq⟩
      ((approve grantee amount typeURLs).count
        (limitAt grants ⟨grantee, origin, .convertToHaqq⟩)) := by
  simp only [body, grantOrDeleteAuthz] at h
  by_cases hmax : amount = maxUint256
  · rw [if_pos hmax] at h
    obtain ⟨auth, hauth, hlimit⟩ := limitAt_createAuthz h
    cases hauth
    rw [count, if_pos hmax]
    exact hlimit
  · rw [if_neg hmax] at h
    dsimp only at h
    rw [count, if_neg hmax]
    split at h
    · rename_i hzero
      rw [if_pos (Fin.ext hzero)]
      exact limitAt_deleteGrant h
    · rename_i hpos
      rw [if_neg fun hzero => hpos (congrArg Fin.val hzero)]
      obtain ⟨auth, hauth, hlimit⟩ := limitAt_createAuthz h
      cases hauth
      exact hlimit

theorem amount_of_coin {coin : Coin}
    (h : (if amount = maxUint256 then none else some (⟨.islm, amount⟩ : Coin)) = some coin) :
    coin.amount = amount := by
  split at h
  · cases h
  · cases h
    rfl

theorem setsLimit_increaseAllowance
    (h : (increaseAllowance grantee amount typeURLs).body now origin .convertToHaqq grants =
      .ok grants') :
    SetsLimit grants grants' ⟨grantee, origin, .convertToHaqq⟩
      ((increaseAllowance grantee amount typeURLs).count
        (limitAt grants ⟨grantee, origin, .convertToHaqq⟩)) := by
  obtain ⟨existing, hexists, h⟩ := except_bind_ok.mp h
  have hheld := limitAt_of_exists hexists
  split at h
  · cases h
  · rename_i rebuild htype
    obtain ⟨-, hauth, -⟩ := assertType_exists hexists htype
    cases h
    rw [hauth] at hheld
    apply SetsLimit.unchanged
    rw [hheld]
    rfl
  · rename_i limit rebuild htype
    obtain ⟨-, hauth, rfl⟩ := assertType_exists hexists htype
    split at h
    · cases h
    · rename_i coin hcoin
      split at h
      · cases h
      · have hsaved := limitAt_saveGrant h
        rw [hheld, hauth]
        rwa [Authorization.budget, amount_of_coin hcoin, Nat.cast_add] at hsaved

theorem setsLimit_decreaseAllowance
    (h : (decreaseAllowance grantee amount typeURLs).body now origin .convertToHaqq grants =
      .ok grants') :
    SetsLimit grants grants' ⟨grantee, origin, .convertToHaqq⟩
      ((decreaseAllowance grantee amount typeURLs).count
        (limitAt grants ⟨grantee, origin, .convertToHaqq⟩)) := by
  obtain ⟨existing, hexists, h⟩ := except_bind_ok.mp h
  have hheld := limitAt_of_exists hexists
  -- the grant sits under its own URL, so the branch is the one of the URL passed
  have hurl := grants.keyed _ _ (checkAuthzExists_ok.mp hexists).1
  rw [Ucdao.decreaseAllowance, hurl] at h
  split at h
  · cases h
  · rename_i rebuild htype
    obtain ⟨-, hauth, -⟩ := assertType_exists hexists htype
    cases h
    rw [hauth] at hheld
    apply SetsLimit.unchanged
    rw [hheld]
    rfl
  · rename_i limit rebuild htype
    obtain ⟨-, hauth, rfl⟩ := assertType_exists hexists htype
    split at h
    · cases h
    · rename_i coin hcoin
      split at h
      · cases h
      · have hsaved := limitAt_saveGrant h
        rw [hheld, hauth]
        rwa [Authorization.budget, amount_of_coin hcoin, ENat.natCast_sub] at hsaved

theorem setsLimit_body (h : call.body now origin .convertToHaqq grants = .ok grants') :
    SetsLimit grants grants' ⟨call.grantee, origin, .convertToHaqq⟩
      (call.count (limitAt grants ⟨call.grantee, origin, .convertToHaqq⟩)) := by
  cases call with
  | approve grantee amount typeURLs => exact setsLimit_approve h
  | revoke grantee typeURLs => exact limitAt_deleteGrant h
  | increaseAllowance grantee amount typeURLs => exact setsLimit_increaseAllowance h
  | decreaseAllowance grantee amount typeURLs => exact setsLimit_decreaseAllowance h

theorem limitAt_body_transfer (h : call.body now origin .transferOwnership grants = .ok grants')
    (hkey : key.url = .convertToHaqq) : limitAt grants' key = limitAt grants key := by
  have hne : ∀ {grantee granter : Address} {url : MsgURL}, url ≠ .convertToHaqq →
      key ≠ ⟨grantee, granter, url⟩ := by
    rintro grantee granter url hurl rfl
    exact hurl hkey
  cases call with
  | approve grantee amount typeURLs =>
    have hcreate : ∀ {coin}, createAuthz now grantee origin coin .transferOwnership grants =
        .ok grants' → limitAt grants' key = limitAt grants key := by
      intro coin hcreated
      obtain ⟨auth, hauth, hlimit⟩ := limitAt_createAuthz hcreated
      cases hauth
      rw [hlimit key, if_neg (hne (by simp [Authorization.msgTypeURL]))]
    simp only [body, grantOrDeleteAuthz] at h
    split at h
    · exact hcreate h
    · split at h
      · rw [limitAt_deleteGrant h key, if_neg (hne (by simp))]
      · exact hcreate h
  | revoke grantee typeURLs => rw [limitAt_deleteGrant h key, if_neg (hne (by simp))]
  | increaseAllowance grantee amount typeURLs =>
    obtain ⟨existing, hexists, h⟩ := except_bind_ok.mp h
    split at h
    · cases h
    · cases h
      rfl
    · rename_i limit rebuild htype
      cases (assertType_exists hexists htype).1
  | decreaseAllowance grantee amount typeURLs =>
    obtain ⟨existing, hexists, h⟩ := except_bind_ok.mp h
    have hurl := grants.keyed _ _ (checkAuthzExists_ok.mp hexists).1
    rw [Ucdao.decreaseAllowance, hurl] at h
    split at h
    · cases h
    · cases h
      rfl
    · rename_i limit rebuild htype
      cases (assertType_exists hexists htype).1

end ApprovalCall

variable {grants grants' : GrantStore} {granter grantee : Address}

theorem held_perform {tx : ApprovalTx} (granter grantee : Address)
    (h : tx.perform grants = .ok grants') :
    held grants' granter grantee .convertToHaqq =
      tx.total granter grantee .convertToHaqq (held grants granter grantee .convertToHaqq) := by
  obtain ⟨precompile, hloop⟩ := ApprovalCall.perform_ok h
  apply Run.reads_foldlM _ hloop
  intro s s' url _ hbody
  split at hbody
  · rename_i hsupported
    rcases hsupported with rfl | rfl
    · have hset := ApprovalCall.setsLimit_body hbody ⟨grantee, granter, .convertToHaqq⟩
      by_cases hkey : tx.origin = granter ∧ tx.call.grantee = grantee
      · obtain ⟨rfl, rfl⟩ := hkey
        simpa [held, limitAt, spendingURL] using hset
      · have hne : ¬ (⟨grantee, granter, .convertToHaqq⟩ : GrantKey) =
            ⟨tx.call.grantee, tx.origin, .convertToHaqq⟩ := by
          rintro heq
          cases heq
          exact hkey ⟨rfl, rfl⟩
        rw [if_neg hne] at hset
        rw [if_neg fun h => hkey ⟨h.1, h.2.1⟩]
        exact hset
    · rw [if_neg (by simp)]
      exact ApprovalCall.limitAt_body_transfer hbody rfl
  · cases hbody

theorem forTypeURLs_singleton {precompile : String}
    {body : MsgURL → GrantStore → Except ApprovalError GrantStore}
    (h : url = .convertToHaqq ∨ url = .transferOwnership) :
    forTypeURLs precompile body [url] grants = body url grants := by
  simp [forTypeURLs, h]

theorem createAuthz_found {now t : Int} (ht : t ≤ now + approvalExpiration)
    (h : createAuthz now grantee granter coin .convertToHaqq grants = .ok grants') :
    ∃ grant, checkAuthzExists t grantee granter .convertToHaqq grants' = .ok grant := by
  rw [createAuthz, newAuthorization] at h
  dsimp only at h
  split at h
  · obtain ⟨-, rfl⟩ := GrantStore.saveGrant_ok.mp (except_mapError_ok.mp h)
    refine ⟨_, checkAuthzExists_ok.mpr ⟨(GrantStore.put_grant _).trans (if_pos rfl), ?_⟩⟩
    simpa [Grant.expired] using ht
  · cases h

theorem deleteGrant_of_held (hheld : held grants granter grantee .convertToHaqq ≠ none) :
    ∃ grants', deleteGrant grantee granter .convertToHaqq grants = .ok grants' ∧
      held grants' granter grantee .convertToHaqq = none := by
  have hgrant : (grants.grant ⟨grantee, granter, .convertToHaqq⟩).isSome := by
    rw [Option.isSome_iff_ne_none]
    intro hnone
    simp [held, spendingURL, hnone] at hheld
  have hdelete : deleteGrant grantee granter .convertToHaqq grants =
      .ok (grants.erase ⟨grantee, granter, .convertToHaqq⟩) :=
    except_mapError_ok.mpr (GrantStore.deleteGrant_ok.mpr ⟨hgrant, rfl⟩)
  refine ⟨_, hdelete, ?_⟩
  exact (limitAt_deleteGrant hdelete _).trans (if_pos rfl)

theorem lifeCycle_convertToHaqq : LifeCycle .convertToHaqq where
  total granter grantee txs grants grants' h :=
    Run.reads_foldlM (fun _ _ tx _ => held_perform granter grantee) h
  found granter grantee amount grants grants' now t hpos ht h := by
    obtain ⟨coin, hcoin, h⟩ := except_bind_ok.mp h
    rw [forTypeURLs_singleton (.inl rfl)] at h
    have hcreate : ∃ coin, createAuthz now grantee granter coin .convertToHaqq grants =
        .ok grants' := by
      cases coin with
      | none => exact ⟨none, h⟩
      | some coin =>
        have hamount := ApprovalCall.amount_of_coin (ApprovalCall.checkApprovalArgs_ok hcoin).symm
        have hne : coin.amount ≠ 0 := by
          rw [hamount]
          exact Nat.pos_iff_ne_zero.mp hpos
        exact ⟨some coin, (if_neg hne).symm.trans h⟩
    obtain ⟨coin, hcreate⟩ := hcreate
    obtain ⟨grant, hgrant⟩ := createAuthz_found ht hcreate
    exact ⟨grant, hgrant, limitAt_of_exists hgrant⟩
  removed granter grantee grants now hgrantee hheld := by
    obtain ⟨grants', hdelete, hnone⟩ := deleteGrant_of_held hheld
    refine ⟨⟨grants', ?_, hnone⟩, ⟨grants', ?_, hnone⟩⟩
    · refine except_bind_ok.mpr ⟨(), by simp [checkRevokeArgs, hgrantee], ?_⟩
      rw [forTypeURLs_singleton (.inl rfl)]
      exact hdelete
    · have hzero : (0 : Uint256) ≠ maxUint256 := by decide
      refine except_bind_ok.mpr ⟨some ⟨.islm, 0⟩, by simp [checkApprovalArgs, hgrantee, hzero], ?_⟩
      rw [forTypeURLs_singleton (.inl rfl)]
      exact hdelete

def approval : ApprovalTx := ⟨0, 1, .approve 2 100 [.transferOwnership]⟩

def approved : GrantStore :=
  GrantStore.empty.put 2 1 (.transferOwnership (some ⟨.islm, 100⟩)) (some approvalExpiration)

theorem perform_approval : approval.perform .empty = .ok approved := rfl

/-- The allowance has its life cycle for conversions, and not for transfers. -/
theorem lifeCycle_iff (url : MsgURL) (hurl : url = .convertToHaqq ∨ url = .transferOwnership) :
    LifeCycle url ↔ url = .convertToHaqq := by
  constructor
  · intro h
    rcases hurl with rfl | rfl
    · rfl
    · obtain ⟨grant, hgrant, -⟩ := h.found 1 2 100 .empty approved 0 0 (by decide) (by decide)
        perform_approval
      obtain ⟨hstored, -⟩ := checkAuthzExists_ok.mp hgrant
      cases hstored
  · rintro rfl
    exact lifeCycle_convertToHaqq

theorem conversions_have_lifeCycle : LifeCycle .convertToHaqq :=
  (lifeCycle_iff .convertToHaqq (.inl rfl)).mpr rfl

/-- After an approval of 100 for transfers the grantee can transfer, but the granter can
neither raise, lower nor revoke the allowance. -/
theorem transfer_allowance_stuck :
    approval.perform .empty = .ok approved ∧
    (useGrant ((approved.getAuthorization 0 ⟨2, 1, .transferOwnershipWithAmount⟩).map
      Grant.authorization) (.transferOwnershipWithAmount 1 2 [⟨.islm, 100⟩])).isSome ∧
    increaseAllowanceMethod 0 1 2 10 [.transferOwnership] approved =
      .error (.authzDoesNotExistOrExpired .transferOwnership 2) ∧
    decreaseAllowanceMethod 0 1 2 10 [.transferOwnership] approved =
      .error (.authzDoesNotExistOrExpired .transferOwnership 2) ∧
    revokeMethod 1 2 [.transferOwnership] approved = .error (.authz .noAuthorizationFound) ∧
    approveMethod 0 1 2 0 [.transferOwnership] approved = .error (.authz .noAuthorizationFound) :=
  ⟨rfl, by decide +kernel, rfl, rfl, rfl, rfl⟩

end Haqq.Precompiles.Ucdao
