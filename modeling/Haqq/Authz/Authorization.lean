import Haqq.Chain.State
import Haqq.Lib.Effects
import Haqq.Lib.Run
import Mathlib.Data.ENat.Basic

/-!
# Authorizations

The authorizations of `x/ethiq` and `x/ucdao` (`types/authz.go` of both), the staking and the send
authorization of the SDK and the transfer authorization of IBC, and what a grantee can spend with
one grant.

* `accept` and `useGrant` say what a use leaves of a grant (`AcceptResponse.Keeps`).
* `accepted_le_granted`: the uses of one grant never add up to more than it allows.
-/

namespace Haqq.Authz

open Lib

inductive MsgURL
  | convertToHaqq
  | transferOwnership
  | transferOwnershipWithAmount
  | mintHaqq
  | mintHaqqByApplication
  | liquidate
  | redeem
  | delegate
  | undelegate
  | beginRedelegate
  | cancelUnbondingDelegation
  | send
  | transfer
  | other (name : String)
  deriving DecidableEq, Repr

structure RawCoin where
  denom : Denom
  amount : Int
  deriving DecidableEq, Repr

def isZero (coins : List RawCoin) : Bool := coins.all fun coin => coin.amount == 0

/-- Sorted by denomination, without duplicates, all amounts positive. -/
def isValid (coins : List RawCoin) : Bool :=
  decide (coins.Pairwise fun c c' => c.denom < c'.denom) && coins.all fun coin => 0 < coin.amount

inductive Msg
  | convertToHaqq (sender receiver : Address) (islmAmount : Int)
  | transferOwnership (owner newOwner : Address)
  | transferOwnershipWithAmount (owner newOwner : Address) (amount : List RawCoin)
  | mintHaqq (fromAddress toAddress : Address) (islmAmount : Int)
  | mintHaqqByApplication (fromAddress : Address) (applicationId : Nat)
  | liquidate (liquidateFrom liquidateTo : Address) (amount : Coin)
  | redeem (redeemFrom redeemTo : Address) (amount : Coin)
  | delegate (delegator validator : Address) (amount : Coin)
  | undelegate (delegator validator : Address) (amount : Coin)
  | beginRedelegate (delegator source target : Address) (amount : Coin)
  | cancelUnbondingDelegation (delegator validator : Address) (amount : Coin)
      (creationHeight : Int)
  | send (fromAddress toAddress : Address) (amount : Coins)
  | transfer (sender : Address) (receiver sourcePort sourceChannel : String) (token : Coin)
      (memo : String)
  deriving DecidableEq

namespace Msg

def typeURL : Msg → MsgURL
  | convertToHaqq .. => .convertToHaqq
  | transferOwnership .. => .transferOwnership
  | transferOwnershipWithAmount .. => .transferOwnershipWithAmount
  | mintHaqq .. => .mintHaqq
  | mintHaqqByApplication .. => .mintHaqqByApplication
  | liquidate .. => .liquidate
  | redeem .. => .redeem
  | delegate .. => .delegate
  | undelegate .. => .undelegate
  | beginRedelegate .. => .beginRedelegate
  | cancelUnbondingDelegation .. => .cancelUnbondingDelegation
  | send .. => .send
  | transfer .. => .transfer

def validateBasic : Msg → Bool
  | convertToHaqq _ _ islmAmount => 0 < islmAmount
  | transferOwnership .. => true
  | transferOwnershipWithAmount _ _ amount => isValid amount
  | mintHaqq _ _ islmAmount => 0 < islmAmount
  | mintHaqqByApplication .. => true
  | liquidate _ _ amount => 0 < amount.amount
  | redeem _ _ amount => 0 < amount.amount
  | delegate _ _ amount => 0 < amount.amount
  | undelegate _ _ amount => 0 < amount.amount
  | beginRedelegate _ _ _ amount => 0 < amount.amount
  | cancelUnbondingDelegation _ _ amount creationHeight => 0 < amount.amount && 0 < creationHeight
  | send _ _ amount => !amount.isZero
  | transfer _ _ _ _ token _ => 0 < token.amount

end Msg

/-! ## Authorizations -/

inductive Validators
  | any
  | allowList (validators : List Address)
  | denyList (validators : List Address)
  deriving DecidableEq, Repr

structure Allocation where
  sourcePort : String
  sourceChannel : String
  spendLimit : Coins
  /-- The receivers; all of them if the list is empty. -/
  allowList : List String
  /-- The memos, without surrounding blanks; only the empty one if the list is empty, and all
  of them for a single "*". -/
  allowedPacketData : List String
  deriving DecidableEq

inductive Authorization
  | convertToHaqq (spendLimit : Option Coin)
  | transferOwnership (spendLimit : Option Coin)
  | mintHaqq (spendLimit : Option Coin)
  | mintHaqqByApplicationID (applicationsList : List Nat)
  /-- The SDK's `StakeAuthorization`; its type is the message URL it is for. -/
  | stake (url : MsgURL) (validators : Validators) (maxTokens : Option Coin)
  /-- The SDK's `SendAuthorization`; an empty list allows all recipients. -/
  | send (spendLimit : Coins) (allowList : List Address)
  /-- The `TransferAuthorization` of IBC. -/
  | transfer (allocations : List Allocation)
  | generic (url : MsgURL)
  deriving DecidableEq

inductive AcceptError
  /-- "expected %T, got %T" -/
  | unexpectedMsg (expected got : MsgURL)
  /-- "requested amount %s exceeds spend limit %s" -/
  | exceedsSpendLimit (requested : List RawCoin) (spendLimit : Nat)
  /-- "requested amount should be greater than zero, got %s" -/
  | zeroAmount (requested : List RawCoin)
  /-- "invalid amount %s" -/
  | invalidAmount (requested : List RawCoin)
  /-- "application ID %d is not in allow list" -/
  | notInAllowList (applicationId : Nat)
  /-- "cannot delegate/undelegate to %s validator" -/
  | validatorNotAllowed (validator : Address)
  /-- The SDK's "negative coin amount" -/
  | negativeCoinAmount
  /-- "requested amount is more than spend limit" -/
  | moreThanSpendLimit
  /-- "cannot send to %s address" -/
  | recipientNotAllowed (recipient : Address)
  /-- "not allowed receiver address for transfer" -/
  | receiverNotAllowed
  /-- "not allowed memo" -/
  | memoNotAllowed
  /-- "requested port and channel allocation does not exist" -/
  | noAllocation
  deriving DecidableEq

structure AcceptResponse where
  accept : Bool
  delete : Bool
  updated : Option Authorization
  deriving DecidableEq

namespace Authorization

def msgTypeURL : Authorization → MsgURL
  | convertToHaqq _ => .convertToHaqq
  | transferOwnership _ => .transferOwnershipWithAmount
  | mintHaqq _ => .mintHaqq
  | mintHaqqByApplicationID _ => .mintHaqqByApplication
  | stake url _ _ => url
  | send _ _ => .send
  | transfer _ => .transfer
  | generic url => url

def spendLimitValid (spendLimit : Option Coin) : Bool :=
  spendLimit.all fun limit => limit.denom == .islm && 0 < limit.amount

/-- The grant is deleted when its limit is used up. -/
def spend (rebuild : Option Coin → Authorization) (spendLimit : Option Coin) (total : Int)
    (requested : List RawCoin) : Except AcceptError AcceptResponse :=
  match spendLimit with
  | none => .ok ⟨true, false, none⟩
  | some limit =>
    if limit.amount < total then
      .error (.exceedsSpendLimit requested limit.amount)
    else
      let remaining := limit.amount - total
      if remaining = 0 then .ok ⟨true, true, none⟩
      else .ok ⟨true, false, some (rebuild (some ⟨limit.denom, remaining.toNat⟩))⟩

/-- The coins that count against the spend limit of a `TransferOwnershipAuthorization`. -/
def counts (coin : RawCoin) : Bool := coin.denom == .islm || coin.denom.isLiquid

/-- The loop over the coins of a transfer; other coins are skipped. -/
def totalTransferAmount (amount : List RawCoin) : Int :=
  amount.foldl (fun total coin => if counts coin then total + coin.amount else total) 0

def allows : Validators → Address → Bool
  | .any, _ => true
  | .allowList validators, validator => validators.isEmpty || validators.contains validator
  | .denyList validators, validator => !validators.contains validator

/-- `Accept` of the staking authorizations, with the list of validators and the limit. -/
def acceptStake (url : MsgURL) (validators : Validators) (maxTokens : Option Coin)
    (validator : Address) (amount : Coin) : Except AcceptError AcceptResponse :=
  if allows validators validator = false then .error (.validatorNotAllowed validator)
  else
    match maxTokens with
    | none => .ok ⟨true, false, some (stake url validators none)⟩
    | some limit =>
      if limit.amount < amount.amount then .error .negativeCoinAmount
      else if limit.amount = amount.amount then .ok ⟨true, true, none⟩
      else .ok ⟨true, false, some (stake url validators
        (some ⟨limit.denom, limit.amount - amount.amount⟩))⟩

def acceptSend (spendLimit : Coins) (allowList : List Address) (recipient : Address)
    (amount : Coins) : Except AcceptError AcceptResponse :=
  if ¬ amount ≤ spendLimit then .error .moreThanSpendLimit
  else if allowList ≠ [] ∧ recipient ∉ allowList then .error (.recipientNotAllowed recipient)
  else if spendLimit = amount then .ok ⟨true, true, none⟩
  else .ok ⟨true, false, some (send (spendLimit - amount) allowList)⟩

def allowsMemo (allowedPacketData : List String) (memo : String) : Bool :=
  if allowedPacketData = [] then memo == ""
  else allowedPacketData == ["*"] || allowedPacketData.contains memo

/-- What is left of the allocation, or nothing if the limit is not counted. -/
def acceptAllocation (allocation : Allocation) (receiver : String) (token : Coin) (memo : String) :
    Except AcceptError (Option Allocation) :=
  if allocation.allowList ≠ [] ∧ receiver ∉ allocation.allowList then .error .receiverNotAllowed
  else if allowsMemo allocation.allowedPacketData memo = false then .error .memoNotAllowed
  -- the sentinel for no limit
  else if allocation.spendLimit.get token.denom = maxUint256.val then .ok none
  else if allocation.spendLimit.get token.denom < token.amount then .error .moreThanSpendLimit
  else .ok (some { allocation with spendLimit := allocation.spendLimit - token.toCoins })

/-- The first allocation for the channel counts, and one that is used up is removed. -/
def acceptTransfer (allocations : List Allocation) (receiver sourcePort sourceChannel : String)
    (token : Coin) (memo : String) : Except AcceptError AcceptResponse :=
  let matching (allocation : Allocation) : Bool :=
    allocation.sourceChannel == sourceChannel && allocation.sourcePort == sourcePort
  match allocations.find? matching with
  | none => .error .noAllocation
  | some allocation => do
    match ← acceptAllocation allocation receiver token memo with
    | none => .ok ⟨true, false, none⟩
    | some left =>
      let others := allocations.eraseP matching
      if left.spendLimit.isZero then
        if others = [] then .ok ⟨true, true, none⟩
        else .ok ⟨true, false, some (transfer others)⟩
      else
        let index := allocations.findIdx matching
        .ok ⟨true, false, some (transfer (allocations.set index left))⟩

/-- Messages that an authorization is not for are rejected, except by a generic one. -/
def accept : Authorization → Msg → Except AcceptError AcceptResponse
  | convertToHaqq spendLimit, .convertToHaqq _ _ islmAmount =>
    spend convertToHaqq spendLimit islmAmount [⟨.islm, islmAmount⟩]
  | transferOwnership spendLimit, .transferOwnershipWithAmount _ _ amount =>
    if isZero amount then .error (.zeroAmount amount)
    else if isValid amount = false then .error (.invalidAmount amount)
    else spend transferOwnership spendLimit (totalTransferAmount amount) amount
  | mintHaqq spendLimit, .mintHaqq _ _ islmAmount =>
    spend mintHaqq spendLimit islmAmount [⟨.islm, islmAmount⟩]
  | mintHaqqByApplicationID applicationsList, .mintHaqqByApplication _ applicationId =>
    if applicationsList = [] then .error (.notInAllowList applicationId)
    else
      let remaining := applicationsList.filter (· ≠ applicationId)
      if applicationId ∉ applicationsList then .error (.notInAllowList applicationId)
      else if remaining = [] then .ok ⟨true, true, none⟩
      else .ok ⟨true, false, some (mintHaqqByApplicationID remaining)⟩
  | stake url validators maxTokens, .delegate _ validator amount =>
    acceptStake url validators maxTokens validator amount
  | stake url validators maxTokens, .undelegate _ validator amount =>
    acceptStake url validators maxTokens validator amount
  | stake url validators maxTokens, .beginRedelegate _ _ target amount =>
    acceptStake url validators maxTokens target amount
  | stake url validators maxTokens, .cancelUnbondingDelegation _ validator amount _ =>
    acceptStake url validators maxTokens validator amount
  | send spendLimit allowList, .send _ toAddress amount =>
    acceptSend spendLimit allowList toAddress amount
  | transfer allocations, .transfer _ receiver sourcePort sourceChannel token memo =>
    acceptTransfer allocations receiver sourcePort sourceChannel token memo
  | generic _, _ => .ok ⟨true, false, none⟩
  | auth, msg => .error (.unexpectedMsg auth.msgTypeURL msg.typeURL)

end Authorization

def AcceptResponse.replace (resp : AcceptResponse) (auth : Authorization) : Option Authorization :=
  if resp.delete then none else some (resp.updated.getD auth)

/-- Fails if there is no authorization or it refuses. -/
def useGrant : Option Authorization → Msg → Option (Option Authorization)
  | none, _ => none
  | some auth, msg =>
    match auth.accept msg with
    | .ok resp => if resp.accept then some (resp.replace auth) else none
    | .error _ => none

/-! ## What is left of a grant -/

structure AcceptResponse.Keeps (url : MsgURL) (resp : AcceptResponse) : Prop where
  accept : resp.accept = true
  msgTypeURL : ∀ auth, resp.updated = some auth → auth.msgTypeURL = url

variable {auth : Authorization} {url : MsgURL} {rebuild : Option Coin → Authorization}
  {spendLimit : Option Coin} {total : Int} {requested : List RawCoin} {resp : AcceptResponse}
  {msg : Msg}

namespace Authorization

theorem keeps_without_update (url : MsgURL) (delete : Bool) :
    AcceptResponse.Keeps url ⟨true, delete, none⟩ :=
  ⟨rfl, fun _ h => nomatch h⟩

theorem keeps_update (delete : Bool) (hurl : auth.msgTypeURL = url) :
    AcceptResponse.Keeps url ⟨true, delete, some auth⟩ :=
  ⟨rfl, fun _ h => Option.some.inj h ▸ hurl⟩

theorem keeps_deleteOr {c : Prop} [Decidable c] (hurl : auth.msgTypeURL = url)
    (h : (if c then Except.ok ⟨true, true, none⟩ else Except.ok ⟨true, false, some auth⟩ :
      Except AcceptError AcceptResponse) = .ok resp) : resp.Keeps url := by
  split at h
  · cases h
    exact keeps_without_update _ _
  · cases h
    exact keeps_update _ hurl

theorem keeps_spend (h : spend rebuild spendLimit total requested = .ok resp)
    (hurl : ∀ limit, (rebuild limit).msgTypeURL = url) : resp.Keeps url := by
  cases spendLimit with
  | none =>
    cases h
    exact keeps_without_update _ _
  | some limit =>
    simp only [spend, ite_error_ok] at h
    exact keeps_deleteOr (hurl _) h.2

theorem keeps_acceptStake {validators : Validators} {maxTokens : Option Coin} {validator : Address}
    {amount : Coin} (h : acceptStake url validators maxTokens validator amount = .ok resp) :
    resp.Keeps url := by
  cases maxTokens with
  | none =>
    simp only [acceptStake, ite_error_ok] at h
    cases h.2
    exact keeps_update _ rfl
  | some limit =>
    simp only [acceptStake, ite_error_ok] at h
    exact keeps_deleteOr rfl h.2.2

theorem keeps_acceptSend {spendLimit amount : Coins} {allowList : List Address}
    {recipient : Address} (h : acceptSend spendLimit allowList recipient amount = .ok resp) :
    resp.Keeps .send := by
  simp only [acceptSend, ite_error_ok] at h
  exact keeps_deleteOr rfl h.2.2

theorem keeps_acceptTransfer {allocations : List Allocation}
    {receiver sourcePort sourceChannel : String} {token : Coin} {memo : String}
    (h : acceptTransfer allocations receiver sourcePort sourceChannel token memo = .ok resp) :
    resp.Keeps .transfer := by
  unfold acceptTransfer at h
  dsimp only at h
  split at h
  · cases h
  · obtain ⟨left, -, h⟩ := except_bind_ok.mp h
    split at h
    · cases h
      exact keeps_without_update _ _
    · split at h
      · exact keeps_deleteOr rfl h
      · cases h
        exact keeps_update _ rfl

theorem keeps_accept (h : auth.accept msg = .ok resp) : resp.Keeps auth.msgTypeURL := by
  cases auth with
  | convertToHaqq spendLimit =>
    cases msg with
    | convertToHaqq sender receiver islmAmount => exact keeps_spend h fun _ => rfl
    | _ => cases h
  | transferOwnership spendLimit =>
    cases msg with
    | transferOwnershipWithAmount owner newOwner amount =>
      simp only [accept, ite_error_ok] at h
      exact keeps_spend h.2.2 fun _ => rfl
    | _ => cases h
  | mintHaqq spendLimit =>
    cases msg with
    | mintHaqq fromAddress toAddress islmAmount => exact keeps_spend h fun _ => rfl
    | _ => cases h
  | mintHaqqByApplicationID applicationsList =>
    cases msg with
    | mintHaqqByApplication fromAddress id =>
      simp only [accept, ite_error_ok] at h
      exact keeps_deleteOr (by rfl) h.2.2
    | _ => cases h
  | stake url validators maxTokens =>
    cases msg with
    | delegate delegator validator amount => exact keeps_acceptStake h
    | undelegate delegator validator amount => exact keeps_acceptStake h
    | beginRedelegate delegator source target amount => exact keeps_acceptStake h
    | cancelUnbondingDelegation delegator validator amount height => exact keeps_acceptStake h
    | _ => cases h
  | send spendLimit allowList =>
    cases msg with
    | send fromAddress toAddress amount => exact keeps_acceptSend h
    | _ => cases h
  | transfer allocations =>
    cases msg with
    | transfer sender receiver sourcePort sourceChannel token memo => exact keeps_acceptTransfer h
    | _ => cases h
  | generic url =>
    cases h
    exact keeps_without_update _ _

end Authorization

namespace Msg

def coins : Msg → List RawCoin
  | convertToHaqq _ _ islmAmount => [⟨.islm, islmAmount⟩]
  | transferOwnershipWithAmount _ _ amount => amount
  | mintHaqq _ _ islmAmount => [⟨.islm, islmAmount⟩]
  | send _ _ amount => (Tally.sorted amount.support).map fun denom => ⟨denom, amount.get denom⟩
  | transfer _ _ _ _ token _ => [⟨token.denom, token.amount⟩]
  | _ => []

/-- The value of a message over all denominations. -/
def value (msg : Msg) : Nat := (msg.coins.map fun coin => coin.amount.toNat).sum

def valueIn (denom : Denom) (msg : Msg) : Nat :=
  ((msg.coins.filter fun coin => coin.denom = denom).map fun coin => coin.amount.toNat).sum

def uses (applicationId : Nat) : Msg → Bool
  | mintHaqqByApplication _ id => id == applicationId
  | _ => false

def Counted (msg : Msg) : Prop := ∀ coin ∈ msg.coins, Authorization.counts coin = true

instance (msg : Msg) : Decidable msg.Counted := inferInstanceAs (Decidable (∀ _ ∈ _, _))

end Msg

variable {coins : List RawCoin}

namespace Authorization

/-- `⊤` if there is no spend limit. -/
def budget : Authorization → ℕ∞
  | convertToHaqq (some limit) => limit.amount
  | transferOwnership (some limit) => limit.amount
  | mintHaqq (some limit) => limit.amount
  | _ => ⊤

/-- How often an application id was granted; `⊤` for other messages. -/
def granted (applicationId : Nat) : Authorization → ℕ∞
  | mintHaqqByApplicationID applicationsList => applicationsList.count applicationId
  | _ => ⊤

def left (stored : Option Authorization) : ℕ∞ := stored.elim 0 budget

def leftOf (applicationId : Nat) (stored : Option Authorization) : ℕ∞ :=
  stored.elim 0 (granted applicationId)

/-! ### One message -/

theorem left_spend (hlimit : ∀ limit, (rebuild (some limit)).budget = limit.amount)
    (hunlimited : (rebuild none).budget = ⊤) (htotal : 0 ≤ total)
    (h : spend rebuild spendLimit total requested = .ok resp) :
    total.toNat + left (resp.replace (rebuild spendLimit)) ≤ (rebuild spendLimit).budget := by
  unfold spend at h
  cases spendLimit with
  | none => simp [hunlimited]
  | some limit =>
    simp only [ite_error_ok] at h
    obtain ⟨hle, h⟩ := h
    rw [hlimit]
    split at h
    · -- the limit is used up and the grant removed
      cases h
      have hused : total.toNat = limit.amount := by omega
      simp [AcceptResponse.replace, left, hused]
    · cases h
      have hsum : total.toNat + (limit.amount - total).toNat = limit.amount := by omega
      simp only [AcceptResponse.replace, left, Bool.false_eq_true, if_false, Option.getD_some,
        Option.elim_some, hlimit]
      exact_mod_cast hsum.le

theorem totalTransferAmount_eq (amount : List RawCoin) :
    totalTransferAmount amount = ((amount.filter counts).map RawCoin.amount).sum := by
  have hloop : ∀ (rest : List RawCoin) (total : Int),
      rest.foldl (fun total coin => if counts coin then total + coin.amount else total) total =
        total + ((rest.filter counts).map RawCoin.amount).sum := by
    intro rest
    induction rest with
    | nil => simp
    | cons coin rest ih =>
      intro total
      rw [List.foldl_cons, ih]
      by_cases hcounts : counts coin = true
      · simp [hcounts, add_assoc]
      · simp [hcounts]
  rw [totalTransferAmount, hloop, zero_add]

theorem sum_toNat (h : ∀ coin ∈ coins, 0 < coin.amount) :
    (((coins.map fun coin => coin.amount.toNat).sum : Nat) : Int) =
      (coins.map RawCoin.amount).sum := by
  induction coins with
  | nil => rfl
  | cons coin rest ih =>
    have hcoin := h coin (by simp)
    have hrest := ih fun c hc => h c (by simp [hc])
    simp only [List.map_cons, List.sum_cons, Nat.cast_add, hrest]
    omega

theorem pos_of_isValid (h : isValid coins = true) : ∀ coin ∈ coins, 0 < coin.amount := by
  simp only [isValid, Bool.and_eq_true, List.all_eq_true, decide_eq_true_eq] at h
  exact h.2

theorem totalTransferAmount_of_counted {owner newOwner : Address} {amount : List RawCoin}
    (hvalid : isValid amount = true)
    (hcounted : (Msg.transferOwnershipWithAmount owner newOwner amount).Counted) :
    totalTransferAmount amount = (Msg.transferOwnershipWithAmount owner newOwner amount).value := by
  have hall : amount.filter counts = amount := List.filter_eq_self.mpr hcounted
  rw [totalTransferAmount_eq, hall]
  exact (sum_toNat (pos_of_isValid hvalid)).symm

theorem left_accept (hvalid : msg.validateBasic = true) (hcounted : msg.Counted)
    (h : auth.accept msg = .ok resp) : msg.value + left (resp.replace auth) ≤ auth.budget := by
  cases auth with
  | convertToHaqq spendLimit =>
    cases msg with
    | convertToHaqq sender receiver islmAmount =>
      have hpos : 0 < islmAmount := by simpa [Msg.validateBasic] using hvalid
      simpa [Msg.value, Msg.coins] using
        left_spend (fun _ => rfl) rfl hpos.le h
    | _ => cases h
  | transferOwnership spendLimit =>
    cases msg with
    | transferOwnershipWithAmount owner newOwner amount =>
      simp only [accept, ite_error_ok, totalTransferAmount_of_counted hvalid hcounted] at h
      simpa using left_spend (fun _ => rfl) rfl (by simp) h.2.2
    | _ => cases h
  | mintHaqq spendLimit =>
    cases msg with
    | mintHaqq fromAddress toAddress islmAmount =>
      have hpos : 0 < islmAmount := by simpa [Msg.validateBasic] using hvalid
      simpa [Msg.value, Msg.coins] using
        left_spend (fun _ => rfl) rfl hpos.le h
    | _ => cases h
  | _ => exact le_top

theorem leftOf_accept (applicationId : Nat) (h : auth.accept msg = .ok resp) :
    (if msg.uses applicationId then 1 else 0) + leftOf applicationId (resp.replace auth) ≤
      auth.granted applicationId := by
  cases auth with
  | mintHaqqByApplicationID applicationsList =>
    cases msg with
    | mintHaqqByApplication fromAddress id =>
      simp only [accept, ite_error_ok, not_not] at h
      obtain ⟨-, hmem, h⟩ := h
      have hremaining : (if id = applicationId then 1 else 0) +
          (applicationsList.filter (· ≠ id)).count applicationId ≤
            applicationsList.count applicationId := by
        split
        · rename_i heq
          subst heq
          have hpos := List.count_pos_iff.mpr hmem
          have hgone : (applicationsList.filter (· ≠ id)).count id = 0 :=
            List.count_eq_zero.mpr (by simp)
          omega
        · rw [zero_add]
          exact List.Sublist.count_le _ List.filter_sublist
      have hleft : leftOf applicationId (resp.replace (mintHaqqByApplicationID applicationsList)) =
          ((applicationsList.filter (· ≠ id)).count applicationId : Nat) := by
        split at h
        · rename_i hnil
          cases h
          rw [hnil]
          rfl
        · cases h
          rfl
      rw [hleft, Msg.uses, granted]
      simp only [beq_iff_eq]
      exact_mod_cast hremaining
    | _ => cases h
  | _ => exact le_top

end Authorization

open Authorization

variable {stored stored' : Option Authorization}

theorem useGrant_some (h : useGrant stored msg = some stored') :
    ∃ auth resp, stored = some auth ∧ auth.accept msg = .ok resp ∧ stored' = resp.replace auth := by
  cases stored with
  | none => cases h
  | some auth =>
    simp only [useGrant] at h
    split at h
    · rename_i resp hresp
      split at h
      · cases h
        exact ⟨auth, resp, rfl, hresp, rfl⟩
      · cases h
    · cases h

theorem left_useGrant (hmsg : msg.validateBasic = true ∧ msg.Counted)
    (h : useGrant stored msg = some stored') : msg.value + left stored' ≤ left stored := by
  obtain ⟨auth, resp, rfl, hresp, rfl⟩ := useGrant_some h
  exact left_accept hmsg.1 hmsg.2 hresp

theorem leftOf_useGrant (applicationId : Nat) (h : useGrant stored msg = some stored') :
    (if msg.uses applicationId then 1 else 0) + leftOf applicationId stored' ≤
      leftOf applicationId stored := by
  obtain ⟨auth, resp, rfl, hresp, rfl⟩ := useGrant_some h
  exact leftOf_accept applicationId hresp

theorem Msg.valueIn_le (denom : Denom) (msg : Msg) : msg.valueIn denom ≤ msg.value :=
  (List.filter_sublist.map _).sum_le_sum fun _ _ => Nat.zero_le _

theorem countP_uses (applicationId : Nat) (msgs : List Msg) :
    (msgs.countP (Msg.uses applicationId) : ℕ∞) =
      (msgs.map fun msg => if msg.uses applicationId then 1 else 0).sum := by
  induction msgs with
  | nil => rfl
  | cons msg rest ih =>
    rw [List.countP_cons, List.map_cons, List.sum_cons, ← ih, Nat.cast_add, add_comm]
    split <;> rfl

/-- However often a grant is used, the accepted messages move no more than the spend limit, and use
each application id no more often than it was granted. -/
theorem accepted_le_granted (auth : Authorization) (stored : Option Authorization)
    (msgs : List Msg) (hvalid : ∀ msg ∈ msgs, msg.validateBasic = true)
    (hcounted : ∀ msg ∈ msgs, msg.Counted)
    (haccepted : msgs.foldlM useGrant (some auth) = some stored) :
    ((msgs.map Msg.value).sum : ℕ) ≤ auth.budget ∧
    (∀ denom, ((msgs.map (Msg.valueIn denom)).sum : ℕ) ≤ auth.budget) ∧
    ∀ applicationId, (msgs.countP (Msg.uses applicationId) : ℕ) ≤ auth.granted applicationId := by
  have htotal : ((msgs.map Msg.value).sum : ℕ) ≤ auth.budget := by
    have hcost : (msgs.map fun msg => (msg.value : ℕ∞)).sum + left stored ≤ left (some auth) :=
      Run.cost_add_potential_le (fun _ _ _ => left_useGrant)
        (fun msg hmsg => ⟨hvalid msg hmsg, hcounted msg hmsg⟩) haccepted
    rw [Nat.cast_list_sum, List.map_map]
    exact le_self_add.trans hcost
  refine ⟨htotal, fun denom => ?_, fun applicationId => ?_⟩
  · have hle : (msgs.map (Msg.valueIn denom)).sum ≤ (msgs.map Msg.value).sum :=
      List.sum_le_sum fun msg _ => msg.valueIn_le denom
    exact le_trans (by exact_mod_cast hle) htotal
  · have hcost : (msgs.map fun msg => if msg.uses applicationId then (1 : ℕ∞) else 0).sum +
        leftOf applicationId stored ≤ leftOf applicationId (some auth) :=
      Run.cost_add_potential_le (P := fun _ => True)
        (fun _ _ _ _ h => leftOf_useGrant applicationId h) (fun _ _ => trivial) haccepted
    rw [← countP_uses] at hcost
    exact le_self_add.trans hcost

theorem limit30_used_up :
    (([.transferOwnershipWithAmount 1 2 [⟨.islm, 10⟩],
        .transferOwnershipWithAmount 1 3 [⟨.islm, 5⟩, ⟨.liquid 0, 15⟩]].map Msg.value).sum : ℕ) ≤
      (Authorization.transferOwnership (some ⟨.islm, 30⟩)).budget :=
  (accepted_le_granted (.transferOwnership (some ⟨.islm, 30⟩)) none
    [.transferOwnershipWithAmount 1 2 [⟨.islm, 10⟩],
      .transferOwnershipWithAmount 1 3 [⟨.islm, 5⟩, ⟨.liquid 0, 15⟩]]
    (by decide +kernel) (by decide +kernel) (by decide +kernel)).1

/-- Coins that do not count move without limit: a grant for 10 aISLM is still whole after a
transfer of 1000 aHAQQ. -/
theorem haqq_transfer_not_counted :
    (Msg.transferOwnershipWithAmount 1 2 [⟨.haqq, 1000⟩]).validateBasic = true ∧
    useGrant (some (.transferOwnership (some ⟨.islm, 10⟩)))
      (.transferOwnershipWithAmount 1 2 [⟨.haqq, 1000⟩]) =
        some (some (.transferOwnership (some ⟨.islm, 10⟩))) ∧
    ¬ (((Msg.transferOwnershipWithAmount 1 2 [⟨.haqq, 1000⟩]).valueIn .haqq : ℕ) : ℕ∞) ≤
      (Authorization.transferOwnership (some ⟨.islm, 10⟩)).budget := by
  refine ⟨by decide +kernel, by decide +kernel, ?_⟩
  rw [budget]
  exact_mod_cast (by decide +kernel)

end Haqq.Authz
