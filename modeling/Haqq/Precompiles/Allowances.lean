import Haqq.Lib.CoinSet
import Haqq.Lib.Run
import Haqq.Types

/-!
# Allowances of the ERC-20 precompiles

`precompiles/erc20/approve.go` and `tx.go`: what a spender may move of an owner's tokens is the
spend limit of one bank authorization, shared by the precompiles of all tokens.  An approval of zero
fails if the grant has coins of other tokens only.

* `run_cases` says what each method does to the limits, `follows_iff` when it follows ERC-20.
* `allowances_follow_iff` is about whole runs.
-/

namespace Haqq.Precompiles.Erc20

open Lib Function

variable {D : Type} [LinearOrder D]

/-- The denominations `D` are in the order of their texts. -/
structure SendAuthorization (D : Type) where
  spendLimit : List (D × Nat)
  allowList : List Address
  deriving DecidableEq

inductive AllowanceError (D : Type)
  /-- "spender cannot be the owner" -/
  | spenderIsOwner
  /-- "cannot increase allowance with non-positive values" -/
  | increaseNonPositiveValue
  /-- "cannot decrease allowance with non-positive values" -/
  | decreaseNonPositiveValue
  /-- "amount %s causes integer overflow" -/
  | integerOverflow (amount : Nat)
  /-- "allowance for token %s does not exist" -/
  | noAllowanceForToken (denom : D)
  /-- "authorization to %s for address %s does not exist or is expired", wrapped in
  `ErrNoAllowanceForToken`. -/
  | authzDoesNotExist (grantee : Address) (denom : D)
  /-- "ERC20: decreased allowance below zero" -/
  | decreasedAllowanceBelowZero
  /-- "ERC20: insufficient allowance" -/
  | insufficientAllowance
  /-- `vm.ErrExecutionReverted`, for "integer overflow when increasing allowance". -/
  | executionReverted
  /-- "spend limit must be positive" -/
  | spendLimitNotPositive
  /-- "duplicate entry" of the allow list. -/
  | duplicateEntry
  /-- "cannot send to %s address" -/
  | cannotSendTo (recipient : Address)
  /-- `Coins.Validate` of the amount to transfer. -/
  | amountNotPositive (denom : D)
  | sendFailed
  deriving DecidableEq

abbrev Outcome (D : Type) := Except (AllowanceError D) (Option (SendAuthorization D))

/-- `GetAuthzExpirationAndAllowance`, and zero without an authorization. -/
def allowanceOf (grant : Option (SendAuthorization D)) (d : D) : Nat :=
  grant.elim 0 fun auth => CoinSet.amountOf d auth.spendLimit

/-- None if no coin has the denomination. -/
def replaceCoin (d : D) (x : Nat) : List (D × Nat) → Option (List (D × Nat))
  | [] => none
  | (e, y) :: rest =>
    if e = d then some ((d, x) :: rest) else (replaceCoin d x rest).map ((e, y) :: ·)

def updateOrAddCoin (coins : List (D × Nat)) (d : D) (x : Nat) : List (D × Nat) :=
  (replaceCoin d x coins).getD (CoinSet.add d x coins)

def validateBasic (auth : SendAuthorization D) : Except (AllowanceError D) Unit :=
  if auth.spendLimit = [] ∨ ∃ c ∈ auth.spendLimit, c.2 = 0 then .error .spendLimitNotPositive
  else if ¬ auth.allowList.Nodup then .error .duplicateEntry
  else .ok ()

def createAuthorization (d : D) (amount : Nat) : Outcome D :=
  if 2 ^ 256 ≤ amount then .error (.integerOverflow amount)
  else (validateBasic ⟨[(d, amount)], []⟩).map fun _ => some ⟨[(d, amount)], []⟩

def updateAuthorization (auth : SendAuthorization D) (d : D) (amount : Nat) : Outcome D :=
  let auth' := { auth with spendLimit := updateOrAddCoin auth.spendLimit d amount }
  (validateBasic auth').map fun _ => some auth'

def isZero (coins : List (D × Nat)) : Bool := coins.all (·.2 = 0)

def removeSpendLimitOrDeleteAuthorization (auth : SendAuthorization D) (d : D) : Outcome D :=
  match auth.spendLimit.find? (fun c => c.1 = d) with
  | none => .error (.noAllowanceForToken d)
  | some coin =>
    match CoinSet.safeSub coin.1 coin.2 auth.spendLimit with
    | none => .error .decreasedAllowanceBelowZero
    | some newSpendLimit =>
      if isZero newSpendLimit then .ok none
      else .ok (some { auth with spendLimit := newSpendLimit })

def increaseExisting (auth : SendAuthorization D) (d : D) (addedValue : Nat) : Outcome D :=
  let amount := CoinSet.amountOf d auth.spendLimit + addedValue
  if 2 ^ 256 ≤ amount then .error .executionReverted else updateAuthorization auth d amount

def decreaseExisting (auth : SendAuthorization D) (d : D) (subtractedValue : Nat) : Outcome D :=
  match auth.spendLimit.find? (fun c => c.1 = d) with
  | none => .error (.noAllowanceForToken d)
  | some coin =>
    if coin.2 < subtractedValue then .error .decreasedAllowanceBelowZero
    else updateAuthorization auth d (coin.2 - subtractedValue)

local instance lawfulBEqAddress : LawfulBEq Address := inferInstance

def accept (auth : SendAuthorization D) (recipient : Address) (d : D) (amount : Nat) : Outcome D :=
  match CoinSet.safeSub d amount auth.spendLimit with
  | none => .error .insufficientAllowance
  | some limitLeft =>
    if auth.allowList ≠ [] ∧ recipient ∉ auth.allowList then .error (.cannotSendTo recipient)
    else if isZero limitLeft then .ok none
    else .ok (some { auth with spendLimit := limitLeft })

section Calls

variable (owner spender : Address) (grant : Option (SendAuthorization D))

def approve (d : D) (amount : Uint256) : Outcome D :=
  if spender = owner then .error .spenderIsOwner
  else
    match grant with
    | none => if 0 < amount.val then createAuthorization d amount else .ok none
    | some auth =>
      if amount.val = 0 then removeSpendLimitOrDeleteAuthorization auth d
      else updateAuthorization auth d amount

def increaseAllowance (d : D) (addedValue : Uint256) : Outcome D :=
  if spender = owner then .error .spenderIsOwner
  else if addedValue.val = 0 then .error .increaseNonPositiveValue
  else
    match grant with
    | none => createAuthorization d addedValue
    | some auth => increaseExisting auth d addedValue

def decreaseAllowance (d : D) (subtractedValue : Uint256) : Outcome D :=
  if spender = owner then .error .spenderIsOwner
  else if subtractedValue.val = 0 then .error .decreaseNonPositiveValue
  else
    match grant with
    | none => .error (.authzDoesNotExist spender d)
    | some auth =>
      let current := CoinSet.amountOf d auth.spendLimit
      if subtractedValue.val < current then decreaseExisting auth d subtractedValue
      else if subtractedValue.val = current then removeSpendLimitOrDeleteAuthorization auth d
      else if current = 0 then .error (.noAllowanceForToken d)
      else .error .decreasedAllowanceBelowZero

/-- `sends` says whether the bank executes the message. -/
def transferFrom (recipient : Address) (d : D) (amount : Uint256) (sends : Bool) : Outcome D :=
  if amount.val = 0 then .error (.amountNotPositive d)
  else
    let dispatched : Outcome D :=
      if spender = owner then .ok grant
      else
        match grant with
        | none => .error .insufficientAllowance
        | some auth => accept auth recipient d amount
    dispatched.bind fun grant' => if sends then .ok grant' else .error .sendFailed

end Calls

inductive Call (D : Type)
  | approve (d : D) (amount : Uint256)
  | increaseAllowance (d : D) (addedValue : Uint256)
  | decreaseAllowance (d : D) (subtractedValue : Uint256)
  | transferFrom (recipient : Address) (d : D) (amount : Uint256) (sends : Bool)

def Call.run (owner spender : Address) (grant : Option (SendAuthorization D)) : Call D → Outcome D
  | approve d x => Erc20.approve owner spender grant d x
  | increaseAllowance d x => Erc20.increaseAllowance owner spender grant d x
  | decreaseAllowance d x => Erc20.decreaseAllowance owner spender grant d x
  | transferFrom recipient d x sends => Erc20.transferFrom owner spender grant recipient d x sends

def step (owner spender : Address) (grant : Option (SendAuthorization D)) (call : Call D) :
    Option (SendAuthorization D) :=
  (call.run owner spender grant).toOption.getD grant

/-! ## The allowance of one token is set -/

def ValidGrant (grant : Option (SendAuthorization D)) : Prop :=
  ∀ auth, grant = some auth → CoinSet.Valid auth.spendLimit ∧ auth.allowList.Nodup

def withAllowance (grant : Option (SendAuthorization D)) (d : D) (x : Nat) :
    Option (SendAuthorization D) :=
  let auth := grant.getD ⟨[], []⟩
  let coins := CoinSet.set d x auth.spendLimit
  if coins = [] then none else some { auth with spendLimit := coins }

variable {grant : Option (SendAuthorization D)} {auth : SendAuthorization D} {d : D} {x : Nat}

theorem ValidGrant.getD (h : ValidGrant grant) :
    CoinSet.Valid (grant.getD ⟨[], []⟩).spendLimit ∧ (grant.getD ⟨[], []⟩).allowList.Nodup := by
  cases grant with
  | none => exact ⟨⟨.nil, by simp⟩, .nil⟩
  | some auth => exact h auth rfl

theorem allowanceOf_eq_getD : allowanceOf grant d =
    CoinSet.amountOf d (grant.getD ⟨[], []⟩).spendLimit := by
  cases grant <;> rfl

theorem validGrant_withAllowance (h : ValidGrant grant) : ValidGrant (withAllowance grant d x) := by
  intro auth hauth
  rw [withAllowance] at hauth
  split at hauth
  · cases hauth
  · cases hauth
    exact ⟨CoinSet.valid_set h.getD.1, h.getD.2⟩

theorem allowanceOf_withAllowance (h : ValidGrant grant) :
    allowanceOf (withAllowance grant d x) = update (allowanceOf grant) d x := by
  funext e
  have hset := CoinSet.amountOf_set (d := d) (e := e) (x := x) h.getD.1
  have hcurrent : allowanceOf grant e = _ := allowanceOf_eq_getD
  rw [update_apply, hcurrent, ← hset, withAllowance]
  split
  · rename_i hnil
    rw [hnil]
    rfl
  · rfl

variable {coins : List (D × Nat)}

theorem replaceCoin_eq (h : CoinSet.Valid coins) (hx : 0 < x) :
    replaceCoin d x coins =
      if CoinSet.amountOf d coins = 0 then none else some (CoinSet.set d x coins) := by
  induction coins with
  | nil => rfl
  | cons b rest ih =>
    obtain ⟨⟨hlt, hpos⟩, hrest⟩ := CoinSet.valid_cons.mp h
    have hbelow : d < b.1 → CoinSet.amountOf d rest = 0 := fun hd =>
      CoinSet.amountOf_eq_zero fun c hc => (hd.trans (hlt c hc)).ne'
    rw [replaceCoin, ih hrest, CoinSet.amountOf, CoinSet.set]
    grind

theorem updateOrAddCoin_eq (h : CoinSet.Valid coins) (hx : 0 < x) :
    updateOrAddCoin coins d x = CoinSet.set d x coins := by
  rw [updateOrAddCoin, replaceCoin_eq h hx, CoinSet.add]
  split
  · rename_i hzero
    rw [hzero, Nat.zero_add, Option.getD_none]
  · rfl

theorem set_ne_nil (h : CoinSet.Valid coins) (hx : 0 < x) : CoinSet.set d x coins ≠ [] := by
  intro hnil
  have hset := CoinSet.amountOf_set (d := d) (e := d) (x := x) h
  rw [hnil, if_pos rfl] at hset
  exact hx.ne hset

theorem isZero_iff (h : CoinSet.Valid coins) : isZero coins = true ↔ coins = [] := by
  rw [isZero, List.all_eq_true]
  constructor
  · intro hall
    apply List.eq_nil_iff_forall_not_mem.mpr
    intro c hc
    exact (h.2 c hc).ne' (by simpa using hall c hc)
  · rintro rfl
    simp

theorem validateBasic_eq {coins : List (D × Nat)} {allowList : List Address}
    (h : CoinSet.Valid coins) (hnil : coins ≠ []) (hallow : allowList.Nodup) :
    validateBasic ⟨coins, allowList⟩ = .ok () := by
  have hpos : ¬ ∃ c ∈ coins, c.2 = 0 := fun ⟨c, hc, hzero⟩ => (h.2 c hc).ne' hzero
  rw [validateBasic, if_neg (not_or.mpr ⟨hnil, hpos⟩), if_neg (not_not.mpr hallow)]

theorem updateAuthorization_eq (h : ValidGrant (some auth)) (hx : 0 < x) :
    updateAuthorization auth d x = .ok (withAllowance (some auth) d x) := by
  obtain ⟨hcoins, hallow⟩ := h auth rfl
  have hnil := set_ne_nil (d := d) hcoins hx
  simp only [updateAuthorization, updateOrAddCoin_eq hcoins hx, withAllowance, Option.getD_some]
  rw [validateBasic_eq (CoinSet.valid_set hcoins) hnil hallow, if_neg hnil]
  rfl

theorem createAuthorization_eq (hx : 0 < x) (hlt : x < 2 ^ 256) :
    createAuthorization d x = .ok (withAllowance none d x) := by
  have hset : CoinSet.set d x [] = [(d, x)] := if_neg hx.ne'
  have hvalid : CoinSet.Valid [(d, x)] := hset ▸ CoinSet.valid_set ⟨.nil, by simp⟩
  rw [createAuthorization, if_neg (Nat.not_le.mpr hlt),
    validateBasic_eq hvalid (by simp) .nil]
  simp only [withAllowance, Option.getD_none, hset]
  rfl

theorem storeLeft_eq (h : ValidGrant (some auth)) :
    (if isZero (CoinSet.set d x auth.spendLimit) then .ok none
      else .ok (some { auth with spendLimit := CoinSet.set d x auth.spendLimit }) : Outcome D) =
      .ok (withAllowance (some auth) d x) := by
  simp only [isZero_iff (CoinSet.valid_set (h auth rfl).1), withAllowance, Option.getD_some]
  split <;> rfl

theorem remove_eq (h : ValidGrant (some auth)) : removeSpendLimitOrDeleteAuthorization auth d =
    if allowanceOf (some auth) d = 0 then .error (.noAllowanceForToken d)
    else .ok (withAllowance (some auth) d 0) := by
  have hcurrent : allowanceOf (some auth) d = CoinSet.amountOf d auth.spendLimit := rfl
  rw [removeSpendLimitOrDeleteAuthorization, CoinSet.find?_eq (h auth rfl).1, hcurrent]
  split_ifs with hzero
  · rfl
  · simp only [CoinSet.safeSub, Nat.lt_irrefl, if_false, Nat.sub_self, storeLeft_eq h]

/-! ## What each call does -/

variable {owner spender : Address} (howner : spender ≠ owner)

include howner

theorem approve_eq (h : ValidGrant grant) (x : Uint256) : approve owner spender grant d x =
    if x.val = 0 ∧ grant.isSome ∧ allowanceOf grant d = 0 then .error (.noAllowanceForToken d)
    else .ok (withAllowance grant d x) := by
  unfold approve
  rw [if_neg howner]
  cases grant with
  | none =>
    by_cases hx : x.val = 0
    · simp [hx, withAllowance, CoinSet.set]
    · simp [Nat.pos_of_ne_zero hx, createAuthorization_eq (Nat.pos_of_ne_zero hx) x.isLt]
  | some auth =>
    by_cases hx : x.val = 0
    · simp [hx, remove_eq h]
    · simp [hx, updateAuthorization_eq h (Nat.pos_of_ne_zero hx)]

theorem increaseAllowance_toOption (h : ValidGrant grant) (x : Uint256) :
    (increaseAllowance owner spender grant d x).toOption =
      if 0 < x.val ∧ allowanceOf grant d + x.val < 2 ^ 256 then
        some (withAllowance grant d (allowanceOf grant d + x.val)) else none := by
  unfold increaseAllowance
  rw [if_neg howner]
  by_cases hx : x.val = 0
  · simp only [hx, if_true, Nat.lt_irrefl, false_and, if_false]
    rfl
  have hpos := Nat.pos_of_ne_zero hx
  simp only [hx, if_false, hpos, true_and]
  cases grant with
  | none =>
    have hzero : allowanceOf (none : Option (SendAuthorization D)) d = 0 := rfl
    simp only [hzero, Nat.zero_add, x.isLt, if_true, createAuthorization_eq hpos x.isLt]
    rfl
  | some auth =>
    simp only [increaseExisting, allowanceOf_eq_getD, Option.getD_some]
    split_ifs with hover hlt hlt
    · omega
    · rfl
    · rw [updateAuthorization_eq h (Nat.add_pos_right _ hpos)]
      rfl
    · omega

theorem decreaseAllowance_toOption (h : ValidGrant grant) (x : Uint256) :
    (decreaseAllowance owner spender grant d x).toOption =
      if 0 < x.val ∧ x.val ≤ allowanceOf grant d then
        some (withAllowance grant d (allowanceOf grant d - x.val)) else none := by
  unfold decreaseAllowance
  rw [if_neg howner]
  by_cases hx : x.val = 0
  · simp only [hx, if_true, Nat.lt_irrefl, false_and, if_false]
    rfl
  have hpos := Nat.pos_of_ne_zero hx
  simp only [hx, if_false, hpos, true_and]
  cases grant with
  | none =>
    have hzero : allowanceOf (none : Option (SendAuthorization D)) d = 0 := rfl
    rw [hzero, if_neg (by omega)]
    rfl
  | some auth =>
    have hcurrent : allowanceOf (some auth) d = CoinSet.amountOf d auth.spendLimit := rfl
    simp only [decreaseExisting, CoinSet.find?_eq (h auth rfl).1, remove_eq h, ← hcurrent]
    rcases Nat.lt_trichotomy x.val (allowanceOf (some auth) d) with hlt | heq | hgt
    · have hne : allowanceOf (some auth) d ≠ 0 := by omega
      simp only [if_pos hlt, if_neg hne, if_neg hlt.asymm, if_pos hlt.le]
      rw [updateAuthorization_eq h (by omega)]
      rfl
    · simp only [← heq, Nat.lt_irrefl, if_false, if_true, Nat.le_refl, if_neg hx, Nat.sub_self]
      rfl
    · rw [if_neg hgt.asymm, if_neg hgt.ne', if_neg (Nat.not_le.mpr hgt)]
      split <;> rfl

theorem transferFrom_toOption (h : ValidGrant grant) (recipient : Address) (x : Uint256)
    (sends : Bool) :
    (transferFrom owner spender grant recipient d x sends).toOption = none ∨
      x.val ≤ allowanceOf grant d ∧
        (transferFrom owner spender grant recipient d x sends).toOption =
          some (withAllowance grant d (allowanceOf grant d - x.val)) := by
  unfold transferFrom
  by_cases hx : x.val = 0
  · exact .inl (by rw [if_pos hx]; rfl)
  rw [if_neg hx, if_neg howner]
  cases grant with
  | none => exact .inl rfl
  | some auth =>
    cases sends with
    | false =>
      left
      cases haccept : accept auth recipient d x <;> simp [haccept] <;> rfl
    | true =>
      have hcurrent : allowanceOf (some auth) d = CoinSet.amountOf d auth.spendLimit := rfl
      simp only [accept, CoinSet.safeSub, ← hcurrent]
      by_cases hle : x.val ≤ allowanceOf (some auth) d
      · simp only [Nat.not_lt.mpr hle, if_false, storeLeft_eq h]
        by_cases hallow : auth.allowList ≠ [] ∧ recipient ∉ auth.allowList
        · exact .inl (by rw [if_pos hallow]; rfl)
        · exact .inr ⟨hle, by rw [if_neg hallow]; rfl⟩
      · exact .inl (by rw [if_pos (Nat.not_le.mp hle)]; rfl)

omit howner

/-! ## Runs -/

/-- The ERC-20 standard for one call: the allowances it leaves, or none for a call that reverts. A
transfer may fail for other reasons than the allowance. -/
def Follows (allowances : D → Nat) : Call D → Option (D → Nat) → Prop
  | .approve d x, after => after = some (update allowances d x.val)
  | .increaseAllowance d x, after => after =
    if 0 < x.val ∧ allowances d + x.val < 2 ^ 256 then
      some (update allowances d (allowances d + x.val)) else none
  | .decreaseAllowance d x, after => after =
    if 0 < x.val ∧ x.val ≤ allowances d then
      some (update allowances d (allowances d - x.val)) else none
  | .transferFrom _ d x _, after => after = none ∨
    x.val ≤ allowances d ∧ after = some (update allowances d (allowances d - x.val))

def Removable (grant : Option (SendAuthorization D)) : Call D → Prop
  | .approve d x => x.val = 0 → grant = none ∨ allowanceOf grant d ≠ 0
  | _ => True

section

variable (h : ValidGrant grant)

include howner h

theorem run_cases (call : Call D) :
    (call.run owner spender grant).toOption = none ∨
      ∃ d x, (call.run owner spender grant).toOption = some (withAllowance grant d x) := by
  cases call with
  | approve d x =>
    rw [Call.run, approve_eq howner h]
    split
    · exact .inl rfl
    · exact .inr ⟨d, x, rfl⟩
  | increaseAllowance d x =>
    rw [Call.run, increaseAllowance_toOption howner h]
    grind
  | decreaseAllowance d x =>
    rw [Call.run, decreaseAllowance_toOption howner h]
    grind
  | transferFrom recipient d x sends =>
    rcases transferFrom_toOption howner h recipient x sends with hnone | ⟨-, hsome⟩
    · exact .inl hnone
    · exact .inr ⟨d, _, hsome⟩

theorem validGrant_step (call : Call D) : ValidGrant (step owner spender grant call) := by
  rw [step]
  rcases run_cases howner h call with hnone | ⟨d, x, hsome⟩
  · rw [hnone]
    exact h
  · rw [hsome]
    exact validGrant_withAllowance h

theorem follows_iff (call : Call D) :
    Follows (allowanceOf grant) call ((call.run owner spender grant).toOption.map allowanceOf) ↔
      Removable grant call := by
  have hset : ∀ d x,
      allowanceOf (withAllowance grant d x) = update (allowanceOf grant) d x :=
    fun d x => allowanceOf_withAllowance h
  cases call with
  | approve d x =>
    rw [Call.run, approve_eq howner h, Follows, Removable]
    split
    · rename_i hfails
      have hsome : grant ≠ none := Option.isSome_iff_ne_none.mp hfails.2.1
      simp [Except.toOption, hfails.1, hfails.2.2, hsome]
    · rename_i hok
      simp only [Except.toOption, Option.map_some, hset, true_iff]
      intro hx
      by_contra hnot
      rw [not_or, not_not] at hnot
      exact hok ⟨hx, Option.isSome_iff_ne_none.mpr hnot.1, hnot.2⟩
  | increaseAllowance d x =>
    simp only [Call.run, increaseAllowance_toOption howner h, Follows, Removable, iff_true]
    split <;> simp [hset]
  | decreaseAllowance d x =>
    simp only [Call.run, decreaseAllowance_toOption howner h, Follows, Removable, iff_true]
    split <;> simp [hset]
  | transferFrom recipient d x sends =>
    simp only [Call.run, Follows, Removable, iff_true]
    rcases transferFrom_toOption howner h recipient x sends with hnone | ⟨hle, hsome⟩
    · exact .inl (by rw [hnone]; rfl)
    · exact .inr ⟨hle, by rw [hsome, Option.map_some, hset]⟩

end

/-- Every call of a run follows the standard, exactly if every approval of zero finds no grant
or an allowance of its token, and the spend limit stays a valid set of coins. -/
theorem allowances_follow_iff (howner : spender ≠ owner) (h : ValidGrant grant)
    (calls : List (Call D)) :
    ValidGrant (Run.after (step owner spender) grant calls) ∧
      (Run.Along (step owner spender) (fun grant call => Follows (allowanceOf grant) call
          ((call.run owner spender grant).toOption.map allowanceOf)) grant calls ↔
        Run.Along (step owner spender) Removable grant calls) := by
  induction calls generalizing grant with
  | nil => exact ⟨h, Iff.rfl⟩
  | cons call rest ih =>
    obtain ⟨hvalid, hiff⟩ := ih (validGrant_step howner h call)
    exact ⟨hvalid, and_congr (follows_iff howner h call) hiff⟩

def twoTokens : List (Call Denom) :=
  [.approve .islm 10, .increaseAllowance .haqq 5, .transferFrom 3 .islm 4 true,
    .decreaseAllowance .haqq 5, .approve .islm 0, .approve .haqq 0]

theorem twoTokens_follow :
    Run.Along (step 1 2) Removable none twoTokens ∧
    ValidGrant (Run.after (step 1 2) none twoTokens) ∧
    Run.Along (step 1 2) (fun grant call => Follows (allowanceOf grant) call
      ((call.run 1 2 grant).toOption.map allowanceOf)) none twoTokens := by
  have hremovable : Run.Along (step 1 2) Removable none twoTokens := by
    refine ⟨fun hx => absurd hx (by decide), trivial, trivial, trivial, fun _ => .inr ?_,
      fun _ => .inl ?_, trivial⟩
    · decide
    · decide
  have hne : (2 : Address) ≠ 1 := by decide
  have hnone : ValidGrant (none : Option (SendAuthorization Denom)) := nofun
  obtain ⟨hvalid, hiff⟩ := allowances_follow_iff hne hnone twoTokens
  exact ⟨hremovable, hvalid, hiff.mpr hremovable⟩

theorem zero_not_approved :
    let grant := Run.after (step 1 2) none [Call.approve Denom.islm 5]
    (Call.approve .haqq 0).run 1 2 grant = .error (.noAllowanceForToken .haqq) ∧
      ¬ Follows (allowanceOf grant) (.approve .haqq 0)
        (((Call.approve .haqq 0).run 1 2 grant).toOption.map allowanceOf) := by
  have hrun : (Call.approve Denom.haqq 0).run 1 2
      (Run.after (step 1 2) none [Call.approve Denom.islm 5]) =
        .error (.noAllowanceForToken .haqq) := by decide
  refine ⟨hrun, ?_⟩
  rw [hrun]
  nofun

end Haqq.Precompiles.Erc20
