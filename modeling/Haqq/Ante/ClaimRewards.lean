import Haqq.Staking.Effects

/-!
# Claiming rewards for a fee

`app/ante/utils/claim_rewards.go`: an account whose balance does not cover a fee has rewards of its
delegations withdrawn until they make up for what is missing.  The balance includes locked coins,
and the rewards go to the withdraw address.

* `IsShortestPrefix` says how many delegations are withdrawn from.
* `claimStakingRewards_covers_iff` says when the fee is covered after a claim.
-/

namespace Haqq.Ante

open Lib

section ShortestPrefix

variable {α : Type} (f : α → Nat)

structure IsShortestPrefix (amount : Nat) (l pre : List α) : Prop where
  isPrefix : pre <+: l
  reaches : amount ≤ (pre.map f).sum
  shortest : ∀ other, other <+: l → amount ≤ (other.map f).sum → pre <+: other

variable {f} {amount : Nat} {a : α} {l pre pre' : List α}

theorem IsShortestPrefix.nil : IsShortestPrefix f 0 l [] :=
  ⟨List.nil_prefix, Nat.zero_le _, fun _ _ _ => List.nil_prefix⟩

theorem IsShortestPrefix.cons (hpos : 0 < amount) (h : IsShortestPrefix f (amount - f a) l pre) :
    IsShortestPrefix f amount (a :: l) (a :: pre) := by
  refine ⟨(List.prefix_cons_inj a).mpr h.isPrefix, ?_, fun other hother hreaches => ?_⟩
  · have := h.reaches
    simp only [List.map_cons, List.sum_cons]
    omega
  · cases other with
    | nil =>
      simp only [List.map_nil, List.sum_nil] at hreaches
      omega
    | cons b other =>
      obtain ⟨rfl, htail⟩ := List.cons_prefix_cons.mp hother
      simp only [List.map_cons, List.sum_cons] at hreaches
      exact (List.prefix_cons_inj b).mpr (h.shortest other htail (by omega))

theorem IsShortestPrefix.unique (h : IsShortestPrefix f amount l pre)
    (h' : IsShortestPrefix f amount l pre') : pre = pre' :=
  (h.shortest pre' h'.isPrefix h'.reaches).eq_of_length_le
    (h'.shortest pre h.isPrefix h.reaches).length_le

theorem IsShortestPrefix.congr {g : α → Nat} (h : IsShortestPrefix f amount l pre)
    (hfg : ∀ a ∈ l, f a = g a) : IsShortestPrefix g amount l pre := by
  have hmap : ∀ other, other <+: l → other.map f = other.map g := fun other hother =>
    List.map_congr_left fun a ha => hfg a (hother.subset ha)
  refine ⟨h.isPrefix, hmap pre h.isPrefix ▸ h.reaches, fun other hother hreaches => ?_⟩
  exact h.shortest other hother (hmap other hother ▸ hreaches)

end ShortestPrefix

inductive ClaimError
  /-- "wrong fee denomination; got: %s; required: %s" -/
  | wrongDenom (amount : Coins)
  /-- "error while withdrawing delegation rewards" -/
  | withdraw (err : KeeperError)
  /-- "insufficient staking rewards to cover transaction fees" -/
  | insufficientRewards

abbrev ClaimM := EStateM ClaimError (ChainState SdkState)

variable (cfg : SdkConfig) (addr : Address)

/-- In the order of `IterateDelegations`. -/
def delegations (st : ChainState SdkState) : List Address :=
  Tally.sorted (st.staking.bonded addr).support

/-- The iteration of `ClaimSufficientStakingRewards`, with the rewards so far. -/
def withdrawUntil (amount : Nat) : List Address → Coins → SdkM Coins
  | [], rewards => pure rewards
  | validator :: rest, rewards => do
    let reward ← Distribution.withdrawDelegationRewards cfg addr validator
    let rewards := rewards + reward
    if amount ≤ rewards.get .islm then pure rewards else withdrawUntil amount rest rewards

def claimSufficientStakingRewards (amount : Nat) : ClaimM Unit := do
  let st ← get
  -- what the iteration does is written only at the end
  match (withdrawUntil cfg addr amount (delegations addr st) 0).run st with
  | .error err _ => throw (.withdraw err)
  | .ok rewards st' =>
    if rewards.get .islm < amount then throw .insufficientRewards else set st'

def claimStakingRewardsIfNecessary (amount : Coins) : ClaimM Unit := do
  let st ← get
  let fee := amount.get .islm
  let balance := (st.bank.balance addr).get .islm
  if fee = 0 then throw (.wrongDenom amount)
  else if fee ≤ balance then pure ()
  else claimSufficientStakingRewards cfg addr (fee - balance)

/-! ## Withdrawals -/

def withdrawEach (validators : List Address) : SdkM Unit :=
  validators.forM fun validator =>
    discard (Distribution.withdrawDelegationRewards cfg addr validator)

def earned (st : ChainState SdkState) (validator : Address) : Nat :=
  (st.distribution.rewards addr validator).get .islm

def spendable (st : ChainState SdkState) : Nat :=
  (st.bank.balance addr).get .islm - (lockedCoins cfg.toEnv st addr).get .islm

variable {cfg addr} {st st' : ChainState SdkState} {coins : Coins}

structure Withdrawn (cfg : SdkConfig) (addr : Address) (amount : Nat)
    (st st' : ChainState SdkState) : Prop where
  withdrawAddress : st'.distribution.withdrawAddress addr = st.distribution.withdrawAddress addr
  locked : lockedCoins cfg.toEnv st' addr = lockedCoins cfg.toEnv st addr
  balance :
    ((st'.bank.balance addr).get .islm + if addr = cfg.distributionModule then amount else 0) =
    (st.bank.balance addr).get .islm +
      if addr = st.distribution.withdrawAddress addr then amount else 0

theorem Withdrawn.refl : Withdrawn cfg addr 0 st st := ⟨rfl, rfl, by simp⟩

theorem Withdrawn.trans {st'' : ChainState SdkState} {m n : Nat} (h : Withdrawn cfg addr m st st')
    (h' : Withdrawn cfg addr n st' st'') : Withdrawn cfg addr (m + n) st st'' := by
  refine ⟨h'.withdrawAddress.trans h.withdrawAddress, h'.locked.trans h.locked, ?_⟩
  have hfirst := h.balance
  have hsecond := h'.balance
  rw [h.withdrawAddress] at hsecond
  split_ifs at hfirst hsecond ⊢ <;> omega

theorem lockedCoins_congr {a : Address} (h : st'.vestingAccount a = st.vestingAccount a) :
    lockedCoins cfg.toEnv st' a = lockedCoins cfg.toEnv st a := by
  cases hva : st.vestingAccount a with
  | none => rw [lockedCoins_eq_zero (h.trans hva), lockedCoins_eq_zero hva]
  | some va => rw [lockedCoins_eq (h.trans hva), lockedCoins_eq hva]

theorem withdrawDelegationRewards_ok {validator : Address}
    (h : (Distribution.withdrawDelegationRewards cfg addr validator).run st = .ok coins st') :
    coins = st.distribution.rewards addr validator ∧
      Withdrawn cfg addr (earned addr st validator) st st' ∧
      ∀ other ≠ validator, earned addr st' other = earned addr st other := by
  obtain ⟨rfl, heffect, hothers⟩ := Staking.withdrawChecked_effect h
  refine ⟨rfl, ⟨?_, lockedCoins_congr (heffect.vesting addr), heffect.balance addr .islm⟩,
    fun other hother => congrArg (fun coins : Coins => coins.get .islm) (hothers other hother)⟩
  rw [Distribution.State.withdrawAddress, heffect.withdrawAddr]
  rfl

theorem withdrawEach_ok {validators : List Address} (hnodup : validators.Nodup) {u : Unit}
    (h : (withdrawEach cfg addr validators).run st = .ok u st') :
    Withdrawn cfg addr (validators.map (earned addr st)).sum st st' := by
  induction validators generalizing st with
  | nil =>
    obtain rfl := run_forM_nil_ok.mp h
    exact .refl
  | cons validator rest ih =>
    obtain ⟨_, hfirst, hrest⟩ := run_forM_cons_ok.mp h
    obtain ⟨_, mid, hwithdraw, hend⟩ := run_bind_ok.mp hfirst
    obtain ⟨-, rfl⟩ := run_pure_ok.mp hend
    obtain ⟨-, hwithdrawn, hothers⟩ := withdrawDelegationRewards_ok hwithdraw
    rw [List.nodup_cons] at hnodup
    have hearned : rest.map (earned addr mid) = rest.map (earned addr st) :=
      List.map_congr_left fun v hv => hothers v (ne_of_mem_of_not_mem hv hnodup.1)
    have hlater := ih hnodup.2 hrest
    rw [hearned] at hlater
    exact hwithdrawn.trans hlater

theorem withdrawUntil_ok {amount : Nat} {validators : List Address} {rewards : Coins}
    (hnodup : validators.Nodup) (hmissing : rewards.get .islm < amount)
    (h : (withdrawUntil cfg addr amount validators rewards).run st = .ok coins st') :
    coins.get .islm < amount ∨
      ∃ pre, IsShortestPrefix (earned addr st) (amount - rewards.get .islm) validators pre ∧
        (withdrawEach cfg addr pre).run st = .ok () st' := by
  induction validators generalizing st rewards with
  | nil =>
    obtain ⟨rfl, -⟩ := run_pure_ok.mp h
    exact .inl hmissing
  | cons validator rest ih =>
    unfold withdrawUntil at h
    obtain ⟨reward, mid, hwithdraw, h⟩ := run_bind_ok.mp h
    obtain ⟨rfl, -, hothers⟩ := withdrawDelegationRewards_ok hwithdraw
    have hstep (pre : List Address) (hpre : (withdrawEach cfg addr pre).run mid = .ok () st') :
        (withdrawEach cfg addr (validator :: pre)).run st = .ok () st' :=
      run_forM_cons_ok.mpr ⟨mid, run_bind_ok.mpr ⟨_, _, hwithdraw, rfl⟩, hpre⟩
    have hpos : 0 < amount - rewards.get .islm := by omega
    simp only [Tally.get_add] at h
    split at h
    · rename_i hreached
      obtain ⟨-, rfl⟩ := run_pure_ok.mp h
      refine .inr ⟨[validator], .cons hpos ?_, hstep [] rfl⟩
      rw [show amount - rewards.get .islm - earned addr st validator = 0 by unfold earned; omega]
      exact .nil
    · rename_i hreached
      rw [List.nodup_cons] at hnodup
      rcases ih hnodup.2 (by rw [Tally.get_add]; omega) h with hbelow | ⟨pre, hpre, hrun⟩
      · exact .inl hbelow
      · refine .inr ⟨validator :: pre, .cons hpos ?_, hstep pre hrun⟩
        rw [Tally.get_add, ← Nat.sub_sub] at hpre
        exact hpre.congr fun v hv => hothers v (ne_of_mem_of_not_mem hv hnodup.1)

/-! ## What a claim does -/

theorem run_claimStakingRewardsIfNecessary (amount : Coins) :
    (∃ err, (claimStakingRewardsIfNecessary cfg addr amount).run st = .error err st) ∨
      ∃ pre, IsShortestPrefix (earned addr st)
          (amount.get .islm - (st.bank.balance addr).get .islm) (delegations addr st) pre ∧
        ∃ st', (withdrawEach cfg addr pre).run st = .ok () st' ∧
          (claimStakingRewardsIfNecessary cfg addr amount).run st = .ok () st' := by
  have hrun : (claimStakingRewardsIfNecessary cfg addr amount).run st =
      ((if amount.get .islm = 0 then throw (.wrongDenom amount)
        else if amount.get .islm ≤ (st.bank.balance addr).get .islm then pure ()
        else claimSufficientStakingRewards cfg addr
          (amount.get .islm - (st.bank.balance addr).get .islm) : ClaimM Unit)).run st := rfl
  rw [hrun]
  split
  · exact .inl ⟨_, rfl⟩
  split
  · rename_i hcovered
    rw [Nat.sub_eq_zero_of_le hcovered]
    exact .inr ⟨[], .nil, st, rfl, rfl⟩
  rename_i hmissing
  set missing := amount.get .islm - (st.bank.balance addr).get .islm with hmissing_def
  have hclaim : (claimSufficientStakingRewards cfg addr missing).run st =
      ((match (withdrawUntil cfg addr missing (delegations addr st) 0).run st with
        | .error err _ => throw (.withdraw err)
        | .ok rewards st' =>
          if rewards.get .islm < missing then throw .insufficientRewards else set st' :
          ClaimM Unit)).run st := rfl
  rw [hclaim]
  cases hloop : (withdrawUntil cfg addr missing (delegations addr st) 0).run st with
  | error err _ => exact .inl ⟨_, rfl⟩
  | ok rewards st' =>
    dsimp only
    split
    · exact .inl ⟨_, rfl⟩
    · rename_i henough
      have hpos : (0 : Coins).get .islm < missing := by
        rw [Tally.get_zero]
        omega
      rcases withdrawUntil_ok (Tally.nodup_sorted _) hpos hloop with hbelow | ⟨pre, hpre, hpaid⟩
      · exact absurd hbelow henough
      · exact .inr ⟨pre, hpre, st', hpaid, rfl⟩

variable (cfg addr) in
/-- What the account has unlocked covers the fee or, if the balance does not, the rewards go to the
account and make up for what is missing. -/
def Payable (fee : Nat) (st : ChainState SdkState) : Prop :=
  let balance := (st.bank.balance addr).get .islm
  let locked := (lockedCoins cfg.toEnv st addr).get .islm
  (fee ≤ balance → fee ≤ balance - locked) ∧
    (balance < fee → st.distribution.withdrawAddress addr = addr ∧ addr ≠ cfg.distributionModule ∧
      ∃ pre, IsShortestPrefix (earned addr st) (fee - balance) (delegations addr st) pre ∧
        fee ≤ balance + (pre.map (earned addr st)).sum - locked)

theorem spendable_iff_payable {fee : Nat} {pre : List Address}
    (hpre : IsShortestPrefix (earned addr st) (fee - (st.bank.balance addr).get .islm)
      (delegations addr st) pre)
    (hpaid : Withdrawn cfg addr (pre.map (earned addr st)).sum st st') :
    fee ≤ spendable cfg addr st' ↔ Payable cfg addr fee st := by
  have hbalance := hpaid.balance
  unfold spendable Payable
  rw [hpaid.locked]
  rcases Nat.lt_or_ge ((st.bank.balance addr).get .islm) fee with hmissing | hcovered
  · constructor
    · intro hspendable
      refine ⟨fun h => absurd h (by omega), fun _ => ?_⟩
      -- the balance has grown, so the rewards went to the account and not out of it
      split_ifs at hbalance with hmodule hself hself
      · omega
      · omega
      · exact ⟨hself.symm, hmodule, pre, hpre, by omega⟩
      · omega
    · rintro ⟨-, hpayable⟩
      obtain ⟨hself, hmodule, pre', hpre', hcovers⟩ := hpayable hmissing
      obtain rfl := hpre.unique hpre'
      rw [if_neg hmodule, if_pos hself.symm] at hbalance
      omega
  · have hnil : pre = [] := by
      rw [Nat.sub_eq_zero_of_le hcovered] at hpre
      exact hpre.unique .nil
    subst hnil
    simp only [List.map_nil, List.sum_nil, ite_self, Nat.add_zero] at hbalance
    rw [hbalance]
    constructor
    · intro hspendable
      exact ⟨fun _ => by omega, fun h => absurd h (by omega)⟩
    · rintro ⟨hpayable, -⟩
      have := hpayable hcovered
      omega

/-- A successful claim withdraws from the shortest prefix of the delegations that suffices, and then
the spendable balance covers the fee exactly if the account was able to pay. -/
theorem claimStakingRewards_covers_iff (amount : Coins) (st : ChainState SdkState) :
    (∀ st', (claimStakingRewardsIfNecessary cfg addr amount).run st = .ok () st' →
      (∃ pre, IsShortestPrefix (earned addr st)
          (amount.get .islm - (st.bank.balance addr).get .islm) (delegations addr st) pre ∧
        (withdrawEach cfg addr pre).run st = .ok () st') ∧
      (amount.get .islm ≤ spendable cfg addr st' ↔ Payable cfg addr (amount.get .islm) st)) ∧
    ∀ err st', (claimStakingRewardsIfNecessary cfg addr amount).run st = .error err st' →
      st' = st := by
  rcases run_claimStakingRewardsIfNecessary amount with ⟨err, hrun⟩ |
    ⟨pre, hpre, final, hpaid, hrun⟩
  · rw [hrun]
    constructor
    · intro st' h
      cases h
    · intro err' st' h
      cases h
      rfl
  · rw [hrun]
    constructor
    · intro st' h
      cases h
      have hwithdrawn :=
        withdrawEach_ok ((Tally.nodup_sorted _).sublist hpre.isPrefix.sublist) hpaid
      exact ⟨⟨pre, hpre, hpaid⟩, spendable_iff_payable hpre hwithdrawn⟩
    · intro err st' h
      cases h

def feePayers : ChainState SdkState :=
  let locked := Vesting.newClawbackVestingAccount 1 (Tally.single .islm 100) 0
    [⟨1000, Tally.single .islm 100⟩] [⟨1000, Tally.single .islm 100⟩]
  { sdkGenesis with
    accounts := Function.update
      (Function.update sdkGenesis.accounts 7 (some ⟨1, 0, .clawback 0 locked⟩))
      8 (some ⟨2, 0, .eth 0⟩)
    bank :=
      ⟨fun a => if a = 7 ∨ a = 103 then Tally.single .islm 100 else 0, Tally.single .islm 200⟩
    modules :=
      { sdkGenesis.modules with
        rest :=
          { sdkGenesis.modules.rest with
            staking := ⟨{50}, fun a => if a = 8 then Tally.single 50 1000 else 0, fun _ => 0⟩
            distribution :=
              ⟨fun a v => if a = 8 ∧ v = 50 then Tally.single .islm 100 else 0, fun _ => 0,
                fun a => if a = 8 then some 9 else none⟩ } } }

def claimsInVain (payer : Address) : Bool :=
  match (claimStakingRewardsIfNecessary sdkConfig payer (Tally.single .islm 60)).run feePayers with
  | .ok _ st' => decide (spendable sdkConfig payer st' < 60)
  | .error .. => false

/-- Both claims succeed: the locked balance counts for account 7, and the rewards of account 8
go to another account. -/
theorem claim_leaves_fee_uncovered : claimsInVain 7 = true ∧ claimsInVain 8 = true := by
  decide +kernel

def paidThemselves : ChainState SdkState :=
  feePayers.setDistribution { feePayers.distribution with withdrawAddr := fun _ => none }

theorem claim_covers_fee : ∃ st', (claimStakingRewardsIfNecessary sdkConfig 8
    (Tally.single .islm 60)).run paidThemselves = .ok () st' ∧ 60 ≤ spendable sdkConfig 8 st' := by
  obtain ⟨⟨⟩, st', hrun⟩ := exists_of_matches_ok (r := (claimStakingRewardsIfNecessary sdkConfig 8
    (Tally.single .islm 60)).run paidThemselves) (by decide +kernel)
  refine ⟨st', hrun, ((claimStakingRewards_covers_iff _ paidThemselves).1 st' hrun).2.mpr ?_⟩
  have hdelegations : delegations 8 paidThemselves = [50] := by decide +kernel
  have hprefix : IsShortestPrefix (earned 8 paidThemselves) 60
      (delegations 8 paidThemselves) [50] := by
    rw [hdelegations]
    exact .cons (by decide) .nil
  exact ⟨fun h => absurd h (by decide +kernel), fun _ => ⟨rfl, by decide, [50], hprefix,
    by decide +kernel⟩⟩

end Haqq.Ante
