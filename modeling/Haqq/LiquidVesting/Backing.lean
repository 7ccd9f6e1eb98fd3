import Haqq.LiquidVesting.Effects
import Haqq.Lib.Run

/-!
# Liquid tokens are backed

In every run of liquidations, redemptions and transfers the schedules of the stored denominations
add up to the supply of the liquid tokens, and the module account holds their coins.

* `Backed` ties the stored schedules, the supplies, the counter and the module account together;
  `Backed.liquidate`, `Backed.redeem` and `Backed.transfer` are its step lemmas and `Backed.run` the
  induction over a run.
* `Backed.redeemable`: a redemption never fails for lack of backing.
* `liquidTokens_backed_of_run` starts from an empty module.

The counter is a `uint64` and `CreateDenom` does not look whether it wraps around, so everything is
said of runs that are too short for that.
-/

namespace Haqq.LiquidVesting

open Lib Lib.Schedule Vesting Function

variable {S : Type} {cfg : Config S} {st st' : ChainState S}

def liquidSupply (st : ChainState S) (id : Nat) : Nat := st.bank.supply.get (.liquid id)

/-- The schedule of every liquid token releases exactly its supply, and the module holds the coins
for all of them. -/
structure Backed (cfg : Config S) (st : ChainState S) : Prop where
  account : st.vestingAccount cfg.liquidModule = none
  schedule : ∀ id denom, st.modules.liquidVesting.denoms id = some denom →
    denom.originalDenom = .islm ∧
      total denom.lockupPeriods = Tally.single .islm (liquidSupply st id)
  stored : ∀ id, (st.modules.liquidVesting.denoms id).isSome = true ↔ 0 < liquidSupply st id
  counter : ∀ id, st.modules.liquidVesting.denomCounter ≤ id →
    st.modules.liquidVesting.denoms id = none
  balance : ∑ id ∈ Finset.range st.modules.liquidVesting.denomCounter, liquidSupply st id ≤
    (st.bank.balance cfg.liquidModule).get .islm

variable {id : Nat} {denom : LiquidDenom} {liquidateFrom liquidateTo : Address} {amount : Nat}
  {va va' : ClawbackVestingAccount} {diff : Periods} {redeemFrom redeemTo : Address}
  {decreased : Periods}

namespace Backed

theorem supply_of_none (h : Backed cfg st) (hid : st.modules.liquidVesting.denoms id = none) :
    liquidSupply st id = 0 := by
  have := (h.stored id).not
  simp only [hid, Option.isSome_none, Bool.false_eq_true, not_false_eq_true, true_iff] at this
  omega

theorem lt_counter (h : Backed cfg st) (hstored : st.modules.liquidVesting.denoms id = some denom) :
    id < st.modules.liquidVesting.denomCounter := by
  by_contra hle
  rw [h.counter id (by omega)] at hstored
  cases hstored

/-! ## Liquidate -/

@[simp] theorem total_shortenFirst (d : Int) (ps : Periods) :
    total (shortenFirst d ps) = total ps := by
  cases ps <;> simp [shortenFirst]

section

variable {amount : Coin} (h : Backed cfg st)
  (heffect : LiquidateEffect cfg liquidateFrom liquidateTo amount st st' va va' diff)

include h heffect

theorem liquidateFrom_ne : cfg.liquidModule ≠ liquidateFrom := by
  rintro hmodule
  have := heffect.account
  rw [← hmodule, h.account] at this
  cases this

theorem liquidate_bank :
    (∀ id, liquidSupply st' id = liquidSupply st id +
      if id = st.modules.liquidVesting.denomCounter then amount.amount else 0) ∧
    (st'.bank.balance cfg.liquidModule).get .islm =
      (st.bank.balance cfg.liquidModule).get .islm + amount.amount := by
  obtain ⟨locked, locked', bank, hsend, hsend'⟩ := heffect.bank
  have hne := h.liquidateFrom_ne heffect
  have hdenom := heffect.denom
  refine ⟨fun id => ?_, ?_⟩
  · rw [liquidSupply, Ledger.supply_send hsend', Ledger.supply_mint, Ledger.supply_send hsend,
      Tally.get_add, Tally.get_single, liquidSupply]
    simp
  · have h₁ := Ledger.balance_send hsend cfg.liquidModule .islm
    have h₂ := Ledger.balance_send hsend' cfg.liquidModule .islm
    simp only [Ledger.balance_mint, Tally.get_single, Coin.toCoins, hdenom, hne, if_true, if_false,
      add_zero, reduceCtorEq, ite_self] at h₁ h₂
    omega

theorem liquidate (hpos : 0 < amount.amount)
    (hroom : st.modules.liquidVesting.denomCounter + 1 < 2 ^ 64) : Backed cfg st' := by
  obtain ⟨hsupply, hbalance⟩ := h.liquidate_bank heffect
  have hne := h.liquidateFrom_ne heffect
  obtain ⟨decreased, _, _, hsub, _⟩ := heffect.liquidates.schedules
  obtain ⟨_, htotal, _⟩ := subtractAmountFromPeriods_spec hsub
  -- the id of the new denomination was free
  have hfree := h.counter _ le_rfl
  have hzero := h.supply_of_none hfree
  have hcounter := heffect.counter
  rw [Nat.mod_eq_of_lt hroom] at hcounter
  refine ⟨?_, fun id denom hdenom => ?_, fun id => ?_, fun id hid => ?_, ?_⟩
  · rw [heffect.kept.vesting _ (by simpa using hne), h.account]
  · rw [heffect.denoms] at hdenom
    by_cases hid : id = st.modules.liquidVesting.denomCounter
    · subst hid
      rw [update_self] at hdenom
      cases hdenom
      refine ⟨rfl, ?_⟩
      rw [liquidatedDenom, newDenom, total_shortenFirst, htotal, hsupply, hzero, if_pos rfl,
        zero_add, Coin.toCoins,
        heffect.denom]
    · rw [update_of_ne hid] at hdenom
      rw [hsupply, if_neg hid, add_zero]
      exact h.schedule id denom hdenom
  · rw [heffect.denoms, hsupply]
    by_cases hid : id = st.modules.liquidVesting.denomCounter
    · subst hid
      simp [hpos]
    · rw [update_of_ne hid, if_neg hid, add_zero, h.stored]
  · rw [hcounter] at hid
    rw [heffect.denoms, update_of_ne (by omega)]
    exact h.counter id (by omega)
  · have hsum : ∑ id ∈ Finset.range st.modules.liquidVesting.denomCounter, liquidSupply st' id =
        ∑ id ∈ Finset.range st.modules.liquidVesting.denomCounter, liquidSupply st id :=
      Finset.sum_congr rfl fun id hid => by
        rw [hsupply, if_neg (by have := Finset.mem_range.mp hid; omega), add_zero]
    have hbacked := h.balance
    rw [hcounter, Finset.sum_range_succ, hsum, hsupply, if_pos rfl, hzero, hbalance]
    omega

end

/-! ## Redeem -/

section

variable (h : Backed cfg st)
  (heffect : RedeemEffect cfg redeemFrom redeemTo id amount st st' denom decreased diff)

include h heffect

theorem redeem_bank :
    (∀ id', (liquidSupply st' id' + if id' = id then amount else 0) = liquidSupply st id') ∧
    (st.bank.balance cfg.liquidModule).get .islm ≤
      (st'.bank.balance cfg.liquidModule).get .islm + amount := by
  obtain ⟨hdenom, _⟩ := h.schedule id denom heffect.stored
  refine ⟨fun id' => ?_, ?_⟩
  · have hsupply := congrArg (fun x => x.get (.liquid id')) heffect.supply
    simp only [Tally.get_add, Tally.get_single, Denom.liquid.injEq] at hsupply
    exact hsupply
  · have hbalance := heffect.balance cfg.liquidModule .islm
    simp only [Tally.get_single, hdenom, if_true, add_zero, reduceCtorEq, if_false, ite_self]
      at hbalance
    omega

theorem redeem_schedule : total decreased = Tally.single .islm (liquidSupply st' id) := by
  obtain ⟨horiginal, htotal⟩ := h.schedule id denom heffect.stored
  have hsupply := (h.redeem_bank heffect).1 id
  rw [if_pos rfl] at hsupply
  obtain ⟨hsplits, hdiff, _⟩ := subtractAmountFromPeriods_spec heffect.split
  have hsum := hsplits.total_add
  rw [hdiff, htotal, Coin.toCoins, horiginal, ← hsupply, Tally.single_add] at hsum
  rw [← Tally.add_sub_cancel_right' (total decreased) (Tally.single .islm amount), hsum,
    Tally.add_sub_cancel_right']

theorem redeem (hblocked : cfg.blocked cfg.liquidModule = true) : Backed cfg st' := by
  obtain ⟨hsupply, hbalance⟩ := h.redeem_bank heffect
  obtain ⟨horiginal, _⟩ := h.schedule id denom heffect.stored
  have hid := h.lt_counter heffect.stored
  have hdecreased := h.redeem_schedule heffect
  have hzero : (total decreased).isZero = true ↔ liquidSupply st' id = 0 := by
    rw [hdecreased, Tally.isZero_iff]
    constructor
    · intro heq
      simpa using congrArg (fun x => x.get .islm) heq
    · rintro hz
      rw [hz, Tally.single_zero]
  refine ⟨?_, fun id' denom' hdenom' => ?_, fun id' => ?_, fun id' hid' => ?_, ?_⟩
  · rcases heffect.accounts with ⟨_, hkept⟩ | ⟨_, hkept, _⟩
    · rw [hkept.vesting _ (Set.notMem_empty _), h.account]
    · have hne : cfg.liquidModule ≠ redeemTo := by
        rintro hmodule
        have := heffect.notBlocked
        rw [← hmodule, hblocked] at this
        cases this
      rw [hkept.vesting _ (by simpa using hne), h.account]
  · rw [heffect.denoms] at hdenom'
    by_cases heq : id' = id
    · subst heq
      rw [update_self] at hdenom'
      split at hdenom'
      · cases hdenom'
      · cases hdenom'
        exact ⟨horiginal, hdecreased⟩
    · rw [update_of_ne heq] at hdenom'
      have := hsupply id'
      rw [if_neg heq, add_zero] at this
      rw [this]
      exact h.schedule id' denom' hdenom'
  · rw [heffect.denoms]
    by_cases heq : id' = id
    · subst heq
      rw [update_self]
      split
      · rename_i hz
        simp [hzero.mp hz]
      · rename_i hz
        rw [hzero] at hz
        simp [Nat.pos_of_ne_zero hz]
    · have := hsupply id'
      rw [if_neg heq, add_zero] at this
      rw [update_of_ne heq, this, h.stored]
  · rw [heffect.counter] at hid'
    rw [heffect.denoms, update_of_ne (by omega)]
    exact h.counter id' hid'
  · have hsum : ∑ id' ∈ Finset.range st.modules.liquidVesting.denomCounter,
          liquidSupply st' id' + amount =
        ∑ id' ∈ Finset.range st.modules.liquidVesting.denomCounter, liquidSupply st id' := by
      simp only [← hsupply, Finset.sum_add_distrib, Finset.sum_ite_eq', Finset.mem_range, hid,
        if_true]
    have hbacked := h.balance
    rw [heffect.counter]
    omega

end

/-! ## Transfers -/

theorem transfer {src dst : Address} {locked : Coins} (h : Backed cfg st)
    (kept : AccountsKept ∅ st st')
    (bank : st.bank.send locked src dst (Tally.single (.liquid id) amount) = some st'.bank)
    (modules : st'.modules = st.modules) : Backed cfg st' := by
  have hsupply : ∀ id', liquidSupply st' id' = liquidSupply st id' := fun id' => by
    rw [liquidSupply, liquidSupply, Ledger.supply_send bank]
  have hbalance := Ledger.balance_send bank cfg.liquidModule .islm
  simp only [Tally.get_single, reduceCtorEq, if_false, ite_self, add_zero] at hbalance
  refine ⟨?_, ?_, ?_, ?_, ?_⟩
  · rw [kept.vesting _ (Set.notMem_empty _), h.account]
  · simpa only [hsupply, modules] using h.schedule
  · simpa only [hsupply, modules] using h.stored
  · simpa only [modules] using h.counter
  · simpa only [hsupply, modules, hbalance] using h.balance

theorem step (hblocked : cfg.blocked cfg.liquidModule = true) {tx : Tx TokenMsg}
    (h : Backed cfg st) (hroom : st.modules.liquidVesting.denomCounter + 1 < 2 ^ 64) :
    Backed cfg (tokenStep cfg st tx) := by
  rcases tokenStep_cases cfg st tx with hkeep | heffect
  · rw [hkeep]
    exact h
  -- the invariant does not depend on the time of the block
  have hnow : Backed (cfg.atTime tx.blockTime) st := { h with }
  suffices hsuff : Backed (cfg.atTime tx.blockTime) (tokenStep cfg st tx) from { hsuff with }
  generalize tokenStep cfg st tx = st' at heffect
  generalize tx.msg = msg at heffect
  cases heffect with
  | liquidate hpos heffect => exact hnow.liquidate heffect hpos hroom
  | redeem _ heffect => exact hnow.redeem heffect hblocked
  | transfer kept bank modules => exact hnow.transfer kept bank modules

theorem denomCounter_step_le (cfg : Config S) (st : ChainState S) (tx : Tx TokenMsg) :
    (tokenStep cfg st tx).modules.liquidVesting.denomCounter ≤
      st.modules.liquidVesting.denomCounter + 1 := by
  rcases tokenStep_cases cfg st tx with hkeep | heffect
  · rw [hkeep]
    exact Nat.le_succ _
  generalize tokenStep cfg st tx = st' at heffect
  generalize tx.msg = msg at heffect
  cases heffect with
  | liquidate _ heffect =>
    rw [heffect.counter]
    exact Nat.mod_le _ _
  | redeem _ heffect =>
    rw [heffect.counter]
    exact Nat.le_succ _
  | transfer _ _ modules =>
    rw [modules]
    exact Nat.le_succ _

theorem run (hblocked : cfg.blocked cfg.liquidModule = true) (txs : List (Tx TokenMsg))
    (h : Backed cfg st) (hroom : st.modules.liquidVesting.denomCounter + txs.length < 2 ^ 64) :
    Backed cfg (Run.after (tokenStep cfg) st txs) := by
  induction txs generalizing st with
  | nil => exact h
  | cons tx txs ih =>
    rw [List.length_cons] at hroom
    have hle := denomCounter_step_le cfg st tx
    exact ih (h.step hblocked (by omega)) (by omega)

end Backed

/-- Once the liquid tokens are burned, `Redeem` finds a schedule that covers the amount, and the
module account can pay it out. -/
def Redeemable (cfg : Config S) (st : ChainState S) : Prop :=
  ∀ id amount denom redeemFrom redeemTo locked bank bank',
    st.modules.liquidVesting.denoms id = some denom →
    st.bank.send locked redeemFrom cfg.liquidModule (Tally.single (.liquid id) amount) = some bank →
    bank.burn cfg.liquidModule (Tally.single (.liquid id) amount) = some bank' →
    (subtractAmountFromPeriods denom.lockupPeriods ⟨denom.originalDenom, amount⟩).isSome = true ∧
      (bank'.send (lockedCoins cfg.toEnv st cfg.liquidModule) cfg.liquidModule redeemTo
        (Tally.single denom.originalDenom amount)).isSome = true

theorem Backed.redeemable (h : Backed cfg st) : Redeemable cfg st := by
  intro id amount denom redeemFrom redeemTo locked bank bank' hstored hsend hburn
  obtain ⟨horiginal, htotal⟩ := h.schedule id denom hstored
  have hpositive : 0 < liquidSupply st id := (h.stored id).mp (by simp [hstored])
  have hcovered : amount ≤ liquidSupply st id := by
    have hsupply := congrArg (fun x => x.get (.liquid id)) (Ledger.supply_burn hburn)
    simp only [Tally.get_add, Tally.get_single_self, Ledger.supply_send hsend] at hsupply
    rw [liquidSupply]
    omega
  have hschedule : (total denom.lockupPeriods).get denom.originalDenom = liquidSupply st id := by
    rw [htotal, horiginal, Tally.get_single_self]
  refine ⟨subtractAmountFromPeriods_isSome (by simp only; omega) (by simp only; omega), ?_⟩
  apply Ledger.send_isSome
  intro d
  rw [lockedCoins_eq_zero h.account, Tally.get_zero, zero_add, Tally.get_single, horiginal]
  split
  · rename_i hd
    subst hd
    -- the module's coins cover all liquid tokens, so this one as well
    have hid := Finset.mem_range.mpr (h.lt_counter hstored)
    have hsum := Finset.single_le_sum (f := liquidSupply st) (fun _ _ => Nat.zero_le _) hid
    have hbalance := h.balance
    have h₁ := Ledger.balance_send hsend cfg.liquidModule .islm
    have h₂ := Ledger.balance_burn hburn cfg.liquidModule .islm
    simp only [Tally.get_single, add_zero, reduceCtorEq, if_false, ite_self] at h₁ h₂
    omega
  · exact Nat.zero_le _

/-! ## Runs -/

structure EmptyModule (cfg : Config S) (st : ChainState S) : Prop where
  account : st.vestingAccount cfg.liquidModule = none
  denoms : ∀ id, st.modules.liquidVesting.denoms id = none
  supply : ∀ id, liquidSupply st id = 0

theorem EmptyModule.backed (h : EmptyModule cfg st) : Backed cfg st where
  account := h.account
  schedule id denom hdenom := by simp [h.denoms] at hdenom
  stored id := by simp [h.denoms, h.supply]
  counter id _ := h.denoms id
  balance := by simp [h.supply]

/-- In every run in which the counter does not wrap around, the schedule of a denomination adds up
to the supply of its token, and the module account holds the coins of all liquid tokens, so that
every redemption is covered. -/
theorem liquidTokens_backed_of_run (cfg : Config S) (st : ChainState S) (txs : List (Tx TokenMsg))
    (hblocked : cfg.blocked cfg.liquidModule = true) (hst : EmptyModule cfg st)
    (hroom : st.modules.liquidVesting.denomCounter + txs.length < 2 ^ 64)
    (st' : ChainState S) (hst' : st' = Run.after (tokenStep cfg) st txs) :
    (∀ id denom, st'.modules.liquidVesting.denoms id = some denom →
      denom.originalDenom = .islm ∧
        total denom.lockupPeriods = Tally.single .islm (liquidSupply st' id)) ∧
    (∀ id, (st'.modules.liquidVesting.denoms id).isSome = true ↔ 0 < liquidSupply st' id) ∧
    (∀ id, 0 < liquidSupply st' id → id < st'.modules.liquidVesting.denomCounter) ∧
    (∑ id ∈ Finset.range st'.modules.liquidVesting.denomCounter, liquidSupply st' id ≤
      (st'.bank.balance cfg.liquidModule).get .islm) ∧
    Redeemable cfg st' ∧
    st'.modules.liquidVesting.denoms st'.modules.liquidVesting.denomCounter = none := by
  have hbacked : Backed cfg st' := by
    rw [hst']
    exact hst.backed.run hblocked txs hroom
  refine ⟨hbacked.schedule, hbacked.stored, fun id hid => ?_, hbacked.balance, hbacked.redeemable,
    hbacked.counter _ le_rfl⟩
  by_contra hle
  have := (hbacked.stored id).mpr hid
  simp [hbacked.counter id (by omega)] at this

def lockedState : ChainState Unit :=
  (genesis.setAccount 2 ⟨1, 0, .clawback 0 (newClawbackVestingAccount 1 (Tally.single .islm 10) 0
    [⟨10, Tally.single .islm 10⟩] [⟨0, Tally.single .islm 10⟩])⟩).setBank
    (genesis.bank.mint 2 (Tally.single .islm 10))

theorem lockedState_emptyModule : EmptyModule localConfig lockedState where
  account := by decide
  denoms _ := rfl
  supply _ := rfl

def tokenRun : List (Tx TokenMsg) :=
  [⟨5, .liquidate 2 3 ⟨.islm, 4⟩⟩, ⟨6, .transfer 3 4 0 3⟩, ⟨7, .redeem 4 5 ⟨.liquid 0, 3⟩⟩]

theorem tokenRun_backed :
    liquidSupply (Run.after (tokenStep localConfig) lockedState tokenRun) 0 = 1 ∧
      Redeemable localConfig (Run.after (tokenStep localConfig) lockedState tokenRun) :=
  ⟨by decide +kernel, (liquidTokens_backed_of_run localConfig lockedState tokenRun (by decide)
    lockedState_emptyModule (by decide) _ rfl).2.2.2.2.1⟩

end Haqq.LiquidVesting
