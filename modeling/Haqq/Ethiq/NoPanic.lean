import Haqq.Ethiq.Effects

/-!
# Where a burn can panic

The panics of a burn are subtractions of coins: of the released coins from the original vesting,
which a balanced account covers, and of the coins burned by applications from the position on the
curve.
-/

namespace Haqq

open Lib Lib.Schedule

namespace Bank

variable {M : Type} {env : Env} {st : Store M} {src dst module : Address} {coins : Coins}

theorem avoids_liftBank {err : KeeperError} {f : Store M → Option (Ledger Address Denom)}
    (herr : err ≠ .panic) : Avoids .panic (liftBank err f) st := by
  unfold liftBank
  refine .bind .get fun s _ _ => ?_
  split
  · exact .modify _
  · exact .throw herr

theorem avoids_sendCoins : Avoids .panic (sendCoins env src dst coins) st := by
  refine .bind (avoids_liftBank (by decide)) fun _ _ _ => ?_
  exact .of_ok (run_createIfMissing dst)

theorem avoids_sendCoinsFromModuleToAccount :
    Avoids .panic (sendCoinsFromModuleToAccount env module dst coins) st :=
  .bind (.ensure fun _ => by decide) fun _ _ _ => avoids_sendCoins

end Bank

/-! ## Redeeming -/

variable {S : Type} {cfg : Config S} {st st' : ChainState S} {u : Unit}

namespace Vesting

theorem avoids_applyVestingSchedule {funder funded : Address} {coins : Coins} {startTime : Int}
    {lockupPeriods vestingPeriods : Periods} {merge : Bool} :
    Avoids .panic (applyVestingSchedule cfg funder funded coins startTime lockupPeriods
      vestingPeriods merge) st := by
  refine .bind .get fun s _ _ => ?_
  split
  · refine .bind (.of_ok rfl) fun _ _ _ => ?_
    exact .modify _
  · split
    · exact .throw (by decide)
    · exact .modify _
    · refine .bind (.ensure fun _ => by decide) fun _ _ _ => ?_
      refine .bind (.ensure fun _ => by decide) fun _ _ _ => ?_
      refine .bind ?_ fun _ _ _ => .modify _
      exact .bind .get fun _ _ _ => .ofOption fun _ => by decide

end Vesting

variable {id : Nat} {fromAddress toAddress : Address}

namespace LiquidVesting

open Vesting

theorem avoids_saveDenomPeriods {decreasedPeriods : Periods} :
    Avoids .panic (saveDenomPeriods id decreasedPeriods) st := by
  unfold saveDenomPeriods
  split
  · refine .bind (.modify _) fun _ _ _ => .bind .get fun _ _ _ => ?_
    exact .bind (.ofOption fun _ => by decide) fun _ _ _ => .modify _
  · refine .bind .get fun _ _ _ => ?_
    exact .bind (.ofOption fun _ => by decide) fun _ _ _ => .modify _

theorem avoids_redeemDenom {amount : Nat} :
    Avoids .panic (redeemDenom cfg fromAddress toAddress id amount) st := by
  refine .bind .get fun _ _ _ => ?_
  refine .bind (.ensure fun _ => by decide) fun _ _ _ => ?_
  refine .bind (.ensure fun _ => by decide) fun _ _ _ => ?_
  refine .bind (.ofOption fun _ => by decide) fun denom _ _ => ?_
  refine .bind (.ensure fun _ => by decide) fun _ _ _ => ?_
  refine .bind (.ensure fun _ => by decide) fun _ _ _ => ?_
  refine .bind Bank.avoids_sendCoins fun _ _ _ => ?_
  refine .bind (Bank.avoids_liftBank (by decide)) fun _ _ _ => ?_
  refine .bind (.ofOption fun _ => by decide) fun periods _ _ => ?_
  refine .bind avoids_saveDenomPeriods fun _ _ _ => ?_
  refine .bind Bank.avoids_sendCoinsFromModuleToAccount fun _ _ _ => ?_
  split
  · exact .pure ()
  · refine .bind .get fun _ _ _ => .bind (.ofOption fun _ => by decide) fun _ _ _ => ?_
    exact avoids_applyVestingSchedule

theorem avoids_redeem {amount : Coin} :
    Avoids .panic (redeem cfg fromAddress toAddress amount) st := by
  unfold redeem
  split
  · exact avoids_redeemDenom
  · refine .bind .get fun _ _ _ => .bind (.ensure fun _ => by decide) fun _ _ _ => ?_
    exact .throw (by decide)

end LiquidVesting

/-! ## Burning -/

variable {payer : Address} {amt islmAmount haqqAmount : Nat}

namespace Ethiq

open Vesting LiquidVesting

theorem avoids_redeemLiquidCoins {addr : Address} {balances : List Coin} :
    Avoids .panic (redeemLiquidCoins cfg addr false balances) st :=
  .forM (fun _ => True) (fun _ _ _ _ => .bind avoids_redeem fun _ _ _ => .pure ())
    (fun _ _ _ _ _ _ => trivial) trivial

theorem avoids_unlockSchedule {now : Int} {va : ClawbackVestingAccount} (h : va.Balanced)
    (amt : Nat) : Avoids .panic (unlockSchedule now va amt) st := by
  unfold unlockSchedule
  rw [h.getVestingCoins_eq now, h.getLockedUpCoins_eq now]
  refine .bind (.pure _) fun vesting _ _ => ?_
  split
  · refine .bind_ofOption (fun hnone => by cases hnone) ?_
    rintro locked ⟨⟩
    split
    · exact .pure _
    · refine .bind (.ofOption fun _ => by decide) fun _ _ _ => ?_
      refine .bind (.ofOption fun _ => by decide) fun _ _ _ => ?_
      refine .bind (.ofOption fun hnone => ?_) fun _ _ _ => .pure _
      rw [subCoins, if_pos] at hnone
      · cases hnone
      · rw [Coin.toCoins, Tally.single_le_iff]
        exact (min_le_left _ _).trans (Nat.sub_le _ _)
  · exact .pure _

theorem avoids_unlockVestingCoins (h : ∀ va, st.vestingAccount payer = some va → va.Balanced) :
    Avoids .panic (unlockVestingCoins cfg payer amt) st := by
  refine .bind_get (.bind_ofOption (fun _ => by decide) fun acct hacct => ?_)
  split
  · rename_i codeHash va hkind
    refine .bind (avoids_unlockSchedule (h va (vestingAccount_eq hacct hkind)) amt) fun r _ _ => ?_
    split
    · exact .modify _
    · exact .pure ()
  · exact .pure ()

theorem calculateLoop_ne_panic (levels : List PriceLevel) (current rest minted : Nat) :
    calculateLoop levels current rest minted ≠ .error .panic := by
  fun_induction calculateLoop levels current rest minted with
  | case1 | case2 | case4 => exact fun h => by cases h
  | case3 _ _ _ _ _ _ _ ih => exact ih
  | case5 _ _ _ _ _ _ _ _ _ ih => exact ih

theorem calculateHaqqAmount_ne_panic (levels : List PriceLevel) (current rest : Nat) :
    calculateHaqqAmount levels current rest ≠ .error .panic := by
  unfold calculateHaqqAmount
  split
  · rename_i e hloop
    exact fun h => calculateLoop_ne_panic levels current rest 0 (hloop.trans (by cases h; rfl))
  · split_ifs <;> exact fun h => by cases h

def Positioned (cfg : Config S) (ethiq : State) : Prop :=
  ∃ sum, getSumOfAllApplications cfg = some sum ∧
    ethiq.totalBurnedFromApplications ≤ ethiq.totalBurned + sum

theorem avoids_calculateHaqqCoinsToMint (h : Positioned cfg st.modules.ethiq) :
    Avoids .panic (calculateHaqqCoinsToMint cfg islmAmount) st := by
  obtain ⟨sum, hsum, hle⟩ := h
  refine .bind_get (.bind_ensure (fun _ => by decide) fun _ => ?_)
  refine .bind_ensure (fun _ => by decide) fun _ => ?_
  rw [hsum]
  refine .bind_ofOption (fun hnone => by cases hnone) ?_
  rintro _ ⟨⟩
  refine .bind_ensure (fun hnot => absurd hle hnot) fun _ => .runExcept ?_
  exact calculateHaqqAmount_ne_panic _ _ _

theorem calculateHaqqCoinsToMint_unchanged :
    Relates Eq (calculateHaqqCoinsToMint cfg islmAmount) :=
  .bind .get fun _ => .bind (.ensure _ _) fun _ => .bind (.ensure _ _) fun _ =>
    .bind (.ofOption _ _) fun _ => .bind (.ensure _ _) fun _ => .runExcept _

theorem checkAmountToBeMinted_unchanged : Relates Eq (checkAmountToBeMinted amt : ModuleM S Unit) :=
  .bind .get fun _ => .bind (.ensure _ _) fun _ => .bind (.ensure _ _) fun _ =>
    .bind (.ensure _ _) fun _ => .ensure _ _

theorem avoids_checkAmountToBeMinted : Avoids .panic (checkAmountToBeMinted amt) st := by
  refine .bind .get fun _ _ _ => ?_
  refine .bind (.ensure fun _ => by decide) fun _ _ _ => ?_
  refine .bind (.ensure fun _ => by decide) fun _ _ _ => ?_
  refine .bind (.ensure fun _ => by decide) fun _ _ _ => ?_
  exact .ensure fun _ => by decide

theorem avoids_exchange {isApplication : Bool}
    (h : ∀ va, st.vestingAccount payer = some va → va.Balanced) :
    Avoids .panic (exchange cfg payer toAddress islmAmount haqqAmount isApplication false) st := by
  refine .bind avoids_checkAmountToBeMinted fun _ _ hcheck => ?_
  obtain rfl := checkAmountToBeMinted_unchanged _ _ _ hcheck
  refine .bind (.bind_get avoids_redeemLiquidCoins) fun _ redeemed hredeem => ?_
  have hredeemed : ∀ va, redeemed.vestingAccount payer = some va → va.Balanced := by
    obtain ⟨_, _, hget, hredeem⟩ := run_bind_ok.mp hredeem
    obtain ⟨rfl, rfl⟩ := run_get_ok.mp hget
    exact redeemed_balanced hredeem h
  refine .bind (avoids_unlockVestingCoins hredeemed) fun _ _ _ => ?_
  refine .bind (.bind Bank.avoids_sendCoins fun _ _ _ => ?_) fun _ _ _ => ?_
  · exact .bind (Bank.avoids_liftBank (by decide)) fun _ _ _ => .modify _
  · exact .bind (.modify _) fun _ _ _ => Bank.avoids_sendCoinsFromModuleToAccount

theorem avoids_burnIslmForHaqq (hpositioned : Positioned cfg st.modules.ethiq)
    (hbalanced : ∀ va, st.vestingAccount fromAddress = some va → va.Balanced) :
    Avoids .panic (burnIslmForHaqq cfg islmAmount fromAddress toAddress) st := by
  refine .bind_get (.bind_ensure (fun _ => by decide) fun _ => ?_)
  refine .bind_ensure (fun _ => by decide) fun _ => ?_
  refine .bind (avoids_calculateHaqqCoinsToMint hpositioned) fun haqqAmount _ hcalculate => ?_
  obtain rfl := calculateHaqqCoinsToMint_unchanged _ _ _ hcalculate
  exact .bind (avoids_exchange hbalanced) fun _ _ _ => .pure _

end Ethiq

end Haqq
