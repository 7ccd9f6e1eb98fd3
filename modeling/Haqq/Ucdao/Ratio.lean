import Haqq.Ucdao.Ledger

/-!
# Transferring a share of the coins in escrow

`MsgTransferOwnershipWithRatio` rounds the share of each coin down.  A share of zero stays in the
set of coins, and the bank refuses the whole set because of it.

* `shareOf_positive_iff`: when no share is rounded down to zero.
* `transferOwnershipWithRatio_moves_iff`: when the shares are moved.
-/

namespace Haqq.Ucdao

open Lib

variable {S : Type} {cfg : Config S}

theorem sumCoins_map_get {l : List Denom} (hl : l.Nodup) (amount : Denom → Nat) (d : Denom) :
    (sumCoins (l.map fun denom => ⟨denom, amount denom⟩)).get d =
      if d ∈ l then amount d else 0 := by
  induction l with
  | nil => rfl
  | cons denom l ih =>
    obtain ⟨hdenom, hl⟩ := List.nodup_cons.mp hl
    have hsum : (sumCoins ((denom :: l).map fun denom => ⟨denom, amount denom⟩)).get d =
        (Tally.single denom (amount denom)).get d +
          (sumCoins (l.map fun denom => ⟨denom, amount denom⟩)).get d := rfl
    rw [hsum, ih hl, Tally.get_single]
    by_cases hd : d = denom
    · subst hd
      simp [hdenom]
    · simp [hd]

theorem shareOf_eq (ratio : Nat) (coins : Coins) :
    shareOf ratio coins = (Tally.sorted coins.support).map fun denom =>
      ⟨denom, coins.get denom * ratio / Decimal.precision⟩ := by
  simp [shareOf, coinList, Function.comp_def, Decimal.mul_ofNat, Decimal.truncateInt]

theorem sumCoins_shareOf_get (ratio : Nat) (coins : Coins) (d : Denom) :
    (sumCoins (shareOf ratio coins)).get d = coins.get d * ratio / Decimal.precision := by
  rw [shareOf_eq, sumCoins_map_get (Tally.nodup_sorted _)]
  split
  · rfl
  · rename_i hd
    have hzero : coins.get d = 0 :=
      not_not.mp fun h => hd (Tally.mem_sorted.mpr ((coins.mem_support d).mpr h))
    rw [hzero, Nat.zero_mul, Nat.zero_div]

theorem shareOf_positive_iff {ratio : Nat} {coins : Coins} :
    (∀ coin ∈ shareOf ratio coins, 0 < coin.amount) ↔
      ∀ d ∈ coins.support, Decimal.precision ≤ coins.get d * ratio := by
  simp [shareOf_eq, Tally.mem_sorted, Nat.div_pos_iff, show 0 < Decimal.precision by decide]

/-! ## The transfer -/

/-- No other account, no total and no other holder changed. -/
structure SharesMoved (cfg : Config S) (owner newOwner : Address) (ratio : Nat)
    (st st' : ChainState S) : Prop where
  balance : ∀ a d,
    ((st'.bank.balance a).get d + if a = cfg.escrow owner then
      (getAccountBalances cfg st owner).get d * ratio / Decimal.precision else 0) =
    (st.bank.balance a).get d + if a = cfg.escrow newOwner then
      (getAccountBalances cfg st owner).get d * ratio / Decimal.precision else 0
  supply : st'.bank.supply = st.bank.supply
  totalBalance : st'.modules.ucdao.totalBalance = st.modules.ucdao.totalBalance
  holders : ∀ a, a ≠ owner → a ≠ newOwner → isHolder st' a = isHolder st a

/-- No share is rounded down to zero, and none is locked. -/
def Sendable (cfg : Config S) (owner : Address) (ratio : Nat) (st : ChainState S) : Prop :=
  ∀ d ∈ (getAccountBalances cfg st owner).support,
    Decimal.precision ≤ (getAccountBalances cfg st owner).get d * ratio ∧
    (lockedCoins cfg.toEnv st (cfg.escrow owner)).get d +
        (getAccountBalances cfg st owner).get d * ratio / Decimal.precision ≤
      (getAccountBalances cfg st owner).get d

variable {st st' : ChainState S} {owner newOwner : Address} {ratio : Nat} {u : Unit}

theorem run_transferOwnershipWithRatio_ok :
    ((Msg.transferOwnershipWithRatio owner newOwner ratio).handle cfg).run st = .ok u st' ↔
      (0 < ratio ∧ ratio ≤ Decimal.precision) ∧ (getAccountBalances cfg st owner).isZero = false ∧
      (Ucdao.transferOwnership cfg owner newOwner
        (shareOf ratio (getAccountBalances cfg st owner))).run st = .ok u st' := by
  simp only [Msg.handle, run_bind_ok, get_then, ensure_then]

theorem sendable_iff : Sendable cfg owner ratio st ↔
    (∀ coin ∈ shareOf ratio (getAccountBalances cfg st owner), 0 < coin.amount) ∧
    (st.bank.send (lockedCoins cfg.toEnv st (cfg.escrow owner)) (cfg.escrow owner)
      (cfg.escrow newOwner)
      (sumCoins (shareOf ratio (getAccountBalances cfg st owner)))).isSome = true := by
  rw [shareOf_positive_iff, Ledger.isSome_send_iff]
  simp only [Tally.mem_support, sumCoins_shareOf_get, Sendable]
  constructor
  · refine fun h => ⟨fun d hd => (h d hd).1, fun d hshare => (h d fun hzero => hshare ?_).2⟩
    rw [hzero, Nat.zero_mul, Nat.zero_div]
  · refine fun ⟨hpositive, hcovered⟩ d hd => ⟨hpositive d hd, hcovered d ?_⟩
    exact (Nat.div_pos (hpositive d hd) (by decide)).ne'

theorem SharesMoved.of_run {bank : Ledger Address Denom}
    (hsend : st.bank.send (lockedCoins cfg.toEnv st (cfg.escrow owner)) (cfg.escrow owner)
      (cfg.escrow newOwner) (sumCoins (shareOf ratio (getAccountBalances cfg st owner))) =
        some bank)
    (hindex : (setHoldersIndex cfg newOwner >>= fun _ => setHoldersIndex cfg owner).run
      (Bank.withRecipient cfg.toEnv (st.setBank bank) (cfg.escrow newOwner)) = .ok u st') :
    SharesMoved cfg owner newOwner ratio st st' := by
  obtain ⟨_, mid, hfirst, hsecond⟩ := run_bind_ok.mp hindex
  obtain ⟨hbank₁, htotal₁, hholders₁⟩ := setHoldersIndex_frame hfirst
  obtain ⟨hbank₂, htotal₂, hholders₂⟩ := setHoldersIndex_frame hsecond
  have hbank : st'.bank = bank := by
    rw [hbank₂, hbank₁, Bank.withRecipient_bank, Store.setBank_bank]
  constructor
  · intro a d
    rw [hbank]
    simpa only [sumCoins_shareOf_get] using Ledger.balance_send hsend a d
  · rw [hbank, Ledger.supply_send hsend]
  · rw [htotal₂, htotal₁, Bank.withRecipient_modules, Store.setBank_modules]
  · intro a howner hnew
    rw [hholders₂ a howner, hholders₁ a hnew]
    simp [isHolder]

/-- For every ratio up to one, the transfer moves exactly the shares if and only if the module is
enabled and the escrow account can send them. -/
theorem transferOwnershipWithRatio_moves_iff (cfg : Config S) (st : ChainState S)
    (owner newOwner : Address) (ratio : Nat) (hratio : 0 < ratio ∧ ratio ≤ Decimal.precision)
    (hbalance : getAccountBalances cfg st owner ≠ 0) :
    (∃ st', ((Msg.transferOwnershipWithRatio owner newOwner ratio).handle cfg).run st = .ok () st' ∧
        SharesMoved cfg owner newOwner ratio st st') ↔
      st.modules.ucdao.enabled = true ∧ Sendable cfg owner ratio st := by
  have hzero : (getAccountBalances cfg st owner).isZero = false :=
    Bool.eq_false_iff.mpr fun h => hbalance (Tally.isZero_iff.mp h)
  constructor
  · rintro ⟨st', hrun, -⟩
    obtain ⟨-, -, hrun⟩ := run_transferOwnershipWithRatio_ok.mp hrun
    obtain ⟨henabled, -, hpositive, bank, hsend, -⟩ := run_transferOwnership_ok.mp hrun
    exact ⟨henabled, sendable_iff.mpr ⟨hpositive, by rw [hsend]; rfl⟩⟩
  · rintro ⟨henabled, hsendable⟩
    obtain ⟨hpositive, hsome⟩ := (@sendable_iff S cfg st owner newOwner ratio).mp hsendable
    obtain ⟨bank, hsend⟩ := Option.isSome_iff_exists.mp hsome
    obtain ⟨st', hindex⟩ : ∃ st', (setHoldersIndex cfg newOwner >>= fun _ =>
        setHoldersIndex cfg owner).run (Bank.withRecipient cfg.toEnv (st.setBank bank)
          (cfg.escrow newOwner)) = .ok () st' := ⟨_, rfl⟩
    exact ⟨st', run_transferOwnershipWithRatio_ok.mpr ⟨hratio, hzero, run_transferOwnership_ok.mpr
      ⟨henabled, hzero, hpositive, bank, hsend, hindex⟩⟩, SharesMoved.of_run hsend hindex⟩

def inEscrow (coins : Coins) : ChainState Unit :=
  beforeFunding.setBank (beforeFunding.bank.mint (escrowConfig.escrow 2) coins)

theorem half_of_odd_moved :
    getAccountBalances escrowConfig (inEscrow (Tally.single .islm 11)) 2 = Tally.single .islm 11 ∧
    ∃ st', ((Msg.transferOwnershipWithRatio 2 3 (5 * 10 ^ 17)).handle escrowConfig).run
        (inEscrow (Tally.single .islm 11)) = .ok () st' ∧
      SharesMoved escrowConfig 2 3 (5 * 10 ^ 17) (inEscrow (Tally.single .islm 11)) st' := by
  refine ⟨by decide +kernel, (transferOwnershipWithRatio_moves_iff escrowConfig _ 2 3 _
    (by decide) (by decide +kernel)).mpr ⟨by decide +kernel, ?_⟩⟩
  unfold Sendable
  decide +kernel

theorem half_with_single_token_rejected :
    ((Msg.transferOwnershipWithRatio 2 3 (5 * 10 ^ 17)).handle escrowConfig).run
      (inEscrow (Tally.single .islm 11 + Tally.single (.liquid 0) 1)) matches
        .error .invalidCoins _ := by
  decide +kernel

end Haqq.Ucdao
