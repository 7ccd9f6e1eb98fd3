import Haqq.Ethiq.Effects
import Haqq.Ucdao.Keeper

/-!
# The effects of the UCDAO's messages

What a successful call of the keeper does: coins enter escrow one denomination at a time, a transfer
is one send between two escrow accounts, and a conversion redeems, burns and then updates the total
and the index.
-/

namespace Haqq.Ucdao

open Lib LiquidVesting Ethiq

variable {S : Type} {cfg : Config S} {st st' : ChainState S} {u : Unit}

/-! ## Funding and transferring -/

variable {addr : Address}

theorem setHoldersIndex_frame (h : (setHoldersIndex cfg addr).run st = .ok u st') :
    st'.bank = st.bank ∧ st'.modules.ucdao.totalBalance = st.modules.ucdao.totalBalance ∧
      ∀ a ≠ addr, isHolder st' a = isHolder st a := by
  rw [run_setHoldersIndex_ok] at h
  subst h
  refine ⟨rfl, rfl, fun a ha => ?_⟩
  by_cases hzero : (getAccountBalances cfg st addr).isZero = true <;> simp [isHolder, hzero, ha]

variable {sender : Address}

theorem fundCoin_effect {coin : Coin} (h : (fundCoin cfg sender coin).run st = .ok u st') :
    st' = st ∨ ∃ bank, st.bank.send (lockedCoins cfg.toEnv st sender) sender (cfg.escrow sender)
        coin.toCoins = some bank ∧
      st' = (Bank.withRecipient cfg.toEnv (st.setBank bank) (cfg.escrow sender)).setUcdao
        { st.modules.ucdao with totalBalance := st.modules.ucdao.totalBalance + coin.toCoins } := by
  unfold fundCoin escrowToken at h
  rw [run_bind_ok] at h
  obtain ⟨_, _, hdenom, h⟩ := h
  obtain ⟨_, rfl⟩ := run_ensure_ok.mp hdenom
  split at h
  · obtain ⟨_, rfl⟩ := run_pure_ok.mp h
    exact .inl rfl
  · simp only [run_bind_ok, Bank.run_sendCoins_ok, run_trackAddBalance_ok] at h
    obtain ⟨_, _, ⟨bank, hsend, rfl⟩, rfl⟩ := h
    exact .inr ⟨bank, hsend, by simp⟩

variable {amount : List Coin}

theorem fund_effect (h : (fund cfg amount sender).run st = .ok u st') :
    ∃ mid, (amount.forM (fundCoin cfg sender)).run st = .ok () mid ∧
      (setHoldersIndex cfg sender).run mid = .ok () st' := by
  unfold fund at h
  simp only [run_bind_ok, get_then, ensure_then] at h
  obtain ⟨_, _, mid, hloop, hindex⟩ := h
  exact ⟨mid, hloop, hindex⟩

theorem run_transferOwnership_ok {owner newOwner : Address} :
    (Ucdao.transferOwnership cfg owner newOwner amount).run st = .ok u st' ↔
      st.modules.ucdao.enabled = true ∧ (getAccountBalances cfg st owner).isZero = false ∧
      (∀ coin ∈ amount, 0 < coin.amount) ∧
      ∃ bank, st.bank.send (lockedCoins cfg.toEnv st (cfg.escrow owner)) (cfg.escrow owner)
          (cfg.escrow newOwner) (sumCoins amount) = some bank ∧
        (setHoldersIndex cfg newOwner >>= fun _ => setHoldersIndex cfg owner).run
          (Bank.withRecipient cfg.toEnv (st.setBank bank) (cfg.escrow newOwner)) = .ok u st' := by
  unfold Ucdao.transferOwnership transferEscrowToken
  simp only [run_bind_ok, get_then, ensure_then, Bank.run_sendCoins_ok]
  constructor
  · rintro ⟨henabled, hbalance, _, _, ⟨hpositive, bank, hsend, rfl⟩, h⟩
    exact ⟨henabled, hbalance, hpositive, bank, hsend, h⟩
  · rintro ⟨henabled, hbalance, hpositive, bank, hsend, h⟩
    exact ⟨henabled, hbalance, (), _, ⟨hpositive, bank, hsend, rfl⟩, h⟩

/-! ## Redeeming and converting -/

variable {balance : Coin}

theorem redeemRound_total (h : RedeemRound cfg addr true balance st st') (d : Denom) :
    st'.modules.ucdao.totalBalance.get d + balance.toCoins.get d =
      st.modules.ucdao.totalBalance.get d + (Tally.single Denom.islm balance.amount).get d := by
  obtain ⟨_, _, _, _, mid, _, heffect, _, _, _, htrack⟩ := h.redeemed
  have hmid : mid.modules.ucdao = st.modules.ucdao := by rw [heffect.others]
  rw [if_pos rfl, hmid] at htrack
  obtain ⟨hle, htotal⟩ := htrack
  have hcancel := Tally.sub_add_cancel_of_le (Tally.single_le_iff.mpr hle)
  rw [htotal, ← Tally.get_add, Coin.toCoins, hcancel, Tally.get_add]

theorem redeemed_total {balances : List Coin}
    (h : (redeemLiquidCoins cfg addr true balances).run st = .ok u st') (d : Denom) :
    st'.modules.ucdao.totalBalance.get d + (sumCoins balances).get d =
      st.modules.ucdao.totalBalance.get d +
        (Tally.single Denom.islm (balances.map Coin.amount).sum).get d := by
  induction balances generalizing st with
  | nil =>
    rw [← redeemLiquidCoins_nil.mp h]
    simp [sumCoins]
  | cons balance balances ih =>
    obtain ⟨mid, hround, hrest⟩ := redeemLiquidCoins_cons h
    have hfirst := redeemRound_total hround d
    have hothers := ih hrest
    have hsum : (sumCoins (balance :: balances)).get d =
        balance.toCoins.get d + (sumCoins balances).get d := rfl
    rw [hsum, List.map_cons, List.sum_cons, Tally.single_add, Tally.get_add]
    omega

theorem redeemRound_holders {isUcdao : Bool} (h : RedeemRound cfg addr isUcdao balance st st') :
    st'.modules.ucdao.holders = st.modules.ucdao.holders := by
  obtain ⟨_, _, _, _, mid, _, heffect, _, _, _, htrack⟩ := h.redeemed
  have hmid : mid.modules.ucdao = st.modules.ucdao := by rw [heffect.others]
  rw [← hmid]
  cases isUcdao with
  | false =>
    rw [if_neg Bool.false_ne_true] at htrack
    rw [htrack]
  | true =>
    rw [if_pos rfl] at htrack
    rw [htrack.2]

theorem convertToHaqq_effect {receiver : Address} {islmAmount haqqAmount : Nat}
    (h : (convertToHaqq cfg sender receiver islmAmount).run st = .ok haqqAmount st') :
    isHolder st sender = true ∧ ∃ redeemed burned,
      (redeemLiquidCoins cfg (cfg.escrow sender) true
        (liquidBalances (getAccountBalances cfg st sender))).run st = .ok () redeemed ∧
      (burnIslmForHaqq cfg islmAmount (cfg.escrow sender) receiver).run redeemed =
        .ok haqqAmount burned ∧
      islmAmount ≤ burned.modules.ucdao.totalBalance.get .islm ∧
      (setHoldersIndex cfg sender).run (burned.setUcdao { burned.modules.ucdao with
        totalBalance := burned.modules.ucdao.totalBalance - Tally.single .islm islmAmount }) =
        .ok () st' := by
  unfold convertToHaqq at h
  simp only [run_bind_ok, get_then, ensure_then, run_pure_ok] at h
  obtain ⟨-, hholder, -, _, redeemed, hredeem, haqq, burned, hburn, h⟩ := h
  obtain ⟨_, tracked, htrack, _, _, hindex, rfl, rfl⟩ := h
  obtain ⟨hle, rfl⟩ := run_trackSubBalance_ok.mp htrack
  exact ⟨hholder, redeemed, burned, hredeem, hburn, hle, hindex⟩

inductive Msg.Effect (cfg : Config S) (st st' : ChainState S) : Msg → Prop
  | fund {depositor : Address} {amount : Coins}
      (h : (Ucdao.fund cfg (coinList amount) depositor).run st = .ok () st') :
      Effect cfg st st' (.fund depositor amount)
  | transferOwnership {owner newOwner : Address} {coins : List Coin}
      (h : (Ucdao.transferOwnership cfg owner newOwner coins).run st = .ok () st') :
      Effect cfg st st' (.transferOwnership owner newOwner)
  | transferOwnershipWithRatio {owner newOwner : Address} {ratio : Nat} {coins : List Coin}
      (h : (Ucdao.transferOwnership cfg owner newOwner coins).run st = .ok () st') :
      Effect cfg st st' (.transferOwnershipWithRatio owner newOwner ratio)
  | transferOwnershipWithAmount {owner newOwner : Address} {amount : Coins} {coins : List Coin}
      (h : (Ucdao.transferOwnership cfg owner newOwner coins).run st = .ok () st') :
      Effect cfg st st' (.transferOwnershipWithAmount owner newOwner amount)
  | convertToHaqq {sender receiver : Address} {islmAmount haqqAmount : Nat}
      (h : (Ucdao.convertToHaqq cfg sender receiver islmAmount).run st = .ok haqqAmount st') :
      Effect cfg st st' (.convertToHaqq sender receiver islmAmount)

theorem Msg.effect_of_handle {msg : Msg} (h : (msg.handle cfg).run st = .ok u st') :
    msg.Effect cfg st st' := by
  cases msg with
  | fund depositor amount => exact .fund h
  | transferOwnership owner newOwner =>
    simp only [Msg.handle, run_bind_ok, get_then, ensure_then] at h
    exact .transferOwnership h.2
  | transferOwnershipWithRatio owner newOwner ratio =>
    simp only [Msg.handle, run_bind_ok, get_then, ensure_then] at h
    exact .transferOwnershipWithRatio h.2.2
  | transferOwnershipWithAmount owner newOwner amount =>
    simp only [Msg.handle, run_bind_ok, get_then, ensure_then] at h
    exact .transferOwnershipWithAmount h.2
  | convertToHaqq sender receiver islmAmount =>
    simp only [Msg.handle, run_bind_ok, ensure_then, run_pure_ok] at h
    obtain ⟨_, haqqAmount, _, h, _, rfl⟩ := h
    exact .convertToHaqq h

end Haqq.Ucdao
