import Haqq.Lib.Run
import Haqq.Ucdao.Effects

/-!
# The ledger of the escrow accounts

The tracked total and the index of holders follow the balances of the escrow accounts.  Between the
update of a balance and that of the index an owner may be out of step; `Tracked` carries the set of
these owners.

* `Tracked.step` is the invariant of a message, `escrowLedger_of_run` that of a run.
* `total_of_paidFromEscrow`: an application that is paid from the escrow leaves the total behind.
-/

namespace Haqq.Ucdao

open Lib LiquidVesting Ethiq

variable {S : Type} {cfg : Config S} {owners : Finset Address} {st st' : ChainState S} {u : Unit}

def NotEscrow (cfg : Config S) (owners : Finset Address) (addr : Address) : Prop :=
  ∀ a ∈ owners, cfg.escrow a ≠ addr

instance (addr : Address) : Decidable (NotEscrow cfg owners addr) :=
  Finset.decidableDforallFinset

structure Separate (cfg : Config S) (owners : Finset Address) : Prop where
  injective : ∀ a ∈ owners, ∀ b ∈ owners, cfg.escrow a = cfg.escrow b → a = b
  liquidModule : NotEscrow cfg owners cfg.liquidModule

def IslmOnly (st : ChainState S) : Prop :=
  ∀ id denom, st.modules.liquidVesting.denoms id = some denom → denom.originalDenom = .islm

def escrowed (cfg : Config S) (owners : Finset Address) (st : ChainState S) (d : Denom) : Nat :=
  ∑ a ∈ owners, (getAccountBalances cfg st a).get d

/-- The total is that of the escrow accounts, and the index is right for all owners but the
ones in `off`. -/
structure Tracked (cfg : Config S) (owners off : Finset Address) (st : ChainState S) : Prop where
  total : ∀ d, st.modules.ucdao.totalBalance.get d = escrowed cfg owners st d
  holders : ∀ a ∈ owners, a ∉ off →
    (isHolder st a = true ↔ getAccountBalances cfg st a ≠ 0)
  islmOnly : IslmOnly st

variable {addr owner : Address}

namespace Tracked

variable {off : Finset Address}

theorem mono (h : Tracked cfg owners off st) {off' : Finset Address} (hsub : off ⊆ off') :
    Tracked cfg owners off' st :=
  { h with holders := fun a ha hoff => h.holders a ha fun hmem => hoff (hsub hmem) }

theorem setHoldersIndex (h : Tracked cfg owners (insert addr off) st)
    (hrun : (Ucdao.setHoldersIndex cfg addr).run st = .ok u st') :
    Tracked cfg owners off st' ∧ st'.bank = st.bank := by
  obtain rfl := run_setHoldersIndex_ok.mp hrun
  refine ⟨⟨h.total, fun a ha hoff => ?_, h.islmOnly⟩, rfl⟩
  have hbalance : getAccountBalances cfg (st.setUcdao { st.modules.ucdao with
      holders := if (getAccountBalances cfg st addr).isZero then st.modules.ucdao.holders.erase addr
        else insert addr st.modules.ucdao.holders }) a = getAccountBalances cfg st a := rfl
  rw [hbalance]
  simp only [isHolder, Store.setUcdao_modules]
  by_cases heq : a = addr
  · subst heq
    split
    · rename_i hzero
      rw [Tally.isZero_iff] at hzero
      simp [hzero]
    · rename_i hzero
      rw [Tally.isZero_iff] at hzero
      simp [hzero]
  · have hbefore := h.holders a ha (by simp [heq, hoff])
    simp only [isHolder, decide_eq_true_eq] at hbefore
    rw [← hbefore]
    split <;> simp [heq]

theorem change (h : Tracked cfg owners off st) (howner : owner ∈ owners) (hoff : owner ∈ off)
    (hkept : ∀ a ∈ owners, a ≠ owner → getAccountBalances cfg st' a = getAccountBalances cfg st a)
    (htotal : ∀ d, st'.modules.ucdao.totalBalance.get d + (getAccountBalances cfg st owner).get d =
      st.modules.ucdao.totalBalance.get d + (getAccountBalances cfg st' owner).get d)
    (hholders : st'.modules.ucdao.holders = st.modules.ucdao.holders) (hislm : IslmOnly st') :
    Tracked cfg owners off st' := by
  refine ⟨fun d => ?_, fun a ha haoff => ?_, hislm⟩
  · have hsum := sum_add_of_eq_off (f := fun a => (getAccountBalances cfg st a).get d)
      (g := fun a => (getAccountBalances cfg st' a).get d) howner
      fun b hb hne => congrArg (fun x => x.get d) (hkept b hb hne)
    have hd := htotal d
    have hbefore := h.total d
    simp only [escrowed] at hbefore ⊢
    omega
  · have hne : a ≠ owner := by
      rintro rfl
      exact haoff hoff
    rw [hkept a ha hne, ← h.holders a ha haoff, isHolder, isHolder, hholders]

theorem keep (h : Tracked cfg owners off st)
    (hkept : ∀ a ∈ owners, getAccountBalances cfg st' a = getAccountBalances cfg st a)
    (hucdao : st'.modules.ucdao = st.modules.ucdao) (hislm : IslmOnly st') :
    Tracked cfg owners off st' := by
  refine ⟨fun d => ?_, fun a ha haoff => ?_, hislm⟩
  · rw [hucdao, h.total d, escrowed, escrowed]
    exact Finset.sum_congr rfl fun a ha => by rw [hkept a ha]
  · rw [hkept a ha, ← h.holders a ha haoff, isHolder, isHolder, hucdao]

end Tracked

/-! ## Funding and transferring -/

variable {sender : Address}

theorem Tracked.fundCoin {coin : Coin} (hsep : Separate cfg owners) (hsender : sender ∈ owners)
    (hout : NotEscrow cfg owners sender) (h : Tracked cfg owners {sender} st)
    (hrun : (Ucdao.fundCoin cfg sender coin).run st = .ok u st') :
    Tracked cfg owners {sender} st' := by
  rcases fundCoin_effect hrun with rfl | ⟨bank, hsend, rfl⟩
  · exact h
  · refine h.change hsender (Finset.mem_singleton_self _) (fun a ha hne => ?_) (fun d => ?_) ?_
      (by simpa [IslmOnly] using h.islmOnly)
    · ext d
      have hb := Ledger.balance_send hsend (cfg.escrow a) d
      rw [if_neg (hout a ha), if_neg fun heq => hne (hsep.injective a ha sender hsender heq)] at hb
      simpa [getAccountBalances] using hb
    · have hb := Ledger.balance_send hsend (cfg.escrow sender) d
      rw [if_neg (hout sender hsender), if_pos rfl, add_zero] at hb
      simp only [getAccountBalances, Store.setUcdao_bank, Store.setUcdao_modules,
        Bank.withRecipient_bank, Bank.withRecipient_modules, Store.setBank_bank,
        Store.setBank_modules, Tally.get_add, hb]
      omega
    · simp

variable {amount : List Coin}

theorem Tracked.fund (hsep : Separate cfg owners) (hsender : sender ∈ owners)
    (hout : NotEscrow cfg owners sender) (h : Tracked cfg owners ∅ st)
    (hrun : (Ucdao.fund cfg amount sender).run st = .ok u st') : Tracked cfg owners ∅ st' := by
  obtain ⟨mid, hloop, hindex⟩ := fund_effect hrun
  have hmid : Tracked cfg owners {sender} mid :=
    run_forM_invariant (fun coin _ s s' hcoin hs => hs.fundCoin hsep hsender hout hcoin) hloop
      (h.mono (Finset.empty_subset _))
  exact (hmid.setHoldersIndex hindex).1

theorem Tracked.transferOwnership {newOwner : Address} (hsep : Separate cfg owners)
    (howner : owner ∈ owners) (hnew : newOwner ∈ owners) (h : Tracked cfg owners ∅ st)
    (hrun : (Ucdao.transferOwnership cfg owner newOwner amount).run st = .ok u st') :
    Tracked cfg owners ∅ st' := by
  obtain ⟨_, _, _, bank, hsend, hindex⟩ := run_transferOwnership_ok.mp hrun
  obtain ⟨_, _, hfirst, hsecond⟩ := run_bind_ok.mp hindex
  have hbalance := fun a => Ledger.balance_send hsend (cfg.escrow a)
  -- between the two escrow accounts nothing gets lost
  have hsum : ∀ d,
      ∑ a ∈ owners, (bank.balance (cfg.escrow a)).get d = escrowed cfg owners st d := by
    intro d
    have heq := Finset.sum_congr rfl fun a (_ : a ∈ owners) => hbalance a d
    have hpart : ∀ o ∈ owners, ∑ a ∈ owners, (if cfg.escrow a = cfg.escrow o then
        (sumCoins amount).get d else 0) = (sumCoins amount).get d := by
      intro o ho
      rw [Finset.sum_eq_single o (fun a ha hne => if_neg fun heq => hne
        (hsep.injective a ha o ho heq)) (fun hno => absurd ho hno), if_pos rfl]
    simp only [Finset.sum_add_distrib, hpart owner howner, hpart newOwner hnew] at heq
    exact Nat.add_right_cancel heq
  have hmoved : Tracked cfg owners (insert newOwner {owner})
      (Bank.withRecipient cfg.toEnv (st.setBank bank) (cfg.escrow newOwner)) := by
    refine ⟨fun d => ?_, fun a ha hoff => ?_, by simpa [IslmOnly] using h.islmOnly⟩
    · simpa [escrowed, getAccountBalances, hsum d] using h.total d
    · simp only [Finset.mem_insert, Finset.mem_singleton, not_or] at hoff
      have hkept : bank.balance (cfg.escrow a) = st.bank.balance (cfg.escrow a) := by
        ext d
        have hb := hbalance a d
        rwa [if_neg fun heq => hoff.2 (hsep.injective a ha owner howner heq),
          if_neg fun heq => hoff.1 (hsep.injective a ha newOwner hnew heq)] at hb
      simpa [isHolder, getAccountBalances, hkept] using h.holders a ha (Finset.notMem_empty a)
  exact ((hmoved.setHoldersIndex hfirst).1.setHoldersIndex hsecond).1

/-! ## Redeeming -/

variable {isUcdao : Bool} {balance : Coin}

theorem redeemRound_balance (hislm : IslmOnly st)
    (h : RedeemRound cfg addr isUcdao balance st st') :
    IslmOnly st' ∧ ∀ a d,
      ((st'.bank.balance a).get d + if a = addr then balance.toCoins.get d else 0) +
        (if a = cfg.liquidModule then (Tally.single Denom.islm balance.amount).get d else 0) =
      (st.bank.balance a).get d +
        if a = addr then (Tally.single Denom.islm balance.amount).get d else 0 := by
  obtain ⟨id, denom, decreased, diff, mid, hdenom, heffect, _, hbank, hmodules, _⟩ := h.redeemed
  have horiginal := hislm id denom heffect.stored
  refine ⟨fun id' denom' hstored => ?_, fun a d => ?_⟩
  · rw [hmodules, heffect.denoms] at hstored
    by_cases heq : id' = id
    · subst heq
      rw [Function.update_self] at hstored
      split at hstored
      · cases hstored
      · cases hstored
        exact horiginal
    · rw [Function.update_of_ne heq] at hstored
      exact hislm id' denom' hstored
  · have hb := heffect.balance a d
    rw [horiginal] at hb
    rw [hbank, Coin.toCoins, hdenom]
    exact hb

theorem Tracked.redeemRound (hsep : Separate cfg owners) (howner : owner ∈ owners)
    (h : Tracked cfg owners {owner} st)
    (hround : RedeemRound cfg (cfg.escrow owner) true balance st st') :
    Tracked cfg owners {owner} st' := by
  obtain ⟨hislm, hbalance⟩ := redeemRound_balance h.islmOnly hround
  refine h.change howner (Finset.mem_singleton_self _) (fun a ha hne => ?_) (fun d => ?_)
    (redeemRound_holders hround) hislm
  · ext d
    have hb := hbalance (cfg.escrow a) d
    have hoff : cfg.escrow a ≠ cfg.escrow owner := fun heq =>
      hne (hsep.injective a ha owner howner heq)
    rwa [if_neg hoff, if_neg hoff, if_neg (hsep.liquidModule a ha)] at hb
  · have hb := hbalance (cfg.escrow owner) d
    have htotal := redeemRound_total hround d
    rw [if_pos rfl, if_pos rfl, if_neg (hsep.liquidModule owner howner)] at hb
    simp only [getAccountBalances] at hb ⊢
    omega

theorem liquid_of_redeemed {balances : List Coin} (hislm : IslmOnly st)
    (hnodup : (balances.map Coin.denom).Nodup)
    (hall : ∀ balance ∈ balances, balance.denom.isLiquid = true ∧
      balance.amount = (st.bank.balance addr).get balance.denom)
    (h : (redeemLiquidCoins cfg addr isUcdao balances).run st = .ok u st') {d : Denom}
    (hd : d.isLiquid = true) :
    (st'.bank.balance addr).get d =
      if d ∈ balances.map Coin.denom then 0 else (st.bank.balance addr).get d := by
  induction balances generalizing st with
  | nil =>
    rw [← redeemLiquidCoins_nil.mp h]
    simp
  | cons balance balances ih =>
    obtain ⟨mid, hround, hrest⟩ := redeemLiquidCoins_cons h
    obtain ⟨hislm', hbalance⟩ := redeemRound_balance hislm hround
    -- this round empties one denomination
    have hmid : ∀ d : Denom, d.isLiquid = true → (mid.bank.balance addr).get d =
        if d = balance.denom then 0 else (st.bank.balance addr).get d := by
      intro d hd
      have hne : d ≠ .islm := by
        rintro rfl
        cases hd
      have hb := hbalance addr d
      rw [Coin.toCoins, (hall balance (by simp)).2] at hb
      simp only [if_true, Tally.get_single, if_neg hne, ite_self, add_zero] at hb
      split at hb
      · rename_i heq
        rw [← heq] at hb
        rw [if_pos heq]
        omega
      · rename_i hother
        rw [if_neg hother, ← hb, add_zero]
    simp only [List.map_cons, List.nodup_cons] at hnodup
    rw [ih hislm' hnodup.2 (fun b hb => ?_) hrest, hmid d hd]
    · by_cases heq : d = balance.denom <;> simp [heq]
    · obtain ⟨hliquid, hamount⟩ := hall b (by simp [hb])
      refine ⟨hliquid, ?_⟩
      rw [hmid b.denom hliquid, if_neg, hamount]
      rintro heq
      exact hnodup.1 (heq ▸ List.mem_map_of_mem hb)

theorem denoms_liquidBalances (coins : Coins) :
    (liquidBalances coins).map Coin.denom = (Tally.sorted coins.support).filter Denom.isLiquid := by
  simp [liquidBalances, Function.comp_def]

theorem liquidBalances_of_redeemed (hislm : IslmOnly st)
    (h : (redeemLiquidCoins cfg addr isUcdao (liquidBalances (st.bank.balance addr))).run st =
      .ok u st') : liquidBalances (st'.bank.balance addr) = [] := by
  have hnodup : ((liquidBalances (st.bank.balance addr)).map Coin.denom).Nodup := by
    rw [denoms_liquidBalances]
    exact (Tally.nodup_sorted _).filter _
  have hall : ∀ balance ∈ liquidBalances (st.bank.balance addr), balance.denom.isLiquid = true ∧
      balance.amount = (st.bank.balance addr).get balance.denom := by
    intro balance hbalance
    obtain ⟨d, hd, rfl⟩ := List.mem_map.mp hbalance
    exact ⟨(List.mem_filter.mp hd).2, rfl⟩
  rw [liquidBalances, List.map_eq_nil_iff, List.filter_eq_nil_iff]
  intro d hd hliquid
  rw [Tally.mem_sorted, Tally.mem_support] at hd
  apply hd
  rw [liquid_of_redeemed hislm hnodup hall h hliquid, denoms_liquidBalances]
  split
  · rfl
  · rename_i hnot
    simpa [Tally.mem_sorted, Tally.mem_support, hliquid] using hnot

variable {payer receiver : Address} {islmAmount haqqAmount : Nat} {redeemed : ChainState S}

theorem burned_after_redeeming (hislm : IslmOnly st)
    (hredeem : (redeemLiquidCoins cfg payer isUcdao (liquidBalances (st.bank.balance payer))).run
      st = .ok u redeemed)
    (hburn : (burnIslmForHaqq cfg islmAmount payer receiver).run redeemed = .ok haqqAmount st') :
    ExchangeEffect cfg payer receiver islmAmount haqqAmount false false redeemed redeemed st' ∧
      Unlocks cfg.blockTime islmAmount (redeemed.vestingAccount payer)
        (st'.vestingAccount payer) := by
  obtain ⟨_, _, again, heffect, hunlocks⟩ := burnIslmForHaqq_effect hburn
  have hagain := heffect.redeem
  rw [liquidBalances_of_redeemed hislm hredeem] at hagain
  obtain rfl := redeemLiquidCoins_nil.mp hagain
  exact ⟨heffect, hunlocks⟩

theorem Tracked.convertToHaqq (hsep : Separate cfg owners) (hsender : sender ∈ owners)
    (hout : NotEscrow cfg owners receiver) (h : Tracked cfg owners ∅ st)
    (hrun : (Ucdao.convertToHaqq cfg sender receiver islmAmount).run st = .ok haqqAmount st') :
    Tracked cfg owners ∅ st' := by
  obtain ⟨_, redeemed, burned, hredeem, hburn, hle, hindex⟩ := convertToHaqq_effect hrun
  have hredeemed : Tracked cfg owners {sender} redeemed :=
    redeemLiquidCoins_invariant (fun _ _ _ _ hround hs => hs.redeemRound hsep hsender hround)
      hredeem (h.mono (Finset.empty_subset _))
  obtain ⟨heffect, _⟩ := burned_after_redeeming h.islmOnly hredeem hburn
  have hmodules := heffect.modules
  have hburned : Tracked cfg owners {sender} (burned.setUcdao { burned.modules.ucdao with
      totalBalance := burned.modules.ucdao.totalBalance - Tally.single .islm islmAmount }) := by
    refine hredeemed.change hsender (Finset.mem_singleton_self _) (fun a ha hne => ?_)
      (fun d => ?_) ?_ ?_
    · ext d
      have hb := heffect.balance (cfg.escrow a) d
      rwa [if_neg (hout a ha), if_neg fun heq => hne (hsep.injective a ha sender hsender heq)] at hb
    · have hb := heffect.balance (cfg.escrow sender) d
      rw [if_neg (hout sender hsender), if_pos rfl, add_zero] at hb
      have hcover := Tally.single_le_iff.mpr hle d
      simp only [getAccountBalances, Store.setUcdao_modules, Store.setUcdao_bank, Tally.get_sub,
        hmodules] at hb hcover ⊢
      omega
    · simp [hmodules]
    · simpa [IslmOnly, hmodules] using hredeemed.islmOnly
  exact (hburned.setHoldersIndex hindex).1

variable {off : Finset Address}

theorem Tracked.redeemOutside (hsep : Separate cfg owners) (hout : NotEscrow cfg owners addr)
    (h : Tracked cfg owners off st) (hround : RedeemRound cfg addr false balance st st') :
    Tracked cfg owners off st' := by
  obtain ⟨hislm, hbalance⟩ := redeemRound_balance h.islmOnly hround
  obtain ⟨id, denom, decreased, diff, mid, _, heffect, _, _, _, htrack⟩ := hround.redeemed
  rw [if_neg Bool.false_ne_true] at htrack
  refine h.keep (fun a ha => ?_) (by rw [htrack, heffect.others]) hislm
  ext d
  have hb := hbalance (cfg.escrow a) d
  rwa [if_neg (hout a ha), if_neg (hout a ha), if_neg (hsep.liquidModule a ha)] at hb

theorem Tracked.exchangeOutside {toAddress : Address} {isApplication : Bool}
    (hsep : Separate cfg owners) (hpayer : NotEscrow cfg owners payer)
    (hout : NotEscrow cfg owners toAddress) (h : Tracked cfg owners off st)
    (heffect : ExchangeEffect cfg payer toAddress islmAmount haqqAmount isApplication false
      st redeemed st') : Tracked cfg owners off st' := by
  have hredeemed : Tracked cfg owners off redeemed :=
    redeemLiquidCoins_invariant (fun _ _ _ _ hround hs => hs.redeemOutside hsep hpayer hround)
      heffect.redeem h
  refine hredeemed.keep (fun a ha => ?_) (by rw [heffect.modules]) ?_
  · ext d
    have hb := heffect.balance (cfg.escrow a) d
    rwa [if_neg (hpayer a ha), if_neg (hout a ha)] at hb
  · simpa [IslmOnly, heffect.modules] using hredeemed.islmOnly

variable {fromAddress : Address} {applicationId : Nat} {r : Nat × Address}

theorem Tracked.mintHaqqByApplication (hsep : Separate cfg owners)
    (hfrom : NotEscrow cfg owners fromAddress)
    (happlication : ∀ application, getApplicationByID cfg applicationId = some application →
      NotEscrow cfg owners application.toAddress ∧ application.source = .bank)
    (h : Tracked cfg owners ∅ st)
    (hrun : (burnIslmForHaqqByApplicationID cfg fromAddress applicationId).run st = .ok r st') :
    Tracked cfg owners ∅ st' := by
  obtain ⟨application, happ, _, _, _, _, _, redeemed, mid, heffect, rfl⟩ :=
    burnIslmForHaqqByApplicationID_effect hrun
  obtain ⟨hto, hsource⟩ := happlication application happ
  simp only [hsource, reduceCtorEq, if_false, decide_false] at heffect
  have hmid := h.exchangeOutside hsep hfrom hto heffect
  exact { hmid with }

/-! ## Runs -/

/-- The parties of a message: coins move between owners and accounts that are not in
escrow. -/
def EscrowMsg.Within (cfg : Config S) (owners : Finset Address) : EscrowMsg → Prop
  | ucdao (.fund depositor _) => depositor ∈ owners ∧ NotEscrow cfg owners depositor
  | ucdao (.transferOwnership owner newOwner) => owner ∈ owners ∧ newOwner ∈ owners
  | ucdao (.transferOwnershipWithRatio owner newOwner _) => owner ∈ owners ∧ newOwner ∈ owners
  | ucdao (.transferOwnershipWithAmount owner newOwner _) => owner ∈ owners ∧ newOwner ∈ owners
  | ucdao (.convertToHaqq sender receiver _) => sender ∈ owners ∧ NotEscrow cfg owners receiver
  | mintHaqqByApplication fromAddress applicationId =>
    NotEscrow cfg owners fromAddress ∧
      ∀ application ∈ getApplicationByID cfg applicationId,
        NotEscrow cfg owners application.toAddress

def EscrowMsg.paidFromEscrow (cfg : Config S) : EscrowMsg → Bool
  | ucdao _ => false
  | mintHaqqByApplication _ applicationId =>
    match getApplicationByID cfg applicationId with
    | some application => decide (application.source = .ucdao)
    | none => false

theorem Tracked.ucdao {msg : Msg} (hsep : Separate cfg owners)
    (hwithin : (EscrowMsg.ucdao msg).Within cfg owners) (h : Tracked cfg owners ∅ st)
    (hrun : (msg.handle cfg).run st = .ok u st') : Tracked cfg owners ∅ st' := by
  cases Msg.effect_of_handle hrun with
  | fund hfund => exact h.fund hsep hwithin.1 hwithin.2 hfund
  | transferOwnership htransfer | transferOwnershipWithRatio htransfer
  | transferOwnershipWithAmount htransfer =>
    exact h.transferOwnership hsep hwithin.1 hwithin.2 htransfer
  | convertToHaqq hconvert => exact h.convertToHaqq hsep hwithin.1 hwithin.2 hconvert

theorem Tracked.handle {msg : EscrowMsg} (hsep : Separate cfg owners)
    (hwithin : msg.Within cfg owners) (hpaid : msg.paidFromEscrow cfg = false)
    (h : Tracked cfg owners ∅ st) (hrun : (msg.handle cfg).run st = .ok u st') :
    Tracked cfg owners ∅ st' := by
  cases msg with
  | ucdao msg => exact h.ucdao hsep hwithin hrun
  | mintHaqqByApplication fromAddress applicationId =>
    simp only [EscrowMsg.handle, Ethiq.Msg.handle, run_bind_ok, run_pure_ok] at hrun
    obtain ⟨r, _, hrun, _, rfl⟩ := hrun
    refine h.mintHaqqByApplication hsep hwithin.1 (fun application happ => ?_) hrun
    refine ⟨hwithin.2 application happ, ?_⟩
    simp only [EscrowMsg.paidFromEscrow, happ, decide_eq_false_iff_not] at hpaid
    cases hsource : application.source with
    | bank => rfl
    | ucdao => exact absurd hsource hpaid

theorem Tracked.step {tx : Tx EscrowMsg} (hsep : Separate cfg owners)
    (hwithin : tx.msg.Within cfg owners) (hpaid : tx.msg.paidFromEscrow cfg = false)
    (h : Tracked cfg owners ∅ st) : Tracked cfg owners ∅ (escrowStep cfg st tx) := by
  rcases deliver_cases (tx.msg.handle (cfg.atTime tx.blockTime)) st with hkeep | hrun
  · rw [escrowStep, hkeep]
    exact h
  · have hnow : Tracked (cfg.atTime tx.blockTime) owners ∅ st := { h with }
    have hsepNow : Separate (cfg.atTime tx.blockTime) owners := { hsep with }
    have hwithinNow : tx.msg.Within (cfg.atTime tx.blockTime) owners := by
      generalize tx.msg = msg at hwithin
      cases msg with
      | ucdao msg => cases msg <;> exact hwithin
      | mintHaqqByApplication _ _ => exact hwithin
    have hpaidNow : tx.msg.paidFromEscrow (cfg.atTime tx.blockTime) = false := by
      rw [← hpaid]
      cases tx.msg <;> rfl
    have hstep := hnow.handle hsepNow hwithinNow hpaidNow hrun
    exact { hstep with }

/-- After a mint by an application that is paid from escrow, the total exceeds the coins in escrow
by exactly what was burned. -/
theorem total_of_paidFromEscrow {application : BurnApplication} (hsep : Separate cfg owners)
    (howner : fromAddress ∈ owners) (happ : getApplicationByID cfg applicationId = some application)
    (hsource : application.source = .ucdao) (h : Tracked cfg owners ∅ st)
    (hrun : (burnIslmForHaqqByApplicationID cfg fromAddress applicationId).run st = .ok r st') :
    0 < application.burnAmount ∧ st'.modules.ucdao.totalBalance.get .islm =
      escrowed cfg owners st' .islm + application.burnAmount := by
  obtain ⟨_, happ', _, hpos, _, _, _, redeemed, mid, heffect, rfl⟩ :=
    burnIslmForHaqqByApplicationID_effect hrun
  obtain rfl := Option.some.inj (happ.symm.trans happ')
  simp only [hsource, if_true, decide_true] at heffect
  have hredeemed : Tracked cfg owners {fromAddress} redeemed :=
    redeemLiquidCoins_invariant (fun _ _ _ _ hround hs => hs.redeemRound hsep howner hround)
      heffect.redeem (h.mono (Finset.empty_subset _))
  have hbalance := fun a => heffect.balance (cfg.escrow a) .islm
  -- whoever gets the minted aHAQQ, the aISLM are only burned
  simp only [Tally.get_single_of_ne _ (show Denom.islm ≠ .haqq by decide), ite_self] at hbalance
  have hsum := sum_add_of_eq_off (f := fun a => (redeemed.bank.balance (cfg.escrow a)).get .islm)
    (g := fun a => (mid.bank.balance (cfg.escrow a)).get .islm) howner fun a ha hne => by
      have hb := hbalance a
      rwa [if_neg fun heq => hne (hsep.injective a ha _ howner heq)] at hb
  have howned := hbalance fromAddress
  have htotal := hredeemed.total .islm
  rw [if_pos rfl, Tally.get_single_self] at howned
  simp only [escrowed, getAccountBalances, Store.setEthiq_modules, Store.setEthiq_bank,
    heffect.modules] at htotal hsum ⊢
  omega

/-- Without a mint for an application paid from escrow the tracked total is what the owners have in
escrow, and the holders are the owners with a balance. -/
theorem escrowLedger_of_run (cfg : Config S) (owners : Finset Address) (st : ChainState S)
    (txs : List (Tx EscrowMsg)) (hsep : Separate cfg owners) (hst : Tracked cfg owners ∅ st)
    (hwithin : ∀ tx ∈ txs, tx.msg.Within cfg owners)
    (hpaid : ∀ tx ∈ txs, tx.msg.paidFromEscrow cfg = false)
    (st' : ChainState S) (hst' : st' = Run.after (escrowStep cfg) st txs) :
    (∀ d, st'.modules.ucdao.totalBalance.get d =
      ∑ a ∈ owners, (getAccountBalances cfg st' a).get d) ∧
    (∀ a ∈ owners, isHolder st' a = true ↔ getAccountBalances cfg st' a ≠ 0) := by
  have hrun : Run.Along (escrowStep cfg) (fun _ tx =>
      tx.msg.Within cfg owners ∧ tx.msg.paidFromEscrow cfg = false) st txs := Run.along_of_forall
    (fun tx htx => And.intro (hwithin tx htx) (hpaid tx htx)) st
  have htracked : Tracked cfg owners ∅ st' := by
    rw [hst']
    exact Run.invariant (fun _ _ hmsg hs => hs.step hsep hmsg.1 hmsg.2) hst hrun
  exact ⟨htracked.total, fun a ha => htracked.holders a ha (Finset.notMem_empty a)⟩

def escrowConfig : Config Unit :=
  { localConfig with applications := [⟨0, 2, 4, .ucdao, 60, 0⟩] }

def beforeFunding : ChainState Unit :=
  (genesis.setAccount 2 ⟨1, 0, .base⟩).setBank (genesis.bank.mint 2 (Tally.single .islm 100))

theorem escrowConfig_separate : Separate escrowConfig {2, 3} := by
  refine ⟨fun a ha b hb => ?_, by decide +kernel⟩
  simp only [Finset.mem_insert, Finset.mem_singleton] at ha hb
  rcases ha with rfl | rfl <;> rcases hb with rfl | rfl <;> decide +kernel

theorem beforeFunding_empty : ∀ a ∈ ({2, 3} : Finset Address),
    getAccountBalances escrowConfig beforeFunding a = 0 := by
  intro a ha
  simp only [Finset.mem_insert, Finset.mem_singleton] at ha
  rcases ha with rfl | rfl <;> decide +kernel

theorem beforeFunding_tracked : Tracked escrowConfig {2, 3} ∅ beforeFunding := by
  refine ⟨fun d => ?_, fun a ha _ => ?_, fun id denom hdenom => by cases hdenom⟩
  · rw [escrowed, Finset.sum_eq_zero fun a ha => by rw [beforeFunding_empty a ha, Tally.get_zero]]
    rfl
  · rw [beforeFunding_empty a ha]
    simp [isHolder, beforeFunding, genesis]

def escrowRun : List (Tx EscrowMsg) :=
  [⟨1, .ucdao (.fund 2 (Tally.single .islm 100))⟩,
    ⟨2, .ucdao (.transferOwnershipWithRatio 2 3 (5 * 10 ^ 17))⟩,
    ⟨3, .ucdao (.convertToHaqq 3 4 20)⟩]

theorem escrowRun_within : ∀ tx ∈ escrowRun, tx.msg.Within escrowConfig {2, 3} := by
  simp only [escrowRun, List.forall_mem_cons, EscrowMsg.Within]
  exact ⟨by decide +kernel, by decide +kernel, by decide +kernel, by simp⟩

theorem escrowRun_ledger :
    (Run.after (escrowStep escrowConfig) beforeFunding escrowRun).modules.ucdao.totalBalance =
      Tally.single .islm 80 ∧
    ∀ a ∈ ({2, 3} : Finset Address),
      isHolder (Run.after (escrowStep escrowConfig) beforeFunding escrowRun) a = true ↔
        getAccountBalances escrowConfig
          (Run.after (escrowStep escrowConfig) beforeFunding escrowRun) a ≠ 0 :=
  ⟨by decide +kernel,
    (escrowLedger_of_run escrowConfig {2, 3} beforeFunding escrowRun escrowConfig_separate
      beforeFunding_tracked escrowRun_within (by decide +kernel) _ rfl).2⟩

def applicationRun : List (Tx EscrowMsg) :=
  [⟨1, .ucdao (.fund 2 (Tally.single .islm 60))⟩, ⟨2, .mintHaqqByApplication 2 0⟩]

/-- The coins are gone, but the total still counts them, and the account is still listed as
a holder. -/
theorem applicationRun_breaks_ledger :
    escrowed escrowConfig {2, 3}
      (Run.after (escrowStep escrowConfig) beforeFunding applicationRun) .islm = 0 ∧
    getAccountBalances escrowConfig
      (Run.after (escrowStep escrowConfig) beforeFunding applicationRun) 2 = 0 ∧
    (Run.after (escrowStep escrowConfig) beforeFunding applicationRun).modules.ucdao.totalBalance =
      Tally.single .islm 60 ∧
    isHolder (Run.after (escrowStep escrowConfig) beforeFunding applicationRun) 2 = true := by
  decide +kernel

theorem total_of_firstApplication : ∃ st r st', Tracked escrowConfig {2, 3} ∅ st ∧
    (burnIslmForHaqqByApplicationID escrowConfig 2 0).run st = .ok r st' ∧
    st'.modules.ucdao.totalBalance.get .islm = escrowed escrowConfig {2, 3} st' .islm + 60 := by
  have htracked := beforeFunding_tracked.step escrowConfig_separate
    (escrowRun_within ⟨1, .ucdao (.fund 2 (Tally.single .islm 100))⟩ List.mem_cons_self) rfl
  obtain ⟨r, st', hrun⟩ := exists_of_matches_ok
    (r := (burnIslmForHaqqByApplicationID escrowConfig 2 0).run
      (escrowStep escrowConfig beforeFunding
      ⟨1, .ucdao (.fund 2 (Tally.single .islm 100))⟩)) (by decide +kernel)
  exact ⟨_, r, st', htracked, hrun, (total_of_paidFromEscrow escrowConfig_separate (by decide) rfl
    rfl htracked hrun).2⟩

end Haqq.Ucdao
