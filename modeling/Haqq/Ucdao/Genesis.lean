import Haqq.Ucdao.Ledger

/-!
# Genesis of the UCDAO

`x/ucdao/keeper/genesis.go`.  The exported balances are read from the bank, and the exported total
is the tracked one; `InitGenesis` insists that they agree.

* `Kept.step`: the ledger is kept and all holders are owners.
* `roundTrips_of_run`: the exported state of such a run can be loaded again.
-/

namespace Haqq.Ucdao

open Lib LiquidVesting Ethiq

variable {S : Type} (cfg : Config S)

structure Balance where
  address : Address
  coins : Coins

structure GenesisState where
  enableDao : Bool
  balances : List Balance
  totalBalance : Coins

def getAccountsBalances (st : ChainState S) : List Balance :=
  (Tally.sorted st.modules.ucdao.holders).map fun holder =>
    ⟨holder, getAccountBalances cfg st holder⟩

def exportGenesis (st : ChainState S) : GenesisState :=
  ⟨st.modules.ucdao.enabled, getAccountsBalances cfg st, st.modules.ucdao.totalBalance⟩

def sanitizeGenesisBalances (balances : List Balance) : List Balance :=
  balances.mergeSort fun x y => x.address ≤ y.address

def setTotalBalanceOfCoin (coin : Coin) : ModuleM S Unit :=
  modifyUcdao fun ucdao => { ucdao with
    totalBalance := ucdao.totalBalance -
      Tally.single coin.denom (ucdao.totalBalance.get coin.denom) + coin.toCoins }

/-- The balances that `initBalances` writes to the module's own store are read by nobody. -/
def initGenesis (genState : GenesisState) : ModuleM S Unit := do
  modifyUcdao fun ucdao => { ucdao with enabled := genState.enableDao }
  let balances := sanitizeGenesisBalances genState.balances
  balances.forM fun balance => setHoldersIndex cfg balance.address
  let totalBalance := (balances.map Balance.coins).sum
  ensure (genState.totalBalance = 0 ∨ genState.totalBalance = totalBalance) .panic
  (coinList totalBalance).forM setTotalBalanceOfCoin

def emptied (st : ChainState S) : ChainState S := st.setUcdao ⟨false, 0, ∅⟩

def RoundTrips (st : ChainState S) : Prop :=
  ∃ st', (initGenesis cfg (exportGenesis cfg st)).run (emptied st) = .ok () st' ∧
    st'.modules.ucdao.enabled = st.modules.ucdao.enabled ∧
    st'.modules.ucdao.holders = st.modules.ucdao.holders ∧
    (∀ holder ∈ st.modules.ucdao.holders,
      getAccountBalances cfg st' holder = getAccountBalances cfg st holder) ∧
    st'.modules.ucdao.totalBalance = st.modules.ucdao.totalBalance

/-! ## Loading -/

variable {cfg} {owners : Finset Address} {st st' : ChainState S} {u : Unit}

theorem run_setHoldersIndex_forM {balances : List Balance}
    (hne : ∀ balance ∈ balances, getAccountBalances cfg st balance.address ≠ 0) :
    (balances.forM fun balance => setHoldersIndex cfg balance.address : ModuleM S Unit).run st =
      .ok () (st.setUcdao { st.modules.ucdao with
        holders := st.modules.ucdao.holders ∪ (balances.map Balance.address).toFinset }) := by
  induction balances generalizing st with
  | nil =>
    refine run_forM_nil_ok.mpr ?_
    simp [Store.setUcdao]
  | cons balance balances ih =>
    have hbalance : ¬ (getAccountBalances cfg st balance.address).isZero = true := by
      rw [Tally.isZero_iff]
      exact hne balance (by simp)
    have hrest := @ih (st.setUcdao { st.modules.ucdao with
      holders := insert balance.address st.modules.ucdao.holders })
      fun b hb => hne b (by simp [hb])
    refine run_forM_cons_ok.mpr ⟨_, run_setHoldersIndex_ok.mpr rfl, ?_⟩
    rw [if_neg hbalance]
    refine hrest.trans ?_
    simp [Store.setUcdao]

theorem run_setTotalBalanceOfCoin_forM {coins : Coins} {l : List Coin}
    (hl : ∀ coin ∈ l, coin.amount = coins.get coin.denom) :
    ∃ total, (l.forM setTotalBalanceOfCoin : ModuleM S Unit).run st =
        .ok () (st.setUcdao { st.modules.ucdao with totalBalance := total }) ∧
      ∀ d, total.get d = if d ∈ l.map Coin.denom then coins.get d
        else st.modules.ucdao.totalBalance.get d := by
  induction l generalizing st with
  | nil => exact ⟨st.modules.ucdao.totalBalance, run_forM_nil_ok.mpr rfl, fun d => rfl⟩
  | cons coin l ih =>
    obtain ⟨total, hrun, htotal⟩ := @ih (st.setUcdao { st.modules.ucdao with
      totalBalance := st.modules.ucdao.totalBalance -
        Tally.single coin.denom (st.modules.ucdao.totalBalance.get coin.denom) + coin.toCoins })
      fun c hc => hl c (by simp [hc])
    refine ⟨total, run_forM_cons_ok.mpr ⟨_, run_modify_ok.mpr rfl, hrun⟩, fun d => ?_⟩
    rw [htotal d, List.map_cons]
    by_cases hmem : d ∈ l.map Coin.denom
    · rw [if_pos hmem, if_pos (List.mem_cons_of_mem _ hmem)]
    · rw [if_neg hmem]
      by_cases hd : d = coin.denom
      · subst hd
        rw [if_pos List.mem_cons_self]
        simp [Coin.toCoins, hl coin (by simp)]
      · rw [if_neg (by simpa [hd] using hmem)]
        simp [Coin.toCoins, Tally.get_single, hd]

theorem run_setTotalBalance {coins : Coins} (hst : st.modules.ucdao.totalBalance = 0) :
    ((coinList coins).forM setTotalBalanceOfCoin : ModuleM S Unit).run st =
      .ok () (st.setUcdao { st.modules.ucdao with totalBalance := coins }) := by
  have hl : ∀ coin ∈ coinList coins, coin.amount = coins.get coin.denom := by
    intro coin hmem
    obtain ⟨d, _, rfl⟩ := List.mem_map.mp hmem
    rfl
  obtain ⟨total, hrun, htotal⟩ := @run_setTotalBalanceOfCoin_forM S st coins _ hl
  have heq : total = coins := by
    ext d
    rw [htotal d, hst]
    have hdenoms : (coinList coins).map Coin.denom = Tally.sorted coins.support := by
      simp [coinList, Function.comp_def]
    rw [hdenoms]
    split
    · rfl
    · rename_i hzero
      rw [Tally.mem_sorted, Tally.mem_support, not_not] at hzero
      rw [hzero, Tally.get_zero]
  rw [hrun, heq]

theorem roundTrips_of_sum
    (hne : ∀ holder ∈ st.modules.ucdao.holders, getAccountBalances cfg st holder ≠ 0)
    (htotal : st.modules.ucdao.totalBalance =
      ((Tally.sorted st.modules.ucdao.holders).map (getAccountBalances cfg st)).sum) :
    RoundTrips cfg st := by
  have hperm : (sanitizeGenesisBalances (getAccountsBalances cfg st)).Perm
      (getAccountsBalances cfg st) := List.mergeSort_perm _ _
  have hsum : ((sanitizeGenesisBalances (getAccountsBalances cfg st)).map Balance.coins).sum =
      st.modules.ucdao.totalBalance := by
    rw [(hperm.map Balance.coins).sum_eq, htotal, getAccountsBalances, List.map_map]
    rfl
  have hholders : ((sanitizeGenesisBalances (getAccountsBalances cfg st)).map
      Balance.address).toFinset = st.modules.ucdao.holders := by
    ext a
    rw [List.mem_toFinset, (hperm.map Balance.address).mem_iff]
    simp [getAccountsBalances, Tally.mem_sorted]
  have hload : ∀ balance ∈ sanitizeGenesisBalances (getAccountsBalances cfg st),
      getAccountBalances cfg st balance.address ≠ 0 := by
    intro balance hmem
    rw [hperm.mem_iff] at hmem
    obtain ⟨holder, hholder, rfl⟩ := List.mem_map.mp hmem
    exact hne holder (Tally.mem_sorted.mp hholder)
  refine ⟨st, ?_, rfl, rfl, fun _ _ => rfl, rfl⟩
  unfold initGenesis
  refine run_bind_ok.mpr ⟨(), _, run_modify_ok.mpr rfl, ?_⟩
  refine run_bind_ok.mpr ⟨(), _, run_setHoldersIndex_forM hload, ?_⟩
  refine run_bind_ok.mpr ⟨(), _, run_ensure_ok.mpr ⟨.inr hsum.symm, rfl⟩, ?_⟩
  refine (run_setTotalBalance rfl).trans ?_
  simp [Store.setUcdao, emptied, exportGenesis, hsum, hholders]

inductive DaoMsg
  | ucdao (msg : Msg)
  | send (fromAddress toAddress : Address) (amount : Coins)

/-- `MsgSend` of the bank refuses blocked recipients. -/
def DaoMsg.handle (cfg : Config S) : DaoMsg → ModuleM S Unit
  | ucdao msg => msg.handle cfg
  | send fromAddress toAddress amount => do
    ensure (cfg.blocked toAddress = false) .unauthorized
    Bank.sendCoins cfg.toEnv fromAddress toAddress amount

def daoStep (cfg : Config S) (st : ChainState S) (tx : Tx DaoMsg) : ChainState S :=
  deliver (tx.msg.handle (cfg.atTime tx.blockTime)) st

/-- `owners` take part, and only the module pays coins to their escrow accounts. -/
def DaoMsg.Within (cfg : Config S) (owners : Finset Address) : DaoMsg → Prop
  | ucdao msg => (EscrowMsg.ucdao msg).Within cfg owners
  | send fromAddress toAddress _ =>
    NotEscrow cfg owners fromAddress ∧ NotEscrow cfg owners toAddress

/-! ## Only owners are holders -/

def holders (st : ChainState S) : Finset Address := st.modules.ucdao.holders

theorem holders_setHoldersIndex {addr : Address} (haddr : addr ∈ owners)
    (h : holders st ⊆ owners) (hrun : (setHoldersIndex cfg addr).run st = .ok u st') :
    holders st' ⊆ owners := by
  obtain rfl := run_setHoldersIndex_ok.mp hrun
  simp only [holders, Store.setUcdao_modules]
  split
  · exact (Finset.erase_subset _ _).trans h
  · exact Finset.insert_subset haddr h

theorem holders_fundCoin {sender : Address} {coin : Coin}
    (hrun : (fundCoin cfg sender coin).run st = .ok u st') : holders st' = holders st := by
  rcases fundCoin_effect hrun with rfl | ⟨bank, _, rfl⟩
  · rfl
  · rfl

theorem holders_fund {sender : Address} {amount : List Coin} (hsender : sender ∈ owners)
    (h : holders st ⊆ owners) (hrun : (fund cfg amount sender).run st = .ok u st') :
    holders st' ⊆ owners := by
  obtain ⟨mid, hloop, hindex⟩ := fund_effect hrun
  have hstep : ∀ coin ∈ amount, ∀ s s', (fundCoin cfg sender coin).run s = .ok ⟨⟩ s' →
      holders s = holders st → holders s' = holders st :=
    fun coin _ s s' hcoin hs => (holders_fundCoin hcoin).trans hs
  have hmid := run_forM_invariant hstep hloop rfl
  exact holders_setHoldersIndex hsender (hmid ▸ h) hindex

theorem holders_transferOwnership {owner newOwner : Address} {amount : List Coin}
    (howner : owner ∈ owners) (hnew : newOwner ∈ owners) (h : holders st ⊆ owners)
    (hrun : (transferOwnership cfg owner newOwner amount).run st = .ok u st') :
    holders st' ⊆ owners := by
  obtain ⟨_, _, _, bank, _, hindex⟩ := run_transferOwnership_ok.mp hrun
  obtain ⟨_, _, hfirst, hsecond⟩ := run_bind_ok.mp hindex
  refine holders_setHoldersIndex howner (holders_setHoldersIndex hnew ?_ hfirst) hsecond
  simpa [holders] using h

theorem holders_redeemLiquidCoins {addr : Address} {isUcdao : Bool} {balances : List Coin}
    (hrun : (redeemLiquidCoins cfg addr isUcdao balances).run st = .ok u st') :
    holders st' = holders st :=
  redeemLiquidCoins_invariant (P := fun s => holders s = holders st)
    (fun _ _ _ _ hround hs => (redeemRound_holders hround).trans hs) hrun rfl

theorem holders_convertToHaqq {sender receiver : Address} {islmAmount haqqAmount : Nat}
    (hsender : sender ∈ owners) (h : holders st ⊆ owners)
    (hrun : (convertToHaqq cfg sender receiver islmAmount).run st = .ok haqqAmount st') :
    holders st' ⊆ owners := by
  obtain ⟨_, redeemed, burned, hredeem, hburn, _, hindex⟩ := convertToHaqq_effect hrun
  obtain ⟨_, _, again, heffect, _⟩ := burnIslmForHaqq_effect hburn
  refine holders_setHoldersIndex hsender ?_ hindex
  have hburned : holders burned = holders again := by
    rw [holders, heffect.modules]
    rfl
  have hsame : holders burned = holders st :=
    (hburned.trans (holders_redeemLiquidCoins heffect.redeem)).trans
      (holders_redeemLiquidCoins hredeem)
  exact hsame ▸ h

theorem holders_handle {msg : Msg} (hwithin : (EscrowMsg.ucdao msg).Within cfg owners)
    (h : holders st ⊆ owners) (hrun : (msg.handle cfg).run st = .ok u st') :
    holders st' ⊆ owners := by
  cases Msg.effect_of_handle hrun with
  | fund hfund => exact holders_fund hwithin.1 h hfund
  | transferOwnership htransfer | transferOwnershipWithRatio htransfer
  | transferOwnershipWithAmount htransfer =>
    exact holders_transferOwnership hwithin.1 hwithin.2 h htransfer
  | convertToHaqq hconvert => exact holders_convertToHaqq hwithin.1 h hconvert

/-! ## Runs -/

/-- The ledger of the owners is right, and nobody else is a holder. -/
structure Kept (cfg : Config S) (owners : Finset Address) (st : ChainState S) : Prop where
  tracked : Tracked cfg owners ∅ st
  holders : Ucdao.holders st ⊆ owners

theorem Kept.handle {msg : DaoMsg} (hsep : Separate cfg owners) (hwithin : msg.Within cfg owners)
    (h : Kept cfg owners st) (hrun : (msg.handle cfg).run st = .ok u st') :
    Kept cfg owners st' := by
  cases msg with
  | ucdao msg =>
    exact ⟨h.tracked.ucdao hsep hwithin hrun, holders_handle hwithin h.holders hrun⟩
  | send fromAddress toAddress amount =>
    simp only [DaoMsg.handle, run_bind_ok, ensure_then, Bank.run_sendCoins_ok] at hrun
    obtain ⟨_, bank, hsend, rfl⟩ := hrun
    have hislm := h.tracked.islmOnly
    refine ⟨h.tracked.keep (fun a ha => ?_) (by simp) (by simpa [IslmOnly] using hislm),
      by simpa [Ucdao.holders] using h.holders⟩
    ext d
    have hb := Ledger.balance_send hsend (cfg.escrow a) d
    rw [if_neg (hwithin.1 a ha), if_neg (hwithin.2 a ha)] at hb
    simpa [getAccountBalances] using hb

theorem Kept.step {tx : Tx DaoMsg} (hsep : Separate cfg owners)
    (hwithin : tx.msg.Within cfg owners) (h : Kept cfg owners st) :
    Kept cfg owners (daoStep cfg st tx) := by
  rcases deliver_cases (tx.msg.handle (cfg.atTime tx.blockTime)) st with hkeep | hrun
  · rw [daoStep, hkeep]
    exact h
  · -- the parties of a message do not depend on the time
    have hnow : Kept (cfg.atTime tx.blockTime) owners st := ⟨{ h.tracked with }, h.holders⟩
    have hsepNow : Separate (cfg.atTime tx.blockTime) owners := { hsep with }
    have hwithinNow : tx.msg.Within (cfg.atTime tx.blockTime) owners := by
      generalize tx.msg = msg at hwithin
      cases msg with
      | ucdao msg => cases msg <;> exact hwithin
      | send _ _ _ => exact hwithin
    obtain ⟨htracked, hholders⟩ := hnow.handle hsepNow hwithinNow hrun
    exact ⟨{ htracked with }, hholders⟩

theorem Kept.roundTrips (h : Kept cfg owners st) : RoundTrips cfg st := by
  have hiff := fun a ha => h.tracked.holders a ha (Finset.notMem_empty a)
  refine roundTrips_of_sum (fun holder hmem => ?_) ?_
  · exact (hiff holder (h.holders hmem)).mp (by simpa [isHolder] using hmem)
  · ext d
    -- owners who are not holders have nothing in escrow
    have hrest : ∀ a ∈ owners, a ∉ Ucdao.holders st →
        (getAccountBalances cfg st a).get d = 0 := by
      intro a ha hnot
      have hzero : getAccountBalances cfg st a = 0 := by
        by_contra hne
        exact hnot (by simpa [isHolder, Ucdao.holders] using (hiff a ha).mpr hne)
      rw [hzero, Tally.get_zero]
    have hsorted : (Tally.sorted st.modules.ucdao.holders).toFinset = Ucdao.holders st := by
      ext a
      rw [List.mem_toFinset, Tally.mem_sorted, Ucdao.holders]
    calc st.modules.ucdao.totalBalance.get d
        = ∑ a ∈ owners, (getAccountBalances cfg st a).get d := h.tracked.total d
      _ = ∑ a ∈ Ucdao.holders st, (getAccountBalances cfg st a).get d :=
          (Finset.sum_subset h.holders hrest).symm
      _ = (∑ a ∈ Ucdao.holders st, getAccountBalances cfg st a).get d :=
          (Tally.get_sum _ _ _).symm
      _ = _ := by rw [← List.sum_toFinset _ (Tally.nodup_sorted _), hsorted]

/-- **Export and import.** If nobody but the module pays coins to escrow accounts, the exported
state is accepted and gives the same holders, balances and total again. -/
theorem roundTrips_of_run (cfg : Config S) (owners : Finset Address) (st : ChainState S)
    (txs : List (Tx DaoMsg)) (hsep : Separate cfg owners) (hst : Kept cfg owners st)
    (hwithin : ∀ tx ∈ txs, tx.msg.Within cfg owners) :
    RoundTrips cfg (Run.after (daoStep cfg) st txs) := by
  have hrun : Run.Along (daoStep cfg) (fun _ tx => tx.msg.Within cfg owners) st txs :=
    Run.along_of_forall hwithin st
  have hkept : Kept cfg owners (Run.after (daoStep cfg) st txs) :=
    Run.invariant (fun _ _ hmsg hs => hs.step hsep hmsg) hst hrun
  exact hkept.roundTrips

def sentElsewhere : List (Tx DaoMsg) :=
  [⟨1, .ucdao (.fund 2 (Tally.single .islm 60))⟩,
    ⟨2, .ucdao (.transferOwnershipWithRatio 2 3 (5 * 10 ^ 17))⟩,
    ⟨3, .send 2 (escrowConfig.escrow 9) (Tally.single .islm 5)⟩]

theorem sentElsewhere_roundTrips :
    (Run.after (daoStep escrowConfig) beforeFunding sentElsewhere).modules.ucdao.totalBalance =
      Tally.single .islm 60 ∧
    RoundTrips escrowConfig (Run.after (daoStep escrowConfig) beforeFunding sentElsewhere) := by
  refine ⟨by decide +kernel, roundTrips_of_run escrowConfig {2, 3} beforeFunding sentElsewhere
    escrowConfig_separate ⟨beforeFunding_tracked, Finset.empty_subset _⟩ ?_⟩
  simp only [sentElsewhere, List.forall_mem_cons, DaoMsg.Within, EscrowMsg.Within]
  exact ⟨by decide +kernel, by decide +kernel, by decide +kernel, by simp⟩

def sentToEscrow : List (Tx DaoMsg) :=
  [⟨1, .ucdao (.fund 2 (Tally.single .islm 60))⟩,
    ⟨2, .send 2 (escrowConfig.escrow 2) (Tally.single .islm 5)⟩]

/-- The exported balance is sixty-five and the exported total sixty. -/
theorem sentToEscrow_panics :
    (initGenesis escrowConfig (exportGenesis escrowConfig
        (Run.after (daoStep escrowConfig) beforeFunding sentToEscrow))).run
      (emptied (Run.after (daoStep escrowConfig) beforeFunding sentToEscrow)) matches
        .error .panic _ := by
  decide +kernel

end Haqq.Ucdao
