import Haqq.Ethiq.Effects
import Haqq.Lib.Run

/-!
# No point of the price curve is sold twice

The applications of the waitlist occupy the beginning of the curve, each its own interval; regular
burns sell what follows.

* `Sold.step` and `Sold.run`: which part of the curve has been sold for how much.
* `curve_sold_once_of_run`: what was minted is at most one pass over the curve.
-/

namespace Haqq.Ethiq

open Lib Lib.Curve LiquidVesting

variable {S : Type} {cfg : Config S} {st st' : ChainState S}

/-! ## The waitlist -/

def sumBefore (applications : List BurnApplication) (n : Nat) : Nat :=
  ((applications.take n).map BurnApplication.burnAmount).sum

def sumAll (applications : List BurnApplication) : Nat :=
  (applications.map BurnApplication.burnAmount).sum

/-- Each application has its place in the list as its id, and starts where the previous
one ends. -/
def Contiguous (applications : List BurnApplication) : Prop :=
  ∀ id application, applications[id]? = some application →
    application.id = id ∧ application.burnedBeforeAmount = sumBefore applications id

def burnAmountOf (applications : List BurnApplication) (id : Nat) : Nat :=
  (applications[id]?.map BurnApplication.burnAmount).getD 0

theorem sumBefore_succ (applications : List BurnApplication) (id : Nat) :
    sumBefore applications (id + 1) = sumBefore applications id + burnAmountOf applications id := by
  unfold sumBefore burnAmountOf
  cases h : applications[id]? with
  | none =>
    have hlength := List.getElem?_eq_none_iff.mp h
    rw [List.take_of_length_le (by omega), List.take_of_length_le hlength]
    rfl
  | some application =>
    rw [List.take_add_one, h]
    simp

theorem sumBefore_length (applications : List BurnApplication) :
    sumBefore applications applications.length = sumAll applications := by
  rw [sumBefore, List.take_length, sumAll]

theorem sum_burnAmountOf (applications : List BurnApplication) (n : Nat) :
    ∑ id ∈ Finset.range n, burnAmountOf applications id = sumBefore applications n := by
  induction n with
  | zero => rfl
  | succ n ih => rw [Finset.sum_range_succ, ih, sumBefore_succ]

theorem Contiguous.getSumOfAllApplications (h : Contiguous cfg.applications) {sum : Nat}
    (hsum : Ethiq.getSumOfAllApplications cfg = some sum) : sum = sumAll cfg.applications := by
  simp only [Ethiq.getSumOfAllApplications, Option.map_eq_some_iff,
    List.getLast?_eq_getElem?] at hsum
  obtain ⟨last, hlast, rfl⟩ := hsum
  have hlength : cfg.applications.length - 1 < cfg.applications.length := by
    obtain ⟨hlt, _⟩ := List.getElem?_eq_some_iff.mp hlast
    exact hlt
  have hsucc := sumBefore_succ cfg.applications (cfg.applications.length - 1)
  rw [Nat.sub_add_cancel (by omega), sumBefore_length, burnAmountOf, hlast] at hsucc
  rw [(h _ _ hlast).2, hsucc]
  exact Nat.add_comm _ _

def mintedBy (cfg : Config S) (id : Nat) : Nat :=
  minted cfg.prices (sumBefore cfg.applications id) (sumBefore cfg.applications (id + 1))

theorem sum_mintedBy_le (n : Nat) :
    ∑ id ∈ Finset.range n, mintedBy cfg id ≤
      minted cfg.prices 0 (sumBefore cfg.applications n) := by
  induction n with
  | zero => exact Nat.zero_le _
  | succ n ih =>
    rw [Finset.sum_range_succ]
    refine (Nat.add_le_add_right ih _).trans ?_
    exact minted_add_le cfg.prices (Nat.zero_le _) (by rw [sumBefore_succ]; omega)

namespace ExchangeEffect

variable {payer toAddress : Address} {islmAmount haqqAmount : Nat} {isApplication isUcdao : Bool}
  {redeemed : ChainState S}

theorem sold (h : ExchangeEffect cfg payer toAddress islmAmount haqqAmount isApplication isUcdao
      st redeemed st') :
    st'.modules.ethiq = st.modules.ethiq.addBurned islmAmount isApplication ∧
      st'.bank.supply.get .haqq = st.bank.supply.get .haqq + haqqAmount := by
  obtain ⟨hethiq, hsupplyRedeemed⟩ := redeemed_ethiq h.redeem
  have hsupply := congrArg (fun x => x.get .haqq) h.supply
  simp only [Tally.get_add, Tally.get_single, reduceCtorEq, if_false, if_true, add_zero] at hsupply
  exact ⟨by rw [h.modules, hethiq], by rw [hsupply, hsupplyRedeemed .haqq rfl]⟩

end ExchangeEffect

/-! ## What is sold -/

/-- After `burned` coins were burned by other messages than applications, the totals agree with the
executed applications, and no more was minted than they and the price curve give. -/
structure Sold (cfg : Config S) (initial burned : Nat) (st : ChainState S) : Prop where
  executed : st.modules.ethiq.executed ⊆ Finset.range cfg.applications.length
  fromApplications : st.modules.ethiq.totalBurnedFromApplications =
    ∑ id ∈ st.modules.ethiq.executed, burnAmountOf cfg.applications id
  totalBurned : st.modules.ethiq.totalBurned =
    st.modules.ethiq.totalBurnedFromApplications + burned
  /-- The regular burns end on the curve. -/
  onCurve : 0 < burned → sumAll cfg.applications + burned ≤ curveEnd 0 cfg.prices - 1
  supply : st.bank.supply.get .haqq ≤
    initial + ∑ id ∈ st.modules.ethiq.executed, mintedBy cfg id +
      minted cfg.prices (sumAll cfg.applications) (sumAll cfg.applications + burned)
  maxSupply : st.bank.supply.get .haqq ≤ st.modules.ethiq.maxSupply

namespace Sold

variable {initial burned : Nat}

theorem burnIslmForHaqq (hprices : Follows 0 cfg.prices) (hlist : Contiguous cfg.applications)
    (h : Sold cfg initial burned st) {islmAmount haqqAmount : Nat} {fromAddress toAddress : Address}
    (hrun : (Ethiq.burnIslmForHaqq cfg islmAmount fromAddress toAddress).run st =
      .ok haqqAmount st') : Sold cfg initial (burned + islmAmount) st' := by
  obtain ⟨hpos, ⟨sum, hsum, _, hamount⟩, redeemed, heffect, _⟩ := burnIslmForHaqq_effect hrun
  obtain ⟨hethiq, hsupply⟩ := heffect.sold
  have hposition : st.modules.ethiq.totalBurned + sum -
      st.modules.ethiq.totalBurnedFromApplications = sumAll cfg.applications + burned := by
    rw [hlist.getSumOfAllApplications hsum, h.totalBurned]
    omega
  rw [hposition, calculateHaqqAmount_eq_ok hprices] at hamount
  obtain ⟨hcurve, rfl⟩ := hamount
  have hsold := minted_add_le cfg.prices (a := sumAll cfg.applications)
    (b := sumAll cfg.applications + burned) (c := sumAll cfg.applications + burned + islmAmount)
    (by omega) (by omega)
  have hbefore := h.supply
  rw [Nat.add_assoc] at hsold
  refine ⟨?_, ?_, ?_, fun _ => by omega, ?_, ?_⟩
  · rw [hethiq]
    exact h.executed
  · rw [hethiq]
    exact h.fromApplications
  · rw [hethiq]
    simp only [State.addBurned, Bool.false_eq_true, if_false, h.totalBurned]
    omega
  · rw [hethiq, hsupply]
    simp only [State.addBurned]
    rw [Nat.add_assoc (sumAll cfg.applications)]
    omega
  · rw [hethiq, hsupply]
    exact heffect.maxSupply

theorem burnIslmForHaqqByApplicationID (hprices : Follows 0 cfg.prices)
    (hlist : Contiguous cfg.applications) (h : Sold cfg initial burned st) {fromAddress : Address}
    {appId : Nat} {r : Nat × Address}
    (hrun : (Ethiq.burnIslmForHaqqByApplicationID cfg fromAddress appId).run st = .ok r st') :
    Sold cfg initial burned st' := by
  obtain ⟨application, happ, hexecuted, _, _, _, hamount, redeemed, mid, heffect, rfl⟩ :=
    burnIslmForHaqqByApplicationID_effect hrun
  obtain ⟨hethiq, hsupply⟩ := heffect.sold
  obtain ⟨hid, hstart⟩ := hlist appId application happ
  have hburn : burnAmountOf cfg.applications appId = application.burnAmount := by
    rw [burnAmountOf, ← Ethiq.getApplicationByID, happ]
    rfl
  have hamount : r.1 = mintedBy cfg appId := by
    rw [mintedBy, sumBefore_succ, hburn, ← hstart]
    exact ((calculateHaqqAmount_eq_ok hprices).mp hamount).2
  have hbefore := h.supply
  rw [hid] at hexecuted
  refine ⟨?_, ?_, ?_, h.onCurve, ?_, ?_⟩
  · have hlt : appId < cfg.applications.length := by
      obtain ⟨hlt, _⟩ := List.getElem?_eq_some_iff.mp happ
      exact hlt
    simpa [hethiq, State.addBurned, Finset.insert_subset_iff, hlt] using h.executed
  · simp only [Store.setEthiq_modules, hethiq, State.addBurned, if_true,
      Finset.sum_insert hexecuted, hburn, h.fromApplications]
    omega
  · simp only [Store.setEthiq_modules, hethiq, State.addBurned, if_true, h.totalBurned]
    omega
  · simp only [Store.setEthiq_modules, Store.setEthiq_bank, hethiq, hsupply, State.addBurned,
      Finset.sum_insert hexecuted, hamount]
    omega
  · simp only [Store.setEthiq_modules, Store.setEthiq_bank, hethiq, hsupply, State.addBurned]
    exact heffect.maxSupply

end Sold

/-! ## Runs -/

def regularBurn (cfg : Config S) (st : ChainState S) (tx : Tx Msg) : Nat :=
  match tx.msg, (tx.msg.handle (cfg.atTime tx.blockTime)).run st with
  | .mintHaqq _ _ islmAmount, .ok _ _ => islmAmount
  | _, _ => 0

def regularBurns (cfg : Config S) (st : ChainState S) (txs : List (Tx Msg)) : Nat :=
  Run.total (step cfg) (regularBurn cfg) st txs

theorem Sold.step (hprices : Follows 0 cfg.prices) (hlist : Contiguous cfg.applications)
    {initial burned : Nat} (h : Sold cfg initial burned st) (tx : Tx Msg) :
    Sold cfg initial (burned + regularBurn cfg st tx) (Ethiq.step cfg st tx) := by
  obtain ⟨now, msg⟩ := tx
  -- neither the invariant nor what it rests on depends on the time of the block
  have hnow : Sold (cfg.atTime now) initial burned st := { h with }
  have hpricesNow : Follows 0 (cfg.atTime now).prices := hprices
  have hlistNow : Contiguous (cfg.atTime now).applications := hlist
  cases hrun : (msg.handle (cfg.atTime now)).run st with
  | error e st' => simpa [Ethiq.step, deliver, regularBurn, hrun] using h
  | ok u st' =>
    simp only [Ethiq.step, deliver, regularBurn, hrun]
    cases msg with
    | mintHaqq fromAddress toAddress islmAmount =>
      simp only [Msg.handle, run_bind_ok, run_pure_ok] at hrun
      obtain ⟨haqqAmount, _, hrun, _, rfl⟩ := hrun
      have hsold := hnow.burnIslmForHaqq hpricesNow hlistNow hrun
      exact { hsold with }
    | mintHaqqByApplication fromAddress applicationId =>
      simp only [Msg.handle, run_bind_ok, run_pure_ok] at hrun
      obtain ⟨r, _, hrun, _, rfl⟩ := hrun
      have hsold := hnow.burnIslmForHaqqByApplicationID hpricesNow hlistNow hrun
      exact { hsold with }

theorem Sold.run (hprices : Follows 0 cfg.prices) (hlist : Contiguous cfg.applications)
    {initial : Nat} (h : Sold cfg initial 0 st) (txs : List (Tx Msg)) :
    Sold cfg initial (regularBurns cfg st txs) (Run.after (Ethiq.step cfg) st txs) := by
  have hstep : ∀ burned s tx, Sold cfg initial burned s →
      Sold cfg initial (burned + regularBurn cfg s tx) (Ethiq.step cfg s tx) :=
    fun _ _ tx hs => hs.step hprices hlist tx
  rw [regularBurns, ← Nat.zero_add (Run.total _ _ _ _)]
  exact Run.invariant_total hstep h txs

theorem Sold.supply_le_minted {initial burned : Nat} (h : Sold cfg initial burned st) :
    st.bank.supply.get .haqq ≤
      initial + minted cfg.prices 0 (sumAll cfg.applications + burned) := by
  have happlications : ∑ id ∈ st.modules.ethiq.executed, mintedBy cfg id ≤
      minted cfg.prices 0 (sumAll cfg.applications) := by
    rw [← sumBefore_length]
    exact (Finset.sum_le_sum_of_subset h.executed).trans (sum_mintedBy_le _)
  have hjoin := minted_add_le cfg.prices (a := 0) (b := sumAll cfg.applications)
    (c := sumAll cfg.applications + burned) (by omega) (by omega)
  have hsupply := h.supply
  omega

theorem Sold.fromApplications_le {initial burned : Nat} (h : Sold cfg initial burned st) :
    st.modules.ethiq.totalBurnedFromApplications ≤ sumAll cfg.applications := by
  rw [h.fromApplications, ← sumBefore_length, ← sum_burnAmountOf]
  exact Finset.sum_le_sum_of_subset h.executed

structure NothingSold (st : ChainState S) : Prop where
  executed : st.modules.ethiq.executed = ∅
  fromApplications : st.modules.ethiq.totalBurnedFromApplications = 0
  totalBurned : st.modules.ethiq.totalBurned = 0
  maxSupply : st.bank.supply.get .haqq ≤ st.modules.ethiq.maxSupply

theorem NothingSold.sold (h : NothingSold st) (cfg : Config S) :
    Sold cfg (st.bank.supply.get .haqq) 0 st where
  executed := by simp [h.executed]
  fromApplications := by simp [h.executed, h.fromApplications]
  totalBurned := by simp [h.totalBurned, h.fromApplications]
  onCurve hpos := absurd hpos (lt_irrefl 0)
  supply := by
    rw [Nat.add_assoc]
    exact Nat.le_add_right _ _
  maxSupply := h.maxSupply

/-- In every interleaving the aHAQQ minted is at most what the curve pays for everything together,
the position on the curve is never negative, and the supply stays below its maximum. -/
theorem curve_sold_once_of_run (cfg : Config S) (st : ChainState S) (txs : List (Tx Msg))
    (hprices : Follows 0 cfg.prices) (hlist : Contiguous cfg.applications) (hst : NothingSold st)
    (st' : ChainState S) (hst' : st' = Run.after (step cfg) st txs) :
    (∀ amount, calculateHaqqAmount cfg.prices 0
        (sumAll cfg.applications + regularBurns cfg st txs) = .ok amount →
      st'.bank.supply.get .haqq ≤ st.bank.supply.get .haqq + amount) ∧
    (0 < regularBurns cfg st txs → ∃ amount, calculateHaqqAmount cfg.prices 0
        (sumAll cfg.applications + regularBurns cfg st txs) = .ok amount) ∧
    st'.modules.ethiq.totalBurnedFromApplications =
      ∑ id ∈ st'.modules.ethiq.executed, burnAmountOf cfg.applications id ∧
    st'.modules.ethiq.totalBurnedFromApplications ≤ sumAll cfg.applications ∧
    st'.modules.ethiq.totalBurnedFromApplications ≤ st'.modules.ethiq.totalBurned ∧
    st'.bank.supply.get .haqq ≤ st'.modules.ethiq.maxSupply := by
  have hsold := (hst.sold cfg).run hprices hlist txs
  rw [← hst'] at hsold
  refine ⟨fun amount hamount => ?_, fun hpos => ?_, hsold.fromApplications,
    hsold.fromApplications_le, ?_, hsold.maxSupply⟩
  · obtain ⟨_, rfl⟩ := (calculateHaqqAmount_eq_ok hprices).mp hamount
    rw [Nat.zero_add]
    exact hsold.supply_le_minted
  · refine ⟨_, (calculateHaqqAmount_eq_ok hprices).mpr ⟨.inr ?_, rfl⟩⟩
    rw [Nat.zero_add]
    exact hsold.onCurve hpos
  · rw [hsold.totalBurned]
    omega

def waitlistConfig : Config Unit :=
  { localConfig with
    prices := prices
    applications := [⟨0, 2, 3, .bank, 600, 0⟩, ⟨1, 4, 5, .ucdao, 300, 600⟩] }

theorem waitlistConfig_contiguous : Contiguous waitlistConfig.applications := by
  intro id application happ
  match id with
  | 0 | 1 =>
    cases happ
    decide
  | _ + 2 => cases happ

def fundedState : ChainState Unit :=
  ((genesis.setAccount 2 ⟨1, 0, .base⟩).setAccount 6 ⟨2, 0, .base⟩).setAccount 1004 ⟨3, 0, .base⟩
    |>.setBank (((genesis.bank.mint 2 (Tally.single .islm 1000)).mint 6
      (Tally.single .islm 1000)).mint 1004 (Tally.single .islm 1000))

def waitlistRun : List (Tx Msg) :=
  [⟨1, .mintHaqqByApplication 4 1⟩, ⟨2, .mintHaqq 6 7 900⟩, ⟨3, .mintHaqqByApplication 4 1⟩,
    ⟨4, .mintHaqqByApplication 2 0⟩]

theorem waitlistRun_sold_once :
    regularBurns waitlistConfig fundedState waitlistRun = 900 ∧
    (Run.after (step waitlistConfig) fundedState waitlistRun).bank.supply.get .haqq = 600 ∧
    (Run.after (step waitlistConfig) fundedState waitlistRun).bank.supply.get .haqq ≤
      fundedState.bank.supply.get .haqq + 600 :=
  ⟨by decide +kernel, by decide +kernel,
    (curve_sold_once_of_run waitlistConfig fundedState waitlistRun prices_follows
      waitlistConfig_contiguous ⟨rfl, rfl, rfl, by decide⟩ _ rfl).1 600 (by decide +kernel)⟩

end Haqq.Ethiq
