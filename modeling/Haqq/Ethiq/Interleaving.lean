import Haqq.Ethiq.Sales

/-!
# Applications and regular burns do not disturb each other

An application adds the same amount to both totals that the position on the curve is computed from,
so what a run mints does not depend on how applications and regular burns are interleaved.

* `receipts_eq` gives the receipts of a run in closed form.
* `receipts_of_interleaving` compares two runs with the same burns and applications.
-/

namespace Haqq.Ethiq

open Lib Lib.Curve LiquidVesting

variable {S : Type} {cfg : Config S} {st st' : ChainState S}

structure Receipt where
  msg : Msg
  haqqAmount : Nat

def Msg.mint (cfg : Config S) : Msg → ModuleM S Nat
  | mintHaqq fromAddress toAddress islmAmount =>
    burnIslmForHaqq cfg islmAmount fromAddress toAddress
  | mintHaqqByApplication fromAddress applicationId => do
    let (haqqAmount, _) ← burnIslmForHaqqByApplicationID cfg fromAddress applicationId
    return haqqAmount

def receipts (cfg : Config S) : ChainState S → List (Tx Msg) → Option (List Receipt)
  | _, [] => some []
  | st, tx :: txs =>
    match (tx.msg.mint (cfg.atTime tx.blockTime)).run st with
    | .ok haqqAmount st' => (receipts cfg st' txs).map (⟨tx.msg, haqqAmount⟩ :: ·)
    | .error _ _ => none

def Msg.isRegular : Msg → Bool
  | mintHaqq _ _ _ => true
  | mintHaqqByApplication _ _ => false

def regular (txs : List (Tx Msg)) : List Msg := (txs.map Tx.msg).filter Msg.isRegular

def byApplication (txs : List (Tx Msg)) : List Msg := (txs.map Tx.msg).filter (!·.isRegular)

def position (cfg : Config S) (st : ChainState S) : Nat :=
  st.modules.ethiq.totalBurned + (getSumOfAllApplications cfg).getD 0 -
    st.modules.ethiq.totalBurnedFromApplications

def mintedAt (cfg : Config S) (position islmAmount : Nat) : Nat :=
  match calculateHaqqAmount cfg.prices position islmAmount with
  | .ok haqqAmount => haqqAmount
  | .error _ => 0

def regularReceipts (cfg : Config S) : Nat → List Msg → List Receipt
  | _, [] => []
  | position, .mintHaqq fromAddress toAddress islmAmount :: msgs =>
    ⟨.mintHaqq fromAddress toAddress islmAmount, mintedAt cfg position islmAmount⟩ ::
      regularReceipts cfg (position + islmAmount) msgs
  | position, .mintHaqqByApplication _ _ :: msgs => regularReceipts cfg position msgs

def applicationReceipt (cfg : Config S) : Msg → Receipt
  | .mintHaqq fromAddress toAddress islmAmount => ⟨.mintHaqq fromAddress toAddress islmAmount, 0⟩
  | .mintHaqqByApplication fromAddress appId =>
    ⟨.mintHaqqByApplication fromAddress appId,
      match getApplicationByID cfg appId with
      | some application => mintedAt cfg application.burnedBeforeAmount application.burnAmount
      | none => 0⟩

theorem burnIslmForHaqq_position {islmAmount haqqAmount : Nat} {fromAddress toAddress : Address}
    (h : (burnIslmForHaqq cfg islmAmount fromAddress toAddress).run st = .ok haqqAmount st') :
    haqqAmount = mintedAt cfg (position cfg st) islmAmount ∧
      position cfg st' = position cfg st + islmAmount := by
  obtain ⟨_, ⟨sum, hsum, hle, hamount⟩, redeemed, heffect, _⟩ := burnIslmForHaqq_effect h
  obtain ⟨hethiq, _⟩ := heffect.sold
  constructor
  · simp only [mintedAt, position, hsum, Option.getD_some, hamount]
  · simp only [position, hethiq, State.addBurned, hsum, Option.getD_some, Bool.false_eq_true,
      if_false]
    omega

theorem burnIslmForHaqqByApplicationID_position {fromAddress toAddress : Address}
    {appId haqqAmount : Nat}
    (h : (burnIslmForHaqqByApplicationID cfg fromAddress appId).run st =
      .ok (haqqAmount, toAddress) st') :
    (⟨.mintHaqqByApplication fromAddress appId, haqqAmount⟩ : Receipt) =
        applicationReceipt cfg (.mintHaqqByApplication fromAddress appId) ∧
      position cfg st' = position cfg st := by
  obtain ⟨application, happ, _, _, _, _, hamount, redeemed, mid, heffect, rfl⟩ :=
    burnIslmForHaqqByApplicationID_effect h
  obtain ⟨hethiq, _⟩ := heffect.sold
  constructor
  · simp only [applicationReceipt, happ, mintedAt, hamount]
  · simp only [position, Store.setEthiq_modules, hethiq, State.addBurned, if_true]
    omega

/-! ## Runs -/

theorem receipts_eq {txs : List (Tx Msg)} {rs : List Receipt} (h : receipts cfg st txs = some rs) :
    rs.filter (·.msg.isRegular) = regularReceipts cfg (position cfg st) (regular txs) ∧
      rs.filter (!·.msg.isRegular) = (byApplication txs).map (applicationReceipt cfg) := by
  induction txs generalizing st rs with
  | nil =>
    cases h
    exact ⟨rfl, rfl⟩
  | cons tx txs ih =>
    obtain ⟨now, msg⟩ := tx
    simp only [receipts] at h
    split at h
    case h_2 => cases h
    case h_1 haqqAmount mid hrun =>
      obtain ⟨rest, hrest, rfl⟩ := Option.map_eq_some_iff.mp h
      obtain ⟨hregular, hbyApplication⟩ := ih hrest
      cases msg with
      | mintHaqq fromAddress toAddress islmAmount =>
        obtain ⟨rfl, hposition⟩ := burnIslmForHaqq_position hrun
        -- neither the position nor the prices depend on the time of the block
        have hposition' : position cfg mid = position cfg st + islmAmount := hposition
        rw [hposition'] at hregular
        exact ⟨congrArg (List.cons _) hregular, hbyApplication⟩
      | mintHaqqByApplication fromAddress appId =>
        simp only [Msg.mint, run_bind_ok, run_pure_ok] at hrun
        obtain ⟨⟨_, toAddress⟩, _, hrun, rfl, rfl⟩ := hrun
        obtain ⟨hreceipt, hposition⟩ := burnIslmForHaqqByApplicationID_position hrun
        have hposition' : position cfg _ = position cfg st := hposition
        rw [hposition'] at hregular
        rw [hreceipt]
        exact ⟨hregular, congrArg (List.cons _) hbyApplication⟩

/-- Two interleavings of the same burns and applications mint the same for each of them if all
messages succeed. -/
theorem receipts_of_interleaving (cfg : Config S) (st : ChainState S) (txs txs' : List (Tx Msg))
    (rs rs' : List Receipt) (h : receipts cfg st txs = some rs)
    (h' : receipts cfg st txs' = some rs') (hregular : regular txs = regular txs')
    (happlications : (byApplication txs).Perm (byApplication txs')) :
    rs.filter (·.msg.isRegular) = rs'.filter (·.msg.isRegular) ∧
    (rs.filter (!·.msg.isRegular)).Perm (rs'.filter (!·.msg.isRegular)) ∧
    rs.filter (·.msg.isRegular) = regularReceipts cfg (position cfg st) (regular txs) := by
  obtain ⟨hrs, hrsApplications⟩ := receipts_eq h
  obtain ⟨hrs', hrsApplications'⟩ := receipts_eq h'
  refine ⟨?_, ?_, hrs⟩
  · rw [hrs, hrs', hregular]
  · rw [hrsApplications, hrsApplications']
    exact happlications.map _

def applicationsFirst : List (Tx Msg) :=
  [⟨1, .mintHaqqByApplication 4 1⟩, ⟨2, .mintHaqqByApplication 2 0⟩, ⟨3, .mintHaqq 6 7 900⟩]

def burnFirst : List (Tx Msg) :=
  [⟨1, .mintHaqq 6 7 900⟩, ⟨2, .mintHaqqByApplication 2 0⟩, ⟨3, .mintHaqqByApplication 4 1⟩]

theorem applicationsFirst_same_receipts :
    ∃ rs rs', receipts waitlistConfig fundedState applicationsFirst = some rs ∧
      receipts waitlistConfig fundedState burnFirst = some rs' ∧
      rs.map Receipt.haqqAmount = [100, 200, 300] ∧
      rs'.map Receipt.haqqAmount = [300, 200, 100] ∧
      rs.filter (·.msg.isRegular) = rs'.filter (·.msg.isRegular) ∧
      (rs.filter (!·.msg.isRegular)).Perm (rs'.filter (!·.msg.isRegular)) := by
  have hperm : (byApplication applicationsFirst).Perm (byApplication burnFirst) := .swap _ _ _
  obtain ⟨rs, hrs⟩ := Option.isSome_iff_exists.mp
    (show (receipts waitlistConfig fundedState applicationsFirst).isSome = true by decide +kernel)
  obtain ⟨rs', hrs'⟩ := Option.isSome_iff_exists.mp
    (show (receipts waitlistConfig fundedState burnFirst).isSome = true by decide +kernel)
  have hamounts : (receipts waitlistConfig fundedState applicationsFirst).map
      (·.map Receipt.haqqAmount) = some [100, 200, 300] := by decide +kernel
  have hamounts' : (receipts waitlistConfig fundedState burnFirst).map
      (·.map Receipt.haqqAmount) = some [300, 200, 100] := by decide +kernel
  rw [hrs] at hamounts
  rw [hrs'] at hamounts'
  obtain ⟨hregular, happlications, _⟩ := receipts_of_interleaving waitlistConfig fundedState
    applicationsFirst burnFirst rs rs' hrs hrs' rfl hperm
  exact ⟨rs, rs', hrs, hrs', Option.some.inj hamounts, Option.some.inj hamounts', hregular,
    happlications⟩

end Haqq.Ethiq
