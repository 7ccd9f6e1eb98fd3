import Haqq.Evm.Commit

/-!
# Two rollbacks in lockstep

The source undoes a failed frame by replaying the journal; the ideal execution goes on with the
state before the frame.  The real state covers the ideal one all along.
-/

namespace Haqq.Evm

open Lib StateDB

variable {M : Type} {env : Env}

/-- The state before the frame, with the precompile calls counted. -/
def restore : Rollback M := fun before _ after =>
  some { before with precompileCallsCounter := after.precompileCallsCounter }

/-! ## Reads agree -/

section Reads

variable {s r : StateDB M}

section

variable (h : Covers env s r) (a : Address)

include h a

theorem Covers.account :
    (s.getStateObject env a).map (·.account) = (r.getStateObject env a).map (·.account) :=
  View.account (fun _ _ _ _ hoq => hoq.account) h a

theorem Covers.exist : s.exist env a = r.exist env a := by
  rw [exist_eq, exist_eq, h.account]

theorem Covers.getBalance : s.getBalance env a = r.getBalance env a := by
  rw [getBalance_eq, getBalance_eq, h.account]

theorem Covers.getNonce : s.getNonce env a = r.getNonce env a := by
  rw [getNonce_eq, getNonce_eq, h.account]

theorem Covers.getCode : s.getCode env a = r.getCode env a := by
  unfold StateDB.getCode
  rcases h.get_cases a with ⟨hs, hr⟩ | ⟨o, q, hs, hr, hoq⟩
  · rw [hs, hr]
    rfl
  · rw [hs, hr]
    exact objectCode_congr h hoq

theorem Covers.canTransfer (amount : Nat) :
    canTransfer env s a amount = canTransfer env r a amount := by
  simp only [Evm.canTransfer, h.getBalance]

theorem Covers.collides : collides env s a = collides env r a := by
  simp only [Evm.collides, getNonce_eq, getCodeHash_eq, h.account]

end

theorem collides_iff (s : StateDB M) (a : Address) :
    collides env s a = true ↔ ActiveAt env s a := by
  unfold Evm.collides ActiveAt StateDB.getNonce StateDB.getCodeHash
  cases s.getStateObject env a with
  | none => simp
  | some o => simp [Active]

theorem activeAt_of_code (hinv : Inv env s) {a : Address}
    (h : (s.getCode env a).getD [] ≠ []) : ActiveAt env s a := by
  unfold StateDB.getCode at h
  cases ho : s.getStateObject env a with
  | none => simp [ho] at h
  | some o =>
    refine ⟨o, ho, ?_⟩
    rw [ho, Option.bind_some, objectCode] at h
    cases hcode : o.code with
    | some c => exact hinv.active a o ho (Or.inr (Or.inl (by simp [hcode])))
    | none =>
      rw [hcode] at h
      simp only at h
      split at h
      · simp at h
      · rename_i hhash
        refine Or.inr ⟨?_, hhash⟩
        intro hzero
        rw [hzero, Evm.getCode, hinv.zeroHash] at h
        simp at h

end Reads

/-! ## Both executions in lockstep -/

structure Sim (env : Env) (s r : StateDB M) : Prop where
  covers : Covers env s r
  counter : s.precompileCallsCounter = r.precompileCallsCounter
  left : Inv env s
  right : Inv env r

/-- Both executions panic, or both end in related states and the real one is sound. -/
def Lockstep (env : Env) (s : StateDB M) : Option (StateDB M) → Option (StateDB M) → Prop :=
  Option.Rel fun s' r' => Sim env s' r' ∧ Sound env s s'

theorem Sim.next {s r s' r' : StateDB M} (hsim : Sim env s r) (hcovers : Covers env s' r')
    (hs : Kept s s') (hr : Kept r r') (hleft : Inv env s') (hright : Inv env r') : Sim env s' r' :=
  ⟨hcovers, hs.counter.trans (hsim.counter.trans hr.counter.symm), hleft, hright⟩

variable {α β : Type} {R : α → β → Prop} {x : Option α} {y : Option β} {s₁ : StateDB M}
  {self : Address} {s₂ r₂ : StateDB M} {kind : CallKind} {addr : Address} {value : Nat}
  {run run' : StateDB M → Option (StateDB M)}

section Lockstep

variable {s r : StateDB M}

theorem optionRel_bind {γ δ : Type} {R' : γ → δ → Prop} {f : α → Option γ} {g : β → Option δ}
    (h : Option.Rel R x y) (hnext : ∀ a b, x = some a → R a b → Option.Rel R' (f a) (g b)) :
    Option.Rel R' (x.bind f) (y.bind g) := by
  cases h with
  | none => exact .none
  | some h => exact hnext _ _ rfl h

theorem Lockstep.after {x y : Option (StateDB M)} (h : Lockstep env s₁ x y)
    (hsound : Sound env s s₁) : Lockstep env s x y :=
  optionRel_imp (fun _ _ h => ⟨h.1, hsound.trans h.2⟩) h

theorem Lockstep.bind {x y : Option (StateDB M)} {f g : StateDB M → Option (StateDB M)}
    (h : Lockstep env s x y)
    (hnext : ∀ s' r', x = some s' → Sim env s' r' → Sound env s s' →
      Lockstep env s' (f s') (g r')) :
    Lockstep env s (x.bind f) (y.bind g) :=
  optionRel_bind h fun s' r' hx h' => (hnext s' r' hx h'.1 h'.2).after h'.2

theorem Lockstep.pure {f : StateDB M → StateDB M} (hsim : Sim env s r)
    (hleft : Sound env s (f s)) (hright : Sound env r (f r))
    (hcovers : Covers env (f s) (f r)) (hkept : ∀ t, Kept t (f t)) :
    Lockstep env s (some (f s)) (some (f r)) :=
  .some ⟨hsim.next hcovers (hkept s) (hkept r) hleft.inv hright.inv, hleft⟩

theorem Sim.activeAt {a : Address} (hsim : Sim env s r) (h : ActiveAt env s a) :
    ActiveAt env r a := by
  obtain ⟨o, ho, hactive⟩ := h
  obtain ⟨q, hq, hoq⟩ := hsim.covers.get_left ho
  exact ⟨q, hq, hoq.account ▸ hactive⟩

theorem Sim.addBalance (hsim : Sim env s r) (a : Address) (amount : Int) :
    Sim env (s.addBalance env a amount) (r.addBalance env a amount) :=
  hsim.next (addBalance_covers hsim.covers amount) (addBalance_writes s a amount).kept
    (addBalance_writes r a amount).kept (addBalance_sound hsim.left amount).inv
    (addBalance_sound hsim.right amount).inv

theorem execOp_lockstep (hsim : Sim env s r) (hself : ActiveAt env s self) (o : Op) :
    Lockstep env s (execOp env self s o) (execOp env self r o) := by
  have hself' := hsim.activeAt hself
  cases o with
  | sstore key value =>
    exact .pure hsim (setState_sound hsim.left hself key value)
      (setState_sound hsim.right hself' key value) (setState_covers hsim.covers key value)
      fun t => (setState_writes t self key value).kept
  | log topics data =>
    exact .pure (f := fun t => t.addLog self topics data) hsim
      (addLog_sound hsim.left self topics data)
      (addLog_sound hsim.right self topics data) (addLog_covers hsim.covers self topics data)
      fun _ => (addLog_aside self topics data).toKept
  | addRefund gas =>
    simp only [execOp, addRefund, hsim.covers.refund]
    have hcovers := refund_covers hsim.covers (r.refund + gas)
    rw [hsim.covers.refund] at hcovers
    have hsound := refund_sound hsim.left (r.refund + gas)
    rw [hsim.covers.refund] at hsound
    exact .some ⟨⟨hcovers, hsim.counter, hsound.inv, (refund_sound hsim.right _).inv⟩, hsound⟩
  | subRefund gas =>
    simp only [execOp, subRefund, hsim.covers.refund]
    split
    · exact .none
    · have hcovers := refund_covers hsim.covers (r.refund - gas)
      rw [hsim.covers.refund] at hcovers
      have hsound := refund_sound hsim.left (r.refund - gas)
      rw [hsim.covers.refund] at hsound
      exact .some ⟨⟨hcovers, hsim.counter, hsound.inv, (refund_sound hsim.right _).inv⟩, hsound⟩
  | touchAddress addr =>
    exact .pure hsim (addAddressToAccessList_sound hsim.left addr)
      (addAddressToAccessList_sound hsim.right addr)
      (addAddressToAccessList_covers hsim.covers addr)
      fun t => (addAddressToAccessList_aside addr).toKept
  | touchSlot addr slot =>
    exact .pure hsim (addSlotToAccessList_sound hsim.left addr slot)
      (addSlotToAccessList_sound hsim.right addr slot)
      (addSlotToAccessList_covers hsim.covers addr slot)
      fun t => (addSlotToAccessList_aside addr slot).toKept
  | selfdestruct beneficiary =>
    have hadd := hsim.addBalance beneficiary (r.getBalance env self)
    have hsound := addBalance_sound (a := beneficiary) hsim.left (r.getBalance env self)
    have hleft := suicide_sound hadd.left (hsound.stable.activeAt hself)
    have hright := suicide_sound hadd.right
      ((addBalance_sound hsim.right _).stable.activeAt hself')
    simp only [execOp, hsim.covers.getBalance]
    exact .some ⟨hadd.next (suicide_covers hadd.covers) (suicide_writes _ _).kept
      (suicide_writes _ _).kept hleft.inv hright.inv, hsound.trans hleft⟩

/-! ### Frames -/

theorem Sim.snapshot (hsim : Sim env s r) : Sim env s.snapshot.1 r.snapshot.1 := by
  exact ⟨{ hsim.covers with }, hsim.counter, (snapshot_sound hsim.left).inv,
    (snapshot_sound hsim.right).inv⟩

theorem rollback_lockstep (hsim : Sim env s r) (hext : Extends env s.snapshot.1 s₂)
    (hcounter : s₂.precompileCallsCounter = r₂.precompileCallsCounter) (revid : Nat) :
    Lockstep env s (revertTo env s s.snapshot.2 s₂) (restore r revid r₂) := by
  obtain ⟨t, hrevert, hcov, hcount, hentries, hrevs, hnext⟩ := hext.revert
  have hsound := Sound.of_rollback hsim.left hcov hentries hrevs hnext
  have h := hcov.trans hsim.covers
  rw [revertTo, hrevert]
  exact .some ⟨⟨{ h with }, hcount.trans hcounter, hsound.inv,
    ⟨⟨hsim.right.dirtyLive, hsim.right.clean⟩, hsim.right.accessList, hsim.right.zeroHash,
      hsim.right.active⟩⟩, hsound⟩

theorem transfer_eq (s : StateDB M) (a b : Address) (amount : Nat) :
    Evm.transfer env s a b amount = (s.addBalance env a (-amount)).addBalance env b amount := by
  rw [Evm.transfer, subBalance_eq]

theorem transfer_kept (s : StateDB M) (a b : Address) (amount : Nat) :
    Kept s (transfer env s a b amount) := by
  rw [transfer_eq]
  exact (addBalance_writes _ _ _).kept.trans (addBalance_writes _ _ _).kept

theorem transfer_sound (hinv : Inv env s) (a b : Address) (amount : Nat) :
    Sound env s (transfer env s a b amount) := by
  rw [transfer_eq]
  have hsub := addBalance_sound (a := a) hinv (-amount)
  exact hsub.trans (addBalance_sound hsub.inv amount)

theorem Sim.transfer (hsim : Sim env s r) (a b : Address) (amount : Nat) :
    Sim env (transfer env s a b amount) (transfer env r a b amount) := by
  rw [transfer_eq, transfer_eq]
  exact (hsim.addBalance a _).addBalance b _

inductive EnteredRel (env : Env) (s : StateDB M) : Entered M → Entered M → Prop
  | refused : EnteredRel env s .refused .refused
  | returned {s₁ r₁ : StateDB M} (hsim : Sim env s₁ r₁) (hsound : Sound env s s₁) :
    EnteredRel env s (.returned s₁) (.returned r₁)
  | entered {s₁ r₁ : StateDB M} {revid : Nat} (hsim : Sim env s₁ r₁)
    (hsound : Sound env s.snapshot.1 s₁) :
    EnteredRel env s (.entered s₁ s.snapshot.2) (.entered r₁ revid)

theorem enterCall_rel (hsim : Sim env s r) (kind : CallKind) (isPrecompile : Bool)
    (self addr : Address) (value : Nat) :
    EnteredRel env s (enterCall env kind isPrecompile self addr value s)
      (enterCall env kind isPrecompile self addr value r) := by
  have hsnap := hsim.snapshot
  have hrefl := Sound.refl hsnap.left
  cases kind with
  | call =>
    simp only [enterCall, hsim.covers.canTransfer, hsnap.covers.exist]
    split
    · exact .refused
    · split
      · exact .entered (hsnap.transfer self addr value) (transfer_sound hsnap.left _ _ _)
      · rename_i hexist
        split
        · exact .returned hsnap (snapshot_sound hsim.left)
        · -- the account does not exist yet
          have hnone : r.snapshot.1.getStateObject env addr = none := by
            simpa [StateDB.exist] using hexist
          have hnone' := hsnap.covers.get_none.mpr hnone
          have hleft : Sound env s.snapshot.1 (s.snapshot.1.createAccount env addr) :=
            createAccount_sound hsnap.left (by simp [hnone'])
          have hright : Sound env r.snapshot.1 (r.snapshot.1.createAccount env addr) :=
            createAccount_sound hsnap.right (by simp [hnone])
          have hsim' := hsnap.next (createAccount_covers hsnap.covers) (createAccount_kept _ _ addr)
            (createAccount_kept _ _ addr) hleft.inv hright.inv
          exact .entered (hsim'.transfer self addr value)
            (hleft.trans (transfer_sound hleft.inv _ _ _))
  | callCode =>
    simp only [enterCall, hsim.covers.canTransfer]
    split
    · exact .refused
    · exact .entered hsnap hrefl
  | delegateCall => exact .entered hsnap hrefl
  | staticCall =>
    exact .entered (hsnap.addBalance addr 0) (addBalance_sound hsnap.left 0)

theorem context_activeAt (hself : kind = .callCode ∨ kind = .delegateCall → ActiveAt env s self)
    (hinv : Inv env s₁) (hstable : Stable env s s₁) (hcode : (s₁.getCode env addr).getD [] ≠ []) :
    ActiveAt env s₁ (context kind self addr) := by
  cases kind with
  | call | staticCall => exact activeAt_of_code hinv hcode
  | callCode => exact hstable.activeAt (hself (Or.inl rfl))
  | delegateCall => exact hstable.activeAt (hself (Or.inr rfl))

theorem callFrame_lockstep {fails : Bool} (hsim : Sim env s r)
    (hself : kind = .callCode ∨ kind = .delegateCall → ActiveAt env s self)
    (hrun : ∀ s₁ r₁ revid, enterCall env kind false self addr value s = .entered s₁ revid →
      (s₁.getCode env addr).getD [] ≠ [] → Sim env s₁ r₁ →
      ActiveAt env s₁ (context kind self addr) → Lockstep env s₁ (run s₁) (run' r₁)) :
    Lockstep env s (callFrame env (revertTo env) self kind addr value fails run s)
      (callFrame env restore self kind addr value fails run' r) := by
  have hrel := enterCall_rel hsim kind false self addr value
  unfold callFrame
  generalize hs : enterCall env kind false self addr value s = x at hrel
  generalize enterCall env kind false self addr value r = y at hrel
  cases hrel with
  | refused => exact .some ⟨hsim, .refl hsim.left⟩
  | returned hsim₁ hsound => exact .some ⟨hsim₁, hsound⟩
  | @entered s₁ r₁ revid hsim₁ hsound =>
    simp only [hsim₁.covers.getCode]
    have hsound' := (snapshot_sound hsim.left).trans hsound
    split
    · exact .some ⟨hsim₁, hsound'⟩
    · rename_i hcode
      rw [← hsim₁.covers.getCode] at hcode
      have hbody := hrun s₁ r₁ _ hs hcode hsim₁
        (context_activeAt hself hsim₁.left hsound'.stable hcode)
      refine optionRel_bind hbody fun s₂ r₂ _ h => ?_
      obtain ⟨hsim₂, hsound₂⟩ := h
      cases fails with
      | false => exact .some ⟨hsim₂, hsound'.trans hsound₂⟩
      | true => exact rollback_lockstep hsim (hsound.trans hsound₂).ext hsim₂.counter revid

/-! ### Contract creation -/

theorem not_activeAt_of_not_collides {a : Address} (h : ¬ collides env s a = true) :
    ¬ ActiveAt env s a :=
  fun hactive => h ((collides_iff s a).mpr hactive)

theorem nonce_succ_ne_zero {nonce : UInt64} (h : nonceOverflows nonce = false) :
    nonce + 1 ≠ 0 := by
  intro hzero
  simp only [nonceOverflows, decide_eq_false_iff_not] at h
  apply h
  rw [hzero]
  by_contra hnot
  have hnonce : nonce = 0 := by
    apply UInt64.toNat_inj.mp
    have := UInt64.lt_iff_toNat_lt.not.mp hnot
    simpa using this
  rw [hnonce] at hzero
  exact absurd hzero (by decide)

theorem undeployed_of_stable {a : Address} (hinv : Inv env s) (ha : ¬ ActiveAt env s a)
    (hstable : Stable env (enterCreate env self a value s) s₂) :
    ∃ o, s₂.getStateObject env a = some o ∧ Undeployed env o := by
  have hcreated : ∃ o, ((s.createAccount env a).setNonce env a 1).getStateObject env a = some o ∧
      Undeployed env o := by
    have hone : (1 : UInt64) ≠ 0 := by decide
    obtain ⟨balance, hget⟩ := createAccount_get env s a
    simp only [setNonce, getOrNew_of_some hget]
    exact ⟨_, getStateObject_setStateObject_self env _ _ _, ⟨hone, rfl, rfl⟩⟩
  obtain ⟨o, ho, hnew⟩ := hcreated
  have htransfer := (transfer_sound (createContract_sound hinv ha).inv self a value).stable
  obtain ⟨o', ho', hactive', hcode', hhash'⟩ := (htransfer.trans hstable) a o ho (Or.inl hnew.nonce)
  refine ⟨o', ho', ?_, hcode'.trans hnew.code, hhash'.trans hnew.codeHash⟩
  rcases hactive' with hnonce | ⟨_, hhash⟩
  · exact hnonce
  · exact absurd (hhash'.trans hnew.codeHash) hhash

theorem Sim.enterCreate (hsim : Sim env s r) (ha : ¬ ActiveAt env s addr) (self : Address)
    (value : Nat) :
    Sim env (enterCreate env self addr value s) (enterCreate env self addr value r) ∧
      Sound env s (enterCreate env self addr value s) := by
  have ha' : ¬ ActiveAt env r addr := by
    rintro ⟨q, hq, hactive⟩
    obtain ⟨o, ho, hoq⟩ := hsim.covers.get_right hq
    exact ha ⟨o, ho, hoq.account ▸ hactive⟩
  have hleft := createContract_sound hsim.left ha
  have hright := createContract_sound hsim.right ha'
  have hcovers := setNonce_covers (a := addr) (createAccount_covers (a := addr) hsim.covers)
    (show (1 : UInt64) ≠ 0 by decide)
  have hkept (t : StateDB M) : Kept t ((t.createAccount env addr).setNonce env addr 1) :=
    (createAccount_kept _ t addr).trans (setNonce_writes _ addr 1).kept
  have hsim' := hsim.next hcovers (hkept s) (hkept r) hleft.inv hright.inv
  exact ⟨hsim'.transfer self addr value, hleft.trans (transfer_sound hleft.inv _ _ _)⟩

theorem setCode_lockstep (hsim : Sim env s r) (ha : ¬ ActiveAt env s addr) (hsim₂ : Sim env s₂ r₂)
    (hext : Extends env s s₂) (hstable : Stable env s s₂)
    (hbody : Stable env (enterCreate env self addr value s.snapshot.1) s₂) (code : Option Bytes) :
    Lockstep env s (some (s₂.setCode env addr code)) (some (r₂.setCode env addr code)) := by
  obtain ⟨o, ho, hnew⟩ := undeployed_of_stable hsim.snapshot.left ha hbody
  obtain ⟨q, hq, hoq⟩ := hsim₂.covers.get_left ho
  have hnew' : Undeployed env q :=
    ⟨hoq.account ▸ hnew.nonce, hoq.code ▸ hnew.code, hoq.account ▸ hnew.codeHash⟩
  have hleft := setCode_inv hsim₂.left ho hnew code
  refine .some ⟨hsim₂.next (setCode_covers hsim₂.covers hq hnew'.nonce code)
    (setCode_writes _ _ _).kept (setCode_writes _ _ _).kept hleft
    (setCode_inv hsim₂.right hq hnew' code),
    ⟨hext.trans (setCode_extends ho hnew code), hleft, ?_⟩⟩
  -- the deployed address was not active before, all others are untouched
  intro b o' ho' hactive
  have hba : b ≠ addr := by
    rintro rfl
    exact ha ⟨o', ho', hactive⟩
  rw [setCode_get_of_ne ho code hba]
  exact hstable b o' ho' hactive

theorem deploy_lockstep {ret : Option (Option Bytes)} (hsim : Sim env s r)
    (hrun : collides env s addr = false → ∀ r₁,
      Sim env (enterCreate env self addr value s.snapshot.1) r₁ →
      ActiveAt env (enterCreate env self addr value s.snapshot.1) addr →
      Lockstep env (enterCreate env self addr value s.snapshot.1)
        (run (enterCreate env self addr value s.snapshot.1)) (run' r₁)) :
    Lockstep env s (deploy env (revertTo env) self addr value ret run s)
      (deploy env restore self addr value ret run' r) := by
  unfold deploy
  rw [hsim.covers.collides]
  split
  · exact .some ⟨hsim, .refl hsim.left⟩
  · rename_i hcollides
    rw [← hsim.covers.collides] at hcollides
    have ha := not_activeAt_of_not_collides hcollides
    obtain ⟨hsim₁, hsound₁⟩ := hsim.snapshot.enterCreate ha self value
    obtain ⟨o, ho, hnew⟩ := undeployed_of_stable hsim.snapshot.left ha
      (Stable.refl (enterCreate env self addr value s.snapshot.1))
    have hbody := hrun (by simpa using hcollides) _ hsim₁ ⟨o, ho, Or.inl hnew.nonce⟩
    refine optionRel_bind hbody fun s₂ r₂ _ h => ?_
    obtain ⟨hsim₂, hsound₂⟩ := h
    have hsound : Sound env s s₂ := ((snapshot_sound hsim.left).trans hsound₁).trans hsound₂
    cases ret with
    | none => exact rollback_lockstep hsim (hsound₁.trans hsound₂).ext hsim₂.counter _
    | some code =>
      exact setCode_lockstep hsim ha hsim₂ hsound.ext hsound.stable hsound₂.stable code

theorem Sim.prepareCreate (hsim : Sim env s r)
    (hnonce : nonceOverflows (s.getNonce env self) = false) :
    Sim env (prepareCreate env self addr s) (prepareCreate env self addr r) := by
  have hne := nonce_succ_ne_zero hnonce
  have hne' : r.getNonce env self + 1 ≠ 0 := by rwa [← hsim.covers.getNonce]
  have hcovers := setNonce_covers (a := self) hsim.covers hne
  have hleft := setNonce_inv (a := self) hsim.left hne
  have hright := setNonce_inv (a := self) hsim.right hne'
  unfold Evm.prepareCreate
  rw [← hsim.covers.getNonce] at hright ⊢
  exact hsim.next (addAddressToAccessList_covers hcovers addr)
    ((setNonce_writes _ _ _).kept.trans (addAddressToAccessList_aside addr).toKept)
    ((setNonce_writes _ _ _).kept.trans (addAddressToAccessList_aside addr).toKept)
    (addAddressToAccessList_sound hleft addr).inv (addAddressToAccessList_sound hright addr).inv

theorem prepareCreate_sound (hinv : Inv env s) (hself : ActiveAt env s self)
    (hnonce : nonceOverflows (s.getNonce env self) = false) :
    Sound env s (prepareCreate env self addr s) := by
  have hne := nonce_succ_ne_zero hnonce
  have hset : Sound env s (s.setNonce env self (s.getNonce env self + 1)) :=
    ⟨setNonce_extends hself _, setNonce_inv hinv hne, setNonce_stable hinv hne⟩
  exact hset.trans (addAddressToAccessList_sound hset.inv addr)

end Lockstep

end Haqq.Evm
