import Haqq.Evm.CallSites
import Haqq.Evm.Lockstep

/-!
# Revert atomicity

The store a transaction commits results from the operations of the frames that were not rolled back,
if every precompile call gets through `RunSetup` once it has committed the StateDB to the cache
context.

* `exec_lockstep` runs a program and its pruned copy side by side.
* `applyMessage_eq_restore` is the result for a whole message.
-/

namespace Haqq.Evm

open Lib StateDB

variable {M : Type} {env : Env}

/-- The call gets through `RunSetup` or runs out of gas there, and the method writes no contract
storage. -/
structure PassesSetup (env : Env) (site : CallSite M) : Prop where
  setup : ∀ s' err, site.precompile.runSetup env site.contract site.readOnly site.state =
    some (s', .error err) → err = .outOfGas
  storage : ∀ s' method, site.precompile.runSetup env site.contract site.readOnly site.state =
    some (s', .ok method) → ∀ st logs entries gasLeft,
    method.run site.origin site.contract.caller site.contract.input s'.cacheStore =
      .ok st logs entries gasLeft → st.storage = s'.cacheStore.storage

theorem passesSetup_of_ok {site : CallSite M} {s' : StateDB M} (method : Method M)
    (h : site.precompile.runSetup env site.contract site.readOnly site.state =
      some (s', .ok method))
    (hstorage : ∀ origin caller input st st' logs entries gasLeft,
      method.run origin caller input st = .ok st' logs entries gasLeft →
      st'.storage = st.storage) : PassesSetup env site := by
  constructor
  · intro s'' err h'
    rw [h] at h'
    cases h'
  · intro s'' method' h' st logs entries gasLeft hrun
    rw [h] at h'
    cases h'
    exact hstorage _ _ _ _ _ _ _ _ hrun

/-! ## Precompile calls -/

variable {st : Store M} {p : Precompile M} {contract : Contract} {readOnly : Bool} {u : Unit}
  {origin self addr : Address} {value : Nat}

section Precompile

variable {s r : StateDB M}

theorem withCache_cacheStore (s : StateDB M) (cms : Store M) :
    (withCache s cms).cacheStore = cms := rfl

theorem createAccount_withCache (cms : Store M) (a : Address) :
    (withCache s cms).createAccount env a = withCache (s.createAccount env a) cms := by
  cases hobj : s.getStateObject env a with
  | none =>
    rw [createAccount_of_none hobj, createAccount_of_none (s := withCache s cms) hobj]
    rfl
  | some prev =>
    rw [createAccount_of_some hobj, createAccount_of_some (s := withCache s cms) hobj]
    rfl

theorem getOrNew_withCache (cms : Store M) (a : Address) :
    (withCache s cms).getOrNewStateObject env a =
      (withCache (s.getOrNewStateObject env a).1 cms, (s.getOrNewStateObject env a).2) := by
  cases hobj : s.getStateObject env a with
  | none =>
    rw [getOrNew_of_none hobj, getOrNew_of_none (s := withCache s cms) hobj,
      createAccount_withCache]
  | some o => rw [getOrNew_of_some hobj, getOrNew_of_some (s := withCache s cms) hobj]

theorem addBalanceEntry_withCache (cms : Store M) (entry : BalanceChangeEntry) :
    Precompile.addBalanceEntry env (withCache s cms) entry =
      withCache (Precompile.addBalanceEntry env s entry) cms := by
  rw [addBalanceEntry_eq, addBalanceEntry_eq]
  simp only [addBalance, getOrNew_withCache]
  split <;> rfl

def afterMethod (env : Env) (p : Precompile M) (logs : List LogEntry)
    (entries : List BalanceChangeEntry) (s : StateDB M) : StateDB M :=
  ((entries.foldl (Precompile.addBalanceEntry env)
    (Precompile.addLogs s logs)).getOrNewStateObject env p.address).1

theorem afterMethod_withCache (env : Env) (s : StateDB M) (p : Precompile M) (logs : List LogEntry)
    (entries : List BalanceChangeEntry) (cms : Store M) :
    afterMethod env p logs entries (withCache s cms) =
      withCache (afterMethod env p logs entries s) cms := by
  have hfold : ∀ (l : List BalanceChangeEntry) (t : StateDB M),
      l.foldl (Precompile.addBalanceEntry env) (withCache t cms) =
        withCache (l.foldl (Precompile.addBalanceEntry env) t) cms := by
    intro l
    induction l with
    | nil => intro t; rfl
    | cons entry rest ih =>
      intro t
      rw [List.foldl_cons, List.foldl_cons, addBalanceEntry_withCache, ih]
  unfold afterMethod
  rw [addLogs_withCache, hfold, getOrNew_withCache]

theorem foldl_sim {β : Type} {f : StateDB M → β → StateDB M}
    (hf : ∀ t u b, Sim env t u → Sim env (f t b) (f u b) ∧ Sound env t (f t b))
    (l : List β) (hsim : Sim env s r) :
    Sim env (l.foldl f s) (l.foldl f r) ∧ Sound env s (l.foldl f s) := by
  induction l generalizing s r with
  | nil => exact ⟨hsim, .refl hsim.left⟩
  | cons b rest ih =>
    obtain ⟨hsim', hsound'⟩ := hf s r b hsim
    obtain ⟨hrest, hsound⟩ := ih hsim'
    exact ⟨hrest, hsound'.trans hsound⟩

theorem addLogs_sim (hsim : Sim env s r) (logs : List LogEntry) :
    Sim env (Precompile.addLogs s logs) (Precompile.addLogs r logs) ∧
      Sound env s (Precompile.addLogs s logs) := by
  refine foldl_sim (fun t u log h => ?_) logs hsim
  have hsound := addLog_sound h.left log.address log.topics log.data
  exact ⟨h.next (addLog_covers h.covers _ _ _) (addLog_aside _ _ _).toKept
    (addLog_aside _ _ _).toKept hsound.inv (addLog_sound h.right _ _ _).inv, hsound⟩

theorem addBalanceEntries_sim (hsim : Sim env s r) (entries : List BalanceChangeEntry) :
    Sim env (entries.foldl (Precompile.addBalanceEntry env) s)
        (entries.foldl (Precompile.addBalanceEntry env) r) ∧
      Sound env s (entries.foldl (Precompile.addBalanceEntry env) s) := by
  refine foldl_sim (fun t u entry h => ?_) entries hsim
  rw [addBalanceEntry_eq, addBalanceEntry_eq]
  exact ⟨h.addBalance _ _, addBalance_sound h.left _⟩

theorem afterMethod_sim (hsim : Sim env s r) (p : Precompile M) (logs : List LogEntry)
    (entries : List BalanceChangeEntry) :
    Sim env (afterMethod env p logs entries s) (afterMethod env p logs entries r) ∧
      Sound env s (afterMethod env p logs entries s) := by
  obtain ⟨hsim₁, hsound₁⟩ := addLogs_sim hsim logs
  obtain ⟨hsim₂, hsound₂⟩ := addBalanceEntries_sim hsim₁ entries
  have hleft := getOrNew_sound (a := p.address) hsim₂.left
  exact ⟨hsim₂.next (getOrNew_covers hsim₂.covers).1 (getOrNew_writes _ _ _).kept
    (getOrNew_writes _ _ _).kept hleft.inv (getOrNew_sound hsim₂.right).inv,
    (hsound₁.trans hsound₂).trans hleft⟩

theorem withCache_self_covers (s : StateDB M) : Covers env (withCache s s.cacheStore) s :=
  { Covers.refl env s with }

theorem withCache_self_sound (hinv : Inv env s) :
    Sound env s (withCache s s.cacheStore) :=
  .of_rollback hinv (withCache_self_covers s) rfl rfl le_rfl

theorem Sim.withCache_self (hsim : Sim env s r) :
    Sim env (withCache s s.cacheStore) (withCache r r.cacheStore) :=
  ⟨{ hsim.covers with }, hsim.counter, (withCache_self_sound hsim.left).inv,
    (withCache_self_sound hsim.right).inv⟩

theorem Inv.withCache (hinv : Inv env s)
    (hst : st.storage = (finalState ((s.commitWithCtx env).run s.cacheStore)).storage) :
    Inv env (withCache s st) := by
  have h := hinv.committed
  refine ⟨⟨h.dirtyLive, fun a k hk => ?_⟩, h.accessList, h.zeroHash, h.active⟩
  show st.storage a k = s.ctx.storage a k
  rw [hst]
  exact h.clean a k hk

theorem Extends.precompileCall {x : StateDB M} {cms : Store M} (h : Extends env s x)
    (hcms : x.cacheStore = cms) (st : Store M) (counter : UInt8) :
    Extends env s { (Evm.withCache x st).append (.precompileCallChange cms) with
      precompileCallsCounter := counter } := by
  obtain ⟨es, hes, hundo⟩ := h.undo
  refine ⟨h.ctx, h.nextRevision, h.revisions,
    ⟨.precompileCallChange cms :: es, by simp [hes, Evm.withCache], fun t ht => ?_⟩⟩
  have hcov : Covers env ((t.revertMultiStore cms).undirty (.precompileCallChange cms)) x := by
    refine { ht with cache := hcms.symm, dirties := ?_ }
    have hdirties : t.journal.dirties = x.journal.dirties + 0 := ht.dirties
    show t.journal.dirties - 0 = x.journal.dirties
    rw [hdirties]
    exact Tally.add_sub_cancel_right' _ _
  obtain ⟨t', hrevert, ht'⟩ := hundo _ hcov
  exact ⟨t', hrevert, ht'⟩

/-- What a failed call did to the StateDB is about to be rolled back. -/
def CallRel (env : Env) (s : StateDB M) :
    Option (StateDB M × Option PrecompileError) →
    Option (StateDB M × Option PrecompileError) → Prop :=
  Option.Rel fun x y => x.2 = y.2 ∧ Extends env s x.1 ∧
    x.1.precompileCallsCounter = y.1.precompileCallsCounter ∧
    (x.2 = none → Sim env x.1 y.1 ∧ Sound env s x.1)

theorem failed_rel (hsim : Sim env s r) (logs : List LogEntry) (err : PrecompileError) :
    CallRel env s
      (some (withCache (Precompile.addLogs s logs) s.cacheStore, some err))
      (some (withCache (Precompile.addLogs r logs) r.cacheStore, some err)) := by
  obtain ⟨hsim', hsound⟩ := addLogs_sim hsim.withCache_self logs
  rw [addLogs_withCache, addLogs_withCache] at hsim'
  rw [addLogs_withCache] at hsound
  exact .some ⟨rfl, ((withCache_self_sound hsim.left).trans hsound).ext, hsim'.counter,
    fun h => by cases h⟩

theorem addJournalEntries_eq (p : Precompile M) (entries : List BalanceChangeEntry)
    (logs : List LogEntry) (cms st : Store M) (s : StateDB M) :
    p.addJournalEntries env entries cms (Precompile.addLogs (withCache s st) logs) =
      ({ (withCache (afterMethod env p logs entries s) st).append (.precompileCallChange cms) with
          precompileCallsCounter :=
            (afterMethod env p logs entries s).precompileCallsCounter + 1 },
        decide ((afterMethod env p logs entries s).precompileCallsCounter + 1 ≤
          maxPrecompileCalls)) := by
  have hafter := afterMethod_withCache env s p logs entries st
  unfold afterMethod at hafter
  unfold Precompile.addJournalEntries addPrecompileFn afterMethod
  simp only [hafter]
  rfl

theorem succeeded_rel (hsim : Sim env s r) (p : Precompile M) (logs : List LogEntry)
    (entries : List BalanceChangeEntry)
    (hst : st.storage = (finalState ((s.commitWithCtx env).run s.cacheStore)).storage)
    (hst' : st.storage = (finalState ((r.commitWithCtx env).run r.cacheStore)).storage) :
    CallRel env s
      (match p.addJournalEntries env entries s.cacheStore
          (Precompile.addLogs (withCache s st) logs) with
        | (s', true) => some (s', none)
        | (s', false) => some (s'.revertMultiStore s.cacheStore, some .maxCalls))
      (match p.addJournalEntries env entries r.cacheStore
          (Precompile.addLogs (withCache r st) logs) with
        | (s', true) => some (s', none)
        | (s', false) => some (s'.revertMultiStore r.cacheStore, some .maxCalls)) := by
  -- the StateDB part of the method, run on the cache context of before the call
  obtain ⟨hsim₁, hsound₁⟩ := afterMethod_sim hsim.withCache_self p logs entries
  rw [afterMethod_withCache, afterMethod_withCache] at hsim₁
  rw [afterMethod_withCache] at hsound₁
  have hsound := (withCache_self_sound hsim.left).trans hsound₁
  have hcount : (afterMethod env p logs entries s).precompileCallsCounter =
      (afterMethod env p logs entries r).precompileCallsCounter := hsim₁.counter
  rw [addJournalEntries_eq, addJournalEntries_eq, hcount]
  have hext := hsound.ext.precompileCall rfl st
    ((afterMethod env p logs entries r).precompileCallsCounter + 1)
  cases decide ((afterMethod env p logs entries r).precompileCallsCounter + 1 ≤
    maxPrecompileCalls) with
  | false =>
    have hext' := hsound.ext.precompileCall rfl s.cacheStore
      ((afterMethod env p logs entries r).precompileCallsCounter + 1)
    exact .some ⟨rfl, hext', rfl, fun h => by cases h⟩
  | true =>
    have hleft := (afterMethod_sim ⟨Covers.refl env _, rfl, hsim.left.withCache hst,
      hsim.left.withCache hst⟩ p logs entries).1.left
    have hright := (afterMethod_sim ⟨Covers.refl env _, rfl, hsim.right.withCache hst',
      hsim.right.withCache hst'⟩ p logs entries).1.left
    rw [afterMethod_withCache] at hleft hright
    have hinv : ∀ (x : StateDB M) (cms : Store M) (n : UInt8), Inv env x →
        Inv env { x.append (.precompileCallChange cms) with precompileCallsCounter := n } := by
      intro x cms n hx
      refine ⟨⟨fun a ha => hx.dirtyLive a ?_, hx.clean⟩, hx.accessList, hx.zeroHash, hx.active⟩
      simpa [Journal.dirtyCount, JournalEntry.dirtied] using ha
    have hdirties : (afterMethod env p logs entries s).journal.dirties =
      (afterMethod env p logs entries r).journal.dirties := hsim₁.covers.dirties
    refine .some ⟨rfl, hext, rfl, fun _ => ⟨⟨{ hsim₁.covers with cache := rfl, dirties := ?_ }, rfl,
      hinv _ _ _ hleft, hinv _ _ _ hright⟩, ⟨hext, hinv _ _ _ hleft, hsound.stable⟩⟩⟩
    show (afterMethod env p logs entries s).journal.dirties + _ = _
    rw [hdirties]
    rfl

theorem runSetup_of_ok (hrun : (s.commitWithCtx env).run s.cacheStore = .ok u st) :
    p.runSetup env contract readOnly s = (p.selectMethod contract).map fun selected =>
      match selected.bind (Precompile.checkMethod contract readOnly) with
      | .error err => (withCache s st, .error err)
      | .ok method =>
        if contract.hasInitialGas then (withCache s st, .ok method)
        else (withCache s s.cacheStore, .error .outOfGas) := by
  unfold Precompile.runSetup
  rw [hrun]
  rfl

theorem select_error_ne_outOfGas {selected : Except PrecompileError (Method M)}
    {err : PrecompileError} (hselect : p.selectMethod contract = some selected)
    (herr : selected.bind (Precompile.checkMethod contract readOnly) = .error err) :
    err ≠ .outOfGas := by
  rintro rfl
  cases selected with
  | ok method =>
    simp only [Except.bind, Precompile.checkMethod] at herr
    split at herr
    · cases herr
    · split at herr <;> cases herr
  | error e =>
    cases herr
    unfold Precompile.selectMethod at hselect
    split at hselect
    · unfold Precompile.emptyCallData at hselect
      split at hselect
      · cases hselect
      · split at hselect
        · cases hreceive : p.receive <;> simp [hreceive] at hselect
        · cases hfallback : p.fallback <;> simp [hfallback] at hselect
    · split at hselect
      · unfold Precompile.methodIDCallData at hselect
        cases hfallback : p.fallback <;> simp [hfallback] at hselect
      · unfold Precompile.standardCallData at hselect
        cases hmethod : p.methodById (contract.input.take 4) <;>
          cases hfallback : p.fallback <;> simp [hmethod, hfallback] at hselect

theorem runAtomic_rel {method : Method M} (hsim : Sim env s r)
    (hs : (s.commitWithCtx env).run s.cacheStore = .ok u st)
    (hr : (r.commitWithCtx env).run r.cacheStore = .ok u st)
    (hstorage : ∀ st' logs entries gasLeft,
      method.run origin contract.caller contract.input st = .ok st' logs entries gasLeft →
      st'.storage = st.storage) :
    CallRel env s
      (p.runAtomic env origin contract method s.cacheStore (withCache s st))
      (p.runAtomic env origin contract method r.cacheStore (withCache r st)) := by
  have hfailed : ∀ (st' : Store M) (logs : List LogEntry) (err : PrecompileError),
      CallRel env s
        (some ((Precompile.addLogs (withCache s st') logs).revertMultiStore s.cacheStore, some err))
        (some ((Precompile.addLogs (withCache r st') logs).revertMultiStore r.cacheStore,
          some err)) := by
    intro st' logs err
    rw [addLogs_withCache, addLogs_withCache]
    exact failed_rel hsim logs err
  unfold Precompile.runAtomic
  rw [withCache_cacheStore, withCache_cacheStore]
  cases hmethod : method.run origin contract.caller contract.input st with
  | panic => exact .none
  | outOfGas st' logs => exact hfailed st' logs _
  | error st' logs => exact hfailed st' logs _
  | ok st' logs entries gasLeft =>
    cases gasLeft with
    | false => exact hfailed st' logs _
    | true =>
      have hst := hstorage st' logs entries true hmethod
      exact succeeded_rel hsim p logs entries (by rw [hs]; exact hst) (by rw [hr]; exact hst)

theorem run_rel (hsim : Sim env s r) (hsite : PassesSetup env ⟨p, origin, contract, readOnly, s⟩) :
    CallRel env s (p.run env origin contract readOnly s)
      (p.run env origin contract readOnly r) := by
  have hcommit : (s.commitWithCtx env).run s.cacheStore = (r.commitWithCtx env).run r.cacheStore :=
    commitWithCtx_congr (hsim.covers.commitAlike hsim.left.toSettled hsim.right.toSettled)
  obtain ⟨hsetup, hstorage⟩ := hsite
  unfold Precompile.run
  cases hs : (s.commitWithCtx env).run s.cacheStore with
  | error e st =>
    have herr : p.runSetup env contract readOnly s =
        some (withCache s st, .error (.commit e)) := by
      unfold Precompile.runSetup
      rw [hs]
      rfl
    exact absurd (hsetup _ _ herr) (by simp)
  | ok u st =>
    have hr : (r.commitWithCtx env).run r.cacheStore = .ok u st := hcommit.symm.trans hs
    simp only [runSetup_of_ok hs] at hsetup hstorage
    rw [runSetup_of_ok hs, runSetup_of_ok hr]
    cases hselect : p.selectMethod contract with
    | none => exact .none
    | some selected =>
      simp only [hselect, Option.map_some, Option.some.injEq] at hsetup hstorage ⊢
      cases hbind : selected.bind (Precompile.checkMethod contract readOnly) with
      | error err =>
        rw [hbind] at hsetup
        exact absurd (hsetup _ err rfl) (select_error_ne_outOfGas hselect hbind)
      | ok method =>
        rw [hbind] at hstorage
        cases hgas : contract.hasInitialGas with
        | false => exact failed_rel hsim [] .outOfGas
        | true =>
          simp only [hgas, if_true] at hstorage ⊢
          exact runAtomic_rel hsim hs hr fun st' logs entries gasLeft hmethod =>
            hstorage _ method rfl st' logs entries gasLeft hmethod

theorem precompileFrame_lockstep {kind : CallKind} {run : PrecompileRun M} (hsim : Sim env s r)
    (hsite : InPrecompileFrame env (PassesSetup env) origin self kind addr value run s) :
    Lockstep env s (precompileFrame env (revertTo env) origin self kind addr value run s)
      (precompileFrame env restore origin self kind addr value run r) := by
  have hrel := enterCall_rel hsim kind true self addr value
  unfold precompileFrame
  generalize hs : enterCall env kind true self addr value s = x at hrel
  generalize enterCall env kind true self addr value r = y at hrel
  cases hrel with
  | refused => exact .some ⟨hsim, .refl hsim.left⟩
  | returned hsim₁ hsound => exact .some ⟨hsim₁, hsound⟩
  | @entered s₁ r₁ revid hsim₁ hsound =>
    have hsite₁ := hsite s₁ _ hs
    have hsound' := (snapshot_sound hsim.left).trans hsound
    cases run with
    | noGas => exact rollback_lockstep hsim hsound.ext hsim₁.counter revid
    | stateless fails =>
      cases fails with
      | false => exact .some ⟨hsim₁, hsound'⟩
      | true => exact rollback_lockstep hsim hsound.ext hsim₁.counter revid
    | stateful p input hasInitialGas =>
      have hcall := run_rel (p := p) hsim₁ hsite₁
      simp only [runPrecompiledContract, Option.bind_eq_bind, Option.bind_map]
      refine optionRel_bind hcall fun x y _ h => ?_
      obtain ⟨herr, hext, hcounter, hok⟩ := h
      obtain ⟨s₂, err⟩ := x
      obtain ⟨r₂, err'⟩ := y
      cases herr
      cases err with
      | none =>
        obtain ⟨hsim₂, hsound₂⟩ := hok rfl
        exact .some ⟨hsim₂, hsound'.trans hsound₂⟩
      | some e => exact rollback_lockstep hsim (hsound.ext.trans hext) hcounter revid

end Precompile

/-- **Lockstep.**  In every execution whose precompile calls pass their setup, replaying
the journal and restoring the old state lead to related states. -/
theorem exec_lockstep (origin : Address) (prog : Prog M) :
    ∀ (self : Address) (s r : StateDB M), Sim env s r → ActiveAt env s self →
      EveryCall env (PassesSetup env) origin self prog s →
      Lockstep env s (exec env origin self prog s) (execWith env restore origin self prog r) := by
  induction prog with
  | done =>
    intro self s r hsim _ _
    exact .some ⟨hsim, .refl hsim.left⟩
  | op o next ih =>
    intro self s r hsim hself hcalls
    refine (execOp_lockstep hsim hself o).bind fun s' r' hs' hsim' hsound => ?_
    exact ih self s' r' hsim' (hsound.stable.activeAt hself) (hcalls s' hs')
  | call kind addr value body fails next ihbody ihnext =>
    intro self s r hsim hself hcalls
    obtain ⟨hbody, hnext⟩ := hcalls
    refine (callFrame_lockstep hsim (fun _ => hself) ?_).bind fun s' r' hs' hsim' hsound => ?_
    · intro s₁ r₁ revid hs₁ hcode hsim₁ hactive
      exact ihbody _ s₁ r₁ hsim₁ hactive (hbody s₁ revid hs₁ hcode)
    · exact ihnext self s' r' hsim' (hsound.stable.activeAt hself) (hnext s' hs')
  | precompile kind addr value run next ih =>
    intro self s r hsim hself hcalls
    obtain ⟨hsite, hnext⟩ := hcalls
    refine (precompileFrame_lockstep hsim hsite).bind fun s' r' hs' hsim' hsound => ?_
    exact ih self s' r' hsim' (hsound.stable.activeAt hself) (hnext s' hs')
  | create addr value body ret next ihbody ihnext =>
    intro self s r hsim hself hcalls
    obtain ⟨hbody, hnext⟩ := hcalls
    refine Lockstep.bind ?_ fun s' r' hs' hsim' hsound =>
      ihnext self s' r' hsim' (hsound.stable.activeAt hself) (hnext s' hs')
    unfold createFrame
    rw [hsim.covers.canTransfer, hsim.covers.getNonce]
    split
    · exact .some ⟨hsim, .refl hsim.left⟩
    · rename_i hrefused
      rw [← hsim.covers.canTransfer, ← hsim.covers.getNonce] at hrefused
      simp only [not_or, Bool.not_eq_false, Bool.not_eq_true] at hrefused
      obtain ⟨htransfer, hnonce⟩ := hrefused
      refine Lockstep.after (deploy_lockstep (hsim.prepareCreate hnonce) ?_)
        (prepareCreate_sound hsim.left hself hnonce)
      intro hcollides r₁ hsim₁ hactive
      exact ihbody addr _ r₁ hsim₁ hactive (hbody htransfer hnonce hcollides)

/-! ## Messages -/

variable {ctx : Store M}

section Message

variable {s r : StateDB M}

theorem Sim.commit (hsim : Sim env s r) : s.commit env = r.commit env :=
  commitWithCtx_congr (hsim.covers.commitAlike hsim.left.toSettled hsim.right.toSettled)

theorem new_inv (hzero : ctx.code 0 = none) : Inv env (StateDB.new ctx) := by
  refine ⟨⟨fun a ha => absurd rfl ha, fun a k _ => rfl⟩, AccessList.wellFormed_new, hzero, ?_⟩
  intro a o ho hused
  -- nothing is live yet, so the object was just loaded
  obtain ⟨account, -, rfl⟩ := Option.map_eq_some_iff.mp ho
  simp [newObject] at hused

theorem prepareAccessList_inv (env : Env) (msg : Message M) (hzero : ctx.code 0 = none) :
    Inv env (prepareAccessList msg (.new ctx)) ∧
      Aside (StateDB.new ctx) (prepareAccessList msg (.new ctx)) := by
  refine prepareAccessList_induction
    (P := fun t => Inv env t ∧ Aside (StateDB.new ctx) t) (fun t a h => ?_) (fun t a k h => ?_) msg
    ⟨new_inv hzero, .refl _⟩
  · exact ⟨(addAddressToAccessList_sound h.1 a).inv, h.2.trans (addAddressToAccessList_aside a)⟩
  · exact ⟨(addSlotToAccessList_sound h.1 a k).inv, h.2.trans (addSlotToAccessList_aside a k)⟩

theorem setNonce_inv_of_unused {a : Address} (hinv : Inv env s)
    (hlive : s.stateObjects a = none) (nonce : UInt64) : Inv env (s.setNonce env a nonce) := by
  have hnew := (getOrNew_sound (a := a) hinv).inv
  have hunused : ∃ account, (s.getOrNewStateObject env a).2 = newObject account := by
    cases hobj : s.getStateObject env a with
    | none => exact ⟨_, by rw [getOrNew_of_none hobj]⟩
    | some o =>
      rw [getOrNew_of_some hobj]
      simp only [getStateObject, hlive] at hobj
      obtain ⟨account, -, rfl⟩ := Option.map_eq_some_iff.mp hobj
      exact ⟨account, rfl⟩
  obtain ⟨account, haccount⟩ := hunused
  unfold setNonce
  simp only
  refine hnew.update (.inl rfl) (fun _ => hnew.clean_of_get getOrNew_get) fun hused => ?_
  simp [haccount, newObject] at hused

/-- Residue may end up in an account that is not active any more, which the commit does not mind. -/
theorem setNonce_commitAlike (hsim : Sim env s r) (a : Address) (nonce : UInt64) :
    CommitAlike (s.setNonce env a nonce) (r.setNonce env a nonce) := by
  obtain ⟨hcov, hobj⟩ := getOrNew_covers (a := a) hsim.covers
  have hleft := (getOrNew_sound (a := a) hsim.left).inv
  have hright := (getOrNew_sound (a := a) hsim.right).inv
  have halike := hcov.commitAlike hleft.toSettled hright.toSettled
  rw [← getOrNew_ctx env r a] at hobj
  unfold setNonce
  simp only
  refine ⟨hcov.cache, ?_, fun b hb => ?_, fun b q hq k hsuicided hnone => ?_⟩
  · simp only [setStateObject_journal, append_dirties, hcov.dirties]
    rfl
  · by_cases hba : b = a
    · subst hba
      refine ⟨_, _, setStateObject_live_self .., setStateObject_live_self .., ?_⟩
      exact ⟨by rw [hobj.account], hobj.code, hobj.dirtyCode, hobj.suicided, hobj.alike.storage⟩
    · have hb' : (r.getOrNewStateObject env a).1.journal.dirties.get b ≠ 0 := by
        simpa [Journal.dirtyCount, JournalEntry.dirtied, Tally.get_single, hba] using hb
      obtain ⟨o, q, ho, hq, hoq⟩ := halike.objects b hb'
      exact ⟨o, q, (setStateObject_live_of_ne _ _ hba).trans ho,
        (setStateObject_live_of_ne _ _ hba).trans hq, hoq⟩
  · by_cases hba : b = a
    · subst hba
      rw [setStateObject_live_self] at hq
      cases hq
      exact hright.clean_of_get getOrNew_get hsuicided hnone
    · rw [setStateObject_live_of_ne _ _ hba] at hq
      exact halike.clean b q hq k hsuicided hnone

theorem createFrame_sim {ret : Option (Option Bytes)} {body : Prog M} (hinv : Inv env s)
    (hcalls : InCreateFrame env self addr value
      (EveryCall env (PassesSetup env) origin addr body) s) :
    Option.Rel (Sim env)
      (createFrame env (revertTo env) self addr value ret (exec env origin addr body) s)
      (createFrame env restore self addr value ret (execWith env restore origin addr body) s) := by
  have hsim : Sim env s s := ⟨Covers.refl env _, rfl, hinv, hinv⟩
  unfold createFrame
  split
  · exact .some hsim
  · rename_i hrefused
    simp only [not_or, Bool.not_eq_false, Bool.not_eq_true] at hrefused
    obtain ⟨htransfer, hnonce⟩ := hrefused
    refine optionRel_imp (fun _ _ h => h.1) (deploy_lockstep (hsim.prepareCreate hnonce) ?_)
    intro hcollides r₁ hsim₁ hactive
    exact exec_lockstep origin body addr _ r₁ hsim₁ hactive (hcalls htransfer hnonce hcollides)

def CommitsSame (env : Env) : Option (StateDB M) → Option (StateDB M) → Prop :=
  Option.Rel fun s r => s.commit env = r.commit env

theorem executeMessage_commitsSame {msg : Message M} (hinv : Inv env s)
    (hlive : s.stateObjects msg.sender = none)
    (hcalls : EveryCallOf env (PassesSetup env) msg s) :
    CommitsSame env (executeMessage env (revertTo env) msg s)
      (executeMessage env restore msg s) := by
  have hsim : Sim env s s := ⟨Covers.refl env _, rfl, hinv, hinv⟩
  unfold executeMessage EveryCallOf at *
  cases htarget : msg.target with
  | call addr body fails =>
    rw [htarget] at hcalls
    refine optionRel_imp (fun _ _ h => h.1.commit) (callFrame_lockstep hsim (by simp) ?_)
    intro s₁ r₁ revid hs₁ hcode hsim₁ hactive
    exact exec_lockstep msg.sender body addr s₁ r₁ hsim₁ hactive (hcalls s₁ revid hs₁ hcode)
  | precompile addr run =>
    rw [htarget] at hcalls
    exact optionRel_imp (fun _ _ h => h.1.commit) (precompileFrame_lockstep hsim hcalls)
  | create addr body ret =>
    rw [htarget] at hcalls
    have hinv₁ := setNonce_inv_of_unused hinv hlive msg.nonce
    refine optionRel_bind (createFrame_sim hinv₁ hcalls) fun s' r' _ hsim' => ?_
    exact .some (commitWithCtx_congr (setNonce_commitAlike hsim' msg.sender _))

/-- **Revert atomicity.**  If every precompile call of a message passes its setup, the
store committed by the source is the one committed when failed frames are dropped. -/
theorem applyMessage_eq_restore (env : Env) (msg : Message M) (ctx : Store M)
    (hzero : ctx.code 0 = none)
    (hcalls : EveryCallOf env (PassesSetup env) msg (prepareAccessList msg (.new ctx))) :
    applyMessage env msg ctx = applyMessageWith env restore msg ctx := by
  obtain ⟨hinv, haside⟩ := prepareAccessList_inv env msg hzero
  have hlive : (prepareAccessList msg (.new ctx)).stateObjects msg.sender = none := by
    rw [haside.stateObjects]
    rfl
  have hsame := executeMessage_commitsSame hinv hlive hcalls
  unfold applyMessage applyMessageWith
  generalize executeMessage env (revertTo env) msg _ = x at hsame
  generalize executeMessage env restore msg _ = y at hsame
  cases hsame with
  | none => rfl
  | some h => exact congrArg some h

end Message

/-! ## A call that fails in its setup -/

def sampleStore : Store Unit where
  accounts a :=
    if a = 1 then some ⟨0, 1, .eth 1⟩
    else if a = 2 ∨ a = 3 then some ⟨1, 1, .eth 2⟩
    else none
  nextAccountNumber := 2
  bank := ⟨fun _ => 0, 0⟩
  code h := if h = 2 then some [0] else none
  storage _ _ := 0
  modules := ()

def samplePrecompile (method : Option (Method Unit)) : Precompile Unit where
  address := 800
  methodById _ := method
  receive := none
  fallback := none

def revertingMessage (method : Option (Method Unit)) : Message Unit where
  sender := 1
  nonce := 0
  value := 0
  target := .call 2 (.call .call 3 0
      (.op (.sstore 7 5)
        (.precompile .call 800 0 (.stateful (samplePrecompile method) [1, 2, 3, 4] true) .done))
      true .done) false
  precompiles := []
  accessList := []

def committedSlot (result : Option (EStateM.Result KeeperError (Store Unit) Unit)) :
    Option Hash :=
  result.map fun res => (finalState res).storage 3 7

theorem unknownSelector_leaks :
    committedSlot (applyMessage sampleEnv (revertingMessage none) sampleStore) = some 5 ∧
      committedSlot (applyMessageWith sampleEnv restore (revertingMessage none) sampleStore) =
        some 0 := by
  decide +kernel

def sampleMethod : Method Unit where
  isTransaction := true
  isFunction := true
  unpack _ := true
  run _ _ _ st := .ok st [] [⟨2, 0, .add⟩] true

theorem knownSelector_atomic :
    applyMessage sampleEnv (revertingMessage (some sampleMethod)) sampleStore =
      applyMessageWith sampleEnv restore (revertingMessage (some sampleMethod)) sampleStore := by
  apply applyMessage_eq_restore
  · rfl
  · refine inCallFrame_of_entered rfl ⟨inCallFrame_of_entered rfl ?_, fun _ _ => trivial⟩
    intro s' hs'
    cases hs'
    refine ⟨inPrecompileFrame_of_entered rfl ?_, fun _ _ => trivial⟩
    refine passesSetup_of_ok sampleMethod rfl ?_
    intro origin caller input st st' logs entries gasLeft h
    cases h
    rfl

end Haqq.Evm
