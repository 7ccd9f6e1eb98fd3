import Haqq.Chain.Bank
import Haqq.Evm.Commit
import Haqq.Evm.Machine
import Haqq.Evm.Snapshots

/-!
# A commit writes what the StateDB reports

Without precompile calls a commit writes the live objects of the dirty accounts to `ctx`.  `Synced`
says that an account that is not dirty reports what `ctx` has.  An account that is created over an
existing one carries no dirty mark, so nothing of the existing one may get lost: `CreatesFresh`.
Both callers of `CreateAccount` in the interpreter see to that (`createsFresh_of_call`,
`createsFresh_of_create`).

* `commitObject_ok`, `commitLoop_untouched` and `commitLoop_written`: what one commit writes.
* `Synced.write` and `synced_of_run`: the invariant along operations, snapshots and reverts.
* `commit_reports`: after a commit the keeper has what the StateDB reported.
-/

namespace Haqq.Evm

open Lib StateDB Function

variable {M : Type} {env : Env}

/-! ## What one commit writes -/

section Writes

variable {st st' : Store M} {a b : Address} {u : Unit}

theorem setBalance_ok {amount : Int} (h : (setBalance env a amount).run st = .ok u st') :
    (∃ bank, st' = st.setBank bank) ∧
      ∀ b, (getBalance env st' b : Int) = if b = a then amount else getBalance env st b := by
  unfold setBalance at h
  simp only [run_bind_ok, get_then] at h
  split at h
  · rename_i hpos
    simp only [run_bind_ok, mintCoins, run_modify_ok] at h
    obtain ⟨_, _, rfl, h⟩ := h
    unfold sendCoinsFromModuleToAccount at h
    split at h
    · exact (run_throw_ok.mp h).elim
    · obtain ⟨bank, hbank, rfl⟩ := Bank.run_liftBank_ok.mp h
      refine ⟨⟨bank, rfl⟩, fun b => ?_⟩
      have hsend := Ledger.balance_send hbank b env.evmDenom
      rw [Ledger.balance_mint, Tally.get_single_self] at hsend
      simp only [getBalance, Store.setBank_bank] at hpos hsend ⊢
      by_cases hba : b = a
      · subst hba
        rw [if_pos rfl] at hsend ⊢
        omega
      · rw [if_neg hba] at hsend ⊢
        omega
  · split at h
    · rename_i hpos hneg
      simp only [run_bind_ok] at h
      obtain ⟨_, st₁, hsent, hburned⟩ := h
      obtain ⟨bank, hbank, rfl⟩ := Bank.run_liftBank_ok.mp hsent
      obtain ⟨bank', hbank', rfl⟩ := Bank.run_liftBank_ok.mp hburned
      refine ⟨⟨bank', rfl⟩, fun b => ?_⟩
      have hsend := Ledger.balance_send hbank b env.evmDenom
      have hburn := Ledger.balance_burn hbank' b env.evmDenom
      rw [Tally.get_single_self] at hsend hburn
      simp only [getBalance, Store.setBank_bank] at hneg hsend hburn ⊢
      by_cases hba : b = a
      · subst hba
        rw [if_pos rfl] at hsend ⊢
        omega
      · rw [if_neg hba] at hsend ⊢
        omega
    · rename_i hpos hneg
      obtain ⟨-, rfl⟩ := run_pure_ok.mp h
      refine ⟨⟨st.bank, rfl⟩, fun b => ?_⟩
      by_cases hba : b = a
      · subst hba
        rw [if_pos rfl]
        omega
      · rw [if_neg hba]

structure Untouched (env : Env) (b : Address) (st st' : Store M) : Prop where
  account : st'.accounts b = st.accounts b
  balance : getBalance env st' b = getBalance env st b
  storage : st'.storage b = st.storage b

theorem Untouched.refl (b : Address) (st : Store M) : Untouched env b st st := ⟨rfl, rfl, rfl⟩

theorem Untouched.trans {st₁ : Store M} (h : Untouched env b st st₁)
    (h' : Untouched env b st₁ st') : Untouched env b st st' :=
  ⟨h'.account.trans h.account, h'.balance.trans h.balance, h'.storage.trans h.storage⟩

theorem deleteAccount_ok (h : (deleteAccount env a).run st = .ok u st') :
    (st.accounts a = none ∧ st' = st) ∨
    (st.accounts a ≠ none ∧ st'.accounts = update st.accounts a none ∧
      st'.storage = update st.storage a (fun _ => 0) ∧
      ∀ b, getBalance env st' b = if b = a then 0 else getBalance env st b) := by
  unfold deleteAccount at h
  simp only [run_bind_ok, get_then] at h
  cases hold : st.accounts a with
  | none =>
    rw [hold] at h
    obtain ⟨-, rfl⟩ := run_pure_ok.mp h
    exact .inl ⟨rfl, rfl⟩
  | some acct =>
    rw [hold] at h
    simp only at h
    split at h
    · exact (run_throw_ok.mp h).elim
    · simp only [run_bind_ok, run_modify_ok] at h
      obtain ⟨_, st₁, hbalance, rfl⟩ := h
      obtain ⟨⟨bank, rfl⟩, hbalances⟩ := setBalance_ok hbalance
      refine .inr ⟨by simp, rfl, rfl, fun b => ?_⟩
      have hb := hbalances b
      split at hb
      · rw [if_pos ‹_›]
        exact_mod_cast hb
      · rw [if_neg ‹_›]
        exact_mod_cast hb

theorem commitObject_ok {o : StateObject} (h : (commitObject env a o).run st = .ok u st') :
    (∀ b, b ≠ a → Untouched env b st st') ∧
    (o.suicided = false →
      (∃ acct, (st.accounts a = some acct ∨
          (st.accounts a = none ∧ acct.kind = .eth env.emptyCodeHash)) ∧
        st'.accounts a = some { acct with
          sequence := o.account.nonce
          kind := acct.kind.setCodeHash o.account.codeHash }) ∧
      (getBalance env st' a : Int) = o.account.balance ∧
      ∀ k, st'.storage a k = (o.dirtyStorage.get k).getD (st.storage a k)) ∧
    (o.suicided = true → st'.accounts a = none ∧
      ((st.accounts a = none ∧ st' = st) ∨
        (getBalance env st' a = 0 ∧ ∀ k, st'.storage a k = 0))) := by
  cases hsuicided : o.suicided with
  | true =>
    simp only [commitObject, hsuicided, if_true] at h
    refine ⟨fun b hba => ?_, by simp, fun _ => ?_⟩
    · rcases deleteAccount_ok h with ⟨-, rfl⟩ | ⟨-, haccounts, hstorage, hbalance⟩
      · exact .refl b _
      · have hb := hbalance b
        rw [if_neg hba] at hb
        exact ⟨by simp [haccounts, hba], hb, by simp [hstorage, hba]⟩
    · rcases deleteAccount_ok h with ⟨hnone, rfl⟩ | ⟨-, haccounts, hstorage, hbalance⟩
      · exact ⟨hnone, .inl ⟨hnone, rfl⟩⟩
      · have ha := hbalance a
        rw [if_pos rfl] at ha
        exact ⟨by simp [haccounts], .inr ⟨ha, by simp [hstorage]⟩⟩
  | false =>
    simp only [commitObject_eq hsuicided, run_bind_ok, run_modify_ok] at h
    obtain ⟨_, _, rfl, _, st₁, hset, rfl⟩ := h
    obtain ⟨⟨bank, rfl⟩, hbalance⟩ := setBalance_ok hset
    obtain ⟨haccounts, hstorage, hbank, -⟩ := writeCode_fields o st
    refine ⟨fun b hba => ⟨?_, ?_, ?_⟩,
      fun _ => ⟨⟨_, ?_, update_self _ _ _⟩, ?_, fun k => ?_⟩, by simp⟩
    · simp [writeStorage, writeAccount, hba, haccounts]
    · have hb := hbalance b
      rw [if_neg hba] at hb
      simp only [getBalance, writeAccount, hbank] at hb ⊢
      exact_mod_cast hb
    · simp [writeStorage, writeAccount, hba, hstorage, Store.setBank]
    · rw [haccounts]
      cases st.accounts a <;> simp
    · exact (hbalance a).trans (if_pos rfl)
    · simp [writeStorage, writeAccount, hstorage, Store.setBank]

end Writes

variable {u : Unit} {l : List Address}

section Loop

variable {s : StateDB M} {st st' : Store M} {a b : Address} {o : StateObject}

theorem commitAddress_untouched (hba : b ≠ a) (h : (s.commitAddress env a).run st = .ok u st') :
    Untouched env b st st' := by
  unfold commitAddress at h
  split at h
  · exact (commitObject_ok h).1 b hba
  · exact (run_throw_ok.mp h).elim

theorem commitLoop_untouched (hb : b ∉ l) (h : (l.forM (s.commitAddress env)).run st = .ok u st') :
    Untouched env b st st' := by
  have hstep : ∀ a ∈ l, ∀ t t', (s.commitAddress env a).run t = .ok ⟨⟩ t' →
      Untouched env b st t → Untouched env b st t' := by
    intro a ha t t' hrun ht
    have hba : b ≠ a := by
      rintro rfl
      exact hb ha
    exact ht.trans (commitAddress_untouched hba hrun)
  exact run_forM_invariant hstep h (.refl b st)

theorem commitLoop_written (hnodup : l.Nodup) (ha : a ∈ l) (ho : s.stateObjects a = some o)
    (h : (l.forM (s.commitAddress env)).run st = .ok u st') :
    ∃ st₁ st₂, Untouched env a st st₁ ∧ (commitObject env a o).run st₁ = .ok () st₂ ∧
      Untouched env a st₂ st' := by
  induction l generalizing st with
  | nil => cases ha
  | cons c rest ih =>
    obtain ⟨hc, hrest⟩ := List.nodup_cons.mp hnodup
    obtain ⟨st₁, hst₁, hloop⟩ := run_forM_cons_ok.mp h
    rcases List.mem_cons.mp ha with rfl | hmem
    · simp only [commitAddress, ho] at hst₁
      exact ⟨st, st₁, .refl a st, hst₁, commitLoop_untouched hc hloop⟩
    · have hac : a ≠ c := by
        rintro rfl
        exact hc hmem
      obtain ⟨st₂, st₃, hbefore, hwritten, hafter⟩ := ih hrest hmem hloop
      exact ⟨st₂, st₃, (commitAddress_untouched hac hst₁).trans hbefore, hwritten, hafter⟩

end Loop

/-! ## Accounts that are not dirty are unchanged -/

structure Synced (env : Env) (ctx : Store M) (s : StateDB M) : Prop where
  ctx_eq : s.ctx = ctx
  cacheStore : s.cacheStore = ctx
  accessList : s.accessList.WellFormed
  dirtyLive : ∀ a, s.journal.dirties.get a ≠ 0 → s.stateObjects a ≠ none
  clean : ∀ a, s.journal.dirties.get a = 0 →
    Option.Rel (SameObject env ctx a) (s.getStateObject env a)
      ((getAccount env ctx a).map newObject)

section Synced

variable {ctx : Store M} {s s' t : StateDB M} {a : Address} {o : StateObject} {e : JournalEntry M}

theorem Synced.new (ctx : Store M) : Synced env ctx (.new ctx) :=
  ⟨rfl, rfl, AccessList.wellFormed_new, by simp [StateDB.new],
    fun a _ => optionRel_refl (SameObject.refl ctx a) _⟩

theorem Synced.of_sameView (hview : SameView env s t) (h : Synced env ctx t) :
    Synced env ctx s := by
  refine ⟨hview.ctx.trans h.ctx_eq, hview.cache.trans h.cacheStore, ?_, fun a ha => ?_,
    fun a ha => ?_⟩
  · rw [hview.accessList]
    exact h.accessList
  · rw [hview.dirties] at ha
    exact hview.live a (h.dirtyLive a ha)
  · rw [hview.dirties] at ha
    have hobj := hview.objects a
    rw [h.ctx_eq] at hobj
    exact optionRel_trans hobj (h.clean a ha) fun _ _ _ => SameObject.trans

theorem Synced.update (h : Synced env ctx s) (hdirtied : e.dirtied = some a) (o : StateObject) :
    Synced env ctx ((s.append e).setStateObject a o) := by
  refine ⟨h.ctx_eq, h.cacheStore, h.accessList, fun b hb => ?_, fun b hb => ?_⟩
  · by_cases hba : b = a
    · subst hba
      simp
    · rw [setStateObject_live_of_ne _ o hba]
      exact h.dirtyLive b (get_dirties_append (.inl hdirtied) hba ▸ hb)
  · have hba : b ≠ a := by
      rintro rfl
      simp [Journal.dirtyCount, hdirtied] at hb
    rw [getStateObject_setStateObject_of_ne env _ o hba]
    exact h.clean b (get_dirties_append (.inl hdirtied) hba ▸ hb)

theorem Synced.aside (h : Synced env ctx s) (haside : Aside s s')
    (hwf : s'.accessList.WellFormed) : Synced env ctx s' := by
  refine ⟨haside.ctx.trans h.ctx_eq, haside.cacheStore.trans h.cacheStore, hwf, fun a ha => ?_,
    fun a ha => ?_⟩
  · rw [haside.dirties] at ha
    rw [haside.stateObjects]
    exact h.dirtyLive a ha
  · rw [haside.dirties] at ha
    rw [haside.get]
    exact h.clean a ha

theorem Synced.createAccount (h : Synced env ctx s)
    (hfresh : s.exist env a = true → s.getNonce env a = 0 ∧
      s.getCodeHash env a = env.emptyCodeHash) : Synced env ctx (s.createAccount env a) := by
  cases hget : s.getStateObject env a with
  | none =>
    rw [createAccount_of_none hget]
    exact h.update rfl _
  | some prev =>
    rw [createAccount_of_some hget]
    obtain ⟨hnonce, hcode⟩ := hfresh (by simp [exist, hget])
    simp only [getNonce, getCodeHash, hget] at hnonce hcode
    have hdirties : ((s.append (.resetObjectChange a prev)).setStateObject a
        (newObject { newEmptyAccount env with balance := prev.account.balance })).journal.dirties =
          s.journal.dirties := (append_aside (e := .resetObjectChange a prev) rfl).dirties
    refine ⟨h.ctx_eq, h.cacheStore, h.accessList, fun b hb => ?_, fun b hb => ?_⟩
    · by_cases hba : b = a
      · subst hba
        simp
      · rw [setStateObject_live_of_ne _ _ hba]
        rw [hdirties] at hb
        exact h.dirtyLive b hb
    · rw [hdirties] at hb
      have hclean := h.clean b hb
      by_cases hba : b = a
      · subst hba
        rw [getStateObject_setStateObject_self]
        rw [hget] at hclean
        cases hctx : getAccount env ctx b with
        | none =>
          rw [hctx] at hclean
          cases hclean
        | some account =>
          rw [hctx] at hclean
          obtain ⟨hsame⟩ := hclean
          -- nothing is lost: the old account had the nonce and the code of a new one
          have haccount : (⟨0, prev.account.balance, env.emptyCodeHash⟩ : Account) = account := by
            have hold : prev.account = account := hsame.account
            rw [← hold, ← hnonce, ← hcode]
          subst haccount
          exact .some (.refl ctx b _)
      · rw [getStateObject_setStateObject_of_ne env _ _ hba]
        exact hclean

end Synced

/-! ## The commit -/

/-- `CreateAccount` is only called where it loses neither a nonce nor code, as the machine does. -/
def CreatesFresh (env : Env) (s : StateDB M) : Cmd → Prop
  | .write (.createAccount a) => s.exist env a = true →
      s.getNonce env a = 0 ∧ s.getCodeHash env a = env.emptyCodeHash
  | _ => True

variable {ctx : Store M} {s : StateDB M}

/-- `Call` creates accounts that do not exist. -/
theorem createsFresh_of_call {a : Address} (h : s.exist env a = false) :
    CreatesFresh env s (.write (.createAccount a)) := fun hexist => by
  rw [h] at hexist
  cases hexist

/-- `create` has checked for a collision; accounts that exist have a code hash. -/
theorem createsFresh_of_create {a : Address} (hcollides : collides env s a = false)
    (hhash : s.exist env a = true → s.getCodeHash env a ≠ 0) :
    CreatesFresh env s (.write (.createAccount a)) := by
  intro hexist
  simp only [collides, Bool.or_eq_false_iff, Bool.and_eq_false_iff,
    bne_eq_false_iff_eq] at hcollides
  exact ⟨hcollides.1, hcollides.2.resolve_left (hhash hexist)⟩

theorem Synced.writes {s' : StateDB M} (h : Synced env ctx s) (hwrites : Writes s s') :
    Synced env ctx s' := by
  induction hwrites with
  | refl => exact h
  | update _ hdirtied o ih => exact ih.update hdirtied o
  | aside _ haside hwf ih => exact ih.aside haside (hwf ih.accessList)

theorem Synced.write {s' : StateDB M} {w : Write} (h : Synced env ctx s)
    (hfresh : CreatesFresh env s (.write w)) (hrun : w.exec env s = some s') :
    Synced env ctx s' := by
  rcases Write.writes hrun with hwrites | ⟨a, rfl⟩
  · exact h.writes hwrites
  · cases hrun
    exact h.createAccount hfresh

theorem synced_of_run {cmds : List Cmd}
    (hfresh : Run.AlongM (Cmd.exec env) (CreatesFresh env) (.new ctx) cmds)
    (hrun : execAll env (.new ctx) cmds = some s) : Synced env ctx s := by
  have hnew : Taken env (Synced env ctx) (fun _ => .new ctx) (.new ctx) :=
    taken_new _ (.new ctx)
  obtain ⟨taken, htaken, -⟩ := hnew.run (fun _ _ hview h => h.of_sameView hview)
    (fun _ h => h.accessList) (fun _ _ _ hfresh hwrite h => h.write hfresh hwrite) hfresh hrun
  exact htaken.inv

def WellKept (env : Env) (ctx : Store M) : Prop :=
  ∀ a, ctx.accounts a = none → getBalance env ctx a = 0 ∧ ∀ k, ctx.storage a k = 0

structure Reports (env : Env) (st : Store M) (s : StateDB M) (a : Address) : Prop where
  account : getAccount env st a = (s.getStateObject env a).map StateObject.account
  balance : (getBalance env st a : Int) = s.getBalance env a
  state : ∀ k, Evm.getState st a k = s.getState env a k

structure Deleted (env : Env) (st : Store M) (a : Address) : Prop where
  account : getAccount env st a = none
  balance : getBalance env st a = 0
  state : ∀ k, Evm.getState st a k = 0

variable {st st₂ : Store M}

section Commit

variable {ctx st' : Store M} {s : StateDB M} {a : Address} {o : StateObject}

theorem Synced.reports_of_clean (h : Synced env ctx s) (hctx : WellKept env ctx)
    (hclean : s.journal.dirties.get a = 0) (huntouched : Untouched env a ctx st') :
    s.hasSuicided env a = false ∧ Reports env st' s a := by
  have hobject := h.clean a hclean
  have hsame : getAccount env st' a = getAccount env ctx a := by
    simp only [getAccount, huntouched.account, huntouched.balance]
  cases hacct : ctx.accounts a with
  | none =>
    obtain ⟨hbalance, hstorage⟩ := hctx a hacct
    have hnone : getAccount env ctx a = none := by simp [getAccount, hacct]
    have hget : s.getStateObject env a = none := by
      rw [hnone] at hobject
      generalize s.getStateObject env a = x at hobject ⊢
      cases hobject
      rfl
    refine ⟨by simp [hasSuicided, hget], by rw [hsame, hnone, hget]; rfl, ?_, fun k => ?_⟩
    · simp [StateDB.getBalance, hget, huntouched.balance, hbalance]
    · simp [StateDB.getState, Evm.getState, hget, huntouched.storage, hstorage k]
  | some acct =>
    have hsome : ∃ account, getAccount env ctx a = some account ∧
        account.balance = getBalance env ctx a := by simp [getAccount, hacct]
    obtain ⟨account, hsome, hbalance⟩ := hsome
    rw [hsome] at hobject
    cases hget : s.getStateObject env a with
    | none => rw [hget] at hobject; cases hobject
    | some o =>
      rw [hget] at hobject
      obtain ⟨hoq⟩ := hobject
      refine ⟨by simp [hasSuicided, hget, hoq.suicided, newObject], ?_, ?_, fun k => ?_⟩
      · rw [hsame, hsome, hget, Option.map_some, hoq.account]
        rfl
      · simp [StateDB.getBalance, hget, hoq.account, huntouched.balance, newObject, hbalance]
      · have hslot := hoq.storage k
        have hempty : ((newObject account).dirtyStorage.get k).getD (ctx.storage a k) =
            ctx.storage a k := rfl
        rw [hempty] at hslot
        simp only [StateDB.getState, objectState, Evm.getState, hget, huntouched.storage,
          h.ctx_eq, hslot]

theorem reports_of_written (hget : s.getStateObject env a = some o) (hsuicided : o.suicided = false)
    (hbefore : Untouched env a s.ctx st) (hwritten : (commitObject env a o).run st = .ok u st₂)
    (hafter : Untouched env a st₂ st')
    (hcode : ∀ acct, s.ctx.accounts a = some acct → acct.kind.codeHash = none →
      s.getCodeHash env a = env.emptyCodeHash) : Reports env st' s a := by
  obtain ⟨⟨acct, hfound, haccount⟩, hbalance, hstorage⟩ := (commitObject_ok hwritten).2.1 hsuicided
  rw [hbefore.account] at hfound
  have hhash : (acct.kind.setCodeHash o.account.codeHash).codeHash.getD env.emptyCodeHash =
      o.account.codeHash := by
    cases hkind : acct.kind with
    | eth codeHash => rfl
    | clawback codeHash va => rfl
    | base =>
      rcases hfound with hfound | ⟨-, heth⟩
      · have hempty := hcode acct hfound (by rw [hkind]; rfl)
        simp only [getCodeHash, hget] at hempty
        exact hempty.symm
      · rw [hkind] at heth
        cases heth
  have hbalance' : (getBalance env st' a : Int) = o.account.balance := by
    rw [hafter.balance, hbalance]
  refine ⟨?_, ?_, fun k => ?_⟩
  · simp only [getAccount, hafter.account, haccount, Option.map_some, hget, hhash, hbalance']
  · simp only [StateDB.getBalance, hget, hbalance']
  · simp only [StateDB.getState, objectState, Evm.getState, hget, hafter.storage, hstorage,
      hbefore.storage]

theorem deleted_of_written (hctx : WellKept env ctx) (hsuicided : o.suicided = true)
    (hbefore : Untouched env a ctx st) (hwritten : (commitObject env a o).run st = .ok u st₂)
    (hafter : Untouched env a st₂ st') : Deleted env st' a := by
  obtain ⟨hnone, hcleared⟩ := (commitObject_ok hwritten).2.2 hsuicided
  refine ⟨by simp [getAccount, hafter.account, hnone], ?_, fun k => ?_⟩
  · rw [hafter.balance]
    rcases hcleared with ⟨hmissing, rfl⟩ | ⟨hzero, -⟩
    · rw [hbefore.balance]
      exact (hctx a (hbefore.account ▸ hmissing)).1
    · exact hzero
  · rw [Evm.getState, hafter.storage]
    rcases hcleared with ⟨hmissing, rfl⟩ | ⟨-, hzero⟩
    · rw [hbefore.storage]
      exact (hctx a (hbefore.account ▸ hmissing)).2 k
    · exact hzero k

end Commit

/-- **Commit.** After any operations whose `CreateAccount`s lose nothing, a successful commit leaves
in the keeper what the StateDB reports, and touches only dirty accounts. -/
theorem commit_reports (env : Env) (ctx : Store M) (cmds : List Cmd) {s : StateDB M}
    {st' : Store M} (hctx : WellKept env ctx)
    (hrun : execAll env (.new ctx) cmds = some s)
    (hfresh : Run.AlongM (Cmd.exec env) (CreatesFresh env) (.new ctx) cmds)
    (hcode : ∀ a acct, ctx.accounts a = some acct → acct.kind.codeHash = none →
      s.getCodeHash env a = env.emptyCodeHash)
    (hcommit : s.commit env = .ok () st') :
    (∀ a, s.hasSuicided env a = false → Reports env st' s a) ∧
    (∀ a, s.hasSuicided env a = true → Deleted env st' a) ∧
    (∀ a, a ∉ s.journal.sortedDirties → Untouched env a ctx st') ∧
    (∀ a ∈ s.journal.sortedDirties, s.stateObjects a ≠ none) := by
  have hsynced := synced_of_run hfresh hrun
  rw [StateDB.commit, commitWithCtx, hsynced.cacheStore] at hcommit
  have huntouched : ∀ a, a ∉ s.journal.sortedDirties → Untouched env a ctx st' := fun a ha =>
    commitLoop_untouched ha hcommit
  have hwritten : ∀ a ∈ s.journal.sortedDirties, ∃ o st₁ st₂, s.stateObjects a = some o ∧
      Untouched env a ctx st₁ ∧ (commitObject env a o).run st₁ = .ok () st₂ ∧
      Untouched env a st₂ st' := by
    intro a ha
    obtain ⟨o, ho⟩ :=
      Option.ne_none_iff_exists'.mp (hsynced.dirtyLive a (mem_sortedDirties.mp ha))
    obtain ⟨st₁, st₂, hloop⟩ := commitLoop_written (Tally.nodup_sorted _) ha ho hcommit
    exact ⟨o, st₁, st₂, ho, hloop⟩
  refine ⟨fun a halive => ?_, fun a hdead => ?_, huntouched, fun a ha =>
    hsynced.dirtyLive a (mem_sortedDirties.mp ha)⟩
  · by_cases ha : a ∈ s.journal.sortedDirties
    · obtain ⟨o, st₁, st₂, ho, hbefore, hcommitted, hafter⟩ := hwritten a ha
      have hget := getStateObject_of_live env s ho
      simp only [hasSuicided, hget] at halive
      rw [← hsynced.ctx_eq] at hbefore hcode
      exact reports_of_written hget halive hbefore hcommitted hafter (hcode a)
    · have hclean : s.journal.dirties.get a = 0 := not_not.mp fun h => ha (mem_sortedDirties.mpr h)
      exact (hsynced.reports_of_clean hctx hclean (huntouched a ha)).2
  · by_cases ha : a ∈ s.journal.sortedDirties
    · obtain ⟨o, st₁, st₂, ho, hbefore, hcommitted, hafter⟩ := hwritten a ha
      simp only [hasSuicided, getStateObject_of_live env s ho] at hdead
      exact deleted_of_written hctx hdead hbefore hcommitted hafter
    · have hclean : s.journal.dirties.get a = 0 := not_not.mp fun h => ha (mem_sortedDirties.mpr h)
      rw [(hsynced.reports_of_clean hctx hclean (huntouched a ha)).1] at hdead
      cases hdead

def commitCmds : List Cmd :=
  [.write (.createAccount 9), .write (.addBalance 5 3), .snapshot, .write (.setState 6 1 7),
    .revertToSnapshot 0, .write (.setState 6 2 8), .write (.suicide 9)]

def beforeCommit : StateDB Unit :=
  (execAll sampleEnv (.new snapshotStore) commitCmds).getD (.new snapshotStore)

theorem beforeCommit_reported :
    beforeCommit.getState sampleEnv 6 1 = 9 ∧ beforeCommit.getState sampleEnv 6 2 = 8 ∧
      ∃ st', beforeCommit.commit sampleEnv = .ok () st' ∧ Reports sampleEnv st' beforeCommit 6 ∧
        Deleted sampleEnv st' 9 := by
  have hctx : WellKept sampleEnv snapshotStore := by
    intro a ha
    refine ⟨rfl, fun k => ?_⟩
    have hne : ¬(a = 6 ∧ k = 1) := by
      rintro ⟨rfl, -⟩
      cases ha
    simp [snapshotStore, hne]
  have hfresh : Run.AlongM (Cmd.exec sampleEnv) (CreatesFresh sampleEnv) (.new snapshotStore)
      commitCmds :=
    ⟨fun h => absurd h (by decide +kernel), fun _ _ => ⟨trivial, fun _ _ => ⟨trivial, fun _ _ =>
      ⟨trivial, fun _ _ => ⟨trivial, fun _ _ => ⟨trivial, fun _ _ => ⟨trivial, fun _ _ =>
        trivial⟩⟩⟩⟩⟩⟩⟩
  have hcode : ∀ a acct, snapshotStore.accounts a = some acct → acct.kind.codeHash = none →
      beforeCommit.getCodeHash sampleEnv a = sampleEnv.emptyCodeHash := by
    intro a acct hacct hnone
    simp only [snapshotStore] at hacct
    split at hacct
    · cases hacct
      cases hnone
    · split at hacct
      · cases hacct
        cases hnone
      · cases hacct
  have hok : (match beforeCommit.commit sampleEnv with
      | .ok _ _ => true
      | .error _ _ => false) = true := by decide +kernel
  refine ⟨by decide +kernel, by decide +kernel, ?_⟩
  cases hcommit : beforeCommit.commit sampleEnv with
  | error e st' => simp [hcommit] at hok
  | ok u st' =>
    obtain ⟨hreports, hdeleted, -⟩ := commit_reports sampleEnv snapshotStore commitCmds hctx rfl
      hfresh hcode hcommit
    exact ⟨st', rfl, hreports 6 (by decide +kernel), hdeleted 9 (by decide +kernel)⟩

end Haqq.Evm
