import Haqq.Evm.Commit

/-!
# The nonces of externally owned accounts

The accounts of a set `owned` of addresses keep a given nonce and stay without code, and so do their
accounts in the cache context.  The journal may undo any part of the execution, so the invariant
speaks about its entries as well.
-/

namespace Haqq.Evm

open Lib StateDB Function

variable {M : Type} {env : Env}

/-- An account with the given nonce and without code; a missing one has nonce zero. -/
def NonceAt (env : Env) (nonce : UInt64) (st : Store M) (a : Address) : Prop :=
  match getAccount env st a with
  | some account => account.nonce = nonce ∧ account.codeHash = env.emptyCodeHash
  | none => nonce = 0

structure PlainObject (env : Env) (nonce : UInt64) (o : StateObject) : Prop where
  nonce : o.account.nonce = nonce
  codeHash : o.account.codeHash = env.emptyCodeHash
  code : o.code.getD [] = []
  suicided : o.suicided = false

variable {nonce : UInt64} {st : Store M} {a : Address}

theorem NonceAt.of_accounts {st' : Store M} (h : NonceAt env nonce st a)
    (heq : st'.accounts a = st.accounts a) : NonceAt env nonce st' a := by
  unfold NonceAt getAccount at h ⊢
  rw [heq]
  cases hacct : st.accounts a with
  | none => simpa [hacct] using h
  | some acct => simpa [hacct] using h

theorem nonceAt_some {acct : AuthAccount} (hacct : st.accounts a = some acct) :
    NonceAt env nonce st a ↔
      acct.sequence = nonce ∧ acct.kind.codeHash.getD env.emptyCodeHash = env.emptyCodeHash := by
  simp [NonceAt, getAccount, hacct]

theorem nonceAt_none (hacct : st.accounts a = none) : NonceAt env nonce st a ↔ nonce = 0 := by
  simp [NonceAt, getAccount, hacct]

variable {o : StateObject}

def PlainView (env : Env) (nonce : UInt64) : Option StateObject → Prop
  | some o => PlainObject env nonce o
  | none => nonce = 0

theorem NonceAt.view (h : NonceAt env nonce st a) :
    PlainView env nonce ((getAccount env st a).map newObject) := by
  unfold NonceAt at h
  cases haccount : getAccount env st a with
  | none => rwa [haccount] at h
  | some account =>
    rw [haccount] at h
    exact ⟨h.1, h.2, rfl, rfl⟩

theorem PlainObject.objectCode (h : PlainObject env nonce o) (s : StateDB M) :
    (s.objectCode env o).getD [] = [] := by
  unfold StateDB.objectCode
  cases hcode : o.code with
  | some code =>
    have hempty := h.code
    rwa [hcode] at hempty
  | none => simp [h.codeHash]

structure Watch (M : Type) where
  ctx : Store M
  owned : Set Address
  /-- The accounts that are followed in the cache context as well. -/
  kept : Set Address
  kept_owned : kept ⊆ owned
  nonce : Address → UInt64
  /-- The journal at the beginning, which is not undone. -/
  base : List (JournalEntry M)

variable {w : Watch M}

def PlainEntry (env : Env) (w : Watch M) : JournalEntry M → Prop
  | .createObjectChange a => a ∈ w.owned → NonceAt env (w.nonce a) w.ctx a
  | .resetObjectChange a prev => a ∈ w.owned → PlainObject env (w.nonce a) prev
  | .suicideChange a prev _ => a ∈ w.owned → prev = false
  | .nonceChange a prev => a ∈ w.owned → prev = w.nonce a
  | .codeChange a prevcode prevhash =>
    a ∈ w.owned → prevcode.getD [] = [] ∧ prevhash = env.emptyCodeHash
  | .precompileCallChange multiStore => ∀ a ∈ w.kept, NonceAt env (w.nonce a) multiStore a
  | _ => True

structure PlainState (env : Env) (w : Watch M) (s : StateDB M) : Prop where
  ctx : s.ctx = w.ctx
  objects : ∀ a ∈ w.owned, PlainView env (w.nonce a) (s.getStateObject env a)
  cache : ∀ a ∈ w.kept, NonceAt env (w.nonce a) s.cacheStore a

structure Plain (env : Env) (w : Watch M) (s : StateDB M) : Prop extends PlainState env w s where
  entries : ∃ newer, s.journal.entries = newer ++ w.base ∧ ∀ e ∈ newer, PlainEntry env w e
  revisions : ∀ rev ∈ s.validRevisions, w.base.length ≤ rev.journalIndex

/-! ## Operations -/

variable {e : JournalEntry M}

section Operations

variable {s : StateDB M} {a : Address}

theorem PlainState.object (h : PlainState env w s) (ha : a ∈ w.owned)
    (ho : s.getStateObject env a = some o) : PlainObject env (w.nonce a) o := by
  have hview := h.objects a ha
  rwa [ho] at hview

theorem PlainState.missing (h : PlainState env w s) (ha : a ∈ w.owned)
    (hnone : s.getStateObject env a = none) : w.nonce a = 0 := by
  have hview := h.objects a ha
  rwa [hnone] at hview

theorem PlainState.setObject (h : PlainState env w s)
    (ho : a ∈ w.owned → PlainObject env (w.nonce a) o) :
    PlainState env w (s.setStateObject a o) := by
  refine ⟨h.ctx, fun b hb => ?_, h.cache⟩
  by_cases hba : b = a
  · subst hba
    rw [getStateObject_setStateObject_self]
    exact ho hb
  · rw [getStateObject_setStateObject_of_ne env s _ hba]
    exact h.objects b hb

theorem Plain.setObject (h : Plain env w s) (ho : a ∈ w.owned → PlainObject env (w.nonce a) o) :
    Plain env w (s.setStateObject a o) :=
  { h.toPlainState.setObject ho with
    entries := h.entries
    revisions := h.revisions }

theorem Plain.append (h : Plain env w s) (he : PlainEntry env w e) : Plain env w (s.append e) := by
  obtain ⟨newer, hentries, hnewer⟩ := h.entries
  refine { h with entries := ⟨e :: newer, ?_, ?_⟩ }
  · rw [append_entries, hentries]
    rfl
  · exact List.forall_mem_cons.mpr ⟨he, hnewer⟩

theorem Plain.record (h : Plain env w s) (he : PlainEntry env w e)
    (ho : a ∈ w.owned → PlainObject env (w.nonce a) o) :
    Plain env w ((s.append e).setStateObject a o) :=
  (h.append he).setObject ho

theorem plainObject_new (hnonce : w.nonce a = 0) (balance : Int) :
    PlainObject env (w.nonce a) (newObject { newEmptyAccount env with balance := balance }) :=
  ⟨hnonce.symm, rfl, rfl, rfl⟩

section

variable (h : Plain env w s)

include h

theorem Plain.createMissing (hnone : s.getStateObject env a = none) :
    Plain env w (s.createAccount env a) := by
  have hzero : a ∈ w.owned → w.nonce a = 0 := fun ha => h.missing ha hnone
  rw [createAccount_of_none hnone]
  refine h.record (fun ha => ?_) fun ha => plainObject_new (hzero ha) 0
  have hctx : w.ctx.accounts a = none := by
    have hlive := s.stateObjects_eq_none env hnone
    simpa [getStateObject, hlive, getAccount, h.ctx] using hnone
  exact (nonceAt_none hctx).mpr (hzero ha)

theorem Plain.createAccount (ha : a ∉ w.owned) :
    Plain env w (s.createAccount env a) := by
  cases hobj : s.getStateObject env a with
  | none => exact h.createMissing hobj
  | some prev =>
    rw [createAccount_of_some hobj]
    exact h.record (fun hmem => absurd hmem ha) fun hmem => absurd hmem ha

theorem Plain.getOrNew (a : Address) :
    Plain env w (s.getOrNewStateObject env a).1 ∧
      (a ∈ w.owned → PlainObject env (w.nonce a) (s.getOrNewStateObject env a).2) := by
  cases hobj : s.getStateObject env a with
  | none =>
    rw [getOrNew_of_none hobj]
    exact ⟨h.createMissing hobj, fun ha => plainObject_new (h.missing ha hobj) 0⟩
  | some o =>
    rw [getOrNew_of_some hobj]
    exact ⟨h, fun ha => h.object ha hobj⟩

theorem Plain.setObjectBalance (ho : a ∈ w.owned → PlainObject env (w.nonce a) o) (amount : Int) :
    Plain env w (s.setObjectBalance a o amount) :=
  h.record trivial fun ha => { ho ha with }

theorem Plain.addBalance (a : Address) (amount : Int) :
    Plain env w (s.addBalance env a amount) := by
  obtain ⟨hnew, ho⟩ := h.getOrNew a
  unfold StateDB.addBalance
  simp only
  split
  · exact hnew
  · exact hnew.setObjectBalance ho _

theorem Plain.transfer (sender recipient : Address) (amount : Nat) :
    Plain env w (transfer env s sender recipient amount) := by
  rw [Evm.transfer, subBalance_eq]
  exact (h.addBalance sender _).addBalance recipient amount

theorem Plain.setNonce (ha : a ∉ w.owned) (nonce : UInt64) :
    Plain env w (s.setNonce env a nonce) :=
  (h.getOrNew a).1.record (fun hmem => absurd hmem ha) fun hmem => absurd hmem ha

theorem Plain.setCode (ha : a ∉ w.owned) (code : Option Bytes) :
    Plain env w (s.setCode env a code) :=
  (h.getOrNew a).1.record (fun hmem => absurd hmem ha) fun hmem => absurd hmem ha

theorem Plain.setState (a : Address) (key value : Hash) :
    Plain env w (s.setState env a key value) := by
  obtain ⟨hnew, ho⟩ := h.getOrNew a
  unfold StateDB.setState
  simp only
  split
  · exact hnew
  · exact hnew.record trivial fun ha => { ho ha with }

theorem Plain.suicide (ha : a ∉ w.owned) : Plain env w (s.suicide env a) := by
  unfold StateDB.suicide
  split
  · exact h
  · exact h.record (fun hmem => absurd hmem ha) fun hmem => absurd hmem ha

theorem Plain.addLog (address : Address) (topics : List Hash) (data : Bytes) :
    Plain env w (s.addLog address topics data) :=
  have happend : Plain env w (s.append .addLogChange) := h.append trivial
  { happend with }

theorem Plain.addAddressToAccessList (addr : Address) :
    Plain env w (s.addAddressToAccessList addr) := by
  unfold StateDB.addAddressToAccessList
  split
  · exact h
  · have happend : Plain env w (s.append (.accessListAddAccountChange addr)) := h.append trivial
    exact { happend with }

theorem Plain.appendIf (b : Bool) (he : PlainEntry env w e) :
    Plain env w (if b then s.append e else s) := by
  split
  · exact h.append he
  · exact h

theorem Plain.addSlotToAccessList (addr : Address) (slot : Hash) :
    Plain env w (s.addSlotToAccessList addr slot) := by
  have hfirst := h.appendIf (e := .accessListAddAccountChange addr)
    (s.accessList.addSlot addr slot).2.1 trivial
  have hsecond := hfirst.appendIf (e := .accessListAddSlotChange addr slot)
    (s.accessList.addSlot addr slot).2.2 trivial
  exact { hsecond with }

theorem Plain.snapshot : Plain env w s.snapshot.1 := by
  obtain ⟨newer, hentries, _⟩ := h.entries
  refine { h with revisions := List.forall_mem_cons.mpr ⟨?_, h.revisions⟩ }
  rw [hentries, List.length_append]
  exact Nat.le_add_left _ _

end

end Operations

/-! ## Undoing -/

variable {revid : Nat}

section Undo

variable {s s' : StateDB M}

theorem PlainState.modifyObject (h : PlainState env w s) {f : StateObject → StateObject}
    (hs' : s.modifyObject env a f = some s')
    (hf : a ∈ w.owned → ∀ o, PlainObject env (w.nonce a) o → PlainObject env (w.nonce a) (f o)) :
    PlainState env w s' := by
  obtain ⟨o, ho, rfl⟩ := s.modifyObject_eq_some env hs'
  exact h.setObject fun ha => hf ha o (h.object ha ho)

theorem PlainState.revertEntry (h : PlainState env w s) (he : PlainEntry env w e)
    (hs' : s.revertEntry env e = some s') : PlainState env w s' := by
  cases e with
  | createObjectChange a =>
    cases hs'
    refine ⟨h.ctx, fun b hb => ?_, h.cache⟩
    by_cases hba : b = a
    · -- the account of `ctx` shows again
      subst hba
      simpa [getStateObject, h.ctx] using (he hb).view
    · simpa [getStateObject, hba] using h.objects b hb
  | resetObjectChange a prev =>
    cases hs'
    exact h.setObject he
  | suicideChange a prev prevbalance =>
    simp only [StateDB.revertEntry] at hs'
    split at hs'
    · cases hs'
      exact h
    · rename_i o ho
      cases hs'
      exact h.setObject fun ha => { h.object ha ho with suicided := he ha }
  | balanceChange a prev => exact h.modifyObject hs' fun _ _ ho => { ho with }
  | nonceChange a prev => exact h.modifyObject hs' fun ha _ ho => { ho with nonce := he ha }
  | storageChange a key prevalue => exact h.modifyObject hs' fun _ _ ho => { ho with }
  | codeChange a prevcode prevhash =>
    exact h.modifyObject hs' fun ha _ ho => { ho with code := (he ha).1, codeHash := (he ha).2 }
  | refundChange prev =>
    cases hs'
    exact { h with }
  | addLogChange =>
    cases hs'
    exact { h with }
  | accessListAddAccountChange address =>
    cases hs'
    exact { h with }
  | accessListAddSlotChange address slot =>
    simp only [StateDB.revertEntry, Option.map_eq_some_iff] at hs'
    obtain ⟨al, _, rfl⟩ := hs'
    exact { h with }
  | precompileCallChange multiStore =>
    cases hs'
    exact { h with cache := he }

theorem PlainState.revertEntries {es : List (JournalEntry M)} (h : PlainState env w s)
    (hes : ∀ e ∈ es, PlainEntry env w e) (hs' : s.revertEntries env es = some s') :
    PlainState env w s' := by
  induction es generalizing s with
  | nil =>
    cases hs'
    exact h
  | cons e es ih =>
    simp only [StateDB.revertEntries, Option.bind_eq_bind, Option.bind_eq_some_iff] at hs'
    obtain ⟨s₁, hs₁, hrest⟩ := hs'
    obtain ⟨he, hes⟩ := List.forall_mem_cons.mp hes
    have hundone : PlainState env w (s₁.undirty e) := { h.revertEntry he hs₁ with }
    exact ih hundone hes hrest

theorem Plain.revertToSnapshot (h : Plain env w s) (hs' : s.revertToSnapshot env revid = some s') :
    Plain env w s' := by
  obtain ⟨rev, older, t, hsuffix, -, ht, rfl⟩ := revertToSnapshot_eq_some env hs'
  have hindex := h.revisions rev (hsuffix.subset (by simp))
  obtain ⟨newer, hentries, hnewer⟩ := h.entries
  have hcount : s.journal.entries.length - rev.journalIndex ≤ newer.length := by
    rw [hentries, List.length_append]
    omega
  have htake : s.journal.entries.take (s.journal.entries.length - rev.journalIndex) =
      newer.take (s.journal.entries.length - rev.journalIndex) := by
    rw [hentries, List.take_append_of_le_length (hentries ▸ hcount)]
  have hdropped : s.journal.entries.drop (s.journal.entries.length - rev.journalIndex) =
      newer.drop (s.journal.entries.length - rev.journalIndex) ++ w.base := by
    rw [hentries, List.drop_append_of_le_length (hentries ▸ hcount)]
  rw [htake] at ht
  have hstate : PlainState env w t :=
    h.toPlainState.revertEntries (fun e he => hnewer e (List.mem_of_mem_take he)) ht
  exact { hstate with
    entries := ⟨_, hdropped, fun e he => hnewer e (List.mem_of_mem_drop he)⟩
    revisions := fun r hr => h.revisions r (hsuffix.subset (by simp [hr])) }

end Undo

/-! ## Committing -/

variable {s : StateDB M} {u : Unit}

section Commit

variable {a b : Address} {nonce : UInt64}

theorem fixes_commitObject_accounts (hne : a ≠ b) (o : StateObject) :
    Fixes (fun st : Store M => st.accounts a) (commitObject env b o) :=
  fixes_commitObject (fun _ _ => rfl) (fun _ _ => by simp [hne]) fun _ st =>
    ⟨by simp [writeAccount, hne, (writeCode_fields o st).1], rfl⟩

theorem nonceAt_commitObject (ho : PlainObject env nonce o) (st : Store M) :
    NonceAt env nonce (finalState ((commitObject env a o).run st)) a := by
  have hrest : Fixes (fun st : Store M => st.accounts a) (do
      setBalance env a o.account.balance
      modify (writeStorage a o)) :=
    .bind (fixes_setBalance (fun _ _ => rfl) a _) fun _ => .modify fun _ => rfl
  have hfix := hrest (writeAccount env a o.account (writeCode o st))
  rw [commitObject_eq ho.suicided, EStateM.run_bind, EStateM.run_modify]
  refine (nonceAt_some (hfix.trans (update_self _ _ _))).mpr ⟨ho.nonce, ?_⟩
  rw [ho.codeHash]
  cases (((writeCode o st).accounts a).getD _).kind <;> rfl

theorem preserves_commitAddress (hobject : ∀ o, s.stateObjects a = some o → PlainObject env nonce o)
    (b : Address) : Preserves (fun st => NonceAt env nonce st a) (s.commitAddress env b) := by
  unfold commitAddress
  split
  · rename_i o ho
    by_cases hba : a = b
    · subst hba
      exact fun st _ => nonceAt_commitObject (hobject o ho) st
    · intro st hst
      exact hst.of_accounts (fixes_commitObject_accounts hba o st)
  · exact .throw _

theorem PlainState.commitWithCtx (h : PlainState env w s) (ha : a ∈ w.kept) :
    NonceAt env (w.nonce a) (finalState ((s.commitWithCtx env).run s.cacheStore)) a := by
  refine Preserves.forM (fun b _ => preserves_commitAddress (fun o ho => ?_) b) _ (h.cache a ha)
  exact h.object (w.kept_owned ha) (getStateObject_of_live env s ho)

theorem nonceAt_commit_of_dirty (hobject : ∀ o, s.stateObjects a = some o → PlainObject env nonce o)
    (hdirty : s.journal.dirties.get a ≠ 0) (hcommit : s.commit env = .ok u st) :
    NonceAt env nonce st a := by
  refine Preserves.forM_of_mem (P := fun st => NonceAt env nonce st a)
    (mem_sortedDirties.mpr hdirty) (fun b _ => preserves_commitAddress hobject b)
    (fun st₁ st₂ hst => ?_) hcommit
  unfold commitAddress at hst
  split at hst
  · rename_i o ho
    have hat := nonceAt_commitObject (a := a) (hobject o ho) st₁
    rwa [hst] at hat
  · cases hst

end Commit

/-! ## Precompiles -/

def Method.KeepsNonces (env : Env) (owned : Set Address) (method : Method M) : Prop :=
  ∀ origin caller input st st' logs entries gasLeft,
    method.run origin caller input st = .ok st' logs entries gasLeft →
    ∀ a ∈ owned, ∀ nonce, NonceAt env nonce st a → NonceAt env nonce st' a

structure Precompile.KeepsNonces (env : Env) (owned : Set Address) (p : Precompile M) : Prop where
  methodById : ∀ selector method, p.methodById selector = some method → method.KeepsNonces env owned
  receive : ∀ method, p.receive = some method → method.KeepsNonces env owned
  fallback : ∀ method, p.fallback = some method → method.KeepsNonces env owned

variable {owned : Set Address} {p : Precompile M} {method : Method M}

theorem Precompile.KeepsNonces.selectMethod (h : p.KeepsNonces env owned) {contract : Contract}
    (hmethod : p.selectMethod contract = some (.ok method)) : method.KeepsNonces env owned := by
  obtain hreceive | hfallback | ⟨-, hfound⟩ := selectMethod_ok hmethod
  · exact h.receive _ hreceive
  · exact h.fallback _ hfallback
  · exact h.methodById _ _ hfound

variable {err : Option PrecompileError} {cms : Store M} {origin : Address}

section Run

variable {s s' : StateDB M} {p : Precompile M} {contract : Contract} {readOnly : Bool}

section

variable (h : Plain env w s)

include h

theorem Plain.withCache (hst : ∀ a ∈ w.kept, NonceAt env (w.nonce a) st a) :
    Plain env w { s with cacheCtx := some st } :=
  { h with cache := hst }

theorem Plain.runSetup {r : Except PrecompileError (Method M)}
    (hs' : p.runSetup env contract readOnly s = some (s', r)) :
    Plain env w s' ∧ ∀ method, r = .ok method → p.selectMethod contract = some (.ok method) := by
  have hcommit := fun a ha => h.commitWithCtx (a := a) ha
  obtain ⟨_, st, hrun, rfl, rfl⟩ | ⟨st, hrun, hcases⟩ := Precompile.runSetup_cases hs'
  · rw [hrun] at hcommit
    exact ⟨h.withCache hcommit, nofun⟩
  · rw [hrun] at hcommit
    obtain ⟨_, rfl, rfl⟩ | ⟨-, rfl, rfl⟩ | ⟨method, hselected, -, -, rfl, rfl⟩ := hcases
    · exact ⟨h.withCache hcommit, nofun⟩
    · exact ⟨h.withCache h.cache, nofun⟩
    · refine ⟨h.withCache hcommit, fun method' hmethod' => ?_⟩
      cases hmethod'
      exact hselected

theorem Plain.addLogs (logs : List LogEntry) :
    Plain env w (Precompile.addLogs s logs) := by
  unfold Precompile.addLogs
  induction logs generalizing s with
  | nil => exact h
  | cons log logs ih => exact ih (h.addLog log.address log.topics log.data)

theorem Plain.addBalanceEntries (entries : List BalanceChangeEntry) :
    Plain env w (entries.foldl (Precompile.addBalanceEntry env) s) := by
  induction entries generalizing s with
  | nil => exact h
  | cons entry entries ih =>
    rw [List.foldl_cons, addBalanceEntry_eq]
    exact ih (h.addBalance _ _)

theorem Plain.addPrecompileFn (addr : Address)
    (hcms : ∀ a ∈ w.kept, NonceAt env (w.nonce a) cms a) :
    Plain env w (s.addPrecompileFn env addr cms).1 := by
  have happend := (h.getOrNew addr).1.append (e := .precompileCallChange cms) hcms
  exact { happend with }

theorem Plain.runAtomic (hmethod : method.KeepsNonces env w.owned)
    (hcms : ∀ a ∈ w.kept, NonceAt env (w.nonce a) cms a)
    (hs' : p.runAtomic env origin contract method cms s = some (s', err)) : Plain env w s' := by
  -- a failing method is undone by putting back the multistore
  have hundone : ∀ st logs, Plain env w
      ((Precompile.addLogs { s with cacheCtx := some st } logs).revertMultiStore cms) := by
    intro st logs
    show Plain env w ((Precompile.addLogs (Evm.withCache s st) logs).revertMultiStore cms)
    rw [addLogs_withCache]
    exact (h.addLogs logs).withCache hcms
  unfold Precompile.runAtomic at hs'
  split at hs'
  · cases hs'
  · cases hs'
    exact hundone _ _
  · cases hs'
    exact hundone _ _
  · rename_i st logs entries gasLeft hrun
    have hran : ∀ a ∈ w.kept, NonceAt env (w.nonce a) st a := fun a ha =>
      hmethod _ _ _ _ _ _ _ _ hrun a (w.kept_owned ha) _ (h.cache a ha)
    have hjournal := ((h.withCache hran).addLogs logs).addBalanceEntries entries
      |>.addPrecompileFn p.address hcms
    simp only [Precompile.addJournalEntries] at hs'
    split at hs'
    · split at hs'
      · rename_i s'' hs''
        cases hs'
        rw [hs''] at hjournal
        exact hjournal
      · rename_i s'' hs''
        cases hs'
        rw [hs''] at hjournal
        exact hjournal.withCache hcms
    · cases hs'
      exact hundone _ _

theorem Plain.runPrecompile (hp : p.KeepsNonces env w.owned)
    (hs' : p.run env origin contract readOnly s = some (s', err)) : Plain env w s' := by
  unfold Precompile.run at hs'
  split at hs'
  · cases hs'
  · rename_i s₁ e hsetup
    cases hs'
    exact (h.runSetup hsetup).1
  · rename_i s₁ method hsetup
    obtain ⟨hs₁, hselect⟩ := h.runSetup hsetup
    exact hs₁.runAtomic (hp.selectMethod (hselect method rfl)) h.cache hs'

end

end Run

/-! ## Frames -/

def PrecompileRun.KeepsNonces (env : Env) (owned : Set Address) : PrecompileRun M → Prop
  | .stateful p _ _ => p.KeepsNonces env owned
  | _ => True

def Prog.LeavesOwned (env : Env) (owned : Set Address) : Prog M → Prop
  | .done => True
  | .op _ next => next.LeavesOwned env owned
  | .call _ _ _ body _ next => body.LeavesOwned env owned ∧ next.LeavesOwned env owned
  | .precompile _ _ _ run next => run.KeepsNonces env owned ∧ next.LeavesOwned env owned
  | .create addr _ body _ next =>
    addr ∉ owned ∧ body.LeavesOwned env owned ∧ next.LeavesOwned env owned

variable {kind : CallKind} {isPrecompile : Bool} {run : StateDB M → Option (StateDB M)}
  {ret : Option (Option Bytes)}

section Frames

variable {s s' : StateDB M} {self addr origin : Address} {value : Nat}

section

variable (h : Plain env w s)

include h

theorem Plain.enterCall
    (hs' : enterCall env kind isPrecompile self addr value s = .entered s' revid) :
    Plain env w s' := by
  have hsnap := h.snapshot
  obtain hs' | hs' | ⟨_, hs', hcases⟩ := enterCall_cases hs'
  · cases hs'
  · cases hs'
  · cases hs'
    rcases hcases with rfl | rfl | ⟨hnone, rfl⟩ | rfl
    · exact hsnap
    · exact hsnap.transfer _ _ _
    · exact (hsnap.createMissing hnone).transfer _ _ _
    · exact hsnap.addBalance _ _

theorem Plain.returned
    (hs' : Evm.enterCall env kind isPrecompile self addr value s = .returned s') :
    Plain env w s' := by
  obtain hs' | hs' | ⟨_, hs', -⟩ := enterCall_cases hs' <;> cases hs'
  exact h.snapshot

theorem Plain.notOwned_of_code (hcode : (s.getCode env a).getD [] ≠ []) :
    a ∉ w.owned := by
  intro ha
  apply hcode
  unfold StateDB.getCode
  cases hobj : s.getStateObject env a with
  | none => rfl
  | some o => exact (h.object ha hobj).objectCode s

theorem Plain.callFrame {fails : Bool} (hself : kind = .call ∨ self ∉ w.owned)
    (hrun : ∀ s₁ s₂, context kind self addr ∉ w.owned → Plain env w s₁ → run s₁ = some s₂ →
      Plain env w s₂)
    (hs' : callFrame env (revertTo env) self kind addr value fails run s = some s') :
    Plain env w s' := by
  unfold Evm.callFrame at hs'
  split at hs'
  · cases hs'
    exact h
  · rename_i s₁ hreturned
    cases hs'
    exact h.returned hreturned
  · rename_i s₁ revid hentered
    have hs₁ := h.enterCall hentered
    split at hs'
    · cases hs'
      exact hs₁
    · rename_i hcode
      -- the code runs for the account it belongs to, or for the caller
      have hcontext : context kind self addr ∉ w.owned := by
        have haddr := hs₁.notOwned_of_code hcode
        cases kind with
        | call => exact haddr
        | staticCall => exact haddr
        | callCode => exact hself.resolve_left (by decide)
        | delegateCall => exact hself.resolve_left (by decide)
      simp only [Option.bind_eq_bind, Option.bind_eq_some_iff] at hs'
      obtain ⟨s₂, hs₂, hs'⟩ := hs'
      have hplain := hrun s₁ s₂ hcontext hs₁ hs₂
      split at hs'
      · exact hplain.revertToSnapshot hs'
      · cases hs'
        exact hplain

theorem Plain.precompileFrame {run : PrecompileRun M}
    (hrun : run.KeepsNonces env w.owned)
    (hs' : precompileFrame env (revertTo env) origin self kind addr value run s = some s') :
    Plain env w s' := by
  unfold Evm.precompileFrame at hs'
  split at hs'
  · cases hs'
    exact h
  · rename_i s₁ hreturned
    cases hs'
    exact h.returned hreturned
  · rename_i s₁ revid hentered
    have hs₁ := h.enterCall hentered
    simp only [Option.bind_eq_bind, Option.bind_eq_some_iff] at hs'
    obtain ⟨⟨s₂, ok⟩, hs₂, hs'⟩ := hs'
    have hplain : Plain env w s₂ := by
      unfold runPrecompiledContract at hs₂
      split at hs₂
      · cases hs₂
        exact hs₁
      · cases hs₂
        exact hs₁
      · rw [Option.map_eq_some_iff] at hs₂
        obtain ⟨⟨s₃, err⟩, hs₃, hpair⟩ := hs₂
        cases hpair
        exact hs₁.runPrecompile hrun hs₃
    split at hs'
    · cases hs'
      exact hplain
    · exact hplain.revertToSnapshot hs'

theorem Plain.deploy (haddr : addr ∉ w.owned)
    (hrun : ∀ s₁ s₂, Plain env w s₁ → run s₁ = some s₂ → Plain env w s₂)
    (hs' : deploy env (revertTo env) self addr value ret run s = some s') : Plain env w s' := by
  unfold Evm.deploy at hs'
  split at hs'
  · cases hs'
    exact h
  · simp only [Option.bind_eq_bind, Option.bind_eq_some_iff] at hs'
    obtain ⟨s₂, hs₂, hs'⟩ := hs'
    have hentered : Plain env w (enterCreate env self addr value s.snapshot.1) :=
      ((h.snapshot.createAccount haddr).setNonce haddr 1).transfer _ _ _
    have hplain := hrun _ s₂ hentered hs₂
    split at hs'
    · cases hs'
      exact hplain.setCode haddr _
    · exact hplain.revertToSnapshot hs'

theorem Plain.createFrame (hself : self ∉ w.owned) (haddr : addr ∉ w.owned)
    (hrun : ∀ s₁ s₂, Plain env w s₁ → run s₁ = some s₂ → Plain env w s₂)
    (hs' : createFrame env (revertTo env) self addr value ret run s = some s') :
    Plain env w s' := by
  unfold Evm.createFrame at hs'
  split at hs'
  · cases hs'
    exact h
  · have hprepared : Plain env w (prepareCreate env self addr s) :=
      (h.setNonce hself _).addAddressToAccessList addr
    exact hprepared.deploy haddr hrun hs'

theorem Plain.execOp (hself : self ∉ w.owned) {o : Op}
    (hs' : execOp env self s o = some s') : Plain env w s' := by
  cases o with
  | sstore key value =>
    cases hs'
    exact h.setState _ _ _
  | log topics data =>
    cases hs'
    exact h.addLog _ _ _
  | addRefund gas =>
    cases hs'
    have happend : Plain env w (s.append (.refundChange s.refund)) := h.append trivial
    exact { happend with }
  | subRefund gas =>
    simp only [Evm.execOp, StateDB.subRefund] at hs'
    split at hs'
    · cases hs'
    · cases hs'
      have happend : Plain env w (s.append (.refundChange s.refund)) := h.append trivial
      exact { happend with }
  | touchAddress addr =>
    cases hs'
    exact h.addAddressToAccessList _
  | touchSlot addr slot =>
    cases hs'
    exact h.addSlotToAccessList _ _
  | selfdestruct beneficiary =>
    cases hs'
    exact (h.addBalance _ _).suicide hself

end

/-- The induction is on the trace: the bodies of the frames are smaller. -/
theorem Plain.exec {prog : Prog M} (hprog : prog.LeavesOwned env w.owned)
    (hself : self ∉ w.owned) (h : Plain env w s) (hs' : exec env origin self prog s = some s') :
    Plain env w s' := by
  induction prog generalizing self s s' with
  | done =>
    cases hs'
    exact h
  | op o next ih =>
    simp only [Evm.exec, execWith, Option.bind_eq_bind, Option.bind_eq_some_iff] at hs'
    obtain ⟨s₁, hs₁, hrest⟩ := hs'
    exact ih hprog hself (h.execOp hself hs₁) hrest
  | call kind addr value body fails next ihbody ihnext =>
    simp only [Evm.exec, execWith, Option.bind_eq_bind, Option.bind_eq_some_iff] at hs'
    obtain ⟨s₁, hs₁, hrest⟩ := hs'
    refine ihnext hprog.2 hself (h.callFrame (.inr hself) ?_ hs₁) hrest
    intro t₁ t₂ hcontext ht₁ ht₂
    exact ihbody hprog.1 hcontext ht₁ ht₂
  | precompile kind addr value run next ih =>
    simp only [Evm.exec, execWith, Option.bind_eq_bind, Option.bind_eq_some_iff] at hs'
    obtain ⟨s₁, hs₁, hrest⟩ := hs'
    exact ih hprog.2 hself (h.precompileFrame hprog.1 hs₁) hrest
  | create addr value body ret next ihbody ihnext =>
    simp only [Evm.exec, execWith, Option.bind_eq_bind, Option.bind_eq_some_iff] at hs'
    obtain ⟨s₁, hs₁, hrest⟩ := hs'
    obtain ⟨haddr, hbody, hnext⟩ := hprog
    refine ihnext hnext hself (h.createFrame hself haddr ?_ hs₁) hrest
    intro t₁ t₂ ht₁ ht₂
    exact ihbody hbody haddr ht₁ ht₂

end Frames

/-! ## Messages -/

def Watch.start (ctx : Store M) (owned : Set Address) (nonce : Address → UInt64) : Watch M where
  ctx := ctx
  owned := owned
  kept := owned
  kept_owned := Set.Subset.rfl
  nonce := nonce
  base := []

/-- One account has got a new nonce, which its account in the cache context may not have. -/
def Watch.moved (w : Watch M) (a : Address) (nonce : UInt64) (base : List (JournalEntry M)) :
    Watch M where
  ctx := w.ctx
  owned := w.owned
  kept := w.kept \ {a}
  kept_owned := Set.sdiff_subset.trans w.kept_owned
  nonce := update w.nonce a nonce
  base := base

section Messages

variable {s s' : StateDB M} {a : Address} {nonce : UInt64}

theorem Watch.moved_nonce_of_ne {b : Address} (hba : b ≠ a) (base : List (JournalEntry M)) :
    (w.moved a nonce base).nonce b = w.nonce b := update_of_ne hba _ _

theorem Watch.moved_moved (n n' : UInt64) (base base' : List (JournalEntry M)) :
    (w.moved a n base).moved a n' base' = w.moved a n' base' := by
  simp [Watch.moved, update_idem]

theorem PlainState.moveNonce (hnew : PlainState env w (s.getOrNewStateObject env a).1)
    (hobject : a ∈ w.owned → PlainObject env (w.nonce a) (s.getOrNewStateObject env a).2)
    (nonce : UInt64) (base : List (JournalEntry M)) :
    PlainState env (w.moved a nonce base) (s.setNonce env a nonce) := by
  refine ⟨hnew.ctx, fun b hb => ?_, fun b hb => ?_⟩
  · unfold StateDB.setNonce
    by_cases hba : b = a
    · subst hba
      rw [getStateObject_setStateObject_self]
      exact { hobject hb with nonce := (update_self b nonce w.nonce).symm }
    · rw [getStateObject_setStateObject_of_ne env _ _ hba, Watch.moved_nonce_of_ne hba]
      exact hnew.objects b hb
  · rw [Watch.moved_nonce_of_ne hb.2]
    exact hnew.cache b hb.1

theorem Plain.moveNonce (h : Plain env w s) (hrevisions : s.validRevisions = []) (a : Address)
    (nonce : UInt64) :
    Plain env (w.moved a nonce (s.setNonce env a nonce).journal.entries)
      (s.setNonce env a nonce) := by
  obtain ⟨hnew, hobject⟩ := h.getOrNew a
  have hmoved := hnew.toPlainState.moveNonce hobject nonce (s.setNonce env a nonce).journal.entries
  refine { hmoved with entries := ⟨[], rfl, by simp⟩, revisions := fun rev hrev => ?_ }
  rw [(setNonce_writes s a nonce).kept.validRevisions, hrevisions] at hrev
  cases hrev

theorem setNonce_dirty (s : StateDB M) (a : Address) (nonce : UInt64) :
    (s.setNonce env a nonce).journal.dirties.get a ≠ 0 := by
  unfold StateDB.setNonce
  simp [Journal.dirtyCount, JournalEntry.dirtied]

theorem PlainState.commit (h : PlainState env w s) (hcommit : s.commit env = .ok u st)
    (ha : a ∈ w.owned) (hwritten : a ∈ w.kept ∨ s.journal.dirties.get a ≠ 0) :
    NonceAt env (w.nonce a) st a := by
  rcases hwritten with hkept | hdirty
  · have hfinal := h.commitWithCtx hkept
    rw [StateDB.commit] at hcommit
    rwa [hcommit] at hfinal
  · refine nonceAt_commit_of_dirty (fun o ho => ?_) hdirty hcommit
    exact h.object ha (getStateObject_of_live env s ho)

end Messages

def Target.LeavesOwned (env : Env) (owned : Set Address) : Target M → Prop
  | .call _ body _ => body.LeavesOwned env owned
  | .precompile _ run => run.KeepsNonces env owned
  | .create addr body _ => addr ∉ owned ∧ body.LeavesOwned env owned

section Apply

variable {ctx st : Store M} {owned : Set Address} {nonces : Address → UInt64} {msg : Message M}
  {u : Unit}

theorem plain_prepared (hctx : ∀ a ∈ owned, NonceAt env (nonces a) ctx a) (msg : Message M) :
    Plain env (.start ctx owned nonces) (prepareAccessList msg (.new ctx)) ∧
      (prepareAccessList msg (.new ctx)).validRevisions = [] := by
  refine prepareAccessList_induction (P := fun t => Plain env (.start ctx owned nonces) t ∧
    t.validRevisions = []) (fun t a h => ?_) (fun t a k h => ?_) msg
    ⟨⟨⟨rfl, fun a ha => (hctx a ha).view, hctx⟩, ⟨[], rfl, by simp⟩, by simp [StateDB.new]⟩, rfl⟩
  · exact ⟨h.1.addAddressToAccessList a, (addAddressToAccessList_aside a).validRevisions.trans h.2⟩
  · exact ⟨h.1.addSlotToAccessList a k, (addSlotToAccessList_aside a k).validRevisions.trans h.2⟩

theorem Plain.createMessage {w : Watch M} {s' : StateDB M} {sender addr : Address} {value : Nat}
    {body : Prog M} (h : Plain env w s) (hrevisions : s.validRevisions = [])
    (haddr : addr ∉ w.owned) (hbody : body.LeavesOwned env w.owned) (nonce : UInt64)
    (hs' : Evm.createFrame env (revertTo env) sender addr value ret
      (Evm.exec env sender addr body) (s.setNonce env sender nonce) = some s') :
    ∃ n base, Plain env (w.moved sender n base) s' := by
  have hset := h.moveNonce hrevisions sender nonce
  unfold Evm.createFrame at hs'
  split at hs'
  · cases hs'
    exact ⟨_, _, hset⟩
  · have hnone : (s.setNonce env sender nonce).validRevisions = [] := by
      rw [(setNonce_writes _ _ _).kept.validRevisions, hrevisions]
    have hnext := (hset.moveNonce hnone sender
      ((s.setNonce env sender nonce).getNonce env sender + 1)).addAddressToAccessList addr
    have hdeployed := hnext.deploy haddr (fun t₁ t₂ ht₁ ht₂ => ht₁.exec hbody haddr ht₂) hs'
    rw [Watch.moved_moved] at hdeployed
    exact ⟨_, _, hdeployed⟩

theorem applyMessage_nonces (hctx : ∀ a ∈ owned, NonceAt env (nonces a) ctx a)
    (hmsg : msg.target.LeavesOwned env owned) (hrun : applyMessage env msg ctx = some (.ok u st))
    (ha : a ∈ owned) : NonceAt env (nonces a) st a := by
  obtain ⟨hprepared, hrevisions⟩ := plain_prepared hctx msg
  simp only [applyMessage, applyMessageWith, Option.bind_eq_bind, Option.bind_eq_some_iff,
    Option.pure_def, Option.some.injEq] at hrun
  obtain ⟨s, hs, hcommit⟩ := hrun
  unfold executeMessage at hs
  cases htarget : msg.target with
  | call addr body fails =>
    rw [htarget] at hmsg hs
    have hplain := hprepared.callFrame (.inl rfl)
      (fun t₁ t₂ hcontext ht₁ ht₂ => ht₁.exec hmsg hcontext ht₂) hs
    exact hplain.toPlainState.commit hcommit ha (.inl ha)
  | precompile addr run =>
    rw [htarget] at hmsg hs
    exact (hprepared.precompileFrame hmsg hs).toPlainState.commit hcommit ha (.inl ha)
  | create addr body ret =>
    rw [htarget] at hmsg hs
    simp only [Option.bind_eq_bind, Option.bind_eq_some_iff, Option.pure_def,
      Option.some.injEq] at hs
    obtain ⟨s₁, hs₁, rfl⟩ := hs
    obtain ⟨n, base, hs₁⟩ := hprepared.createMessage hrevisions hmsg.1 hmsg.2 msg.nonce hs₁
    obtain ⟨hnew, hobject⟩ := hs₁.getOrNew msg.sender
    have hfinal := hnew.toPlainState.moveNonce hobject
      ((prepareAccessList msg (.new ctx)).getNonce env msg.sender) []
    by_cases hsender : a = msg.sender
    · -- the sender is dirty, and its nonce was restored
      subst hsender
      have hat := hfinal.commit hcommit ha (.inr (setNonce_dirty _ _ _))
      have hnonce : (prepareAccessList msg (.new ctx)).getNonce env msg.sender =
          nonces msg.sender := by
        unfold StateDB.getNonce
        cases hobj : (prepareAccessList msg (.new ctx)).getStateObject env msg.sender with
        | none => exact (hprepared.missing ha hobj).symm
        | some o => exact (hprepared.object ha hobj).nonce
      rw [← hnonce]
      simpa [Watch.moved] using hat
    · have hat := hfinal.commit hcommit ha (.inl ⟨⟨ha, hsender⟩, hsender⟩)
      simpa [Watch.moved, Watch.start, hsender] using hat

end Apply

end Haqq.Evm
