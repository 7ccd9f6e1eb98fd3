import Haqq.Evm.Writes
import Haqq.Lib.Effects

/-!
# Committing the StateDB

A commit changes the storage of a slot only if the slot has a pending write or its account is
selfdestructed, and two states of which one covers the other are committed alike.
-/

namespace Haqq.Evm

open Lib StateDB Function

variable {M : Type} {env : Env}

/-! ## Storage -/

theorem foldSorted_setState (m : FinMap Hash Hash) (a : Address) (st : Store M) :
    m.foldSorted (fun st key value => Evm.setState a key value st) st =
      { st with storage :=
          Function.update st.storage a (fun k => (m.get k).getD (st.storage a k)) } := by
  rw [← FinMap.foldSorted_update]
  unfold FinMap.foldSorted
  generalize Tally.sorted m.keys = keys
  induction keys generalizing st with
  | nil => simp
  | cons key rest ih =>
    simp only [List.foldl_cons]
    cases m.get key with
    | none => exact ih st
    | some v =>
      rw [ih]
      simp [Evm.setState]

/-- The account as it is written before its balance is set. -/
def writeAccount (env : Env) (a : Address) (account : Account) (st : Store M) : Store M :=
  let acct := (st.accounts a).getD ⟨st.nextAccountNumber, 0, .eth env.emptyCodeHash⟩
  { st with
    nextAccountNumber :=
      (st.accounts a).elim (st.nextAccountNumber + 1) fun _ => st.nextAccountNumber
    accounts := update st.accounts a (some { acct with
      sequence := account.nonce
      kind := acct.kind.setCodeHash account.codeHash }) }

def writeCode (o : StateObject) (st : Store M) : Store M :=
  match o.code, o.dirtyCode with
  | some code, true => Evm.setCode o.account.codeHash code st
  | _, _ => st

def writeStorage (a : Address) (o : StateObject) (st : Store M) : Store M :=
  { st with storage := update st.storage a fun k => (o.dirtyStorage.get k).getD (st.storage a k) }

theorem writeCode_fields (o : StateObject) (st : Store M) :
    (writeCode o st).accounts = st.accounts ∧ (writeCode o st).storage = st.storage ∧
      (writeCode o st).bank = st.bank ∧ (writeCode o st).modules = st.modules := by
  unfold writeCode
  split <;> exact ⟨rfl, rfl, rfl, rfl⟩

theorem run_setAccount (env : Env) (a : Address) (account : Account) (st : Store M) :
    (setAccount env a account).run st =
      (setBalance env a account.balance).run (writeAccount env a account st) := by
  unfold setAccount writeAccount
  simp only [EStateM.run_bind, EStateM.run_get]
  cases st.accounts a <;> rfl

variable {a b : Address} {o : StateObject} {k : Hash}

/-- Setting the balance is what can fail. -/
theorem commitObject_eq (ho : o.suicided = false) :
    (commitObject env a o : KeeperM M Unit) = (do
      modify fun st => writeAccount env a o.account (writeCode o st)
      setBalance env a o.account.balance
      modify (writeStorage a o)) := by
  funext st
  have hcode : (commitCode o).run st = .ok () (writeCode o st) := by
    unfold commitCode writeCode
    cases o.code <;> cases o.dirtyCode <;> rfl
  have hstorage : o.dirtyStorage.foldSorted (fun (st : Store M) key value =>
      Evm.setState a key value st) = writeStorage a o := by
    funext st
    exact foldSorted_setState o.dirtyStorage a st
  change (commitObject env a o).run st = EStateM.run _ st
  unfold commitObject
  rw [if_neg (by simp [ho]), EStateM.run_bind, hcode, hstorage]
  simp only [EStateM.run_bind, run_setAccount, EStateM.run_modify]

section Fixes

variable {τ : Type} {f : Store M → τ}

theorem fixes_liftBank (hbank : ∀ st bank, f { st with bank := bank } = f st)
    (err : KeeperError) (g : Store M → Option (Ledger Address Denom)) :
    Fixes f (liftBank err g) := by
  apply Fixes.bind .get
  intro st
  split
  · exact .modify fun st' => hbank st' _
  · exact .throw _

theorem fixes_setBalance (hbank : ∀ st bank, f { st with bank := bank } = f st)
    (a : Address) (amount : Int) : Fixes f (setBalance env a amount) := by
  apply Fixes.bind .get
  intro st
  simp only
  split
  · apply Fixes.bind (.modify fun st' => hbank st' _)
    intro _
    unfold sendCoinsFromModuleToAccount
    split
    · exact .throw _
    · exact fixes_liftBank hbank _ _
  · split
    · apply Fixes.bind (fixes_liftBank hbank _ _)
      intro _
      exact fixes_liftBank hbank _ _
    · exact .pure _

theorem fixes_commitObject (hbank : ∀ st bank, f { st with bank := bank } = f st)
    (hdelete : o.suicided = true → ∀ st, f { st with
      storage := update st.storage a fun _ => 0
      accounts := update st.accounts a none } = f st)
    (hwrite : o.suicided = false → ∀ st,
      f (writeAccount env a o.account (writeCode o st)) = f st ∧ f (writeStorage a o st) = f st) :
    Fixes f (commitObject env a o) := by
  cases hsuicided : o.suicided with
  | true =>
    unfold commitObject
    rw [if_pos hsuicided]
    apply Fixes.bind .get
    intro st
    split
    · exact .pure _
    · split
      · exact .throw _
      · exact .bind (fixes_setBalance hbank a 0) fun _ => .modify (hdelete hsuicided)
  | false =>
    rw [commitObject_eq hsuicided]
    exact .bind (.modify fun st => (hwrite hsuicided st).1) fun _ =>
      .bind (fixes_setBalance hbank a _) fun _ => .modify fun st => (hwrite hsuicided st).2

end Fixes

theorem commitObject_storage (h : b = a → o.suicided = false ∧ o.dirtyStorage.get k = none) :
    Fixes (fun st : Store M => st.storage b k) (commitObject env a o) := by
  refine fixes_commitObject (fun _ _ => rfl) (fun hsuicided st => ?_) fun _ st => ⟨?_, ?_⟩
  · have hba : b ≠ a := by
      intro hba
      simp [(h hba).1] at hsuicided
    simp [hba]
  · simp [writeAccount, (writeCode_fields o st).2.1]
  · by_cases hba : b = a
    · subst hba
      simp [writeStorage, (h rfl).2]
    · simp [writeStorage, hba]

theorem mem_sortedDirties {j : Journal M} : a ∈ j.sortedDirties ↔ j.dirties.get a ≠ 0 :=
  Tally.mem_sorted.trans (j.dirties.mem_support a)

variable {s : StateDB M}

theorem fixes_commitWithCtx {τ : Type} {f : Store M → τ}
    (h : ∀ a o, s.stateObjects a = some o → Fixes f (commitObject env a o)) :
    Fixes f (s.commitWithCtx env) := by
  apply Fixes.forM
  intro a _
  unfold commitAddress
  split
  · exact h a _ ‹_›
  · exact .throw _

theorem commitWithCtx_storage
    (h : ∀ o, s.getStateObject env a = some o → o.suicided = false ∧ o.dirtyStorage.get k = none) :
    Fixes (fun st : Store M => st.storage a k) (s.commitWithCtx env) := by
  refine fixes_commitWithCtx fun b o ho => commitObject_storage ?_
  rintro rfl
  exact h o (getStateObject_of_live env s ho)

/-! ## States that are committed alike -/

/-- `ObjCovers` without the statement about where residue can be. -/
structure ObjAlike (ctx : Store M) (a : Address) (o q : StateObject) : Prop where
  account : o.account = q.account
  code : o.code = q.code
  dirtyCode : o.code = none ∨ o.dirtyCode = q.dirtyCode
  suicided : o.suicided = q.suicided
  storage : ∀ k, o.dirtyStorage.get k = q.dirtyStorage.get k ∨
    (q.dirtyStorage.get k = none ∧ o.dirtyStorage.get k = some (ctx.storage a k))

variable {ctx : Store M} {q : StateObject}

theorem ObjCovers.alike (h : ObjCovers env ctx a o q) : ObjAlike ctx a o q := by
  refine ⟨h.account, h.code, h.dirtyCode, h.suicided, fun k => ?_⟩
  rcases h.storage k with heq | ⟨_, hnone, hsome⟩
  · exact Or.inl heq
  · exact Or.inr ⟨hnone, hsome⟩

theorem writeCode_congr (h : ObjAlike ctx a o q) (st : Store M) :
    writeCode o st = writeCode q st := by
  unfold writeCode
  rcases h.dirtyCode with hnone | hdirty
  · rw [← h.code, hnone]
  · rw [h.code, hdirty, h.account]

theorem commitObject_congr {st : Store M} (h : ObjAlike ctx a o q)
    (hclean : ∀ k, q.suicided = false → q.dirtyStorage.get k = none →
      st.storage a k = ctx.storage a k) :
    (commitObject env a o).run st = (commitObject env a q).run st := by
  cases hsuicided : q.suicided with
  | true => simp only [commitObject, h.suicided, hsuicided, if_true]
  | false =>
    rw [commitObject_eq (h.suicided.trans hsuicided), commitObject_eq hsuicided]
    simp only [EStateM.run_bind, EStateM.run_modify, h.account, writeCode_congr h]
    have hfixes : Fixes (fun st : Store M => st.storage) (setBalance env a q.account.balance) :=
      fixes_setBalance (fun _ _ => rfl) a _
    have hstorage := hfixes (writeAccount env a q.account (writeCode q st))
    cases hrun : (setBalance env a q.account.balance).run
        (writeAccount env a q.account (writeCode q st)) with
    | error e st₁ => rfl
    | ok _ st₁ =>
      rw [hrun] at hstorage
      have hst₁ : st₁.storage = st.storage := hstorage.trans (writeCode_fields q st).2.1
      have hslots : (fun k => (o.dirtyStorage.get k).getD (st₁.storage a k)) =
          fun k => (q.dirtyStorage.get k).getD (st₁.storage a k) := by
        funext k
        rcases h.storage k with heq | ⟨hnone, hsome⟩
        · rw [heq]
        · rw [hnone, hsome, hst₁, hclean k hsuicided hnone]
          rfl
      simp only [writeStorage, hslots]

structure CommitAlike (s r : StateDB M) : Prop where
  cache : s.cacheStore = r.cacheStore
  dirties : s.journal.dirties = r.journal.dirties
  objects : ∀ a, r.journal.dirties.get a ≠ 0 → ∃ o q, s.stateObjects a = some o ∧
    r.stateObjects a = some q ∧ ObjAlike r.ctx a o q
  clean : ∀ a q, r.stateObjects a = some q → ∀ k, q.suicided = false →
    q.dirtyStorage.get k = none → r.cacheStore.storage a k = r.ctx.storage a k

variable {r : StateDB M}

/-- No address comes twice, so what is written for one does not disturb the next. -/
theorem commitLoop_congr (h : CommitAlike s r) (l : List Address) (hnodup : l.Nodup)
    (hdirty : ∀ a ∈ l, r.journal.dirties.get a ≠ 0) (st : Store M)
    (hclean : ∀ a ∈ l, ∀ q, r.stateObjects a = some q → ∀ k, q.suicided = false →
      q.dirtyStorage.get k = none → st.storage a k = r.ctx.storage a k) :
    (l.forM (s.commitAddress env)).run st = (l.forM (r.commitAddress env)).run st := by
  induction l generalizing st with
  | nil => rfl
  | cons a rest ih =>
    obtain ⟨ha, hrest⟩ := List.nodup_cons.mp hnodup
    obtain ⟨o, q, ho, hq, hoq⟩ := h.objects a (hdirty a (by simp))
    have hcongr : (s.commitAddress env a).run st = (r.commitAddress env a).run st := by
      simp only [commitAddress, ho, hq]
      exact commitObject_congr hoq (hclean a (by simp) q hq)
    rw [run_forM_cons, run_forM_cons, hcongr]
    cases hrun : (r.commitAddress env a).run st with
    | error e st' => rfl
    | ok _ st' =>
      apply ih hrest (fun b hb => hdirty b (by simp [hb]))
      intro b hb q' hq' k hsuicided hnone
      have hfix : st'.storage b k = st.storage b k := by
        simp only [commitAddress, hq] at hrun
        have hfixes : Fixes (fun st : Store M => st.storage b k) (commitObject env a q) :=
          commitObject_storage fun heq => absurd (heq ▸ hb) ha
        have hstorage := hfixes st
        rw [hrun] at hstorage
        exact hstorage
      exact hfix.trans (hclean b (by simp [hb]) q' hq' k hsuicided hnone)

theorem commitWithCtx_congr (h : CommitAlike s r) :
    (s.commitWithCtx env).run s.cacheStore = (r.commitWithCtx env).run r.cacheStore := by
  have hsorted : s.journal.sortedDirties = r.journal.sortedDirties := by
    simp only [Journal.sortedDirties, h.dirties]
  unfold commitWithCtx
  rw [h.cache, hsorted]
  apply commitLoop_congr h _ (Tally.nodup_sorted _)
  · intro a ha
    exact mem_sortedDirties.mp ha
  · intro a _
    exact h.clean a

theorem Covers.commitAlike (h : Covers env s r) (hs : Settled env s) (hr : Settled env r) :
    CommitAlike s r := by
  refine ⟨h.cache, h.dirties, fun a ha => ?_, fun a q hq k hsuicided hnone => ?_⟩
  · obtain ⟨o, ho⟩ := Option.ne_none_iff_exists'.mp (hs.dirtyLive a (h.dirties ▸ ha))
    obtain ⟨q, hq⟩ := Option.ne_none_iff_exists'.mp (hr.dirtyLive a ha)
    obtain ⟨q', hq', hoq⟩ := h.get_left (getStateObject_of_live env s ho)
    rw [getStateObject_of_live env r hq] at hq'
    cases hq'
    exact ⟨o, q, ho, hq, hoq.alike⟩
  · exact hr.clean_of_get (getStateObject_of_live env r hq) hsuicided hnone

theorem Inv.committed (hinv : Inv env s) :
    Inv env { s with
      cacheCtx := some (finalState ((s.commitWithCtx env).run s.cacheStore)) } := by
  refine ⟨⟨hinv.dirtyLive, fun a k hk => ?_⟩, hinv.accessList, hinv.zeroHash, hinv.active⟩
  exact (commitWithCtx_storage hk s.cacheStore).trans (hinv.clean a k hk)

end Haqq.Evm
