import Haqq.Evm.Undo

/-!
# Every write of the StateDB can be undone

For each operation of the StateDB: the journal undoes it and the invariants are kept (`Sound`), and
two states of which one covers the other stay so when both perform it (`Covers`).
-/

namespace Haqq.Evm

open Lib StateDB Function

variable {M : Type} {env : Env}

/-! ## Changing an object -/

variable {s t : StateDB M} {g : StateObject → StateObject} {r : StateDB M}

section Update

variable {s : StateDB M} {a : Address} {o o' : StateObject} {e : JournalEntry M}

theorem get_dirties_append (hdirtied : e.dirtied = some a ∨ e.dirtied = none) {b : Address}
    (hba : b ≠ a) : (s.append e).journal.dirties.get b = s.journal.dirties.get b := by
  rcases hdirtied with hself | hnone
  · simp [Journal.dirtyCount, hself, Tally.get_single_of_ne 1 hba]
  · simp [Journal.dirtyCount, hnone]

theorem Extends.update (hget : s.getStateObject env a = some o)
    (hrevert : ∀ (t : StateDB M) u, t.getStateObject env a = some u →
      t.revertEntry env e = some (t.setStateObject a (g u)))
    (hundo : ∀ u, ObjCovers env s.ctx a u o' → ObjCovers env s.ctx a (g u) o) :
    Extends env s ((s.append e).setStateObject a o') := by
  refine ⟨rfl, le_rfl, ⟨[], rfl, by simp⟩, ⟨[e], rfl, fun t ht => ?_⟩⟩
  obtain ⟨u, hu, hcov⟩ := ht.get_right (getStateObject_setStateObject_self env (s.append e) a o')
  exact ⟨_, revertEntries_one env t (hrevert t u hu), (ht.off a).undo hget (hundo u hcov)⟩

theorem Settled.clean_of_get (hinv : Settled env s) (hget : s.getStateObject env a = some o)
    {k : Hash} (hsuicided : o.suicided = false) (hnone : o.dirtyStorage.get k = none) :
    s.cacheStore.storage a k = s.ctx.storage a k := by
  apply hinv.clean a k
  intro q hq
  rw [hget] at hq
  cases hq
  exact ⟨hsuicided, hnone⟩

theorem Settled.update (hinv : Settled env s) (hdirtied : e.dirtied = some a ∨ e.dirtied = none)
    (hclean : ∀ k, o'.suicided = false → o'.dirtyStorage.get k = none →
      s.cacheStore.storage a k = s.ctx.storage a k) :
    Settled env ((s.append e).setStateObject a o') := by
  refine ⟨fun b hb => ?_, fun b k hk => ?_⟩
  · by_cases hba : b = a
    · subst hba
      simp
    · rw [setStateObject_live_of_ne _ o' hba]
      exact hinv.dirtyLive b (get_dirties_append hdirtied hba ▸ hb)
  · show s.cacheStore.storage b k = s.ctx.storage b k
    by_cases hba : b = a
    · subst hba
      obtain ⟨hsuicided, hnone⟩ := hk o' (getStateObject_setStateObject_self env _ _ _)
      exact hclean k hsuicided hnone
    · apply hinv.clean b k
      intro q hq
      apply hk q
      rwa [getStateObject_setStateObject_of_ne env (s.append e) _ hba]

theorem Inv.update (hinv : Inv env s) (hdirtied : e.dirtied = some a ∨ e.dirtied = none)
    (hclean : ∀ k, o'.suicided = false → o'.dirtyStorage.get k = none →
      s.cacheStore.storage a k = s.ctx.storage a k)
    (hactive : (o'.suicided = true ∨ o'.code ≠ none ∨ ∃ k, o'.dirtyStorage.get k ≠ none) →
      Active env o'.account) :
    Inv env ((s.append e).setStateObject a o') := by
  refine ⟨hinv.toSettled.update hdirtied hclean, hinv.accessList, hinv.zeroHash, ?_⟩
  intro b q hq
  by_cases hba : b = a
  · subst hba
    rw [getStateObject_setStateObject_self] at hq
    cases hq
    exact hactive
  · rw [getStateObject_setStateObject_of_ne env (s.append e) _ hba] at hq
    exact hinv.active b q hq

theorem Stable.update (hget : s.getStateObject env a = some o)
    (hstable : Active env o.account → Active env o'.account ∧ o'.code = o.code ∧
      o'.account.codeHash = o.account.codeHash) :
    Stable env s ((s.append e).setStateObject a o') := by
  intro b q hq hactive
  by_cases hba : b = a
  · subst hba
    rw [hget] at hq
    cases hq
    exact ⟨o', getStateObject_setStateObject_self env _ _ _, hstable hactive⟩
  · refine ⟨q, ?_, hactive, rfl, rfl⟩
    rwa [getStateObject_setStateObject_of_ne env (s.append e) _ hba]

theorem Sound.updateAccount {acct : Account} (hinv : Inv env s)
    (hget : s.getStateObject env a = some o) (hdirtied : e.dirtied = some a)
    (hrevert : ∀ (t : StateDB M) u, t.getStateObject env a = some u →
      t.revertEntry env e = some (t.setStateObject a (g u)))
    (hundo : ∀ u, u.account = acct → g u = { u with account := o.account })
    (hhash : acct.codeHash = o.account.codeHash)
    (hactive : Active env acct ↔ Active env o.account) :
    Sound env s ((s.append e).setStateObject a { o with account := acct }) := by
  refine ⟨.update hget hrevert fun u hu => ?_,
    hinv.update (.inl hdirtied) (fun _ => hinv.clean_of_get hget)
      fun hused => hactive.mpr (hinv.active a o hget hused),
    .update hget fun h => ⟨hactive.mpr h, rfl, hhash⟩⟩
  rw [hundo u hu.account]
  exact ⟨rfl, hu.code, hu.dirtyCode, hu.suicided,
    fun k => (hu.storage k).imp_right (And.imp_left hactive.mp)⟩

end Update

/-! ## What the operations leave alone -/

variable {newobj prev o : StateObject}

structure Kept (s s' : StateDB M) : Prop where
  ctx : s'.ctx = s.ctx
  cacheCtx : s'.cacheCtx = s.cacheCtx
  validRevisions : s'.validRevisions = s.validRevisions
  nextRevisionID : s'.nextRevisionID = s.nextRevisionID
  counter : s'.precompileCallsCounter = s.precompileCallsCounter

/-- Logs, refunds and the access list. -/
structure Aside (s s' : StateDB M) : Prop extends Kept s s' where
  stateObjects : s'.stateObjects = s.stateObjects
  dirties : s'.journal.dirties = s.journal.dirties

theorem Kept.refl (s : StateDB M) : Kept s s := ⟨rfl, rfl, rfl, rfl, rfl⟩

theorem Kept.trans {s s' s'' : StateDB M} (h : Kept s s') (h' : Kept s' s'') : Kept s s'' :=
  ⟨h'.ctx.trans h.ctx, h'.cacheCtx.trans h.cacheCtx, h'.validRevisions.trans h.validRevisions,
    h'.nextRevisionID.trans h.nextRevisionID, h'.counter.trans h.counter⟩

theorem Aside.refl (s : StateDB M) : Aside s s := ⟨.refl s, rfl, rfl⟩

/-- What any operation but the creation of an account over another one comes down to. -/
inductive Writes (s : StateDB M) : StateDB M → Prop
  | refl : Writes s s
  | update {t : StateDB M} {a : Address} {e : JournalEntry M} (h : Writes s t)
    (hdirtied : e.dirtied = some a) (o : StateObject) : Writes s ((t.append e).setStateObject a o)
  | aside {t t' : StateDB M} (h : Writes s t) (haside : Aside t t')
    (hwf : t.accessList.WellFormed → t'.accessList.WellFormed) : Writes s t'

theorem Writes.kept (h : Writes s t) : Kept s t := by
  induction h with
  | refl => exact .refl s
  | update _ _ _ ih => exact { ih with }
  | aside _ haside _ ih => exact ih.trans haside.toKept

theorem Writes.wellFormed (h : Writes s t) (hwf : s.accessList.WellFormed) :
    t.accessList.WellFormed := by
  induction h with
  | refl => exact hwf
  | update _ _ _ ih => exact ih
  | aside _ _ hwf' ih => exact hwf' ih

/-! ## Creating an object -/

section Create

variable {s t : StateDB M} {a : Address}
  {R : Store M → Address → StateObject → StateObject → Prop}

theorem createAccount_of_none (hget : s.getStateObject env a = none) :
    s.createAccount env a =
      (s.append (.createObjectChange a)).setStateObject a (newObject (newEmptyAccount env)) := by
  simp [createAccount, createObject, hget]

theorem createAccount_of_some (hget : s.getStateObject env a = some prev) :
    s.createAccount env a = (s.append (.resetObjectChange a prev)).setStateObject a
      (newObject { newEmptyAccount env with balance := prev.account.balance }) := by
  simp [createAccount, createObject, hget, newObject, setStateObject]

theorem createAccount_eq (env : Env) (s : StateDB M) (a : Address) :
    ∃ e balance, (e.dirtied = some a ∨ e.dirtied = none) ∧ s.createAccount env a =
      (s.append e).setStateObject a
        (newObject { newEmptyAccount env with balance := balance }) := by
  cases hget : s.getStateObject env a with
  | none => exact ⟨_, 0, .inl rfl, createAccount_of_none hget⟩
  | some prev => exact ⟨_, _, .inr rfl, createAccount_of_some hget⟩

theorem createAccount_kept (env : Env) (s : StateDB M) (a : Address) :
    Kept s (s.createAccount env a) := by
  obtain ⟨e, balance, -, heq⟩ := createAccount_eq env s a
  exact heq ▸ ⟨rfl, rfl, rfl, rfl, rfl⟩

theorem createAccount_get (env : Env) (s : StateDB M) (a : Address) :
    ∃ balance, (s.createAccount env a).getStateObject env a =
      some (newObject { newEmptyAccount env with balance := balance }) := by
  obtain ⟨e, balance, -, heq⟩ := createAccount_eq env s a
  exact ⟨balance, by rw [heq, getStateObject_setStateObject_self]⟩

theorem createAccount_undo (env : Env) (hrefl : ∀ ctx a o, R ctx a o o) (s : StateDB M)
    (a : Address) :
    ∃ e, (s.createAccount env a).journal.entries = e :: s.journal.entries ∧
      ∀ t, View env (Off a R) t (s.createAccount env a) →
        ∃ t', t.revertEntries env [e] = some t' ∧ View env R t' s := by
  cases hget : s.getStateObject env a with
  | none =>
    rw [createAccount_of_none hget]
    refine ⟨.createObjectChange a, rfl, fun t ht => ⟨_, rfl, View.of_append ?_⟩⟩
    have hlive := s.stateObjects_eq_none env hget
    convert ht.deleteObject hrefl using 1
    simp [setStateObject, append, ← hlive]
  | some prev =>
    rw [createAccount_of_some hget]
    exact ⟨.resetObjectChange a prev, rfl, fun t ht =>
      ⟨_, revertEntries_one env t rfl, ht.undo hget (hrefl s.ctx a prev)⟩⟩

theorem createAccount_inv (hinv : Inv env s)
    (hget : ∀ o, s.getStateObject env a = some o → ¬ Active env o.account) :
    Inv env (s.createAccount env a) := by
  have hclean : ∀ k, s.cacheStore.storage a k = s.ctx.storage a k := by
    intro k
    apply hinv.clean a k
    intro o ho
    by_contra hused
    apply hget o ho
    apply hinv.active a o ho
    by_cases hsuicided : o.suicided = true
    · exact Or.inl hsuicided
    · refine Or.inr (Or.inr ⟨k, fun hnone => hused ⟨by simpa using hsuicided, hnone⟩⟩)
  obtain ⟨e, balance, hdirtied, heq⟩ := createAccount_eq env s a
  rw [heq]
  exact hinv.update hdirtied (fun k _ _ => hclean k) (by simp [newObject])

theorem createAccount_stable
    (hget : ∀ o, s.getStateObject env a = some o → ¬ Active env o.account) :
    Stable env s (s.createAccount env a) := by
  intro b o ho hactive
  have hba : b ≠ a := by
    rintro rfl
    exact hget o ho hactive
  refine ⟨o, ?_, hactive, rfl, rfl⟩
  obtain ⟨e, balance, -, heq⟩ := createAccount_eq env s a
  rwa [heq, getStateObject_setStateObject_of_ne env (s.append e) _ hba]

theorem createAccount_extends : Extends env s (s.createAccount env a) := by
  obtain ⟨e, hentries, hundo⟩ := createAccount_undo env (ObjCovers.refl env) s a
  have hkept := createAccount_kept env s a
  exact ⟨hkept.ctx, hkept.nextRevisionID.ge, ⟨[], hkept.validRevisions, by simp⟩,
    ⟨[e], hentries, fun t ht => hundo t (ht.off a)⟩⟩

theorem createAccount_sound (hinv : Inv env s)
    (hget : ∀ o, s.getStateObject env a = some o → ¬ Active env o.account) :
    Sound env s (s.createAccount env a) :=
  ⟨createAccount_extends, createAccount_inv hinv hget, createAccount_stable hget⟩

theorem createAccount_covers (h : Covers env s r) :
    Covers env (s.createAccount env a) (r.createAccount env a) := by
  cases hobj : r.getStateObject env a with
  | none =>
    rw [createAccount_of_none hobj, createAccount_of_none (h.get_none.mpr hobj)]
    exact h.update (.refl env r.ctx a _) rfl
  | some q =>
    obtain ⟨o, ho, hoq⟩ := h.get_right hobj
    rw [createAccount_of_some hobj, createAccount_of_some ho, hoq.account]
    exact h.update (.refl env r.ctx a _) rfl

theorem getOrNew_of_some (hget : s.getStateObject env a = some o) :
    s.getOrNewStateObject env a = (s, o) := by
  simp [getOrNewStateObject, hget]

theorem getOrNew_of_none (hget : s.getStateObject env a = none) :
    s.getOrNewStateObject env a =
      (s.createAccount env a, newObject (newEmptyAccount env)) := by
  simp [getOrNewStateObject, createObject, hget, createAccount_of_none hget]

theorem getOrNew_get :
    (s.getOrNewStateObject env a).1.getStateObject env a =
      some (s.getOrNewStateObject env a).2 := by
  cases hobj : s.getStateObject env a with
  | none => simp [getOrNew_of_none hobj, createAccount_of_none hobj]
  | some o => simp [getOrNew_of_some hobj, hobj]

theorem getOrNew_sound (hinv : Inv env s) : Sound env s (s.getOrNewStateObject env a).1 := by
  cases hobj : s.getStateObject env a with
  | none =>
    rw [getOrNew_of_none hobj]
    exact createAccount_sound hinv (by simp [hobj])
  | some o =>
    rw [getOrNew_of_some hobj]
    exact .refl hinv

theorem getOrNew_covers (h : Covers env s r) :
    Covers env (s.getOrNewStateObject env a).1 (r.getOrNewStateObject env a).1 ∧
      ObjCovers env r.ctx a (s.getOrNewStateObject env a).2 (r.getOrNewStateObject env a).2 := by
  cases hobj : r.getStateObject env a with
  | none =>
    rw [getOrNew_of_none hobj, getOrNew_of_none (h.get_none.mpr hobj)]
    exact ⟨createAccount_covers h, .refl env r.ctx a _⟩
  | some q =>
    obtain ⟨o, ho, hoq⟩ := h.get_right hobj
    rw [getOrNew_of_some hobj, getOrNew_of_some ho]
    exact ⟨h, hoq⟩

end Create

/-! ## Balances, nonces, code and storage -/

variable {q : StateObject} {nonce : UInt64} {e : JournalEntry M}

section Account

variable {s r : StateDB M} {a : Address}

theorem setObjectBalance_sound (hinv : Inv env s) (hget : s.getStateObject env a = some o)
    (amount : Int) : Sound env s (s.setObjectBalance a o amount) :=
  .updateAccount (g := fun u =>
      { u with account := { u.account with balance := o.account.balance } }) hinv hget rfl
    (fun t u hu => by simp [revertEntry, modifyObject, hu])
    (fun u hu => by simp [hu]) rfl Iff.rfl

theorem subBalance_eq (s : StateDB M) (a : Address) (amount : Int) :
    s.subBalance env a amount = s.addBalance env a (-amount) := by
  simp only [subBalance, addBalance, neg_eq_zero, sub_eq_add_neg]

theorem addBalance_sound (hinv : Inv env s) (amount : Int) :
    Sound env s (s.addBalance env a amount) := by
  have hnew := getOrNew_sound (a := a) hinv
  unfold addBalance
  simp only
  split
  · exact hnew
  · exact hnew.trans (setObjectBalance_sound hnew.inv getOrNew_get _)

theorem setObjectBalance_covers (h : Covers env s r) (hoq : ObjCovers env r.ctx a o q)
    (amount : Int) :
    Covers env (s.setObjectBalance a o amount) (r.setObjectBalance a q amount) := by
  refine h.update ⟨?_, hoq.code, hoq.dirtyCode, hoq.suicided, hoq.storage⟩ rfl
  rw [hoq.account]

theorem getOrNew_writes (env : Env) (s : StateDB M) (a : Address) :
    Writes s (s.getOrNewStateObject env a).1 := by
  cases hobj : s.getStateObject env a with
  | none =>
    rw [getOrNew_of_none hobj, createAccount_of_none hobj]
    exact .update .refl rfl _
  | some o =>
    rw [getOrNew_of_some hobj]
    exact .refl

theorem getOrNew_ctx (env : Env) (r : StateDB M) (a : Address) :
    (r.getOrNewStateObject env a).1.ctx = r.ctx := (getOrNew_writes _ r a).kept.ctx

theorem addBalance_covers (h : Covers env s r) (amount : Int) :
    Covers env (s.addBalance env a amount) (r.addBalance env a amount) := by
  obtain ⟨hcov, hobj⟩ := getOrNew_covers (a := a) h
  unfold addBalance
  simp only
  split
  · exact hcov
  · rw [hobj.account]
    exact setObjectBalance_covers hcov (getOrNew_ctx env r a ▸ hobj) _

theorem addBalance_writes (s : StateDB M) (a : Address) (amount : Int) :
    Writes s (s.addBalance env a amount) := by
  have hnew := getOrNew_writes env s a
  unfold addBalance
  simp only
  split
  · exact hnew
  · exact hnew.update rfl _

def entryAmount (entry : BalanceChangeEntry) : Int :=
  match entry.op with
  | .add => entry.amount
  | .sub => -entry.amount

theorem addBalanceEntry_eq (env : Env) (s : StateDB M) (entry : BalanceChangeEntry) :
    Precompile.addBalanceEntry env s entry =
      s.addBalance env entry.account (entryAmount entry) := by
  unfold entryAmount Precompile.addBalanceEntry
  cases entry.op with
  | sub => exact subBalance_eq _ _ _
  | add => rfl

theorem addBalanceEntries_kept (env : Env) (s : StateDB M) (entries : List BalanceChangeEntry) :
    Kept s (entries.foldl (Precompile.addBalanceEntry env) s) := by
  induction entries generalizing s with
  | nil => exact .refl s
  | cons entry rest ih =>
    rw [List.foldl_cons, addBalanceEntry_eq]
    exact (addBalance_writes _ _ _).kept.trans (ih _)

theorem setState_writes (s : StateDB M) (a : Address) (key value : Hash) :
    Writes s (s.setState env a key value) := by
  have hnew := getOrNew_writes env s a
  unfold StateDB.setState
  simp only
  split
  · exact hnew
  · exact hnew.update rfl _

theorem suicide_writes (s : StateDB M) (a : Address) : Writes s (s.suicide env a) := by
  unfold suicide
  split
  · exact .refl
  · exact .update .refl rfl _

theorem setNonce_writes (s : StateDB M) (a : Address) (nonce : UInt64) :
    Writes s (s.setNonce env a nonce) :=
  (getOrNew_writes _ s a).update rfl _

theorem setCode_writes (s : StateDB M) (a : Address) (code : Option Bytes) :
    Writes s (s.setCode env a code) :=
  (getOrNew_writes _ s a).update rfl _

def ActiveAt (env : Env) (s : StateDB M) (a : Address) : Prop :=
  ∃ o, s.getStateObject env a = some o ∧ Active env o.account

theorem Stable.activeAt {s' : StateDB M} (h : Stable env s s') (ha : ActiveAt env s a) :
    ActiveAt env s' a := by
  obtain ⟨o, ho, hactive⟩ := ha
  obtain ⟨o', ho', hactive', -⟩ := h a o ho hactive
  exact ⟨o', ho', hactive'⟩

theorem setNonce_extends (ha : ActiveAt env s a) (nonce : UInt64) :
    Extends env s (s.setNonce env a nonce) := by
  obtain ⟨o, ho, hactive⟩ := ha
  simp only [setNonce, getOrNew_of_some ho]
  refine .update (g := fun u => { u with account := { u.account with nonce := o.account.nonce } })
    ho (fun t u hu => by simp [revertEntry, modifyObject, hu]) fun u hu => ?_
  exact ⟨by simp [hu.account], hu.code, hu.dirtyCode, hu.suicided,
    fun k => (hu.storage k).imp_right (And.imp_left fun _ => hactive)⟩

theorem setNonce_inv (hinv : Inv env s) (hnonce : nonce ≠ 0) :
    Inv env (s.setNonce env a nonce) := by
  have hnew := (getOrNew_sound (a := a) hinv).inv
  exact hnew.update (.inl rfl) (fun _ => hnew.clean_of_get getOrNew_get) fun _ => .inl hnonce

theorem setNonce_stable (hinv : Inv env s) (hnonce : nonce ≠ 0) :
    Stable env s (s.setNonce env a nonce) :=
  (getOrNew_sound (a := a) hinv).stable.trans
    (.update getOrNew_get fun _ => ⟨Or.inl hnonce, rfl, rfl⟩)

theorem setNonce_covers (h : Covers env s r) (hnonce : nonce ≠ 0) :
    Covers env (s.setNonce env a nonce) (r.setNonce env a nonce) := by
  obtain ⟨hcov, hobj⟩ := getOrNew_covers (a := a) h
  rw [← getOrNew_ctx env r a] at hobj
  unfold setNonce
  simp only
  exact hcov.update ⟨by rw [hobj.account], hobj.code, hobj.dirtyCode, hobj.suicided,
    fun k => (hobj.storage k).imp_right (And.imp_left fun _ => .inl hnonce)⟩ rfl

/-- The two entries are undone together, since undoing the nonce alone leaves the account inactive.
-/
theorem createContract_extends :
    Extends env s ((s.createAccount env a).setNonce env a 1) := by
  obtain ⟨balance, hget⟩ := createAccount_get env s a
  obtain ⟨e, hentries, hundo⟩ := createAccount_undo env (ObjCovers.refl env) s a
  have hkept := createAccount_kept env s a
  simp only [setNonce, getOrNew_of_some hget]
  refine ⟨hkept.ctx, hkept.nextRevisionID.ge, ⟨[], hkept.validRevisions, by simp⟩,
    ⟨[.nonceChange a 0, e], by simp [hentries, newObject, newEmptyAccount], fun t ht => ?_⟩⟩
  obtain ⟨u, hu, -⟩ := ht.get_right (getStateObject_setStateObject_self env _ _ _)
  have hreverted : t.revertEntry env (.nonceChange a 0) =
      some (t.setStateObject a { u with account := { u.account with nonce := 0 } }) := by
    simp [revertEntry, modifyObject, hu]
  obtain ⟨t', hrest, ht'⟩ := hundo
    ((t.setStateObject a { u with account := { u.account with nonce := 0 } }).undirty _)
    (((ht.off a).off a).undo hget fun hne => absurd rfl hne)
  refine ⟨t', ?_, ht'⟩
  rw [revertEntries, hreverted]
  exact hrest

theorem createContract_sound (hinv : Inv env s) (ha : ¬ ActiveAt env s a) :
    Sound env s ((s.createAccount env a).setNonce env a 1) := by
  have hcreate := createAccount_sound hinv fun o ho hactive => ha ⟨o, ho, hactive⟩
  exact ⟨createContract_extends, setNonce_inv hcreate.inv (by decide),
    hcreate.stable.trans (setNonce_stable hcreate.inv (by decide))⟩

structure Undeployed (env : Env) (o : StateObject) : Prop where
  nonce : o.account.nonce ≠ 0
  code : o.code = none
  codeHash : o.account.codeHash = env.emptyCodeHash

theorem setCode_extends (ho : s.getStateObject env a = some o) (hnew : Undeployed env o)
    (code : Option Bytes) : Extends env s (s.setCode env a code) := by
  have hprev : s.objectCode env o = none := by
    simp [objectCode, hnew.code, hnew.codeHash]
  simp only [StateDB.setCode, getOrNew_of_some ho, hprev]
  refine .update (g := fun u => { u with
      account := { u.account with codeHash := o.account.codeHash }
      code := none
      dirtyCode := true })
    ho (fun t u hu => by simp [revertEntry, modifyObject, hu]) fun u hu => ?_
  exact ⟨by simp [hu.account], hnew.code.symm, .inl rfl, hu.suicided,
    fun k => (hu.storage k).imp_right (And.imp_left fun _ => .inl hnew.nonce)⟩

theorem setCode_inv (hinv : Inv env s) (ho : s.getStateObject env a = some o)
    (hnew : Undeployed env o) (code : Option Bytes) : Inv env (s.setCode env a code) := by
  simp only [StateDB.setCode, getOrNew_of_some ho]
  exact hinv.update (.inl rfl) (fun _ => hinv.clean_of_get ho) fun _ => .inl hnew.nonce

theorem setCode_get_of_ne (ho : s.getStateObject env a = some o) (code : Option Bytes) {b : Address}
    (hba : b ≠ a) : (s.setCode env a code).getStateObject env b = s.getStateObject env b := by
  simp only [StateDB.setCode, getOrNew_of_some ho]
  exact getStateObject_setStateObject_of_ne env (s.append _) _ hba

theorem objectCode_congr (h : Covers env s r) (hoq : ObjCovers env r.ctx a o q) :
    s.objectCode env o = r.objectCode env q := by
  simp only [objectCode, hoq.code, hoq.account, h.ctx]

theorem setCode_covers (h : Covers env s r) (hq : r.getStateObject env a = some q)
    (hnonce : q.account.nonce ≠ 0) (code : Option Bytes) :
    Covers env (s.setCode env a code) (r.setCode env a code) := by
  obtain ⟨o, ho, hoq⟩ := h.get_right hq
  simp only [StateDB.setCode, getOrNew_of_some ho, getOrNew_of_some hq]
  exact h.update ⟨by rw [hoq.account], rfl, .inr rfl, hoq.suicided,
    fun k => (hoq.storage k).imp_right (And.imp_left fun _ => .inl hnonce)⟩ rfl

theorem setState_sound (hinv : Inv env s) (ha : ActiveAt env s a) (key value : Hash) :
    Sound env s (s.setState env a key value) := by
  obtain ⟨o, ho, hactive⟩ := ha
  simp only [StateDB.setState, getOrNew_of_some ho]
  split
  · exact .refl hinv
  · refine ⟨.update (g := fun u => { u with
        dirtyStorage := u.dirtyStorage.set key (s.objectState a o key) })
      ho (fun t u hu => by simp [revertEntry, modifyObject, hu]) fun u hu => ?_,
      hinv.update (.inl rfl) (fun k hsuicided hnone => hinv.clean_of_get ho hsuicided ?_)
        fun _ => hactive, .update ho fun h => ⟨h, rfl, rfl⟩⟩
    · refine ⟨hu.account, hu.code, hu.dirtyCode, hu.suicided, fun k => ?_⟩
      by_cases hk : k = key
      · -- the old value is back, as a pending write if there was none before
        subst hk
        rw [FinMap.get_set_self]
        cases hold : o.dirtyStorage.get k with
        | some v => exact Or.inl (by simp [objectState, hold])
        | none => exact Or.inr ⟨hactive, rfl, by simp [objectState, hold, Evm.getState]⟩
      · have hother := hu.storage k
        simp only [FinMap.get_set_of_ne _ _ hk] at hother ⊢
        exact hother
    · by_cases hk : k = key
      · subst hk
        simp at hnone
      · simpa [FinMap.get_set_of_ne _ _ hk] using hnone

theorem setState_covers (h : Covers env s r) (key value : Hash) :
    Covers env (s.setState env a key value) (r.setState env a key value) := by
  obtain ⟨hcov, hobj⟩ := getOrNew_covers (a := a) h
  have hstate : (s.getOrNewStateObject env a).1.objectState a (s.getOrNewStateObject env a).2 key =
      (r.getOrNewStateObject env a).1.objectState a (r.getOrNewStateObject env a).2 key := by
    simp only [objectState, Evm.getState, hcov.ctx, getOrNew_ctx env r a]
    exact hobj.objectState key
  rw [← getOrNew_ctx env r a] at hobj
  unfold StateDB.setState
  simp only [hstate]
  split
  · exact hcov
  · refine hcov.update ⟨hobj.account, hobj.code, hobj.dirtyCode, hobj.suicided, fun k => ?_⟩ rfl
    by_cases hk : k = key
    · subst hk
      exact Or.inl (by simp)
    · simpa only [FinMap.get_set_of_ne _ _ hk] using hobj.storage k

theorem suicide_sound (hinv : Inv env s) (ha : ActiveAt env s a) :
    Sound env s (s.suicide env a) := by
  obtain ⟨o, ho, hactive⟩ := ha
  simp only [suicide, ho]
  refine ⟨.update (g := fun u => { u with
        account := { u.account with balance := o.account.balance }
        suicided := o.suicided })
      ho (fun t u hu => by simp [revertEntry, hu]) fun u hu => ?_,
      hinv.update (.inl rfl) (by simp) fun _ => hactive, .update ho fun h => ⟨h, rfl, rfl⟩⟩
  exact ⟨by simp [hu.account], hu.code, hu.dirtyCode, rfl, hu.storage⟩

theorem suicide_covers (h : Covers env s r) :
    Covers env (s.suicide env a) (r.suicide env a) := by
  unfold suicide
  cases hq : r.getStateObject env a with
  | none =>
    rw [h.get_none.mpr hq]
    exact h
  | some q =>
    obtain ⟨o, ho, hoq⟩ := h.get_right hq
    simp only [ho]
    exact h.update ⟨by rw [hoq.account], hoq.code, hoq.dirtyCode, rfl, hoq.storage⟩ rfl

end Account

theorem enterCall_cases {kind : CallKind} {isPrecompile : Bool} {self addr : Address} {value : Nat}
    {s : StateDB M} {x : Entered M} (h : enterCall env kind isPrecompile self addr value s = x) :
    x = .refused ∨ x = .returned s.snapshot.1 ∨ ∃ s₁, x = .entered s₁ s.snapshot.2 ∧
      (s₁ = s.snapshot.1 ∨ s₁ = transfer env s.snapshot.1 self addr value ∨
        (s.snapshot.1.getStateObject env addr = none ∧
          s₁ = transfer env (s.snapshot.1.createAccount env addr) self addr value) ∨
        s₁ = s.snapshot.1.addBalance env addr 0) := by
  subst h
  cases kind with
  | call =>
    simp only [enterCall]
    split
    · exact .inl rfl
    · split
      · exact .inr (.inr ⟨_, rfl, .inr (.inl rfl)⟩)
      · rename_i hexist
        split
        · exact .inr (.inl rfl)
        · have hnone : s.snapshot.1.getStateObject env addr = none := by
            simpa [StateDB.exist] using hexist
          exact .inr (.inr ⟨_, rfl, .inr (.inr (.inl ⟨hnone, rfl⟩))⟩)
  | callCode =>
    simp only [enterCall]
    split
    · exact .inl rfl
    · exact .inr (.inr ⟨_, rfl, .inl rfl⟩)
  | delegateCall => exact .inr (.inr ⟨_, rfl, .inl rfl⟩)
  | staticCall => exact .inr (.inr ⟨_, rfl, .inr (.inr (.inr rfl))⟩)

/-! ## Refunds, logs and the access list -/

section Aside

variable {s s' r r' : StateDB M}

theorem Aside.get (h : Aside s s') (a : Address) :
    s'.getStateObject env a = s.getStateObject env a := by
  simp only [getStateObject, h.stateObjects, h.ctx]

theorem Aside.cacheStore (h : Aside s s') : s'.cacheStore = s.cacheStore := by
  simp only [StateDB.cacheStore, h.cacheCtx, h.ctx]

theorem Aside.covers (h : Covers env s r) (hs : Aside s s') (hr : Aside r r')
    (hrefund : s'.refund = r'.refund) (hlogs : s'.logs = r'.logs)
    (hal : s'.accessList = r'.accessList) : Covers env s' r' := by
  refine ⟨?_, ?_, ?_, fun a => ?_, fun a => ?_, hrefund, hlogs, hal⟩
  · rw [hs.ctx, hr.ctx, h.ctx]
  · rw [hs.cacheStore, hr.cacheStore, h.cache]
  · rw [hs.dirties, hr.dirties, h.dirties]
  · rw [hs.get, hr.get, hr.ctx]
    exact h.objects a
  · rw [hs.stateObjects, hr.stateObjects]
    exact h.live a

/-- The further entries of `s'` are undone outside the objects. -/
structure Recorded (env : Env) (s s' : StateDB M) : Prop where
  aside : Aside s s'
  undo : ∃ es, s'.journal.entries = es ++ s.journal.entries ∧
    ∀ t : StateDB M, t.refund = s'.refund → t.logs = s'.logs → t.accessList = s'.accessList →
      ∃ t', t.revertEntries env es = some t' ∧ Aside t t' ∧ t'.refund = s.refund ∧
        t'.logs = s.logs ∧ t'.accessList = s.accessList

theorem Recorded.refl (s : StateDB M) : Recorded env s s :=
  ⟨.refl s, [], rfl, fun t hrefund hlogs hal => ⟨t, rfl, .refl t, hrefund, hlogs, hal⟩⟩

theorem Recorded.sound (hrecorded : Recorded env s s') (hinv : Inv env s)
    (hwf : s'.accessList.WellFormed) : Sound env s s' := by
  obtain ⟨h, es, hes, hundo⟩ := hrecorded
  refine ⟨⟨h.ctx, h.nextRevisionID.ge, ⟨[], h.validRevisions, by simp⟩, ⟨es, hes, ?_⟩⟩,
    ⟨⟨?_, ?_⟩, hwf, h.ctx ▸ hinv.zeroHash, ?_⟩, ?_⟩
  · intro t ht
    obtain ⟨t', hrevert, haside, hrefund, hlogs, hal⟩ :=
      hundo t ht.refund ht.logs ht.accessList
    have hback : Aside s' s :=
      ⟨⟨h.ctx.symm, h.cacheCtx.symm, h.validRevisions.symm, h.nextRevisionID.symm,
        h.counter.symm⟩, h.stateObjects.symm, h.dirties.symm⟩
    exact ⟨t', hrevert, Aside.covers ht haside hback hrefund hlogs hal⟩
  · intro a ha
    rw [h.stateObjects]
    exact hinv.dirtyLive a (h.dirties ▸ ha)
  · intro a k hk
    rw [h.cacheStore, h.ctx]
    apply hinv.clean a k
    intro o ho
    exact hk o ((h.get a).trans ho)
  · intro a o ho
    exact hinv.active a o ((h.get a).symm.trans ho)
  · intro a o ho hactive
    exact ⟨o, (h.get a).trans ho, hactive, rfl, rfl⟩

theorem undirty_of_dirtied_none (h : e.dirtied = none) : Aside t (t.undirty e) := by
  refine { Aside.refl t with dirties := ?_ }
  ext a
  simp [undirty, Journal.dirtyCount, h]

theorem append_aside (h : e.dirtied = none) : Aside s (s.append e) := by
  refine { Aside.refl s with dirties := ?_ }
  simp [Journal.dirtyCount, h]

theorem Aside.trans {s'' : StateDB M} (h : Aside s s') (h' : Aside s' s'') : Aside s s'' :=
  ⟨h.toKept.trans h'.toKept, h'.stateObjects.trans h.stateObjects, h'.dirties.trans h.dirties⟩

theorem Aside.of_fields (h : Aside s s') (refund : UInt64) (logs : List Log) (al : AccessList) :
    Aside s { s' with refund := refund, logs := logs, accessList := al } :=
  { h with }

theorem addLog_aside (address : Address) (topics : List Hash) (data : Bytes) :
    Aside s (s.addLog address topics data) :=
  (append_aside (e := .addLogChange) rfl).of_fields _ _ _

theorem addLogs_aside (s : StateDB M) (logs : List LogEntry) :
    Aside s (Precompile.addLogs s logs) := by
  induction logs generalizing s with
  | nil => exact .refl s
  | cons log rest ih => exact (addLog_aside log.address log.topics log.data).trans (ih _)

def withCache (s : StateDB M) (cms : Store M) : StateDB M := { s with cacheCtx := some cms }

theorem addLogs_withCache (cms : Store M) (logs : List LogEntry) :
    Precompile.addLogs (withCache s cms) logs = withCache (Precompile.addLogs s logs) cms := by
  induction logs generalizing s with
  | nil => rfl
  | cons log rest ih => exact ih (s := s.addLog log.address log.topics log.data)

theorem addLog_recorded (s : StateDB M) (address : Address) (topics : List Hash) (data : Bytes) :
    Recorded env s (s.addLog address topics data) := by
  refine ⟨addLog_aside address topics data, [.addLogChange], rfl, fun t hrefund hlogs hal =>
    ⟨_, rfl, (undirty_of_dirtied_none (e := .addLogChange) rfl).of_fields _ _ _, hrefund, ?_, hal⟩⟩
  show t.logs.dropLast = s.logs
  rw [hlogs]
  exact List.dropLast_concat

theorem addLog_sound (hinv : Inv env s) (address : Address) (topics : List Hash)
    (data : Bytes) : Sound env s (s.addLog address topics data) :=
  (addLog_recorded s address topics data).sound hinv hinv.accessList

theorem addLog_covers (h : Covers env s r) (address : Address) (topics : List Hash)
    (data : Bytes) : Covers env (s.addLog address topics data) (r.addLog address topics data) := by
  refine Aside.covers h (addLog_aside _ _ _) (addLog_aside _ _ _) h.refund ?_ h.accessList
  show s.logs ++ [_] = r.logs ++ [_]
  rw [h.logs]

theorem refund_aside (s : StateDB M) (refund : UInt64) :
    Aside s { s.append (.refundChange s.refund) with refund := refund } :=
  (append_aside (e := .refundChange s.refund) rfl).of_fields _ _ _

theorem refund_recorded (s : StateDB M) (refund : UInt64) :
    Recorded env s { s.append (.refundChange s.refund) with refund := refund } :=
  ⟨refund_aside s refund, [.refundChange s.refund], rfl, fun _ _ hlogs hal =>
    ⟨_, rfl, (undirty_of_dirtied_none (e := .refundChange s.refund) rfl).of_fields _ _ _, rfl,
      hlogs, hal⟩⟩

theorem refund_sound (hinv : Inv env s) (refund : UInt64) :
    Sound env s { s.append (.refundChange s.refund) with refund := refund } :=
  (refund_recorded s refund).sound hinv hinv.accessList

theorem refund_covers (h : Covers env s r) (refund : UInt64) :
    Covers env { s.append (.refundChange s.refund) with refund := refund }
      { r.append (.refundChange r.refund) with refund := refund } :=
  Aside.covers h (refund_aside s refund) (refund_aside r refund) rfl h.logs h.accessList

theorem addAddressToAccessList_aside (addr : Address) :
    Aside s (s.addAddressToAccessList addr) := by
  unfold addAddressToAccessList
  split
  · exact .refl s
  · exact (append_aside (e := .accessListAddAccountChange addr) rfl).of_fields _ _ _

theorem addAddressToAccessList_recorded (s : StateDB M) (addr : Address) :
    Recorded env s (s.addAddressToAccessList addr) := by
  have haside := addAddressToAccessList_aside (s := s) addr
  unfold addAddressToAccessList at haside ⊢
  split at haside
  · exact .refl s
  · rename_i al hadd
    refine ⟨haside, [.accessListAddAccountChange addr], rfl, fun t hrefund hlogs hal =>
      ⟨_, rfl, (undirty_of_dirtied_none rfl).of_fields _ _ _, hrefund, hlogs, ?_⟩⟩
    show t.accessList.deleteAddress addr = s.accessList
    rw [hal]
    exact AccessList.deleteAddress_addAddress hadd

theorem addAddressToAccessList_fields (s : StateDB M) (addr : Address) :
    (s.addAddressToAccessList addr).refund = s.refund ∧
      (s.addAddressToAccessList addr).logs = s.logs ∧
      (s.addAddressToAccessList addr).accessList = (s.accessList.addAddress addr).1 := by
  unfold addAddressToAccessList
  split
  · rename_i al hadd
    exact ⟨rfl, rfl, by rw [hadd]; exact (AccessList.addAddress_eq_false hadd).symm⟩
  · rename_i al hadd
    exact ⟨rfl, rfl, by rw [hadd]⟩

theorem addAddressToAccessList_wellFormed (h : s.accessList.WellFormed) (addr : Address) :
    (s.addAddressToAccessList addr).accessList.WellFormed := by
  rw [(addAddressToAccessList_fields s addr).2.2]
  exact AccessList.wellFormed_addAddress h rfl

theorem addAddressToAccessList_sound (hinv : Inv env s) (addr : Address) :
    Sound env s (s.addAddressToAccessList addr) :=
  (addAddressToAccessList_recorded s addr).sound hinv
    (addAddressToAccessList_wellFormed hinv.accessList addr)

theorem addAddressToAccessList_covers (h : Covers env s r) (addr : Address) :
    Covers env (s.addAddressToAccessList addr) (r.addAddressToAccessList addr) := by
  obtain ⟨hrefund, hlogs, hal⟩ := addAddressToAccessList_fields s addr
  obtain ⟨hrefund', hlogs', hal'⟩ := addAddressToAccessList_fields r addr
  apply Aside.covers h (addAddressToAccessList_aside addr) (addAddressToAccessList_aside addr)
  · rw [hrefund, hrefund', h.refund]
  · rw [hlogs, hlogs', h.logs]
  · rw [hal, hal', h.accessList]

theorem addSlotToAccessList_aside (addr : Address) (slot : Hash) :
    Aside s (s.addSlotToAccessList addr slot) := by
  have happend : ∀ (mid : StateDB M) (b : Bool) (e : JournalEntry M), e.dirtied = none →
      Aside mid (if b then mid.append e else mid) := by
    intro mid b e he
    cases b with
    | false => exact .refl mid
    | true => exact append_aside he
  unfold addSlotToAccessList
  exact ((happend s _ (.accessListAddAccountChange addr) rfl).trans
    (happend _ _ (.accessListAddSlotChange addr slot) rfl)).of_fields _ _ _

theorem addSlotToAccessList_recorded (hwf : s.accessList.WellFormed) (addr : Address)
    (slot : Hash) : Recorded env s (s.addSlotToAccessList addr slot) := by
  have haside := addSlotToAccessList_aside (s := s) addr slot
  unfold addSlotToAccessList at haside ⊢
  rcases hadd : s.accessList.addSlot addr slot with ⟨al, added, addedSlot⟩
  rw [hadd] at haside
  cases addedSlot with
  | false =>
    obtain ⟨rfl, rfl⟩ := AccessList.addSlot_eq_false hadd
    exact .refl s
  | true =>
    obtain ⟨mid, hdelete, hmid⟩ := AccessList.deleteSlot_addSlot hwf hadd
    cases added with
    | false =>
      refine ⟨haside, [.accessListAddSlotChange addr slot], rfl, fun t hrefund hlogs hal => ?_⟩
      refine ⟨({ t with accessList := mid }).undirty (.accessListAddSlotChange addr slot), ?_, ?_,
        hrefund, hlogs, hmid⟩
      · simp [revertEntries, revertEntry, hal, hdelete]
      · exact (undirty_of_dirtied_none
          (e := .accessListAddSlotChange addr slot) rfl).of_fields _ _ _
    | true =>
      refine ⟨haside, [.accessListAddSlotChange addr slot, .accessListAddAccountChange addr], rfl,
        fun t hrefund hlogs hal => ?_⟩
      refine ⟨(({ ({ t with accessList := mid }).undirty (.accessListAddSlotChange addr slot) with
          accessList := mid.deleteAddress addr })).undirty (.accessListAddAccountChange addr),
        ?_, ?_, hrefund, hlogs, hmid⟩
      · simp [revertEntries, revertEntry, hal, hdelete, undirty]
      · exact (((undirty_of_dirtied_none (e := .accessListAddSlotChange addr slot)
          rfl).of_fields _ _ _).trans
          (undirty_of_dirtied_none (e := .accessListAddAccountChange addr) rfl)).of_fields _ _ _

theorem addSlotToAccessList_fields (s : StateDB M) (addr : Address) (slot : Hash) :
    (s.addSlotToAccessList addr slot).refund = s.refund ∧
      (s.addSlotToAccessList addr slot).logs = s.logs ∧
      (s.addSlotToAccessList addr slot).accessList = (s.accessList.addSlot addr slot).1 := by
  unfold addSlotToAccessList
  rcases s.accessList.addSlot addr slot with ⟨al, added, addedSlot⟩
  cases added <;> cases addedSlot <;> exact ⟨rfl, rfl, rfl⟩

theorem addSlotToAccessList_wellFormed (h : s.accessList.WellFormed) (addr : Address)
    (slot : Hash) : (s.addSlotToAccessList addr slot).accessList.WellFormed := by
  rw [(addSlotToAccessList_fields s addr slot).2.2]
  exact AccessList.wellFormed_addSlot h rfl

theorem addSlotToAccessList_sound (hinv : Inv env s) (addr : Address) (slot : Hash) :
    Sound env s (s.addSlotToAccessList addr slot) :=
  (addSlotToAccessList_recorded hinv.accessList addr slot).sound hinv
    (addSlotToAccessList_wellFormed hinv.accessList addr slot)

theorem addSlotToAccessList_covers (h : Covers env s r) (addr : Address) (slot : Hash) :
    Covers env (s.addSlotToAccessList addr slot) (r.addSlotToAccessList addr slot) := by
  obtain ⟨hrefund, hlogs, hal⟩ := addSlotToAccessList_fields s addr slot
  obtain ⟨hrefund', hlogs', hal'⟩ := addSlotToAccessList_fields r addr slot
  apply Aside.covers h (addSlotToAccessList_aside addr slot) (addSlotToAccessList_aside addr slot)
  · rw [hrefund, hrefund', h.refund]
  · rw [hlogs, hlogs', h.logs]
  · rw [hal, hal', h.accessList]

end Aside

end Haqq.Evm
