import Haqq.Evm.Machine

/-!
# What the journal restores

Undoing a journal leaves residue: a reverted `SetState` leaves a pending write of the old value, a
reverted creation in a live account leaves it live.  `Covers s t` says that `s` is `t` up to such
residue, `Extends s s'` that undoing the further entries of `s'` leads to a state that covers `s`.
-/

namespace Haqq.Evm

open Lib StateDB

variable {M : Type} (env : Env)

/-! ## Reads after writes -/

variable {a b : Address} {o : StateObject}

namespace StateDB

variable (s : StateDB M)

@[simp] theorem append_entries (e : JournalEntry M) :
    (s.append e).journal.entries = e :: s.journal.entries := rfl
@[simp] theorem append_dirties (e : JournalEntry M) :
    (s.append e).journal.dirties = s.journal.dirties + Journal.dirtyCount e := rfl
@[simp] theorem setStateObject_journal (a : Address) (o : StateObject) :
    (s.setStateObject a o).journal = s.journal := rfl

@[simp] theorem setStateObject_live_self (a : Address) (o : StateObject) :
    (s.setStateObject a o).stateObjects a = some o := by
  simp [setStateObject]

theorem setStateObject_live_of_ne (o : StateObject) (hne : b ≠ a) :
    (s.setStateObject a o).stateObjects b = s.stateObjects b := by
  simp [setStateObject, hne]

@[simp] theorem getStateObject_setStateObject_self (a : Address) (o : StateObject) :
    (s.setStateObject a o).getStateObject env a = some o := by
  simp [getStateObject, setStateObject]

theorem getStateObject_setStateObject_of_ne (o : StateObject) (hne : b ≠ a) :
    (s.setStateObject a o).getStateObject env b = s.getStateObject env b := by
  simp [getStateObject, setStateObject, hne]

theorem getStateObject_of_live (h : s.stateObjects a = some o) :
    s.getStateObject env a = some o := by
  simp [getStateObject, h]

theorem stateObjects_eq_none (h : s.getStateObject env a = none) : s.stateObjects a = none := by
  unfold getStateObject at h
  split at h <;> simp_all

theorem revertEntries_append (es es' : List (JournalEntry M)) :
    revertEntries env (es ++ es') s =
      (revertEntries env es s).bind (revertEntries env es') := by
  induction es generalizing s with
  | nil => rfl
  | cons e rest ih =>
    simp only [List.cons_append, revertEntries, Option.bind_eq_bind]
    cases s.revertEntry env e with
    | none => rfl
    | some s' => exact ih _

theorem revertEntries_one {e : JournalEntry M} {s' : StateDB M}
    (h : s.revertEntry env e = some s') : s.revertEntries env [e] = some (s'.undirty e) := by
  simp [revertEntries, h]

theorem exist_eq (a : Address) :
    s.exist env a = ((s.getStateObject env a).map (·.account)).isSome := by
  rw [exist, Option.isSome_map]

theorem getBalance_eq (a : Address) :
    s.getBalance env a = ((s.getStateObject env a).map (·.account)).elim 0 (·.balance) := by
  unfold getBalance
  cases s.getStateObject env a <;> rfl

theorem getNonce_eq (a : Address) :
    s.getNonce env a = ((s.getStateObject env a).map (·.account)).elim 0 (·.nonce) := by
  unfold getNonce
  cases s.getStateObject env a <;> rfl

theorem getCodeHash_eq (a : Address) :
    s.getCodeHash env a = ((s.getStateObject env a).map (·.account)).elim 0 (·.codeHash) := by
  unfold getCodeHash
  cases s.getStateObject env a <;> rfl

theorem modifyObject_eq_some {f : StateObject → StateObject} {s' : StateDB M}
    (h : s.modifyObject env a f = some s') :
    ∃ o, s.getStateObject env a = some o ∧ s' = s.setStateObject a (f o) := by
  simp only [modifyObject, Option.map_eq_some_iff] at h
  obtain ⟨o, ho, rfl⟩ := h
  exact ⟨o, ho, rfl⟩

theorem revertEntry_keeps {s s' : StateDB M} {e : JournalEntry M}
    (h : s.revertEntry env e = some s') :
    s'.precompileCallsCounter = s.precompileCallsCounter ∧
      s'.nextRevisionID = s.nextRevisionID := by
  cases e with
  | createObjectChange | resetObjectChange | refundChange | addLogChange
  | accessListAddAccountChange | precompileCallChange =>
    cases h
    exact ⟨rfl, rfl⟩
  | suicideChange =>
    simp only [revertEntry] at h
    split at h <;> (cases h; exact ⟨rfl, rfl⟩)
  | balanceChange | nonceChange | storageChange | codeChange =>
    obtain ⟨o, -, rfl⟩ := s.modifyObject_eq_some env h
    exact ⟨rfl, rfl⟩
  | accessListAddSlotChange =>
    simp only [revertEntry, Option.map_eq_some_iff] at h
    obtain ⟨al, -, rfl⟩ := h
    exact ⟨rfl, rfl⟩

theorem revertEntries_keeps {es : List (JournalEntry M)} {s s' : StateDB M}
    (h : s.revertEntries env es = some s') :
    s'.precompileCallsCounter = s.precompileCallsCounter ∧
      s'.nextRevisionID = s.nextRevisionID := by
  induction es generalizing s with
  | nil =>
    cases h
    exact ⟨rfl, rfl⟩
  | cons e rest ih =>
    simp only [revertEntries, Option.bind_eq_bind, Option.bind_eq_some_iff] at h
    obtain ⟨s₁, hs₁, hrest⟩ := h
    have hkeep := revertEntry_keeps env hs₁
    have hkeep' := ih hrest
    exact ⟨hkeep'.1.trans hkeep.1, hkeep'.2.trans hkeep.2⟩

theorem revertToSnapshot_eq_some {s s' : StateDB M} {revid : Nat}
    (h : s.revertToSnapshot env revid = some s') :
    ∃ rev older t, rev :: older <:+ s.validRevisions ∧ rev.id = revid ∧
      s.revertEntries env
        (s.journal.entries.take (s.journal.entries.length - rev.journalIndex)) = some t ∧
      s' = { t with
        journal := { t.journal with
          entries := s.journal.entries.drop (s.journal.entries.length - rev.journalIndex) }
        validRevisions := older } := by
  unfold revertToSnapshot at h
  split at h
  · cases h
  · rename_i rev older hdrop
    split at h
    · cases h
    · rename_i hid
      simp only [journalRevert, Option.bind_eq_bind, Option.bind_eq_some_iff, Option.pure_def,
        Option.some.injEq] at h
      obtain ⟨_, ⟨t, ht, rfl⟩, rfl⟩ := h
      exact ⟨rev, older, t, hdrop ▸ List.dropWhile_suffix _, not_not.mp hid, ht, rfl⟩

end StateDB

/-! ## Covering states -/

/-- An account that runs or may run code: `create` refuses to touch it. -/
def Active (account : Account) : Prop :=
  account.nonce ≠ 0 ∨ (account.codeHash ≠ 0 ∧ account.codeHash ≠ env.emptyCodeHash)

/-- `o` is `q` up to pending writes of values that the slot already has. -/
structure ObjCovers (ctx : Store M) (a : Address) (o q : StateObject) : Prop where
  account : o.account = q.account
  code : o.code = q.code
  dirtyCode : o.code = none ∨ o.dirtyCode = q.dirtyCode
  suicided : o.suicided = q.suicided
  storage : ∀ k, o.dirtyStorage.get k = q.dirtyStorage.get k ∨
    (Active env q.account ∧ q.dirtyStorage.get k = none ∧
      o.dirtyStorage.get k = some (ctx.storage a k))

theorem ObjCovers.refl (ctx : Store M) (a : Address) (o : StateObject) :
    ObjCovers env ctx a o o :=
  ⟨rfl, rfl, Or.inr rfl, rfl, fun _ => Or.inl rfl⟩

variable {env}

variable {ctx : Store M} {q : StateObject}

theorem ObjCovers.trans {u : StateObject} (hoq : ObjCovers env ctx a o q)
    (hqu : ObjCovers env ctx a q u) : ObjCovers env ctx a o u := by
  refine ⟨hoq.account.trans hqu.account, hoq.code.trans hqu.code, ?_,
    hoq.suicided.trans hqu.suicided, fun k => ?_⟩
  · rcases hoq.dirtyCode with hnone | hdirty
    · exact Or.inl hnone
    · rcases hqu.dirtyCode with hnone | hdirty'
      · exact Or.inl (hoq.code.trans hnone)
      · exact Or.inr (hdirty.trans hdirty')
  · rcases hoq.storage k with heq | ⟨hactive, hnone, hsome⟩
    · rw [heq]
      exact hqu.storage k
    · rcases hqu.storage k with heq | ⟨_, _, hsome'⟩
      · refine Or.inr ⟨?_, heq ▸ hnone, hsome⟩
        rw [← hqu.account]
        exact hactive
      · rw [hnone] at hsome'
        cases hsome'

theorem ObjCovers.objectState (h : ObjCovers env ctx a o q) (k : Hash) :
    (o.dirtyStorage.get k).getD (ctx.storage a k) =
      (q.dirtyStorage.get k).getD (ctx.storage a k) := by
  rcases h.storage k with heq | ⟨_, hnone, hsome⟩
  · rw [heq]
  · rw [hnone, hsome]
    rfl

/-! ## Views -/

section Views

variable {α : Type*} {r : α → α → Prop}

theorem optionRel_refl (h : ∀ a, r a a) (x : Option α) : Option.Rel r x x := by
  cases x with
  | none => exact .none
  | some a => exact .some (h a)

theorem optionRel_trans {x y z : Option α} (hxy : Option.Rel r x y) (hyz : Option.Rel r y z)
    (h : ∀ a b c, r a b → r b c → r a c) : Option.Rel r x z := by
  cases hxy with
  | none => exact hyz
  | some hab =>
    cases hyz with
    | some hbc => exact .some (h _ _ _ hab hbc)

theorem optionRel_imp {β : Type*} {R R' : α → β → Prop} {x : Option α} {y : Option β}
    (himp : ∀ a b, R a b → R' a b) (h : Option.Rel R x y) : Option.Rel R' x y := by
  cases h with
  | none => exact .none
  | some h => exact .some (himp _ _ h)

variable {R : Store M → Address → StateObject → StateObject → Prop} {s t u : StateDB M}
  {e e' : JournalEntry M} {o' : StateObject}

/-- `s` is `t` with the objects related by `R`.  The journal entries, the revisions and the call
counter are not compared. -/
structure View (env : Env) (R : Store M → Address → StateObject → StateObject → Prop)
    (s t : StateDB M) : Prop where
  ctx : s.ctx = t.ctx
  cache : s.cacheStore = t.cacheStore
  dirties : s.journal.dirties = t.journal.dirties
  objects : ∀ a, Option.Rel (R t.ctx a) (s.getStateObject env a) (t.getStateObject env a)
  live : ∀ a, t.stateObjects a ≠ none → s.stateObjects a ≠ none
  refund : s.refund = t.refund
  logs : s.logs = t.logs
  accessList : s.accessList = t.accessList

/-- `R` without a statement about the object of `a`, which is about to be replaced. -/
def Off (a : Address) (R : Store M → Address → StateObject → StateObject → Prop) (ctx : Store M)
    (b : Address) (o q : StateObject) : Prop :=
  b ≠ a → R ctx b o q

namespace View

theorem of_objects (hrefl : ∀ ctx a o, R ctx a o o) (hctx : s.ctx = t.ctx)
    (hcache : s.cacheStore = t.cacheStore) (hdirties : s.journal.dirties = t.journal.dirties)
    (hobjects : s.stateObjects = t.stateObjects) (hrefund : s.refund = t.refund)
    (hlogs : s.logs = t.logs) (haccess : s.accessList = t.accessList) : View env R s t := by
  refine ⟨hctx, hcache, hdirties, fun a => ?_, fun a => by simp [hobjects], hrefund, hlogs, haccess⟩
  have hobj : s.getStateObject env a = t.getStateObject env a := by
    simp only [getStateObject, hobjects, hctx]
  rw [hobj]
  exact optionRel_refl (hrefl t.ctx a) _

theorem refl (hrefl : ∀ ctx a o, R ctx a o o) (s : StateDB M) : View env R s s :=
  of_objects hrefl rfl rfl rfl rfl rfl rfl rfl

theorem trans (htrans : ∀ ctx a o p q, R ctx a o p → R ctx a p q → R ctx a o q)
    (h : View env R s t) (h' : View env R t u) : View env R s u := by
  refine ⟨h.ctx.trans h'.ctx, h.cache.trans h'.cache, h.dirties.trans h'.dirties,
    fun a => ?_, fun a ha => h.live a (h'.live a ha), h.refund.trans h'.refund,
    h.logs.trans h'.logs, h.accessList.trans h'.accessList⟩
  have hobj := h.objects a
  rw [h'.ctx] at hobj
  exact optionRel_trans hobj (h'.objects a) (htrans u.ctx a)

theorem off (h : View env R s t) (a : Address) : View env (Off a R) s t :=
  { h with objects := fun b => optionRel_imp (fun _ _ hoq _ => hoq) (h.objects b) }

section

variable (h : View env R s t)

include h

theorem get_cases (a : Address) :
    (s.getStateObject env a = none ∧ t.getStateObject env a = none) ∨
      ∃ o q, s.getStateObject env a = some o ∧ t.getStateObject env a = some q ∧
        R t.ctx a o q := by
  have hobj := h.objects a
  generalize s.getStateObject env a = x at hobj ⊢
  generalize t.getStateObject env a = y at hobj ⊢
  cases hobj with
  | none => exact .inl ⟨rfl, rfl⟩
  | some hoq => exact .inr ⟨_, _, rfl, rfl, hoq⟩

theorem get_left (ho : s.getStateObject env a = some o) :
    ∃ q, t.getStateObject env a = some q ∧ R t.ctx a o q := by
  rcases h.get_cases a with ⟨hs, -⟩ | ⟨o', q, hs, hq, hoq⟩
  · rw [ho] at hs
    cases hs
  · rw [ho] at hs
    cases hs
    exact ⟨q, hq, hoq⟩

theorem get_right (hq : t.getStateObject env a = some q) :
    ∃ o, s.getStateObject env a = some o ∧ R t.ctx a o q := by
  rcases h.get_cases a with ⟨-, ht⟩ | ⟨o, q', ho, ht, hoq⟩
  · rw [hq] at ht
    cases ht
  · rw [hq] at ht
    cases ht
    exact ⟨o, ho, hoq⟩

theorem get_none : s.getStateObject env a = none ↔ t.getStateObject env a = none := by
  rcases h.get_cases a with ⟨hs, ht⟩ | ⟨o, q, hs, ht, -⟩
  · simp [hs, ht]
  · simp [hs, ht]

end

theorem of_append (h : View env R s (t.append e)) : View env R (s.undirty e) t := by
  refine { h with dirties := ?_ }
  have hdirties : s.journal.dirties = t.journal.dirties + Journal.dirtyCount e := h.dirties
  simp only [StateDB.undirty, hdirties, Tally.add_sub_cancel_right']

theorem account (hR : ∀ ctx a o q, R ctx a o q → o.account = q.account) (h : View env R s t)
    (a : Address) :
    (s.getStateObject env a).map (·.account) = (t.getStateObject env a).map (·.account) := by
  rcases h.get_cases a with ⟨hs, ht⟩ | ⟨o, q, hs, ht, hoq⟩
  · rw [hs, ht]
  · rw [hs, ht, Option.map_some, Option.map_some, hR _ _ _ _ hoq]

theorem setObject (h : View env (Off a R) s t) (hoq : R t.ctx a o q) :
    View env R (s.setStateObject a o) (t.setStateObject a q) := by
  refine { h with objects := fun b => ?_, live := fun b hb => ?_ }
  · by_cases hba : b = a
    · subst hba
      rw [getStateObject_setStateObject_self, getStateObject_setStateObject_self]
      exact .some hoq
    · rw [getStateObject_setStateObject_of_ne env s o hba,
        getStateObject_setStateObject_of_ne env t q hba]
      exact optionRel_imp (fun _ _ hoq => hoq hba) (h.objects b)
  · by_cases hba : b = a
    · subst hba
      simp
    · rw [setStateObject_live_of_ne s o hba]
      rw [setStateObject_live_of_ne t q hba] at hb
      exact h.live b hb

theorem update (h : View env R s t) (hoq : R t.ctx a o q)
    (hcount : Journal.dirtyCount e = Journal.dirtyCount e') :
    View env R ((s.append e).setStateObject a o) ((t.append e').setStateObject a q) := by
  have happend : View env R (s.append e) (t.append e') :=
    { h with dirties := by rw [append_dirties, append_dirties, h.dirties, hcount] }
  exact (happend.off a).setObject hoq

theorem deleteObject (hrefl : ∀ ctx a o, R ctx a o o) (h : View env (Off a R) s t) :
    View env R { s with stateObjects := Function.update s.stateObjects a none }
      { t with stateObjects := Function.update t.stateObjects a none } := by
  refine { h with objects := fun b => ?_, live := fun b hb => ?_ }
  · by_cases hba : b = a
    · -- the account is loaded from `ctx` again
      subst hba
      simp only [getStateObject, Function.update_self, h.ctx]
      exact optionRel_refl (hrefl t.ctx b) _
    · simp only [getStateObject, Function.update_of_ne hba]
      exact optionRel_imp (fun _ _ hoq => hoq hba) (h.objects b)
  · by_cases hba : b = a
    · subst hba
      simp at hb
    · simp only [Function.update_of_ne hba] at hb ⊢
      exact h.live b hb

/-- The change that `e` records is undone by putting back an object like the one of before. -/
theorem undo (h : View env (Off a R) t ((s.append e).setStateObject a o'))
    (hget : s.getStateObject env a = some q) (hoq : R s.ctx a o q) :
    View env R ((t.setStateObject a o).undirty e) s := by
  have hset := h.setObject (q := q) hoq
  have hsame : ∀ b, (((s.append e).setStateObject a o').setStateObject a q).getStateObject env b =
      s.getStateObject env b := by
    intro b
    by_cases hba : b = a
    · rw [hba, getStateObject_setStateObject_self, hget]
    · rw [getStateObject_setStateObject_of_ne env _ q hba,
        getStateObject_setStateObject_of_ne env _ o' hba]
      rfl
  refine of_append { hset with
    objects := fun b => hsame b ▸ hset.objects b, live := fun b hb => hset.live b ?_ }
  by_cases hba : b = a
  · simp [hba]
  · rwa [setStateObject_live_of_ne _ q hba, setStateObject_live_of_ne _ o' hba]

end View

end Views

abbrev Covers (env : Env) : StateDB M → StateDB M → Prop := View env (ObjCovers env)

variable {t : StateDB M}

theorem Covers.refl (env : Env) (s : StateDB M) : Covers env s s := View.refl (ObjCovers.refl env) s

theorem Covers.trans {s u : StateDB M} (hst : Covers env s t) (htu : Covers env t u) :
    Covers env s u :=
  View.trans (fun _ _ _ _ _ => ObjCovers.trans) hst htu

/-! ## Invariants of a running StateDB -/

variable (env)

structure Settled (s : StateDB M) : Prop where
  dirtyLive : ∀ a, s.journal.dirties.get a ≠ 0 → s.stateObjects a ≠ none
  /-- Slots without a pending write are the same in the cache context. -/
  clean : ∀ a k, (∀ o, s.getStateObject env a = some o →
    o.suicided = false ∧ o.dirtyStorage.get k = none) →
    s.cacheStore.storage a k = s.ctx.storage a k

structure Inv (s : StateDB M) : Prop extends Settled env s where
  accessList : s.accessList.WellFormed
  /-- No code is stored under the zero hash, which stands for "no account". -/
  zeroHash : s.ctx.code 0 = none
  /-- Only active accounts are selfdestructed, deployed to or written. -/
  active : ∀ a o, s.getStateObject env a = some o →
    (o.suicided = true ∨ o.code ≠ none ∨ ∃ k, o.dirtyStorage.get k ≠ none) →
    Active env o.account

def Stable (s s' : StateDB M) : Prop :=
  ∀ a o, s.getStateObject env a = some o → Active env o.account →
    ∃ o', s'.getStateObject env a = some o' ∧ Active env o'.account ∧ o'.code = o.code ∧
      o'.account.codeHash = o.account.codeHash

structure Extends (s s' : StateDB M) : Prop where
  ctx : s'.ctx = s.ctx
  nextRevision : s.nextRevisionID ≤ s'.nextRevisionID
  revisions : ∃ newer, s'.validRevisions = newer ++ s.validRevisions ∧
    ∀ rev ∈ newer, s.nextRevisionID ≤ rev.id
  undo : ∃ es, s'.journal.entries = es ++ s.journal.entries ∧
    ∀ t, Covers env t s' → ∃ t', t.revertEntries env es = some t' ∧ Covers env t' s

structure Sound (s s' : StateDB M) : Prop where
  ext : Extends env s s'
  inv : Inv env s'
  stable : Stable env s s'

variable {env}

theorem Stable.refl (s : StateDB M) : Stable env s s :=
  fun _ o ho hactive => ⟨o, ho, hactive, rfl, rfl⟩

variable {s₁ s₂ : StateDB M}

theorem Stable.trans {s : StateDB M} (h₁ : Stable env s s₁) (h₂ : Stable env s₁ s₂) :
    Stable env s s₂ := by
  intro a o ho hactive
  obtain ⟨o₁, ho₁, hactive₁, hcode₁, hhash₁⟩ := h₁ a o ho hactive
  obtain ⟨o₂, ho₂, hactive₂, hcode₂, hhash₂⟩ := h₂ a o₁ ho₁ hactive₁
  exact ⟨o₂, ho₂, hactive₂, hcode₂.trans hcode₁, hhash₂.trans hhash₁⟩

theorem Extends.refl (s : StateDB M) : Extends env s s :=
  ⟨rfl, le_rfl, ⟨[], rfl, by simp⟩, ⟨[], rfl, fun t ht => ⟨t, rfl, ht⟩⟩⟩

theorem Extends.trans {s : StateDB M} (h₁ : Extends env s s₁) (h₂ : Extends env s₁ s₂) :
    Extends env s s₂ := by
  obtain ⟨newer₁, hrev₁, hids₁⟩ := h₁.revisions
  obtain ⟨newer₂, hrev₂, hids₂⟩ := h₂.revisions
  obtain ⟨es₁, hes₁, hundo₁⟩ := h₁.undo
  obtain ⟨es₂, hes₂, hundo₂⟩ := h₂.undo
  refine ⟨h₂.ctx.trans h₁.ctx, h₁.nextRevision.trans h₂.nextRevision,
    ⟨newer₂ ++ newer₁, by rw [hrev₂, hrev₁, List.append_assoc], ?_⟩,
    ⟨es₂ ++ es₁, by rw [hes₂, hes₁, List.append_assoc], ?_⟩⟩
  · intro rev hrev
    rcases List.mem_append.mp hrev with hmem | hmem
    · exact h₁.nextRevision.trans (hids₂ rev hmem)
    · exact hids₁ rev hmem
  · -- the later entries are undone first
    intro t ht
    obtain ⟨t₁, hrevert₁, ht₁⟩ := hundo₂ t ht
    obtain ⟨t₂, hrevert₂, ht₂⟩ := hundo₁ t₁ ht₁
    exact ⟨t₂, by rw [StateDB.revertEntries_append, hrevert₁]; exact hrevert₂, ht₂⟩

theorem Sound.refl {s : StateDB M} (h : Inv env s) : Sound env s s :=
  ⟨.refl s, h, .refl s⟩

theorem Sound.trans {s : StateDB M} (h₁ : Sound env s s₁) (h₂ : Sound env s₁ s₂) : Sound env s s₂ :=
  ⟨h₁.ext.trans h₂.ext, h₂.inv, h₁.stable.trans h₂.stable⟩

theorem Settled.of_covers {s : StateDB M} (h : Settled env t) (hcov : Covers env s t) :
    Settled env s := by
  constructor
  · intro a ha
    exact hcov.live a (h.dirtyLive a (hcov.dirties ▸ ha))
  · intro a k hk
    rw [hcov.cache, hcov.ctx]
    apply h.clean a k
    intro q hq
    obtain ⟨o, ho, hoq⟩ := hcov.get_right hq
    obtain ⟨hsuicided, hnone⟩ := hk o ho
    refine ⟨hoq.suicided ▸ hsuicided, ?_⟩
    -- residue would be a pending write of `o`
    rcases hoq.storage k with heq | ⟨_, hq', _⟩
    · exact heq ▸ hnone
    · exact hq'

theorem Inv.of_covers {s : StateDB M} (h : Inv env t) (hcov : Covers env s t) : Inv env s := by
  refine ⟨h.toSettled.of_covers hcov, hcov.accessList ▸ h.accessList, hcov.ctx ▸ h.zeroHash, ?_⟩
  intro a o ho hused
  obtain ⟨q, hq, hoq⟩ := hcov.get_left ho
  rw [hoq.account]
  rcases hused with hsuicided | hcode | ⟨k, hk⟩
  · exact h.active a q hq (Or.inl (hoq.suicided ▸ hsuicided))
  · exact h.active a q hq (Or.inr (Or.inl (hoq.code ▸ hcode)))
  · rcases hoq.storage k with heq | ⟨hactive, _, _⟩
    · exact h.active a q hq (Or.inr (Or.inr ⟨k, heq ▸ hk⟩))
    · exact hactive

theorem Stable.of_covers {s : StateDB M} (hcov : Covers env s t) : Stable env t s := by
  intro a q hq hactive
  obtain ⟨o, ho, hoq⟩ := hcov.get_right hq
  exact ⟨o, ho, hoq.account ▸ hactive, hoq.code, by rw [hoq.account]⟩

/-! ## Rolling back -/

theorem snapshot_covers (s : StateDB M) : Covers env s.snapshot.1 s := { Covers.refl env s with }

theorem snapshot_sound {s : StateDB M} (h : Inv env s) : Sound env s s.snapshot.1 := by
  refine ⟨⟨rfl, Nat.le_succ _, ⟨[⟨s.nextRevisionID, s.journal.entries.length⟩], rfl, ?_⟩,
    ⟨[], rfl, fun t ht => ⟨t, rfl, ht.trans (snapshot_covers s)⟩⟩⟩,
    h.of_covers (snapshot_covers s), .of_covers (snapshot_covers s)⟩
  intro rev hrev
  rw [List.mem_singleton] at hrev
  exact hrev ▸ le_rfl

/-- **Rollback.** Reverting to the snapshot at the start of a frame gives back the state before it,
up to residue. -/
theorem Extends.revert {s s' : StateDB M} (h : Extends env s.snapshot.1 s') :
    ∃ t, s'.revertToSnapshot env s.snapshot.2 = some t ∧ Covers env t s ∧
      t.precompileCallsCounter = s'.precompileCallsCounter ∧
      t.journal.entries = s.journal.entries ∧ t.validRevisions = s.validRevisions ∧
      s.nextRevisionID ≤ t.nextRevisionID := by
  obtain ⟨newer, hrev, hids⟩ := h.revisions
  obtain ⟨es, hes, hundo⟩ := h.undo
  have hdrop : s'.validRevisions.dropWhile (fun rev => s.snapshot.2 < rev.id) =
      s.snapshot.1.validRevisions := by
    rw [hrev, List.dropWhile_append_of_pos]
    · simp [StateDB.snapshot]
    · intro rev hmem
      exact decide_eq_true (Nat.lt_of_succ_le (hids rev hmem))
  have hlen : s'.journal.entries.length - s.journal.entries.length = es.length := by
    rw [hes]
    simp [StateDB.snapshot]
  obtain ⟨t, ht, hcov⟩ := hundo s' (Covers.refl env s')
  have hkeep := StateDB.revertEntries_keeps env ht
  refine ⟨{ t with
    journal := { t.journal with entries := s.journal.entries }
    validRevisions := s.validRevisions }, ?_, ?_, hkeep.1, rfl, rfl, ?_⟩
  · simp only [StateDB.revertToSnapshot, hdrop]
    simp only [StateDB.snapshot, ne_eq, not_true_eq_false, if_false, StateDB.journalRevert, hlen]
    rw [hes, List.take_left', List.drop_left', ht]
    · rfl
    · rfl
    · rfl
  · have hcov' := hcov.trans (snapshot_covers s)
    exact { hcov' with }
  · rw [hkeep.2]
    have := h.nextRevision
    simp only [StateDB.snapshot] at this
    omega

theorem Sound.of_rollback {s : StateDB M} (hinv : Inv env s) (hcov : Covers env t s)
    (hentries : t.journal.entries = s.journal.entries) (hrevs : t.validRevisions = s.validRevisions)
    (hnext : s.nextRevisionID ≤ t.nextRevisionID) : Sound env s t :=
  ⟨⟨hcov.ctx, hnext, ⟨[], hrevs, by simp⟩,
      ⟨[], hentries, fun u hu => ⟨u, rfl, hu.trans hcov⟩⟩⟩,
    hinv.of_covers hcov, .of_covers hcov⟩

end Haqq.Evm
