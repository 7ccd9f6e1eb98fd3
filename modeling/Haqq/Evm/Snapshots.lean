import Haqq.Evm.Writes
import Haqq.Lib.Run

/-!
# Snapshots of the StateDB

Any sequence of the operations of the StateDB, with snapshots that are reverted to in any order the
journal allows.  `SameView s t` says that `s` and `t` report the same for every account and have the
same dirty accounts.

* `Taken.run`: every snapshot that can still be reverted to is undoable.
* `revertToSnapshot_restores`: reverting restores all that was observable.
-/

namespace Haqq.Evm

open Lib StateDB Function

variable {M : Type} (env : Env)

/-- The methods of the `StateDB` that write. -/
inductive Write
  | addBalance (addr : Address) (amount : Int)
  | subBalance (addr : Address) (amount : Int)
  | setNonce (addr : Address) (nonce : UInt64)
  | setCode (addr : Address) (code : Option Bytes)
  | setState (addr : Address) (key value : Hash)
  | createAccount (addr : Address)
  | suicide (addr : Address)
  | addLog (addr : Address) (topics : List Hash) (data : Bytes)
  | addRefund (gas : UInt64)
  | subRefund (gas : UInt64)
  | addAddressToAccessList (addr : Address)
  | addSlotToAccessList (addr : Address) (slot : Hash)

def Write.exec (s : StateDB M) : Write → Option (StateDB M)
  | .addBalance addr amount => some (s.addBalance env addr amount)
  | .subBalance addr amount => some (s.subBalance env addr amount)
  | .setNonce addr nonce => some (s.setNonce env addr nonce)
  | .setCode addr code => some (s.setCode env addr code)
  | .setState addr key value => some (s.setState env addr key value)
  | .createAccount addr => some (s.createAccount env addr)
  | .suicide addr => some (s.suicide env addr)
  | .addLog addr topics data => some (s.addLog addr topics data)
  | .addRefund gas => some (s.addRefund gas)
  | .subRefund gas => s.subRefund gas
  | .addAddressToAccessList addr => some (s.addAddressToAccessList addr)
  | .addSlotToAccessList addr slot => some (s.addSlotToAccessList addr slot)

inductive Cmd
  | write (w : Write)
  | snapshot
  | revertToSnapshot (revid : Nat)

/-- `none` is a panic: a refund counter below zero, or a revision that is not valid. -/
def Cmd.exec (s : StateDB M) : Cmd → Option (StateDB M)
  | .write w => w.exec env s
  | .snapshot => some s.snapshot.1
  | .revertToSnapshot revid => s.revertToSnapshot env revid

def execAll (s : StateDB M) (cmds : List Cmd) : Option (StateDB M) :=
  cmds.foldlM (Cmd.exec env) s

/-! ## States with the same view -/

structure SameObject (ctx : Store M) (a : Address) (o q : StateObject) : Prop where
  account : o.account = q.account
  code : (StateDB.new ctx).objectCode env o = (StateDB.new ctx).objectCode env q
  suicided : o.suicided = q.suicided
  storage : ∀ k, (o.dirtyStorage.get k).getD (ctx.storage a k) =
    (q.dirtyStorage.get k).getD (ctx.storage a k)

abbrev SameView (env : Env) : StateDB M → StateDB M → Prop := View env (SameObject env)

variable {env} {s t u s' t' : StateDB M} {a : Address}

theorem SameObject.refl (ctx : Store M) (a : Address) (o : StateObject) :
    SameObject env ctx a o o :=
  ⟨rfl, rfl, rfl, fun _ => rfl⟩

variable {ctx : Store M} {o q : StateObject}

theorem SameObject.trans {r : StateObject} (h : SameObject env ctx a o q)
    (h' : SameObject env ctx a q r) : SameObject env ctx a o r :=
  ⟨h.account.trans h'.account, h.code.trans h'.code, h.suicided.trans h'.suicided,
    fun k => (h.storage k).trans (h'.storage k)⟩

theorem SameView.refl (s : StateDB M) : SameView env s s := View.refl SameObject.refl s

theorem SameView.trans (h : SameView env s t) (h' : SameView env t u) : SameView env s u :=
  View.trans (fun _ _ _ _ _ => SameObject.trans) h h'

/-! ## Undoing entries respects the view -/

theorem SameView.modifyObject (h : SameView env s t) {f : StateObject → StateObject}
    (hf : ∀ o q, SameObject env t.ctx a o q → SameObject env t.ctx a (f o) (f q))
    (ht : t.modifyObject env a f = some t') :
    ∃ s', s.modifyObject env a f = some s' ∧ SameView env s' t' := by
  obtain ⟨q, hq, rfl⟩ := t.modifyObject_eq_some env ht
  obtain ⟨o, ho, hoq⟩ := h.get_right hq
  exact ⟨s.setStateObject a (f o), by simp [StateDB.modifyObject, ho],
    (h.off a).setObject (hf o q hoq)⟩

variable {e : JournalEntry M}

theorem SameView.revertEntry (h : SameView env s t) (ht : t.revertEntry env e = some t') :
    ∃ s', s.revertEntry env e = some s' ∧ SameView env s' t' := by
  cases e with
  | createObjectChange account =>
    cases ht
    exact ⟨_, rfl, (h.off account).deleteObject SameObject.refl⟩
  | resetObjectChange account prev =>
    cases ht
    exact ⟨_, rfl, (h.off account).setObject (.refl t.ctx account prev)⟩
  | suicideChange account prev prevbalance =>
    simp only [StateDB.revertEntry] at ht ⊢
    cases hq : t.getStateObject env account with
    | none =>
      rw [hq] at ht
      cases ht
      exact ⟨s, by rw [h.get_none.mpr hq], h⟩
    | some q =>
      rw [hq] at ht
      cases ht
      obtain ⟨o, ho, hoq⟩ := h.get_right hq
      rw [ho]
      exact ⟨_, rfl, (h.off account).setObject { hoq with
        account := by simp [hoq.account]
        code := by simpa [objectCode, hoq.account] using hoq.code
        suicided := rfl }⟩
  | balanceChange account prev =>
    exact h.modifyObject (fun o q hoq => { hoq with
      account := by simp [hoq.account]
      code := by simpa [objectCode, hoq.account] using hoq.code }) ht
  | nonceChange account prev =>
    exact h.modifyObject (fun o q hoq => { hoq with
      account := by simp [hoq.account]
      code := by simpa [objectCode, hoq.account] using hoq.code }) ht
  | storageChange account key prevalue =>
    refine h.modifyObject (fun o q hoq => { hoq with storage := fun k => ?_ }) ht
    by_cases hk : k = key
    · subst hk
      simp
    · simp only [FinMap.get_set_of_ne _ _ hk]
      exact hoq.storage k
  | codeChange account prevcode prevhash =>
    exact h.modifyObject (fun o q hoq => { hoq with
      account := by simp [hoq.account]
      code := by simp [objectCode] }) ht
  | refundChange prev =>
    cases ht
    exact ⟨_, rfl, { h with refund := rfl }⟩
  | addLogChange =>
    cases ht
    exact ⟨_, rfl, { h with logs := by rw [h.logs] }⟩
  | accessListAddAccountChange address =>
    cases ht
    exact ⟨_, rfl, { h with accessList := by rw [h.accessList] }⟩
  | accessListAddSlotChange address slot =>
    simp only [StateDB.revertEntry, Option.map_eq_some_iff] at ht ⊢
    obtain ⟨al, hal, rfl⟩ := ht
    exact ⟨_, ⟨al, by rw [h.accessList, hal], rfl⟩, { h with accessList := rfl }⟩
  | precompileCallChange multiStore =>
    cases ht
    exact ⟨_, rfl, { h with cache := rfl }⟩

theorem SameView.revertEntries (h : SameView env s t) {es : List (JournalEntry M)}
    (ht : t.revertEntries env es = some t') :
    ∃ s', s.revertEntries env es = some s' ∧ SameView env s' t' := by
  induction es generalizing s t with
  | nil =>
    cases ht
    exact ⟨s, rfl, h⟩
  | cons e rest ih =>
    simp only [StateDB.revertEntries, Option.bind_eq_bind, Option.bind_eq_some_iff] at ht ⊢
    obtain ⟨t₁, ht₁, hrest⟩ := ht
    obtain ⟨s₁, hs₁, h₁⟩ := h.revertEntry ht₁
    have hundirty : SameView env (s₁.undirty e) (t₁.undirty e) :=
      { h₁ with dirties := by simp only [undirty, h₁.dirties] }
    obtain ⟨s', hs', h'⟩ := ih hundirty hrest
    exact ⟨s', ⟨s₁, hs₁, hs'⟩, h'⟩

/-! ## Every operation can be undone -/

/-- Undoing the further entries of `s'` where they were made gives back the view of `s`. -/
structure Undoable (env : Env) (s s' : StateDB M) : Prop where
  kept : Kept s s'
  undo : ∃ es u, s'.journal.entries = es ++ s.journal.entries ∧
    s'.revertEntries env es = some u ∧ SameView env u s

theorem Undoable.refl (s : StateDB M) : Undoable env s s :=
  ⟨.refl s, [], s, rfl, rfl, .refl s⟩

theorem Undoable.trans (h : Undoable env s t) (h' : Undoable env t u) : Undoable env s u := by
  obtain ⟨es, v, hes, hv, hvs⟩ := h.undo
  obtain ⟨es', v', hes', hv', hvt⟩ := h'.undo
  -- the later entries are undone first, and lead to a state with the view of `t`
  obtain ⟨w, hw, hwv⟩ := hvt.revertEntries hv
  refine ⟨h.kept.trans h'.kept, es' ++ es, w, by rw [hes', hes, List.append_assoc], ?_,
    hwv.trans hvs⟩
  rw [revertEntries_append, hv']
  exact hw

theorem Undoable.one (hkept : Kept s s') (hentries : s'.journal.entries = e :: s.journal.entries)
    (hrevert : s'.revertEntry env e = some t) (hview : SameView env (t.undirty e) s) :
    Undoable env s s' :=
  ⟨hkept, [e], t.undirty e, hentries, revertEntries_one env s' hrevert, hview⟩

variable {o' : StateObject}

theorem Undoable.update {o'' : StateObject} (hget : s.getStateObject env a = some o)
    (hrevert : ((s.append e).setStateObject a o').revertEntry env e =
      some (((s.append e).setStateObject a o').setStateObject a o''))
    (hsame : SameObject env s.ctx a o'' o) : Undoable env s ((s.append e).setStateObject a o') :=
  .one { Kept.refl s with } rfl hrevert (((SameView.refl _).off a).undo hget hsame)

variable {g : StateObject → StateObject}

theorem revertEntry_modify (hg : ∀ t : StateDB M, t.revertEntry env e = t.modifyObject env a g) :
    ((s.append e).setStateObject a o').revertEntry env e =
      some (((s.append e).setStateObject a o').setStateObject a (g o')) := by
  simp [hg, StateDB.modifyObject]

theorem createAccount_undoable (s : StateDB M) (a : Address) :
    Undoable env s (s.createAccount env a) := by
  obtain ⟨e, hentries, hundo⟩ := createAccount_undo env SameObject.refl s a
  obtain ⟨t, ht, hview⟩ := hundo _ ((SameView.refl _).off a)
  exact ⟨createAccount_kept env s a, [e], t, hentries, ht, hview⟩

theorem getOrNew_undoable (s : StateDB M) (a : Address) :
    Undoable env s (s.getOrNewStateObject env a).1 := by
  cases hget : s.getStateObject env a with
  | none =>
    rw [getOrNew_of_none hget]
    exact createAccount_undoable s a
  | some o =>
    rw [getOrNew_of_some hget]
    exact .refl s

theorem Undoable.updateOrNew {s : StateDB M}
    (hg : ∀ t : StateDB M, t.revertEntry env e = t.modifyObject env a g)
    (hsame : SameObject env s.ctx a (g o') (s.getOrNewStateObject env a).2) :
    Undoable env s (((s.getOrNewStateObject env a).1.append e).setStateObject a o') := by
  refine (getOrNew_undoable s a).trans (.update getOrNew_get (revertEntry_modify hg) ?_)
  rwa [getOrNew_ctx]

theorem addBalance_undoable (s : StateDB M) (a : Address) (amount : Int) :
    Undoable env s (s.addBalance env a amount) := by
  unfold StateDB.addBalance
  simp only
  split
  · exact getOrNew_undoable s a
  · exact .updateOrNew (fun _ => rfl) ⟨rfl, rfl, rfl, fun _ => rfl⟩

theorem setNonce_undoable (s : StateDB M) (a : Address) (nonce : UInt64) :
    Undoable env s (s.setNonce env a nonce) :=
  .updateOrNew (fun _ => rfl) ⟨rfl, rfl, rfl, fun _ => rfl⟩

theorem objectCode_loaded (env : Env) (ctx : Store M) (o : StateObject) (dirty : Bool) :
    (StateDB.new ctx).objectCode env
        { o with code := (StateDB.new ctx).objectCode env o, dirtyCode := dirty } =
      (StateDB.new ctx).objectCode env o := by
  cases hload : (StateDB.new ctx).objectCode env o with
  | some code => rfl
  | none =>
    unfold objectCode at hload ⊢
    split at hload
    · cases hload
    · exact hload

theorem setCode_undoable (s : StateDB M) (a : Address) (code : Option Bytes) :
    Undoable env s (s.setCode env a code) := by
  have hload : (s.getOrNewStateObject env a).1.objectCode env (s.getOrNewStateObject env a).2 =
      (StateDB.new s.ctx).objectCode env (s.getOrNewStateObject env a).2 := by
    simp only [objectCode, getOrNew_ctx]
    rfl
  have hcode := objectCode_loaded env s.ctx (s.getOrNewStateObject env a).2 true
  rw [← hload] at hcode
  exact .updateOrNew (fun _ => rfl) ⟨rfl, hcode.trans hload, rfl, fun _ => rfl⟩

theorem setState_undoable (s : StateDB M) (a : Address) (key value : Hash) :
    Undoable env s (s.setState env a key value) := by
  unfold StateDB.setState
  simp only
  split
  · exact getOrNew_undoable s a
  · refine .updateOrNew (fun _ => rfl) ⟨rfl, rfl, rfl, fun k => ?_⟩
    by_cases hk : k = key
    · subst hk
      simp [objectState, getOrNew_ctx, Evm.getState]
    · simp only [FinMap.get_set_of_ne _ _ hk]

theorem suicide_undoable (s : StateDB M) (a : Address) : Undoable env s (s.suicide env a) := by
  unfold StateDB.suicide
  cases hget : s.getStateObject env a with
  | none => exact .refl s
  | some o =>
    refine .update hget ?_ (.refl s.ctx a o)
    simp [StateDB.revertEntry]

theorem Recorded.undoable (h : Recorded env s s') : Undoable env s s' := by
  obtain ⟨haside, es, hes, hundo⟩ := h
  obtain ⟨t, ht, hback, hrefund, hlogs, hal⟩ := hundo s' rfl rfl rfl
  have hundone := haside.trans hback
  exact ⟨haside.toKept, es, t, hes, ht, .of_objects SameObject.refl hundone.ctx
    hundone.cacheStore hundone.dirties hundone.stateObjects hrefund hlogs hal⟩

variable {w : Write}

theorem Write.undoable (hwf : s.accessList.WellFormed) (h : w.exec env s = some s') :
    Undoable env s s' := by
  cases w with
  | subRefund gas =>
    simp only [Write.exec, StateDB.subRefund] at h
    split at h
    · cases h
    · cases h
      exact (refund_recorded s _).undoable
  | addBalance addr amount => cases h; exact addBalance_undoable s addr amount
  | subBalance addr amount =>
    cases h
    rw [subBalance_eq]
    exact addBalance_undoable s addr _
  | setNonce addr nonce => cases h; exact setNonce_undoable s addr nonce
  | setCode addr code => cases h; exact setCode_undoable s addr code
  | setState addr key value => cases h; exact setState_undoable s addr key value
  | createAccount addr => cases h; exact createAccount_undoable s addr
  | suicide addr => cases h; exact suicide_undoable s addr
  | addLog addr topics data => cases h; exact (addLog_recorded s addr topics data).undoable
  | addRefund gas => cases h; exact (refund_recorded s _).undoable
  | addAddressToAccessList addr =>
    cases h
    exact (addAddressToAccessList_recorded s addr).undoable
  | addSlotToAccessList addr slot =>
    cases h
    exact (addSlotToAccessList_recorded hwf addr slot).undoable

/-! ## The snapshots of a run -/

/-- Every valid revision leads back to the state in which it was taken. -/
structure Taken (env : Env) (P : StateDB M → Prop) (taken : Nat → StateDB M) (s : StateDB M) :
    Prop where
  inv : P s
  ids : ∀ rev ∈ s.validRevisions, rev.id < s.nextRevisionID
  sorted : s.validRevisions.Pairwise fun newer older =>
    older.id < newer.id ∧ older.journalIndex ≤ newer.journalIndex
  kept : ∀ rev ∈ s.validRevisions, P (taken rev.id) ∧
    ∃ es rest u, s.journal.entries = es ++ rest ∧ rest.length = rev.journalIndex ∧
      s.revertEntries env es = some u ∧ SameView env u (taken rev.id)

variable {rev : Revision}

section Taken

variable {P : StateDB M → Prop} {taken : Nat → StateDB M}

theorem taken_new (taken : Nat → StateDB M) (h : P (.new ctx)) : Taken env P taken (.new ctx) :=
  ⟨h, by simp [StateDB.new], by simp [StateDB.new], by simp [StateDB.new]⟩

theorem Taken.write (h : Taken env P taken s) (hundo : Undoable env s s') (hP : P s') :
    Taken env P taken s' := by
  refine ⟨hP, ?_, ?_, fun rev hrev => ?_⟩
  · rw [hundo.kept.validRevisions, hundo.kept.nextRevisionID]
    exact h.ids
  · rw [hundo.kept.validRevisions]
    exact h.sorted
  · rw [hundo.kept.validRevisions] at hrev
    obtain ⟨hrevP, es, rest, u, hes, hlen, hu, hview⟩ := h.kept rev hrev
    obtain ⟨new, v, hnew, hv, hvs⟩ := hundo.undo
    obtain ⟨w, hw, hwu⟩ := hvs.revertEntries hu
    refine ⟨hrevP, new ++ es, rest, w, by rw [hnew, hes, List.append_assoc], hlen, ?_,
      hwu.trans hview⟩
    rw [revertEntries_append, hv]
    exact hw

theorem snapshot_sameView (s : StateDB M) : SameView env s.snapshot.1 s :=
  { SameView.refl s with }

theorem Taken.snapshot (h : Taken env P taken s)
    (hP : ∀ s t, SameView env s t → P t → P s) :
    Taken env P (update taken s.nextRevisionID s) s.snapshot.1 := by
  have hold : ∀ rev ∈ s.validRevisions,
      update taken s.nextRevisionID s rev.id = taken rev.id := fun rev hrev =>
    update_of_ne (h.ids rev hrev).ne _ _
  have hlength : ∀ rev ∈ s.validRevisions, rev.journalIndex ≤ s.journal.entries.length := by
    intro rev hrev
    obtain ⟨-, es, rest, u, hes, hlen, -, -⟩ := h.kept rev hrev
    rw [hes, List.length_append]
    omega
  refine ⟨hP _ s (snapshot_sameView s) h.inv, ?_, ?_, ?_⟩
  · rintro rev (_ | ⟨_, hrev⟩)
    · exact Nat.lt_succ_self _
    · exact Nat.lt_succ_of_lt (h.ids rev hrev)
  · refine List.pairwise_cons.mpr ⟨fun rev hrev => ?_, h.sorted⟩
    exact ⟨h.ids rev hrev, hlength rev hrev⟩
  · rintro rev (_ | ⟨_, hrev⟩)
    · refine ⟨by simpa using h.inv, [], s.journal.entries, s.snapshot.1, rfl, rfl, rfl, ?_⟩
      simpa using snapshot_sameView s
    · rw [hold rev hrev]
      obtain ⟨hrevP, es, rest, u, hes, hlen, hu, hview⟩ := h.kept rev hrev
      obtain ⟨w, hw, hwu⟩ := (snapshot_sameView s).revertEntries hu
      exact ⟨hrevP, es, rest, w, hes, hlen, hw, hwu.trans hview⟩

theorem Taken.dropWhile (h : Taken env P taken s) {newer older : List Revision}
    (hrevs : s.validRevisions = newer ++ rev :: older) :
    s.validRevisions.dropWhile (fun r => rev.id < r.id) = rev :: older := by
  have hsorted := h.sorted
  rw [hrevs, List.pairwise_append] at hsorted
  rw [hrevs, List.dropWhile_append_of_pos]
  · simp
  · intro r hr
    exact decide_eq_true (hsorted.2.2 r hr rev (by simp)).1

theorem Taken.revert (h : Taken env P taken s) (hP : ∀ s t, SameView env s t → P t → P s)
    (hrev : rev ∈ s.validRevisions) :
    ∃ t, s.revertToSnapshot env rev.id = some t ∧ SameView env t (taken rev.id) ∧
      Taken env P taken t ∧ t.nextRevisionID = s.nextRevisionID := by
  obtain ⟨newer, older, hrevs⟩ := List.append_of_mem hrev
  obtain ⟨hrevP, es, rest, u, hes, hlen, hu, hview⟩ := h.kept rev hrev
  have hcount : s.journal.entries.length - rev.journalIndex = es.length := by
    rw [hes, List.length_append, hlen]
    omega
  have hkeep := revertEntries_keeps env hu
  let t : StateDB M := { u with
    journal := { u.journal with entries := rest }
    validRevisions := older }
  have htu : SameView env t u := { SameView.refl u with }
  have holder : ∀ r ∈ older, r ∈ s.validRevisions := by
    intro r hr
    rw [hrevs]
    simp [hr]
  have hsorted := h.sorted
  rw [hrevs, List.pairwise_append, List.pairwise_cons] at hsorted
  refine ⟨t, ?_, htu.trans hview, ⟨hP _ _ (htu.trans hview) hrevP, ?_, hsorted.2.1.2, ?_⟩, hkeep.2⟩
  · simp only [StateDB.revertToSnapshot, h.dropWhile hrevs, ne_eq, not_true_eq_false, if_false,
      journalRevert, hcount]
    rw [hes, List.take_left', List.drop_left', hu] <;> rfl
  · intro r hr
    show r.id < u.nextRevisionID
    rw [hkeep.2]
    exact h.ids r (holder r hr)
  · -- the entries of an older revision start with the ones that are undone now
    intro r hr
    obtain ⟨hrP, esr, restr, ur, hesr, hlenr, hur, hviewr⟩ := h.kept r (holder r hr)
    have hle : restr.length ≤ rest.length := by
      rw [hlenr, hlen]
      exact (hsorted.2.1.1 r hr).2
    obtain ⟨mid, hmid⟩ : ∃ mid, rest = mid ++ restr := by
      have hsuffix : restr <:+ rest := List.suffix_of_suffix_length_le
        ⟨esr, hesr.symm⟩ ⟨es, hes.symm⟩ hle
      obtain ⟨mid, hmid⟩ := hsuffix
      exact ⟨mid, hmid.symm⟩
    have hsplit : esr = es ++ mid := by
      have heq : esr ++ restr = (es ++ mid) ++ restr := by
        rw [← hesr, hes, hmid, List.append_assoc]
      exact List.append_cancel_right heq
    rw [hsplit, revertEntries_append, hu] at hur
    obtain ⟨w, hw, hwu⟩ := htu.revertEntries hur
    exact ⟨hrP, mid, restr, w, hmid, hlenr, hw, hwu.trans hviewr⟩

theorem Taken.run {Q : StateDB M → Cmd → Prop} (hP : ∀ s t, SameView env s t → P t → P s)
    (hwf : ∀ s, P s → s.accessList.WellFormed)
    (hwrite : ∀ s w s', Q s (.write w) → w.exec env s = some s' → P s → P s')
    {cmds : List Cmd} (h : Taken env P taken s)
    (halong : Run.AlongM (Cmd.exec env) Q s cmds) (hrun : execAll env s cmds = some s') :
    ∃ taken', Taken env P taken' s' ∧ s.nextRevisionID ≤ s'.nextRevisionID ∧
      ∀ id < s.nextRevisionID, taken' id = taken id := by
  refine Run.invariantM (I := fun t => ∃ taken', Taken env P taken' t ∧
    s.nextRevisionID ≤ t.nextRevisionID ∧ ∀ id < s.nextRevisionID, taken' id = taken id)
    (fun u cmd u' hQ hstep hu => ?_) ⟨taken, h, le_rfl, fun _ _ => rfl⟩ halong hrun
  obtain ⟨taken', htaken, hle, hsame⟩ := hu
  cases cmd with
  | write w =>
    have hundo := Write.undoable (hwf u htaken.inv) hstep
    exact ⟨taken', htaken.write hundo (hwrite u w u' hQ hstep htaken.inv),
      hle.trans hundo.kept.nextRevisionID.ge, hsame⟩
  | snapshot =>
    cases hstep
    refine ⟨_, htaken.snapshot hP, hle.trans (Nat.le_succ _), fun id hid => ?_⟩
    rw [update_of_ne (by omega)]
    exact hsame id hid
  | revertToSnapshot revid =>
    obtain ⟨rev, older, -, hsuffix, rfl, -⟩ := revertToSnapshot_eq_some env hstep
    have hrev : rev ∈ u.validRevisions := hsuffix.subset List.mem_cons_self
    obtain ⟨t, ht, -, htaken', hnext⟩ := htaken.revert hP hrev
    rw [Cmd.exec, ht] at hstep
    cases hstep
    exact ⟨taken', htaken', hnext ▸ hle, hsame⟩

end Taken

/-! ## What a revert restores -/

/-- No read tells the two apart. -/
structure SameObservables (env : Env) (s t : StateDB M) : Prop where
  balance : ∀ a, s.getBalance env a = t.getBalance env a
  nonce : ∀ a, s.getNonce env a = t.getNonce env a
  code : ∀ a, s.getCode env a = t.getCode env a
  codeHash : ∀ a, s.getCodeHash env a = t.getCodeHash env a
  state : ∀ a k, s.getState env a k = t.getState env a k
  committedState : ∀ a k, s.getCommittedState env a k = t.getCommittedState env a k
  suicided : ∀ a, s.hasSuicided env a = t.hasSuicided env a
  exist : ∀ a, s.exist env a = t.exist env a
  refund : s.refund = t.refund
  logs : s.logs = t.logs
  addresses : ∀ a, s.addressInAccessList a = t.addressInAccessList a
  slots : ∀ a slot, s.slotInAccessList a slot = t.slotInAccessList a slot
  dirty : ∀ a, a ∈ s.journal.sortedDirties ↔ a ∈ t.journal.sortedDirties

theorem SameView.observables (h : SameView env s t) : SameObservables env s t := by
  have haccount := h.account fun _ _ _ _ hoq => hoq.account
  refine ⟨fun a => ?_, fun a => ?_, fun a => ?_, fun a => ?_, fun a k => ?_, fun a k => ?_,
    fun a => ?_, fun a => ?_, h.refund, h.logs, fun a => ?_, fun a slot => ?_, fun a => ?_⟩
  · rw [getBalance_eq, getBalance_eq, haccount]
  · rw [getNonce_eq, getNonce_eq, haccount]
  · rcases h.get_cases a with ⟨hs, ht⟩ | ⟨o, q, hs, ht, hoq⟩
    · simp only [StateDB.getCode, hs, ht, Option.bind_none]
    · have hcode : s.objectCode env o = t.objectCode env q := by
        have hload := hoq.code
        unfold objectCode at hload ⊢
        rwa [h.ctx]
      simp only [StateDB.getCode, hs, ht, Option.bind_some, hcode]
  · rw [getCodeHash_eq, getCodeHash_eq, haccount]
  · rcases h.get_cases a with ⟨hs, ht⟩ | ⟨o, q, hs, ht, hoq⟩
    · simp only [StateDB.getState, hs, ht]
    · simp only [StateDB.getState, hs, ht, objectState, Evm.getState, h.ctx, hoq.storage k]
  · rcases h.get_cases a with ⟨hs, ht⟩ | ⟨o, q, hs, ht, -⟩
    · simp only [getCommittedState, hs, ht]
    · simp only [getCommittedState, hs, ht, h.ctx]
  · rcases h.get_cases a with ⟨hs, ht⟩ | ⟨o, q, hs, ht, hoq⟩
    · simp only [hasSuicided, hs, ht]
    · simp only [hasSuicided, hs, ht, hoq.suicided]
  · rw [exist_eq, exist_eq, haccount]
  · simp only [addressInAccessList, h.accessList]
  · simp only [slotInAccessList, h.accessList]
  · simp only [Journal.sortedDirties, h.dirties]

theorem Write.writes (h : w.exec env s = some s') : Writes s s' ∨ ∃ a, w = .createAccount a := by
  cases w with
  | createAccount addr => exact .inr ⟨addr, rfl⟩
  | subRefund gas =>
    simp only [Write.exec, StateDB.subRefund] at h
    split at h
    · cases h
    · cases h
      exact .inl (.aside .refl (refund_aside s _) id)
  | addBalance addr amount => cases h; exact .inl (addBalance_writes s addr amount)
  | subBalance addr amount =>
    cases h
    rw [subBalance_eq]
    exact .inl (addBalance_writes s addr _)
  | setNonce addr nonce => cases h; exact .inl (setNonce_writes s addr nonce)
  | setCode addr code => cases h; exact .inl (setCode_writes s addr code)
  | setState addr key value => cases h; exact .inl (setState_writes s addr key value)
  | suicide addr => cases h; exact .inl (suicide_writes s addr)
  | addLog addr topics data => cases h; exact .inl (.aside .refl (addLog_aside _ _ _) id)
  | addRefund gas => cases h; exact .inl (.aside .refl (refund_aside s _) id)
  | addAddressToAccessList addr =>
    cases h
    exact .inl (.aside .refl (addAddressToAccessList_aside addr) fun hwf =>
      addAddressToAccessList_wellFormed hwf addr)
  | addSlotToAccessList addr slot =>
    cases h
    exact .inl (.aside .refl (addSlotToAccessList_aside addr slot) fun hwf =>
      addSlotToAccessList_wellFormed hwf addr slot)

theorem Write.wellFormed (h : w.exec env s = some s') (hwf : s.accessList.WellFormed) :
    s'.accessList.WellFormed := by
  rcases Write.writes h with hwrites | ⟨a, rfl⟩
  · exact hwrites.wellFormed hwf
  · cases h
    cases hget : s.getStateObject env a with
    | none => exact createAccount_of_none hget ▸ hwf
    | some prev => exact createAccount_of_some hget ▸ hwf

/-- **Snapshots.** Reverting to a snapshot succeeds after any operations that do not revert past it,
and everything the StateDB reports is as it was. -/
theorem revertToSnapshot_restores (env : Env) (ctx : Store M) (before after : List Cmd)
    {s s' : StateDB M} (hbefore : execAll env (.new ctx) before = some s)
    (hafter : execAll env s.snapshot.1 after = some s')
    (hvalid : ∃ rev ∈ s'.validRevisions, rev.id = s.snapshot.2) :
    ∃ t, s'.revertToSnapshot env s.snapshot.2 = some t ∧ SameObservables env t s := by
  have hP : ∀ s t : StateDB M, SameView env s t → t.accessList.WellFormed →
      s.accessList.WellFormed := fun s t h hwf => h.accessList ▸ hwf
  have halong : ∀ (s : StateDB M) (cmds : List Cmd),
      Run.AlongM (Cmd.exec env) (fun _ _ => True) s cmds := fun s cmds =>
    Run.alongM_of_forall (P := fun _ => True) (fun _ _ => trivial) s
  have hnew : Taken env (fun t => t.accessList.WellFormed) (fun _ => .new ctx) (.new ctx) :=
    taken_new _ AccessList.wellFormed_new
  obtain ⟨taken, htaken, -, -⟩ := hnew.run hP (fun _ h => h) (fun _ _ _ _ => Write.wellFormed)
    (halong _ _) hbefore
  obtain ⟨taken', htaken', -, hsame⟩ := (htaken.snapshot hP).run hP (fun _ h => h)
    (fun _ _ _ _ => Write.wellFormed) (halong _ _) hafter
  obtain ⟨rev, hrev, hid⟩ := hvalid
  obtain ⟨t, ht, hview, -, -⟩ := htaken'.revert hP hrev
  rw [hid, hsame s.snapshot.2 (Nat.lt_succ_self _)] at hview
  refine ⟨t, hid ▸ ht, ?_⟩
  simpa [StateDB.snapshot] using hview.observables

def snapshotStore : Store Unit where
  accounts a :=
    if a = 5 then some ⟨0, 2, .eth 1⟩
    else if a = 6 then some ⟨1, 1, .eth 2⟩
    else none
  nextAccountNumber := 2
  bank := ⟨fun _ => 0, 0⟩
  code h := if h = 2 then some [0] else none
  storage a k := if a = 6 ∧ k = 1 then 9 else 0
  modules := ()

def beforeSnapshot : StateDB Unit := (StateDB.new snapshotStore).setState sampleEnv 6 1 7

def destroyContract : List Cmd :=
  [.write (.createAccount 6), .write (.addSlotToAccessList 6 1), .snapshot,
    .write (.setCode 6 (some [1, 2])), .revertToSnapshot 1, .write (.setState 6 1 4),
    .write (.addBalance 6 3), .write (.suicide 6)]

def afterSnapshot : StateDB Unit :=
  (execAll sampleEnv beforeSnapshot.snapshot.1 destroyContract).getD beforeSnapshot

theorem afterSnapshot_restored :
    afterSnapshot.hasSuicided sampleEnv 6 = true ∧
      ∃ t, afterSnapshot.revertToSnapshot sampleEnv 0 = some t ∧
        SameObservables sampleEnv t beforeSnapshot := by
  have hbefore : execAll sampleEnv (.new snapshotStore) [.write (.setState 6 1 7)] =
      some beforeSnapshot := rfl
  have hafter : execAll sampleEnv beforeSnapshot.snapshot.1 destroyContract =
      some afterSnapshot := rfl
  have hvalid : afterSnapshot.validRevisions = [⟨0, 1⟩] := rfl
  exact ⟨by decide +kernel,
    revertToSnapshot_restores sampleEnv snapshotStore _ _ hbefore hafter
      ⟨⟨0, 1⟩, by simp [hvalid], rfl⟩⟩

end Haqq.Evm
