import Haqq.Evm.Atomicity
import Haqq.Evm.CommitView
import Haqq.Lib.Movements
import Mathlib.Algebra.Group.Pi.Lemmas

/-!
# Balances that the StateDB has taken over

`Tracks e s` says that the dirty accounts are the ones with a live object and that these have the
balances `e`; if the store has `e` everywhere else, a commit leaves `e`.  An account is loaded from
`ctx`, whose balance can be older than the one in the cache context (`Current`).
-/

namespace Haqq.Evm

open Lib StateDB Function

variable {M : Type} {env : Env}

def Dirty (s : StateDB M) (a : Address) : Prop := s.journal.dirties.get a ≠ 0

instance (s : StateDB M) (a : Address) : Decidable (Dirty s a) :=
  inferInstanceAs (Decidable (_ ≠ _))

/-- The live objects are those of the dirty accounts and have the balances `e`. -/
structure Tracks (e : Address → Int) (s : StateDB M) : Prop where
  dirty : ∀ a, Dirty s a → ∃ o, s.stateObjects a = some o ∧ o.suicided = false ∧
    o.account.balance = e a
  clean : ∀ a, ¬ Dirty s a → s.stateObjects a = none

/-- The account is dirty, or its balance in `ctx` is `e a`. -/
def Current (env : Env) (e : Address → Int) (s : StateDB M) (a : Address) : Prop :=
  Dirty s a ∨ (Evm.getBalance env s.ctx a : Int) = e a

def Funded (env : Env) (st : Store M) : Prop :=
  ∀ a, st.accounts a = none → Evm.getBalance env st a = 0

structure Touches (A : Set Address) (s s' : StateDB M) : Prop where
  ctx : s'.ctx = s.ctx
  cacheCtx : s'.cacheCtx = s.cacheCtx
  dirty : ∀ a, Dirty s a → Dirty s' a
  mem : ∀ a, Dirty s' a → Dirty s a ∨ a ∈ A

variable {s s' s'' : StateDB M} {e e' : Address → Int} {a b : Address} {A A' : Set Address}

theorem Touches.refl (A : Set Address) (s : StateDB M) : Touches A s s :=
  ⟨rfl, rfl, fun _ h => h, fun _ h => .inl h⟩

theorem Touches.trans (h : Touches A s s') (h' : Touches A s' s'') : Touches A s s'' :=
  ⟨h'.ctx.trans h.ctx, h'.cacheCtx.trans h.cacheCtx, fun b hb => h'.dirty b (h.dirty b hb),
    fun b hb => (h'.mem b hb).elim (h.mem b) .inr⟩

theorem Touches.mono (h : Touches A s s') (hA : A ⊆ A') : Touches A' s s' :=
  ⟨h.ctx, h.cacheCtx, h.dirty, fun b hb => (h.mem b hb).imp_right fun hmem => hA hmem⟩

theorem Aside.touches (h : Aside s s') : Touches A s s' := by
  refine ⟨h.ctx, h.cacheCtx, fun b hb => ?_, fun b hb => .inl ?_⟩
  · rw [Dirty, h.dirties]
    exact hb
  · rw [Dirty, h.dirties] at hb
    exact hb

variable {entry : JournalEntry M}

theorem dirty_update (hdirtied : entry.dirtied = some a) (o : StateObject) :
    Dirty ((s.append entry).setStateObject a o) b ↔ Dirty s b ∨ b = a := by
  by_cases hba : b = a
  · subst hba
    simp [Dirty, Journal.dirtyCount, hdirtied]
  · rw [Dirty, setStateObject_journal, get_dirties_append (.inl hdirtied) hba]
    simp [Dirty, hba]

theorem touches_update (hdirtied : entry.dirtied = some a) (o : StateObject) :
    Touches {a} s ((s.append entry).setStateObject a o) :=
  ⟨rfl, rfl, fun _ hb => (dirty_update hdirtied o).mpr (.inl hb),
    fun _ hb => (dirty_update hdirtied o).mp hb⟩

/-! ## Tracked balances -/

theorem Tracks.new (e : Address → Int) (ctx : Store M) : Tracks e (StateDB.new ctx) :=
  ⟨fun _ h => absurd rfl h, fun _ _ => rfl⟩

theorem Tracks.congr (h : Tracks e s) (heq : ∀ a, Dirty s a → e a = e' a) : Tracks e' s := by
  refine ⟨fun a ha => ?_, h.clean⟩
  rw [← heq a ha]
  exact h.dirty a ha

theorem Tracks.of_objects (h : Tracks e s) (hobjects : s'.stateObjects = s.stateObjects)
    (hdirties : s'.journal.dirties = s.journal.dirties) : Tracks e s' := by
  refine ⟨fun a ha => ?_, fun a ha => ?_⟩
  · rw [hobjects]
    rw [Dirty, hdirties] at ha
    exact h.dirty a ha
  · rw [hobjects]
    rw [Dirty, hdirties] at ha
    exact h.clean a ha

theorem Tracks.update (h : Tracks e s) (hdirtied : entry.dirtied = some a) (o : StateObject)
    (ho : o.suicided = false) :
    Tracks (update e a o.account.balance) ((s.append entry).setStateObject a o) := by
  refine ⟨fun b hb => ?_, fun b hb => ?_⟩
  · by_cases hba : b = a
    · subst hba
      exact ⟨o, setStateObject_live_self _ _ _, ho, by simp⟩
    · rw [setStateObject_live_of_ne _ o hba, update_of_ne hba]
      exact h.dirty b (((dirty_update hdirtied o).mp hb).resolve_right hba)
  · rw [dirty_update hdirtied, not_or] at hb
    rw [setStateObject_live_of_ne _ o hb.2]
    exact h.clean b hb.1

theorem Tracks.getOrNew (h : Tracks e s) (hfunded : Funded env s.ctx) (ha : Current env e s a) :
    Tracks e (s.getOrNewStateObject env a).1 ∧ Touches {a} s (s.getOrNewStateObject env a).1 ∧
      (s.getOrNewStateObject env a).2.suicided = false ∧
      (s.getOrNewStateObject env a).2.account.balance = e a := by
  by_cases hdirty : Dirty s a
  · obtain ⟨o, ho, hsuicided, hbalance⟩ := h.dirty a hdirty
    rw [getOrNew_of_some (getStateObject_of_live env s ho)]
    exact ⟨h, .refl _ _, hsuicided, hbalance⟩
  · have hctx := ha.resolve_left hdirty
    have hlive := h.clean a hdirty
    cases hacct : s.ctx.accounts a with
    | some acct =>
      -- loaded from `ctx`, but not yet live
      have hget : s.getStateObject env a = some (newObject
          ⟨acct.sequence, Evm.getBalance env s.ctx a,
            acct.kind.codeHash.getD env.emptyCodeHash⟩) := by
        simp [getStateObject, hlive, getAccount, hacct]
      rw [getOrNew_of_some hget]
      exact ⟨h, .refl _ _, rfl, hctx⟩
    | none =>
      have hget : s.getStateObject env a = none := by
        simp [getStateObject, hlive, getAccount, hacct]
      have hzero : e a = 0 := by
        rw [← hctx, hfunded a hacct, Nat.cast_zero]
      rw [getOrNew_of_none hget, createAccount_of_none hget]
      refine ⟨(h.update rfl (newObject (newEmptyAccount env)) rfl).congr fun b _ => ?_,
        touches_update rfl _, rfl, hzero.symm⟩
      by_cases hba : b = a
      · subst hba
        rw [update_self]
        exact hzero.symm
      · rw [update_of_ne hba]

theorem Tracks.addBalance (h : Tracks e s) (hfunded : Funded env s.ctx) (ha : Current env e s a)
    (amount : Int) :
    Tracks (e + Pi.single a amount) (s.addBalance env a amount) ∧
      Touches {a} s (s.addBalance env a amount) ∧
      (amount ≠ 0 → Dirty (s.addBalance env a amount) a) := by
  obtain ⟨htracks, htouches, hsuicided, hbalance⟩ := h.getOrNew hfunded ha
  unfold StateDB.addBalance
  by_cases hzero : amount = 0
  · subst hzero
    simp only [if_true, Pi.single_zero, add_zero]
    exact ⟨htracks, htouches, fun hne => absurd rfl hne⟩
  · simp only [if_neg hzero, setObjectBalance]
    refine ⟨(htracks.update rfl _ ?_).congr fun b _ => ?_, htouches.trans (touches_update rfl _),
      fun _ => (dirty_update rfl _).mpr (.inr rfl)⟩
    · exact hsuicided
    simp only [Pi.add_apply, hbalance]
    by_cases hba : b = a
    · subst hba
      simp
    · simp [hba]

theorem Current.addBalance (hb : Current env e s b) (h : Tracks e s) (hfunded : Funded env s.ctx)
    (ha : Current env e s a) (amount : Int) :
    Current env (e + Pi.single a amount) (s.addBalance env a amount) b := by
  obtain ⟨-, htouches, hdirty⟩ := h.addBalance hfunded ha amount
  rcases hb with hb | hb
  · exact .inl (htouches.dirty b hb)
  · by_cases hba : b = a ∧ amount ≠ 0
    · obtain ⟨rfl, hne⟩ := hba
      exact .inl (hdirty hne)
    · right
      rw [htouches.ctx, hb, Pi.add_apply, Pi.single_apply]
      split
      · rename_i heq
        have hzero : amount = 0 := by
          by_contra hne
          exact hba ⟨heq, hne⟩
        rw [hzero, add_zero]
      · rw [add_zero]

/-! ## Entries of precompile calls -/

def change (entry : BalanceChangeEntry) : Address → Int :=
  Pi.single entry.account
    (match entry.op with
      | .add => entry.amount
      | .sub => -entry.amount)

def netChange (entries : List BalanceChangeEntry) : Address → Int := (entries.map change).sum

@[simp] theorem netChange_nil : netChange [] = 0 := rfl

@[simp] theorem netChange_cons (entry : BalanceChangeEntry) (entries : List BalanceChangeEntry) :
    netChange (entry :: entries) = change entry + netChange entries := rfl

theorem netChange_append (entries entries' : List BalanceChangeEntry) :
    netChange (entries ++ entries') = netChange entries + netChange entries' := by
  simp [netChange]

variable {entries : List BalanceChangeEntry}

theorem Tracks.addBalanceEntries (h : Tracks e s) (hfunded : Funded env s.ctx)
    (hA : ∀ entry ∈ entries, entry.account ∈ A) (hcurrent : ∀ a ∈ A, Current env e s a) :
    Tracks (e + netChange entries) (entries.foldl (Precompile.addBalanceEntry env) s) ∧
      Touches A s (entries.foldl (Precompile.addBalanceEntry env) s) ∧
      ∀ a ∈ A, Current env (e + netChange entries)
        (entries.foldl (Precompile.addBalanceEntry env) s) a := by
  induction entries generalizing e s with
  | nil =>
    rw [netChange_nil, add_zero]
    exact ⟨h, .refl A s, hcurrent⟩
  | cons entry rest ih =>
    have hentry := hA entry (by simp)
    rw [List.foldl_cons, netChange_cons, ← add_assoc, addBalanceEntry_eq]
    obtain ⟨htracks, htouches, -⟩ := h.addBalance hfunded (hcurrent _ hentry) (entryAmount entry)
    have hcurrent' : ∀ a ∈ A, Current env (e + change entry)
        (s.addBalance env entry.account (entryAmount entry)) a :=
      fun a ha => (hcurrent a ha).addBalance h hfunded (hcurrent _ hentry) _
    rw [← htouches.ctx] at hfunded
    obtain ⟨htracks', htouches', hcurrent''⟩ :=
      ih htracks hfunded (fun entry' hmem => hA entry' (by simp [hmem])) hcurrent'
    exact ⟨htracks', (htouches.mono (Set.singleton_subset_iff.mpr hentry)).trans htouches',
      hcurrent''⟩

theorem Tracks.afterMethod {p : Precompile M} (logs : List LogEntry) (h : Tracks e s)
    (hfunded : Funded env s.ctx) (hA : ∀ entry ∈ entries, entry.account ∈ A) (hp : p.address ∈ A)
    (hcurrent : ∀ a ∈ A, Current env e s a) :
    Tracks (e + netChange entries) (afterMethod env p logs entries s) ∧
      Touches A s (afterMethod env p logs entries s) := by
  have haside := addLogs_aside s logs
  have htouches : Touches A s (Precompile.addLogs s logs) := haside.touches
  have hcurrent' : ∀ a ∈ A, Current env e (Precompile.addLogs s logs) a := by
    intro a ha
    unfold Current
    rw [haside.ctx]
    exact (hcurrent a ha).imp_left (htouches.dirty a)
  rw [← haside.ctx] at hfunded
  obtain ⟨htracks₁, htouches₁, hcurrent₁⟩ :=
    (h.of_objects haside.stateObjects haside.dirties).addBalanceEntries hfunded hA hcurrent'
  rw [← htouches₁.ctx] at hfunded
  obtain ⟨htracks₂, htouches₂, -, -⟩ := htracks₁.getOrNew hfunded (hcurrent₁ _ hp)
  exact ⟨htracks₂, htouches.trans (htouches₁.trans
    (htouches₂.mono (Set.singleton_subset_iff.mpr hp)))⟩

/-! ## Commit -/

variable {st : Store M}

theorem Tracks.commit {u : Unit} (h : Tracks e s)
    (hclean : ∀ a, ¬ Dirty s a → (Evm.getBalance env s.cacheStore a : Int) = e a)
    (hrun : (s.commitWithCtx env).run s.cacheStore = .ok u st) (a : Address) :
    (Evm.getBalance env st a : Int) = e a := by
  by_cases hdirty : Dirty s a
  · obtain ⟨o, ho, hsuicided, hbalance⟩ := h.dirty a hdirty
    obtain ⟨st₁, st₂, -, hwritten, hafter⟩ :=
      commitLoop_written (Tally.nodup_sorted _) (mem_sortedDirties.mpr hdirty) ho hrun
    obtain ⟨-, hcommitted, -⟩ := commitObject_ok hwritten
    obtain ⟨-, hset, -⟩ := hcommitted hsuicided
    rw [hafter.balance, hset, hbalance]
  · have huntouched := commitLoop_untouched (fun hmem => hdirty (mem_sortedDirties.mp hmem)) hrun
    rw [huntouched.balance]
    exact hclean a hdirty

def BankMoves (st st' : Store M) : Prop := Ledger.Moves (fun _ => True) st.bank st'.bank

instance : IsPreorder (Store M) BankMoves where
  refl st := refl_of (Ledger.Moves _) st.bank
  trans _ _ _ h h' := trans_of (Ledger.Moves _) h h'

theorem BankMoves.conserved {st' : Store M} (h : BankMoves st st') (hst : st.bank.Conserved) :
    st'.bank.Conserved :=
  Ledger.Moves.conserved h hst

theorem bankMoves_modify {f : Store M → Store M} (h : ∀ st, (f st).bank = st.bank) :
    Relates BankMoves (modify f : KeeperM M PUnit) :=
  .modify fun st => by
    unfold BankMoves
    rw [h]
    exact refl_of (Ledger.Moves _) st.bank

theorem bankMoves_liftBank {err : KeeperError} {f : Store M → Option (Ledger Address Denom)}
    (h : ∀ st bank, f st = some bank → ∃ m, Ledger.Step m st.bank bank) :
    Relates BankMoves (liftBank err f) := by
  intro st u st' hrun
  obtain ⟨bank, hbank, rfl⟩ := Bank.run_liftBank_ok.mp hrun
  obtain ⟨m, hstep⟩ := h st bank hbank
  exact .single trivial hstep

theorem bankMoves_setBalance (a : Address) (amount : Int) :
    Relates BankMoves (setBalance env a amount : KeeperM M Unit) := by
  refine .bind .get fun st => ?_
  dsimp only
  split
  · refine .bind (.modify fun st => .single trivial (.mint _ _ _)) fun _ => ?_
    unfold sendCoinsFromModuleToAccount
    split
    · exact .throw _
    · exact bankMoves_liftBank fun _ _ hsend => ⟨_, .send hsend⟩
  · split
    · exact .bind (bankMoves_liftBank fun _ _ hsend => ⟨_, .send hsend⟩) fun _ =>
        bankMoves_liftBank fun _ _ hburn => ⟨_, .burn hburn⟩
    · exact .pure _

theorem bankMoves_commitObject (a : Address) (o : StateObject) :
    Relates BankMoves (commitObject env a o : KeeperM M Unit) := by
  cases hsuicided : o.suicided with
  | true =>
    simp only [commitObject, hsuicided, if_true]
    refine .bind .get fun st => ?_
    split
    · exact .pure _
    · split
      · exact .throw _
      · exact .bind (bankMoves_setBalance a 0) fun _ => bankMoves_modify fun _ => rfl
  | false =>
    rw [commitObject_eq hsuicided]
    exact .bind (bankMoves_modify fun st => (writeCode_fields o st).2.2.1) fun _ =>
      .bind (bankMoves_setBalance a _) fun _ => bankMoves_modify fun _ => rfl

theorem bankMoves_commitWithCtx (s : StateDB M) : Relates BankMoves (s.commitWithCtx env) := by
  refine .forM fun a _ => ?_
  unfold commitAddress
  split
  · exact bankMoves_commitObject a _
  · exact .throw _

end Haqq.Evm
