import Haqq.Precompiles.Mirror
import Haqq.Precompiles.ReadOnly

/-!
# Coherence of the StateDB with the bank

A transaction in which contracts send aISLM and call precompiles, up to its `Commit`, which writes
the balances of the dirty accounts over those of the bank.  The books are the balances that the
transfers and the bank movements of the calls add up to, and the supply.

* `Coherent.step`: the StateDB shows the books after each step.
* `commit_coherent`: the bank has them after the commit.
-/

namespace Haqq.Precompiles

open Lib Lib.Ledger Authz Evm StateDB

/-! ## Successful calls -/

section Run

variable {M : Type} {env : Env} {p : Precompile M} {origin : Address} {contract : Contract}
  {readOnly : Bool} {method : Method M} {s s' : StateDB M}

theorem runSetup_ok (h : p.runSetup env contract readOnly s = some (s', .ok method)) :
    (s.commitWithCtx env).run s.cacheStore = .ok () (flushed env s) ∧
      s' = withCache s (flushed env s) ∧ p.selectMethod contract = some (.ok method) := by
  obtain ⟨_, _, -, -, hresult⟩ | ⟨st, hrun, hcases⟩ := Precompile.runSetup_cases h
  · cases hresult
  · have hflushed : flushed env s = st := by
      unfold flushed
      rw [hrun]
      rfl
    obtain ⟨_, -, hresult⟩ | ⟨-, -, hresult⟩ | ⟨_, hselected, -, -, hs', hresult⟩ := hcases
    · cases hresult
    · cases hresult
    · cases hresult
      exact ⟨by rw [hflushed, hrun], by rw [hflushed]; exact hs', hselected⟩

theorem run_succeeds (h : p.run env origin contract readOnly s = some (s', none)) :
    ∃ method st logs entries, p.selectMethod contract = some (.ok method) ∧
      (s.commitWithCtx env).run s.cacheStore = .ok () (flushed env s) ∧
      method.run origin contract.caller contract.input (flushed env s) = .ok st logs entries true ∧
      s'.cacheStore = st ∧ s'.ctx = (afterMethod env p logs entries s).ctx ∧
      s'.stateObjects = (afterMethod env p logs entries s).stateObjects ∧
      s'.journal.dirties = (afterMethod env p logs entries s).journal.dirties := by
  unfold Precompile.run at h
  split at h
  · cases h
  · cases h
  · rename_i s₁ method hsetup
    obtain ⟨hcommit, rfl, hselected⟩ := runSetup_ok hsetup
    unfold Precompile.runAtomic at h
    rw [withCache_cacheStore] at h
    split at h
    · cases h
    · cases h
    · cases h
    · rename_i st logs entries gasLeft hrun
      cases gasLeft with
      | false => cases h
      | true =>
        have hentries : p.addJournalEntries env entries s.cacheStore
            (Precompile.addLogs (withCache s st) logs) = _ :=
          addJournalEntries_eq p entries logs s.cacheStore st s
        simp only [if_true] at h
        split at h
        · rename_i s₂ hpair
          cases h
          have hs' := congrArg Prod.fst (hpair.symm.trans hentries)
          subst hs'
          refine ⟨method, st, logs, entries, hselected, hcommit, hrun, rfl, rfl, rfl, ?_⟩
          exact (append_aside (e := .precompileCallChange s.cacheStore) rfl).dirties
        · cases h

end Run

/-! ## The books -/

inductive TxStep
  | transfer (src dst : Address) (amount : Nat)
  | call (address caller : Address) (logs : List LogEntry) (tx : TxCall)

/-- The StateDB, the balances that the steps so far add up to, and the supply. -/
structure Books where
  db : StateDB (Modules SdkState)
  expected : Address → Int
  supply : Int

def islmSupply (st : ChainState SdkState) : Nat := st.bank.supply.get .islm

def Books.start (st : ChainState SdkState) : Books :=
  ⟨.new st, fun a => islmBalance st a, islmSupply st⟩

/-- A precompile with the one method that the call uses. -/
def txPrecompile (cfg : CallConfig) (address : Address) (logs : List LogEntry) (tx : TxCall) :
    Precompile (Modules SdkState) where
  address := address
  methodById _ := some
    { isTransaction := true
      isFunction := true
      unpack := fun _ => true
      run := fun origin caller _ st =>
        nativeResult CallError.isPanic id logs true ((tx.run cfg origin caller).run st) }
  receive := none
  fallback := none

def callBy (caller : Address) : Contract := ⟨caller, [0, 0, 0, 0], some 0, true⟩

/-- A transfer needs the balance, a call has to succeed; the origin is not a contract. -/
def Books.step (cfg : CallConfig) (origin : Address) (b : Books) : TxStep → Option Books
  | .transfer src dst amount =>
    if b.db.getBalance cfg.toEnv src < amount then none
    else some
      { b with
        db := (b.db.subBalance cfg.toEnv src amount).addBalance cfg.toEnv dst amount
        expected := b.expected - Pi.single src (amount : Int) + Pi.single dst (amount : Int) }
  | .call address caller logs tx =>
    if caller = origin then none
    else
      match (txPrecompile cfg address logs tx).run cfg.toEnv origin (callBy caller) false b.db with
      | some (db, none) =>
        let before := flushed cfg.toEnv b.db
        let after := db.cacheStore
        some
          { db := db
            expected := b.expected + fun a => (islmBalance after a : Int) - islmBalance before a
            supply := b.supply + ((islmSupply after : Int) - islmSupply before) }
      | _ => none

variable {src dst : Address} {amount : Nat} {address caller : Address} {logs : List LogEntry}
  {tx : TxCall}

section Step

variable {cfg : CallConfig} {origin : Address} {b b' : Books}

theorem step_transfer (h : b.step cfg origin (.transfer src dst amount) = some b') :
    b' = { b with
      db := (b.db.addBalance cfg.toEnv src (-amount : Int)).addBalance cfg.toEnv dst amount
      expected := b.expected + Pi.single src (-amount : Int) + Pi.single dst (amount : Int) } := by
  simp only [Books.step] at h
  split at h
  · cases h
  · cases h
    rw [subBalance_eq, Pi.single_neg, ← sub_eq_add_neg]

/-- All that a successful call of a precompile does to the books. -/
structure CallStep (cfg : CallConfig) (origin address caller : Address) (logs : List LogEntry)
    (tx : TxCall) (b b' : Books) (entries : List BalanceChangeEntry) : Prop where
  caller_ne : caller ≠ origin
  flushed : (b.db.commitWithCtx cfg.toEnv).run b.db.cacheStore = .ok () (flushed cfg.toEnv b.db)
  run : (tx.run cfg origin caller).run (Precompiles.flushed cfg.toEnv b.db) =
    .ok entries b'.db.cacheStore
  ctx : b'.db.ctx =
    (afterMethod cfg.toEnv (txPrecompile cfg address logs tx) logs entries b.db).ctx
  stateObjects : b'.db.stateObjects =
    (afterMethod cfg.toEnv (txPrecompile cfg address logs tx) logs entries b.db).stateObjects
  dirties : b'.db.journal.dirties =
    (afterMethod cfg.toEnv (txPrecompile cfg address logs tx) logs entries b.db).journal.dirties
  expected : ∀ a, b'.expected a = b.expected a +
    ((islmBalance b'.db.cacheStore a : Int) - islmBalance (Precompiles.flushed cfg.toEnv b.db) a)
  supply : b'.supply = b.supply +
    ((islmSupply b'.db.cacheStore : Int) - islmSupply (Precompiles.flushed cfg.toEnv b.db))

theorem step_call (h : b.step cfg origin (.call address caller logs tx) = some b') :
    ∃ entries, CallStep cfg origin address caller logs tx b b' entries := by
  simp only [Books.step] at h
  split at h
  · cases h
  rename_i hcaller
  split at h
  · rename_i db hrun
    cases h
    obtain ⟨method, st, logs', entries, hselected, hcommit, hmethod, rfl, hctx, hobjects,
      hdirties⟩ := run_succeeds hrun
    cases hselected
    simp only [nativeResult] at hmethod
    split at hmethod
    · rename_i result st' hresult
      cases hmethod
      exact ⟨_, hcaller, hcommit, hresult, hctx, hobjects, hdirties, fun _ => rfl, rfl⟩
    · split at hmethod <;> cases hmethod
  · cases h

end Step

/-! ## The invariant -/

/-- The StateDB has the account, or `ctx` has the balance that the cache context has. -/
def UpToDate (s : StateDB (Modules SdkState)) (a : Address) : Prop :=
  Dirty s a ∨ islmBalance s.ctx a = islmBalance s.cacheStore a

/-- The accounts that a step touches in the StateDB are up to date, and those whose aISLM it
moves without mirroring are not in the StateDB, before or after. -/
def Safe (cfg : CallConfig) (b : Books) : TxStep → Prop
  | .transfer src dst _ => UpToDate b.db src ∧ UpToDate b.db dst
  | .call address _ _ tx =>
    let s := b.db.cacheStore.modules.rest
    (∀ a ∈ insert address (tx.mirrored cfg s), UpToDate b.db a ∧ a ∉ tx.unmirrored cfg s) ∧
      ∀ a ∈ tx.unmirrored cfg s, ¬ Dirty b.db a

structure Coherent (ctx : ChainState SdkState) (b : Books) : Prop where
  ctx_eq : b.db.ctx = ctx
  tracks : Tracks b.expected b.db
  clean : ∀ a, ¬ Dirty b.db a → (islmBalance b.db.cacheStore a : Int) = b.expected a
  conserved : b.db.cacheStore.bank.Conserved
  supply : b.supply = ∑ a, b.expected a

section Coherent

variable {cfg : CallConfig} {origin : Address} {ctx st : ChainState SdkState} {b b' : Books}

theorem sum_islmBalance (h : st.bank.Conserved) :
    ∑ a, (islmBalance st a : Int) = islmSupply st := by
  unfold islmSupply islmBalance
  rw [h .islm, Nat.cast_sum]

theorem Coherent.start (h : st.bank.Conserved) : Coherent st (Books.start st) :=
  ⟨rfl, .new _ _, fun _ _ => rfl, h, (sum_islmBalance h).symm⟩

variable (hdenom : cfg.evmDenom = .islm)

include hdenom

theorem getBalance_eq_islmBalance (st : ChainState SdkState) (a : Address) :
    Evm.getBalance cfg.toEnv st a = islmBalance st a := by
  unfold Evm.getBalance islmBalance
  rw [hdenom]

theorem Coherent.current (h : Coherent ctx b) {a : Address} (ha : UpToDate b.db a) :
    Current cfg.toEnv b.expected b.db a := by
  by_cases hdirty : Dirty b.db a
  · exact .inl hdirty
  · right
    rw [getBalance_eq_islmBalance hdenom, ha.resolve_left hdirty]
    exact h.clean a hdirty

theorem Coherent.commit (h : Coherent ctx b) {u : Unit}
    (hrun : (b.db.commitWithCtx cfg.toEnv).run b.db.cacheStore = .ok u st) :
    (∀ a, (islmBalance st a : Int) = b.expected a) ∧ st.bank.Conserved := by
  refine ⟨fun a => ?_, (bankMoves_commitWithCtx _ _ _ _ hrun).conserved h.conserved⟩
  have hclean : ∀ a, ¬ Dirty b.db a →
      (Evm.getBalance cfg.toEnv b.db.cacheStore a : Int) = b.expected a := by
    intro a ha
    rw [getBalance_eq_islmBalance hdenom]
    exact h.clean a ha
  have hcommitted := h.tracks.commit hclean hrun a
  rwa [getBalance_eq_islmBalance hdenom] at hcommitted

theorem Coherent.transfer (h : Coherent ctx b) (hfunded : Funded cfg.toEnv ctx)
    (hsafe : Safe cfg b (.transfer src dst amount))
    (hstep : b.step cfg origin (.transfer src dst amount) = some b') : Coherent ctx b' := by
  obtain rfl := step_transfer hstep
  rw [← h.ctx_eq] at hfunded
  have hsrc := h.current hdenom hsafe.1
  have hdst := h.current hdenom hsafe.2
  obtain ⟨htracks, htouches, hdirty⟩ := h.tracks.addBalance hfunded hsrc (-amount : Int)
  have hdst' := hdst.addBalance h.tracks hfunded hsrc (-amount : Int)
  rw [← htouches.ctx] at hfunded
  obtain ⟨htracks', htouches', hdirty'⟩ := htracks.addBalance hfunded hdst' (amount : Int)
  have hcache : ((b.db.addBalance cfg.toEnv src (-amount : Int)).addBalance cfg.toEnv dst
      amount).cacheStore = b.db.cacheStore := by
    unfold cacheStore
    rw [htouches'.cacheCtx, htouches'.ctx, htouches.cacheCtx, htouches.ctx]
  refine ⟨(htouches'.ctx.trans htouches.ctx).trans h.ctx_eq, htracks', fun a ha => ?_, ?_, ?_⟩
  · -- an account that is not dirty is no party of the transfer, or nothing was sent
    have hold := h.clean a fun hd => ha (htouches'.dirty a (htouches.dirty a hd))
    rw [hcache, hold]
    by_cases hzero : (amount : Int) = 0
    · simp [hzero]
    · have hnesrc : a ≠ src := by
        rintro rfl
        exact ha (htouches'.dirty a (hdirty (neg_ne_zero.mpr hzero)))
      have hnedst : a ≠ dst := by
        rintro rfl
        exact ha (hdirty' hzero)
      simp [hnesrc, hnedst]
  · rw [hcache]
    exact h.conserved
  · simp [Finset.sum_add_distrib, h.supply]

theorem Coherent.call (h : Coherent ctx b) (hfunded : Funded cfg.toEnv ctx)
    (hsafe : Safe cfg b (.call address caller logs tx))
    (hstep : b.step cfg origin (.call address caller logs tx) = some b') : Coherent ctx b' := by
  obtain ⟨entries, hcall⟩ := step_call hstep
  obtain ⟨hflushed, hconserved⟩ := h.commit hdenom hcall.flushed
  have hmodules : (flushed cfg.toEnv b.db).modules = b.db.cacheStore.modules :=
    fixes_commitWithCtx_modules b.db b.db.cacheStore
  have hmirrors := TxCall.mirrors hcall.caller_ne hcall.run
  rw [hmodules] at hmirrors
  have hexpected : ∀ a, b'.expected a = islmBalance b'.db.cacheStore a := by
    intro a
    rw [hcall.expected, hflushed]
    ring
  have hconserved' : b'.db.cacheStore.bank.Conserved :=
    (TxCall.acts (Set.subset_univ _) (fun _ _ => ⟨trivial, trivial⟩) hcall.run).1.bank.conserved
      hconserved
  rw [← h.ctx_eq] at hfunded
  obtain ⟨htracks, htouches⟩ := h.tracks.afterMethod
    (p := txPrecompile cfg address logs tx) logs hfunded
    (fun entry hentry => .inr (hmirrors.accounts entry hentry)) (.inl rfl)
    (fun a ha => h.current hdenom (hsafe.1 a ha).1)
  refine ⟨hcall.ctx.trans (htouches.ctx.trans h.ctx_eq), ?_,
    fun a _ => (hexpected a).symm, hconserved',
    ?_⟩
  · refine (htracks.of_objects hcall.stateObjects hcall.dirties).congr fun a ha => ?_
    rw [Dirty, hcall.dirties] at ha
    have hmirrored : a ∉ tx.unmirrored cfg b.db.cacheStore.modules.rest := by
      rcases htouches.mem a ha with hold | hnew
      · exact fun hmem => hsafe.2 a hmem hold
      · exact (hsafe.1 a hnew).2
    rw [hexpected, hmirrors.shifts a hmirrored, hflushed, Pi.add_apply]
  · have hbefore : b.supply = islmSupply (flushed cfg.toEnv b.db) := by
      rw [h.supply, ← sum_islmBalance hconserved]
      exact Finset.sum_congr rfl fun a _ => (hflushed a).symm
    have hafter : ∑ a, b'.expected a = islmSupply b'.db.cacheStore := by
      rw [← sum_islmBalance hconserved']
      exact Finset.sum_congr rfl fun a _ => hexpected a
    rw [hcall.supply, hbefore, hafter]
    ring

theorem Coherent.step (h : Coherent ctx b) (hfunded : Funded cfg.toEnv ctx) {i : TxStep}
    (hsafe : Safe cfg b i) (hstep : b.step cfg origin i = some b') : Coherent ctx b' := by
  cases i with
  | transfer src dst amount => exact h.transfer hdenom hfunded hsafe hstep
  | call address caller logs tx => exact h.call hdenom hfunded hsafe hstep

end Coherent

/-- After a transaction whose steps are all safe, `Commit` leaves every account with what the
transfers and the bank movements add up to. -/
theorem commit_coherent (cfg : CallConfig) (hdenom : cfg.evmDenom = .islm) (origin : Address)
    (ctx : ChainState SdkState) (hfunded : Funded cfg.toEnv ctx) (hconserved : ctx.bank.Conserved)
    (steps : List TxStep) (b : Books)
    (hsafe : Run.AlongM (Books.step cfg origin) (Safe cfg) (Books.start ctx) steps)
    (hrun : steps.foldlM (Books.step cfg origin) (Books.start ctx) = some b)
    (st : ChainState SdkState) (hcommit : b.db.commit cfg.toEnv = .ok () st) :
    (∀ a, (islmBalance st a : Int) = b.expected a) ∧ (islmSupply st : Int) = b.supply := by
  have hcoherent : Coherent ctx b :=
    Run.invariantM (fun b i b' hsafe hstep h => h.step hdenom hfunded hsafe hstep)
      (.start hconserved) hsafe hrun
  obtain ⟨hbalances, hst⟩ := hcoherent.commit hdenom hcommit
  refine ⟨hbalances, ?_⟩
  rw [← sum_islmBalance hst, hcoherent.supply]
  exact Finset.sum_congr rfl fun a _ => hbalances a

/-! ## Two transactions -/

def escrowState : ChainState SdkState :=
  ({ sdkGenesis with
      accounts := fun a => if a = 3 ∨ a = 1002 then some ⟨0, 0, .eth 0⟩ else sdkGenesis.accounts a
      bank := (sdkGenesis.bank.mint 3 (Tally.single .islm 100)).mint 1002 (Tally.single .islm 50)
    }).setGrants (GrantStore.empty.put 3 2 (.transferOwnership (some ⟨.islm, 30⟩)) none)

theorem escrowState_funded : Funded callConfig.toEnv escrowState := by
  intro a ha
  have hne : a ≠ 3 ∧ a ≠ 1002 := by
    constructor
    · rintro rfl
      cases ha
    · rintro rfl
      cases ha
  have hzero : (escrowState.bank.balance a).get .islm = 0 := by
    show (((sdkGenesis.bank.mint 3 _).mint 1002 _).balance a).get .islm = 0
    rw [balance_mint, balance_mint, if_neg hne.1, if_neg hne.2]
    rfl
  exact hzero

theorem escrowState_conserved : escrowState.bank.Conserved := by
  have hgenesis : sdkGenesis.bank.Conserved := fun d => by simp [sdkGenesis, genesis]
  exact Conserved.mint (Conserved.mint hgenesis)

def commits (ctx : ChainState SdkState) (steps : List TxStep)
    (test : Books → ChainState SdkState → Bool) : Bool :=
  (steps.foldlM (Books.step callConfig 2) (Books.start ctx)).any fun b =>
    match b.db.commit callConfig.toEnv with
    | .ok _ st => test b st
    | .error _ _ => false

theorem exists_of_commits {ctx : ChainState SdkState} {steps : List TxStep}
    {test : Books → ChainState SdkState → Bool} (h : commits ctx steps test = true) :
    ∃ b st, steps.foldlM (Books.step callConfig 2) (Books.start ctx) = some b ∧
      b.db.commit callConfig.toEnv = .ok () st ∧ test b st = true := by
  obtain ⟨b, hrun, htest⟩ := (Option.any_eq_true _ _).mp h
  cases hcommit : b.db.commit callConfig.toEnv with
  | error err st => simp [hcommit] at htest
  | ok u st =>
    rw [hcommit] at htest
    exact ⟨b, st, hrun, hcommit, htest⟩

def poolSteps : List TxStep :=
  [.transfer 3 4 10, .call 0x801 3 [] (.fundCommunityPool 3 5)]

theorem poolSteps_safe :
    Run.AlongM (Books.step callConfig 2) (Safe callConfig) (Books.start escrowState) poolSteps := by
  refine ⟨⟨.inr rfl, .inr rfl⟩, fun b hb => ?_⟩
  obtain rfl := step_transfer hb
  refine ⟨⟨?_, ?_⟩, fun _ _ => trivial⟩
  · rintro a (rfl | rfl)
    · exact ⟨.inr rfl, fun hpool => absurd hpool (by decide +kernel : (0x801 : Address) ≠ 103)⟩
    · exact ⟨.inl (by decide +kernel), fun hpool =>
        absurd hpool (by decide +kernel : (3 : Address) ≠ 103)⟩
  · rintro a rfl
    decide +kernel

theorem poolSteps_commit :
    ∃ b st, poolSteps.foldlM (Books.step callConfig 2) (Books.start escrowState) = some b ∧
      b.db.commit callConfig.toEnv = .ok () st ∧ b.expected 3 = 85 ∧ b.supply = 150 ∧
      (∀ a, (islmBalance st a : Int) = b.expected a) ∧ (islmSupply st : Int) = b.supply := by
  have hcommits : commits escrowState poolSteps
      (fun b _ => decide (b.expected 3 = 85 ∧ b.supply = 150)) = true := by
    decide +kernel
  obtain ⟨b, st, hrun, hcommit, htest⟩ := exists_of_commits hcommits
  obtain ⟨hexpected, hsupply⟩ := of_decide_eq_true htest
  exact ⟨b, st, hrun, hcommit, hexpected, hsupply, commit_coherent callConfig rfl 2 escrowState
    escrowState_funded escrowState_conserved poolSteps b poolSteps_safe hrun st hcommit⟩

def escrowSteps : List TxStep :=
  [.transfer 3 1002 10, .call 0x901 3 [] (.transferOwnershipWithAmount 2 4 [.islm] [30])]

theorem commit_mints_escrow :
    Funded callConfig.toEnv escrowState ∧ escrowState.bank.Conserved ∧
      ∃ b st, escrowSteps.foldlM (Books.step callConfig 2) (Books.start escrowState) = some b ∧
        b.db.commit callConfig.toEnv = .ok () st ∧
        (b.expected 1002 = 30 ∧ islmBalance st 1002 = 60 ∧
          b.supply = 150 ∧ islmSupply st = 180) := by
  refine ⟨escrowState_funded, escrowState_conserved, ?_⟩
  have hcommits : commits escrowState escrowSteps (fun b st => decide (b.expected 1002 = 30 ∧
      islmBalance st 1002 = 60 ∧ b.supply = 150 ∧ islmSupply st = 180)) = true := by
    decide +kernel
  obtain ⟨b, st, hrun, hcommit, htest⟩ := exists_of_commits hcommits
  exact ⟨b, st, hrun, hcommit, of_decide_eq_true htest⟩

def rewardState : ChainState SdkState :=
  let bank := (sdkGenesis.bank.mint 3 (Tally.single .islm 100)).mint 104 (Tally.single .islm 10)
  ({ escrowState with bank := bank.mint 103 (Tally.single .islm 7) }).setRest
    { staking := ⟨{50}, fun a => if a = 3 then Tally.single 50 10 else 0, fun _ => 0⟩
      distribution :=
        ⟨fun a _ => if a = 3 then Tally.single .islm 7 else 0, fun _ => 0, fun _ => none⟩
      grants := GrantStore.empty.put 3 2 (.stake .delegate .any none) none }

-- The 7 aISLM that a further delegation pays out to the contract are burned.
example : commits rewardState [.call 0x800 3 [] (.delegate 3 50 20)] (fun b st =>
    decide (b.expected 3 = 87 ∧ islmBalance st 3 = 80 ∧ b.supply = 117 ∧ islmSupply st = 110)) =
      true := by
  decide +kernel

end Haqq.Precompiles
