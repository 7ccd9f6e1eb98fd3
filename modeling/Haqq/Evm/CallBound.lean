import Haqq.Evm.CallSites
import Haqq.Evm.Lockstep

/-!
# How many precompile calls a transaction can make

Every stateful precompile that ran its method to the end goes through `AddPrecompileFn`, which fails
it beyond `MaxPrecompileCalls`.  The counter is a `uint8`, so it counts the calls modulo 256.

* `Counted` relates the counter to the calls of a program, frame by frame.
* `completedCalls_le_iff`: the limit holds exactly if fewer than 256 methods run to the end.
-/

namespace Haqq.Evm

open StateDB

variable {M : Type} (env : Env)

/-! ## The calls of an execution -/

def NativeResult.ranToEnd : NativeResult M → Bool
  | .ok _ _ _ gasLeft => gasLeft
  | _ => false

def CallSite.recorded (c : CallSite M) : Bool :=
  match c.precompile.runSetup env c.contract c.readOnly c.state with
  | some (s', .ok method) =>
    (method.run c.origin c.contract.caller c.contract.input s'.cacheStore).ranToEnd
  | _ => false

def CallSite.completes (c : CallSite M) : Bool :=
  match c.precompile.run env c.origin c.contract c.readOnly c.state with
  | some (_, none) => true
  | _ => false

section Sites

variable (origin : Address)

def callFrameSites (self : Address) (kind : CallKind) (addr : Address) (value : Nat)
    (inBody : StateDB M → List (CallSite M)) (s : StateDB M) : List (CallSite M) :=
  match enterCall env kind false self addr value s with
  | .entered s₁ _ => if (s₁.getCode env addr).getD [] = [] then [] else inBody s₁
  | _ => []

def precompileFrameSites (self : Address) (kind : CallKind) (addr : Address) (value : Nat)
    (run : PrecompileRun M) (s : StateDB M) : List (CallSite M) :=
  match enterCall env kind true self addr value s, run with
  | .entered s₁ _, .stateful p input hasInitialGas =>
    [⟨p, origin, ⟨self, input, precompileValue kind value, hasInitialGas⟩, readOnlyKind kind, s₁⟩]
  | _, _ => []

def createFrameSites (self addr : Address) (value : Nat) (inBody : StateDB M → List (CallSite M))
    (s : StateDB M) : List (CallSite M) :=
  if canTransfer env s self value = false ∨ nonceOverflows (s.getNonce env self) = true then []
  else if collides env (prepareCreate env self addr s) addr then []
  else inBody (enterCreate env self addr value (prepareCreate env self addr s).snapshot.1)

/-- In order, in frames that are rolled back as well. -/
def callSites : Address → Prog M → StateDB M → List (CallSite M)
  | _, .done, _ => []
  | self, .op o next, s => (execOp env self s o).elim [] (callSites self next)
  | self, .call kind addr value body fails next, s =>
    callFrameSites env self kind addr value (callSites (context kind self addr) body) s ++
      (callFrame env (revertTo env) self kind addr value fails
        (exec env origin (context kind self addr) body) s).elim [] (callSites self next)
  | self, .precompile kind addr value run next, s =>
    precompileFrameSites env origin self kind addr value run s ++
      (precompileFrame env (revertTo env) origin self kind addr value run s).elim []
        (callSites self next)
  | self, .create addr value body ret next, s =>
    createFrameSites env self addr value (callSites addr body) s ++
      (createFrame env (revertTo env) self addr value ret (exec env origin addr body) s).elim []
        (callSites self next)

def callSitesOf (msg : Message M) (s : StateDB M) : List (CallSite M) :=
  match msg.target with
  | .call addr body _ =>
    callFrameSites env msg.sender .call addr msg.value (callSites env msg.sender addr body) s
  | .precompile addr run =>
    precompileFrameSites env msg.sender msg.sender .call addr msg.value run s
  | .create addr body _ =>
    createFrameSites env msg.sender addr msg.value (callSites env msg.sender addr body)
      (s.setNonce env msg.sender msg.nonce)

end Sites

def recordedCalls (sites : List (CallSite M)) : Nat := sites.countP fun c => c.recorded env
def completedCalls (sites : List (CallSite M)) : Nat := sites.countP fun c => c.completes env

/-- How many of the next recorded calls complete. -/
def letThrough : UInt8 → Nat → Nat
  | _, 0 => 0
  | counter, n + 1 =>
    (if counter + 1 ≤ maxPrecompileCalls then 1 else 0) + letThrough (counter + 1) n

theorem letThrough_add (counter : UInt8) (m n : Nat) :
    letThrough counter (m + n) =
      letThrough counter m + letThrough (counter + UInt8.ofNat m) n := by
  induction m generalizing counter with
  | zero => simp [letThrough]
  | succ m ih =>
    have hcounter : counter + 1 + UInt8.ofNat m = counter + UInt8.ofNat (m + 1) := by
      rw [UInt8.ofNat_add, UInt8.add_assoc, UInt8.add_comm 1]
      rfl
    rw [Nat.add_right_comm, letThrough, letThrough, ih, hcounter, Nat.add_assoc]

theorem letThrough_le_iff (n : Nat) :
    letThrough 0 n ≤ maxPrecompileCalls.toNat ↔ n < 256 := by
  have hmono : ∀ {m n}, m ≤ n → letThrough 0 m ≤ letThrough 0 n := by
    intro m n hle
    obtain ⟨k, rfl⟩ := Nat.exists_eq_add_of_le hle
    rw [letThrough_add]
    exact Nat.le_add_right _ _
  have hbelow : letThrough 0 255 = maxPrecompileCalls.toNat := by decide +kernel
  have hwrapped : letThrough 0 256 = maxPrecompileCalls.toNat + 1 := by decide +kernel
  constructor
  · intro hle
    by_contra hn
    have := hmono (Nat.le_of_not_lt hn)
    omega
  · intro hn
    rw [← hbelow]
    exact hmono (by omega)

structure Counted (s : StateDB M) (sites : List (CallSite M)) (r : Option (StateDB M)) : Prop where
  completed : completedCalls env sites =
    letThrough s.precompileCallsCounter (recordedCalls env sites)
  counter : ∀ s', r = some s' → s'.precompileCallsCounter =
    s.precompileCallsCounter + UInt8.ofNat (recordedCalls env sites)

variable {env} {s s₁ : StateDB M} {sites : List (CallSite M)} {r r' : Option (StateDB M)}

theorem Counted.nil
    (h : ∀ s', r = some s' → s'.precompileCallsCounter = s.precompileCallsCounter) :
    Counted env s [] r :=
  ⟨rfl, fun s' hs' => by simp [recordedCalls, h s' hs']⟩

theorem Counted.keep {s' : StateDB M}
    (h : s'.precompileCallsCounter = s.precompileCallsCounter) : Counted env s [] (some s') :=
  .nil fun _ hs' => Option.some.inj hs' ▸ h

theorem Counted.startingAt (h : Counted env s₁ sites r)
    (hcounter : s₁.precompileCallsCounter = s.precompileCallsCounter) : Counted env s sites r := by
  obtain ⟨hcompleted, hresult⟩ := h
  rw [hcounter] at hcompleted hresult
  exact ⟨hcompleted, hresult⟩

theorem Counted.seq {sitesOf : StateDB M → List (CallSite M)}
    {f : StateDB M → Option (StateDB M)} (h : Counted env s sites r)
    (hrest : ∀ s', r = some s' → Counted env s' (sitesOf s') (f s')) :
    Counted env s (sites ++ r.elim [] sitesOf) (r.bind f) := by
  cases r with
  | none => exact ⟨by simpa using h.completed, by simp⟩
  | some s' =>
    have hcounter := h.counter s' rfl
    have hnext := hrest s' rfl
    have hrecorded : recordedCalls env (sites ++ sitesOf s') =
        recordedCalls env sites + recordedCalls env (sitesOf s') := List.countP_append
    refine ⟨?_, fun t ht => ?_⟩
    · rw [Option.elim_some, hrecorded, letThrough_add, ← hcounter, ← hnext.completed,
        ← h.completed]
      exact List.countP_append
    · rw [Option.elim_some, hrecorded, hnext.counter t ht, hcounter, UInt8.ofNat_add,
        UInt8.add_assoc]

theorem Counted.followedBy (h : Counted env s sites r)
    (hthen : ∀ t', r' = some t' → ∃ t, r = some t ∧
      t'.precompileCallsCounter = t.precompileCallsCounter) : Counted env s sites r' := by
  refine ⟨h.completed, fun t' ht' => ?_⟩
  obtain ⟨t, ht, hcounter⟩ := hthen t' ht'
  rw [hcounter, h.counter t ht]

/-! ### Single calls -/

variable {s' : StateDB M}

theorem revertToSnapshot_counter {revid : Nat} (h : s.revertToSnapshot env revid = some s') :
    s'.precompileCallsCounter = s.precompileCallsCounter := by
  obtain ⟨rev, older, t, -, -, ht, rfl⟩ := revertToSnapshot_eq_some env h
  exact (revertEntries_keeps env ht).1

theorem runSetup_counter {p : Precompile M} {contract : Contract} {readOnly : Bool}
    {result : Except PrecompileError (Method M)}
    (h : p.runSetup env contract readOnly s = some (s', result)) :
    s'.precompileCallsCounter = s.precompileCallsCounter := by
  obtain ⟨_, _, -, rfl, -⟩ | ⟨_, -, ⟨_, rfl, -⟩ | ⟨-, rfl, -⟩ | ⟨_, -, -, -, rfl, -⟩⟩ :=
    Precompile.runSetup_cases h
  all_goals rfl

theorem runAtomic_counter (env : Env) (p : Precompile M) (origin : Address) (contract : Contract)
    (method : Method M) (cms : Store M) (s : StateDB M) :
    let reached := (method.run origin contract.caller contract.input s.cacheStore).ranToEnd
    (∀ s' err, p.runAtomic env origin contract method cms s = some (s', err) →
      s'.precompileCallsCounter = s.precompileCallsCounter + if reached then 1 else 0) ∧
    ((∃ s', p.runAtomic env origin contract method cms s = some (s', none)) ↔
      reached = true ∧ s.precompileCallsCounter + 1 ≤ maxPrecompileCalls) := by
  unfold Precompile.runAtomic
  cases method.run origin contract.caller contract.input s.cacheStore with
  | panic => simp [NativeResult.ranToEnd]
  | outOfGas st logs =>
    simp [NativeResult.ranToEnd, revertMultiStore, (addLogs_aside _ logs).counter]
  | error st logs => simp [NativeResult.ranToEnd, revertMultiStore, (addLogs_aside _ logs).counter]
  | ok st logs entries gasLeft =>
    have hcounter : (entries.foldl (Precompile.addBalanceEntry env)
        (Precompile.addLogs { s with cacheCtx := some st } logs)).precompileCallsCounter =
          s.precompileCallsCounter :=
      ((addLogs_aside _ logs).toKept.trans (addBalanceEntries_kept env _ entries)).counter
    cases gasLeft with
    | false => simp [NativeResult.ranToEnd, revertMultiStore, (addLogs_aside _ logs).counter]
    | true =>
      simp only [Precompile.addJournalEntries, addPrecompileFn,
        (getOrNew_writes _ _ _).kept.counter,
        hcounter]
      by_cases hmax : s.precompileCallsCounter + 1 ≤ maxPrecompileCalls
      · simp [hmax, NativeResult.ranToEnd]
      · simp [hmax, NativeResult.ranToEnd, revertMultiStore]

theorem counted_singleton {c : CallSite M}
    (hcompletes : c.completes env = true ↔
      c.recorded env = true ∧ s.precompileCallsCounter + 1 ≤ maxPrecompileCalls)
    (hcounter : ∀ s', r = some s' → s'.precompileCallsCounter =
      s.precompileCallsCounter + if c.recorded env then 1 else 0) : Counted env s [c] r := by
  cases hrecorded : c.recorded env with
  | false =>
    have hfails : c.completes env = false := by simp [← Bool.not_eq_true, hcompletes, hrecorded]
    refine ⟨by simp [completedCalls, recordedCalls, hrecorded, hfails, letThrough], ?_⟩
    simpa [recordedCalls, hrecorded] using hcounter
  | true =>
    refine ⟨?_, by simpa [recordedCalls, hrecorded] using hcounter⟩
    by_cases hmax : s.precompileCallsCounter + 1 ≤ maxPrecompileCalls
    · simp [completedCalls, recordedCalls, hrecorded, hcompletes, hmax, letThrough]
    · simp [completedCalls, recordedCalls, hrecorded, hcompletes, hmax, letThrough]

theorem CallSite.completes_iff (c : CallSite M) : c.completes env = true ↔
    ∃ s', c.precompile.run env c.origin c.contract c.readOnly c.state = some (s', none) := by
  unfold CallSite.completes
  split
  · rename_i s' hrun
    simp [hrun]
  · rename_i hrun
    simpa using hrun

theorem CallSite.counted (c : CallSite M) :
    Counted env c.state [c]
      ((c.precompile.run env c.origin c.contract c.readOnly c.state).map Prod.fst) := by
  cases hsetup : c.precompile.runSetup env c.contract c.readOnly c.state with
  | none =>
    refine counted_singleton ?_ ?_ <;>
      simp [CallSite.completes, CallSite.recorded, Precompile.run, hsetup]
  | some setup =>
    obtain ⟨s₁, selected⟩ := setup
    have hs₁ := runSetup_counter hsetup
    cases selected with
    | error err =>
      refine counted_singleton ?_ ?_ <;>
        simp [CallSite.completes, CallSite.recorded, Precompile.run, hsetup, hs₁]
    | ok method =>
      have hrun : c.precompile.run env c.origin c.contract c.readOnly c.state =
          c.precompile.runAtomic env c.origin c.contract method c.state.cacheStore s₁ := by
        simp [Precompile.run, hsetup]
      obtain ⟨hcounter, hcompletes⟩ := runAtomic_counter env c.precompile c.origin c.contract
        method c.state.cacheStore s₁
      rw [hs₁] at hcounter hcompletes
      refine counted_singleton ?_ fun s' hs' => ?_
      · rw [CallSite.completes_iff, hrun, hcompletes]
        simp [CallSite.recorded, hsetup]
      · obtain ⟨⟨t, err⟩, hresult, rfl⟩ := Option.map_eq_some_iff.mp hs'
        rw [hcounter t err (hrun ▸ hresult)]
        simp [CallSite.recorded, hsetup]

/-! ### Frames -/

variable {inBody : StateDB M → List (CallSite M)} {run : StateDB M → Option (StateDB M)}

section Frames

variable {origin self addr : Address} {kind : CallKind} {value : Nat}

theorem enterCall_counter {isPrecompile : Bool} {s₁ : StateDB M}
    (h : (∃ revid, enterCall env kind isPrecompile self addr value s = .entered s₁ revid) ∨
      enterCall env kind isPrecompile self addr value s = .returned s₁) :
    s₁.precompileCallsCounter = s.precompileCallsCounter := by
  rcases h with ⟨revid, h⟩ | h
  · obtain h | h | ⟨_, h, hcases⟩ := enterCall_cases h
    · cases h
    · cases h
    · cases h
      rcases hcases with rfl | rfl | ⟨-, rfl⟩ | rfl
      · rfl
      · exact (transfer_kept _ _ _ _).counter
      · exact ((createAccount_kept _ _ _).trans (transfer_kept _ _ _ _)).counter
      · exact (addBalance_writes _ _ _).kept.counter
  · obtain h | h | ⟨_, h, -⟩ := enterCall_cases h <;> cases h
    rfl

theorem callFrame_counted (fails : Bool) (hbody : ∀ s₁, Counted env s₁ (inBody s₁) (run s₁))
    (s : StateDB M) :
    Counted env s (callFrameSites env self kind addr value inBody s)
      (callFrame env (revertTo env) self kind addr value fails run s) := by
  unfold callFrameSites callFrame
  cases hentered : enterCall env kind false self addr value s with
  | refused => exact .keep rfl
  | returned s₁ => exact .keep (enterCall_counter (.inr hentered))
  | entered s₁ revid =>
    have hs₁ : s₁.precompileCallsCounter = s.precompileCallsCounter :=
      enterCall_counter (.inl ⟨revid, hentered⟩)
    simp only
    split
    · exact .keep hs₁
    · refine ((hbody s₁).startingAt hs₁).followedBy fun t' ht' => ?_
      simp only [Option.bind_eq_bind, Option.bind_eq_some_iff] at ht'
      obtain ⟨s₂, hs₂, hfinal⟩ := ht'
      refine ⟨s₂, hs₂, ?_⟩
      cases fails with
      | false =>
        cases hfinal
        rfl
      | true => exact revertToSnapshot_counter hfinal

theorem precompileFrame_counted (run : PrecompileRun M) (s : StateDB M) :
    Counted env s (precompileFrameSites env origin self kind addr value run s)
      (precompileFrame env (revertTo env) origin self kind addr value run s) := by
  unfold precompileFrameSites precompileFrame
  cases hentered : enterCall env kind true self addr value s with
  | refused => exact .keep rfl
  | returned s₁ => exact .keep (enterCall_counter (.inr hentered))
  | entered s₁ revid =>
    have hs₁ : s₁.precompileCallsCounter = s.precompileCallsCounter :=
      enterCall_counter (.inl ⟨revid, hentered⟩)
    -- what follows the call of the precompile only rolls back
    have hafter : ∀ {s₂ t' : StateDB M} {ok : Bool},
        (if ok then some s₂ else revertTo env s revid s₂) = some t' →
        t'.precompileCallsCounter = s₂.precompileCallsCounter := by
      intro s₂ t' ok h
      cases ok with
      | true =>
        cases h
        rfl
      | false => exact revertToSnapshot_counter h
    cases run with
    | noGas => exact .nil fun t' ht' => (@hafter s₁ t' false ht').trans hs₁
    | stateless fails => exact .nil fun t' ht' => (@hafter s₁ t' (!fails) ht').trans hs₁
    | stateful p input hasInitialGas =>
      refine ((CallSite.counted _).startingAt hs₁).followedBy fun t' ht' => ?_
      simp only [runPrecompiledContract, Option.bind_eq_bind, Option.bind_eq_some_iff,
        Option.map_eq_some_iff] at ht'
      obtain ⟨_, ⟨result, hresult, rfl⟩, hfinal⟩ := ht'
      exact ⟨result.1, Option.map_eq_some_iff.mpr ⟨result, hresult, rfl⟩, hafter hfinal⟩

theorem prepareCreate_counter (s : StateDB M) :
    (prepareCreate env self addr s).precompileCallsCounter = s.precompileCallsCounter :=
  ((setNonce_writes _ _ _).kept.trans (addAddressToAccessList_aside addr).toKept).counter

theorem createFrame_counted (ret : Option (Option Bytes))
    (hbody : ∀ s₁, Counted env s₁ (inBody s₁) (run s₁)) (s : StateDB M) :
    Counted env s (createFrameSites env self addr value inBody s)
      (createFrame env (revertTo env) self addr value ret run s) := by
  unfold createFrameSites createFrame
  have hprepared : (prepareCreate env self addr s).precompileCallsCounter =
      s.precompileCallsCounter := prepareCreate_counter s
  split
  · exact .keep rfl
  · unfold deploy
    split
    · exact .keep hprepared
    · have hentered : (enterCreate env self addr value
          (prepareCreate env self addr s).snapshot.1).precompileCallsCounter =
            s.precompileCallsCounter := by
        rw [enterCreate, (transfer_kept _ _ _ _).counter, (setNonce_writes _ _ _).kept.counter,
          (createAccount_kept _ _ _).counter]
        exact hprepared
      refine ((hbody _).startingAt hentered).followedBy fun t' ht' => ?_
      simp only [Option.bind_eq_bind, Option.bind_eq_some_iff] at ht'
      obtain ⟨s₂, hs₂, hfinal⟩ := ht'
      refine ⟨s₂, hs₂, ?_⟩
      cases ret with
      | some code =>
        cases hfinal
        exact (setCode_writes _ _ _).kept.counter
      | none => exact revertToSnapshot_counter hfinal

theorem execOp_counter {o : Op} (h : execOp env self s o = some s') :
    s'.precompileCallsCounter = s.precompileCallsCounter := by
  cases o with
  | sstore key value =>
    cases h
    exact (setState_writes _ _ _ _).kept.counter
  | log topics data =>
    cases h
    rfl
  | addRefund gas =>
    cases h
    rfl
  | subRefund gas =>
    simp only [execOp, subRefund] at h
    split at h
    · cases h
    · cases h
      rfl
  | touchAddress addr =>
    cases h
    exact (addAddressToAccessList_aside addr).counter
  | touchSlot addr slot =>
    cases h
    exact (addSlotToAccessList_aside addr slot).counter
  | selfdestruct beneficiary =>
    cases h
    exact ((addBalance_writes _ _ _).kept.trans (suicide_writes _ _).kept).counter

theorem exec_counted (prog : Prog M) (self : Address) (s : StateDB M) :
    Counted env s (callSites env origin self prog s) (exec env origin self prog s) := by
  induction prog generalizing self s with
  | done => exact .keep rfl
  | op o next ih =>
    have hop : Counted env s [] (execOp env self s o) := .nil fun s' hs' => execOp_counter hs'
    exact hop.seq fun s' _ => ih self s'
  | call kind addr value body fails next ihbody ihnext =>
    exact (callFrame_counted fails (ihbody _) s).seq fun s' _ => ihnext self s'
  | precompile kind addr value run next ih =>
    exact (precompileFrame_counted run s).seq fun s' _ => ih self s'
  | create addr value body ret next ihbody ihnext =>
    exact (createFrame_counted ret (ihbody _) s).seq fun s' _ => ihnext self s'

end Frames

theorem executeMessage_counted (msg : Message M) (s : StateDB M) :
    completedCalls env (callSitesOf env msg s) =
      letThrough s.precompileCallsCounter (recordedCalls env (callSitesOf env msg s)) := by
  unfold callSitesOf
  cases msg.target with
  | call addr body fails => exact (callFrame_counted fails (exec_counted body _) s).completed
  | precompile addr run => exact (precompileFrame_counted run s).completed
  | create addr body ret =>
    exact ((createFrame_counted ret (exec_counted body _) _).startingAt
      (setNonce_writes _ _ _).kept.counter).completed

theorem prepareAccessList_counter (msg : Message M) (s : StateDB M) :
    (prepareAccessList msg s).precompileCallsCounter = s.precompileCallsCounter :=
  prepareAccessList_induction
    (P := fun t => t.precompileCallsCounter = s.precompileCallsCounter)
    (fun _ addr h => (addAddressToAccessList_aside addr).counter.trans h)
    (fun _ addr slot h => (addSlotToAccessList_aside addr slot).counter.trans h) msg rfl

/-- **Precompile calls of a transaction.**  At most `MaxPrecompileCalls` of them complete
exactly if fewer than 256 run their method to the end. -/
theorem completedCalls_le_iff (env : Env) (msg : Message M) (ctx : Store M) :
    completedCalls env (callSitesOf env msg (prepareAccessList msg (.new ctx))) ≤
        maxPrecompileCalls.toNat ↔
      recordedCalls env (callSitesOf env msg (prepareAccessList msg (.new ctx))) < 256 := by
  rw [executeMessage_counted, prepareAccessList_counter]
  exact letThrough_le_iff _

def loopStore : Store Unit where
  accounts a :=
    if a = 1 then some ⟨0, 1, .eth 1⟩
    else if a = 2 then some ⟨1, 1, .eth 2⟩
    else none
  nextAccountNumber := 2
  bank := ⟨fun _ => 0, 0⟩
  code h := if h = 2 then some [0] else none
  storage _ _ := 0
  modules := ()

def queryPrecompile : Precompile Unit where
  address := 800
  methodById _ := some ⟨false, true, fun _ => true, fun _ _ _ st => .ok st [] [] true⟩
  receive := none
  fallback := none

def queryLoop : Nat → Prog Unit
  | 0 => .done
  | n + 1 => .precompile .staticCall 800 0
    (.stateful queryPrecompile [1, 2, 3, 4] true) (queryLoop n)

def loopMessage (n : Nat) : Message Unit where
  sender := 1
  nonce := 0
  value := 0
  target := .call 2 (queryLoop n) false
  precompiles := []
  accessList := []

theorem loop256_completes_eight :
    completedCalls sampleEnv (callSitesOf sampleEnv (loopMessage 256)
      (prepareAccessList (loopMessage 256) (.new loopStore))) = 8 := by
  decide +kernel

end Haqq.Evm
