import Haqq.Evm.StateDB

/-!
# Stateful precompiles

`precompiles/common/precompile.go`: `RunSetup` brings the cache context up to date with the StateDB
and decodes the call, `RunAtomic` runs the method and rolls the multistore back when it fails,
`HandleGasError` does the same for an out-of-gas panic.  A method is any function of the multistore.
-/

namespace Haqq.Evm

open Lib

inductive Operation
  | sub
  | add
  deriving DecidableEq, Repr

structure BalanceChangeEntry where
  account : Address
  amount : Nat
  op : Operation

structure LogEntry where
  address : Address
  topics : List Hash
  data : Bytes

/-- `gasLeft` is the answer of `contract.UseGas` to the gas the method has consumed. -/
inductive NativeResult (M : Type)
  | ok (store : Store M) (logs : List LogEntry) (entries : List BalanceChangeEntry)
      (gasLeft : Bool)
  | error (store : Store M) (logs : List LogEntry)
  | outOfGas (store : Store M) (logs : List LogEntry)
  | panic

structure Method (M : Type) where
  isTransaction : Bool
  /-- False for `fallback` and `receive`, which take no arguments. -/
  isFunction : Bool
  unpack : Bytes → Bool
  /-- The method, called with the origin of the transaction, the caller and the input. -/
  run : Address → Address → Bytes → Store M → NativeResult M

structure Precompile (M : Type) where
  address : Address
  methodById : Bytes → Option (Method M)
  receive : Option (Method M)
  fallback : Option (Method M)

structure Contract where
  caller : Address
  input : Bytes
  /-- The value sent; nil for a delegate call. -/
  value : Option Nat
  /-- Whether the gas limit covers the gas the context has already consumed. -/
  hasInitialGas : Bool

inductive PrecompileError
  | commit (err : KeeperError)
  | executionReverted
  | methodNotFound
  | writeProtection
  | unpack
  | outOfGas
  | native
  | maxCalls
  deriving DecidableEq, Repr

namespace Precompile

variable {M : Type} (env : Env) (p : Precompile M)

/-- The inner `none` is the nil dereference of a missing value. -/
def emptyCallData (contract : Contract) : Option (Except PrecompileError (Method M)) :=
  match contract.value with
  | none => none
  | some value =>
    if 0 < value ∧ p.receive.isSome then some (p.receive.elim (.error .executionReverted) .ok)
    else some (p.fallback.elim (.error .executionReverted) .ok)

def methodIDCallData : Except PrecompileError (Method M) :=
  p.fallback.elim (.error .executionReverted) .ok

def standardCallData (contract : Contract) : Except PrecompileError (Method M) :=
  match p.methodById (contract.input.take 4) with
  | some method => .ok method
  | none => p.fallback.elim (.error .methodNotFound) .ok

def selectMethod (contract : Contract) : Option (Except PrecompileError (Method M)) :=
  if contract.input.length = 0 then p.emptyCallData contract
  else if contract.input.length < 4 then some p.methodIDCallData
  else some (p.standardCallData contract)

/-- The checks between the cache commit and the gas meter. -/
def checkMethod (contract : Contract) (readOnly : Bool) (method : Method M) :
    Except PrecompileError (Method M) :=
  if readOnly && method.isTransaction then .error .writeProtection
  else if method.isFunction && !method.unpack (contract.input.drop 4) then .error .unpack
  else .ok method

/-- Commits the StateDB to the cache context before it looks at the call; only an out-of-gas panic
at the very end takes that back. -/
def runSetup (contract : Contract) (readOnly : Bool) (s : StateDB M) :
    Option (StateDB M × Except PrecompileError (Method M)) :=
  match (s.commitWithCtx env).run s.cacheStore with
  | .error err st => some ({ s with cacheCtx := some st }, .error (.commit err))
  | .ok _ st =>
    let s' := { s with cacheCtx := some st }
    (p.selectMethod contract).map fun selected =>
      match selected.bind (checkMethod contract readOnly) with
      | .error err => (s', .error err)
      | .ok method =>
        if contract.hasInitialGas then (s', .ok method)
        else (s'.revertMultiStore s.cacheStore, .error .outOfGas)

def addLogs (s : StateDB M) (logs : List LogEntry) : StateDB M :=
  logs.foldl (fun s log => s.addLog log.address log.topics log.data) s

def addBalanceEntry (s : StateDB M) (entry : BalanceChangeEntry) : StateDB M :=
  match entry.op with
  | .sub => s.subBalance env entry.account entry.amount
  | .add => s.addBalance env entry.account entry.amount

/-- The balance changes, then the multistore snapshot. -/
def addJournalEntries (entries : List BalanceChangeEntry) (cms : Store M) (s : StateDB M) :
    StateDB M × Bool :=
  (entries.foldl (addBalanceEntry env) s).addPrecompileFn env p.address cms

/-- `RunAtomic` under `HandleGasError`. -/
def runAtomic (origin : Address) (contract : Contract) (method : Method M) (cms : Store M)
    (s : StateDB M) : Option (StateDB M × Option PrecompileError) :=
  match method.run origin contract.caller contract.input s.cacheStore with
  | .panic => none
  | .outOfGas st logs =>
    some ((addLogs { s with cacheCtx := some st } logs).revertMultiStore cms, some .outOfGas)
  | .error st logs =>
    some ((addLogs { s with cacheCtx := some st } logs).revertMultiStore cms, some .native)
  | .ok st logs entries gasLeft =>
    let s' := addLogs { s with cacheCtx := some st } logs
    if gasLeft then
      match p.addJournalEntries env entries cms s' with
      | (s'', true) => some (s'', none)
      | (s'', false) => some (s''.revertMultiStore cms, some .maxCalls)
    else some (s'.revertMultiStore cms, some .outOfGas)

def run (origin : Address) (contract : Contract) (readOnly : Bool) (s : StateDB M) :
    Option (StateDB M × Option PrecompileError) :=
  match p.runSetup env contract readOnly s with
  | none => none
  | some (s', .error err) => some (s', some err)
  | some (s', .ok method) => p.runAtomic env origin contract method s.cacheStore s'

/-! ## What the setup leaves -/

section Setup

variable {env : Env} {p : Precompile M} {contract : Contract} {readOnly : Bool}
  {method method' : Method M} {s s' : StateDB M} {result : Except PrecompileError (Method M)}

theorem checkMethod_ok (h : checkMethod contract readOnly method = .ok method') :
    method = method' ∧ (readOnly && method.isTransaction) = false := by
  unfold checkMethod at h
  split at h
  · cases h
  · rename_i hlisted
    split at h
    · cases h
    · cases h
      exact ⟨rfl, by simpa using hlisted⟩

theorem elim_ok {o : Option (Method M)} {err : PrecompileError}
    (h : some (o.elim (Except.error err) .ok) = some (.ok method)) : o = some method := by
  cases o with
  | none => cases h
  | some found => simpa using h

theorem selectMethod_ok (h : p.selectMethod contract = some (.ok method)) :
    p.receive = some method ∨ p.fallback = some method ∨
      ¬ contract.input.length < 4 ∧ p.methodById (contract.input.take 4) = some method := by
  unfold selectMethod at h
  split at h
  · unfold emptyCallData at h
    split at h
    · cases h
    · split at h
      · exact .inl (elim_ok h)
      · exact .inr (.inl (elim_ok h))
  · split at h
    · exact .inr (.inl (elim_ok h))
    · rename_i hlong
      unfold standardCallData at h
      split at h
      · cases h
        exact .inr (.inr ⟨hlong, ‹_›⟩)
      · exact .inr (.inl (elim_ok h))

/-- The cache context is the old one only after the out-of-gas panic. -/
theorem runSetup_cases (h : p.runSetup env contract readOnly s = some (s', result)) :
    (∃ err st, (s.commitWithCtx env).run s.cacheStore = .error err st ∧
      s' = { s with cacheCtx := some st } ∧ result = .error (.commit err)) ∨
    ∃ st, (s.commitWithCtx env).run s.cacheStore = .ok () st ∧
      ((∃ err, s' = { s with cacheCtx := some st } ∧ result = .error err) ∨
        (contract.hasInitialGas = false ∧ s' = s.revertMultiStore s.cacheStore ∧
          result = .error .outOfGas) ∨
        ∃ method, p.selectMethod contract = some (.ok method) ∧
          (readOnly && method.isTransaction) = false ∧ contract.hasInitialGas = true ∧
            s' = { s with cacheCtx := some st } ∧ result = .ok method) := by
  unfold runSetup at h
  cases hrun : (s.commitWithCtx env).run s.cacheStore with
  | error err st =>
    rw [hrun] at h
    cases h
    exact .inl ⟨err, st, rfl, rfl, rfl⟩
  | ok u st =>
    simp only [hrun, Option.map_eq_some_iff] at h
    obtain ⟨selected, hselected, h⟩ := h
    refine .inr ⟨st, rfl, ?_⟩
    cases hcheck : selected.bind (checkMethod contract readOnly) with
    | error err =>
      rw [hcheck] at h
      cases h
      exact .inl ⟨err, rfl, rfl⟩
    | ok found =>
      simp only [hcheck] at h
      cases selected with
      | error err => cases hcheck
      | ok chosen =>
        obtain ⟨rfl, hlisted⟩ := checkMethod_ok hcheck
        split at h
        · rename_i hgas
          cases h
          exact .inr (.inr ⟨chosen, hselected, hlisted, hgas, rfl, rfl⟩)
        · rename_i hgas
          cases h
          exact .inr (.inl ⟨by simpa using hgas, rfl, rfl⟩)

end Setup

end Precompile

end Haqq.Evm
