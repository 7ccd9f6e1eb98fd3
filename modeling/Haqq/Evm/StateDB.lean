import Haqq.Evm.AccessList

/-!
# The StateDB and its journal

`x/evm/statedb`.  Live state objects shadow the accounts of the transaction's context `ctx`; every
change appends an entry to the journal that can undo it; a precompile call works on a cache context
whose multistore is saved in the journal as a whole.  Memoised reads of `ctx` have no state here.  A
Go panic is `none`.
-/

namespace Haqq.Evm

open Lib

structure StateObject where
  account : Account
  /-- The code, once set or loaded; `none` is Go's nil slice. -/
  code : Option Bytes
  dirtyStorage : FinMap Hash Hash
  dirtyCode : Bool
  suicided : Bool

structure Log where
  address : Address
  topics : List Hash
  data : Bytes
  index : Nat

/-- What it takes to undo one change. -/
inductive JournalEntry (M : Type)
  | createObjectChange (account : Address)
  | resetObjectChange (account : Address) (prev : StateObject)
  | suicideChange (account : Address) (prev : Bool) (prevbalance : Int)
  | balanceChange (account : Address) (prev : Int)
  | nonceChange (account : Address) (prev : UInt64)
  | storageChange (account : Address) (key prevalue : Hash)
  | codeChange (account : Address) (prevcode : Option Bytes) (prevhash : Hash)
  | refundChange (prev : UInt64)
  | addLogChange
  | accessListAddAccountChange (address : Address)
  | accessListAddSlotChange (address : Address) (slot : Hash)
  | precompileCallChange (multiStore : Store M)

/-- The account that `Commit` has to write because of the entry. -/
def JournalEntry.dirtied {M : Type} : JournalEntry M → Option Address
  | createObjectChange account => some account
  | resetObjectChange _ _ => none
  | suicideChange account _ _ => some account
  | balanceChange account _ => some account
  | nonceChange account _ => some account
  | storageChange account _ _ => some account
  | codeChange account _ _ => some account
  | refundChange _ => none
  | addLogChange => none
  | accessListAddAccountChange _ => none
  | accessListAddSlotChange _ _ => none
  | precompileCallChange _ => none

/-- `entries` has the newest entry first. -/
structure Journal (M : Type) where
  entries : List (JournalEntry M)
  /-- The dirty accounts and the number of changes of each. -/
  dirties : Tally Address

structure Revision where
  id : Nat
  journalIndex : Nat

/-- The state of one transaction: accounts that were loaded or changed are objects, others are read
from `ctx`. -/
structure StateDB (M : Type) where
  ctx : Store M
  /-- The multistore of the cache context, once a precompile call has created it. -/
  cacheCtx : Option (Store M)
  journal : Journal M
  /-- The snapshots that can be reverted to, the newest first. -/
  validRevisions : List Revision
  nextRevisionID : Nat
  stateObjects : Address → Option StateObject
  refund : UInt64
  logs : List Log
  accessList : AccessList
  precompileCallsCounter : UInt8

def maxPrecompileCalls : UInt8 := 7

def newObject (account : Account) : StateObject := ⟨account, none, ∅, false, false⟩

namespace Journal

variable {M : Type}

def dirtyCount (entry : JournalEntry M) : Tally Address :=
  match entry.dirtied with
  | some addr => Tally.single addr 1
  | none => 0

def append (j : Journal M) (entry : JournalEntry M) : Journal M :=
  ⟨entry :: j.entries, j.dirties + dirtyCount entry⟩

def sortedDirties (j : Journal M) : List Address := Tally.sorted j.dirties.support

end Journal

namespace StateDB

variable {M : Type} (env : Env) (s : StateDB M)

def new (ctx : Store M) : StateDB M :=
  { ctx := ctx
    cacheCtx := none
    journal := ⟨[], 0⟩
    validRevisions := []
    nextRevisionID := 0
    stateObjects := fun _ => none
    refund := 0
    logs := []
    accessList := .newAccessList
    precompileCallsCounter := 0 }

/-- The multistore of the cache context; before the first precompile call a cache over
`ctx` reads as `ctx`. -/
def cacheStore : Store M := s.cacheCtx.getD s.ctx

/-! ## Reads -/

def getStateObject (addr : Address) : Option StateObject :=
  match s.stateObjects addr with
  | some obj => some obj
  | none => (getAccount env s.ctx addr).map newObject

def objectCode (obj : StateObject) : Option Bytes :=
  match obj.code with
  | some code => some code
  | none =>
    if obj.account.codeHash = env.emptyCodeHash then none
    else Evm.getCode s.ctx obj.account.codeHash

def objectState (addr : Address) (obj : StateObject) (key : Hash) : Hash :=
  (obj.dirtyStorage.get key).getD (Evm.getState s.ctx addr key)

def exist (addr : Address) : Bool := (s.getStateObject env addr).isSome

def getBalance (addr : Address) : Int :=
  match s.getStateObject env addr with
  | some obj => obj.account.balance
  | none => 0

def getNonce (addr : Address) : UInt64 :=
  match s.getStateObject env addr with
  | some obj => obj.account.nonce
  | none => 0

def getCode (addr : Address) : Option Bytes :=
  (s.getStateObject env addr).bind (s.objectCode env)

def getCodeHash (addr : Address) : Hash :=
  match s.getStateObject env addr with
  | some obj => obj.account.codeHash
  | none => 0

def getState (addr : Address) (key : Hash) : Hash :=
  match s.getStateObject env addr with
  | some obj => s.objectState addr obj key
  | none => 0

def getCommittedState (addr : Address) (key : Hash) : Hash :=
  match s.getStateObject env addr with
  | some _ => Evm.getState s.ctx addr key
  | none => 0

def hasSuicided (addr : Address) : Bool :=
  match s.getStateObject env addr with
  | some obj => obj.suicided
  | none => false

def addressInAccessList (addr : Address) : Bool := s.accessList.containsAddress addr

def slotInAccessList (addr : Address) (slot : Hash) : Bool × Bool :=
  s.accessList.contains addr slot

/-! ## Journalled writes -/

def append (entry : JournalEntry M) : StateDB M :=
  { s with journal := s.journal.append entry }

def setStateObject (addr : Address) (obj : StateObject) : StateDB M :=
  { s with stateObjects := Function.update s.stateObjects addr (some obj) }

/-- Also returns the object it overwrites if there is one. -/
def createObject (addr : Address) : StateDB M × StateObject × Option StateObject :=
  let newobj := newObject (newEmptyAccount env)
  match s.getStateObject env addr with
  | none => ((s.append (.createObjectChange addr)).setStateObject addr newobj, newobj, none)
  | some prev =>
    ((s.append (.resetObjectChange addr prev)).setStateObject addr newobj, newobj, some prev)

def getOrNewStateObject (addr : Address) : StateDB M × StateObject :=
  match s.getStateObject env addr with
  | some obj => (s, obj)
  | none =>
    let (s', obj, _) := s.createObject env addr
    (s', obj)

/-- The balance of an existing account is carried over. -/
def createAccount (addr : Address) : StateDB M :=
  match s.createObject env addr with
  | (s', _, none) => s'
  | (s', newobj, some prev) =>
    s'.setStateObject addr
      { newobj with account := { newobj.account with balance := prev.account.balance } }

def setObjectBalance (addr : Address) (obj : StateObject) (amount : Int) : StateDB M :=
  (s.append (.balanceChange addr obj.account.balance)).setStateObject addr
    { obj with account := { obj.account with balance := amount } }

def addBalance (addr : Address) (amount : Int) : StateDB M :=
  let (s', obj) := s.getOrNewStateObject env addr
  if amount = 0 then s' else s'.setObjectBalance addr obj (obj.account.balance + amount)

def subBalance (addr : Address) (amount : Int) : StateDB M :=
  let (s', obj) := s.getOrNewStateObject env addr
  if amount = 0 then s' else s'.setObjectBalance addr obj (obj.account.balance - amount)

def setNonce (addr : Address) (nonce : UInt64) : StateDB M :=
  let (s', obj) := s.getOrNewStateObject env addr
  (s'.append (.nonceChange addr obj.account.nonce)).setStateObject addr
    { obj with account := { obj.account with nonce := nonce } }

def setCode (addr : Address) (code : Option Bytes) : StateDB M :=
  let (s', obj) := s.getOrNewStateObject env addr
  (s'.append (.codeChange addr (s'.objectCode env obj) obj.account.codeHash)).setStateObject addr
    { obj with
      account := { obj.account with codeHash := env.keccak256 (code.getD []) }
      code := code
      dirtyCode := true }

def setState (addr : Address) (key value : Hash) : StateDB M :=
  let (s', obj) := s.getOrNewStateObject env addr
  let prev := s'.objectState addr obj key
  -- a write of the current value is not journalled
  if prev = value then s'
  else (s'.append (.storageChange addr key prev)).setStateObject addr
    { obj with dirtyStorage := obj.dirtyStorage.set key value }

def suicide (addr : Address) : StateDB M :=
  match s.getStateObject env addr with
  | none => s
  | some obj =>
    (s.append (.suicideChange addr obj.suicided obj.account.balance)).setStateObject addr
      { obj with account := { obj.account with balance := 0 }, suicided := true }

def addLog (address : Address) (topics : List Hash) (data : Bytes) : StateDB M :=
  { s.append .addLogChange with logs := s.logs ++ [⟨address, topics, data, s.logs.length⟩] }

def addRefund (gas : UInt64) : StateDB M :=
  { s.append (.refundChange s.refund) with refund := s.refund + gas }

def subRefund (gas : UInt64) : Option (StateDB M) :=
  if s.refund < gas then none
  else some { s.append (.refundChange s.refund) with refund := s.refund - gas }

def addAddressToAccessList (addr : Address) : StateDB M :=
  match s.accessList.addAddress addr with
  | (_, false) => s
  | (al, true) => { s.append (.accessListAddAccountChange addr) with accessList := al }

def addSlotToAccessList (addr : Address) (slot : Hash) : StateDB M :=
  match s.accessList.addSlot addr slot with
  | (al, addrMod, slotMod) =>
    let s₁ := if addrMod then s.append (.accessListAddAccountChange addr) else s
    let s₂ := if slotMod then s₁.append (.accessListAddSlotChange addr slot) else s₁
    { s₂ with accessList := al }

/-! ## Undoing -/

def revertMultiStore (cms : Store M) : StateDB M := { s with cacheCtx := some cms }

/-- Without an object this is the nil dereference of the source. -/
def modifyObject (addr : Address) (f : StateObject → StateObject) : Option (StateDB M) :=
  (s.getStateObject env addr).map fun obj => s.setStateObject addr (f obj)

/-- `none` is a panic. -/
def revertEntry : JournalEntry M → Option (StateDB M)
  | .createObjectChange account =>
    some { s with stateObjects := Function.update s.stateObjects account none }
  | .resetObjectChange account prev => some (s.setStateObject account prev)
  | .suicideChange account prev prevbalance =>
    match s.getStateObject env account with
    | none => some s
    | some obj => some (s.setStateObject account
        { obj with account := { obj.account with balance := prevbalance }, suicided := prev })
  | .balanceChange account prev => s.modifyObject env account fun obj =>
      { obj with account := { obj.account with balance := prev } }
  | .nonceChange account prev => s.modifyObject env account fun obj =>
      { obj with account := { obj.account with nonce := prev } }
  | .storageChange account key prevalue => s.modifyObject env account fun obj =>
      { obj with dirtyStorage := obj.dirtyStorage.set key prevalue }
  | .codeChange account prevcode prevhash => s.modifyObject env account fun obj =>
      { obj with
        account := { obj.account with codeHash := prevhash }
        code := prevcode
        dirtyCode := true }
  | .refundChange prev => some { s with refund := prev }
  | .addLogChange => some { s with logs := s.logs.dropLast }
  | .accessListAddAccountChange address =>
    some { s with accessList := s.accessList.deleteAddress address }
  | .accessListAddSlotChange address slot =>
    (s.accessList.deleteSlot address slot).map fun al => { s with accessList := al }
  | .precompileCallChange multiStore => some (s.revertMultiStore multiStore)

def undirty (entry : JournalEntry M) : StateDB M :=
  { s with journal :=
      { s.journal with dirties := s.journal.dirties - Journal.dirtyCount entry } }

def revertEntries : List (JournalEntry M) → StateDB M → Option (StateDB M)
  | [], s => some s
  | entry :: rest, s => do
    let s' ← s.revertEntry env entry
    revertEntries rest (s'.undirty entry)

def journalRevert (snapshot : Nat) : Option (StateDB M) := do
  let n := s.journal.entries.length - snapshot
  let s' ← revertEntries env (s.journal.entries.take n) s
  return { s' with journal := { s'.journal with entries := s.journal.entries.drop n } }

def snapshot : StateDB M × Nat :=
  ({ s with
      nextRevisionID := s.nextRevisionID + 1
      validRevisions := ⟨s.nextRevisionID, s.journal.entries.length⟩ :: s.validRevisions },
    s.nextRevisionID)

def revertToSnapshot (revid : Nat) : Option (StateDB M) :=
  match s.validRevisions.dropWhile fun rev => revid < rev.id with
  | [] => none
  | rev :: older =>
    if rev.id ≠ revid then none
    else do
      let s' ← s.journalRevert env rev.journalIndex
      return { s' with validRevisions := older }

def commitCode (obj : StateObject) : KeeperM M Unit :=
  match obj.code, obj.dirtyCode with
  | some code, true => modify (Evm.setCode obj.account.codeHash code)
  | _, _ => pure ()

def commitObject (addr : Address) (obj : StateObject) : KeeperM M Unit := do
  if obj.suicided then
    deleteAccount env addr
  else
    commitCode obj
    setAccount env addr obj.account
    modify (obj.dirtyStorage.foldSorted fun st key value => Evm.setState addr key value st)

def commitAddress (addr : Address) : KeeperM M Unit :=
  match s.stateObjects addr with
  | some obj => commitObject env addr obj
  | none => throw .nilObject

def commitWithCtx : KeeperM M Unit := s.journal.sortedDirties.forM (s.commitAddress env)

def commit : EStateM.Result KeeperError (Store M) Unit :=
  (s.commitWithCtx env).run s.cacheStore

/-- The flag is false when the transaction has made too many calls; the entry is added all the same.
-/
def addPrecompileFn (addr : Address) (cms : Store M) : StateDB M × Bool :=
  let (s', _) := s.getOrNewStateObject env addr
  let counter := s'.precompileCallsCounter + 1
  ({ s'.append (.precompileCallChange cms) with precompileCallsCounter := counter },
    decide (counter ≤ maxPrecompileCalls))

end StateDB

end Haqq.Evm
