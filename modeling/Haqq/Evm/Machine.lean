import Haqq.Evm.Precompile

/-!
# Message frames

What the interpreter of `x/evm/core/vm` does to the StateDB.  A `Prog` is the trace of one frame,
with the frames it opens nested inside; gas and the data flow are not followed, and whether a frame
ends in an error is part of the trace.  What depends on the state is decided as in the source.  The
rollback of a failed frame is a parameter; `revertTo` is that of the source.
-/

namespace Haqq.Evm

open Lib

inductive CallKind
  | call
  | callCode
  | delegateCall
  | staticCall
  deriving DecidableEq, Repr

inductive PrecompileRun (M : Type)
  | noGas
  /-- A precompile that is a pure function of its input. -/
  | stateless (fails : Bool)
  | stateful (p : Precompile M) (input : Bytes) (hasInitialGas : Bool)

inductive Op
  | sstore (key value : Hash)
  | log (topics : List Hash) (data : Bytes)
  | addRefund (gas : UInt64)
  | subRefund (gas : UInt64)
  | touchAddress (addr : Address)
  | touchSlot (addr : Address) (slot : Hash)
  | selfdestruct (beneficiary : Address)

inductive Prog (M : Type)
  | done
  | op (o : Op) (next : Prog M)
  /-- A message call; `fails` says whether the interpreter returns an error. -/
  | call (kind : CallKind) (addr : Address) (value : Nat) (body : Prog M) (fails : Bool)
      (next : Prog M)
  | precompile (kind : CallKind) (addr : Address) (value : Nat) (run : PrecompileRun M)
      (next : Prog M)
  /-- A contract creation; `ret` is the code the constructor returns, if it and the
  checks on the code succeed. -/
  | create (addr : Address) (value : Nat) (body : Prog M) (ret : Option (Option Bytes))
      (next : Prog M)

/-- From the state before the frame, the revision taken at its start and the state at its end. -/
abbrev Rollback (M : Type) := StateDB M → Nat → StateDB M → Option (StateDB M)

section

variable {M : Type} (env : Env)

def revertTo : Rollback M := fun _ revid s => s.revertToSnapshot env revid

def canTransfer (s : StateDB M) (addr : Address) (amount : Nat) : Bool :=
  decide ((amount : Int) ≤ s.getBalance env addr)

def transfer (s : StateDB M) (sender recipient : Address) (amount : Nat) : StateDB M :=
  (s.subBalance env sender amount).addBalance env recipient amount

def execOp (self : Address) (s : StateDB M) : Op → Option (StateDB M)
  | .sstore key value => some (s.setState env self key value)
  | .log topics data => some (s.addLog self topics data)
  | .addRefund gas => some (s.addRefund gas)
  | .subRefund gas => s.subRefund gas
  | .touchAddress addr => some (s.addAddressToAccessList addr)
  | .touchSlot addr slot => some (s.addSlotToAccessList addr slot)
  | .selfdestruct beneficiary =>
    some ((s.addBalance env beneficiary (s.getBalance env self)).suicide env self)

inductive Entered (M : Type)
  /-- The call failed before a snapshot was taken. -/
  | refused
  /-- The call returned at once, without an error. -/
  | returned (s : StateDB M)
  | entered (s : StateDB M) (revid : Nat)

/-- Up to the point where the code or the precompile is run. -/
def enterCall (kind : CallKind) (isPrecompile : Bool) (self addr : Address) (value : Nat)
    (s : StateDB M) : Entered M :=
  match kind with
  | .call =>
    if value ≠ 0 ∧ canTransfer env s self value = false then .refused
    else
      let (s₁, revid) := s.snapshot
      if s₁.exist env addr then .entered (transfer env s₁ self addr value) revid
      else if !isPrecompile && value = 0 then .returned s₁
      else .entered (transfer env (s₁.createAccount env addr) self addr value) revid
  | .callCode =>
    if canTransfer env s self value = false then .refused
    else .entered s.snapshot.1 s.snapshot.2
  | .delegateCall => .entered s.snapshot.1 s.snapshot.2
  | .staticCall => .entered (s.snapshot.1.addBalance env addr 0) s.snapshot.2

def context (kind : CallKind) (self addr : Address) : Address :=
  match kind with
  | .call | .staticCall => addr
  | .callCode | .delegateCall => self

def readOnlyKind : CallKind → Bool
  | .call => false
  | _ => true

def precompileValue (kind : CallKind) (value : Nat) : Option Nat :=
  match kind with
  | .call | .callCode => some value
  | .delegateCall => none
  | .staticCall => some 0

/-- The flag says whether it succeeded. -/
def runPrecompiledContract (origin self : Address) (kind : CallKind) (value : Nat)
    (run : PrecompileRun M) (s : StateDB M) : Option (StateDB M × Bool) :=
  match run with
  | .noGas => some (s, false)
  | .stateless fails => some (s, !fails)
  | .stateful p input hasInitialGas =>
    (p.run env origin ⟨self, input, precompileValue kind value, hasInitialGas⟩
      (readOnlyKind kind) s).map fun (s', err) => (s', err.isNone)

def collides (s : StateDB M) (addr : Address) : Bool :=
  s.getNonce env addr != 0 ||
    (s.getCodeHash env addr != 0 && s.getCodeHash env addr != env.emptyCodeHash)

/-- What a failing constructor does not roll back: the nonce and the access list. -/
def prepareCreate (self addr : Address) (s : StateDB M) : StateDB M :=
  (s.setNonce env self (s.getNonce env self + 1)).addAddressToAccessList addr

def enterCreate (self addr : Address) (value : Nat) (s : StateDB M) : StateDB M :=
  transfer env ((s.createAccount env addr).setNonce env addr 1) self addr value

def nonceOverflows (nonce : UInt64) : Bool := nonce + 1 < nonce

/-! ## Frames -/

section Frames

variable (rollback : Rollback M) (origin self : Address)

/-- A frame that runs the code of a contract; `fails` says how it ends. -/
def callFrame (kind : CallKind) (addr : Address) (value : Nat) (fails : Bool)
    (run : StateDB M → Option (StateDB M)) (s : StateDB M) : Option (StateDB M) :=
  match enterCall env kind false self addr value s with
  | .refused => some s
  | .returned s₁ => some s₁
  | .entered s₁ revid =>
    -- without code there is nothing to run and nothing to fail
    if (s₁.getCode env addr).getD [] = [] then some s₁
    else do
      let s₂ ← run s₁
      if fails then rollback s revid s₂ else some s₂

def precompileFrame (kind : CallKind) (addr : Address) (value : Nat) (run : PrecompileRun M)
    (s : StateDB M) : Option (StateDB M) :=
  match enterCall env kind true self addr value s with
  | .refused => some s
  | .returned s₁ => some s₁
  | .entered s₁ revid => do
    let (s₂, ok) ← runPrecompiledContract env origin self kind value run s₁
    if ok then some s₂ else rollback s revid s₂

/-- From the collision check on; `run` executes the constructor. -/
def deploy (addr : Address) (value : Nat) (ret : Option (Option Bytes))
    (run : StateDB M → Option (StateDB M)) (s : StateDB M) : Option (StateDB M) :=
  if collides env s addr then some s
  else do
    let s₂ ← run (enterCreate env self addr value s.snapshot.1)
    match ret with
    | some code => some (s₂.setCode env addr code)
    | none => rollback s s.snapshot.2 s₂

def createFrame (addr : Address) (value : Nat) (ret : Option (Option Bytes))
    (run : StateDB M → Option (StateDB M)) (s : StateDB M) : Option (StateDB M) :=
  if canTransfer env s self value = false ∨ nonceOverflows (s.getNonce env self) = true then
    some s
  else deploy env rollback self addr value ret run (prepareCreate env self addr s)

end Frames

/-- Runs the trace of a frame in the context of `self`. -/
def execWith (rollback : Rollback M) (origin : Address) :
    Address → Prog M → StateDB M → Option (StateDB M)
  | _, .done, s => some s
  | self, .op o next, s => do
    let s' ← execOp env self s o
    execWith rollback origin self next s'
  | self, .call kind addr value body fails next, s => do
    let s' ← callFrame env rollback self kind addr value fails
      (execWith rollback origin (context kind self addr) body) s
    execWith rollback origin self next s'
  | self, .precompile kind addr value run next, s => do
    let s' ← precompileFrame env rollback origin self kind addr value run s
    execWith rollback origin self next s'
  | self, .create addr value body ret next, s => do
    let s' ← createFrame env rollback self addr value ret
      (execWith rollback origin addr body) s
    execWith rollback origin self next s'

abbrev exec (origin self : Address) : Prog M → StateDB M → Option (StateDB M) :=
  execWith env (revertTo env) origin self

/-! ## Messages -/

inductive Target (M : Type)
  | call (addr : Address) (body : Prog M) (fails : Bool)
  | precompile (addr : Address) (run : PrecompileRun M)
  | create (addr : Address) (body : Prog M) (ret : Option (Option Bytes))

structure Message (M : Type) where
  sender : Address
  nonce : UInt64
  value : Nat
  target : Target M
  /-- The active precompiles and the access list of the transaction. -/
  precompiles : List Address
  accessList : List (Address × List Hash)

def Target.dst : Target M → Option Address
  | .call addr _ _ => some addr
  | .precompile addr _ => some addr
  | .create _ _ _ => none

def prepareAccessList (msg : Message M) (s : StateDB M) : StateDB M :=
  let s₁ := s.addAddressToAccessList msg.sender
  let s₂ := msg.target.dst.elim s₁ s₁.addAddressToAccessList
  let s₃ := msg.precompiles.foldl StateDB.addAddressToAccessList s₂
  msg.accessList.foldl
    (fun s el => el.2.foldl (fun s key => s.addSlotToAccessList el.1 key)
      (s.addAddressToAccessList el.1)) s₃

theorem prepareAccessList_induction {P : StateDB M → Prop}
    (haddress : ∀ s addr, P s → P (s.addAddressToAccessList addr))
    (hslot : ∀ s addr slot, P s → P (s.addSlotToAccessList addr slot)) (msg : Message M)
    {s : StateDB M} (h : P s) : P (prepareAccessList msg s) := by
  have hfold : ∀ {β : Type} (f : StateDB M → β → StateDB M), (∀ t b, P t → P (f t b)) →
      ∀ (l : List β) t, P t → P (l.foldl f t) := by
    intro β f hf l
    induction l with
    | nil => exact fun t ht => ht
    | cons b rest ih => exact fun t ht => ih (f t b) (hf t b ht)
  unfold prepareAccessList
  apply hfold _ fun t el ht => hfold _ (fun t k ht => hslot t el.1 k ht) el.2 _ (haddress t el.1 ht)
  apply hfold _ fun t a ht => haddress t a ht
  have hsender := haddress s msg.sender h
  cases msg.target.dst with
  | none => exact hsender
  | some addr => exact haddress _ addr hsender

/-- For a creation the nonce of the sender goes back to that of the message and is restored
afterwards. -/
def executeMessage (rollback : Rollback M) (msg : Message M) (s : StateDB M) :
    Option (StateDB M) :=
  match msg.target with
  | .call addr body fails =>
    callFrame env rollback msg.sender .call addr msg.value fails
      (execWith env rollback msg.sender addr body) s
  | .precompile addr run =>
    precompileFrame env rollback msg.sender msg.sender .call addr msg.value run s
  | .create addr body ret => do
    let currentNonce := s.getNonce env msg.sender
    let s' ← createFrame env rollback msg.sender addr msg.value ret
      (execWith env rollback msg.sender addr body)
      (s.setNonce env msg.sender msg.nonce)
    return s'.setNonce env msg.sender currentNonce

def applyMessageWith (rollback : Rollback M) (msg : Message M) (ctx : Store M) :
    Option (EStateM.Result KeeperError (Store M) Unit) := do
  let s ← executeMessage env rollback msg (prepareAccessList msg (.new ctx))
  return s.commit env

abbrev applyMessage (msg : Message M) (ctx : Store M) :
    Option (EStateM.Result KeeperError (Store M) Unit) :=
  applyMessageWith env (revertTo env) msg ctx

end

end Haqq.Evm
