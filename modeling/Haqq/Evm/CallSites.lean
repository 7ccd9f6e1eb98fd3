import Haqq.Evm.Machine

/-!
# The precompile calls of an execution

Conditions on an execution are conditions on the calls of stateful precompiles it makes, each
together with the StateDB it starts from.
-/

namespace Haqq.Evm

variable {M : Type} {env : Env}

structure CallSite (M : Type) where
  precompile : Precompile M
  origin : Address
  contract : Contract
  readOnly : Bool
  state : StateDB M

/-- `Q` holds of the call if the precompile is a stateful one. -/
def AtCall (Q : CallSite M → Prop) (origin self : Address) (kind : CallKind) (value : Nat)
    (run : PrecompileRun M) (s : StateDB M) : Prop :=
  match run with
  | .stateful p input hasInitialGas =>
    Q ⟨p, origin, ⟨self, input, precompileValue kind value, hasInitialGas⟩, readOnlyKind kind, s⟩
  | _ => True

section EveryCall

variable (env) (Q : CallSite M → Prop) (origin : Address)

def InCallFrame (self : Address) (kind : CallKind) (addr : Address) (value : Nat)
    (inBody : StateDB M → Prop) (s : StateDB M) : Prop :=
  ∀ s₁ revid, enterCall env kind false self addr value s = .entered s₁ revid →
    (s₁.getCode env addr).getD [] ≠ [] → inBody s₁

def InPrecompileFrame (self : Address) (kind : CallKind) (addr : Address) (value : Nat)
    (run : PrecompileRun M) (s : StateDB M) : Prop :=
  ∀ s₁ revid, enterCall env kind true self addr value s = .entered s₁ revid →
    AtCall Q origin self kind value run s₁

def InCreateFrame (self addr : Address) (value : Nat) (inBody : StateDB M → Prop)
    (s : StateDB M) : Prop :=
  canTransfer env s self value = true → nonceOverflows (s.getNonce env self) = false →
    collides env (prepareCreate env self addr s) addr = false →
    inBody (enterCreate env self addr value (prepareCreate env self addr s).snapshot.1)

/-- Of every call that the execution makes, in frames that are rolled back as well. -/
def EveryCall : Address → Prog M → StateDB M → Prop
  | _, .done, _ => True
  | self, .op o next, s => ∀ s', execOp env self s o = some s' → EveryCall self next s'
  | self, .call kind addr value body fails next, s =>
    InCallFrame env self kind addr value (EveryCall (context kind self addr) body) s ∧
    ∀ s', callFrame env (revertTo env) self kind addr value fails
      (exec env origin (context kind self addr) body) s = some s' → EveryCall self next s'
  | self, .precompile kind addr value run next, s =>
    InPrecompileFrame env Q origin self kind addr value run s ∧
    ∀ s', precompileFrame env (revertTo env) origin self kind addr value run s = some s' →
      EveryCall self next s'
  | self, .create addr value body ret next, s =>
    InCreateFrame env self addr value (EveryCall addr body) s ∧
    ∀ s', createFrame env (revertTo env) self addr value ret (exec env origin addr body) s =
      some s' → EveryCall self next s'

def EveryCallOf (msg : Message M) (s : StateDB M) : Prop :=
  match msg.target with
  | .call addr body _ =>
    InCallFrame env msg.sender .call addr msg.value (EveryCall env Q msg.sender addr body) s
  | .precompile addr run =>
    InPrecompileFrame env Q msg.sender msg.sender .call addr msg.value run s
  | .create addr body _ =>
    InCreateFrame env msg.sender addr msg.value (EveryCall env Q msg.sender addr body)
      (s.setNonce env msg.sender msg.nonce)

end EveryCall

variable {self addr : Address} {kind : CallKind} {value revid : Nat} {s s₁ : StateDB M}

theorem inCallFrame_of_entered {inBody : StateDB M → Prop}
    (h : enterCall env kind false self addr value s = .entered s₁ revid) (hbody : inBody s₁) :
    InCallFrame env self kind addr value inBody s := by
  intro s₂ revid' h' _
  rw [h] at h'
  cases h'
  exact hbody

theorem inPrecompileFrame_of_entered {Q : CallSite M → Prop} {origin : Address}
    {run : PrecompileRun M} (h : enterCall env kind true self addr value s = .entered s₁ revid)
    (hcall : AtCall Q origin self kind value run s₁) :
    InPrecompileFrame env Q origin self kind addr value run s := by
  intro s₂ revid' h'
  rw [h] at h'
  cases h'
  exact hcall

end Haqq.Evm
