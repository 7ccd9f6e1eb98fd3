import Haqq.Chain.AddressText
import Haqq.Evm.Machine

/-!
# Access control

The permission policy of the EVM (`permissions.go`, `params.go`) and the execution with the hooks
that `NewEVM` installs.  The policy compares texts: an entry counts for an address only if it is
written as `Address.String` writes it, while `Validate` admits digits of any case, with or without
`0x`.

* `AccessControlType.decides_iff`: when the policy decides by the listed addresses.
* `access_control_iff`: a message does what it does without the frames that are refused.
-/

namespace Haqq.Evm

open Lib

inductive AccessType
  | permissionless
  | restricted
  | permissioned
  | other (value : Int)
  deriving DecidableEq, Repr

structure AccessControlType where
  accessType : AccessType
  accessControlList : List (List Char)

structure AccessControl where
  create : AccessControlType
  call : AccessControlType

inductive AccessError
  /-- "invalid access type: %s" -/
  | invalidAccessType (value : Int)
  /-- "invalid whitelist address: %s" -/
  | invalidWhitelistAddress (address : List Char)

def validateAccessType : AccessType → Except AccessError Unit
  | .other value => .error (.invalidAccessType value)
  | _ => .ok ()

def validateAllowlistAddresses : List (List Char) → Except AccessError Unit
  | [] => .ok ()
  | address :: rest =>
    if isHexAddress address then validateAllowlistAddresses rest
    else .error (.invalidWhitelistAddress address)

def AccessControlType.validate (act : AccessControlType) : Except AccessError Unit := do
  validateAccessType act.accessType
  validateAllowlistAddresses act.accessControlList

def AccessControl.validate (ac : AccessControl) : Except AccessError Unit := do
  ac.create.validate
  ac.call.validate

/-! ## Policy -/

section Policy

variable (keccak : List Char → Bytes)

def permissionlessCheckFn (addresses : List (List Char)) (signer caller : Address) : Bool :=
  !addresses.contains (checksumHex keccak signer) && !addresses.contains (checksumHex keccak caller)

def permissionedCheckFn (addresses : List (List Char)) (signer caller : Address) : Bool :=
  addresses.contains (checksumHex keccak signer) || addresses.contains (checksumHex keccak caller)

def AccessControlType.canFn (act : AccessControlType) (signer caller : Address) : Bool :=
  match act.accessType with
  | .permissionless => permissionlessCheckFn keccak act.accessControlList signer caller
  | .permissioned => permissionedCheckFn keccak act.accessControlList signer caller
  | .restricted => false
  | .other _ => false

def canCreate (ac : AccessControl) (signer caller : Address) : Bool :=
  ac.create.canFn keccak signer caller

def canCall (ac : AccessControl) (signer caller : Address) : Bool :=
  ac.call.canFn keccak signer caller

namespace AccessControlType

def Listed (act : AccessControlType) (a : Address) : Prop :=
  ∃ text ∈ act.accessControlList, hexToAddress text = a

def Decides (act : AccessControlType) (signer caller : Address) : Prop :=
  match act.accessType with
  | .permissionless =>
    act.canFn keccak signer caller = false ↔ act.Listed signer ∨ act.Listed caller
  | .permissioned => act.canFn keccak signer caller = true ↔ act.Listed signer ∨ act.Listed caller
  | .restricted => act.canFn keccak signer caller = false
  | .other _ => act.canFn keccak signer caller = false

def Written (act : AccessControlType) (a : Address) : Prop :=
  checksumHex keccak a ∈ act.accessControlList

/-- If the signer or the caller is listed, then one of them is as `Address.String` writes it, unless
the list is not looked at. -/
def Recognizes (act : AccessControlType) (signer caller : Address) : Prop :=
  act.accessType = .permissionless ∨ act.accessType = .permissioned →
    act.Listed signer ∨ act.Listed caller → act.Written keccak signer ∨ act.Written keccak caller

end AccessControlType

end Policy

section

variable {keccak : List Char → Bytes} {act : AccessControlType}

theorem AccessControlType.Written.listed {a : Address} (h : act.Written keccak a) : act.Listed a :=
  ⟨_, h, hexToAddress_checksumHex keccak a⟩

theorem permissionedCheckFn_iff {signer caller : Address} :
    permissionedCheckFn keccak act.accessControlList signer caller = true ↔
      act.Written keccak signer ∨ act.Written keccak caller := by
  rw [permissionedCheckFn, Bool.or_eq_true, List.contains_iff_mem, List.contains_iff_mem]
  rfl

theorem permissionlessCheckFn_eq (addresses : List (List Char)) (signer caller : Address) :
    permissionlessCheckFn keccak addresses signer caller =
      !permissionedCheckFn keccak addresses signer caller := by
  rw [permissionlessCheckFn, permissionedCheckFn, Bool.not_or]

theorem AccessControlType.decides_iff (act : AccessControlType) (signer caller : Address) :
    act.Decides keccak signer caller ↔ act.Recognizes keccak signer caller := by
  have hlisted : act.Written keccak signer ∨ act.Written keccak caller →
      act.Listed signer ∨ act.Listed caller := Or.imp Written.listed Written.listed
  unfold Decides Recognizes canFn
  cases act.accessType with
  | permissionless =>
    rw [permissionlessCheckFn_eq, Bool.not_eq_false', permissionedCheckFn_iff]
    exact ⟨fun h _ => h.mpr, fun h => ⟨hlisted, h (.inl rfl)⟩⟩
  | permissioned =>
    rw [permissionedCheckFn_iff]
    exact ⟨fun h _ => h.mpr, fun h => ⟨hlisted, h (.inr rfl)⟩⟩
  | restricted => simp
  | other value => simp

end

/-! ## Hooks -/

inductive HookError
  /-- "caller address %s does not have permission to perform a call" -/
  | cannotCall (caller : Address)
  /-- "caller address %s does not have permission to deploy contracts" -/
  | cannotCreate (caller : Address)
  | precompile (recipient : Address)

structure OpCodeHooks where
  callHook : (caller recipient : Address) → Except HookError Unit
  createHook : (caller : Address) → Except HookError Unit

/-- `loads` says which addresses `GetPrecompilesCallHook` has no error for. -/
def newEVMHooks (keccak : List Char → Bytes) (ac : AccessControl) (loads : Address → Bool)
    (signer : Address) : OpCodeHooks where
  callHook caller recipient := do
    if canCall keccak ac signer caller then pure () else throw (.cannotCall caller)
    if loads recipient then pure () else throw (.precompile recipient)
  createHook caller :=
    if canCreate keccak ac signer caller then pure () else throw (.cannotCreate caller)

inductive Frame
  | call (caller recipient : Address)
  | create (caller : Address)

def OpCodeHooks.check (hooks : OpCodeHooks) : Frame → Except HookError Unit
  | .call caller recipient => hooks.callHook caller recipient
  | .create caller => hooks.createHook caller

def AccessControl.Permits (keccak : List Char → Bytes) (ac : AccessControl) (signer : Address) :
    Frame → Prop
  | .call caller _ => canCall keccak ac signer caller = true
  | .create caller => canCreate keccak ac signer caller = true

theorem permits_of_check {keccak : List Char → Bytes} {ac : AccessControl} {loads : Address → Bool}
    {signer : Address} {f : Frame} (h : (newEVMHooks keccak ac loads signer).check f = .ok ()) :
    ac.Permits keccak signer f := by
  cases f with
  | call caller recipient =>
    show canCall keccak ac signer caller = true
    simp only [OpCodeHooks.check, newEVMHooks] at h
    cases hcall : canCall keccak ac signer caller with
    | true => rfl
    | false =>
      rw [hcall] at h
      cases h
  | create caller =>
    show canCreate keccak ac signer caller = true
    simp only [OpCodeHooks.check, newEVMHooks] at h
    cases hcreate : canCreate keccak ac signer caller with
    | true => rfl
    | false =>
      rw [hcreate] at h
      cases h

/-! ## Execution -/

section Execution

variable {M : Type} (env : Env) (hooks : OpCodeHooks) (rollback : Rollback M) (origin : Address)

def hooked (f : Frame) (run : StateDB M → Option (StateDB M)) (s : StateDB M) :
    Option (StateDB M) :=
  match hooks.check f with
  | .ok _ => run s
  | .error _ => some s

/-- `execWith` with the hooks at the beginning of every frame. -/
def execHooked : Address → Prog M → StateDB M → Option (StateDB M)
  | _, .done, s => some s
  | self, .op o next, s => do
    let s' ← execOp env self s o
    execHooked self next s'
  | self, .call kind addr value body fails next, s => do
    let s' ← hooked hooks (.call self addr) (callFrame env rollback self kind addr value fails
      (execHooked (context kind self addr) body)) s
    execHooked self next s'
  | self, .precompile kind addr value run next, s => do
    let s' ← hooked hooks (.call self addr)
      (precompileFrame env rollback origin self kind addr value run) s
    execHooked self next s'
  | self, .create addr value body ret next, s => do
    let s' ← hooked hooks (.create self) (createFrame env rollback self addr value ret
      (execHooked addr body)) s
    execHooked self next s'

def frames : Address → Prog M → List Frame
  | _, .done => []
  | self, .op _ next => frames self next
  | self, .call kind addr _ body _ next =>
    .call self addr :: frames (context kind self addr) body ++ frames self next
  | self, .precompile _ addr _ _ next => .call self addr :: frames self next
  | self, .create addr _ body _ next => .create self :: frames addr body ++ frames self next

def pruneFrame (f : Frame) (opened rest : Prog M) : Prog M :=
  match hooks.check f with
  | .ok _ => opened
  | .error _ => rest

/-- A trace without the frames that the hooks refuse. -/
def prune : Address → Prog M → Prog M
  | _, .done => .done
  | self, .op o next => .op o (prune self next)
  | self, .call kind addr value body fails next =>
    pruneFrame hooks (.call self addr)
      (.call kind addr value (prune (context kind self addr) body) fails (prune self next))
      (prune self next)
  | self, .precompile kind addr value run next =>
    pruneFrame hooks (.call self addr) (.precompile kind addr value run (prune self next))
      (prune self next)
  | self, .create addr value body ret next =>
    pruneFrame hooks (.create self) (.create addr value (prune addr body) ret (prune self next))
      (prune self next)

def Message.prog (msg : Message M) : Prog M :=
  match msg.target with
  | .call addr body fails => .call .call addr msg.value body fails .done
  | .precompile addr run => .precompile .call addr msg.value run .done
  | .create addr body ret => .create addr msg.value body ret .done

def runMessage (run : StateDB M → Option (StateDB M)) (msg : Message M) (s : StateDB M) :
    Option (StateDB M) :=
  match msg.target with
  | .create _ _ _ => do
    let s' ← run (s.setNonce env msg.sender msg.nonce)
    return s'.setNonce env msg.sender (s.getNonce env msg.sender)
  | _ => run s

def executeHooked (msg : Message M) : StateDB M → Option (StateDB M) :=
  runMessage env (execHooked env hooks rollback msg.sender msg.sender msg.prog) msg

theorem executeMessage_eq (msg : Message M) (s : StateDB M) :
    executeMessage env rollback msg s =
      runMessage env (execWith env rollback msg.sender msg.sender msg.prog) msg s := by
  unfold executeMessage runMessage Message.prog
  cases msg.target with
  | call addr body fails => exact (Option.bind_fun_some _).symm
  | precompile addr run => exact (Option.bind_fun_some _).symm
  | create addr body ret =>
    simp only [execWith, Option.bind_eq_bind, Option.bind_fun_some]

variable {hooks}

theorem execWith_pruneFrame (self : Address) (f : Frame) {opened rest : Prog M}
    {run : StateDB M → Option (StateDB M)} {s : StateDB M}
    (h : execWith env rollback origin self opened s =
      (run s).bind (execWith env rollback origin self rest)) :
    (hooked hooks f run s).bind (execWith env rollback origin self rest) =
      execWith env rollback origin self (pruneFrame hooks f opened rest) s := by
  unfold hooked pruneFrame
  cases hooks.check f with
  | ok _ => exact h.symm
  | error _ => rfl

theorem execHooked_eq (self : Address) (prog : Prog M) :
    execHooked env hooks rollback origin self prog =
      execWith env rollback origin self (prune hooks self prog) := by
  induction prog generalizing self with
  | done => rfl
  | op o next ih =>
    funext s
    rw [execHooked, prune, execWith, ih]
  | call kind addr value body fails next ihbody ihnext =>
    funext s
    rw [execHooked, prune, ihbody, ihnext]
    apply execWith_pruneFrame
    rfl
  | precompile kind addr value run next ih =>
    funext s
    rw [execHooked, prune, ih]
    apply execWith_pruneFrame
    rfl
  | create addr value body ret next ihbody ihnext =>
    funext s
    rw [execHooked, prune, ihbody, ihnext]
    apply execWith_pruneFrame
    rfl

theorem mem_frames_pruneFrame {self : Address} {f g : Frame} {opened rest : Prog M}
    (h : g ∈ frames self (pruneFrame hooks f opened rest)) :
    hooks.check f = .ok () ∧ g ∈ frames self opened ∨ g ∈ frames self rest := by
  unfold pruneFrame at h
  cases hcheck : hooks.check f with
  | ok _ =>
    rw [hcheck] at h
    exact .inl ⟨rfl, h⟩
  | error _ =>
    rw [hcheck] at h
    exact .inr h

theorem check_of_mem_frames {self : Address} {prog : Prog M} {f : Frame}
    (h : f ∈ frames self (prune hooks self prog)) : hooks.check f = .ok () := by
  induction prog generalizing self with
  | done => cases h
  | op o next ih => exact ih h
  | call kind addr value body fails next ihbody ihnext =>
    rcases mem_frames_pruneFrame h with ⟨hcheck, h⟩ | h
    · rcases List.mem_append.mp h with h | h
      · rcases List.mem_cons.mp h with rfl | h
        · exact hcheck
        · exact ihbody h
      · exact ihnext h
    · exact ihnext h
  | precompile kind addr value run next ih =>
    rcases mem_frames_pruneFrame h with ⟨hcheck, h⟩ | h
    · rcases List.mem_cons.mp h with rfl | h
      · exact hcheck
      · exact ih h
    · exact ih h
  | create addr value body ret next ihbody ihnext =>
    rcases mem_frames_pruneFrame h with ⟨hcheck, h⟩ | h
    · rcases List.mem_append.mp h with h | h
      · rcases List.mem_cons.mp h with rfl | h
        · exact hcheck
        · exact ihbody h
      · exact ihnext h
    · exact ihnext h

theorem pruneFrame_of_ok {f : Frame} (h : hooks.check f = .ok ()) (opened rest : Prog M) :
    pruneFrame hooks f opened rest = opened := by
  rw [pruneFrame, h]

theorem prune_of_check {self : Address} {prog : Prog M}
    (h : ∀ f ∈ frames self prog, hooks.check f = .ok ()) : prune hooks self prog = prog := by
  induction prog generalizing self with
  | done => rfl
  | op o next ih => rw [prune, ih h]
  | call kind addr value body fails next ihbody ihnext =>
    rw [frames, List.forall_mem_append, List.forall_mem_cons] at h
    rw [prune, pruneFrame_of_ok h.1.1, ihbody h.1.2, ihnext h.2]
  | precompile kind addr value run next ih =>
    rw [frames, List.forall_mem_cons] at h
    rw [prune, pruneFrame_of_ok h.1, ih h.2]
  | create addr value body ret next ihbody ihnext =>
    rw [frames, List.forall_mem_append, List.forall_mem_cons] at h
    rw [prune, pruneFrame_of_ok h.1.1, ihbody h.1.2, ihnext h.2]

end Execution

/-- The policy decides as its access type says exactly if it recognizes the parties. In any case a
message does what it does without the frames that are refused. -/
theorem access_control_iff {M : Type} (keccak : List Char → Bytes) (ac : AccessControl) :
    (∀ signer caller : Address,
      (ac.create.Decides keccak signer caller ∧ ac.call.Decides keccak signer caller ↔
        ac.create.Recognizes keccak signer caller ∧ ac.call.Recognizes keccak signer caller)) ∧
    ∀ (env : Env) (loads : Address → Bool) (rollback : Rollback M) (msg : Message M)
      (s : StateDB M),
      let hooks := newEVMHooks keccak ac loads msg.sender
      executeHooked env hooks rollback msg s = runMessage env
        (execWith env rollback msg.sender msg.sender (prune hooks msg.sender msg.prog)) msg s ∧
      (∀ f ∈ frames msg.sender (prune hooks msg.sender msg.prog),
        ac.Permits keccak msg.sender f) ∧
      ((∀ f ∈ frames msg.sender msg.prog, hooks.check f = .ok ()) →
        executeHooked env hooks rollback msg s = executeMessage env rollback msg s) := by
  constructor
  · intro signer caller
    rw [AccessControlType.decides_iff, AccessControlType.decides_iff]
  · intro env loads rollback msg s hooks
    have hexec : executeHooked env hooks rollback msg s = runMessage env
        (execWith env rollback msg.sender msg.sender (prune hooks msg.sender msg.prog)) msg s := by
      rw [executeHooked, execHooked_eq]
    refine ⟨hexec, fun f hf => permits_of_check (check_of_mem_frames hf), fun hall => ?_⟩
    rw [hexec, prune_of_check hall, executeMessage_eq]

def checksummedList : AccessControlType := ⟨.permissionless, [checksumHex (fun _ => []) 3]⟩

def callMessage (body : Prog Unit) : Message Unit := ⟨2, 0, 0, .call 3 body false, [], []⟩

/-- The call that the listed contract 3 makes is refused. -/
theorem checksummedList_decides :
    canCall (fun _ => []) ⟨checksummedList, checksummedList⟩ 2 3 = false ∧
    ∀ (env : Env) (s : StateDB Unit),
      executeHooked env (newEVMHooks (fun _ => []) ⟨checksummedList, checksummedList⟩
        (fun _ => true) 2) (revertTo env) (callMessage (.call .call 6 0 .done false .done)) s =
      executeMessage env (revertTo env) (callMessage .done) s := by
  obtain ⟨hdecides, hexec⟩ :=
    access_control_iff (M := Unit) (fun _ => []) ⟨checksummedList, checksummedList⟩
  have hwritten : checksummedList.Recognizes (fun _ => []) 2 3 :=
    fun _ _ => .inr List.mem_cons_self
  obtain ⟨-, hcall⟩ := (hdecides 2 3).mpr ⟨hwritten, hwritten⟩
  refine ⟨hcall.mpr (.inr ⟨_, List.mem_cons_self, hexToAddress_checksumHex _ 3⟩), fun env s => ?_⟩
  exact (hexec env (fun _ => true) (revertTo env) (callMessage _) s).1.trans
    (executeMessage_eq env (revertTo env) (callMessage .done) s).symm

def plainDigits : List Char := Hex.encode (addressBytes 3)

def blocklist : AccessControl :=
  ⟨⟨.permissionless, [plainDigits]⟩, ⟨.permissionless, [plainDigits]⟩⟩

/-- The blocked account 3 may call and deploy, whatever the checksum. -/
theorem blocklist_bypassed : blocklist.validate = .ok () ∧
    ∀ keccak : List Char → Bytes, blocklist.call.Listed 3 ∧ blocklist.create.Listed 3 ∧
      canCall keccak blocklist 2 3 = true ∧ canCreate keccak blocklist 2 3 = true ∧
      ¬ blocklist.call.Decides keccak 2 3 ∧ ¬ blocklist.create.Decides keccak 2 3 := by
  have hlisted : blocklist.call.Listed 3 := ⟨plainDigits, List.mem_cons_self, by decide⟩
  refine ⟨by rfl, fun keccak => ?_⟩
  have hwritten : ∀ a, ¬ blocklist.call.Written keccak a := by
    intro a hmem
    have heq : checksumHex keccak a = plainDigits := List.mem_singleton.mp hmem
    cases heq
  have hcan : canCall keccak blocklist 2 3 = true := by
    show permissionlessCheckFn keccak blocklist.call.accessControlList 2 3 = true
    rw [permissionlessCheckFn_eq, Bool.not_eq_true', ← Bool.not_eq_true, permissionedCheckFn_iff]
    exact fun h => h.elim (hwritten 2) (hwritten 3)
  have hnot : ¬ blocklist.call.Decides keccak 2 3 := by
    intro h
    exact absurd (hcan.symm.trans (h.mpr (.inr hlisted))) (by decide)
  exact ⟨hlisted, hlisted, hcan, hcan, hnot, hnot⟩

end Haqq.Evm
