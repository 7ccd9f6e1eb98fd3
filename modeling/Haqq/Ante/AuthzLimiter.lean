import Haqq.Lib.Effects

/-!
# The authz limiter

`app/ante/cosmos/authz.go`: a transaction must not execute or grant certain messages through the
authz module.  The counter of the nesting does not come down again, so the limit is one on the
*chain* of a list, in which each `MsgExec` is inside the previous one or a later sibling of it.

* `checkMsgs_ok_iff`: what passes is clean and has a short chain.
* `checkDisabledMsgs_verdict`: nothing disabled is executed or granted in an accepted tree.
-/

namespace Haqq.Ante

open Lib

/-- The messages of a `MsgExec` and the authorization of a `MsgGrant` may fail to unpack. -/
inductive Msg
  | exec (innerMsgs : List Msg)
  | execUnpackFails
  | grant (authorizationUrl : String)
  | grantUnpackFails
  | other (typeUrl : String)

def execUrl : String := "/cosmos.authz.v1beta1.MsgExec"

def grantUrl : String := "/cosmos.authz.v1beta1.MsgGrant"

def Msg.typeUrl : Msg → String
  | exec _ => execUrl
  | execUnpackFails => execUrl
  | grant _ => grantUrl
  | grantUnpackFails => grantUrl
  | other typeUrl => typeUrl

/-! ## The decorator -/

def maxNestedMsgs : Nat := 7

inductive LimiterError
  /-- found more nested msgs than permitted -/
  | nested
  /-- found disabled msg type -/
  | disabled (url : String)
  /-- the error of `GetMessages` or `GetAuthorization` -/
  | unpack
  deriving DecidableEq, Repr

def isDisabledMsg (disabledMsgTypes : List String) (msgTypeURL : String) : Bool :=
  disabledMsgTypes.any fun disabledType => msgTypeURL == disabledType

mutual

/-- One round of the loop; returns the counter for the messages that follow. -/
def checkMsg (disabledMsgTypes : List String) : Msg → Bool → Nat → Except LimiterError Nat
  | .exec innerMsgs, _, nestedLvl =>
    -- the counter is not reset after the recursive call
    if maxNestedMsgs ≤ nestedLvl + 1 then .error .nested
    else do
      checkMsgs disabledMsgTypes innerMsgs true (nestedLvl + 1)
      return nestedLvl + 1
  | .execUnpackFails, _, _ => .error .unpack
  | .grant url, _, nestedLvl =>
    if isDisabledMsg disabledMsgTypes url then .error (.disabled url) else .ok nestedLvl
  | .grantUnpackFails, _, _ => .error .unpack
  | .other url, isAuthzInnerMsg, nestedLvl =>
    if isAuthzInnerMsg && isDisabledMsg disabledMsgTypes url then .error (.disabled url)
    else .ok nestedLvl

def checkMsgs (disabledMsgTypes : List String) : List Msg → Bool → Nat → Except LimiterError Unit
  | [], _, _ => .ok ()
  | msg :: rest, isAuthzInnerMsg, nestedLvl => do
    let nestedLvl ← checkMsg disabledMsgTypes msg isAuthzInnerMsg nestedLvl
    checkMsgs disabledMsgTypes rest isAuthzInnerMsg nestedLvl

end

def checkDisabledMsgs (disabledMsgTypes : List String) (msgs : List Msg) (isAuthzInnerMsg : Bool)
    (nestedLvl : Nat) : Except LimiterError Unit :=
  if maxNestedMsgs ≤ nestedLvl then .error .nested
  else checkMsgs disabledMsgTypes msgs isAuthzInnerMsg nestedLvl

def appDisabledMsgTypes : List String :=
  ["/ethermint.evm.v1.MsgEthereumTx", "/cosmos.vesting.v1beta1.MsgCreateVestingAccount"]

/-! ## What is accepted -/

mutual

def Msg.chainThen : Msg → Nat → Nat
  | .exec innerMsgs, later => max (chain innerMsgs) later + 1
  | .execUnpackFails, later => later
  | .grant _, later => later
  | .grantUnpackFails, later => later
  | .other _, later => later

/-- The number of `MsgExec` messages in the longest chain of a list. -/
def chain : List Msg → Nat
  | [] => 0
  | msg :: rest => msg.chainThen (chain rest)

end

mutual

/-- Everything in the message unpacks, and nothing disabled is granted or executed. -/
def Msg.Clean (disabledMsgTypes : List String) : Msg → Bool → Prop
  | .exec innerMsgs, _ => Clean disabledMsgTypes innerMsgs true
  | .execUnpackFails, _ => False
  | .grant url, _ => url ∉ disabledMsgTypes
  | .grantUnpackFails, _ => False
  | .other url, isInner => isInner = true → url ∉ disabledMsgTypes

def Clean (disabledMsgTypes : List String) : List Msg → Bool → Prop
  | [], _ => True
  | msg :: rest, isInner => msg.Clean disabledMsgTypes isInner ∧ Clean disabledMsgTypes rest isInner

end

variable {disabled : List String}

theorem isDisabledMsg_iff {url : String} : isDisabledMsg disabled url = true ↔ url ∈ disabled := by
  simp [isDisabledMsg]

/-- The recursion is the one of the messages: into every `MsgExec` and along the list. -/
theorem checkMsgs_ok_iff : ∀ (msgs : List Msg) (isInner : Bool) (nestedLvl : Nat),
    nestedLvl < maxNestedMsgs → (checkMsgs disabled msgs isInner nestedLvl = .ok () ↔
      Clean disabled msgs isInner ∧ nestedLvl + chain msgs < maxNestedMsgs)
  | [], isInner, nestedLvl, hlvl => by
    simp [checkMsgs, Clean, chain, hlvl]
  | .exec innerMsgs :: rest, isInner, nestedLvl, hlvl => by
    rw [checkMsgs, except_bind_ok]
    simp only [checkMsg, Clean, Msg.Clean, chain, Msg.chainThen]
    by_cases hnext : maxNestedMsgs ≤ nestedLvl + 1
    · simp only [if_pos hnext, reduceCtorEq, false_and, exists_false, false_iff]
      omega
    · have hinner := checkMsgs_ok_iff innerMsgs true (nestedLvl + 1) (by omega)
      have hrest := checkMsgs_ok_iff rest isInner (nestedLvl + 1) (by omega)
      simp only [if_neg hnext, except_bind_ok, hinner, pure, Except.pure, Except.ok.injEq]
      constructor
      · rintro ⟨_, ⟨_, ⟨hclean, hchain⟩, rfl⟩, hok⟩
        obtain ⟨hcleanRest, hchainRest⟩ := hrest.mp hok
        exact ⟨⟨hclean, hcleanRest⟩, by omega⟩
      · rintro ⟨⟨hclean, hcleanRest⟩, hchain⟩
        exact ⟨_, ⟨(), ⟨hclean, by omega⟩, rfl⟩, hrest.mpr ⟨hcleanRest, by omega⟩⟩
  | .execUnpackFails :: rest, isInner, nestedLvl, _ => by
    simp [checkMsgs, checkMsg, except_bind_ok, Clean, Msg.Clean]
  | .grant url :: rest, isInner, nestedLvl, hlvl => by
    have hrest := checkMsgs_ok_iff rest isInner nestedLvl hlvl
    by_cases hurl : url ∈ disabled
    · simp [checkMsgs, checkMsg, except_bind_ok, isDisabledMsg_iff.mpr hurl, Clean, Msg.Clean, hurl]
    · simp [checkMsgs, checkMsg, except_bind_ok, isDisabledMsg_iff, Clean, Msg.Clean, hurl, chain,
        Msg.chainThen, hrest]
  | .grantUnpackFails :: rest, isInner, nestedLvl, _ => by
    simp [checkMsgs, checkMsg, except_bind_ok, Clean, Msg.Clean]
  | .other url :: rest, isInner, nestedLvl, hlvl => by
    have hrest := checkMsgs_ok_iff rest isInner nestedLvl hlvl
    rw [checkMsgs, except_bind_ok]
    simp only [checkMsg, Clean, Msg.Clean, chain, Msg.chainThen]
    by_cases hurl : isInner = true ∧ url ∈ disabled
    · simp [isDisabledMsg_iff, hurl]
    · rw [if_neg (by simpa [isDisabledMsg_iff] using hurl)]
      simp only [Except.ok.injEq, exists_eq_left', hrest]
      exact ⟨fun h => ⟨⟨fun hinner hmem => hurl ⟨hinner, hmem⟩, h.1⟩, h.2⟩,
        fun h => ⟨h.1.2, h.2⟩⟩

theorem checkDisabledMsgs_ok_iff (msgs : List Msg) (isInner : Bool) (nestedLvl : Nat) :
    checkDisabledMsgs disabled msgs isInner nestedLvl = .ok () ↔
      Clean disabled msgs isInner ∧ nestedLvl + chain msgs < maxNestedMsgs := by
  rw [checkDisabledMsgs]
  by_cases hlvl : maxNestedMsgs ≤ nestedLvl
  · rw [if_pos hlvl]
    simp only [reduceCtorEq, false_iff, not_and]
    omega
  · rw [if_neg hlvl, checkMsgs_ok_iff msgs isInner nestedLvl (by omega)]

theorem clean_iff {isInner : Bool} {msgs : List Msg} :
    Clean disabled msgs isInner ↔ ∀ msg ∈ msgs, msg.Clean disabled isInner := by
  induction msgs with
  | nil => simp [Clean]
  | cons msg rest ih => rw [Clean, ih, List.forall_mem_cons]

theorem chain_singleton_le {msg : Msg} {msgs : List Msg} (h : msg ∈ msgs) :
    chain [msg] ≤ chain msgs := by
  induction msgs with
  | nil => simp at h
  | cons first rest ih =>
    rcases List.mem_cons.mp h with rfl | hmem
    · cases msg <;> simp only [chain, Msg.chainThen] <;> omega
    · have hrest := ih hmem
      cases first <;> simp only [chain, Msg.chainThen] at hrest ⊢ <;> omega

/-! ## What occurs in accepted messages -/

inductive Occurs (msg : Msg) : List Msg → Prop
  | here {msgs : List Msg} (h : msg ∈ msgs) : Occurs msg msgs
  | nested {innerMsgs msgs : List Msg} (h : Msg.exec innerMsgs ∈ msgs)
      (hinner : Occurs msg innerMsgs) : Occurs msg msgs

theorem Occurs.clean {msg : Msg} {msgs : List Msg} (h : Occurs msg msgs) {isInner : Bool}
    (hclean : Clean disabled msgs isInner) : ∃ isInner', msg.Clean disabled isInner' := by
  induction h generalizing isInner with
  | here hmem => exact ⟨isInner, clean_iff.mp hclean msg hmem⟩
  | nested hmem _ ih =>
    have hexec := clean_iff.mp hclean _ hmem
    rw [Msg.Clean] at hexec
    exact ih hexec

theorem Msg.Clean.typeUrl_notMem {msg : Msg} (hexec : execUrl ∉ disabled)
    (hgrant : grantUrl ∉ disabled) (h : msg.Clean disabled true) : msg.typeUrl ∉ disabled := by
  cases msg with
  | exec innerMsgs => exact hexec
  | execUnpackFails => exact hexec
  | grant url => exact hgrant
  | grantUnpackFails => exact hgrant
  | other url =>
    rw [Msg.Clean] at h
    exact h rfl

/-- **The verdict of the limiter.** Nothing disabled is executed or granted in an accepted list, and
acceptance is decided message by message, apart from the length of the chain. -/
theorem checkDisabledMsgs_verdict (hexec : execUrl ∉ disabled) (hgrant : grantUrl ∉ disabled)
    (msgs : List Msg) (isInner : Bool) (nestedLvl : Nat) :
    (checkDisabledMsgs disabled msgs isInner nestedLvl = .ok () →
      (∀ innerMsgs msg, Occurs (.exec innerMsgs) msgs → msg ∈ innerMsgs → msg.typeUrl ∉ disabled) ∧
        ∀ url, Occurs (.grant url) msgs → url ∉ disabled) ∧
      (checkDisabledMsgs disabled msgs isInner nestedLvl = .ok () ↔
        (∀ msg ∈ msgs, checkDisabledMsgs disabled [msg] isInner nestedLvl = .ok ()) ∧
          nestedLvl + chain msgs < maxNestedMsgs) := by
  simp only [checkDisabledMsgs_ok_iff]
  refine ⟨fun ⟨hclean, _⟩ => ⟨fun innerMsgs msg hoccurs hmem => ?_, fun url hoccurs => ?_⟩,
    fun ⟨hclean, hchain⟩ => ⟨fun msg hmem => ?_, hchain⟩, fun ⟨hall, hchain⟩ => ⟨?_, hchain⟩⟩
  · obtain ⟨_, hinner⟩ := hoccurs.clean hclean
    rw [Msg.Clean] at hinner
    exact (clean_iff.mp hinner msg hmem).typeUrl_notMem hexec hgrant
  · obtain ⟨_, hurl⟩ := hoccurs.clean hclean
    rwa [Msg.Clean] at hurl
  · have hle := chain_singleton_le hmem
    exact ⟨clean_iff.mpr (by simpa using clean_iff.mp hclean msg hmem), by omega⟩
  · exact clean_iff.mpr fun msg hmem => clean_iff.mp (hall msg hmem).1 msg (by simp)

def execSend : Msg := .exec [.other "/cosmos.bank.v1beta1.MsgSend"]

theorem fiveExecs_accepted :
    checkDisabledMsgs appDisabledMsgTypes (List.replicate 5 execSend) false 1 = .ok () := by
  refine (checkDisabledMsgs_verdict (by decide +kernel) (by decide +kernel) _ _ _).2.mpr
    ⟨fun msg hmem => ?_, by decide +kernel⟩
  rw [List.eq_of_mem_replicate hmem]
  decide +kernel

/-- Six are not, although each is accepted alone; a disabled `MsgExec` inside another is accepted.
-/
theorem sixExecs_rejected :
    (∀ msg ∈ List.replicate 6 execSend,
        checkDisabledMsgs appDisabledMsgTypes [msg] false 1 = .ok ()) ∧
      checkDisabledMsgs appDisabledMsgTypes (List.replicate 6 execSend) false 1 =
        .error .nested ∧
      checkDisabledMsgs [execUrl] [.exec [.exec []]] false 1 = .ok () := by
  refine ⟨fun msg hmem => ?_, by decide +kernel, by decide +kernel⟩
  rw [List.eq_of_mem_replicate hmem]
  decide +kernel

end Haqq.Ante
