import Haqq.Ante.GasAdmission

/-!
# What the ante handler leaves behind

The events of an admitted transaction are those of its messages in order, and no two of its messages
are the same Ethereum transaction: their nonces differ or their senders do.
-/

namespace Haqq.Ante

open Lib Evm

variable {cfg : AnteConfig} {mode : Mode} {tx : Tx} {msgs : List MsgEthereumTx} {s s' : AnteState}

/-! ## Events -/

def SameEvents (s s' : AnteState) : Prop := s'.events = s.events

instance : IsPreorder AnteState SameEvents where
  refl _ := rfl
  trans _ _ _ h h' := Eq.trans h' h

theorem sameEvents_onChain {ε α : Type} (wrap : ε → AnteError)
    (x : EStateM ε (ChainState SdkState) α) : Relates SameEvents (onChain wrap x) := by
  intro s a s' hrun
  obtain ⟨chain, -, rfl⟩ := run_onChain_ok.mp hrun
  rfl

theorem sameEvents_checkFee (err : Nat → Nat → AnteError) (fee price : Nat) (gas : UInt64) :
    Relates SameEvents (checkFee err fee price gas) := .ensure _ _

theorem sameEvents_mempoolFee : Relates SameEvents (mempoolFee cfg mode tx) := by
  unfold mempoolFee
  split
  · exact .pure _
  · exact .forM fun _ _ => sameEvents_checkFee _ _ _ _

theorem sameEvents_checkGlobalFee : Relates SameEvents (checkGlobalFee cfg tx) := by
  unfold checkGlobalFee
  split
  · exact .pure _
  · refine .forM fun msg _ => ?_
    split
    · exact .bind (.ofOption _ _) fun _ => sameEvents_checkFee _ _ _ _
    · exact .bind (.pure _) fun _ => sameEvents_checkFee _ _ _ _

theorem sameEvents_validateMsg (msg : MsgEthereumTx) :
    Relates SameEvents (validateMsg cfg msg) := by
  unfold validateMsg
  split
  · exact .throw _
  · split <;> exact .ensure _ _

theorem sameEvents_validateMsgs (txFee : Coins) (gas : UInt64) :
    Relates SameEvents (validateMsgs cfg msgs txFee gas) := by
  induction msgs generalizing txFee gas with
  | nil => exact .pure _
  | cons msg rest ih =>
    exact .bind (sameEvents_validateMsg msg) fun _ => .bind (.ensure _ _) fun _ => ih _ _

theorem sameEvents_validateBasic : Relates SameEvents (validateBasic cfg mode tx) := by
  unfold validateBasic
  split
  · exact .pure _
  · have hcheck (fee : Fee) (txFee : Coins) (gas : UInt64) :
        Relates SameEvents (checkTxFee fee txFee gas) :=
      .bind (.ensure _ _) fun _ => .ensure _ _
    have htx : Relates SameEvents (validateTx tx) :=
      .bind (.ensure _ _) fun _ => .bind (.ensure _ _) fun _ => .bind (.ensure _ _) fun _ =>
        .bind (.ensure _ _) fun _ => .bind (.ensure _ _) fun _ => .ensure _ _
    exact .bind htx fun _ => .bind (sameEvents_validateMsgs 0 0) fun _ => hcheck _ _ _

theorem sameEvents_accountVerification :
    Relates SameEvents (accountVerification cfg mode msgs) := by
  unfold accountVerification
  split
  · exact .pure _
  · refine .forM fun msg _ => .bind (.ofOption _ _) fun sender => .bind .get fun s => ?_
    split
    · exact .bind (.ensure _ _) fun _ => .runExcept _
    · exact .bind (.modify fun _ => rfl) fun _ => .runExcept _

theorem sameEvents_canTransfer : Relates SameEvents (canTransfer cfg msgs) :=
  .bind (.ensure _ _) fun _ => .forM fun _ _ => .bind (.ofOption _ _) fun _ =>
    .bind (.ensure _ _) fun _ => .bind .get fun _ => .ensure _ _

theorem sameEvents_vestingTransaction : Relates SameEvents (vestingTransaction cfg msgs) :=
  .bind .get fun _ => .runExcept _

theorem sameEvents_deductFee (fees : Nat) (payer : Address) :
    Relates SameEvents (deductFee cfg fees payer) := by
  unfold deductFee
  split
  · exact .pure _
  · exact .bind (sameEvents_onChain _ _) fun _ => sameEvents_onChain _ _

theorem sameEvents_consumeGas (gas : UInt64) :
    Relates SameEvents (consumeGas cfg mode msgs gas) := by
  induction msgs generalizing gas with
  | nil => exact .pure _
  | cons msg rest ih =>
    have hfees : Relates SameEvents (consumeFees cfg mode msg) :=
      .bind (.ofOption _ _) fun _ => .bind (.runExcept _) fun _ => sameEvents_deductFee _ _
    exact .bind hfees fun _ => ih _

theorem sameEvents_gasConsume : Relates SameEvents (gasConsume cfg mode msgs) := by
  unfold gasConsume
  split
  · exact .modify fun _ => rfl
  · exact .bind (sameEvents_consumeGas 0) fun _ => .bind (.ensure _ _) fun _ => .modify fun _ => rfl

theorem sameEvents_incrementSequence (msg : MsgEthereumTx) :
    Relates SameEvents (incrementSequence msg) :=
  .bind (.ofOption _ _) fun _ => .bind .get fun _ => .bind (.ofOption _ _) fun _ =>
    .bind (.ensure _ _) fun _ => .modify fun _ => rfl

theorem sameEvents_checkGasWanted : Relates SameEvents (checkGasWanted cfg tx) := by
  unfold checkGasWanted
  split
  · exact .pure _
  · refine .bind (.ensure _ _) fun _ => ?_
    split
    · exact .modify fun _ => rfl
    · exact .pure _

/-! ## Nonces -/

theorem run_incrementSequence_ok {msg : MsgEthereumTx} {u : Unit}
    (h : (incrementSequence msg).run s = .ok u s') :
    ∃ sender acct, msg.sender = some sender ∧ s.chain.accounts sender = some acct ∧
      msg.data.nonce = acct.sequence ∧
      s' = { s with
        chain := s.chain.setAccount sender { acct with sequence := acct.sequence + 1 } } := by
  simp only [incrementSequence, getFrom, run_bind_ok, get_then, ofOption_then, ensure_then,
    run_modify_ok] at h
  obtain ⟨sender, hsender, acct, hacct, hnonce, rfl⟩ := h
  exact ⟨sender, acct, hsender, hacct, hnonce, rfl⟩

theorem nonce_of_forM {u : Unit} {a : Address} {acct : AuthAccount}
    (h : (msgs.forM incrementSequence).run s = .ok u s') (hacct : s.chain.accounts a = some acct)
    {msg : MsgEthereumTx} (hmsg : msg ∈ msgs) (hsender : msg.sender = some a) :
    ∃ k < msgs.length, msg.data.nonce = acct.sequence + .ofNat k := by
  induction msgs generalizing s acct with
  | nil => cases hmsg
  | cons head rest ih =>
    obtain ⟨_, s₁, hhead, hrest⟩ := run_bind_ok.mp h
    obtain ⟨sender, acct₀, hsender₀, hacct₀, hnonce, rfl⟩ := run_incrementSequence_ok hhead
    rcases List.mem_cons.mp hmsg with rfl | hmsg
    · cases hsender₀.symm.trans hsender
      cases hacct₀.symm.trans hacct
      exact ⟨0, by simp, by simp [hnonce]⟩
    · by_cases ha : a = sender
      · subst ha
        cases hacct₀.symm.trans hacct
        obtain ⟨k, hk, hlater⟩ := ih hrest (by simp [Store.setAccount]; rfl) hmsg
        refine ⟨k + 1, by simpa using hk, ?_⟩
        rw [hlater, UInt64.ofNat_add, UInt64.add_assoc, UInt64.add_comm 1]
        rfl
      · obtain ⟨k, hk, hlater⟩ := ih hrest (by simpa [Store.setAccount, ha] using hacct) hmsg
        exact ⟨k, by simp; omega, hlater⟩

theorem nonces_of_forM {u : Unit} (hlength : msgs.length ≤ 2 ^ 64)
    (h : (msgs.forM incrementSequence).run s = .ok u s') :
    msgs.Pairwise fun msg msg' => msg.sender = msg'.sender → msg.data.nonce ≠ msg'.data.nonce := by
  induction msgs generalizing s with
  | nil => exact .nil
  | cons head rest ih =>
    obtain ⟨_, s₁, hhead, hrest⟩ := run_bind_ok.mp h
    rw [List.length_cons] at hlength
    refine .cons (fun msg hmsg hsame heq => ?_) (ih (by omega) hrest)
    obtain ⟨sender, acct, hsender, -, hnonce, rfl⟩ := run_incrementSequence_ok hhead
    have hnext : (s.chain.setAccount sender { acct with sequence := acct.sequence + 1 }).accounts
        sender = some { acct with sequence := acct.sequence + 1 } := by
      simp [Store.setAccount]
    obtain ⟨k, hk, hlater⟩ := nonce_of_forM hrest hnext hmsg (hsame.symm.trans hsender)
    rw [← heq, hnonce] at hlater
    have hwrap := congrArg UInt64.toNat hlater
    simp only [UInt64.toNat_add, UInt64.toNat_ofNat', UInt64.reduceToNat] at hwrap
    have := acct.sequence.toNat_lt
    omega

structure Admitted (cfg : AnteConfig) (tx : Tx) (s s' : AnteState) : Prop where
  events : s'.events = s.events ++ tx.msgs.zipIdx.map fun (msg, i) =>
    txHashEvent cfg.texts msg cfg.blockTxIndex (.ofNat i)
  distinct : tx.msgs.length ≤ 2 ^ 64 → tx.msgs.Pairwise fun msg msg' => msg.data ≠ msg'.data

theorem admitted_of_anteHandle {u : Unit} (h : (anteHandle cfg mode tx).run s = .ok u s') :
    Admitted cfg tx s s' := by
  simp only [anteHandle, run_bind_ok] at h
  obtain ⟨_, _, h₁, _, _, h₂, _, _, h₃, msgs, _, hsigs, _, _, h₄, _, _, h₅, _, _, h₆, _, _, h₇,
    _, _, hsequence, _, _, h₈, hemit⟩ := h
  obtain ⟨rfl, rfl⟩ := sigVerification_ok hsigs
  constructor
  · rw [emitEvents, run_modify_ok] at hemit
    subst hemit
    have hsame := trans_of SameEvents (sameEvents_mempoolFee _ _ _ h₁) <|
      trans_of SameEvents (sameEvents_checkGlobalFee _ _ _ h₂) <|
      trans_of SameEvents (sameEvents_validateBasic _ _ _ h₃) <|
      trans_of SameEvents (sameEvents_accountVerification _ _ _ h₄) <|
      trans_of SameEvents (sameEvents_canTransfer _ _ _ h₅) <|
      trans_of SameEvents (sameEvents_vestingTransaction _ _ _ h₆) <|
      trans_of SameEvents (sameEvents_gasConsume _ _ _ h₇) <|
      trans_of SameEvents
        (Relates.forM (fun msg _ => sameEvents_incrementSequence msg) _ _ _ hsequence) <|
      sameEvents_checkGasWanted _ _ _ h₈
    rw [List.zipIdx_map, List.map_map]
    exact congrArg (· ++ _) hsame
  · intro hlength
    have hnonces := nonces_of_forM (by rwa [List.length_map]) hsequence
    rw [List.pairwise_map] at hnonces
    refine hnonces.imp fun hne heq => ?_
    exact hne (by rw [signed, signed, heq]) (congrArg TxData.nonce heq)

end Haqq.Ante
