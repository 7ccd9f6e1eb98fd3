import Haqq.Chain.Bank
import Haqq.Evm.Nonces
import Haqq.Lib.Run

/-!
# Ethereum transactions and replay protection

The ante handler checks and increments the nonces of all senders up front; what it did stays when a
message fails.  Then the messages are applied one after the other.  Fees and gas are not followed.

* `history_nodup`: no sender and nonce are executed twice.
* `nonces_of_run`: a transaction advances the nonce of a sender by the number of its messages.
-/

namespace Haqq.Evm

open Lib StateDB

variable {M : Type} (env : Env)

def incrementNonce (st : Store M) (msg : Message M) : Option (Store M) :=
  match st.accounts msg.sender with
  | none => none
  | some acct =>
    if msg.nonce = acct.sequence then
      some (st.setAccount msg.sender { acct with sequence := acct.sequence + 1 })
    else none

def anteHandle (msgs : List (Message M)) (st : Store M) : Option (Store M) :=
  msgs.foldlM incrementNonce st

/-! ## Applying the messages -/

def vmFails (msg : Message M) (s : StateDB M) : Option Bool :=
  match msg.target with
  | .call addr _ fails =>
    match enterCall env .call false msg.sender addr msg.value s with
    | .refused => some true
    | .returned _ => some false
    | .entered s₁ _ => some (decide ((s₁.getCode env addr).getD [] ≠ []) && fails)
  | .precompile addr run =>
    match enterCall env .call true msg.sender addr msg.value s with
    | .refused => some true
    | .returned _ => some false
    | .entered s₁ _ =>
      (runPrecompiledContract env msg.sender msg.sender .call msg.value run s₁).map fun r => !r.2
  | .create addr _ ret =>
    let s₁ := s.setNonce env msg.sender msg.nonce
    some (canTransfer env s₁ msg.sender msg.value = false ||
      nonceOverflows (s₁.getNonce env msg.sender) ||
      collides env (prepareCreate env msg.sender addr s₁) addr || ret.isNone)

structure EthMsg (M : Type) where
  core : Message M
  refund : Nat

variable (feeCollector : Address)

def refundGas (msg : EthMsg M) : KeeperM M Unit :=
  if msg.refund = 0 then pure ()
  else Bank.sendCoinsFromModuleToAccount env feeCollector msg.core.sender
    (Tally.single env.evmDenom msg.refund)

/-- The state of a message that fails in the VM is dropped.  `none` is an error or a panic, which
fails the transaction. -/
def applyTransaction (st : Store M) (msg : EthMsg M) : Option (Store M) := do
  let failed ← vmFails env msg.core (prepareAccessList msg.core (.new st))
  match ← applyMessage env msg.core st with
  | .error _ _ => none
  | .ok _ st' =>
    match (refundGas env feeCollector msg).run (if failed then st else st') with
    | .ok _ st'' => some st''
    | .error _ _ => none

/-- Refused by the ante handler it changes nothing; otherwise the messages are applied, all or none.
-/
def deliverTx (st : Store M) (tx : List (EthMsg M)) : Store M :=
  match anteHandle (tx.map EthMsg.core) st with
  | none => st
  | some st₁ => (tx.foldlM (applyTransaction env feeCollector) st₁).getD st₁

def executed (st : Store M) (tx : List (EthMsg M)) : List (Address × UInt64) :=
  match anteHandle (tx.map EthMsg.core) st with
  | none => []
  | some _ => tx.map fun msg => (msg.core.sender, msg.core.nonce)

def history (st : Store M) : List (List (EthMsg M)) → List (Address × UInt64)
  | [] => []
  | tx :: txs => executed st tx ++ history (deliverTx env feeCollector st tx) txs

def nonceOf (st : Store M) (a : Address) : UInt64 :=
  match st.accounts a with
  | some acct => acct.sequence
  | none => 0

variable {env feeCollector} {st st' : Store M} {owned : Set Address}

def CodeFree (env : Env) (owned : Set Address) (st : Store M) : Prop :=
  ∀ a ∈ owned, NonceAt env (nonceOf st a) st a

variable {a : Address}

theorem nonceOf_some {acct : AuthAccount} (hacct : st.accounts a = some acct) :
    nonceOf st a = acct.sequence := by
  rw [nonceOf, hacct]

variable {nonce : UInt64}

theorem NonceAt.nonceOf (h : NonceAt env nonce st a) : nonceOf st a = nonce := by
  cases hacct : st.accounts a with
  | none => rw [Evm.nonceOf, hacct, (nonceAt_none hacct).mp h]
  | some acct => rw [nonceOf_some hacct, ((nonceAt_some hacct).mp h).1]

variable {nonces : Address → UInt64}

theorem CodeFree.of_nonceAt (h : ∀ a ∈ owned, NonceAt env (nonces a) st a) :
    CodeFree env owned st := by
  intro a ha
  rw [(h a ha).nonceOf]
  exact h a ha

/-! ## The ante handler advances the nonces -/

/-- The largest nonce; `IncrementNonce` takes it to zero. -/
def maxNonce : UInt64 := 18446744073709551615

variable {msg : Message M}

theorem incrementNonce_some (h : incrementNonce st msg = some st') :
    ∃ acct, st.accounts msg.sender = some acct ∧ msg.nonce = acct.sequence ∧
      st' = st.setAccount msg.sender { acct with sequence := acct.sequence + 1 } := by
  unfold incrementNonce at h
  split at h
  · cases h
  · rename_i acct hacct
    split at h
    · rename_i hnonce
      cases h
      exact ⟨acct, hacct, hnonce, rfl⟩
    · cases h

theorem toNat_succ {n : UInt64} (h : n ≠ maxNonce) : (n + 1).toNat = n.toNat + 1 := by
  have hne : n.toNat ≠ maxNonce.toNat := fun heq => h (UInt64.toNat_inj.mp heq)
  have hmax : maxNonce.toNat = 18446744073709551615 := rfl
  have hlt := n.toNat_lt
  rw [UInt64.toNat_add]
  have hone : (1 : UInt64).toNat = 1 := rfl
  omega

structure Advanced (msgs : List (Message M)) (st st' : Store M) : Prop where
  count : ∀ a, (nonceOf st' a).toNat =
    (nonceOf st a).toNat + msgs.countP fun msg => msg.sender = a
  nonces : ∀ msg ∈ msgs, (nonceOf st msg.sender).toNat ≤ msg.nonce.toNat ∧
    msg.nonce.toNat < (nonceOf st' msg.sender).toNat
  distinct : (msgs.map fun msg => (msg.sender, msg.nonce)).Nodup

theorem Advanced.one (hmax : msg.nonce ≠ maxNonce) (h : incrementNonce st msg = some st') :
    Advanced [msg] st st' := by
  obtain ⟨acct, hacct, hnonce, rfl⟩ := incrementNonce_some h
  have hold : nonceOf st msg.sender = msg.nonce := (nonceOf_some hacct).trans hnonce.symm
  have hnew : nonceOf (st.setAccount msg.sender { acct with sequence := acct.sequence + 1 })
      msg.sender = msg.nonce + 1 := by
    rw [hnonce]
    simp [nonceOf]
  refine ⟨fun a => ?_, fun m hm => ?_, by simp⟩
  · by_cases ha : msg.sender = a
    · subst ha
      simp [hnew, hold, toNat_succ hmax]
    · simp [nonceOf, ha, Ne.symm ha]
  · cases List.mem_singleton.mp hm
    rw [hnew, hold, toNat_succ hmax]
    exact ⟨le_refl _, Nat.lt_succ_self _⟩

variable {msgs : List (Message M)} {st₁ : Store M}

theorem Advanced.append {msgs' : List (Message M)} (h : Advanced msgs st st₁)
    (h' : Advanced msgs' st₁ st') : Advanced (msgs ++ msgs') st st' := by
  refine ⟨fun a => ?_, fun msg hmsg => ?_, ?_⟩
  · rw [h'.count, h.count, List.countP_append, Nat.add_assoc]
  · rcases List.mem_append.mp hmsg with hmsg | hmsg
    · have hlater := h'.count msg.sender
      exact ⟨(h.nonces msg hmsg).1, by have := (h.nonces msg hmsg).2; omega⟩
    · have hearlier := h.count msg.sender
      exact ⟨by have := (h'.nonces msg hmsg).1; omega, (h'.nonces msg hmsg).2⟩
  · rw [List.map_append]
    refine h.distinct.append h'.distinct fun pair hpair hpair' => ?_
    obtain ⟨msg, hmsg, rfl⟩ := List.mem_map.mp hpair
    obtain ⟨msg', hmsg', heq⟩ := List.mem_map.mp hpair'
    obtain ⟨hsender, hnonce⟩ := Prod.mk.inj heq
    have hbelow := (h.nonces msg hmsg).2
    have habove := (h'.nonces msg' hmsg').1
    rw [hsender, hnonce] at habove
    omega

theorem advanced_of_anteHandle (hmax : ∀ msg ∈ msgs, msg.nonce ≠ maxNonce)
    (h : anteHandle msgs st = some st') : Advanced msgs st st' := by
  induction msgs generalizing st with
  | nil =>
    cases h
    exact ⟨by simp, by simp, by simp⟩
  | cons msg rest ih =>
    simp only [anteHandle, List.foldlM_cons, Option.bind_eq_bind, Option.bind_eq_some_iff] at h
    obtain ⟨st₁, hst₁, hrest⟩ := h
    have hone := Advanced.one (hmax msg (by simp)) hst₁
    exact hone.append (ih (fun m hm => hmax m (by simp [hm])) hrest)

theorem CodeFree.incrementNonce (hfree : CodeFree env owned st)
    (h : incrementNonce st msg = some st') : CodeFree env owned st' := by
  obtain ⟨acct, hacct, -, rfl⟩ := incrementNonce_some h
  intro a ha
  by_cases hsender : a = msg.sender
  · subst hsender
    have hnew : (st.setAccount msg.sender { acct with sequence := acct.sequence + 1 }).accounts
        msg.sender = some { acct with sequence := acct.sequence + 1 } := by simp
    exact (nonceAt_some hnew).mpr
      ⟨(nonceOf_some hnew).symm, ((nonceAt_some hacct).mp (hfree _ ha)).2⟩
  · have hother : (st.setAccount msg.sender { acct with
        sequence := acct.sequence + 1 }).accounts a = st.accounts a := by simp [hsender]
    have hat := (hfree a ha).of_accounts hother
    rwa [nonceOf, hother]

theorem CodeFree.anteHandle (hfree : CodeFree env owned st) (h : anteHandle msgs st = some st') :
    CodeFree env owned st' :=
  Run.invariantM (fun _ _ _ _ hstep ht => ht.incrementNonce hstep) hfree
    (Run.alongM_of_forall (P := fun _ => True) (fun _ _ => trivial) st) h

/-! ## Applying the messages keeps them -/

theorem NonceAt.withRecipient (h : NonceAt env nonce st a) (addr : Address) :
    NonceAt env nonce (Bank.withRecipient env st addr) a := by
  cases hacct : st.accounts a with
  | some acct =>
    exact h.of_accounts ((Bank.withRecipient_accounts addr hacct).trans hacct.symm)
  | none =>
    unfold Bank.withRecipient
    split
    · exact h
    · by_cases haddr : a = addr
      · subst haddr
        -- the new account starts at zero, as a missing one counts
        have hnew : (st.newAccount a (.eth env.emptyCodeHash)).accounts a =
            some ⟨st.nextAccountNumber, 0, .eth env.emptyCodeHash⟩ := by simp
        exact (nonceAt_some hnew).mpr ⟨((nonceAt_none hacct).mp h).symm, rfl⟩
      · exact h.of_accounts (by simp [haddr])

theorem NonceAt.refundGas {msg : EthMsg M} {u : Unit} (h : NonceAt env nonce st a)
    (hrun : (refundGas env feeCollector msg).run st = .ok u st') : NonceAt env nonce st' a := by
  unfold Evm.refundGas at hrun
  split at hrun
  · cases hrun
    exact h
  · obtain ⟨-, bank, -, rfl⟩ := Bank.run_sendCoinsFromModuleToAccount_ok.mp hrun
    have hbank : NonceAt env nonce (st.setBank bank) a := h.of_accounts rfl
    exact hbank.withRecipient _

theorem applyTransaction_nonces {msg : EthMsg M} (hst : ∀ a ∈ owned, NonceAt env (nonces a) st a)
    (hmsg : msg.core.target.LeavesOwned env owned)
    (hrun : applyTransaction env feeCollector st msg = some st') :
    ∀ a ∈ owned, NonceAt env (nonces a) st' a := by
  intro a ha
  simp only [applyTransaction, Option.bind_eq_bind, Option.bind_eq_some_iff] at hrun
  obtain ⟨failed, -, result, hresult, hrun⟩ := hrun
  cases result with
  | error err st₁ => cases hrun
  | ok u st₁ =>
    have hst₁ := applyMessage_nonces hst hmsg hresult ha
    have hcommitted : NonceAt env (nonces a) (if failed then st else st₁) a := by
      cases failed with
      | true => exact hst a ha
      | false => exact hst₁
    cases hrefund : (refundGas env feeCollector msg).run (if failed then st else st₁) with
    | error err st₂ =>
      simp [hrefund] at hrun
    | ok u₂ st₂ =>
      simp only [hrefund, Option.some.injEq] at hrun
      subst hrun
      exact hcommitted.refundGas hrefund

theorem applyTransactions_nonces {msgs : List (EthMsg M)}
    (hst : ∀ a ∈ owned, NonceAt env (nonces a) st a)
    (hmsgs : ∀ msg ∈ msgs, msg.core.target.LeavesOwned env owned)
    (hrun : msgs.foldlM (applyTransaction env feeCollector) st = some st') :
    ∀ a ∈ owned, NonceAt env (nonces a) st' a :=
  Run.invariantM (fun _ _ _ hmsg hstep ht => applyTransaction_nonces ht hmsg hstep) hst
    (Run.alongM_of_forall hmsgs st) hrun

/-! ## Transactions -/

/-- Signed by externally owned accounts, and creating no contract at the address of one. -/
def Signed (env : Env) (owned : Set Address) (tx : List (EthMsg M)) : Prop :=
  ∀ msg ∈ tx, msg.core.sender ∈ owned ∧ msg.core.target.LeavesOwned env owned

def BelowMax (tx : List (EthMsg M)) : Prop := ∀ msg ∈ tx, msg.core.nonce ≠ maxNonce

variable {tx : List (EthMsg M)}

theorem deliverTx_advanced (hfree : CodeFree env owned st) (htx : Signed env owned tx)
    (hmax : BelowMax tx) (hante : anteHandle (tx.map EthMsg.core) st = some st₁) :
    Advanced (tx.map EthMsg.core) st st₁ ∧
      ∀ a ∈ owned, NonceAt env (nonceOf st₁ a) (deliverTx env feeCollector st tx) a := by
  have hnonces : ∀ msg ∈ tx.map EthMsg.core, msg.nonce ≠ maxNonce := by
    intro msg hmsg
    obtain ⟨ethMsg, hmem, rfl⟩ := List.mem_map.mp hmsg
    exact hmax ethMsg hmem
  have hst₁ : CodeFree env owned st₁ := hfree.anteHandle hante
  refine ⟨advanced_of_anteHandle hnonces hante, ?_⟩
  simp only [deliverTx, hante]
  cases hrun : tx.foldlM (applyTransaction env feeCollector) st₁ with
  | none => exact hst₁
  | some st₂ => exact applyTransactions_nonces hst₁ (fun msg hmsg => (htx msg hmsg).2) hrun

def sentBy (st : Store M) (tx : List (EthMsg M)) (a : Address) : Nat :=
  (executed st tx).countP fun pair => pair.1 = a

theorem deliverTx_nonce (feeCollector : Address) (hfree : CodeFree env owned st)
    (htx : Signed env owned tx) (hmax : BelowMax tx) (ha : a ∈ owned) :
    (nonceOf (deliverTx env feeCollector st tx) a).toNat =
      (nonceOf st a).toNat + sentBy st tx a := by
  cases hante : anteHandle (tx.map EthMsg.core) st with
  | none => simp [deliverTx, sentBy, executed, hante]
  | some st₁ =>
    obtain ⟨hadvanced, hkept⟩ := deliverTx_advanced hfree htx hmax hante
    rw [(hkept a ha).nonceOf, hadvanced.count]
    simp [sentBy, executed, hante, List.countP_map, Function.comp_def]

theorem CodeFree.deliverTx (hfree : CodeFree env owned st) (htx : Signed env owned tx)
    (hmax : BelowMax tx) : CodeFree env owned (deliverTx env feeCollector st tx) := by
  cases hante : Evm.anteHandle (tx.map EthMsg.core) st with
  | none => simpa [Evm.deliverTx, hante] using hfree
  | some st₁ => exact .of_nonceAt (deliverTx_advanced hfree htx hmax hante).2

theorem history_nodup {txs : List (List (EthMsg M))} (hfree : CodeFree env owned st)
    (htxs : ∀ tx ∈ txs, Signed env owned tx) (hmax : ∀ tx ∈ txs, BelowMax tx) :
    (history env feeCollector st txs).Nodup ∧
      ∀ pair ∈ history env feeCollector st txs,
        pair.1 ∈ owned ∧ (nonceOf st pair.1).toNat ≤ pair.2.toNat := by
  induction txs generalizing st with
  | nil => simp [history]
  | cons tx rest ih =>
    have htx := htxs tx (by simp)
    have htxMax := hmax tx (by simp)
    have hnext : CodeFree env owned (deliverTx env feeCollector st tx) :=
      hfree.deliverTx htx htxMax
    obtain ⟨hrest, hlater⟩ := ih hnext (fun t ht => htxs t (by simp [ht]))
      fun t ht => hmax t (by simp [ht])
    have hstep : ∀ a ∈ owned, (nonceOf (deliverTx env feeCollector st tx) a).toNat =
        (nonceOf st a).toNat + sentBy st tx a := fun a ha => deliverTx_nonce _ hfree htx htxMax ha
    have hrestAbove : ∀ pair ∈ history env feeCollector (deliverTx env feeCollector st tx) rest,
        pair.1 ∈ owned ∧ (nonceOf st pair.1).toNat ≤ pair.2.toNat := by
      intro pair hpair
      obtain ⟨howned, hle⟩ := hlater pair hpair
      rw [hstep _ howned] at hle
      exact ⟨howned, by omega⟩
    rw [history]
    cases hante : anteHandle (tx.map EthMsg.core) st with
    | none =>
      simp only [executed, hante, List.nil_append]
      exact ⟨hrest, hrestAbove⟩
    | some st₁ =>
      obtain ⟨hadvanced, hkept⟩ := deliverTx_advanced hfree htx htxMax hante
      have hnow : executed st tx =
          (tx.map EthMsg.core).map fun msg => (msg.sender, msg.nonce) := by
        simp [executed, hante]
      rw [hnow]
      refine ⟨hadvanced.distinct.append hrest fun pair hpair hpair' => ?_, fun pair hpair => ?_⟩
      · -- a later message with this sender has at least the nonce after the transaction
        obtain ⟨msg, hmsg, rfl⟩ := List.mem_map.mp hpair
        obtain ⟨howned, hle⟩ := hlater _ hpair'
        rw [(hkept _ howned).nonceOf] at hle
        exact absurd (hadvanced.nonces msg hmsg).2 (Nat.not_lt.mpr hle)
      · rcases List.mem_append.mp hpair with hpair | hpair
        · obtain ⟨msg, hmsg, rfl⟩ := List.mem_map.mp hpair
          obtain ⟨ethMsg, hmem, rfl⟩ := List.mem_map.mp hmsg
          exact ⟨(htx ethMsg hmem).1, (hadvanced.nonces _ hmsg).1⟩
        · exact hrestAbove pair hpair

/-- **Replay protection.** An executed transaction advances the nonce of each external account by
the number of its messages, so no sender and nonce execute twice. -/
theorem nonces_of_run {txs : List (List (EthMsg M))} (hfree : CodeFree env owned st)
    (htxs : ∀ tx ∈ txs, Signed env owned tx) (hmax : ∀ tx ∈ txs, BelowMax tx) :
    Run.Along (deliverTx env feeCollector)
        (fun s tx => ∀ a ∈ owned,
          (nonceOf (deliverTx env feeCollector s tx) a).toNat =
              (nonceOf s a).toNat + sentBy s tx a ∧
            nonceOf s a ≤ nonceOf (deliverTx env feeCollector s tx) a) st txs ∧
      (history env feeCollector st txs).Nodup := by
  refine ⟨?_, (history_nodup hfree htxs hmax).1⟩
  induction txs generalizing st with
  | nil => trivial
  | cons tx rest ih =>
    have htx := htxs tx (by simp)
    have htxMax := hmax tx (by simp)
    refine ⟨fun a ha => ?_, ?_⟩
    · have hnonce := deliverTx_nonce feeCollector hfree htx htxMax ha
      exact ⟨hnonce, UInt64.le_iff_toNat_le.mpr (by omega)⟩
    · exact ih (hfree.deliverTx htx htxMax) (fun t ht => htxs t (by simp [ht]))
        fun t ht => hmax t (by simp [ht])

def twoSigners (nonce : UInt64) : Store Unit where
  accounts a :=
    if a = 1 then some ⟨0, 0, .eth 1⟩
    else if a = 4 then some ⟨1, nonce, .eth 1⟩
    else none
  nextAccountNumber := 2
  bank := ⟨fun _ => 0, 0⟩
  code _ := none
  storage _ _ := 0
  modules := ()

def signedMsg (sender : Address) (nonce : UInt64) (target : Target Unit) : EthMsg Unit where
  core := ⟨sender, nonce, 0, target, [], []⟩
  refund := 0

def counterMethod : Method Unit where
  isTransaction := true
  isFunction := true
  unpack _ := true
  run _ _ _ st :=
    .ok { st with storage := fun a k => if a = 5 then 3 else st.storage a k } [] [] true

def counterCall : PrecompileRun Unit :=
  .stateful ⟨0x800, fun _ => some counterMethod, none, none⟩ [1, 2, 3, 4] true

/-- A deployment that fails, one whose constructor calls a precompile, and a list sent twice. -/
def signedRun : List (List (EthMsg Unit)) :=
  let twice := [signedMsg 1 0 (.create 7 .done none), signedMsg 1 1 (.call 4 .done false)]
  [twice, twice, [signedMsg 4 8 (.create 9 (.op (.sstore 1 2)
    (.precompile .call 0x800 0 counterCall .done)) (some none))]]

theorem counterCall_keepsNonces : counterCall.KeepsNonces sampleEnv {1, 4} := by
  refine ⟨fun selector method hmethod => ?_, nofun, nofun⟩
  cases hmethod
  intro origin caller input st st' logs entries gasLeft hrun a _ nonce hnonce
  cases hrun
  exact hnonce

theorem signedRun_signed : ∀ tx ∈ signedRun, Signed sampleEnv {1, 4} tx := by
  simp [signedRun, Signed, signedMsg, Target.LeavesOwned, Prog.LeavesOwned,
    counterCall_keepsNonces]

theorem twoSigners_codeFree (nonce : UInt64) :
    CodeFree sampleEnv {1, 4} (twoSigners nonce) := by
  rintro a (rfl | rfl)
  · exact (nonceAt_some rfl).mpr ⟨rfl, rfl⟩
  · exact (nonceAt_some rfl).mpr ⟨rfl, rfl⟩

theorem signedRun_once :
    (Run.after (deliverTx sampleEnv 901) (twoSigners 8) signedRun).storage 5 0 = 3 ∧
      history sampleEnv 901 (twoSigners 8) signedRun = [(1, 0), (1, 1), (4, 8)] ∧
      (history sampleEnv 901 (twoSigners 8) signedRun).Nodup := by
  refine ⟨by decide +kernel, by decide +kernel,
    (nonces_of_run (twoSigners_codeFree 8) signedRun_signed ?_).2⟩
  intro tx htx msg hmsg
  simp only [signedRun, List.mem_cons, List.not_mem_nil, or_false] at htx
  rcases htx with rfl | rfl | rfl <;>
    simp only [List.mem_cons, List.not_mem_nil, or_false] at hmsg <;>
    rcases hmsg with rfl | rfl <;> decide

theorem maxNonce_wraps :
    executed (twoSigners maxNonce) [signedMsg 4 maxNonce (.call 1 .done false)] = [(4, maxNonce)] ∧
      nonceOf (twoSigners maxNonce) 4 = maxNonce ∧
      nonceOf (deliverTx sampleEnv 901 (twoSigners maxNonce)
        [signedMsg 4 maxNonce (.call 1 .done false)]) 4 = 0 := by
  decide +kernel

end Haqq.Evm
