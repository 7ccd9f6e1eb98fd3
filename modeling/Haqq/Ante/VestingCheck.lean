import Haqq.Chain.State
import Haqq.Evm.TxData

/-!
# The vesting check of Ethereum transactions

`app/ante/evm/08_vesting.go`: clawback vesting accounts may not spend more than they have unlocked.
The amounts spent never go down, so the last comparison for an account decides, however the messages
of different accounts are interleaved.

* `checkMessages_ok_iff` follows the loop over the messages.
* `vestingDecorator_ok_iff` is about the whole transaction, sender by sender.
-/

namespace Haqq.Ante

open Lib Evm Vesting Function

structure EthVestingExpenseTracker where
  total : Nat
  spendable : Nat

inductive VestingError
  /-- "invalid transaction. Transaction without messages" -/
  | noMessages
  /-- "account %s does not exist" -/
  | unknownAddress
  /-- "account has no balance to execute transaction: %s" -/
  | noBalance (addr : Address)
  /-- "clawback vesting account has insufficient unlocked tokens to execute transaction: %s <
  %s" -/
  | insufficientUnlockedCoins (spendable total : Nat)
  | panic
  deriving DecidableEq, Repr

abbrev AccountExpenses := Address → Option EthVestingExpenseTracker

section Check

variable {M : Type} (env : Env) (st : Store M)

def spendableValue (addr : Address) (va : ClawbackVestingAccount) : Nat :=
  -- a negative difference counts as zero
  (st.bank.balance addr).get env.evmDenom - (va.lockedCoins env.blockTime).get env.evmDenom

/-- Adding a missing amount, or comparing it, is a nil dereference. -/
def updateAccountExpenses (accountExpenses : AccountExpenses) (addr : Address)
    (va : ClawbackVestingAccount) (addedExpense : Option Nat) :
    Except VestingError (EthVestingExpenseTracker × AccountExpenses) :=
  match accountExpenses addr, addedExpense with
  | some expenses, some value =>
    let expenses := { expenses with total := expenses.total + value }
    .ok (expenses, update accountExpenses addr (some expenses))
  | some _, none => .error .panic
  | none, addedExpense =>
    if (st.bank.balance addr).get env.evmDenom = 0 then .error (.noBalance addr)
    else
      match addedExpense with
      | none => .error .panic
      | some value =>
        let expenses := ⟨value, spendableValue env st addr va⟩
        .ok (expenses, update accountExpenses addr (some expenses))

/-- The expenses of an account add up over the messages of a transaction. -/
def checkVesting (addr : Address) (acct : AuthAccount) (accountExpenses : AccountExpenses)
    (addedExpense : Option Nat) : Except VestingError AccountExpenses :=
  match acct.kind with
  | .clawback _ va =>
    match updateAccountExpenses env st accountExpenses addr va addedExpense with
    | .error err => .error err
    | .ok (expenses, accountExpenses) =>
      if expenses.spendable < expenses.total then
        .error (.insufficientUnlockedCoins expenses.spendable expenses.total)
      else .ok accountExpenses
  | _ => .ok accountExpenses

def checkMessages : List MsgEthereumTx → AccountExpenses → Except VestingError Unit
  | [], _ => .ok ()
  | msg :: rest, accountExpenses =>
    match msg.sender with
    | none => .error .unknownAddress
    | some addr =>
      match st.accounts addr with
      | none => .error .unknownAddress
      | some acct =>
        match checkVesting env st addr acct accountExpenses msg.data.value with
        | .error err => .error err
        | .ok accountExpenses => checkMessages rest accountExpenses

/-- A transaction without a body has no list of messages. -/
def vestingDecorator : Option (List MsgEthereumTx) → Except VestingError Unit
  | none => .error .noMessages
  | some msgs => checkMessages env st msgs fun _ => none

/-! ## The check of a whole transaction -/

def spent (addr : Address) (msgs : List MsgEthereumTx) : Nat :=
  ((msgs.filter fun msg => msg.sender = some addr).map fun msg => msg.data.value.getD 0).sum

def Within (addr : Address) (va : ClawbackVestingAccount) (msgs : List MsgEthereumTx) :
    Option EthVestingExpenseTracker → Prop
  | some expenses => expenses.total + spent addr msgs ≤ expenses.spendable
  | none => (∃ msg ∈ msgs, msg.sender = some addr) →
    (st.bank.balance addr).get env.evmDenom ≠ 0 ∧ spent addr msgs ≤ spendableValue env st addr va

end Check

variable {value : Nat} {va : ClawbackVestingAccount} {acct : AuthAccount}
  {accountExpenses : AccountExpenses}

section Proofs

variable {M : Type} {env : Env} {st : Store M} {addr : Address} {msg : MsgEthereumTx}
  {rest : List MsgEthereumTx}

theorem spent_cons_self (hsender : msg.sender = some addr) (hvalue : msg.data.value = some value) :
    spent addr (msg :: rest) = value + spent addr rest := by
  simp [spent, hsender, hvalue]

theorem spent_cons_of_ne (hsender : msg.sender ≠ some addr) :
    spent addr (msg :: rest) = spent addr rest := by
  simp [spent, hsender]

theorem within_cons_of_ne {tracker : Option EthVestingExpenseTracker}
    (hsender : msg.sender ≠ some addr) :
    Within env st addr va (msg :: rest) tracker ↔ Within env st addr va rest tracker := by
  cases tracker with
  | some expenses => rw [Within, Within, spent_cons_of_ne hsender]
  | none => simp [Within, spent_cons_of_ne hsender, hsender]

theorem checkVesting_clawback {codeHash : Hash} (hkind : acct.kind = .clawback codeHash va)
    (hsender : msg.sender = some addr) (hvalue : msg.data.value = some value) :
    (∃ expenses, checkVesting env st addr acct accountExpenses (some value) =
        .ok (update accountExpenses addr (some expenses)) ∧
      expenses.total ≤ expenses.spendable ∧
      (Within env st addr va (msg :: rest) (accountExpenses addr) ↔
        Within env st addr va rest (some expenses))) ∨
    (∃ err, checkVesting env st addr acct accountExpenses (some value) = .error err) ∧
      ¬Within env st addr va (msg :: rest) (accountExpenses addr) := by
  have hspent : spent addr (msg :: rest) = value + spent addr rest :=
    spent_cons_self hsender hvalue
  unfold checkVesting updateAccountExpenses
  rw [hkind]
  cases htracker : accountExpenses addr with
  | some expenses =>
    dsimp only
    split
    · refine .inr ⟨⟨_, rfl⟩, ?_⟩
      rw [Within, hspent]
      omega
    · rename_i hcovered
      refine .inl ⟨_, rfl, Nat.le_of_not_lt hcovered, ?_⟩
      simp only [Within, hspent]
      omega
  | none =>
    have hmem : ∃ m ∈ msg :: rest, m.sender = some addr := ⟨msg, List.mem_cons_self, hsender⟩
    have hwithin : Within env st addr va (msg :: rest) none ↔
        (st.bank.balance addr).get env.evmDenom ≠ 0 ∧
          value + spent addr rest ≤ spendableValue env st addr va := by
      rw [Within, hspent]
      exact ⟨fun h => h hmem, fun h _ => h⟩
    dsimp only
    rw [hwithin]
    by_cases hbalance : (st.bank.balance addr).get env.evmDenom = 0
    · rw [if_pos hbalance]
      exact .inr ⟨⟨_, rfl⟩, fun h => h.1 hbalance⟩
    rw [if_neg hbalance]
    dsimp only
    split
    · exact .inr ⟨⟨_, rfl⟩, fun h => by omega⟩
    · rename_i hcovered
      exact .inl ⟨_, rfl, Nat.le_of_not_lt hcovered, fun h => h.2, fun h => ⟨hbalance, h⟩⟩

theorem checkVesting_other {addedExpense : Option Nat} (hkind : acct.kind.vesting = none) :
    checkVesting env st addr acct accountExpenses addedExpense = .ok accountExpenses := by
  unfold checkVesting
  cases h : acct.kind with
  | clawback codeHash va =>
    rw [h] at hkind
    cases hkind
  | _ => rfl

theorem clawback_of_vesting (h : acct.kind.vesting = some va) :
    ∃ codeHash, acct.kind = .clawback codeHash va := by
  cases hkind : acct.kind with
  | clawback codeHash va' =>
    rw [hkind] at h
    cases h
    exact ⟨codeHash, rfl⟩
  | _ =>
    rw [hkind] at h
    cases h

theorem covered_update {expenses : EthVestingExpenseTracker}
    (hexpenses : ∀ a tracker, accountExpenses a = some tracker →
      tracker.total ≤ tracker.spendable) (hcovered : expenses.total ≤ expenses.spendable)
    (a : Address) (tracker : EthVestingExpenseTracker)
    (h : update accountExpenses addr (some expenses) a = some tracker) :
    tracker.total ≤ tracker.spendable := by
  by_cases ha : a = addr
  · subst ha
    rw [update_self] at h
    cases h
    exact hcovered
  · rw [update_of_ne ha] at h
    exact hexpenses a tracker h

theorem vestingAccount_of_account (hacct : st.accounts addr = some acct) :
    st.vestingAccount addr = acct.kind.vesting := by
  rw [Store.vestingAccount, vestingOf, hacct]
  rfl

theorem checkMessages_ok_iff {msgs : List MsgEthereumTx}
    (hmsgs : ∀ msg ∈ msgs, msg.data.value.isSome ∧
      ∃ addr acct, msg.sender = some addr ∧ st.accounts addr = some acct)
    (hexpenses : ∀ addr expenses, accountExpenses addr = some expenses →
      expenses.total ≤ expenses.spendable) :
    checkMessages env st msgs accountExpenses = .ok () ↔
      ∀ addr va, st.vestingAccount addr = some va →
        Within env st addr va msgs (accountExpenses addr) := by
  induction msgs generalizing accountExpenses with
  | nil =>
    refine ⟨fun _ addr va _ => ?_, fun _ => rfl⟩
    cases h : accountExpenses addr with
    | some expenses => simpa [Within, spent] using hexpenses addr expenses h
    | none => simp [Within]
  | cons msg rest ih =>
    obtain ⟨hvalue, sender, acct, hsender, hacct⟩ := hmsgs msg List.mem_cons_self
    obtain ⟨value, hvalue⟩ := Option.isSome_iff_exists.mp hvalue
    have hrest := fun m hm => hmsgs m (List.mem_cons_of_mem msg hm)
    have hothers {a : Address} (ha : a ≠ sender) : msg.sender ≠ some a := by
      rw [hsender]
      exact fun h => ha (Option.some.inj h).symm
    simp only [checkMessages, hsender, hacct, hvalue]
    cases hkind : acct.kind.vesting with
    | none =>
      rw [checkVesting_other hkind]
      dsimp only
      rw [ih hrest hexpenses]
      refine forall_congr' fun a => forall_congr' fun va => forall_congr' fun hva => ?_
      have ha : a ≠ sender := by
        rintro rfl
        rw [vestingAccount_of_account hacct, hkind] at hva
        cases hva
      exact (within_cons_of_ne (hothers ha)).symm
    | some va =>
      obtain ⟨codeHash, hclawback⟩ := clawback_of_vesting hkind
      have hva : st.vestingAccount sender = some va := (vestingAccount_of_account hacct).trans hkind
      rcases @checkVesting_clawback value va acct accountExpenses M env st sender msg rest codeHash
        hclawback hsender hvalue with ⟨expenses, hcheck, hcovered, hwithin⟩ | ⟨⟨err, hcheck⟩, hnot⟩
      · rw [hcheck]
        dsimp only
        rw [ih hrest (covered_update hexpenses hcovered)]
        refine forall_congr' fun a => forall_congr' fun va' => forall_congr' fun hva' => ?_
        by_cases ha : a = sender
        · subst ha
          obtain rfl : va = va' := Option.some.inj (hva.symm.trans hva')
          rw [update_self]
          exact hwithin.symm
        · rw [update_of_ne ha]
          exact (within_cons_of_ne (hothers ha)).symm
      · rw [hcheck]
        exact ⟨nofun, fun h => absurd (h sender va hva) hnot⟩

/-- A transaction passes exactly if every vesting account among the senders sends no more, in all
its messages together, than it has unlocked. -/
theorem vestingDecorator_ok_iff (msgs : List MsgEthereumTx)
    (hvalues : ∀ msg ∈ msgs, msg.data.value.isSome)
    (hsenders : ∀ msg ∈ msgs, ∃ addr acct, msg.sender = some addr ∧ st.accounts addr = some acct) :
    vestingDecorator env st (some msgs) = .ok () ↔
      ∀ addr va, st.vestingAccount addr = some va → (∃ msg ∈ msgs, msg.sender = some addr) →
        (st.bank.balance addr).get env.evmDenom ≠ 0 ∧
          spent addr msgs ≤ (st.bank.balance addr).get env.evmDenom -
            (va.lockedCoins env.blockTime).get env.evmDenom :=
  checkMessages_ok_iff (fun msg hmsg => ⟨hvalues msg hmsg, hsenders msg hmsg⟩) nofun

end Proofs

def partlyLocked : Store Unit where
  accounts addr :=
    if addr = 7 then
      some ⟨1, 0, .clawback 0 (newClawbackVestingAccount 1 (Tally.single .islm 100) 0
        [⟨1000, Tally.single .islm 100⟩] [⟨1000, Tally.single .islm 100⟩])⟩
    else if addr = 8 then some ⟨2, 0, .eth 0⟩
    else none
  nextAccountNumber := 3
  bank := ⟨fun a => if a = 7 then Tally.single .islm 150 else 0, Tally.single .islm 150⟩
  code _ := none
  storage _ _ := 0
  modules := ()

def sending (sender : Address) (value : Nat) : MsgEthereumTx :=
  ⟨⟨0, 21000, some 9, some value, [], .legacy 0, []⟩, 0, some sender⟩

theorem partlyLocked_spends_unlocked :
    vestingDecorator localConfig.toEnv partlyLocked
      (some [sending 7 20, sending 8 5, sending 7 30]) =
      .ok () := by
  refine (vestingDecorator_ok_iff _ (by decide) (by simp [sending, partlyLocked])).mpr ?_
  intro addr va hva _
  have haddr : addr = 7 := by
    by_contra hne
    simp only [Store.vestingAccount, vestingOf, partlyLocked, if_neg hne] at hva
    split at hva <;> cases hva
  subst haddr
  cases hva
  decide +kernel

end Haqq.Ante
