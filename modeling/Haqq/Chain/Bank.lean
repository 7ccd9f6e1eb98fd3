import Haqq.Chain.Store
import Haqq.Lib.Effects

/-!
# The bank keeper

The bank of the SDK as the modules use it: sends respect what a vesting account keeps locked and
create the account of a new recipient, and modules cannot pay blocked addresses.
-/

namespace Haqq.Bank

open Lib Vesting

variable {M : Type} (env : Env)

def createIfMissing (addr : Address) : KeeperM M Unit := do
  match (← get).accounts addr with
  | some _ => pure ()
  | none =>
    let acct ← newAccountWithAddress env
    modify fun st => st.setAccount addr acct

def sendCoins (src dst : Address) (coins : Coins) : KeeperM M Unit := do
  liftBank .insufficientFunds fun st => st.bank.send (lockedCoins env st src) src dst coins
  createIfMissing env dst

def sendCoinsFromModuleToAccount (module dst : Address) (coins : Coins) : KeeperM M Unit := do
  ensure (env.blocked dst = false) .unauthorized
  sendCoins env module dst coins

def sendCoinsFromAccountToModule (src module : Address) (coins : Coins) : KeeperM M Unit :=
  sendCoins env src module coins

def mintCoins (module : Address) (coins : Coins) : KeeperM M Unit :=
  modify fun st => st.setBank (st.bank.mint module coins)

def burnCoins (module : Address) (coins : Coins) : KeeperM M Unit :=
  liftBank .insufficientFunds fun st => st.bank.burn module coins

/-! ## What a successful call does -/

variable {env} {st st' : Store M} {src dst module : Address} {coins : Coins} {u : Unit}

@[simp] theorem run_liftBank_ok {err : KeeperError} {f : Store M → Option (Ledger Address Denom)} :
    (liftBank err f).run st = .ok u st' ↔
      ∃ bank, f st = some bank ∧ st' = st.setBank bank := by
  unfold liftBank
  rw [run_bind_ok]
  simp only [run_get_ok]
  constructor
  · rintro ⟨_, _, ⟨rfl, rfl⟩, h⟩
    split at h
    · rename_i bank hbank
      exact ⟨bank, hbank, run_modify_ok.mp h⟩
    · exact (run_throw_ok.mp h).elim
  · rintro ⟨bank, hbank, rfl⟩
    refine ⟨st, st, ⟨rfl, rfl⟩, ?_⟩
    rw [hbank]
    rfl

def withRecipient (env : Env) (st : Store M) (addr : Address) : Store M :=
  match st.accounts addr with
  | some _ => st
  | none => st.newAccount addr (.eth env.emptyCodeHash)

theorem run_createIfMissing (addr : Address) :
    (createIfMissing env addr).run st = .ok () (withRecipient env st addr) := by
  unfold createIfMissing withRecipient
  cases h : st.accounts addr <;>
    simp [h, newAccountWithAddress, EStateM.run_bind, Store.setAccount, Store.newAccount]

@[simp] theorem withRecipient_bank (addr : Address) :
    (withRecipient env st addr).bank = st.bank := by
  unfold withRecipient
  split <;> rfl

@[simp] theorem withRecipient_modules (addr : Address) :
    (withRecipient env st addr).modules = st.modules := by
  unfold withRecipient
  split <;> rfl

@[simp] theorem vestingOf_withRecipient (addr a : Address) :
    vestingOf (withRecipient env st addr).accounts a = vestingOf st.accounts a := by
  unfold withRecipient
  split
  · rfl
  · rename_i hnone
    rw [Store.newAccount_accounts, vestingOf_update]
    split
    · rename_i ha
      rw [ha]
      simp [vestingOf, hnone, AccountKind.vesting]
    · rfl

theorem withRecipient_accounts {a : Address} {acct : AuthAccount} (addr : Address)
    (h : st.accounts a = some acct) : (withRecipient env st addr).accounts a = some acct := by
  unfold withRecipient
  split
  · exact h
  · rename_i hnone
    have ha : a ≠ addr := by
      rintro rfl
      simp [h] at hnone
    simp [ha, h]

@[simp] theorem run_sendCoins_ok :
    (sendCoins env src dst coins).run st = .ok u st' ↔
      ∃ bank, st.bank.send (lockedCoins env st src) src dst coins = some bank ∧
        st' = withRecipient env (st.setBank bank) dst := by
  unfold sendCoins
  rw [run_bind_ok]
  simp only [run_liftBank_ok, run_createIfMissing]
  constructor
  · rintro ⟨_, _, ⟨bank, hbank, rfl⟩, h⟩
    cases h
    exact ⟨bank, hbank, rfl⟩
  · rintro ⟨bank, hbank, rfl⟩
    exact ⟨(), _, ⟨bank, hbank, rfl⟩, rfl⟩

theorem fixes_sendCoins {τ : Type} {f : Store M → τ}
    (hbank : ∀ st bank, bank.supply = st.bank.supply → f (st.setBank bank) = f st)
    (haccount : ∀ st addr kind, f (st.newAccount addr kind) = f st) :
    Fixes f (sendCoins env src dst coins) := by
  apply Fixes.bind
  · apply Fixes.bind_get
    intro st
    dsimp only
    cases hsend : st.bank.send (lockedCoins env st src) src dst coins with
    | none => rfl
    | some bank => exact hbank st bank (Ledger.supply_send hsend)
  · intro _ st
    rw [run_createIfMissing, finalState_ok, withRecipient]
    split
    · rfl
    · exact haccount st dst _

@[simp] theorem run_sendCoinsFromModuleToAccount_ok :
    (sendCoinsFromModuleToAccount env module dst coins).run st = .ok u st' ↔
      env.blocked dst = false ∧
      ∃ bank, st.bank.send (lockedCoins env st module) module dst coins = some bank ∧
        st' = withRecipient env (st.setBank bank) dst := by
  unfold sendCoinsFromModuleToAccount
  rw [run_bind_ok]
  simp only [run_ensure_ok, run_sendCoins_ok]
  constructor
  · rintro ⟨_, _, ⟨hblocked, rfl⟩, h⟩
    exact ⟨hblocked, h⟩
  · rintro ⟨hblocked, h⟩
    exact ⟨(), st, ⟨hblocked, rfl⟩, h⟩

@[simp] theorem run_mintCoins_ok :
    (mintCoins module coins : KeeperM M Unit).run st = .ok u st' ↔
      st' = st.setBank (st.bank.mint module coins) :=
  run_modify_ok

@[simp] theorem run_burnCoins_ok :
    (burnCoins module coins : KeeperM M Unit).run st = .ok u st' ↔
      ∃ bank, st.bank.burn module coins = some bank ∧ st' = st.setBank bank :=
  run_liftBank_ok

end Haqq.Bank
