import Haqq.Lib.Ledger
import Haqq.Vesting.Account

/-!
# The multistore

The state of the chain.  Contract storage is what `GetState` returns: a slot that is absent and a
slot of 32 zero bytes are the same word.  A keeper call that fails rolls nothing back by itself, so
the calls run in `EStateM`.
-/

namespace Haqq

open Lib Vesting Function

/-- `base` stands for the types without a code hash, such as module accounts. -/
inductive AccountKind
  | base
  | eth (codeHash : Hash)
  | clawback (codeHash : Hash) (va : ClawbackVestingAccount)

namespace AccountKind

def codeHash : AccountKind → Option Hash
  | base => none
  | eth codeHash => some codeHash
  | clawback codeHash _ => some codeHash

def setCodeHash (hash : Hash) : AccountKind → AccountKind
  | base => base
  | eth _ => eth hash
  | clawback _ va => clawback hash va

def lockedCoins (blockTime : Int) : AccountKind → Coins
  | clawback _ va => va.lockedCoins blockTime
  | _ => 0

def asClawback : AccountKind → Option (Hash × ClawbackVestingAccount)
  | clawback codeHash va => some (codeHash, va)
  | _ => none

theorem asClawback_eq_some {kind : AccountKind} {codeHash : Hash} {va : ClawbackVestingAccount} :
    kind.asClawback = some (codeHash, va) ↔ kind = clawback codeHash va := by
  cases kind <;> simp [asClawback]

def vesting : AccountKind → Option ClawbackVestingAccount
  | clawback _ va => some va
  | _ => none

end AccountKind

structure AuthAccount where
  accountNumber : Nat
  sequence : UInt64
  kind : AccountKind

/-- `M` is the state of all modules but auth, bank and evm. -/
structure Store (M : Type) where
  accounts : Address → Option AuthAccount
  nextAccountNumber : Nat
  bank : Ledger Address Denom
  code : Hash → Option Bytes
  storage : Address → Hash → Hash
  modules : M

structure Env where
  keccak256 : Bytes → Hash
  evmDenom : Denom
  /-- The account of the `evm` module, which mints and burns for the StateDB. -/
  evmModule : Address
  /-- The addresses `SendCoinsFromModuleToAccount` refuses to pay. -/
  blocked : Address → Bool
  blockTime : Int

def Env.emptyCodeHash (env : Env) : Hash := env.keccak256 []

inductive KeeperError
  | insufficientFunds
  | unauthorized
  | invalidAccount
  | invalidRequest
  | notFound
  | moduleDisabled
  | liquidationFailed
  | redeemFailed
  | applySchedule
  | vestingLockup
  | unlockCoins
  | invalidDenom
  | invalidAmount
  | invalidAddress
  | invalidApplicationId
  | exceedsMaxSupply
  | exceedsPricingCurve
  | calculationFailed
  | notEligible
  | invalidCoins
  | invalidRatio
  /-- A Go panic, which fails the transaction. -/
  | panic
  /-- A dirty address without a live object, the nil dereference of `commitWithCtx`. -/
  | nilObject
  deriving DecidableEq, Repr

/-- A call of a keeper: the store it leaves is returned on errors as well. -/
abbrev KeeperM (M : Type) := EStateM KeeperError (Store M)

variable {M : Type}

namespace Store

variable (st : Store M)

def setBank (bank : Ledger Address Denom) : Store M := { st with bank := bank }

def setAccount (addr : Address) (acct : AuthAccount) : Store M :=
  { st with accounts := update st.accounts addr (some acct) }

def newAccount (addr : Address) (kind : AccountKind) : Store M :=
  { st with
    nextAccountNumber := st.nextAccountNumber + 1
    accounts := update st.accounts addr (some ⟨st.nextAccountNumber, 0, kind⟩) }

section Fields

variable {st} (bank : Ledger Address Denom) (addr : Address) (acct : AuthAccount)
  (kind : AccountKind)

@[simp] theorem setBank_accounts : (st.setBank bank).accounts = st.accounts := rfl

@[simp] theorem setBank_bank : (st.setBank bank).bank = bank := rfl

@[simp] theorem setBank_modules : (st.setBank bank).modules = st.modules := rfl

@[simp] theorem setAccount_accounts :
    (st.setAccount addr acct).accounts = update st.accounts addr (some acct) := rfl

@[simp] theorem setAccount_bank : (st.setAccount addr acct).bank = st.bank := rfl

@[simp] theorem setAccount_modules : (st.setAccount addr acct).modules = st.modules := rfl

@[simp] theorem newAccount_accounts :
    (st.newAccount addr kind).accounts =
      update st.accounts addr (some ⟨st.nextAccountNumber, 0, kind⟩) := rfl

@[simp] theorem newAccount_bank : (st.newAccount addr kind).bank = st.bank := rfl

@[simp] theorem newAccount_modules : (st.newAccount addr kind).modules = st.modules := rfl

end Fields

end Store

/-! ## Reading accounts -/

def vestingOf (accounts : Address → Option AuthAccount) (addr : Address) :
    Option ClawbackVestingAccount :=
  (accounts addr).bind fun acct => acct.kind.vesting

def Store.vestingAccount (st : Store M) (addr : Address) : Option ClawbackVestingAccount :=
  vestingOf st.accounts addr

@[simp] theorem vestingOf_update (accounts : Address → Option AuthAccount) (addr a : Address)
    (acct : AuthAccount) :
    vestingOf (update accounts addr (some acct)) a =
      if a = addr then acct.kind.vesting else vestingOf accounts a := by
  by_cases ha : a = addr
  · subst ha
    simp [vestingOf]
  · simp [vestingOf, ha]

def lockedCoins (env : Env) (st : Store M) (addr : Address) : Coins :=
  match st.accounts addr with
  | some acct => acct.kind.lockedCoins env.blockTime
  | none => 0

theorem lockedCoins_eq {env : Env} {st : Store M} {addr : Address} {va : ClawbackVestingAccount}
    (h : st.vestingAccount addr = some va) :
    lockedCoins env st addr = va.lockedCoins env.blockTime := by
  unfold lockedCoins
  cases hacct : st.accounts addr with
  | none => simp [Store.vestingAccount, vestingOf, hacct] at h
  | some acct =>
    simp only [Store.vestingAccount, vestingOf, hacct, Option.bind_some] at h
    cases hkind : acct.kind with
    | base => simp [hkind, AccountKind.vesting] at h
    | eth => simp [hkind, AccountKind.vesting] at h
    | clawback codeHash va' =>
      simp only [hkind, AccountKind.vesting, Option.some.injEq] at h
      simp [hkind, AccountKind.lockedCoins, h]

theorem lockedCoins_eq_zero {env : Env} {st : Store M} {addr : Address}
    (h : st.vestingAccount addr = none) : lockedCoins env st addr = 0 := by
  unfold lockedCoins
  cases hacct : st.accounts addr with
  | none => rfl
  | some acct =>
    cases hkind : acct.kind with
    | base => simp [hkind, AccountKind.lockedCoins]
    | eth => simp [hkind, AccountKind.lockedCoins]
    | clawback =>
      simp [Store.vestingAccount, vestingOf, hacct, hkind, AccountKind.vesting] at h

def liftBank (err : KeeperError) (f : Store M → Option (Ledger Address Denom)) :
    KeeperM M Unit := do
  match f (← get) with
  | some bank => modify fun st => st.setBank bank
  | none => throw err

/-- The account proto of the chain is an `EthAccount`. -/
def newAccountWithAddress (env : Env) : KeeperM M AuthAccount := do
  let st ← get
  set { st with nextAccountNumber := st.nextAccountNumber + 1 }
  return { accountNumber := st.nextAccountNumber
           sequence := 0
           kind := .eth env.emptyCodeHash }

end Haqq
