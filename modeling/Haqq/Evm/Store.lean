import Haqq.Chain.Store
import Haqq.Lib.FinMap

/-!
# The `x/evm` keeper

The functions of `x/evm/keeper/statedb.go`: how the StateDB reads and writes the multistore.
-/

namespace Haqq.Evm

open Lib Function

structure Account where
  nonce : UInt64
  balance : Int
  codeHash : Hash

variable {M : Type}

def newEmptyAccount (env : Env) : Account := ⟨0, 0, env.emptyCodeHash⟩

def getBalance (env : Env) (st : Store M) (addr : Address) : Nat :=
  (st.bank.balance addr).get env.evmDenom

def getAccount (env : Env) (st : Store M) (addr : Address) : Option Account :=
  (st.accounts addr).map fun acct =>
    { nonce := acct.sequence
      balance := getBalance env st addr
      codeHash := acct.kind.codeHash.getD env.emptyCodeHash }

def getState (st : Store M) (addr : Address) (key : Hash) : Hash := st.storage addr key

def getCode (st : Store M) (codeHash : Hash) : Option Bytes := st.code codeHash

/-! ## Writes -/

def mintCoins (env : Env) (coins : Coins) : KeeperM M Unit :=
  modify fun st => { st with bank := st.bank.mint env.evmModule coins }

def burnCoins (env : Env) (coins : Coins) : KeeperM M Unit :=
  liftBank .insufficientFunds fun st => st.bank.burn env.evmModule coins

def sendCoinsFromModuleToAccount (env : Env) (dst : Address) (coins : Coins) :
    KeeperM M Unit :=
  if env.blocked dst then throw .unauthorized
  else liftBank .insufficientFunds fun st => st.bank.send 0 env.evmModule dst coins

def sendCoinsFromAccountToModule (env : Env) (src : Address) (coins : Coins) :
    KeeperM M Unit :=
  liftBank .insufficientFunds fun st =>
    st.bank.send (lockedCoins env st src) src env.evmModule coins

/-- Brings the bank balance to `amount` by minting or burning the difference. -/
def setBalance (env : Env) (addr : Address) (amount : Int) : KeeperM M Unit := do
  let delta := amount - (getBalance env (← get) addr : Int)
  if 0 < delta then
    let coins := Tally.single env.evmDenom delta.toNat
    mintCoins env coins
    sendCoinsFromModuleToAccount env addr coins
  else if delta < 0 then
    let coins := Tally.single env.evmDenom (-delta).toNat
    sendCoinsFromAccountToModule env addr coins
    burnCoins env coins
  else
    pure ()

def setAccount (env : Env) (addr : Address) (account : Account) : KeeperM M Unit := do
  let acct ← match (← get).accounts addr with
    | some acct => pure acct
    | none => newAccountWithAddress env
  let acct := { acct with
    sequence := account.nonce
    kind := acct.kind.setCodeHash account.codeHash }
  modify fun st => { st with accounts := update st.accounts addr (some acct) }
  setBalance env addr account.balance

def setState (addr : Address) (key value : Hash) (st : Store M) : Store M :=
  { st with storage :=
      update st.storage addr (update (st.storage addr) key value) }

def setCode (codeHash : Hash) (code : Bytes) (st : Store M) : Store M :=
  { st with code := update st.code codeHash (if code = [] then none else some code) }

def deleteAccount (env : Env) (addr : Address) : KeeperM M Unit := do
  match (← get).accounts addr with
  | none => pure ()
  | some acct =>
    -- only Ethereum accounts can be selfdestructed
    if acct.kind.codeHash = none then throw .invalidAccount
    setBalance env addr 0
    modify fun st => { st with
      storage := update st.storage addr fun _ => 0
      accounts := update st.accounts addr none }

def sampleEnv : Env where
  keccak256 code := Fin.ofNat _ (code.length + 1)
  evmDenom := .islm
  evmModule := 900
  blocked _ := false
  blockTime := 0

end Haqq.Evm
