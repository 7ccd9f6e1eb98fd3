import Haqq.Chain.Store

/-!
# The states of the modules

What `x/liquidvesting`, `x/erc20` (as far as liquid tokens go), `x/ethiq` and `x/ucdao` keep in
their stores, and the constants they are configured with.
-/

namespace Haqq

open Lib Vesting

structure Coin where
  denom : Denom
  amount : Nat
  deriving DecidableEq, Repr

/-- A zero coin is dropped. -/
def Coin.toCoins (coin : Coin) : Coins := Tally.single coin.denom coin.amount

namespace LiquidVesting

structure LiquidDenom where
  originalDenom : Denom
  startTime : Int
  endTime : Int
  lockupPeriods : Periods

structure State where
  enableLiquidVesting : Bool
  minimumLiquidationAmount : Nat
  denoms : Nat → Option LiquidDenom
  denomCounter : Nat
  /-- The ERC-20 token pairs of liquid tokens by id: whether they are enabled. -/
  tokenPairs : Nat → Option Bool

end LiquidVesting

namespace Ethiq

inductive SourceOfFunds
  | bank
  | ucdao
  deriving DecidableEq, Repr

structure BurnApplication where
  id : Nat
  fromAddress : Address
  toAddress : Address
  source : SourceOfFunds
  burnAmount : Nat
  burnedBeforeAmount : Nat

def BurnApplication.isCanceled (application : BurnApplication) : Bool :=
  application.burnAmount == 0

structure PriceLevel where
  fromAmount : Nat
  toAmount : Nat
  unitPrice : Nat
  deriving DecidableEq, Repr

structure State where
  enabled : Bool
  minMintPerTx : Nat
  maxMintPerTx : Nat
  maxSupply : Nat
  totalBurned : Nat
  totalBurnedFromApplications : Nat
  executed : Finset Nat

end Ethiq

namespace Ucdao

structure State where
  enabled : Bool
  totalBalance : Coins
  holders : Finset Address

end Ucdao

/-- `S` is the state of the modules that are not modelled. -/
structure Modules (S : Type) where
  liquidVesting : LiquidVesting.State
  ethiq : Ethiq.State
  ucdao : Ucdao.State
  rest : S

structure Config (S : Type) extends Env where
  liquidModule : Address
  ethiqModule : Address
  distributionModule : Address
  /-- `GetEscrowAddress` -/
  escrow : Address → Address
  applications : List Ethiq.BurnApplication
  prices : List Ethiq.PriceLevel
  /-- What an account has bonded and unbonding, in the bond denomination. -/
  delegated : S → Address → Coins

abbrev ModuleM (S : Type) := KeeperM (Modules S)

abbrev ChainState (S : Type) := Store (Modules S)

def Store.setLiquidVesting {S : Type} (st : ChainState S) (lv : LiquidVesting.State) :
    ChainState S :=
  { st with modules := { st.modules with liquidVesting := lv } }

def Store.setEthiq {S : Type} (st : ChainState S) (ethiq : Ethiq.State) : ChainState S :=
  { st with modules := { st.modules with ethiq := ethiq } }

def Store.setUcdao {S : Type} (st : ChainState S) (ucdao : Ucdao.State) : ChainState S :=
  { st with modules := { st.modules with ucdao := ucdao } }

section Fields

variable {S : Type} {st : ChainState S} (lv : LiquidVesting.State) (ethiq : Ethiq.State)
  (ucdao : Ucdao.State)

@[simp] theorem Store.setLiquidVesting_accounts :
    (st.setLiquidVesting lv).accounts = st.accounts := rfl

@[simp] theorem Store.setLiquidVesting_bank : (st.setLiquidVesting lv).bank = st.bank := rfl

@[simp] theorem Store.setLiquidVesting_modules :
    (st.setLiquidVesting lv).modules = { st.modules with liquidVesting := lv } := rfl

@[simp] theorem Store.setEthiq_accounts : (st.setEthiq ethiq).accounts = st.accounts := rfl

@[simp] theorem Store.setEthiq_bank : (st.setEthiq ethiq).bank = st.bank := rfl

@[simp] theorem Store.setEthiq_modules :
    (st.setEthiq ethiq).modules = { st.modules with ethiq := ethiq } := rfl

@[simp] theorem Store.setUcdao_accounts : (st.setUcdao ucdao).accounts = st.accounts := rfl

@[simp] theorem Store.setUcdao_bank : (st.setUcdao ucdao).bank = st.bank := rfl

@[simp] theorem Store.setUcdao_modules :
    (st.setUcdao ucdao).modules = { st.modules with ucdao := ucdao } := rfl

end Fields

def Config.atTime {S : Type} (cfg : Config S) (now : Int) : Config S :=
  { cfg with blockTime := now }

/-- The state after a message: a message that fails changes nothing. -/
def deliver {S : Type} (handler : ModuleM S Unit) (st : ChainState S) : ChainState S :=
  match handler.run st with
  | .ok _ st' => st'
  | .error _ _ => st

theorem deliver_cases {S : Type} (handler : ModuleM S Unit) (st : ChainState S) :
    deliver handler st = st ∨ handler.run st = .ok () (deliver handler st) := by
  unfold deliver
  cases handler.run st with
  | ok _ st' => exact .inr rfl
  | error _ _ => exact .inl rfl

structure Tx (Msg : Type) where
  blockTime : Int
  msg : Msg

def localConfig : Config Unit where
  keccak256 _ := 0
  evmDenom := .islm
  evmModule := 100
  blocked addr := decide (100 ≤ addr ∧ addr ≤ 103)
  blockTime := 0
  liquidModule := 101
  ethiqModule := 102
  distributionModule := 103
  escrow addr := addr + 1000
  applications := []
  prices := [⟨0, 1000, 2 * 10 ^ 18⟩, ⟨1000, 10 ^ 6, 4 * 10 ^ 18⟩]
  delegated _ _ := 0

def genesis : ChainState Unit where
  accounts addr := if addr = 101 ∨ addr = 102 ∨ addr = 103 then some ⟨0, 0, .base⟩ else none
  nextAccountNumber := 1
  bank := ⟨fun _ => 0, 0⟩
  code _ := none
  storage _ _ := 0
  modules :=
    { liquidVesting := ⟨true, 1, fun _ => none, 0, fun _ => none⟩
      ethiq := ⟨true, 1, 10 ^ 30, 10 ^ 30, 0, 0, ∅⟩
      ucdao := ⟨true, 0, ∅⟩
      rest := () }

end Haqq
