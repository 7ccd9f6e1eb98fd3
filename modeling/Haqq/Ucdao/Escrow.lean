import Haqq.Chain.Bank
import Haqq.Chain.State

/-!
# Tracking the coins in escrow

`x/ucdao/keeper/escrow.go` and `store.go`: the total of all coins in escrow and an index of the
owners whose escrow account is not empty, both updated by hand, also by the ethiq module.
-/

namespace Haqq.Ucdao

open Lib

variable {S : Type} (cfg : Config S)

def modifyUcdao (f : State → State) : ModuleM S Unit :=
  modify fun st => st.setUcdao (f st.modules.ucdao)

def trackAddBalance (coin : Coin) : ModuleM S Unit :=
  modifyUcdao fun ucdao => { ucdao with totalBalance := ucdao.totalBalance + coin.toCoins }

/-- `Coin.Sub` panics when the total is too small. -/
def trackSubBalance (coin : Coin) : ModuleM S Unit := do
  let ucdao := (← get).modules.ucdao
  ensure (coin.amount ≤ ucdao.totalBalance.get coin.denom) .panic
  modifyUcdao fun ucdao => { ucdao with totalBalance := ucdao.totalBalance - coin.toCoins }

def getAccountBalances (st : ChainState S) (owner : Address) : Coins :=
  st.bank.balance (cfg.escrow owner)

def setHoldersIndex (addr : Address) : ModuleM S Unit :=
  modify fun st =>
    if (getAccountBalances cfg st addr).isZero then
      st.setUcdao { st.modules.ucdao with holders := st.modules.ucdao.holders.erase addr }
    else st.setUcdao { st.modules.ucdao with holders := insert addr st.modules.ucdao.holders }

def isHolder (st : ChainState S) (addr : Address) : Bool :=
  decide (addr ∈ st.modules.ucdao.holders)

variable {cfg} {st st' : ChainState S} {u : Unit}

@[simp] theorem run_trackAddBalance_ok {coin : Coin} :
    (trackAddBalance coin : ModuleM S Unit).run st = .ok u st' ↔
      st' = st.setUcdao { st.modules.ucdao with
        totalBalance := st.modules.ucdao.totalBalance + coin.toCoins } :=
  run_modify_ok

@[simp] theorem run_trackSubBalance_ok {coin : Coin} :
    (trackSubBalance coin : ModuleM S Unit).run st = .ok u st' ↔
      coin.amount ≤ st.modules.ucdao.totalBalance.get coin.denom ∧
      st' = st.setUcdao { st.modules.ucdao with
        totalBalance := st.modules.ucdao.totalBalance - coin.toCoins } := by
  unfold trackSubBalance modifyUcdao
  simp only [run_bind_ok, get_then, ensure_then, run_modify_ok]

@[simp] theorem run_setHoldersIndex_ok {addr : Address} :
    (setHoldersIndex cfg addr).run st = .ok u st' ↔
      st' = st.setUcdao { st.modules.ucdao with
        holders := if (getAccountBalances cfg st addr).isZero then
            st.modules.ucdao.holders.erase addr
          else insert addr st.modules.ucdao.holders } := by
  unfold setHoldersIndex
  rw [run_modify_ok]
  split <;> rfl

end Haqq.Ucdao
