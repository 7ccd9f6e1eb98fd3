import Haqq.Ethiq.Keeper

/-!
# The keeper of the UCDAO

`x/ucdao/keeper/keeper.go`, with the message server and the checks of the messages.  Coins are kept
in an escrow account per owner; aISLM in escrow can be converted to aHAQQ.
-/

namespace Haqq.Ucdao

open Lib

variable {S : Type} (cfg : Config S)

def coinList (coins : Coins) : List Coin :=
  (Tally.sorted coins.support).map fun denom => ⟨denom, coins.get denom⟩

def sumCoins (coins : List Coin) : Coins := (coins.map Coin.toCoins).sum

def escrowToken (sender escrowAddress : Address) (coin : Coin) : ModuleM S Unit := do
  Bank.sendCoins cfg.toEnv sender escrowAddress coin.toCoins
  trackAddBalance coin

def transferEscrowToken (escrowAddress newEscrowAddress : Address) (amt : List Coin) :
    ModuleM S Unit := do
  ensure (∀ coin ∈ amt, 0 < coin.amount) .invalidCoins
  Bank.sendCoins cfg.toEnv escrowAddress newEscrowAddress (sumCoins amt)

def fundCoin (sender : Address) (coin : Coin) : ModuleM S Unit := do
  ensure (coin.denom = .islm ∨ coin.denom.isLiquid = true) .invalidDenom
  if coin.amount = 0 then pure ()
  else escrowToken cfg sender (cfg.escrow sender) coin

def fund (amount : List Coin) (sender : Address) : ModuleM S Unit := do
  ensure ((← get).modules.ucdao.enabled = true) .moduleDisabled
  amount.forM (fundCoin cfg sender)
  setHoldersIndex cfg sender

/-- The coins go from escrow to escrow, and the index of the holders is brought up to date. -/
def transferOwnership (owner newOwner : Address) (amount : List Coin) : ModuleM S Unit := do
  ensure ((← get).modules.ucdao.enabled = true) .moduleDisabled
  ensure ((getAccountBalances cfg (← get) owner).isZero = false) .notEligible
  transferEscrowToken cfg (cfg.escrow owner) (cfg.escrow newOwner) amount
  setHoldersIndex cfg newOwner
  setHoldersIndex cfg owner

def convertible (coins : Coins) : Nat :=
  coins.get .islm + ((Ethiq.liquidBalances coins).map Coin.amount).sum

/-- Redeems all liquid coins in escrow, and burns the coins out of it. -/
def convertToHaqq (sender receiver : Address) (islmAmount : Nat) : ModuleM S Nat := do
  let st ← get
  ensure (st.modules.ucdao.enabled = true) .moduleDisabled
  ensure (isHolder st sender = true) .notEligible
  let balances := getAccountBalances cfg st sender
  ensure (islmAmount ≤ convertible balances) .insufficientFunds
  Ethiq.redeemLiquidCoins cfg (cfg.escrow sender) true (Ethiq.liquidBalances balances)
  let mintedHaqqAmt ← Ethiq.burnIslmForHaqq cfg islmAmount (cfg.escrow sender) receiver
  trackSubBalance ⟨.islm, islmAmount⟩
  setHoldersIndex cfg sender
  return mintedHaqqAmt

/-- Amounts are valid sets of coins; the ratio has 18 decimals. -/
inductive Msg
  | fund (depositor : Address) (amount : Coins)
  | transferOwnership (owner newOwner : Address)
  | transferOwnershipWithRatio (owner newOwner : Address) (ratio : Nat)
  | transferOwnershipWithAmount (owner newOwner : Address) (amount : Coins)
  | convertToHaqq (sender receiver : Address) (islmAmount : Nat)

/-- The share of some coins; a coin of which nothing is left is not dropped. -/
def shareOf (ratio : Nat) (coins : Coins) : List Coin :=
  (coinList coins).map fun coin =>
    ⟨coin.denom, Decimal.truncateInt (Decimal.mul (Decimal.ofNat coin.amount) ratio)⟩

def Msg.handle : Msg → ModuleM S Unit
  | fund depositor amount => Ucdao.fund cfg (coinList amount) depositor
  | transferOwnership owner newOwner => do
    let balances := getAccountBalances cfg (← get) owner
    ensure (balances.isZero = false) .notEligible
    Ucdao.transferOwnership cfg owner newOwner (coinList balances)
  | transferOwnershipWithRatio owner newOwner ratio => do
    ensure (0 < ratio ∧ ratio ≤ Decimal.precision) .invalidRatio
    let balances := getAccountBalances cfg (← get) owner
    ensure (balances.isZero = false) .notEligible
    Ucdao.transferOwnership cfg owner newOwner (shareOf ratio balances)
  | transferOwnershipWithAmount owner newOwner amount => do
    ensure ((getAccountBalances cfg (← get) owner).isZero = false) .notEligible
    Ucdao.transferOwnership cfg owner newOwner (coinList amount)
  | convertToHaqq sender receiver islmAmount => do
    ensure (0 < islmAmount) .invalidCoins
    let _ ← Ucdao.convertToHaqq cfg sender receiver islmAmount

/-- The messages that move coins in escrow: those of the module and the applications of
the ethiq module. -/
inductive EscrowMsg
  | ucdao (msg : Msg)
  | mintHaqqByApplication (fromAddress : Address) (applicationId : Nat)

def EscrowMsg.handle : EscrowMsg → ModuleM S Unit
  | ucdao msg => msg.handle cfg
  | mintHaqqByApplication fromAddress applicationId =>
    (Ethiq.Msg.mintHaqqByApplication fromAddress applicationId).handle cfg

def escrowStep (st : ChainState S) (tx : Tx EscrowMsg) : ChainState S :=
  deliver (tx.msg.handle (cfg.atTime tx.blockTime)) st

end Haqq.Ucdao
