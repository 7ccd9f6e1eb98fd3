import Haqq.Chain.Bank
import Haqq.Chain.State
import Haqq.Lib.Decimal
import Haqq.Lib.Run

/-!
# Coinomics

`x/coinomics/keeper`: at the end of every block new coins are minted in proportion to the bonded
coins and to the time since the last block.  At the maximal supply the module disables itself.

* `endBlocker_effect` has one constructor for each way a block can end.
* `supply_le_maxSupply_of_run`: no run of blocks mints beyond the maximal supply.
-/

namespace Haqq.Coinomics

open Lib Lib.Decimal

structure Params where
  mintDenom : Denom
  /-- In percent per year, with 18 decimals. -/
  rewardCoefficient : Int
  enableCoinomics : Bool

structure State where
  params : Params
  /-- Zero until the first block after the activation. -/
  prevBlockTS : Int
  maxSupply : Option Coin

structure Config extends Env where
  coinomicsModule : Address
  feeCollector : Address

structure Block where
  unixMilli : Int
  year : Int
  totalBondedTokens : Except KeeperError Nat

abbrev CoinomicsM := KeeperM State

def getMaxSupply (st : Store State) : Coin :=
  st.modules.maxSupply.getD ⟨st.modules.params.mintDenom, 0⟩

def setPrevBlockTS (ts : Int) : CoinomicsM Unit :=
  modify fun st => { st with modules := { st.modules with prevBlockTS := ts } }

def setParams (params : Params) : CoinomicsM Unit :=
  modify fun st => { st with modules := { st.modules with params := params } }

def isLeapYear (year : Int) : Bool :=
  (decide (year % 4 = 0) && decide (year % 100 ≠ 0)) || decide (year % 400 = 0)

def yearInMillis (year : Int) : Int :=
  if isLeapYear year then ofInt 31622400000 else ofInt 31536000000

/-- `totalBonded * rewardCoefficient * ((currentBlockTS - prevBlockTS) / yearInMillis)` -/
def blockMint (params : Params) (prevBlockTS currentBlockTS year : Int) (totalBonded : Nat) : Int :=
  let rewardCoefficient := squo params.rewardCoefficient (ofInt 100)
  smul (smul (ofInt totalBonded) rewardCoefficient)
    (squo (ofInt currentBlockTS - ofInt prevBlockTS) (yearInMillis year))

def mintCoins (cfg : Config) (coins : Coins) : CoinomicsM Unit :=
  if coins.isZero then pure () else Bank.mintCoins cfg.coinomicsModule coins

def allocate (cfg : Config) (mintDenom : Denom) (mint : Int) (currentBlockTS : Int) :
    CoinomicsM Unit := do
  let totalMintOnBlockCoin : Coin := ⟨mintDenom, (roundInt mint).toNat⟩
  mintCoins cfg totalMintOnBlockCoin.toCoins
  Bank.sendCoins cfg.toEnv cfg.coinomicsModule cfg.feeCollector totalMintOnBlockCoin.toCoins
  setPrevBlockTS (roundInt (ofInt currentBlockTS))

/-- The first block only sets the timestamp; the block that would exceed the maximum supply mints up
to it and disables the module. -/
def mintAndAllocate (cfg : Config) (block : Block) : CoinomicsM Unit := do
  let st ← get
  if st.modules.prevBlockTS = 0 then
    setPrevBlockTS (roundInt (ofInt block.unixMilli))
  else
    let params := st.modules.params
    let totalBonded ← runExcept block.totalBondedTokens
    let mint := blockMint params st.modules.prevBlockTS block.unixMilli block.year totalBonded
    let bankTotalSupply := ofInt (st.bank.supply.get params.mintDenom)
    let maxSupply := ofInt (getMaxSupply st).amount
    let mint ←
      if maxSupply < bankTotalSupply + mint then do
        setParams { params with enableCoinomics := false }
        pure (maxSupply - bankTotalSupply)
      else pure mint
    -- a negative amount is only logged
    if mint < 0 then pure ()
    else allocate cfg params.mintDenom mint block.unixMilli

/-- An error of `MintAndAllocate` is logged; what it did to the store remains. -/
def endBlocker (cfg : Config) (block : Block) (st : Store State) : Store State :=
  if st.modules.params.enableCoinomics then finalState ((mintAndAllocate cfg block).run st) else st

/-! ## The effect of a block -/

variable {cfg : Config} {block : Block} {st : Store State}

def books (st : Store State) : Coins × Params × Option Coin :=
  (st.bank.supply, st.modules.params, st.modules.maxSupply)

theorem mintCoins_run (coins : Coins) (st : Store State) :
    ∃ st', (mintCoins cfg coins).run st = .ok () st' ∧
      books st' = (st.bank.supply + coins, st.modules.params, st.modules.maxSupply) := by
  unfold mintCoins
  split
  · rename_i hzero
    rw [Tally.isZero_iff.mp hzero, add_zero]
    exact ⟨st, rfl, rfl⟩
  · exact ⟨_, rfl, rfl⟩

theorem books_allocate (mintDenom : Denom) (mint currentBlockTS : Int) (st : Store State) :
    books (finalState ((allocate cfg mintDenom mint currentBlockTS).run st)) =
      (st.bank.supply + Tally.single mintDenom (roundInt mint).toNat, st.modules.params,
        st.modules.maxSupply) := by
  let coins : Coins := Coin.toCoins ⟨mintDenom, (roundInt mint).toNat⟩
  have hrest : Fixes books (do
      Bank.sendCoins cfg.toEnv cfg.coinomicsModule cfg.feeCollector coins
      setPrevBlockTS (roundInt (ofInt currentBlockTS))) := by
    apply Fixes.bind (Bank.fixes_sendCoins _ fun _ _ _ => rfl)
    · exact fun _ => .modify fun _ => rfl
    · intro s bank hsupply
      simp [books, hsupply]
  obtain ⟨st₁, hmint, hbooks⟩ := mintCoins_run coins st
  unfold allocate
  rw [EStateM.run_bind, hmint]
  exact (hrest st₁).trans hbooks

def mintedFor (mint : Int) : Nat := if mint < 0 then 0 else (roundInt mint).toNat

theorem books_allocate_unless (mintDenom : Denom) (mint currentBlockTS : Int) (st : Store State) :
    books (finalState ((if mint < 0 then pure ()
        else allocate cfg mintDenom mint currentBlockTS).run st)) =
      (st.bank.supply + Tally.single mintDenom (mintedFor mint), st.modules.params,
        st.modules.maxSupply) := by
  unfold mintedFor
  split
  · rw [Tally.single_zero, add_zero]
    rfl
  · exact books_allocate mintDenom mint currentBlockTS st

theorem add_mintedFor_le {supply maxSupply : Nat} {mint : Int} (hmint : 0 ≤ mint)
    (h : ofInt supply + mint ≤ ofInt maxSupply) : supply + mintedFor mint ≤ maxSupply := by
  have hround : roundInt mint ≤ maxSupply - supply := by
    apply roundInt_le hmint
    unfold ofInt at h ⊢
    linarith
  have hnonneg := roundInt_nonneg hmint
  rw [mintedFor, if_neg (not_lt.mpr hmint)]
  omega

theorem add_mintedFor_rest (supply maxSupply : Nat) :
    supply + mintedFor (ofInt maxSupply - ofInt supply) = max supply maxSupply := by
  have hrest : ofInt maxSupply - ofInt supply = (maxSupply - supply : Int) * precision := by
    unfold ofInt
    ring
  rcases le_or_gt supply maxSupply with hle | hlt
  · have hcast : ofInt maxSupply - ofInt supply = ofInt (maxSupply - supply : Nat) := by
      rw [hrest, ofInt, Nat.cast_sub hle]
    have hnonneg : ¬ ofInt (maxSupply - supply : Nat) < 0 := by
      unfold ofInt
      exact not_lt.mpr (by positivity)
    rw [hcast, mintedFor, if_neg hnonneg, roundInt_ofInt]
    omega
  · have hneg : ofInt maxSupply - ofInt supply < 0 := by
      rw [hrest]
      exact mul_neg_of_neg_of_pos (by omega) (by decide)
    rw [mintedFor, if_pos hneg]
    omega

def mintOf (block : Block) (st : Store State) (totalBonded : Nat) : Int :=
  blockMint st.modules.params st.modules.prevBlockTS block.unixMilli block.year totalBonded

def Capped (block : Block) (st : Store State) : Prop :=
  st.modules.params.enableCoinomics = true ∧ st.modules.prevBlockTS ≠ 0 ∧
    ∃ totalBonded, block.totalBondedTokens = .ok totalBonded ∧
      ofInt (getMaxSupply st).amount <
        ofInt (st.bank.supply.get st.modules.params.mintDenom) + mintOf block st totalBonded

inductive BlockEffect (block : Block) (st : Store State) : Coins × Params × Option Coin → Prop
  | nothing (hnot : ¬ Capped block st) :
      BlockEffect block st (st.bank.supply, st.modules.params, st.modules.maxSupply)
  | mint (n : Nat) (hnot : ¬ Capped block st)
      (hle : st.bank.supply.get st.modules.params.mintDenom + n ≤ (getMaxSupply st).amount) :
      BlockEffect block st (st.bank.supply + Tally.single st.modules.params.mintDenom n,
        st.modules.params, st.modules.maxSupply)
  | stop (n : Nat) (hcapped : Capped block st)
      (hle : st.bank.supply.get st.modules.params.mintDenom + n =
        max (st.bank.supply.get st.modules.params.mintDenom) (getMaxSupply st).amount) :
      BlockEffect block st (st.bank.supply + Tally.single st.modules.params.mintDenom n,
        { st.modules.params with enableCoinomics := false }, st.modules.maxSupply)

theorem endBlocker_effect (cfg : Config) (block : Block) (st : Store State) :
    BlockEffect block st (books (endBlocker cfg block st)) := by
  unfold endBlocker
  split
  case isFalse hdisabled => exact .nothing fun hcapped => hdisabled hcapped.1
  case isTrue henabled =>
    unfold mintAndAllocate
    rw [EStateM.run_bind, EStateM.run_get]
    dsimp only
    split
    case isTrue hfirst => exact .nothing fun hcapped => hcapped.2.1 hfirst
    case isFalse hprev =>
      cases hbonded : block.totalBondedTokens with
      | error e =>
        refine .nothing fun hcapped => ?_
        obtain ⟨_, _, totalBonded, hok, _⟩ := hcapped
        rw [hbonded] at hok
        cases hok
      | ok totalBonded =>
        have hcapped : Capped block st ↔ ofInt (getMaxSupply st).amount <
            ofInt (st.bank.supply.get st.modules.params.mintDenom) + mintOf block st totalBonded :=
          ⟨fun ⟨_, _, bonded, hok, hlt⟩ => by rw [hbonded] at hok; cases hok; exact hlt,
            fun hlt => ⟨henabled, hprev, totalBonded, hbonded, hlt⟩⟩
        by_cases hcap : Capped block st
        · have hlt := hcapped.mp hcap
          unfold mintOf at hlt
          simp only [runExcept, pure_bind, if_pos hlt]
          rw [EStateM.run_bind]
          show BlockEffect block st (books (finalState (EStateM.run _
            { st with modules := { st.modules with
                params := { st.modules.params with enableCoinomics := false } } })))
          rw [books_allocate_unless]
          exact .stop _ hcap (add_mintedFor_rest _ _)
        · have hle := mt hcapped.mpr hcap
          unfold mintOf at hle
          simp only [runExcept, pure_bind, if_neg hle]
          rw [books_allocate_unless]
          rcases lt_or_ge (mintOf block st totalBonded) 0 with hneg | hnonneg
          · unfold mintOf at hneg
            rw [mintedFor, if_pos hneg, Tally.single_zero, add_zero]
            exact .nothing hcap
          · exact .mint _ hcap (add_mintedFor_le hnonneg (not_lt.mp hle))

/-! ## The cap -/

def WithinCap (st : Store State) : Prop :=
  st.bank.supply.get .islm ≤ (getMaxSupply st).amount

instance (st : Store State) : Decidable (WithinCap st) := inferInstanceAs (Decidable (_ ≤ _))

theorem maxSupply_of_books {st st' : Store State} {supply : Coins} {params : Params}
    (h : books st' = (supply, params, st.modules.maxSupply))
    (hdenom : params.mintDenom = st.modules.params.mintDenom) :
    st'.bank.supply = supply ∧ getMaxSupply st' = getMaxSupply st := by
  simp only [books, Prod.mk.injEq] at h
  obtain ⟨hsupply, hparams, hmax⟩ := h
  refine ⟨hsupply, ?_⟩
  rw [getMaxSupply, getMaxSupply, hmax, hparams, hdenom]

theorem WithinCap.mint {n : Nat} (h : WithinCap st)
    (hle : st.bank.supply.get st.modules.params.mintDenom + n ≤
      max (st.bank.supply.get st.modules.params.mintDenom) (getMaxSupply st).amount) :
    (st.bank.supply + Tally.single st.modules.params.mintDenom n).get .islm ≤
      (getMaxSupply st).amount := by
  unfold WithinCap at h
  rw [Tally.get_add, Tally.get_single]
  split
  · rename_i hislm
    rw [← hislm] at hle
    omega
  · exact h

theorem WithinCap.endBlocker (h : WithinCap st) (cfg : Config) (block : Block) :
    WithinCap (endBlocker cfg block st) := by
  have heffect := endBlocker_effect cfg block st
  unfold WithinCap
  generalize hbooks : books (Coinomics.endBlocker cfg block st) = b at heffect
  cases heffect with
  | nothing =>
    obtain ⟨hsupply, hmax⟩ := maxSupply_of_books hbooks rfl
    rw [hsupply, hmax]
    exact h
  | mint n _ hle =>
    obtain ⟨hsupply, hmax⟩ := maxSupply_of_books hbooks rfl
    rw [hsupply, hmax]
    exact h.mint (hle.trans (le_max_right _ _))
  | stop n _ heq =>
    obtain ⟨hsupply, hmax⟩ := maxSupply_of_books hbooks rfl
    rw [hsupply, hmax]
    exact h.mint heq.le

theorem Capped.disabled (h : Capped block st) (cfg : Config) :
    (endBlocker cfg block st).modules.params.enableCoinomics = false := by
  have heffect := endBlocker_effect cfg block st
  generalize hbooks : books (endBlocker cfg block st) = b at heffect
  cases heffect with
  | nothing hnot => exact absurd h hnot
  | mint _ hnot => exact absurd h hnot
  | stop =>
    simp only [books, Prod.mk.injEq] at hbooks
    rw [hbooks.2.1]

/-! ## Runs -/

/-- With all that happens to the store before the end blocker of a block. -/
structure BlockInput where
  between : Store State → Store State
  block : Block

def step (cfg : Config) (st : Store State) (input : BlockInput) : Store State :=
  endBlocker cfg input.block (input.between st)

theorem idle_of_disabled (cfg : Config) {st : Store State} {inputs : List BlockInput}
    (hdisabled : st.modules.params.enableCoinomics = false)
    (hinputs : Run.Along (step cfg) (fun s input => s.modules.params.enableCoinomics = false →
      (input.between s).modules.params.enableCoinomics = false) st inputs) :
    Run.Along (step cfg) (fun s input => step cfg s input = input.between s) st inputs ∧
      (Run.after (step cfg) st inputs).modules.params.enableCoinomics = false := by
  induction inputs generalizing st with
  | nil => exact ⟨trivial, hdisabled⟩
  | cons input inputs ih =>
    have hbetween := hinputs.1 hdisabled
    have hidle : step cfg st input = input.between st := by
      rw [step, endBlocker, if_neg (by simp [hbetween])]
    obtain ⟨hrest, hend⟩ := ih (by rw [hidle]; exact hbetween) hinputs.2
    exact ⟨⟨hidle, hrest⟩, hend⟩

/-- If nothing else takes the supply of aISLM over its maximum, no end blocker does. After a block
in which the cap stops the minting nothing changes until the module is enabled again. -/
theorem supply_le_maxSupply_of_run (cfg : Config) (st : Store State) (inputs : List BlockInput)
    (hst : WithinCap st)
    (hbetween : Run.Along (step cfg) (fun s input => WithinCap s → WithinCap (input.between s))
      st inputs) :
    WithinCap (Run.after (step cfg) st inputs) ∧
    ∀ block, Capped block (Run.after (step cfg) st inputs) → ∀ later,
      Run.Along (step cfg) (fun s input => s.modules.params.enableCoinomics = false →
          (input.between s).modules.params.enableCoinomics = false)
        (endBlocker cfg block (Run.after (step cfg) st inputs)) later →
      (endBlocker cfg block (Run.after (step cfg) st inputs)).modules.params.enableCoinomics =
        false ∧
      Run.Along (step cfg) (fun s input => step cfg s input = input.between s)
        (endBlocker cfg block (Run.after (step cfg) st inputs)) later := by
  have hrun : WithinCap (Run.after (step cfg) st inputs) :=
    Run.invariant (fun _ input hkeeps hs => (hkeeps hs).endBlocker cfg input.block) hst hbetween
  refine ⟨hrun, fun block hcapped later hlater => ?_⟩
  have hdisabled := hcapped.disabled cfg
  exact ⟨hdisabled, (idle_of_disabled cfg hdisabled hlater).1⟩

def coinomicsConfig : Config :=
  { localConfig with coinomicsModule := 104, feeCollector := 105 }

def nearCap : Store State where
  accounts _ := none
  nextAccountNumber := 0
  bank := Ledger.mint ⟨fun _ => 0, 0⟩ 2 (Tally.single .islm 1000)
  code _ := none
  storage _ _ := 0
  modules := ⟨⟨.islm, 78 * 10 ^ 17, true⟩, 0, some ⟨.islm, 1010⟩⟩

def firstBlock : BlockInput := ⟨id, ⟨1000, 2022, .ok 1000⟩⟩

def yearLater : BlockInput := ⟨id, ⟨31536001000, 2023, .ok 1000⟩⟩

theorem yearLater_stops_minting :
    WithinCap (Run.after (step coinomicsConfig) nearCap [firstBlock, yearLater]) ∧
    (Run.after (step coinomicsConfig) nearCap [firstBlock, yearLater]).bank.supply.get .islm =
      1010 ∧
    (Run.after (step coinomicsConfig) nearCap
      [firstBlock, yearLater]).modules.params.enableCoinomics = false := by
  have hcapped : Capped yearLater.block (Run.after (step coinomicsConfig) nearCap [firstBlock]) :=
    ⟨by decide +kernel, by decide +kernel, 1000, rfl, by decide +kernel⟩
  have hone := supply_le_maxSupply_of_run coinomicsConfig nearCap [firstBlock] (by decide)
    ⟨id, trivial⟩
  have htwo := supply_le_maxSupply_of_run coinomicsConfig nearCap [firstBlock, yearLater]
    (by decide) ⟨id, id, trivial⟩
  exact ⟨htwo.1, by decide +kernel, (hone.2 yearLater.block hcapped [] trivial).1⟩

end Haqq.Coinomics
