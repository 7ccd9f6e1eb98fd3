import Haqq.Coinomics.Inflation

/-!
# Minting after an activation

The module skips the first block after an activation, which it recognises by the missing timestamp
of the block before; but the timestamp is not removed when the module is disabled.  A module that is
enabled again mints for the time it was disabled.  Nor is the time noted of a block whose reward is
negative, which is only logged: the next block mints for its time once more.

* `endBlocker_disabled`, `endBlocker_first`, `supply_endBlocker_later` and
  `prevBlockTS_endBlocker_later` are what one block does.
* A run is followed with the time of the block before (`trackedStep`), which is kept apart from the
  timestamp of the module; `Follows` says how the two go together.
* `mintsDue_of_run`: without a reactivation and a negative reward every block mints what is due.
* `disabledYear_minted`: what is minted otherwise.
-/

namespace Haqq.Coinomics

open Lib Lib.Decimal

variable {cfg : Config} {block : Block} {st : Store State} {totalBonded : Nat}

def cappedMint (block : Block) (st : Store State) (ts : Int) (totalBonded : Nat) : Int :=
  let mint := blockMint st.modules.params ts block.unixMilli block.year totalBonded
  let bankTotalSupply := ofInt (st.bank.supply.get st.modules.params.mintDenom)
  let maxSupply := ofInt (getMaxSupply st).amount
  if maxSupply < bankTotalSupply + mint then maxSupply - bankTotalSupply else mint

/-- The coins due for the time since `ts`; none if the bonded tokens are not known. -/
def rewardSince (block : Block) (st : Store State) (ts : Int) : Nat :=
  match block.totalBondedTokens with
  | .error _ => 0
  | .ok totalBonded => mintedFor (cappedMint block st ts totalBonded)

/-! ## The effect of a block -/

theorem endBlocker_disabled (h : st.modules.params.enableCoinomics = false) :
    endBlocker cfg block st = st := by
  rw [endBlocker, if_neg (by simp [h])]

theorem endBlocker_first (h : st.modules.params.enableCoinomics = true)
    (hprev : st.modules.prevBlockTS = 0) :
    endBlocker cfg block st =
      { st with modules := { st.modules with prevBlockTS := block.unixMilli } } := by
  rw [endBlocker, if_pos h, mintAndAllocate, EStateM.run_bind, EStateM.run_get]
  simp only [hprev, if_true, roundInt_ofInt]
  rfl

theorem endBlocker_uncapped (henabled : st.modules.params.enableCoinomics = true)
    (hprev : st.modules.prevBlockTS ≠ 0) (hbonded : block.totalBondedTokens = .ok totalBonded)
    (hcap : ¬ Capped block st) (hmint : 0 ≤ mintOf block st totalBonded) :
    endBlocker cfg block st = finalState ((allocate cfg st.modules.params.mintDenom
      (mintOf block st totalBonded) block.unixMilli).run st) := by
  have hle : ¬ ofInt (getMaxSupply st).amount <
      ofInt (st.bank.supply.get st.modules.params.mintDenom) + mintOf block st totalBonded :=
    fun hlt => hcap ⟨henabled, hprev, totalBonded, hbonded, hlt⟩
  unfold mintOf at hle hmint ⊢
  rw [endBlocker, if_pos henabled, mintAndAllocate, EStateM.run_bind, EStateM.run_get]
  dsimp only
  rw [if_neg hprev, hbonded]
  simp only [runExcept, pure_bind, if_neg hle, if_neg (not_lt.mpr hmint)]

theorem run_mintCoins (coins : Coins) :
    (mintCoins cfg coins).run st =
      .ok () (st.setBank (st.bank.mint cfg.coinomicsModule coins)) := by
  unfold mintCoins
  split
  · rename_i hzero
    rw [Tally.isZero_iff.mp hzero, Ledger.mint_zero]
    rfl
  · rfl

theorem prevBlockTS_allocate (hplain : st.vestingAccount cfg.coinomicsModule = none)
    (mintDenom : Denom) (mint currentBlockTS : Int) :
    (finalState ((allocate cfg mintDenom mint currentBlockTS).run st)).modules.prevBlockTS =
      currentBlockTS := by
  let coins : Coins := Coin.toCoins ⟨mintDenom, (roundInt mint).toNat⟩
  let minted := st.setBank (st.bank.mint cfg.coinomicsModule coins)
  have hlocked : lockedCoins cfg.toEnv minted cfg.coinomicsModule = 0 :=
    lockedCoins_eq_zero hplain
  have hsome : (minted.bank.send (lockedCoins cfg.toEnv minted cfg.coinomicsModule)
      cfg.coinomicsModule cfg.feeCollector coins).isSome = true := by
    apply Ledger.send_isSome
    intro d
    rw [hlocked, Store.setBank_bank, Ledger.balance_mint, if_pos rfl, Tally.get_zero]
    omega
  obtain ⟨bank, hsend⟩ := Option.isSome_iff_exists.mp hsome
  have hrun : (Bank.sendCoins cfg.toEnv cfg.coinomicsModule cfg.feeCollector coins).run minted =
      .ok () (Bank.withRecipient cfg.toEnv (minted.setBank bank) cfg.feeCollector) :=
    Bank.run_sendCoins_ok.mpr ⟨bank, hsend, rfl⟩
  unfold allocate
  dsimp only
  rw [EStateM.run_bind, run_mintCoins]
  dsimp only
  rw [EStateM.run_bind, hrun]
  simp [setPrevBlockTS, roundInt_ofInt]

theorem supply_endBlocker_later (h : st.modules.params.enableCoinomics = true)
    (hprev : st.modules.prevBlockTS ≠ 0) :
    (endBlocker cfg block st).bank.supply = st.bank.supply +
      Tally.single st.modules.params.mintDenom (rewardSince block st st.modules.prevBlockTS) := by
  rw [endBlocker, if_pos h, mintAndAllocate, EStateM.run_bind, EStateM.run_get]
  dsimp only
  rw [if_neg hprev]
  unfold rewardSince
  cases block.totalBondedTokens with
  | error e =>
    rw [Tally.single_zero, add_zero]
    rfl
  | ok totalBonded =>
    have htail : ∀ (mint : Int) (st' : Store State), st'.bank = st.bank →
        (finalState ((if mint < 0 then pure () else
          allocate cfg st.modules.params.mintDenom mint block.unixMilli).run st')).bank.supply =
          st.bank.supply + Tally.single st.modules.params.mintDenom (mintedFor mint) := by
      intro mint st' hbank
      rw [← hbank]
      exact congrArg Prod.fst (books_allocate_unless _ mint block.unixMilli st')
    unfold cappedMint
    simp only [runExcept, pure_bind]
    split
    · rw [EStateM.run_bind]
      exact htail _ _ rfl
    · exact htail _ _ rfl

theorem prevBlockTS_endBlocker_later (henabled : st.modules.params.enableCoinomics = true)
    (hprev : st.modules.prevBlockTS ≠ 0) (hbonded : block.totalBondedTokens = .ok totalBonded)
    (hmint : 0 ≤ mintOf block st totalBonded)
    (hplain : st.vestingAccount cfg.coinomicsModule = none)
    (hstill : (endBlocker cfg block st).modules.params.enableCoinomics = true) :
    (endBlocker cfg block st).modules.prevBlockTS = block.unixMilli := by
  have hcap : ¬ Capped block st := by
    intro hcapped
    rw [hcapped.disabled cfg] at hstill
    cases hstill
  rw [endBlocker_uncapped henabled hprev hbonded hcap hmint]
  exact prevBlockTS_allocate hplain _ _ _

/-! ## Runs -/

/-- The store, and the time of the block before if the module was enabled in it to its end. -/
abbrev Tracked := Store State × Option Int

def trackedStep (cfg : Config) (s : Tracked) (input : BlockInput) : Tracked :=
  let st := input.between s.1
  let st' := endBlocker cfg input.block st
  (st', if st.modules.params.enableCoinomics && st'.modules.params.enableCoinomics then
    some input.block.unixMilli else none)

/-- The reward for the time since the module last ran; none in the first block after an activation.
-/
def due (block : Block) (st : Store State) (since : Option Int) : Nat :=
  if st.modules.params.enableCoinomics then since.elim 0 (rewardSince block st) else 0

def MintsDue (cfg : Config) (s : Tracked) (input : BlockInput) : Prop :=
  (endBlocker cfg input.block (input.between s.1)).bank.supply =
    (input.between s.1).bank.supply + Tally.single (input.between s.1).modules.params.mintDenom
      (due input.block (input.between s.1) s.2)

/-- Only the module itself writes its timestamp, and no block is at the origin of time. -/
structure NotReactivated (cfg : Config) (s : Tracked) (input : BlockInput) : Prop where
  disabled : s.1.modules.params.enableCoinomics = false → s.1.modules.prevBlockTS ≠ 0 →
    (input.between s.1).modules.params.enableCoinomics = false
  timestamp : (input.between s.1).modules.prevBlockTS = s.1.modules.prevBlockTS
  blockTime : input.block.unixMilli ≠ 0
  /-- A block with unknown bonded tokens or a negative reward does not note its time. -/
  earned : ∀ ts, s.2 = some ts → (input.between s.1).modules.params.enableCoinomics = true →
    ∃ totalBonded, input.block.totalBondedTokens = .ok totalBonded ∧
      0 ≤ blockMint (input.between s.1).modules.params ts input.block.unixMilli input.block.year
        totalBonded
  moduleAccount : (input.between s.1).vestingAccount cfg.coinomicsModule = none

/-- How the stored timestamp and the block before go together. -/
inductive Follows : Tracked → Prop
  | fresh {st : Store State} (hts : st.modules.prevBlockTS = 0) : Follows (st, none)
  | running {st : Store State} (hts : st.modules.prevBlockTS ≠ 0) :
      Follows (st, some st.modules.prevBlockTS)
  | stopped {st : Store State} (hdisabled : st.modules.params.enableCoinomics = false) :
      Follows (st, none)

variable {s : Tracked} {input : BlockInput}

theorem Follows.step_disabled
    (hdisabled : (input.between s.1).modules.params.enableCoinomics = false) :
    MintsDue cfg s input ∧ Follows (trackedStep cfg s input) := by
  constructor
  · rw [MintsDue, due, endBlocker_disabled hdisabled, hdisabled]
    simp
  · simp only [trackedStep, endBlocker_disabled hdisabled, hdisabled, Bool.false_and]
    exact .stopped hdisabled

theorem Follows.step_first {st : Store State}
    (henabled : (input.between st).modules.params.enableCoinomics = true)
    (hts : (input.between st).modules.prevBlockTS = 0) (htime : input.block.unixMilli ≠ 0) :
    MintsDue cfg (st, none) input ∧ Follows (trackedStep cfg (st, none) input) := by
  constructor
  · rw [MintsDue, due, endBlocker_first henabled hts]
    simp
  · simp only [trackedStep, endBlocker_first henabled hts, henabled]
    exact .running htime

theorem Follows.step_running {st : Store State}
    (henabled : (input.between st).modules.params.enableCoinomics = true)
    (hprev : st.modules.prevBlockTS ≠ 0)
    (hinput : NotReactivated cfg (st, some st.modules.prevBlockTS) input) :
    MintsDue cfg (st, some st.modules.prevBlockTS) input ∧
      Follows (trackedStep cfg (st, some st.modules.prevBlockTS) input) := by
  have hts := hinput.timestamp
  have hprev' : (input.between st).modules.prevBlockTS ≠ 0 := hts ▸ hprev
  constructor
  · rw [MintsDue, due, if_pos henabled, Option.elim_some, ← hts]
    exact supply_endBlocker_later henabled hprev'
  · obtain ⟨totalBonded, hbonded, hmint⟩ := hinput.earned _ rfl henabled
    rw [← hts] at hmint
    simp only [trackedStep, henabled, Bool.true_and]
    split
    · rename_i hstill
      have hnoted := prevBlockTS_endBlocker_later henabled hprev' hbonded hmint hinput.moduleAccount
        hstill
      have hrunning := Follows.running (hnoted ▸ hinput.blockTime)
      rw [hnoted] at hrunning
      exact hrunning
    · rename_i hstopped
      exact .stopped (by simpa using hstopped)

theorem Follows.step (h : Follows s) (hinput : NotReactivated cfg s input) :
    MintsDue cfg s input ∧ Follows (trackedStep cfg s input) := by
  cases henabled : (input.between s.1).modules.params.enableCoinomics with
  | false => exact step_disabled henabled
  | true =>
    cases h with
    | fresh hts => exact step_first henabled (hinput.timestamp.trans hts) hinput.blockTime
    | running hts => exact step_running henabled hts hinput
    | @stopped st hdisabled =>
      -- a module that is enabled now noted no block before it was disabled
      have hts : st.modules.prevBlockTS = 0 := by
        by_contra hts
        have hstill := hinput.disabled hdisabled hts
        rw [henabled] at hstill
        cases hstill
      exact step_first henabled (hinput.timestamp.trans hts) hinput.blockTime

/-- In every run in which the module is not enabled again and no reward is negative, every block
mints the reward for the time since the block before, the first one nothing. -/
theorem mintsDue_of_run (cfg : Config) (st : Store State) (inputs : List BlockInput)
    (hst : st.modules.prevBlockTS = 0)
    (hinputs : Run.Along (trackedStep cfg) (NotReactivated cfg) (st, none) inputs) :
    Run.Along (trackedStep cfg) (MintsDue cfg) (st, none) inputs := by
  exact Run.along_of_invariant (fun _ _ hinput hs => hs.step hinput) (Follows.fresh hst) hinputs

def belowCap : Store State :=
  { nearCap with modules := ⟨⟨.islm, 78 * 10 ^ 17, true⟩, 0, some ⟨.islm, 10000⟩⟩ }

def setEnabled (enabled : Bool) (st : Store State) : Store State :=
  { st with modules := { st.modules with
      params := { st.modules.params with enableCoinomics := enabled } } }

theorem yearLater_mintsDue :
    Run.Along (trackedStep coinomicsConfig) (MintsDue coinomicsConfig) (belowCap, none)
      [firstBlock, yearLater, ⟨setEnabled false, ⟨31536002000, 2023, .ok 1000⟩⟩] := by
  refine mintsDue_of_run coinomicsConfig belowCap _ rfl ⟨⟨fun h _ => h, rfl, by decide, nofun, rfl⟩,
    ⟨fun h _ => h, rfl, by decide, fun ts hts _ => ⟨1000, rfl, ?_⟩, rfl⟩,
    ⟨fun _ _ => rfl, rfl, by decide, nofun, ?_⟩, trivial⟩
  · obtain rfl : 1000 = ts := Option.some.inj hts
    decide +kernel
  · exact Option.isNone_iff_eq_none.mp (by decide +kernel)

def disabledYear : List BlockInput :=
  [firstBlock, ⟨setEnabled false, ⟨2000, 2022, .ok 1000⟩⟩, ⟨setEnabled true, yearLater.block⟩]

def setCoefficient (rewardCoefficient : Int) (st : Store State) : Store State :=
  { st with modules := { st.modules with
      params := { st.modules.params with rewardCoefficient := rewardCoefficient } } }

/-- The reward of the second block is negative. -/
def negativeYear : List BlockInput :=
  [firstBlock, ⟨setCoefficient (-78 * 10 ^ 17), yearLater.block⟩,
    ⟨setCoefficient (78 * 10 ^ 17), ⟨63071999000, 1971, .ok 1000⟩⟩]

theorem not_mintsDue {inputs : List BlockInput} {s : Tracked} {input : BlockInput}
    (h : Run.Along (trackedStep cfg) (MintsDue cfg) (st, none) inputs → MintsDue cfg s input)
    (hislm : (endBlocker cfg input.block (input.between s.1)).bank.supply.get .islm ≠
      ((input.between s.1).bank.supply + Tally.single (input.between s.1).modules.params.mintDenom
        (due input.block (input.between s.1) s.2)).get .islm) :
    ¬ Run.Along (trackedStep cfg) (MintsDue cfg) (st, none) inputs :=
  fun hmints => hislm (congrArg (fun coins : Coins => coins.get .islm) (h hmints))

theorem disabledYear_minted :
    ((Run.after (trackedStep coinomicsConfig) (belowCap, none) disabledYear).1.bank.supply.get
          .islm = 1078 ∧
      ¬ Run.Along (trackedStep coinomicsConfig) (MintsDue coinomicsConfig) (belowCap, none)
        disabledYear) ∧
    (Run.after (trackedStep coinomicsConfig) (belowCap, none) negativeYear).1.bank.supply.get
        .islm = 1156 ∧
      ¬ Run.Along (trackedStep coinomicsConfig) (MintsDue coinomicsConfig) (belowCap, none)
        negativeYear := by
  exact ⟨⟨by decide +kernel, not_mintsDue (fun h => h.2.2.1) (by decide +kernel)⟩,
    by decide +kernel, not_mintsDue (fun h => h.2.2.1) (by decide +kernel)⟩

end Haqq.Coinomics
