import Haqq.LiquidVesting.Effects
import Haqq.Vesting.Grants
import Haqq.Lib.Run

/-!
# Stored vesting accounts are valid

Accounts stay valid in runs of all messages that change them, as long as the times that messages ask
for fit into an `int64` and no clawback and no liquidation empties an account: `ValidateBasic`
bounds neither the number nor the lengths of the periods, and no handler looks at what remains.

* `SoundState`: the schedules of all accounts and liquid tokens are ordered and without overflow.
  Liquidations, redemptions and transfers keep this without a condition (`SoundState.token`).
* `IntactState`: every account has coins, none of them delegated while it vests.
* `vestingAccount_valid_of_run`: along a run of safe messages every stored account passes
  `Validate`.
* `vestingAccount_invalid`: a grant that overflows, a clawback before anything has vested and a
  liquidation of everything each store an account that `Validate` refuses.
-/

namespace Haqq.LiquidVesting

open Lib Lib.Schedule Vesting Function

variable {S : Type} {cfg : Config S} {st st' : ChainState S}

inductive AccountMsg
  | create (msg : MsgGrant)
  | convertInto (msg : MsgGrant)
  | clawback (funder addr : Address) (destAddress : Option Address)
  | token (msg : TokenMsg)

def AccountMsg.handle (cfg : Config S) : AccountMsg → ModuleM S Unit
  | create msg => do
    ensure (msg.validateBasic = true) .invalidRequest
    createClawbackVestingAccount cfg msg
  | convertInto msg => do
    ensure (msg.validateBasic = true) .invalidRequest
    convertIntoVestingAccount cfg msg
  | clawback funder addr destAddress => Vesting.clawback cfg funder addr destAddress
  | token msg => msg.handle cfg

def accountStep (cfg : Config S) (st : ChainState S) (tx : Tx AccountMsg) : ChainState S :=
  deliver (tx.msg.handle (cfg.atTime tx.blockTime)) st

structure SoundDenom (lo hi : Int) (denom : LiquidDenom) : Prop where
  periods : SoundPeriods lo hi denom.startTime denom.lockupPeriods
  endTime : denom.endTime = denom.startTime + duration denom.lockupPeriods

structure SoundState (lo hi : Int) (st : ChainState S) : Prop where
  accounts : ∀ addr va, st.vestingAccount addr = some va → Sound lo hi va
  denoms : ∀ id denom, st.modules.liquidVesting.denoms id = some denom → SoundDenom lo hi denom

def IntactState (st : ChainState S) : Prop :=
  ∀ addr va, st.vestingAccount addr = some va → Intact va

/-- The times of grants are in range, a clawback finds nothing to take or leaves something that is
released after the start, and a liquidation does not take all coins of the account. -/
def AccountMsg.Safe (st : ChainState S) (tx : Tx AccountMsg) : Prop :=
  match tx.msg with
  | create msg => msg.InRange
  | convertInto msg => msg.InRange
  | clawback _ addr _ => ∀ va, st.vestingAccount addr = some va →
      va.getVestingCoins tx.blockTime = some 0 ∨ Retains va tx.blockTime
  | token (.liquidate liquidateFrom _ amount) => ∀ va, st.vestingAccount liquidateFrom = some va →
      va.originalVesting ≠ amount.toCoins
  | token _ => True

/-! ## Sound schedules -/

variable {lo hi : Int} {va' : ClawbackVestingAccount}

theorem SoundState.accountEffect
    {change : Option ClawbackVestingAccount → ClawbackVestingAccount → Prop} {addr : Address}
    (h : SoundState lo hi st) (heffect : AccountEffect change addr st st' va')
    (hsound : Sound lo hi va') : SoundState lo hi st' where
  accounts a va hva := by
    by_cases ha : a = addr
    · subst ha
      rw [heffect.account'] at hva
      cases hva
      exact hsound
    · exact h.accounts a va (by rwa [heffect.kept.vesting a (by simpa using ha)] at hva)
  denoms := by
    rw [heffect.modules]
    exact h.denoms

theorem SoundState.grant {msg : MsgGrant} {mergeStart : ClawbackVestingAccount → Int}
    (h : SoundState 0 maxInt64 st) (hchecked : msg.Checked)
    (heffect : AccountEffect (msg.change mergeStart) msg.toAddress st st' va')
    (hmerge : ∀ va, Sound 0 maxInt64 va → 0 ≤ mergeStart va ∧ mergeStart va ≤ msg.startTime) :
    SoundState 0 maxInt64 st' := by
  refine h.accountEffect heffect ?_
  exact grant_sound window_int64 heffect.change (h.accounts _) hchecked.lockup hchecked.vesting
    hchecked.pos fun va hva => hmerge va (h.accounts _ va hva)

variable {diff : Periods}

theorem SoundState.liquidate (w : Window lo hi) {liquidateFrom liquidateTo : Address}
    {amount : Coin} {va : ClawbackVestingAccount} (h : SoundState lo hi st)
    (heffect : LiquidateEffect cfg liquidateFrom liquidateTo amount st st' va va' diff) :
    SoundState lo hi st' := by
  have hva := h.accounts _ va heffect.account
  have hva' := heffect.liquidates.sound hva
  obtain ⟨_, hsound⟩ := heffect.liquidates.soundPeriods w hva
  refine ⟨fun a va₁ hva₁ => ?_, fun id denom hdenom => ?_⟩
  · by_cases ha : a = liquidateFrom
    · subst ha
      rw [heffect.account'] at hva₁
      cases hva₁
      exact hva'
    · exact h.accounts a va₁ (by rwa [heffect.kept.vesting a (by simpa using ha)] at hva₁)
  · rw [heffect.denoms] at hdenom
    by_cases hid : id = st.modules.liquidVesting.denomCounter
    · subst hid
      rw [update_self] at hdenom
      cases hdenom
      have hnonneg := hsound.ordered.duration_nonneg
      have hlow := hsound.low
      refine ⟨hsound, ?_⟩
      simp only [liquidatedDenom, newDenom]
      rw [totalLength_eq, int64_add_int64, w.int64_eq (by omega) hsound.high]
    · rw [update_of_ne hid] at hdenom
      exact h.denoms id denom hdenom

variable {amount : Nat} {redeemFrom redeemTo : Address} {id : Nat} {denom : LiquidDenom}
  {decreased : Periods}

theorem RedeemEffect.soundPeriods (h : SoundState lo hi st)
    (heffect : RedeemEffect cfg redeemFrom redeemTo id amount st st' denom decreased diff) :
    SoundDenom lo hi { denom with lockupPeriods := decreased } ∧
      SoundDenom lo hi { denom with lockupPeriods := diff } ∧
      Fits lo hi denom.startTime diff (Tally.single denom.originalDenom amount) := by
  have hdenom := h.denoms id denom heffect.stored
  obtain ⟨hsplits, htotal, _⟩ := subtractAmountFromPeriods_spec heffect.split
  have hdiff := hdenom.periods.congr hsplits.lengths_right
  refine ⟨⟨hdenom.periods.congr hsplits.lengths_left, ?_⟩, ⟨hdiff, ?_⟩, hdiff.ordered, hdiff.low,
    hdiff.high, htotal⟩
  · rw [duration_congr hsplits.lengths_left, hdenom.endTime]
  · rw [duration_congr hsplits.lengths_right, hdenom.endTime]

theorem SoundState.redeem (w : Window lo hi) (h : SoundState lo hi st)
    (heffect : RedeemEffect cfg redeemFrom redeemTo id amount st st' denom decreased diff) :
    SoundState lo hi st' := by
  obtain ⟨hdecreased, hdiff, hfits⟩ := heffect.soundPeriods h
  refine ⟨fun a va hva => ?_, fun id' denom' hdenom' => ?_⟩
  · rcases heffect.accounts with ⟨_, hkept⟩ | ⟨_, hkept, funder, va', hgrant, hva'⟩
    · exact h.accounts a va (by rwa [hkept.vesting a (Set.notMem_empty a)] at hva)
    · by_cases ha : a = redeemTo
      · subst ha
        rw [hva'] at hva
        cases hva
        have hlow := hfits.low
        have hstart := hfits.le_hi
        refine grant_sound w hgrant (h.accounts a) hfits
          ⟨by simp, hlow, by simpa using hstart, by simp⟩ (.inl hdiff.periods.duration_pos) ?_
        intro va₀ hva₀
        have := (h.accounts a va₀ hva₀).low
        exact ⟨by omega, min_le_left _ _⟩
      · exact h.accounts a va (by rwa [hkept.vesting a (by simpa using ha)] at hva)
  · rw [heffect.denoms] at hdenom'
    by_cases hid : id' = id
    · subst hid
      rw [update_self] at hdenom'
      split at hdenom'
      · cases hdenom'
      · cases hdenom'
        exact hdecreased
    · rw [update_of_ne hid] at hdenom'
      exact h.denoms id' denom' hdenom'

theorem SoundState.token (w : Window lo hi) {msg : TokenMsg} (h : SoundState lo hi st)
    (heffect : TokenEffect cfg st st' msg) : SoundState lo hi st' := by
  cases heffect with
  | liquidate _ heffect => exact h.liquidate w heffect
  | redeem _ heffect => exact h.redeem w heffect
  | transfer kept _ modules =>
    refine ⟨fun a va hva => h.accounts a va ?_, modules ▸ h.denoms⟩
    rwa [kept.vesting a (Set.notMem_empty a)] at hva

/-! ## Accounts with coins -/

theorem IntactState.accountEffect
    {change : Option ClawbackVestingAccount → ClawbackVestingAccount → Prop} {addr : Address}
    (h : IntactState st) (heffect : AccountEffect change addr st st' va') (hintact : Intact va') :
    IntactState st' := by
  intro a va hva
  by_cases ha : a = addr
  · subst ha
    rw [heffect.account'] at hva
    cases hva
    exact hintact
  · exact h a va (by rwa [heffect.kept.vesting a (by simpa using ha)] at hva)

theorem IntactState.liquidate {liquidateFrom liquidateTo : Address} {amount : Coin}
    {va : ClawbackVestingAccount} (h : IntactState st)
    (heffect : LiquidateEffect cfg liquidateFrom liquidateTo amount st st' va va' diff)
    (hleft : va.originalVesting ≠ amount.toCoins) : IntactState st' := by
  intro a va₁ hva₁
  by_cases ha : a = liquidateFrom
  · subst ha
    rw [heffect.account'] at hva₁
    cases hva₁
    exact heffect.liquidates.intact (h a va heffect.account) hleft
  · exact h a va₁ (by rwa [heffect.kept.vesting a (by simpa using ha)] at hva₁)

theorem IntactState.redeem (h : IntactState st) (hpos : 0 < amount)
    (heffect : RedeemEffect cfg redeemFrom redeemTo id amount st st' denom decreased diff) :
    IntactState st' := by
  intro a va hva
  rcases heffect.accounts with ⟨_, hkept⟩ | ⟨_, hkept, funder, va', hgrant, hva'⟩
  · exact h a va (by rwa [hkept.vesting a (Set.notMem_empty a)] at hva)
  · by_cases ha : a = redeemTo
    · subst ha
      rw [hva'] at hva
      cases hva
      exact grant_intact hgrant (Tally.single_ne_zero hpos)
    · exact h a va (by rwa [hkept.vesting a (by simpa using ha)] at hva)

theorem IntactState.token {msg : TokenMsg} {now : Int} (h : IntactState st)
    (hsafe : AccountMsg.Safe st ⟨now, .token msg⟩) (heffect : TokenEffect cfg st st' msg) :
    IntactState st' := by
  cases heffect with
  | liquidate _ heffect => exact h.liquidate heffect (hsafe _ heffect.account)
  | redeem hpos heffect => exact h.redeem hpos heffect
  | transfer kept _ modules =>
    exact fun a va hva => h a va (by rwa [kept.vesting a (Set.notMem_empty a)] at hva)

/-! ## Runs -/

/-- What the messages keep when they are safe. -/
structure ValidState (st : ChainState S) : Prop where
  sound : SoundState 0 maxInt64 st
  intact : IntactState st

theorem ValidState.grant {msg : MsgGrant} {mergeStart : ClawbackVestingAccount → Int}
    (h : ValidState st) (hchecked : msg.Checked)
    (heffect : AccountEffect (msg.change mergeStart) msg.toAddress st st' va')
    (hmerge : ∀ va, Sound 0 maxInt64 va → 0 ≤ mergeStart va ∧ mergeStart va ≤ msg.startTime) :
    ValidState st' :=
  ⟨h.sound.grant hchecked heffect hmerge,
    h.intact.accountEffect heffect (grant_intact heffect.change hchecked.coins)⟩

theorem ValidState.step {tx : Tx AccountMsg} (hsafe : AccountMsg.Safe st tx) (h : ValidState st) :
    ValidState (accountStep cfg st tx) := by
  unfold accountStep
  rcases deliver_cases (tx.msg.handle (cfg.atTime tx.blockTime)) st with hkeep | hrun
  · rw [hkeep]
    exact h
  generalize deliver (tx.msg.handle (cfg.atTime tx.blockTime)) st = st' at hrun
  obtain ⟨now, msg⟩ := tx
  cases msg with
  | create msg =>
    simp only [AccountMsg.handle, run_bind_ok, ensure_then] at hrun
    obtain ⟨hbasic, hrun⟩ := hrun
    obtain ⟨hcoins, va', heffect⟩ := createClawbackVestingAccount_effect hrun
    exact h.grant (MsgGrant.checked hbasic hcoins hsafe) heffect fun va _ => ⟨hsafe.1, le_rfl⟩
  | convertInto msg =>
    simp only [AccountMsg.handle, run_bind_ok, ensure_then] at hrun
    obtain ⟨hbasic, hrun⟩ := hrun
    obtain ⟨hcoins, va', heffect⟩ := convertIntoVestingAccount_effect hrun
    refine h.grant (MsgGrant.checked hbasic hcoins hsafe) heffect fun va hva => ?_
    have hstart := hsafe.1
    have hlow := hva.low
    exact ⟨by omega, min_le_left _ _⟩
  | clawback funder addr destAddress =>
    rcases clawback_effect hrun with rfl | ⟨va', heffect⟩
    · exact h
    · have hbefore := fun va hva => And.intro (h.sound.accounts addr va hva) (h.intact addr va hva)
      exact ⟨h.sound.accountEffect heffect
          (clawbackChange_sound window_int64 heffect.change hsafe (h.sound.accounts addr)),
        h.intact.accountEffect heffect
          (clawbackChange_intact window_int64 heffect.change hsafe hbefore)⟩
  | token msg =>
    have heffect := TokenMsg.effect hrun
    exact ⟨h.sound.token window_int64 heffect, h.intact.token hsafe heffect⟩

structure Fresh (st : ChainState S) : Prop where
  accounts : ∀ addr, st.vestingAccount addr = none
  denoms : ∀ id, st.modules.liquidVesting.denoms id = none

theorem Fresh.validState (h : Fresh st) : ValidState st where
  sound := ⟨fun addr va hva => by simp [h.accounts] at hva,
    fun id denom hdenom => by simp [h.denoms] at hdenom⟩
  intact addr va hva := by simp [h.accounts] at hva

/-- In every run of messages whose times fit, whose clawbacks leave something to release and whose
liquidations leave coins, all clawback vesting accounts pass their own validation. -/
theorem vestingAccount_valid_of_run (cfg : Config S) (st : ChainState S)
    (txs : List (Tx AccountMsg)) (hst : Fresh st)
    (hsafe : Run.Along (accountStep cfg) AccountMsg.Safe st txs) (addr : Address)
    (va : ClawbackVestingAccount)
    (hva : (Run.after (accountStep cfg) st txs).vestingAccount addr = some va) :
    va.validate = .ok () ∧ 0 ≤ va.startTime ∧
      va.startTime + duration va.lockupPeriods ≤ va.endTime ∧
      va.startTime + duration va.vestingPeriods ≤ va.endTime ∧ va.endTime < 2 ^ 63 := by
  have hvalid := Run.invariant (fun _ _ hsafe => ValidState.step hsafe) hst.validState hsafe
  have hintact := hvalid.intact addr va hva
  have hva := hvalid.sound.accounts addr va hva
  have hlow := hva.low
  have hstart := hva.start_lt_end
  have hhigh := hva.high
  simp only [maxInt64] at hhigh
  exact ⟨hva.validate_ok window_int64 (by omega) hintact, hlow, hva.lockupEnd,
    hva.vestingEnd, by omega⟩

def funded : ChainState Unit := genesis.setBank (genesis.bank.mint 1 (Tally.single .islm 100))

def tenSeconds : MsgGrant := ⟨1, 2, 0, [⟨10, Tally.single .islm 10⟩], [], false⟩

def lifecycle : List (Tx AccountMsg) :=
  [⟨3, .create tenSeconds⟩, ⟨5, .token (.liquidate 2 3 ⟨.islm, 4⟩)⟩,
    ⟨6, .token (.redeem 3 2 ⟨.liquid 0, 2⟩)⟩]

theorem funded_fresh : Fresh funded where
  accounts addr := by
    simp only [Store.vestingAccount, vestingOf, funded, genesis, Store.setBank_accounts]
    split <;> rfl
  denoms _ := rfl

theorem lifecycle_safe : Run.Along (accountStep localConfig) AccountMsg.Safe funded lifecycle := by
  refine ⟨⟨by decide, by decide, by decide⟩, fun va hva => ?_, trivial, trivial⟩
  have hleft : ((accountStep localConfig funded ⟨3, .create tenSeconds⟩).vestingAccount 2).all
      (fun va => decide (va.originalVesting ≠ (⟨.islm, 4⟩ : Coin).toCoins)) = true := by
    decide +kernel
  rw [hva] at hleft
  simpa using hleft

theorem lifecycle_valid :
    ((Run.after (accountStep localConfig) funded lifecycle).vestingAccount 2).isSome = true ∧
      ∀ va, (Run.after (accountStep localConfig) funded lifecycle).vestingAccount 2 = some va →
        va.validate = .ok () ∧ 0 ≤ va.startTime ∧
          va.startTime + duration va.lockupPeriods ≤ va.endTime ∧
          va.startTime + duration va.vestingPeriods ≤ va.endTime ∧ va.endTime < 2 ^ 63 :=
  ⟨by decide +kernel, fun va => vestingAccount_valid_of_run localConfig funded lifecycle
    funded_fresh lifecycle_safe 2 va⟩

def tenSecondsVesting : MsgGrant := ⟨1, 2, 0, [], [⟨10, Tally.single .islm 10⟩], false⟩

def overflowing : MsgGrant :=
  ⟨1, 2, 0, [⟨2 ^ 63 - 1, Tally.single .islm 5⟩, ⟨1, Tally.single .islm 5⟩], [], false⟩

def validateAfter (txs : List (Tx AccountMsg)) : Option (Except String Unit) :=
  ((Run.after (accountStep localConfig) funded txs).vestingAccount 2).map (·.validate)

theorem vestingAccount_invalid :
    overflowing.validateBasic = true ∧ tenSecondsVesting.validateBasic = true ∧
      validateAfter [⟨3, .create overflowing⟩] =
        some (.error "vesting start-time must be before end-time") ∧
      validateAfter [⟨3, .create tenSecondsVesting⟩, ⟨5, .clawback 1 2 none⟩] =
        some (.error "vesting start-time must be before end-time") ∧
      validateAfter [⟨3, .create tenSeconds⟩, ⟨5, .token (.liquidate 2 3 ⟨.islm, 10⟩)⟩] =
        some (.error "invalid coins: ") := by
  decide +kernel

end Haqq.LiquidVesting
