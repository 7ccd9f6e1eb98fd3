import Haqq.Chain.AddressText
import Haqq.Precompiles.Authority

/-!
# Events of the liquid precompile

`liquidate` and `redeem` with the logs they emit (`tx.go`, `types.go` and `events.go`).  The
addresses of the message are in Bech32; they are read with `AccAddressFromBech32` for the keeper,
but with `HexToAddress` for the receiver of the event.

* `Call.run_ok` relates a call to the keeper's message and the emitted log.
* `named_iff`: when the log names the parties of the call.
-/

namespace Haqq.Precompiles.LiquidEvents

open Lib Evm

structure TextMsg where
  sender : List Char
  receiver : List Char
  amount : Coin

def newMsg (sender receiver : Address) (amount : Coin) : TextMsg :=
  ⟨accAddressString sender, accAddressString receiver, amount⟩

def newLiquidateMsg (sender receiver : Address) (amount : Uint256) : TextMsg :=
  newMsg sender receiver ⟨.islm, amount.val⟩

def newRedeemMsg (sender receiver : Address) (denom : Denom) (amount : Uint256) : TextMsg :=
  newMsg sender receiver ⟨denom, amount.val⟩

def parseAddress (text : List Char) : CallM Address :=
  ofOption .invalidAddress ((accAddressFromBech32 text).map bytesToAddress)

theorem parseAddress_string (a : Address) : parseAddress (accAddressString a) = pure a := by
  rw [parseAddress, accAddressFromBech32_string, Option.map_some, bytesToAddress_addressBytes]
  rfl

/-- `contractAddr` is the contract of a liquid token. -/
structure EventConfig where
  address : Address
  liquidateID : Hash
  redeemID : Hash
  denomText : Denom → Bytes
  contractAddr : Denom → List Char

def makeTopic (a : Address) : Hash := Fin.castLE (by decide) a

def abiWord (n : Nat) : Bytes := BigEndian.ofNat 32 n

/-- Its length and its bytes up to a multiple of 32. -/
def abiText (text : Bytes) : Bytes :=
  abiWord text.length ++ text ++ List.replicate ((32 - text.length % 32) % 32) 0

variable (ev : EventConfig)

def emitLiquidateEvent (sender receiver erc20Contract : Address) (amount : Nat) : LogEntry where
  address := ev.address
  topics := [ev.liquidateID, makeTopic sender, makeTopic receiver]
  data := abiWord amount ++ abiWord erc20Contract.val

def emitRedeemEvent (sender receiver : Address) (denom : Denom) (amount : Nat) : LogEntry where
  address := ev.address
  topics := [ev.redeemID, makeTopic sender, makeTopic receiver]
  data := abiWord 64 ++ abiWord amount ++ abiText (ev.denomText denom)

def abiArgument (data : Bytes) (i : Nat) : Nat := BigEndian.toNat ((data.drop (32 * i)).take 32)

@[simp] theorem length_abiWord (n : Nat) : (abiWord n).length = 32 := BigEndian.length_ofNat 32 n

theorem toNat_abiWord (amount : Uint256) : BigEndian.toNat (abiWord amount.val) = amount.val :=
  BigEndian.toNat_ofNat_of_lt amount.isLt

theorem abiArgument_zero (n : Nat) (rest : Bytes) :
    abiArgument (abiWord n ++ rest) 0 = BigEndian.toNat (abiWord n) := by
  rw [abiArgument, Nat.mul_zero, List.drop_zero, List.take_left' (length_abiWord n)]

theorem abiArgument_one (m n : Nat) (rest : Bytes) :
    abiArgument (abiWord m ++ abiWord n ++ rest) 1 = BigEndian.toNat (abiWord n) := by
  rw [abiArgument, List.append_assoc, List.drop_left' (length_abiWord m),
    List.take_left' (length_abiWord n)]

/-! ## Methods -/

variable (cfg : CallConfig) (origin caller : Address)

def mirrored {α : Type} (addrs : List Address) (x : SdkM α) :
    CallM (α × List BalanceChangeEntry) := do
  let before ← get
  let a ← keeper x
  let after ← get
  return (a, if caller = origin then []
    else addrs.dedup.flatMap fun addr =>
      balanceDelta addr (islmBalance before addr) (islmBalance after addr))

def liquidate (sender receiver : Address) (amount : Uint256) :
    CallM (List BalanceChangeEntry × LogEntry) := do
  let msg := newLiquidateMsg sender receiver amount
  let liquidateFrom ← parseAddress msg.sender
  let liquidateTo ← parseAddress msg.receiver
  Liquid.authorize cfg origin caller sender (.liquidate liquidateFrom liquidateTo msg.amount)
  let (minted, entries) ← mirrored origin caller [liquidateFrom]
    (LiquidVesting.msgLiquidate cfg.toConfig liquidateFrom liquidateTo msg.amount)
  return (entries, emitLiquidateEvent ev sender (hexToAddress msg.receiver)
    (hexToAddress (ev.contractAddr minted.denom)) minted.amount)

def redeem (sender receiver : Address) (denom : Denom) (amount : Uint256) :
    CallM (List BalanceChangeEntry × LogEntry) := do
  let msg := newRedeemMsg sender receiver denom amount
  let redeemFrom ← parseAddress msg.sender
  let redeemTo ← parseAddress msg.receiver
  Liquid.authorize cfg origin caller sender (.redeem redeemFrom redeemTo msg.amount)
  let (_, entries) ← mirrored origin caller [redeemFrom, redeemTo]
    (LiquidVesting.msgRedeem cfg.toConfig redeemFrom redeemTo msg.amount)
  return (entries, emitRedeemEvent ev sender (hexToAddress msg.receiver) msg.amount.denom
    msg.amount.amount)

inductive Call
  | liquidate (sender receiver : Address) (amount : Uint256)
  | redeem (sender receiver : Address) (denom : Denom) (amount : Uint256)

namespace Call

def sender : Call → Address
  | liquidate sender _ _ => sender
  | redeem sender _ _ _ => sender

def receiver : Call → Address
  | liquidate _ receiver _ => receiver
  | redeem _ receiver _ _ => receiver

def amount : Call → Uint256
  | liquidate _ _ amount => amount
  | redeem _ _ _ amount => amount

def run : Call → CallM (List BalanceChangeEntry × LogEntry)
  | liquidate sender receiver amount =>
    LiquidEvents.liquidate ev cfg origin caller sender receiver amount
  | redeem sender receiver denom amount =>
    LiquidEvents.redeem ev cfg origin caller sender receiver denom amount

def plain : Call → CallM (List BalanceChangeEntry)
  | liquidate sender receiver amount => Liquid.liquidate cfg origin caller sender receiver amount
  | redeem sender receiver denom amount =>
    Liquid.redeem cfg origin caller sender receiver denom amount

def amountIndex : Call → Nat
  | liquidate .. => 0
  | redeem .. => 1

def LogsParties (call : Call) (sender receiver : Address) (log : LogEntry) : Prop :=
  log.topics.tail = [makeTopic sender, makeTopic receiver] ∧
    abiArgument log.data call.amountIndex = call.amount.val

def Named (call : Call) (log : LogEntry) : Prop := call.LogsParties call.sender call.receiver log

end Call

variable {addrs : List Address} {entries : List BalanceChangeEntry} {call : Call} {log : LogEntry}

section

variable {ev cfg origin caller} {st st' : ChainState SdkState}

theorem run_mirrored_ok {α : Type} {x : SdkM α} {r : α × List BalanceChangeEntry} :
    (mirrored origin caller addrs x).run st = .ok r st' ↔
      x.run st = .ok r.1 st' ∧ r.2 = if caller = origin then []
        else addrs.dedup.flatMap fun addr =>
          balanceDelta addr (islmBalance st addr) (islmBalance st' addr) := by
  obtain ⟨a, entries⟩ := r
  simp only [mirrored, run_bind_ok, get_then, run_keeper_ok, run_pure_ok, Prod.mk.injEq]
  constructor
  · rintro ⟨a', _, hx, ⟨rfl, rfl⟩, rfl⟩
    exact ⟨hx, rfl⟩
  · rintro ⟨hx, rfl⟩
    exact ⟨a, st', hx, ⟨rfl, rfl⟩, rfl⟩

theorem run_mirrorBankBaseDeltas_ok {x : SdkM Unit} :
    (mirrorBankBaseDeltas origin caller addrs x).run st = .ok entries st' ↔
      (mirrored origin caller addrs x).run st = .ok ((), entries) st' := by
  rw [run_mirrored_ok]
  simp only [mirrorBankBaseDeltas, run_bind_ok, get_then, run_keeper_ok, run_pure_ok]
  constructor
  · rintro ⟨_, _, hx, rfl, rfl⟩
    exact ⟨hx, rfl⟩
  · rintro ⟨hx, rfl⟩
    exact ⟨(), st', hx, rfl, rfl⟩

theorem minted_amount {liquidateFrom liquidateTo : Address} {amount coin : Coin}
    (h : (LiquidVesting.msgLiquidate cfg.toConfig liquidateFrom liquidateTo amount).run st =
      .ok coin st') : coin.amount = amount.amount := by
  simp only [LiquidVesting.msgLiquidate, LiquidVesting.liquidate, run_bind_ok, run_pure_ok] at h
  iterate 14 obtain ⟨_, _, -, h⟩ := h
  rw [← h.1]

theorem logsParties_liquidate (sender receiver logged contract : Address) (amount : Uint256) :
    (Call.liquidate sender receiver amount).LogsParties sender logged
      (emitLiquidateEvent ev sender logged contract amount.val) :=
  ⟨rfl, (abiArgument_zero _ _).trans (toNat_abiWord amount)⟩

theorem logsParties_redeem (sender receiver logged : Address) (denom : Denom) (amount : Uint256) :
    (Call.redeem sender receiver denom amount).LogsParties sender logged
      (emitRedeemEvent ev sender logged denom amount.val) :=
  ⟨rfl, (abiArgument_one _ _ _).trans (toNat_abiWord amount)⟩

theorem Call.run_ok (h : (call.run ev cfg origin caller).run st = .ok (entries, log) st') :
    (call.plain cfg origin caller).run st = .ok entries st' ∧
      call.LogsParties call.sender 0 log := by
  cases call with
  | liquidate sender receiver amount =>
    simp only [Call.run, LiquidEvents.liquidate, newLiquidateMsg, newMsg, parseAddress_string,
      hexToAddress_accAddressString, pure_bind, run_bind_ok, run_pure_ok, Prod.mk.injEq] at h
    obtain ⟨_, mid, hauthorize, ⟨minted, _⟩, _, hmirrored, ⟨rfl, rfl⟩, rfl⟩ := h
    obtain ⟨hminted, hentries⟩ := run_mirrored_ok.mp hmirrored
    constructor
    · simp only [Call.plain, Liquid.liquidate, run_bind_ok]
      refine ⟨(), mid, hauthorize,
        run_mirrorBankBaseDeltas_ok.mpr (run_mirrored_ok.mpr ⟨?_, hentries⟩)⟩
      exact run_bind_ok.mpr ⟨minted, _, hminted, rfl⟩
    · rw [minted_amount hminted]
      exact logsParties_liquidate sender receiver 0 _ amount
  | redeem sender receiver denom amount =>
    simp only [Call.run, LiquidEvents.redeem, newRedeemMsg, newMsg, parseAddress_string,
      hexToAddress_accAddressString, pure_bind, run_bind_ok, run_pure_ok, Prod.mk.injEq] at h
    obtain ⟨_, mid, hauthorize, ⟨_, _⟩, _, hmirrored, ⟨rfl, rfl⟩, rfl⟩ := h
    constructor
    · simp only [Call.plain, Liquid.redeem, run_bind_ok]
      exact ⟨(), mid, hauthorize, run_mirrorBankBaseDeltas_ok.mpr hmirrored⟩
    · exact logsParties_redeem sender receiver 0 denom amount

theorem Call.exists_run_of_plain (ev : EventConfig)
    (h : (call.plain cfg origin caller).run st = .ok entries st') :
    ∃ log, (call.run ev cfg origin caller).run st = .ok (entries, log) st' := by
  cases call with
  | liquidate sender receiver amount =>
    simp only [Call.plain, Liquid.liquidate, run_bind_ok] at h
    obtain ⟨_, mid, hauthorize, hmirrored⟩ := h
    obtain ⟨hunit, hentries⟩ := run_mirrored_ok.mp (run_mirrorBankBaseDeltas_ok.mp hmirrored)
    obtain ⟨minted, _, hminted, hpure⟩ := run_bind_ok.mp hunit
    cases hpure
    simp only [Call.run, LiquidEvents.liquidate, newLiquidateMsg, newMsg, parseAddress_string,
      pure_bind, run_bind_ok, run_pure_ok, Prod.mk.injEq]
    exact ⟨_, (), mid, hauthorize, (minted, entries), _, run_mirrored_ok.mpr ⟨hminted, hentries⟩,
      ⟨rfl, rfl⟩, rfl⟩
  | redeem sender receiver denom amount =>
    simp only [Call.plain, Liquid.redeem, run_bind_ok] at h
    obtain ⟨_, mid, hauthorize, hmirrored⟩ := h
    simp only [Call.run, LiquidEvents.redeem, newRedeemMsg, newMsg, parseAddress_string,
      pure_bind, run_bind_ok, run_pure_ok, Prod.mk.injEq]
    exact ⟨_, (), mid, hauthorize, ((), entries), _, run_mirrorBankBaseDeltas_ok.mp hmirrored,
      ⟨rfl, rfl⟩, rfl⟩

theorem makeTopic_injective : Function.Injective makeTopic := Fin.castLE_injective (by decide)

theorem Call.receiver_of_named (h : (call.run ev cfg origin caller).run st = .ok (entries, log) st')
    (hnamed : call.Named log) : call.receiver = 0 := by
  obtain ⟨-, htopics, -⟩ := Call.run_ok h
  have hsame := hnamed.1.symm.trans htopics
  simp only [List.cons.injEq, and_true, true_and] at hsame
  exact makeTopic_injective hsame

/-- The log of a successful call carries what it should exactly if the receiver is the zero address,
which is what the log carries in any case. -/
theorem named_iff {call : Call} {entries : List BalanceChangeEntry} {log : LogEntry}
    (h : (call.run ev cfg origin caller).run st = .ok (entries, log) st') :
    call.Named log ↔ call.receiver = 0 := by
  refine ⟨Call.receiver_of_named h, fun hzero => ?_⟩
  rw [Call.Named, hzero]
  exact (Call.run_ok h).2

end

def eventConfig : EventConfig := ⟨2050, 1, 2, fun _ => [], fun _ => []⟩

def lockedConfig : CallConfig :=
  { callConfig with blockTime := 50, delegated_eq := sdkConfig.delegated_eq }

def lockedState : ChainState SdkState :=
  (sdkGenesis.setAccount 2 ⟨1, 0, .clawback 0
    { funderAddress := 3
      originalVesting := Tally.single .islm 10
      delegatedFree := 0
      delegatedVesting := 0
      startTime := 0
      endTime := 100
      lockupPeriods := [⟨100, Tally.single .islm 10⟩]
      vestingPeriods := [⟨0, Tally.single .islm 10⟩] }⟩).setBank
    (sdkGenesis.bank.mint 2 (Tally.single .islm 10))

theorem liquidate_to_zero_named : ∃ entries log st',
    ((Call.liquidate 2 0 4).run eventConfig lockedConfig 2 2).run lockedState =
      .ok (entries, log) st' ∧ (Call.liquidate 2 0 4).Named log := by
  obtain ⟨entries, st', hplain⟩ := exists_of_matches_ok
    (r := ((Call.liquidate 2 0 4).plain lockedConfig 2 2).run lockedState) (by decide +kernel)
  obtain ⟨log, hrun⟩ := Call.exists_run_of_plain eventConfig hplain
  exact ⟨entries, log, st', hrun, (named_iff hrun).mpr rfl⟩

theorem liquidate_receiver_not_named : ∃ entries log st',
    ((Call.liquidate 2 3 4).run eventConfig lockedConfig 2 2).run lockedState =
      .ok (entries, log) st' ∧ ¬ (Call.liquidate 2 3 4).Named log := by
  obtain ⟨entries, st', hplain⟩ := exists_of_matches_ok
    (r := ((Call.liquidate 2 3 4).plain lockedConfig 2 2).run lockedState) (by decide +kernel)
  obtain ⟨log, hrun⟩ := Call.exists_run_of_plain eventConfig hplain
  exact ⟨entries, log, st', hrun,
    fun hnamed => absurd (Call.receiver_of_named hrun hnamed) (by decide)⟩

end Haqq.Precompiles.LiquidEvents
