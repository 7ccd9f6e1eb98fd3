import Haqq.Evm.TxEvents
import Haqq.Lib.FinMap
import Haqq.Lib.Run

/-!
# Ethereum transactions from events

`rpc/types/events.go`: `ParseTxResult` finds the Ethereum transactions of a transaction in the
events of its result.  In the second of two formats every message has an event of two attributes
and, if it was executed, a second one that overrides it.  The two are paired by their positions.
-/

namespace Haqq.Rpc

open Lib Evm

inductive EventFormat
  | unknown
  | format1
  | format2
  deriving DecidableEq, Repr

structure ParsedTx where
  msgIndex : Nat
  hash : Hash
  /-- −1 means uninitialized. -/
  ethTxIndex : Int32
  gasUsed : UInt64
  failed : Bool
  deriving DecidableEq, Repr

def newParsedTx (msgIndex : Nat) : ParsedTx := ⟨msgIndex, 0, -1, 0, false⟩

structure ParsedTxs where
  txs : List ParsedTx
  txHashes : FinMap Hash Nat

inductive ParseError
  /-- "strconv.ParseUint: parsing %q: invalid syntax" -/
  | invalidSyntax (text : String)
  /-- "strconv.ParseUint: parsing %q: value out of range" -/
  | outOfRange (text : String)
  /-- An index out of range, or a message of another type. -/
  | panic
  deriving DecidableEq, Repr

def parseDigits (text : String) (bitSize : Nat) : List Char → Nat → Except ParseError Nat
  | [], n => .ok n
  | c :: rest, n =>
    if c.isDigit then
      if 10 * n + (c.toNat - '0'.toNat) < 2 ^ bitSize then
        parseDigits text bitSize rest (10 * n + (c.toNat - '0'.toNat))
      else .error (.outOfRange text)
    else .error (.invalidSyntax text)

def parseUint (text : String) (bitSize : Nat) : Except ParseError Nat :=
  if text = "" then .error (.invalidSyntax text) else parseDigits text bitSize text.toList 0

variable (texts : Texts)

def fillTxAttribute (tx : ParsedTx) (attr : TxAttribute) : Except ParseError ParsedTx :=
  if attr.key = attributeKeyEthereumTxHash then
    .ok { tx with hash := texts.hexToHash attr.value }
  else if attr.key = attributeKeyTxIndex then
    (parseUint attr.value 31).map fun txIndex => { tx with ethTxIndex := .ofNat txIndex }
  else if attr.key = attributeKeyTxGasUsed then
    (parseUint attr.value 64).map fun gasUsed => { tx with gasUsed := .ofNat gasUsed }
  else if attr.key = attributeKeyEthereumTxFailed then
    .ok { tx with failed := decide (attr.value ≠ "") }
  else .ok tx

def fillTxAttributes (tx : ParsedTx) (attrs : List TxAttribute) : Except ParseError ParsedTx :=
  attrs.foldlM (fillTxAttribute texts) tx

/-! ## Events -/

namespace ParsedTxs

variable (p : ParsedTxs)

def newTx (attrs : List TxAttribute) : Except ParseError ParsedTxs := do
  let tx ← fillTxAttributes texts (newParsedTx p.txs.length) attrs
  return ⟨p.txs ++ [tx], p.txHashes.set tx.hash p.txs.length⟩

def updateTx (eventIndex : Nat) (attrs : List TxAttribute) : Except ParseError ParsedTxs := do
  let tx ← fillTxAttributes texts (newParsedTx eventIndex) attrs
  match p.txs[eventIndex]? with
  | none => throw .panic
  | some old =>
    -- if the hash is different, the new one is indexed too
    return ⟨p.txs.set eventIndex tx,
      if tx.hash ≠ old.hash then p.txHashes.set tx.hash eventIndex else p.txHashes⟩

def getTxByHash (hash : Hash) : Option ParsedTx := do
  let idx ← p.txHashes.get hash
  p.txs[idx]?

def getTxByMsgIndex (i : Int) : Option ParsedTx :=
  if i < 0 ∨ p.txs.length ≤ i then none else p.txs[i.toNat]?

def getTxByTxIndex (txIndex : Int) : Option ParsedTx :=
  match p.txs with
  | [] => none
  | first :: _ => p.getTxByMsgIndex (txIndex - first.ethTxIndex.toInt)

end ParsedTxs

/-- The source has the event index one lower and increments it before its use. -/
structure ParseState where
  format : EventFormat
  eventIndex : Nat
  parsed : ParsedTxs

def ParseState.initial : ParseState := ⟨.unknown, 0, [], ∅⟩

def EventFormat.discover (format : EventFormat) (attrs : List TxAttribute) : EventFormat :=
  match format with
  | .unknown => if 2 < attrs.length then .format1 else .format2
  | format => format

/-- Of the older format there is one event for each message, of the newer one there are two. -/
def parseEvent (st : ParseState) (event : TxEvent) : Except ParseError ParseState :=
  if event.type ≠ eventTypeEthereumTx then .ok st
  else
    let format := st.format.discover event.attributes
    if event.attributes.length = 2 then
      (st.parsed.newTx texts event.attributes).map (⟨format, st.eventIndex, ·⟩)
    else if format = .format1 then
      (st.parsed.newTx texts event.attributes).map (⟨format, st.eventIndex + 1, ·⟩)
    else
      (st.parsed.updateTx texts st.eventIndex event.attributes).map
        (⟨format, st.eventIndex + 1, ·⟩)

structure ExecTxResult where
  code : UInt32
  gasUsed : Int64
  events : List TxEvent

inductive SdkMsg
  | ethereumTx (msg : MsgEthereumTx)
  | other (typeURL : String)

def fillGasUsed (gasUsed : UInt64) : List ParsedTx → List ParsedTx
  | [tx] => [{ tx with gasUsed := gasUsed }]
  | txs => txs

/-- A transaction that exceeds the gas limit of the block pays for the gas limits. -/
def failTxs : List ParsedTx → List SdkMsg → Except ParseError (List ParsedTx)
  | [], _ => .ok []
  | tx :: txs, .ethereumTx msg :: msgs =>
    (failTxs txs msgs).map ({ tx with failed := true, gasUsed := msg.data.gas } :: ·)
  | _ :: _, _ => .error .panic

def parseTxResult (result : ExecTxResult) (tx : Option (List SdkMsg)) :
    Except ParseError ParsedTxs := do
  let st ← result.events.foldlM (parseEvent texts) .initial
  let txs := fillGasUsed result.gasUsed.toUInt64 st.parsed.txs
  match tx with
  | some msgs =>
    if result.code ≠ 0 then
      let txs ← failTxs txs msgs
      return { st.parsed with txs := txs }
    else return { st.parsed with txs := txs }
  | none => return { st.parsed with txs := txs }

/-! ## Numbers -/

section

variable {text : String} {bitSize : Nat} {cs : List Char} {n : Nat}

theorem le_ofDigitChars (cs : List Char) (n : Nat) : n ≤ Nat.ofDigitChars 10 cs n := by
  induction cs generalizing n with
  | nil => exact Nat.le_refl n
  | cons c rest ih =>
    rw [Nat.ofDigitChars_cons]
    exact Nat.le_trans (by omega) (ih _)

theorem parseDigits_ok (hdigits : ∀ c ∈ cs, c.isDigit = true)
    (hsize : Nat.ofDigitChars 10 cs n < 2 ^ bitSize) :
    parseDigits text bitSize cs n = .ok (Nat.ofDigitChars 10 cs n) := by
  induction cs generalizing n with
  | nil => rfl
  | cons c rest ih =>
    rw [Nat.ofDigitChars_cons] at hsize ⊢
    rw [parseDigits, if_pos (hdigits c (by simp)),
      if_pos (Nat.lt_of_le_of_lt (le_ofDigitChars _ _) hsize)]
    exact ih (fun c hc => hdigits c (by simp [hc])) hsize

end

theorem parseUint_formatUint {n : UInt64} {bitSize : Nat} (hsize : n.toNat < 2 ^ bitSize) :
    parseUint (formatUint n) bitSize = .ok n.toNat := by
  have hdigits : ∀ c ∈ Nat.toDigits 10 n.toNat, c.isDigit = true := fun c hc =>
    Nat.isDigit_of_mem_toDigits (by decide) (by decide) hc
  have hlist : (formatUint n).toList = Nat.toDigits 10 n.toNat := by
    rw [formatUint, Nat.toString_eq_repr, Nat.repr_eq_ofList_toDigits, String.toList_ofList]
  have hvalue : Nat.ofDigitChars 10 (Nat.toDigits 10 n.toNat) 0 = n.toNat :=
    Nat.ofDigitChars_toDigits (by decide) (by decide)
  have hne : formatUint n ≠ "" := by
    intro hempty
    rw [hempty] at hlist
    exact Nat.toDigits_ne_nil hlist.symm
  rw [parseUint, if_neg hne, hlist, parseDigits_ok hdigits (by rwa [hvalue]), hvalue]

end Haqq.Rpc
