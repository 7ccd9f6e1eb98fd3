import Haqq.Evm.TxData

/-!
# The events of an Ethereum transaction

The ante handler emits one event per message, with the hash and the index in the block
(`app/ante/evm/12_emit_event.go`); the message server emits another one of the same type after the
execution (`x/evm/keeper/msg_server.go`).
-/

namespace Haqq.Evm

structure TxAttribute where
  key : String
  value : String
  deriving DecidableEq, Repr

structure TxEvent where
  type : String
  attributes : List TxAttribute
  deriving DecidableEq, Repr

def eventTypeEthereumTx : String := "ethereum_tx"

def eventTypeTxLog : String := "tx_log"

def attributeKeyEthereumTxHash : String := "ethereumTxHash"

def attributeKeyTxIndex : String := "txIndex"

def attributeKeyTxGasUsed : String := "txGasUsed"

def attributeKeyTxHash : String := "txHash"

def attributeKeyRecipient : String := "recipient"

def attributeKeyEthereumTxFailed : String := "ethereumTxFailed"

def attributeKeyTxLog : String := "txLog"

structure Texts where
  hex : Hash → String
  addressHex : Address → String
  hexToHash : String → Hash
  hexToHash_hex : ∀ hash, hexToHash (hex hash) = hash

def decimalTexts : Texts where
  hex hash := toString hash.val
  addressHex addr := toString addr.val
  hexToHash text := Fin.ofNat _ (Nat.ofDigitChars 10 text.toList 0)
  hexToHash_hex hash := by
    rw [Nat.toString_eq_repr, Nat.repr_eq_ofList_toDigits, String.toList_ofList,
      Nat.ofDigitChars_toDigits (by decide) (by decide)]
    exact Fin.ofNat_val_eq_self hash

def formatUint (n : UInt64) : String := toString n.toNat

/-- With the logs in their JSON form. -/
structure MsgEthereumTxResponse where
  gasUsed : UInt64
  vmError : String
  ret : Bytes
  hash : Hash
  logs : List String
  deriving DecidableEq, Repr

def MsgEthereumTxResponse.failed (response : MsgEthereumTxResponse) : Bool :=
  decide (response.vmError ≠ "")

variable (texts : Texts)

def txHashEvent (msg : MsgEthereumTx) (blockTxIndex msgIndex : UInt64) : TxEvent :=
  ⟨eventTypeEthereumTx, [⟨attributeKeyEthereumTxHash, texts.hex msg.hash⟩,
    ⟨attributeKeyTxIndex, formatUint (blockTxIndex + msgIndex)⟩]⟩

/-- The hash of the transaction is there if the context has its bytes. -/
def ethereumTxAttributes (msg : MsgEthereumTx) (txIndex : UInt64) (txHash : Option String)
    (response : MsgEthereumTxResponse) : List TxAttribute :=
  [⟨"amount", toString (msg.data.value.getD 0)⟩,
    ⟨attributeKeyEthereumTxHash, texts.hex response.hash⟩,
    ⟨attributeKeyTxIndex, formatUint txIndex⟩,
    ⟨attributeKeyTxGasUsed, formatUint response.gasUsed⟩] ++
  txHash.toList.map (fun hash => ⟨attributeKeyTxHash, hash⟩) ++
  msg.data.recipient.toList.map (fun addr => ⟨attributeKeyRecipient, texts.addressHex addr⟩) ++
  if response.failed then [⟨attributeKeyEthereumTxFailed, response.vmError⟩] else []

def ethereumTxEvents (msg : MsgEthereumTx) (txIndex : UInt64) (txHash : Option String)
    (response : MsgEthereumTxResponse) : List TxEvent :=
  [⟨eventTypeEthereumTx, ethereumTxAttributes texts msg txIndex txHash response⟩,
    ⟨eventTypeTxLog, response.logs.map fun log => ⟨attributeKeyTxLog, log⟩⟩,
    ⟨"message", [⟨"module", "evm"⟩,
      ⟨"sender", (msg.sender.map texts.addressHex).getD ""⟩,
      ⟨"txType", match msg.data.type with
        | .legacy .. => "0"
        | .accessList .. => "1"
        | .dynamicFee .. => "2"⟩]⟩]

end Haqq.Evm
