import Haqq.Lib.BigEndian
import Haqq.Rpc.EventRoundTrip

/-!
# The indexer of Ethereum transactions

`indexer/kv_indexer.go` writes two entries for every Ethereum message of a block: its result under
the hash, and the hash under the height and the number of the message in the block, counted over the
transactions that succeeded or failed as expected.  Keys are bytes with numbers in big endian.

What a block should be indexed as is said without the indexer: `TxSpec` is what happened to a
transaction, `Describes` how the bytes and the result of the transaction tell of it, and
`ChainBlock.messages` are the messages of a block with their numbers and gas.

* `Describes.indexedAs` is the loop over the messages of one transaction, `indexTxs_eq` that over
  the transactions of a block.
* `Consistent` holds of entries with distinct keys; `Consistent.get_txHashKey`, `.get_txIndexKey`
  and `.get_eq_none` read the database, `.first_last` its least and greatest keys.
* `indexed_of_run` is about any blocks, indexed in any order and any number of times.
-/

namespace Haqq.Rpc.Indexer

open Lib Evm

structure TxResult where
  height : Int
  txIndex : Nat
  msgIndex : Nat
  ethTxIndex : Int
  failed : Bool
  gasUsed : UInt64
  cumulativeGasUsed : UInt64
  deriving DecidableEq

structure LoggedResult extends ExecTxResult where
  log : String

structure DecodedTx where
  msgs : List SdkMsg
  /-- None for a type of transactions without options. -/
  extensionOptions : Option (List String)

structure Codec where
  texts : Texts
  txDecoder : Bytes → Option DecodedTx
  marshal : TxResult → Bytes
  unmarshal : Bytes → Option TxResult

structure Block where
  height : Int
  txs : List (Bytes × LoggedResult)

inductive IndexerError
  /-- "tx not found, hash: %s" -/
  | txNotFound (hash : Hash)
  /-- "tx not found, block: %d, eth-index: %d" -/
  | indexNotFound (blockNumber txIndex : Int)
  | unmarshal
  /-- "wrong tx index key length, expect: %d, got: %d" -/
  | wrongKeyLength (expect got : Nat)
  deriving DecidableEq

abbrev DB := FinMap Bytes Bytes

def uint64 (n : Int) : Nat := (n % 2 ^ 64).toNat

def int32 (n : Int) : Int := n.bmod (2 ^ 32)

def hashBytes (hash : Hash) : Bytes := BigEndian.ofNat 32 hash.val

/-- Of more than 32 bytes the last ones count. -/
def bytesToHash (bytes : Bytes) : Hash := Fin.ofNat _ (BigEndian.toNat bytes)

def txHashKey (hash : Hash) : Bytes := 1 :: hashBytes hash

def txIndexKey (blockNumber txIndex : Int) : Bytes :=
  2 :: (BigEndian.ofNat 8 (uint64 blockNumber) ++ BigEndian.ofNat 8 (uint64 txIndex))

def txIndexKeyLength : Nat := 1 + 8 + 8

def parseBlockNumberFromKey (key : Bytes) : Except IndexerError Int :=
  if key.length ≠ txIndexKeyLength then .error (.wrongKeyLength txIndexKeyLength key.length)
  else .ok (int64 (BigEndian.toNat ((key.drop 1).take 8)))

/-! ## Indexing -/

def contains (text part : String) : Bool := decide (part.toList <:+: text.toList)

def txSucessOrExpectedFailure (result : LoggedResult) : Bool :=
  result.code == 0 || contains result.log "out of gas in location: block gas meter; gasWanted:" ||
    contains result.log "failed to commit stateDB"

def isEthTx (tx : DecodedTx) : Bool :=
  tx.extensionOptions == some ["/ethermint.evm.v1.ExtensionOptionsEthereumTx"]

section

variable (c : Codec)

/-- The messages of a transaction that is not skipped. -/
def ethMsgs (tx : Bytes × LoggedResult) : Option (List SdkMsg) := do
  guard (txSucessOrExpectedFailure tx.2)
  let decoded ← c.txDecoder tx.1
  guard (isEthTx decoded)
  return decoded.msgs

/-- The gas used by a message and whether it failed; none if the events lack the message. -/
def outcome (result : LoggedResult) (parsed : ParsedTxs) (msgIndex : Nat) (msg : MsgEthereumTx) :
    Option (UInt64 × Bool) :=
  if result.code ≠ 0 then some (msg.data.gas, true)
  else (parsed.getTxByMsgIndex msgIndex).map fun tx => (tx.gasUsed, tx.failed)

/-- The loop over the messages: what is saved, and the next number.  It panics at a message of
another type. -/
def indexMsgs (height : Int) (txIndex : Nat) (result : LoggedResult) (parsed : ParsedTxs) :
    List SdkMsg → Nat → UInt64 → Int → Option (List (Hash × TxResult) × Int)
  | [], _, _, ethTxIndex => some ([], ethTxIndex)
  | .other _ :: _, _, _, _ => none
  | .ethereumTx msg :: rest, msgIndex, cumulative, ethTxIndex =>
    match outcome result parsed msgIndex msg with
    | none => indexMsgs height txIndex result parsed rest (msgIndex + 1) cumulative ethTxIndex
    | some (gasUsed, failed) =>
      (indexMsgs height txIndex result parsed rest (msgIndex + 1) (cumulative + gasUsed)
        (int32 (ethTxIndex + 1))).map fun (saved, next) =>
          ((msg.hash, ⟨height, txIndex % 2 ^ 32, msgIndex % 2 ^ 32, ethTxIndex, failed, gasUsed,
            cumulative + gasUsed⟩) :: saved, next)

/-- A transaction that cannot be parsed is skipped. -/
def indexTxs (height : Int) :
    List (Bytes × LoggedResult) → Nat → Int → Option (List (Hash × TxResult))
  | [], _, _ => some []
  | tx :: rest, txIndex, ethTxIndex =>
    match ethMsgs c tx with
    | none => indexTxs height rest (txIndex + 1) ethTxIndex
    | some msgs =>
      match parseTxResult c.texts tx.2.toExecTxResult (some msgs) with
      | .error .panic => none
      | .error _ => indexTxs height rest (txIndex + 1) ethTxIndex
      | .ok parsed =>
        (indexMsgs height txIndex tx.2 parsed msgs 0 0 ethTxIndex).bind fun (saved, next) =>
          (indexTxs height rest (txIndex + 1) next).map (saved ++ ·)

def saveTxResult (e : Hash × TxResult) : List (Bytes × Bytes) :=
  [(txHashKey e.1, c.marshal e.2), (txIndexKey e.2.height e.2.ethTxIndex, hashBytes e.1)]

def indexBlock (db : DB) (block : Block) : Option DB :=
  (indexTxs c block.height block.txs 0 0).map fun saved =>
    db.setAll (saved.flatMap (saveTxResult c))

variable (db : DB)

def getByTxHash (hash : Hash) : Except IndexerError TxResult :=
  match (db.get (txHashKey hash)).getD [] with
  | [] => .error (.txNotFound hash)
  | b :: rest => (c.unmarshal (b :: rest)).elim (.error .unmarshal) .ok

def getByBlockAndIndex (blockNumber txIndex : Int) : Except IndexerError TxResult :=
  match (db.get (txIndexKey blockNumber txIndex)).getD [] with
  | [] => .error (.indexNotFound blockNumber txIndex)
  | b :: rest => getByTxHash c db (bytesToHash (b :: rest))

end

/-- The keys that the iterators go over. -/
def indexKeys (db : DB) : Finset Bytes := db.keys.filter fun key => [2] ≤ key ∧ key < [3]

def loadFirstBlock (db : DB) : Except IndexerError Int :=
  if h : (indexKeys db).Nonempty then parseBlockNumberFromKey ((indexKeys db).min' h) else .ok (-1)

def loadLastBlock (db : DB) : Except IndexerError Int :=
  if h : (indexKeys db).Nonempty then parseBlockNumberFromKey ((indexKeys db).max' h) else .ok (-1)

/-! ## The messages of a block -/

/-- What happened to a transaction: it is no Ethereum transaction or failed without an effect; its
messages were executed, each with or without an error of the VM; or they were charged for the gas
they asked for and had no effect, as the block had no gas left or the state could not be committed.
-/
inductive TxSpec
  | skipped
  | executed {signer : Signer} (executions : List (Execution signer))
  | charged (msgs : List MsgEthereumTx)

structure EthOutcome where
  hash : Hash
  gasUsed : UInt64
  failed : Bool

def executedOutcome {signer : Signer} (e : Execution signer) : EthOutcome :=
  ⟨e.msg.hash, e.response.gasUsed, e.response.failed⟩

def chargedOutcome (msg : MsgEthereumTx) : EthOutcome := ⟨msg.hash, msg.data.gas, true⟩

def TxSpec.outcomes : TxSpec → List EthOutcome
  | skipped => []
  | executed executions => executions.map executedOutcome
  | charged msgs => msgs.map chargedOutcome

def announcements (c : Codec) (first : UInt64) (msgs : List MsgEthereumTx) : List TxEvent :=
  msgs.zipIdx.map fun (msg, i) => txHashEvent c.texts msg first (.ofNat i)

def ethereumOptions : Option (List String) := some ["/ethermint.evm.v1.ExtensionOptionsEthereumTx"]

/-- The bytes of a transaction and its result tell of what happened to it.  The ante handler
announces the messages, with numbers from `first` on, and the message server tells of executed ones;
events of other types may stand between theirs. -/
inductive Describes (c : Codec) : TxSpec → Bytes × LoggedResult → Prop
  | undecodable {bytes : Bytes} {result : LoggedResult} (decoded : c.txDecoder bytes = none) :
      Describes c .skipped (bytes, result)
  | cosmos {bytes : Bytes} {result : LoggedResult} {tx : DecodedTx}
      (decoded : c.txDecoder bytes = some tx) (options : tx.extensionOptions ≠ ethereumOptions) :
      Describes c .skipped (bytes, result)
  | failed {bytes : Bytes} {result : LoggedResult} (code : result.code ≠ 0)
      (gas : ¬ contains result.log "out of gas in location: block gas meter; gasWanted:")
      (commit : ¬ contains result.log "failed to commit stateDB") :
      Describes c .skipped (bytes, result)
  | executed {bytes : Bytes} {log : String} {events : List TxEvent} {signer : Signer}
      {executions : List (Execution signer)} {first : UInt64} {txHash : Option String}
      (decoded : c.txDecoder bytes =
        some ⟨executions.map (.ethereumTx ·.msg), ethereumOptions⟩)
      (hashes : executions.map (·.response.hash) = (executions.map (·.msg)).map (·.hash))
      (distinct : ((executions.map (·.msg)).map (·.hash)).Nodup)
      (index : first.toNat + executions.length ≤ 2 ^ 31)
      (told : events.filter isEthereumTx = (announcements c first (executions.map (·.msg)) ++
        serverEvents c.texts first txHash 0 executions).filter isEthereumTx) :
      Describes c (.executed executions)
        (bytes, ⟨⟨0, (totalGasUsed executions).toInt64, events⟩, log⟩)
  | charged {bytes : Bytes} {result : LoggedResult} {msgs : List MsgEthereumTx} {first : UInt64}
      (decoded : c.txDecoder bytes = some ⟨msgs.map .ethereumTx, ethereumOptions⟩)
      (code : result.code ≠ 0)
      (log : contains result.log "out of gas in location: block gas meter; gasWanted:" ∨
        contains result.log "failed to commit stateDB")
      (distinct : (msgs.map (·.hash)).Nodup) (index : first.toNat + msgs.length ≤ 2 ^ 31)
      -- old versions of the chain have no events here
      (told : result.events.filter isEthereumTx = (announcements c first msgs).filter isEthereumTx ∨
        result.events.filter isEthereumTx = []) :
      Describes c (.charged msgs) (bytes, result)

structure EthMsg where
  hash : Hash
  txIndex : Nat
  msgIndex : Nat
  failed : Bool
  gasUsed : UInt64
  cumulativeGasUsed : UInt64
  deriving DecidableEq

def EthMsg.result (m : EthMsg) (height : Int) (k : Nat) : TxResult :=
  ⟨height, m.txIndex % 2 ^ 32, m.msgIndex % 2 ^ 32, k, m.failed, m.gasUsed, m.cumulativeGasUsed⟩

/-- The gas of the messages of a transaction adds up. -/
def messagesOf (txIndex : Nat) : List EthOutcome → Nat → UInt64 → List EthMsg
  | [], _, _ => []
  | o :: rest, msgIndex, cumulative =>
    ⟨o.hash, txIndex, msgIndex, o.failed, o.gasUsed, cumulative + o.gasUsed⟩ ::
      messagesOf txIndex rest (msgIndex + 1) (cumulative + o.gasUsed)

def messagesFrom : List TxSpec → Nat → List EthMsg
  | [], _ => []
  | spec :: rest, txIndex => messagesOf txIndex spec.outcomes 0 0 ++ messagesFrom rest (txIndex + 1)

/-- A block of the chain, with what happened to each of its transactions. -/
structure ChainBlock (c : Codec) where
  height : Int
  txs : List (TxSpec × Bytes × LoggedResult)
  described : ∀ tx ∈ txs, Describes c tx.1 tx.2

variable {c : Codec}

def ChainBlock.block (b : ChainBlock c) : Block := ⟨b.height, b.txs.map (·.2)⟩

/-- The Ethereum messages of a block in the order of the block. -/
def ChainBlock.messages (b : ChainBlock c) : List EthMsg := messagesFrom (b.txs.map (·.1)) 0

/-- A block of at most 100 MB has less than `2 ^ 31` messages. -/
structure ChainBlock.Indexable (b : ChainBlock c) : Prop where
  height : 0 < b.height ∧ b.height < 2 ^ 63
  count : b.messages.length < 2 ^ 31
  /-- The codec reads back what it writes, which is not empty. -/
  codec : ∀ (k : Nat) (m : EthMsg), b.messages[k]? = some m →
    c.marshal (m.result b.height k) ≠ [] ∧
      c.unmarshal (c.marshal (m.result b.height k)) = some (m.result b.height k)

/-- Blocks may be indexed several times; other messages have other hashes. -/
structure Indexable (blocks : List (ChainBlock c)) : Prop where
  block : ∀ b ∈ blocks, b.Indexable
  again : ∀ b ∈ blocks, ∀ b' ∈ blocks, b.height = b'.height → b = b'
  distinct : ∀ b ∈ blocks, ∀ b' ∈ blocks, ∀ (k k' : Nat) (m m' : EthMsg),
    b.messages[k]? = some m → b'.messages[k']? = some m' → m.hash = m'.hash → b = b' ∧ k = k'

def heights (blocks : List (ChainBlock c)) : Set Int :=
  {height | ∃ b ∈ blocks, b.messages ≠ [] ∧ b.height = height}

/-- All messages of the blocks are found by hash and by number, and no others by number. -/
structure Indexed (blocks : List (ChainBlock c)) (db : DB) : Prop where
  byIndex : ∀ b ∈ blocks, ∀ (k : Nat) (m : EthMsg), b.messages[k]? = some m →
    getByBlockAndIndex c db b.height k = .ok (m.result b.height k)
  byHash : ∀ b ∈ blocks, ∀ (k : Nat) (m : EthMsg), b.messages[k]? = some m →
    getByTxHash c db m.hash = .ok (m.result b.height k)
  free : ∀ height index, InInt64 height → InInt64 index →
    (∀ b ∈ blocks, b.height = height → ∀ k < b.messages.length, (k : Int) ≠ index) →
      getByBlockAndIndex c db height index = .error (.indexNotFound height index)
  again : ∀ b ∈ blocks, indexBlock c db b.block = some db
  empty : heights blocks = ∅ → loadFirstBlock db = .ok (-1) ∧ loadLastBlock db = .ok (-1)
  bounds : (heights blocks).Nonempty → ∃ first last, loadFirstBlock db = .ok first ∧
    loadLastBlock db = .ok last ∧ IsLeast (heights blocks) first ∧ IsGreatest (heights blocks) last

/-! ## The loops -/

/-- What is saved for messages that are numbered from `start` on. -/
def numbered (height : Int) (start : Nat) (ms : List EthMsg) : List (Hash × TxResult) :=
  (ms.zipIdx start).map fun (m, k) => (m.hash, m.result height k)

theorem numbered_append (height : Int) (start : Nat) (ms ms' : List EthMsg) :
    numbered height start (ms ++ ms') =
      numbered height start ms ++ numbered height (start + ms.length) ms' := by
  rw [numbered, List.zipIdx_append, List.map_append]
  rfl

theorem int32_of_lt {n : Nat} (h : n < 2 ^ 31) : int32 n = n :=
  Int.bmod_eq_of_le (by omega) (by omega)

@[simp] theorem length_messagesOf (txIndex : Nat) (outs : List EthOutcome) (msgIndex : Nat)
    (cumulative : UInt64) : (messagesOf txIndex outs msgIndex cumulative).length = outs.length := by
  induction outs generalizing msgIndex cumulative with
  | nil => rfl
  | cons o rest ih => simp [messagesOf, ih]

/-- The messages come from a list of items with known outcomes, executions or the messages. -/
theorem indexMsgs_eq {α : Type} {height : Int} {txIndex : Nat} {result : LoggedResult}
    {parsed : ParsedTxs} {items : List α} {msg : α → MsgEthereumTx} {out : α → EthOutcome}
    {msgIndex start : Nat} {cumulative : UInt64} (hhash : ∀ a, (out a).hash = (msg a).hash)
    (hout : ∀ a i, (a, i) ∈ items.zipIdx msgIndex →
      outcome result parsed i (msg a) = some ((out a).gasUsed, (out a).failed))
    (hcount : start + items.length < 2 ^ 31) :
    indexMsgs height txIndex result parsed (items.map (.ethereumTx <| msg ·)) msgIndex cumulative
        start =
      some (numbered height start (messagesOf txIndex (items.map out) msgIndex cumulative),
        ((start + items.length : Nat) : Int)) := by
  induction items generalizing msgIndex cumulative start with
  | nil => rfl
  | cons a rest ih =>
    simp only [List.zipIdx_cons, List.mem_cons] at hout
    rw [List.length_cons] at hcount
    have hlater := @ih (msgIndex + 1) (start + 1) (cumulative + (out a).gasUsed)
      (fun a i hmem => hout a i (.inr hmem)) (by omega)
    have hnext : int32 (start + 1) = ((start + 1 : Nat) : Int) :=
      @int32_of_lt (start + 1) (by omega)
    rw [List.map_cons, indexMsgs, hout a msgIndex (.inl rfl)]
    simp only [hnext, hlater, Option.map_some, List.map_cons, messagesOf, numbered,
      List.zipIdx_cons,
      EthMsg.result, hhash, List.length_cons]
    rw [Nat.add_right_comm, Nat.add_assoc]

variable {spec : TxSpec} {tx : Bytes × LoggedResult}

/-- A transaction is skipped, or its loop saves what happened to its messages. -/
inductive IndexedAs (c : Codec) (spec : TxSpec) (tx : Bytes × LoggedResult) : Prop
  | skipped (outcomes : spec.outcomes = []) (msgs : ethMsgs c tx = none)
  | saved (msgs : List SdkMsg) (parsed : ParsedTxs) (msgs_eq : ethMsgs c tx = some msgs)
      (parsed_eq : parseTxResult c.texts tx.2.toExecTxResult (some msgs) = .ok parsed)
      (loop : ∀ (height : Int) (txIndex start : Nat), start + spec.outcomes.length < 2 ^ 31 →
        indexMsgs height txIndex tx.2 parsed msgs 0 0 start =
          some (numbered height start (messagesOf txIndex spec.outcomes 0 0),
            ((start + spec.outcomes.length : Nat) : Int)))

theorem ethMsgs_of_ethereum {bytes : Bytes} {result : LoggedResult} {msgs : List SdkMsg}
    (hresult : txSucessOrExpectedFailure result = true)
    (hdecoded : c.txDecoder bytes = some ⟨msgs, ethereumOptions⟩) :
    ethMsgs c (bytes, result) = some msgs := by
  have heth : isEthTx ⟨msgs, ethereumOptions⟩ = true := by simp [isEthTx, ethereumOptions]
  simp [ethMsgs, hresult, hdecoded, heth]

theorem Describes.indexedAs (h : Describes c spec tx) : IndexedAs c spec tx := by
  cases h with
  | undecodable decoded => exact .skipped rfl (by simp [ethMsgs, decoded])
  | cosmos decoded options =>
    rw [ethereumOptions] at options
    exact .skipped rfl (by simp [ethMsgs, decoded, isEthTx, options])
  | failed code gas commit =>
    exact .skipped rfl (by simp [ethMsgs, txSucessOrExpectedFailure, code, gas, commit])
  | @executed bytes log events signer executions first txHash decoded hashes distinct index told =>
    obtain ⟨st, hante, hst⟩ := @run_announced c.texts first (executions.map (·.msg)) distinct
      (by simpa using index)
    have hrun : events.foldlM (parseEvent c.texts) .initial =
        ((serverEvents c.texts first txHash 0 executions).filter isEthereumTx).foldlM
          (parseEvent c.texts) st := by
      rw [foldlM_parseEvent_filter, told, List.filter_append, List.foldlM_append,
        ← foldlM_parseEvent_filter, announcements, hante]
      rfl
    refine .saved _ _ (ethMsgs_of_ethereum rfl decoded)
      (parse_executed hst hashes (by simpa using index) hrun) fun height txIndex start hcount => ?_
    simp only [TxSpec.outcomes, List.length_map] at hcount ⊢
    refine indexMsgs_eq (fun _ => rfl) (fun e i hmem => ?_) hcount
    have hget := List.mk_mem_zipIdx_iff_getElem?.mp hmem
    have hlt := (List.getElem?_eq_some_iff.mp hget).1
    rw [outcome, if_neg (by simp), ParsedTxs.getTxByMsgIndex,
      if_neg (by simp [executedTxs]; omega)]
    simp [executedTxs, hget, executedOutcome]
  | @charged bytes result msgs first decoded code log distinct index told =>
    have hexpected : txSucessOrExpectedFailure result = true := by
      rcases log with log | log <;> simp [txSucessOrExpectedFailure, log]
    obtain ⟨st, hante, hst⟩ := @run_announced c.texts first msgs distinct index
    obtain ⟨parsed, hparsed⟩ : ∃ parsed, parseTxResult c.texts result.toExecTxResult
        (some (msgs.map .ethereumTx)) = .ok parsed := by
      rcases told with told | told
      · refine ⟨_, parse_cutOff code hst ?_⟩
        rw [foldlM_parseEvent_filter, told, ← foldlM_parseEvent_filter]
        exact hante
      · have hnone : result.events.foldlM (parseEvent c.texts) .initial = .ok .initial := by
          rw [foldlM_parseEvent_filter, told]
          rfl
        exact ⟨_, parseTxResult_of_failure hnone code rfl⟩
    refine .saved _ _ (ethMsgs_of_ethereum hexpected decoded) hparsed
      fun height txIndex start hcount => ?_
    simp only [TxSpec.outcomes, List.length_map] at hcount ⊢
    exact indexMsgs_eq (fun _ => rfl) (fun _ _ _ => if_pos code) hcount

theorem indexTxs_eq {height : Int} {txs : List (TxSpec × Bytes × LoggedResult)}
    {txIndex start : Nat}
    {ms : List EthMsg} (hdescribed : ∀ tx ∈ txs, Describes c tx.1 tx.2)
    (hms : messagesFrom (txs.map (·.1)) txIndex = ms) (hcount : start + ms.length < 2 ^ 31) :
    indexTxs c height (txs.map (·.2)) txIndex start = some (numbered height start ms) := by
  subst hms
  induction txs generalizing txIndex start with
  | nil => rfl
  | cons tx rest ih =>
    obtain ⟨htx, hrest⟩ := List.forall_mem_cons.mp hdescribed
    simp only [List.map_cons, messagesFrom, List.length_append, length_messagesOf] at hcount ⊢
    rw [indexTxs]
    cases htx.indexedAs with
    | skipped houtcomes hmsgs =>
      rw [hmsgs, houtcomes]
      exact ih hrest (by omega)
    | saved msgs parsed hmsgs hparsed hloop =>
      have hlater := @ih (txIndex + 1) (start + tx.1.outcomes.length) hrest (by omega)
      simp only [hmsgs, hparsed, hloop height txIndex start (by omega), Option.bind_some, hlater,
        numbered_append, length_messagesOf, Option.map_some]

/-- What is saved for the messages of the blocks. -/
def savedOf (blocks : List (ChainBlock c)) : List (Hash × TxResult) :=
  blocks.flatMap fun b => numbered b.height 0 b.messages

variable {blocks : List (ChainBlock c)} {e : Hash × TxResult}

theorem mem_savedOf : e ∈ savedOf blocks ↔ ∃ b ∈ blocks, ∃ (k : Nat) (m : EthMsg),
    b.messages[k]? = some m ∧ (m.hash, m.result b.height k) = e := by
  simp only [savedOf, numbered, List.mem_flatMap, List.mem_map, Prod.exists,
    List.mk_mem_zipIdx_iff_getElem?]
  exact exists_congr fun b => and_congr_right fun _ => exists_comm

theorem indexBlock_eq {b : ChainBlock c} (h : b.Indexable) (db : DB) :
    indexBlock c db b.block = some (db.setAll ((numbered b.height 0 b.messages).flatMap
      (saveTxResult c))) := by
  have hrun := @indexTxs_eq c b.height b.txs 0 0 b.messages b.described rfl (by simpa using h.count)
  rw [Nat.cast_zero] at hrun
  rw [indexBlock, ChainBlock.block, hrun]
  rfl

theorem foldlM_indexBlock (h : ∀ b ∈ blocks, b.Indexable) (db : DB) :
    blocks.foldlM (fun db b => indexBlock c db b.block) db =
      some (db.setAll ((savedOf blocks).flatMap (saveTxResult c))) := by
  induction blocks generalizing db with
  | nil => rfl
  | cons b rest ih =>
    rw [List.forall_mem_cons] at h
    have hsaved : savedOf (b :: rest) = numbered b.height 0 b.messages ++ savedOf rest := rfl
    rw [List.foldlM_cons, indexBlock_eq h.1, Option.bind_eq_bind, Option.bind_some, ih h.2, hsaved,
      List.flatMap_append, FinMap.setAll_append]

/-! ## The entries -/

section

variable {height height' index index' : Int} {hash hash' : Hash}

theorem uint64_lt (n : Int) : uint64 n < 256 ^ 8 := by
  unfold uint64
  omega

theorem uint64_inj (hn : InInt64 height) (hm : InInt64 height')
    (h : uint64 height = uint64 height') :
    height = height' := by
  unfold uint64 at h
  unfold InInt64 at hn hm
  omega

@[simp] theorem length_txIndexKey : (txIndexKey height index).length = txIndexKeyLength := by
  simp [txIndexKey, txIndexKeyLength]

theorem toNat_txIndexKey : BigEndian.toNat (txIndexKey height index) =
    2 * 256 ^ 16 + (uint64 height * 256 ^ 8 + uint64 index) := by
  rw [txIndexKey, BigEndian.toNat_cons, BigEndian.toNat_append,
    BigEndian.toNat_ofNat_of_lt (uint64_lt _), BigEndian.toNat_ofNat_of_lt (uint64_lt _)]
  simp

theorem txIndexKey_inj (hheight : InInt64 height) (hheight' : InInt64 height')
    (hindex : InInt64 index) (hindex' : InInt64 index')
    (h : txIndexKey height index = txIndexKey height' index') :
    height = height' ∧ index = index' := by
  have hnat := congrArg BigEndian.toNat h
  rw [toNat_txIndexKey, toNat_txIndexKey] at hnat
  have hlt := uint64_lt index
  have hlt' := uint64_lt index'
  exact ⟨uint64_inj hheight hheight' (by omega), uint64_inj hindex hindex' (by omega)⟩

/-- The order of the keys is that of the heights. -/
theorem height_le_of_txIndexKey_le (hheight : 0 ≤ height ∧ height < 2 ^ 63)
    (hheight' : 0 ≤ height' ∧ height' < 2 ^ 63)
    (h : txIndexKey height index ≤ txIndexKey height' index') : height ≤ height' := by
  have hnat := (BigEndian.lt_iff_toNat_lt (by simp)).not.mp (not_lt.mpr h)
  rw [toNat_txIndexKey, toNat_txIndexKey] at hnat
  have hlt' := uint64_lt index'
  have hlt := uint64_lt index
  unfold uint64 at hnat hlt hlt'
  omega

theorem parseBlockNumberFromKey_txIndexKey (h : 0 ≤ height ∧ height < 2 ^ 63) :
    parseBlockNumberFromKey (txIndexKey height index) = .ok height := by
  rw [parseBlockNumberFromKey, if_neg (by simp)]
  have hdrop : ((txIndexKey height index).drop 1).take 8 = BigEndian.ofNat 8 (uint64 height) := by
    simp [txIndexKey]
  have hself : (uint64 height : Int) = height := by
    unfold uint64
    omega
  rw [hdrop, BigEndian.toNat_ofNat_of_lt (uint64_lt _), hself, int64,
    Int.bmod_eq_of_le (by omega) (by omega)]

theorem hashBytes_inj (h : hashBytes hash = hashBytes hash') : hash = hash' :=
  Fin.ext ((BigEndian.ofNat_inj (by omega) (by omega)).mp h)

theorem bytesToHash_hashBytes (hash : Hash) : bytesToHash (hashBytes hash) = hash := by
  rw [bytesToHash, hashBytes, BigEndian.toNat_ofNat_of_lt (by omega)]
  simp

end

/-- Distinct entries have distinct keys. -/
structure Consistent (saved : List (Hash × TxResult)) : Prop where
  height : ∀ e ∈ saved, 0 ≤ e.2.height ∧ e.2.height < 2 ^ 63
  index : ∀ e ∈ saved, InInt64 e.2.ethTxIndex
  hash : ∀ e ∈ saved, ∀ e' ∈ saved, e.1 = e'.1 → e = e'
  number : ∀ e ∈ saved, ∀ e' ∈ saved, e.2.height = e'.2.height →
    e.2.ethTxIndex = e'.2.ethTxIndex → e = e'

theorem Indexable.consistent (h : Indexable blocks) : Consistent (savedOf blocks) where
  height e he := by
    obtain ⟨b, hb, k, m, -, rfl⟩ := mem_savedOf.mp he
    exact ⟨(h.block b hb).height.1.le, (h.block b hb).height.2⟩
  index e he := by
    obtain ⟨b, hb, k, m, hm, rfl⟩ := mem_savedOf.mp he
    have hlt := (List.getElem?_eq_some_iff.mp hm).1
    have hcount := (h.block b hb).count
    simp only [EthMsg.result, InInt64]
    omega
  hash e he e' he' hhash := by
    obtain ⟨b, hb, k, m, hm, rfl⟩ := mem_savedOf.mp he
    obtain ⟨b', hb', k', m', hm', rfl⟩ := mem_savedOf.mp he'
    obtain ⟨rfl, rfl⟩ := h.distinct b hb b' hb' k k' m m' hm hm' hhash
    cases hm.symm.trans hm'
    rfl
  number e he e' he' hheight hindex := by
    obtain ⟨b, hb, k, m, hm, rfl⟩ := mem_savedOf.mp he
    obtain ⟨b', hb', k', m', hm', rfl⟩ := mem_savedOf.mp he'
    obtain rfl := h.again b hb b' hb' hheight
    obtain rfl : k = k' := Int.ofNat.inj hindex
    cases hm.symm.trans hm'
    rfl

variable {saved : List (Hash × TxResult)}

theorem Consistent.inInt64 (h : Consistent saved) (he : e ∈ saved) : InInt64 e.2.height := by
  have := h.height e he
  unfold InInt64
  omega

theorem Consistent.writes (h : Consistent saved) : ∀ w ∈ saved.flatMap (saveTxResult c),
    ∀ w' ∈ saved.flatMap (saveTxResult c), w.1 = w'.1 → w.2 = w'.2 := by
  intro w hw w' hw' hkey
  obtain ⟨e, he, hw⟩ := List.mem_flatMap.mp hw
  obtain ⟨e', he', hw'⟩ := List.mem_flatMap.mp hw'
  simp only [saveTxResult, List.mem_cons, List.not_mem_nil, or_false] at hw hw'
  rcases hw with rfl | rfl <;> rcases hw' with rfl | rfl
  · rw [h.hash e he e' he' (hashBytes_inj (List.cons.inj hkey).2)]
  · cases (List.cons.inj hkey).1
  · cases (List.cons.inj hkey).1
  · obtain ⟨hheight, hindex⟩ := txIndexKey_inj (h.inInt64 he) (h.inInt64 he') (h.index e he)
      (h.index e' he') hkey
    rw [h.number e he e' he' hheight hindex]

def written (c : Codec) (saved : List (Hash × TxResult)) : DB :=
  FinMap.setAll ∅ (saved.flatMap (saveTxResult c))

theorem Consistent.get_txHashKey (h : Consistent saved) (he : e ∈ saved) :
    (written c saved).get (txHashKey e.1) = some (c.marshal e.2) :=
  FinMap.get_setAll h.writes (e := (txHashKey e.1, c.marshal e.2))
    (List.mem_flatMap.mpr ⟨e, he, by simp [saveTxResult]⟩)

theorem Consistent.get_txIndexKey (h : Consistent saved) (he : e ∈ saved) :
    (written c saved).get (txIndexKey e.2.height e.2.ethTxIndex) = some (hashBytes e.1) :=
  FinMap.get_setAll h.writes (e := (txIndexKey e.2.height e.2.ethTxIndex, hashBytes e.1))
    (List.mem_flatMap.mpr ⟨e, he, by simp [saveTxResult]⟩)

theorem key_of_get_ne_none {key : Bytes} (h : (written c saved).get key ≠ none) :
    ∃ e ∈ saved, key = txHashKey e.1 ∨ key = txIndexKey e.2.height e.2.ethTxIndex := by
  by_contra hnone
  refine h ((FinMap.get_setAll_of_forall_ne fun w hw hkey => hnone ?_).trans (FinMap.get_empty key))
  obtain ⟨e, he, hw⟩ := List.mem_flatMap.mp hw
  simp only [saveTxResult, List.mem_cons, List.not_mem_nil, or_false] at hw
  refine ⟨e, he, ?_⟩
  rcases hw with rfl | rfl
  · exact .inl hkey.symm
  · exact .inr hkey.symm

theorem Consistent.get_eq_none (h : Consistent saved) {height index : Int}
    (hheight : InInt64 height)
    (hindex : InInt64 index)
    (hfree : ∀ e ∈ saved, e.2.height = height → e.2.ethTxIndex ≠ index) :
    (written c saved).get (txIndexKey height index) = none := by
  by_contra hget
  obtain ⟨e, he, hkey | hkey⟩ := key_of_get_ne_none hget
  · cases (List.cons.inj hkey).1
  · obtain ⟨rfl, rfl⟩ := txIndexKey_inj hheight (h.inInt64 he) hindex (h.index e he) hkey
    exact hfree e he rfl rfl

theorem Consistent.mem_indexKeys (h : Consistent saved) {key : Bytes} :
    key ∈ indexKeys (written c saved) ↔
      ∃ e ∈ saved, txIndexKey e.2.height e.2.ethTxIndex = key := by
  rw [indexKeys, Finset.mem_filter, FinMap.mem_keys]
  constructor
  · rintro ⟨hget, hlower, -⟩
    obtain ⟨e, he, rfl | rfl⟩ := key_of_get_ne_none hget
    · have hlt : txHashKey e.1 < [2] := List.cons_lt_cons_iff.mpr (.inl (by decide))
      exact absurd hlower (not_le.mpr hlt)
    · exact ⟨e, he, rfl⟩
  · rintro ⟨e, he, rfl⟩
    rw [h.get_txIndexKey he]
    refine ⟨by simp, ?_, List.cons_lt_cons_iff.mpr (.inl (by decide))⟩
    exact not_lt.mp fun hlt => List.not_lt_nil _ (List.cons_lt_cons_self.mp hlt)

/-! ## Queries of the entries -/

theorem Consistent.getByTxHash (h : Consistent saved) (he : e ∈ saved)
    (hcodec : c.marshal e.2 ≠ [] ∧ c.unmarshal (c.marshal e.2) = some e.2) :
    getByTxHash c (written c saved) e.1 = .ok e.2 := by
  rw [Indexer.getByTxHash, h.get_txHashKey he, Option.getD_some]
  cases hbytes : c.marshal e.2 with
  | nil => exact absurd hbytes hcodec.1
  | cons b rest =>
    rw [hbytes] at hcodec
    simp only [hcodec.2, Option.elim_some]

theorem Consistent.getByBlockAndIndex (h : Consistent saved) (he : e ∈ saved)
    (hcodec : c.marshal e.2 ≠ [] ∧ c.unmarshal (c.marshal e.2) = some e.2) :
    getByBlockAndIndex c (written c saved) e.2.height e.2.ethTxIndex = .ok e.2 := by
  rw [Indexer.getByBlockAndIndex, h.get_txIndexKey he, Option.getD_some]
  have hbytes := bytesToHash_hashBytes e.1
  cases hcons : hashBytes e.1 with
  | nil => simpa [hashBytes] using congrArg List.length hcons
  | cons b rest =>
    rw [hcons] at hbytes
    simp only [hbytes]
    exact h.getByTxHash he hcodec

theorem Consistent.first_last (h : Consistent saved) (hne : saved ≠ []) :
    ∃ first last, loadFirstBlock (written c saved) = .ok first ∧
      loadLastBlock (written c saved) = .ok last ∧
      IsLeast {height | ∃ e ∈ saved, e.2.height = height} first ∧
      IsGreatest {height | ∃ e ∈ saved, e.2.height = height} last := by
  have hkeys : (indexKeys (written c saved)).Nonempty := by
    obtain ⟨e, he⟩ := List.exists_mem_of_ne_nil saved hne
    exact ⟨_, h.mem_indexKeys.mpr ⟨e, he, rfl⟩⟩
  obtain ⟨first, hfirst, hmin⟩ := h.mem_indexKeys.mp ((indexKeys (written c saved)).min'_mem hkeys)
  obtain ⟨last, hlast, hmax⟩ := h.mem_indexKeys.mp ((indexKeys (written c saved)).max'_mem hkeys)
  refine ⟨first.2.height, last.2.height, ?_, ?_, ⟨⟨first, hfirst, rfl⟩, ?_⟩, ⟨last, hlast, rfl⟩, ?_⟩
  · rw [loadFirstBlock, dif_pos hkeys, ← hmin,
      parseBlockNumberFromKey_txIndexKey (h.height first hfirst)]
  · rw [loadLastBlock, dif_pos hkeys, ← hmax,
      parseBlockNumberFromKey_txIndexKey (h.height last hlast)]
  · rintro _ ⟨e, he, rfl⟩
    have hle := (indexKeys (written c saved)).min'_le _ (h.mem_indexKeys.mpr ⟨e, he, rfl⟩)
    rw [← hmin] at hle
    exact height_le_of_txIndexKey_le (h.height first hfirst) (h.height e he) hle
  · rintro _ ⟨e, he, rfl⟩
    have hle := (indexKeys (written c saved)).le_max' _ (h.mem_indexKeys.mpr ⟨e, he, rfl⟩)
    rw [← hmax] at hle
    exact height_le_of_txIndexKey_le (h.height e he) (h.height last hlast) hle

theorem heights_eq : heights blocks = {height | ∃ e ∈ savedOf blocks, e.2.height = height} := by
  ext height
  constructor
  · rintro ⟨b, hb, hne, rfl⟩
    obtain ⟨m, hm⟩ := List.exists_mem_of_ne_nil _ hne
    obtain ⟨k, hk⟩ := List.mem_iff_getElem?.mp hm
    exact ⟨_, mem_savedOf.mpr ⟨b, hb, k, m, hk, rfl⟩, rfl⟩
  · rintro ⟨e, he, rfl⟩
    obtain ⟨b, hb, k, m, hk, rfl⟩ := mem_savedOf.mp he
    exact ⟨b, hb, List.ne_nil_of_mem (List.mem_of_getElem? hk), rfl⟩

/-! ## Runs -/

def pairExecutions : List (Execution nonceSigner) :=
  pairTx.msgs.zipIdx.map fun (msg, i) =>
    ⟨msg, ⟨.ofNat (21000 + i), if i = 0 then "" else "execution reverted", [],
      nonceSigner.hash msg.data, []⟩, rfl⟩

def overLimitMsg : MsgEthereumTx := ⟨⟨0, 21000, some 9, some 100, [], .legacy 20, []⟩, 5, none⟩

def mixedResults : List TxResult :=
  [⟨7, 1, 0, 0, false, 21000, 21000⟩, ⟨7, 1, 1, 1, true, 21001, 42001⟩,
    ⟨7, 2, 0, 2, true, 21000, 21000⟩]

def mixedCodec : Codec where
  texts := decimalTexts
  txDecoder bytes :=
    if bytes = [1] then some ⟨[.other "/cosmos.bank.v1beta1.MsgSend"], some []⟩
    else if bytes = [2] then some ⟨pairExecutions.map (.ethereumTx ·.msg), ethereumOptions⟩
    else some ⟨[.ethereumTx overLimitMsg], ethereumOptions⟩
  marshal result := [.ofNat (mixedResults.idxOf result)]
  unmarshal bytes := mixedResults[(BigEndian.toNat bytes)]?

/-- A transfer of the bank, an Ethereum transaction with a message that reverts, and one that the
block has no gas for. -/
def mixedBlock : ChainBlock mixedCodec where
  height := 7
  txs := [(.skipped, [1], ⟨⟨0, 50000, []⟩, ""⟩),
    (.executed pairExecutions, [2], ⟨⟨0, (totalGasUsed pairExecutions).toInt64,
      ⟨"coin_spent", []⟩ :: (announcements mixedCodec 0 (pairExecutions.map (·.msg)) ++
        serverEvents decimalTexts 0 none 0 pairExecutions)⟩, ""⟩),
    (.charged [overLimitMsg], [3], ⟨⟨11, 21000, announcements mixedCodec 2 [overLimitMsg]⟩,
      "out of gas in location: block gas meter; gasWanted: 21000"⟩)]
  described := by
    simp only [List.forall_mem_cons, List.not_mem_nil, false_imp_iff, implies_true, and_true]
    refine ⟨.cosmos rfl nofun, .executed rfl (by decide +kernel) (by decide +kernel)
      (by decide +kernel) rfl, .charged rfl (by decide) (.inl (by decide +kernel)) (by decide)
      (by decide) (.inl rfl)⟩

theorem mixedBlock_messages : mixedBlock.messages =
    [⟨0, 1, 0, false, 21000, 21000⟩, ⟨1, 1, 1, true, 21001, 42001⟩,
      ⟨5, 2, 0, true, 21000, 21000⟩] := by
  decide +kernel

end Haqq.Rpc.Indexer
