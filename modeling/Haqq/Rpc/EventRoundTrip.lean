import Haqq.Ante.Admitted
import Haqq.Rpc.TxResult
import Mathlib.Data.UInt

/-!
# Reading the events of a transaction back

`parseTxResult` reads the events of an admitted transaction back: one entry per message, in order,
that the lookups agree on.  An event of the message server finds the entry of its message at the
position of the event.  An index has 31 bits in an entry; a block of at most 100 MB has no message
with a greater one.

* `fillTxAttributes_txHashEvent` and `fillTxAttributes_ethereumTx` read one event.
* `run_announced` reads the events of the ante handler, `run_ethereumTxEvents` those of the message
  server; other events are skipped (`foldlM_parseEvent_filter`).
* `parse_executed` and `parse_cutOff` are about the whole result.
* `parseTxResult_readsBack` is the round trip of an admitted transaction.
-/

namespace Haqq.Rpc

open Lib Evm Ante

variable {texts : Texts}

/-! ## Attributes -/

variable {attr : TxAttribute} {tx' : ParsedTx} {attrs : List TxAttribute} {msg : MsgEthereumTx}
  {blockTxIndex msgIndex : UInt64} {i : Nat} {txIndex : UInt64} {txHash : Option String}
  {response : MsgEthereumTxResponse}

section

variable {tx : ParsedTx}

theorem fillTxAttribute_hash (hash : Hash) :
    fillTxAttribute texts tx ⟨attributeKeyEthereumTxHash, texts.hex hash⟩ =
      .ok { tx with hash := hash } := by
  rw [fillTxAttribute, if_pos rfl, texts.hexToHash_hex]

theorem fillTxAttribute_txIndex {txIndex : UInt64} (hindex : txIndex.toNat < 2 ^ 31) :
    fillTxAttribute texts tx ⟨attributeKeyTxIndex, formatUint txIndex⟩ =
      .ok { tx with ethTxIndex := .ofNat txIndex.toNat } := by
  simp only [fillTxAttribute]
  rw [if_neg (by decide), if_true, parseUint_formatUint hindex]
  rfl

theorem fillTxAttribute_txGasUsed (gasUsed : UInt64) :
    fillTxAttribute texts tx ⟨attributeKeyTxGasUsed, formatUint gasUsed⟩ =
      .ok { tx with gasUsed := gasUsed } := by
  simp only [fillTxAttribute]
  rw [if_neg (by decide), if_neg (by decide), if_true, parseUint_formatUint gasUsed.toNat_lt,
    Except.map, UInt64.ofNat_toNat]

theorem fillTxAttribute_failed (value : String) :
    fillTxAttribute texts tx ⟨attributeKeyEthereumTxFailed, value⟩ =
      .ok { tx with failed := decide (value ≠ "") } := by
  simp only [fillTxAttribute]
  rw [if_neg (by decide), if_neg (by decide), if_neg (by decide), if_true]

def parsedKeys : List String :=
  [attributeKeyEthereumTxHash, attributeKeyTxIndex, attributeKeyTxGasUsed,
    attributeKeyEthereumTxFailed]

theorem fillTxAttribute_other (hkey : attr.key ∉ parsedKeys) :
    fillTxAttribute texts tx attr = .ok tx := by
  simp only [parsedKeys, List.mem_cons, List.not_mem_nil, or_false, not_or] at hkey
  obtain ⟨h₁, h₂, h₃, h₄⟩ := hkey
  rw [fillTxAttribute, if_neg h₁, if_neg h₂, if_neg h₃, if_neg h₄]

theorem fillTxAttributes_append (h : fillTxAttributes texts tx attrs = .ok tx')
    (rest : List TxAttribute) :
    fillTxAttributes texts tx (attrs ++ rest) = fillTxAttributes texts tx' rest := by
  rw [fillTxAttributes, List.foldlM_append, ← fillTxAttributes, h]
  rfl

theorem fillTxAttributes_cons (h : fillTxAttribute texts tx attr = .ok tx')
    (rest : List TxAttribute) :
    fillTxAttributes texts tx (attr :: rest) = fillTxAttributes texts tx' rest :=
  Run.foldlM_cons_ok h rest

theorem fillTxAttributes_other (hkeys : ∀ attr ∈ attrs, attr.key ∉ parsedKeys) :
    fillTxAttributes texts tx attrs = .ok tx := by
  induction attrs with
  | nil => rfl
  | cons attr rest ih =>
    rw [fillTxAttributes_cons (fillTxAttribute_other (hkeys attr (by simp)))]
    exact ih fun attr hattr => hkeys attr (by simp [hattr])

theorem fillTxAttributes_txHashEvent (hindex : (blockTxIndex + msgIndex).toNat < 2 ^ 31) :
    fillTxAttributes texts tx (txHashEvent texts msg blockTxIndex msgIndex).attributes =
      .ok { tx with hash := msg.hash, ethTxIndex := .ofNat (blockTxIndex + msgIndex).toNat } := by
  rw [txHashEvent, fillTxAttributes_cons (fillTxAttribute_hash msg.hash),
    fillTxAttributes_cons (fillTxAttribute_txIndex hindex)]
  rfl

def withMsgIndex (i : Nat) (event : TxEvent) : TxEvent :=
  { event with attributes := event.attributes ++ [⟨"msg_index", toString i⟩] }

theorem fillTxAttributes_ethereumTx (hindex : txIndex.toNat < 2 ^ 31) :
    fillTxAttributes texts (newParsedTx i)
    (ethereumTxAttributes texts msg txIndex txHash response ++
        [⟨"msg_index", toString i⟩]) =
      .ok ⟨i, response.hash, .ofNat txIndex.toNat, response.gasUsed, response.failed⟩ := by
  have hother {α : Type} (tx : ParsedTx) (l : List α) (key : String) (value : α → String)
      (hkey : key ∉ parsedKeys) :
      fillTxAttributes texts tx (l.map fun a => ⟨key, value a⟩) = .ok tx := by
    refine fillTxAttributes_other fun attr hattr => ?_
    obtain ⟨_, -, rfl⟩ := List.mem_map.mp hattr
    exact hkey
  have hfailed : fillTxAttributes texts
      ⟨i, response.hash, .ofNat txIndex.toNat, response.gasUsed, false⟩
      (if response.failed then [⟨attributeKeyEthereumTxFailed, response.vmError⟩] else []) =
        .ok ⟨i, response.hash, .ofNat txIndex.toNat, response.gasUsed, response.failed⟩ := by
    split
    · exact fillTxAttributes_cons (fillTxAttribute_failed _) []
    · rename_i hsuccess
      rw [Bool.not_eq_true] at hsuccess
      rw [hsuccess]
      rfl
  rw [ethereumTxAttributes]
  simp only [List.cons_append, List.append_assoc, List.nil_append]
  rw [fillTxAttributes_cons (fillTxAttribute_other (show "amount" ∉ parsedKeys by decide)),
    fillTxAttributes_cons (fillTxAttribute_hash _),
    fillTxAttributes_cons (fillTxAttribute_txIndex hindex),
    fillTxAttributes_cons (fillTxAttribute_txGasUsed _),
    fillTxAttributes_append (hother _ _ _ _ (by decide)),
    fillTxAttributes_append (hother _ _ _ _ (by decide))]
  exact (fillTxAttributes_append hfailed _).trans (hother _ [i] _ _ (by decide))

end

/-! ## Events -/

def isEthereumTx (event : TxEvent) : Bool := decide (event.type = eventTypeEthereumTx)

theorem foldlM_parseEvent_filter (events : List TxEvent) (st : ParseState) :
    events.foldlM (parseEvent texts) st =
      (events.filter isEthereumTx).foldlM (parseEvent texts) st := by
  induction events generalizing st with
  | nil => rfl
  | cons event rest ih =>
    by_cases htype : event.type = eventTypeEthereumTx
    · rw [List.filter_cons_of_pos (by simpa [isEthereumTx] using htype), List.foldlM_cons,
        List.foldlM_cons]
      exact congrArg _ (funext ih)
    · rw [List.filter_cons_of_neg (by simpa [isEthereumTx] using htype), List.foldlM_cons,
        parseEvent, if_pos htype]
      exact ih st

def Indexed (hashes : List Hash) (txHashes : FinMap Hash Nat) : Prop :=
  ∀ i hash, hashes[i]? = some hash → txHashes.get hash = some i

variable {txHashes : FinMap Hash Nat}

theorem Indexed.append {hashes : List Hash} {hash : Hash} (h : Indexed hashes txHashes)
    (hnew : hash ∉ hashes) : Indexed (hashes ++ [hash]) (txHashes.set hash hashes.length) := by
  intro i hash' hi
  rw [FinMap.get_set]
  rcases Nat.lt_or_ge i hashes.length with hlt | hge
  · rw [List.getElem?_append_left hlt] at hi
    rw [if_neg, h i hash' hi]
    rintro rfl
    exact hnew (List.mem_of_getElem? hi)
  · rw [List.getElem?_append_right hge, List.getElem?_singleton] at hi
    split at hi
    · rename_i hlast
      cases hi
      rw [if_pos rfl, show i = hashes.length by omega]
    · cases hi

def announced (hash : Hash) (txIndex i : Nat) : ParsedTx := ⟨i, hash, .ofNat txIndex, 0, false⟩

variable {st : ParseState}

theorem parseEvent_txHashEvent (hformat : st.format ≠ .format1)
    (hindex : (blockTxIndex + msgIndex).toNat < 2 ^ 31) :
    parseEvent texts st (txHashEvent texts msg blockTxIndex msgIndex) =
      .ok ⟨.format2, st.eventIndex,
        st.parsed.txs ++
          [announced msg.hash (blockTxIndex + msgIndex).toNat st.parsed.txs.length],
        st.parsed.txHashes.set msg.hash st.parsed.txs.length⟩ := by
  have hdiscover : st.format.discover (txHashEvent texts msg blockTxIndex msgIndex).attributes =
      .format2 := by
    cases hst : st.format with
    | unknown => rfl
    | format1 => exact absurd hst hformat
    | format2 => rfl
  rw [parseEvent, if_neg (fun h => h rfl), hdiscover]
  dsimp only
  rw [if_pos (by rfl), ParsedTxs.newTx, fillTxAttributes_txHashEvent hindex]
  rfl

theorem parseEvent_update (hformat : st.format = .format2) (hlength : attrs.length ≠ 2) :
    parseEvent texts st ⟨eventTypeEthereumTx, attrs⟩ =
      (st.parsed.updateTx texts st.eventIndex attrs).map (⟨.format2, st.eventIndex + 1, ·⟩) := by
  rw [parseEvent, if_neg (fun h => h rfl), hformat]
  dsimp only [EventFormat.discover]
  rw [if_neg hlength, if_neg nofun]

theorem parseEvent_ethereumTx {old : ParsedTx} (hformat : st.format = .format2)
    (hold : st.parsed.txs[st.eventIndex]? = some old) (hhash : old.hash = response.hash)
    (hindex : txIndex.toNat < 2 ^ 31) :
    parseEvent texts st (withMsgIndex st.eventIndex
        ⟨eventTypeEthereumTx, ethereumTxAttributes texts msg txIndex txHash response⟩) =
      .ok ⟨.format2, st.eventIndex + 1,
        st.parsed.txs.set st.eventIndex
          ⟨st.eventIndex, response.hash, .ofNat txIndex.toNat, response.gasUsed, response.failed⟩,
        st.parsed.txHashes⟩ := by
  have hlength (attr : TxAttribute) :
      (ethereumTxAttributes texts msg txIndex txHash response ++ [attr]).length ≠ 2 := by
    simp only [ethereumTxAttributes, List.length_append, List.length_cons]
    omega
  refine (parseEvent_update hformat (hlength _)).trans ?_
  rw [ParsedTxs.updateTx, fillTxAttributes_ethereumTx hindex, hold]
  show Except.ok _ = _
  rw [if_neg (not_not.mpr hhash.symm)]

/-! ## Runs -/

def announcedTxs (blockTxIndex k : Nat) (msgs : List MsgEthereumTx) : List ParsedTx :=
  (msgs.zipIdx k).map fun (msg, i) => announced msg.hash (blockTxIndex + i) i

theorem toNat_add_ofNat (h : blockTxIndex.toNat + i < 2 ^ 31) :
    (blockTxIndex + .ofNat i).toNat = blockTxIndex.toNat + i := by
  rw [UInt64.toNat_add, UInt64.toNat_ofNat']
  omega

variable {msgs : List MsgEthereumTx}

theorem run_txHashEvents (hformat : st.format ≠ .format1)
    (hindexed : Indexed (st.parsed.txs.map (·.hash)) st.parsed.txHashes)
    (hnodup : (st.parsed.txs.map (·.hash) ++ msgs.map (·.hash)).Nodup)
    (hindex : blockTxIndex.toNat + st.parsed.txs.length + msgs.length ≤ 2 ^ 31) :
    ∃ st', (((msgs.zipIdx st.parsed.txs.length).map fun (msg, i) =>
        txHashEvent texts msg blockTxIndex (.ofNat i)).foldlM (parseEvent texts) st) = .ok st' ∧
      st'.format = (if msgs = [] then st.format else .format2) ∧
      st'.eventIndex = st.eventIndex ∧
      st'.parsed.txs = st.parsed.txs ++
        announcedTxs blockTxIndex.toNat st.parsed.txs.length msgs ∧
      Indexed (st'.parsed.txs.map (·.hash)) st'.parsed.txHashes := by
  induction msgs generalizing st with
  | nil => exact ⟨st, rfl, rfl, rfl, by simp [announcedTxs], hindexed⟩
  | cons msg rest ih =>
    rw [List.length_cons] at hindex
    have htxIndex := @toNat_add_ofNat blockTxIndex st.parsed.txs.length (by omega)
    have hnew : msg.hash ∉ st.parsed.txs.map (·.hash) := by
      intro hmem
      exact List.disjoint_of_nodup_append hnodup hmem (by simp)
    obtain ⟨st', hrun, hformat', hevent, htxs, hindexed'⟩ := @ih ⟨.format2, st.eventIndex,
      st.parsed.txs ++
        [announced msg.hash (blockTxIndex.toNat + st.parsed.txs.length) st.parsed.txs.length],
      st.parsed.txHashes.set msg.hash st.parsed.txs.length⟩ nofun
      (by simpa [announced] using hindexed.append hnew) (by simpa [announced] using hnodup)
      (by simp; omega)
    refine ⟨st', ?_, ?_, hevent, ?_, hindexed'⟩
    · have hstep := @parseEvent_txHashEvent texts msg blockTxIndex _ st hformat
        (htxIndex ▸ (by omega : blockTxIndex.toNat + st.parsed.txs.length < 2 ^ 31))
      rw [htxIndex] at hstep
      rw [List.zipIdx_cons, List.map_cons, Run.foldlM_cons_ok hstep]
      simpa using hrun
    · rw [hformat', ite_self, if_neg (List.cons_ne_nil _ _)]
    · rw [htxs]
      simp [announcedTxs]

variable {α : Type} {f : α × Nat → ParsedTx}

theorem map_hash_zipIdx {g : α → Hash} (hf : ∀ a i, (f (a, i)).hash = g a) (l : List α) (k : Nat) :
    ((l.zipIdx k).map f).map (·.hash) = l.map g := by
  induction l generalizing k with
  | nil => rfl
  | cons a rest ih =>
    simp only [List.zipIdx_cons, List.map_cons, hf]
    exact congrArg _ (ih (k + 1))

theorem map_hash_announcedTxs (blockTxIndex k : Nat) (msgs : List MsgEthereumTx) :
    (announcedTxs blockTxIndex k msgs).map (·.hash) = msgs.map (·.hash) :=
  map_hash_zipIdx (fun _ _ => rfl) msgs k

structure Announced (blockTxIndex : UInt64) (msgs : List MsgEthereumTx) (st : ParseState) :
    Prop where
  format : msgs ≠ [] → st.format = .format2
  eventIndex : st.eventIndex = 0
  txs : st.parsed.txs = announcedTxs blockTxIndex.toNat 0 msgs
  indexed : Indexed (msgs.map (·.hash)) st.parsed.txHashes

theorem run_announced (hnodup : (msgs.map (·.hash)).Nodup)
    (hindex : blockTxIndex.toNat + msgs.length ≤ 2 ^ 31) :
    ∃ st, (msgs.zipIdx.map fun (msg, i) =>
        txHashEvent texts msg blockTxIndex (.ofNat i)).foldlM (parseEvent texts) .initial = .ok st ∧
      Announced blockTxIndex msgs st := by
  obtain ⟨st, hrun, hformat, hevent, htxs, hindexed⟩ := @run_txHashEvents texts blockTxIndex
    .initial msgs nofun nofun hnodup hindex
  rw [htxs] at hindexed
  refine ⟨st, hrun, fun hne => by rw [hformat, if_neg hne], hevent, htxs, ?_⟩
  rw [← map_hash_announcedTxs blockTxIndex.toNat 0 msgs]
  exact hindexed

structure Execution (signer : Signer) where
  msg : MsgEthereumTx
  response : MsgEthereumTxResponse
  hash_eq : response.hash = signer.hash msg.data

def executedTxs {signer : Signer} (blockTxIndex k : Nat) (executions : List (Execution signer)) :
    List ParsedTx :=
  (executions.zipIdx k).map fun (e, i) =>
    ⟨i, e.response.hash, .ofNat (blockTxIndex + i), e.response.gasUsed, e.response.failed⟩

def serverEvents (texts : Texts) {signer : Signer} (blockTxIndex : UInt64) (txHash : Option String)
    (k : Nat) (executions : List (Execution signer)) : List TxEvent :=
  (executions.zipIdx k).flatMap fun (e, i) =>
    (ethereumTxEvents texts e.msg (blockTxIndex + .ofNat i) txHash e.response).map (withMsgIndex i)

variable {signer : Signer}

theorem filter_serverEvents_cons (blockTxIndex : UInt64) (txHash : Option String) (k : Nat)
    (e : Execution signer) (rest : List (Execution signer)) :
    (serverEvents texts blockTxIndex txHash k (e :: rest)).filter isEthereumTx =
      withMsgIndex k ⟨eventTypeEthereumTx,
        ethereumTxAttributes texts e.msg (blockTxIndex + .ofNat k) txHash e.response⟩ ::
      (serverEvents texts blockTxIndex txHash (k + 1) rest).filter isEthereumTx := by
  rw [serverEvents, List.zipIdx_cons, List.flatMap_cons, List.filter_append]
  rfl

theorem map_hash_executedTxs (blockTxIndex k : Nat) (executions : List (Execution signer)) :
    (executedTxs blockTxIndex k executions).map (·.hash) = executions.map (·.response.hash) :=
  map_hash_zipIdx (fun _ _ => rfl) executions k

theorem run_ethereumTxEvents {executions : List (Execution signer)} {done pending : List ParsedTx}
    (hformat : executions ≠ [] → st.format = .format2) (htxs : st.parsed.txs = done ++ pending)
    (hdone : st.eventIndex = done.length)
    (hpending : pending.map (·.hash) = executions.map (·.response.hash))
    (hindex : blockTxIndex.toNat + done.length + executions.length ≤ 2 ^ 31) :
    ∃ st', ((serverEvents texts blockTxIndex txHash done.length executions).filter
        isEthereumTx).foldlM (parseEvent texts) st = .ok st' ∧
      st'.parsed.txs = done ++ executedTxs blockTxIndex.toNat done.length executions ∧
      st'.parsed.txHashes = st.parsed.txHashes := by
  induction executions generalizing st done pending with
  | nil =>
    obtain rfl := List.map_eq_nil_iff.mp hpending
    exact ⟨st, rfl, htxs, rfl⟩
  | cons e rest ih =>
    obtain ⟨old, pending, rfl⟩ : ∃ old pending', pending = old :: pending' := by
      cases pending with
      | nil => cases hpending
      | cons old pending => exact ⟨old, pending, rfl⟩
    rw [List.length_cons] at hindex
    obtain ⟨hhash, hpending⟩ := List.cons.inj hpending
    have htxIndex := @toNat_add_ofNat blockTxIndex done.length (by omega)
    have hold : st.parsed.txs[st.eventIndex]? = some old := by
      rw [htxs, hdone]
      simp
    have hstep := @parseEvent_ethereumTx texts e.msg (blockTxIndex + .ofNat done.length) txHash
      e.response st old (hformat nofun) hold hhash (by omega)
    rw [htxIndex, htxs, hdone] at hstep
    obtain ⟨st', hrun, htxs', hhashes⟩ := @ih ⟨.format2, done.length + 1,
      done ++ [⟨done.length, e.response.hash, .ofNat (blockTxIndex.toNat + done.length),
        e.response.gasUsed, e.response.failed⟩] ++ pending, st.parsed.txHashes⟩ _ pending
      (fun _ => rfl) rfl (by simp) hpending (by simp; omega)
    refine ⟨st', ?_, ?_, hhashes⟩
    · rw [filter_serverEvents_cons, Run.foldlM_cons_ok hstep]
      simpa using hrun
    · rw [htxs']
      simp [executedTxs]

/-! ## The outcomes of a transaction -/

def totalGasUsed {signer : Signer} (executions : List (Execution signer)) : UInt64 :=
  (executions.map fun e => e.response.gasUsed).sum

/-- The messages are executed, each with or without an error of the VM, or the block has no gas
left.  The gas of a result is the gas of all executions. -/
inductive Outcome (cfg : AnteConfig) (tx : Ante.Tx)
  | executed (executions : List (Execution cfg.signer))
      (msgs_eq : executions.map (·.msg) = tx.msgs.map (signed cfg)) (txHash : Option String)
  | cutOff (code : UInt32) (code_ne : code ≠ 0) (gasUsed : Int64)

namespace Outcome

variable {cfg : AnteConfig} {tx : Ante.Tx}

def code : Outcome cfg tx → UInt32
  | executed .. => 0
  | cutOff code .. => code

def gasUsed : Outcome cfg tx → Int64
  | executed executions .. => (totalGasUsed executions).toInt64
  | cutOff _ _ gasUsed => gasUsed

def events : Outcome cfg tx → List TxEvent
  | executed executions _ txHash => serverEvents cfg.texts cfg.blockTxIndex txHash 0 executions
  | cutOff .. => []

def entries : Outcome cfg tx → List ParsedTx
  | executed executions .. => executions.zipIdx.map fun (e, i) =>
    ⟨i, e.msg.hash, .ofNat (cfg.blockTxIndex.toNat + i), e.response.gasUsed, e.response.failed⟩
  | cutOff .. => tx.msgs.zipIdx.map fun (msg, i) =>
    ⟨i, msg.hash, .ofNat (cfg.blockTxIndex.toNat + i), msg.data.gas, true⟩

end Outcome

structure ReadsBack (parsed : ParsedTxs) (blockTxIndex : Nat) (entries : List ParsedTx) : Prop where
  txs : parsed.txs = entries
  byHash : ∀ (i : Nat) entry, entries[i]? = some entry → parsed.getTxByHash entry.hash = some entry
  byMsgIndex : ∀ (i : Nat) entry, entries[i]? = some entry → parsed.getTxByMsgIndex i = some entry
  byTxIndex : ∀ (i : Nat) entry, entries[i]? = some entry →
    parsed.getTxByTxIndex (blockTxIndex + i) = some entry

theorem readsBack_of_indexed {entries : List ParsedTx} {blockTxIndex : Nat}
    (hindexed : Indexed (entries.map (·.hash)) txHashes)
    (hfirst : ∀ first, entries[0]? = some first → first.ethTxIndex.toInt = (blockTxIndex : Int)) :
    ReadsBack ⟨entries, txHashes⟩ blockTxIndex entries := by
  have hmsg (i : Nat) (entry : ParsedTx) (hentry : entries[i]? = some entry) :
      ParsedTxs.getTxByMsgIndex ⟨entries, txHashes⟩ i = some entry := by
    obtain ⟨hlt, -⟩ := List.getElem?_eq_some_iff.mp hentry
    rw [ParsedTxs.getTxByMsgIndex, if_neg (by simp; omega)]
    exact hentry
  refine ⟨rfl, fun i entry hentry => ?_, hmsg, fun i entry hentry => ?_⟩
  · have hi := hindexed i entry.hash (by rw [List.getElem?_map, hentry]; rfl)
    simp [ParsedTxs.getTxByHash, hi, hentry]
  · cases entries with
    | nil => cases hentry
    | cons first rest =>
      show ParsedTxs.getTxByMsgIndex _ (_ - first.ethTxIndex.toInt) = _
      rw [hfirst first rfl]
      simpa using hmsg i entry hentry

/-! ## The round trip -/

section

variable {result : ExecTxResult} {tx : Option (List SdkMsg)} {st : ParseState}

theorem parseTxResult_of_success
    (hrun : result.events.foldlM (parseEvent texts) .initial = .ok st) (hcode : result.code = 0) :
    parseTxResult texts result tx =
      .ok ⟨fillGasUsed result.gasUsed.toUInt64 st.parsed.txs, st.parsed.txHashes⟩ := by
  rw [parseTxResult, hrun]
  cases tx with
  | none => rfl
  | some msgs =>
    show (if result.code ≠ 0 then _ else _) = _
    rw [if_neg (not_not.mpr hcode)]
    rfl

theorem parseTxResult_of_failure {msgs : List SdkMsg} {txs : List ParsedTx}
    (hrun : result.events.foldlM (parseEvent texts) .initial = .ok st) (hcode : result.code ≠ 0)
    (hfail : failTxs (fillGasUsed result.gasUsed.toUInt64 st.parsed.txs) msgs = .ok txs) :
    parseTxResult texts result (some msgs) = .ok ⟨txs, st.parsed.txHashes⟩ := by
  rw [parseTxResult, hrun]
  show (if result.code ≠ 0 then _ else _) = _
  rw [if_pos hcode, hfail]
  rfl

end

theorem fillGasUsed_executedTxs (blockTxIndex : Nat) (executions : List (Execution signer)) :
    fillGasUsed (totalGasUsed executions) (executedTxs blockTxIndex 0 executions) =
      executedTxs blockTxIndex 0 executions := by
  cases executions with
  | nil => rfl
  | cons e rest =>
    cases rest with
    | nil => simp [totalGasUsed, executedTxs, fillGasUsed]
    | cons e' rest => rfl

theorem failTxs_announcedTxs (blockTxIndex k : Nat) (msgs : List MsgEthereumTx) :
    failTxs (announcedTxs blockTxIndex k msgs) (msgs.map .ethereumTx) =
      .ok ((msgs.zipIdx k).map fun (msg, i) =>
        ⟨i, msg.hash, .ofNat (blockTxIndex + i), msg.data.gas, true⟩) := by
  induction msgs generalizing k with
  | nil => rfl
  | cons msg rest ih =>
    show (failTxs (announcedTxs blockTxIndex (k + 1) rest) _).map _ = _
    rw [ih]
    rfl

theorem failTxs_fillGasUsed (gasUsed : UInt64) (txs : List ParsedTx) (msgs : List SdkMsg) :
    failTxs (fillGasUsed gasUsed txs) msgs = failTxs txs msgs := by
  unfold fillGasUsed
  split
  · cases msgs with
    | nil => rfl
    | cons msg rest => cases msg <;> rfl
  · rfl

theorem parse_executed {executions : List (Execution signer)} {events : List TxEvent}
    {sdkTx : Option (List SdkMsg)} (hst : Announced blockTxIndex msgs st)
    (hhashes : executions.map (·.response.hash) = msgs.map (·.hash))
    (hindex : blockTxIndex.toNat + msgs.length ≤ 2 ^ 31)
    (hrun : events.foldlM (parseEvent texts) .initial =
      ((serverEvents texts blockTxIndex txHash 0 executions).filter isEthereumTx).foldlM
        (parseEvent texts) st) :
    parseTxResult texts ⟨0, (totalGasUsed executions).toInt64, events⟩ sdkTx =
      .ok ⟨executedTxs blockTxIndex.toNat 0 executions, st.parsed.txHashes⟩ := by
  have hlength : executions.length = msgs.length := by
    simpa using congrArg List.length hhashes
  obtain ⟨st', hserver, htxs, hkept⟩ := @run_ethereumTxEvents texts blockTxIndex txHash
    st _ executions [] _
      (fun hne => hst.format fun hnil => hne (by simpa [hnil] using hlength)) hst.txs
    hst.eventIndex ((map_hash_announcedTxs _ _ _).trans hhashes.symm)
    (by simpa [hlength] using hindex)
  rw [parseTxResult_of_success (hrun.trans hserver) rfl, htxs, List.nil_append, List.length_nil,
    hkept, UInt64.toUInt64_toInt64, fillGasUsed_executedTxs]

theorem parse_cutOff {code : UInt32} {gasUsed : Int64} {events : List TxEvent} (hcode : code ≠ 0)
    (hst : Announced blockTxIndex msgs st)
    (hrun : events.foldlM (parseEvent texts) .initial = .ok st) :
    parseTxResult texts ⟨code, gasUsed, events⟩ (some (msgs.map .ethereumTx)) =
      .ok ⟨msgs.zipIdx.map fun (msg, i) =>
        ⟨i, msg.hash, .ofNat (blockTxIndex.toNat + i), msg.data.gas, true⟩,
          st.parsed.txHashes⟩ := by
  have hfail := failTxs_announcedTxs blockTxIndex.toNat 0 msgs
  rw [← hst.txs, ← failTxs_fillGasUsed gasUsed.toUInt64] at hfail
  exact parseTxResult_of_failure hrun hcode hfail

theorem hash_of_validateBasic (h : msg.validateBasic signer = .ok ()) :
    msg.hash = signer.hash msg.data := by
  by_contra hne
  by_cases hzero : msg.data.gas = 0
  · simp only [MsgEthereumTx.validateBasic, hzero, if_true] at h
    cases h
  · by_cases hoverflow : 2 ^ 63 ≤ msg.data.gas.toNat
    · simp only [MsgEthereumTx.validateBasic, hzero, hoverflow, if_false, if_true] at h
      cases h
    · simp only [MsgEthereumTx.validateBasic, hzero, hoverflow, if_false, if_pos hne] at h
      obtain ⟨_, -, h⟩ := except_bind_ok.mp h
      cases h

theorem toInt_first {l : List α} {blockTxIndex : Nat}
    (hf : ∀ a i, (f (a, i)).ethTxIndex = .ofNat (blockTxIndex + i))
    (hindex : blockTxIndex + l.length ≤ 2 ^ 31) (first : ParsedTx)
    (hfirst : (l.zipIdx.map f)[0]? = some first) : first.ethTxIndex.toInt = blockTxIndex := by
  cases l with
  | nil => cases hfirst
  | cons a rest =>
    cases hfirst
    rw [List.length_cons] at hindex
    rw [hf, Nat.add_zero, Int32.toInt_ofNat_of_lt (by omega)]

variable {cfg : AnteConfig} {mode : Mode} {tx : Ante.Tx} {s s' : AnteState}

def CollisionFree (signer : Signer) (msgs : List MsgEthereumTx) : Prop :=
  ∀ msg ∈ msgs, ∀ msg' ∈ msgs, signer.hash msg.data = signer.hash msg'.data → msg.data = msg'.data

theorem nodup_hashes (hbasic : ∀ msg ∈ tx.msgs, msg.validateBasic cfg.signer = .ok ())
    (hcollision : CollisionFree cfg.signer tx.msgs)
    (hdistinct : tx.msgs.Pairwise fun msg msg' => msg.data ≠ msg'.data) :
    (tx.msgs.map (·.hash)).Nodup := by
  refine List.pairwise_map.mpr (hdistinct.imp_of_mem fun {msg msg'} hmsg hmsg' hne heq => ?_)
  rw [hash_of_validateBasic (hbasic msg hmsg), hash_of_validateBasic (hbasic msg' hmsg')] at heq
  exact hne (hcollision msg hmsg msg' hmsg' heq)

variable {events : List TxEvent}

section

variable {executions : List (Execution cfg.signer)}
  (hbasic : ∀ msg ∈ tx.msgs, msg.validateBasic cfg.signer = .ok ())
  (hmsgs : executions.map (·.msg) = tx.msgs.map (signed cfg))

include hbasic hmsgs

theorem hash_of_execution (e : Execution cfg.signer) (he : e ∈ executions) :
    e.response.hash = e.msg.hash := by
  have hmem : e.msg ∈ tx.msgs.map (signed cfg) := hmsgs ▸ List.mem_map_of_mem he
  obtain ⟨msg, hmsg, heq⟩ := List.mem_map.mp hmem
  have hhash := hash_of_validateBasic (hbasic msg hmsg)
  rw [e.hash_eq, ← heq]
  exact hhash.symm

theorem map_hash_executions : executions.map (·.response.hash) = tx.msgs.map (·.hash) := calc
  executions.map (·.response.hash) = (executions.map (·.msg)).map (·.hash) := by
    rw [List.map_map]
    exact List.map_congr_left (hash_of_execution hbasic hmsgs)
  _ = tx.msgs.map (·.hash) := by
    rw [hmsgs, List.map_map]
    rfl

theorem entries_executed (txHash : Option String) :
    (Outcome.executed executions hmsgs txHash).entries =
      executedTxs cfg.blockTxIndex.toNat 0 executions := by
  refine List.map_congr_left fun ⟨e, i⟩ he => ?_
  show (⟨i, e.msg.hash, _, _, _⟩ : ParsedTx) = ⟨i, e.response.hash, _, _, _⟩
  rw [hash_of_execution hbasic hmsgs e (List.fst_mem_of_mem_zipIdx he)]

theorem readsBack_executed {sdkTx : Option (List SdkMsg)} (txHash : Option String)
    (hst : Announced cfg.blockTxIndex tx.msgs st)
    (hindex : cfg.blockTxIndex.toNat + tx.msgs.length ≤ 2 ^ 31)
    (hrun : events.foldlM (parseEvent cfg.texts) .initial =
      ((serverEvents cfg.texts cfg.blockTxIndex txHash 0 executions).filter isEthereumTx).foldlM
        (parseEvent cfg.texts) st) :
    ∃ parsed, parseTxResult cfg.texts ⟨0, (totalGasUsed executions).toInt64, events⟩ sdkTx =
        .ok parsed ∧
      ReadsBack parsed cfg.blockTxIndex.toNat
        (executedTxs cfg.blockTxIndex.toNat 0 executions) := by
  have hlength : executions.length = tx.msgs.length := by
    simpa using congrArg List.length hmsgs
  have hhashes := map_hash_executions hbasic hmsgs
  refine ⟨_, parse_executed hst hhashes hindex hrun, ?_⟩
  refine readsBack_of_indexed ?_ (toInt_first (fun _ _ => rfl) (by rwa [hlength]))
  rw [map_hash_executedTxs, hhashes]
  exact hst.indexed

end

theorem readsBack_cutOff {code : UInt32} (hcode : code ≠ 0) (gasUsed : Int64)
    (hst : Announced cfg.blockTxIndex tx.msgs st)
    (hindex : cfg.blockTxIndex.toNat + tx.msgs.length ≤ 2 ^ 31)
    (hrun : events.foldlM (parseEvent cfg.texts) .initial = .ok st) :
    ∃ parsed, parseTxResult cfg.texts ⟨code, gasUsed, events⟩ (some (tx.msgs.map .ethereumTx)) =
        .ok parsed ∧
      ReadsBack parsed cfg.blockTxIndex.toNat
        (@Outcome.cutOff cfg tx code hcode gasUsed).entries := by
  refine ⟨_, parse_cutOff hcode hst hrun, ?_⟩
  refine readsBack_of_indexed ?_ (toInt_first (fun _ _ => rfl) hindex)
  rw [map_hash_zipIdx (fun _ _ => rfl)]
  exact hst.indexed

/-- The result of an admitted transaction is read back, whatever its outcome and the events of other
types, if the indices of its messages are below `2 ^ 31`. -/
theorem parseTxResult_readsBack (cfg : AnteConfig) (mode : Mode) (tx : Ante.Tx) {s s' : AnteState}
    (hbasic : ∀ msg ∈ tx.msgs, msg.validateBasic cfg.signer = .ok ()) (hevents : s.events = [])
    (hante : (anteHandle cfg mode tx).run s = .ok () s')
    (hcollision : CollisionFree cfg.signer tx.msgs)
    (hindex : cfg.blockTxIndex.toNat + tx.msgs.length ≤ 2 ^ 31)
    (outcome : Outcome cfg tx) (events : List TxEvent)
    (hinterleaved : events.filter isEthereumTx = (s'.events ++ outcome.events).filter isEthereumTx)
    (sdkTx : Option (List SdkMsg))
    (hsdkTx : outcome.code ≠ 0 → sdkTx = some (tx.msgs.map .ethereumTx)) :
    ∃ parsed, parseTxResult cfg.texts ⟨outcome.code, outcome.gasUsed, events⟩ sdkTx = .ok parsed ∧
      ReadsBack parsed cfg.blockTxIndex.toNat outcome.entries := by
  have hadmitted := admitted_of_anteHandle hante
  have hannounced := hadmitted.events
  rw [hevents, List.nil_append] at hannounced
  have hnodup := nodup_hashes hbasic hcollision (hadmitted.distinct (by omega))
  obtain ⟨st, hante, hst⟩ := @run_announced cfg.texts cfg.blockTxIndex tx.msgs hnodup hindex
  have hrun : events.foldlM (parseEvent cfg.texts) .initial =
      (outcome.events.filter isEthereumTx).foldlM (parseEvent cfg.texts) st := by
    rw [foldlM_parseEvent_filter, hinterleaved, List.filter_append, List.foldlM_append,
      ← foldlM_parseEvent_filter, hannounced, hante]
    rfl
  cases outcome with
  | executed executions hmsgs txHash =>
    rw [entries_executed hbasic hmsgs]
    exact readsBack_executed hbasic hmsgs txHash hst hindex hrun
  | cutOff code hcode gasUsed =>
    rw [hsdkTx hcode]
    exact readsBack_cutOff hcode gasUsed hst hindex hrun

/-! ## Two messages -/

def nonceSigner : Signer :=
  ⟨fun data => Fin.ofNat _ data.nonce.toNat, fun _ => some 7, fun _ => true⟩

def noncesConfig (n : UInt64) : AnteConfig :=
  { anteConfig with
    signer := nonceSigner
    blockTxIndex := n }

def pairTx : Ante.Tx :=
  { transactionWith [21000, 42000] 63000 with
    msgs := (transactionWith [21000, 42000] 63000).msgs.zipIdx.map fun (msg, i) =>
      { msg with hash := Fin.ofNat _ i } }

theorem pairTx_validateBasic : ∀ msg ∈ pairTx.msgs, msg.validateBasic nonceSigner = .ok () := by
  decide +kernel

theorem pairTx_collisionFree : CollisionFree nonceSigner pairTx.msgs := by
  unfold CollisionFree
  decide +kernel

def pairOutcome (n : UInt64) : Outcome (noncesConfig n) pairTx :=
  .executed
    ((pairTx.msgs.map (signed (noncesConfig n))).zipIdx.map fun (msg, i) =>
      ⟨msg, ⟨21000 + .ofNat i, if i = 0 then "" else "execution reverted", [],
        nonceSigner.hash msg.data, []⟩, rfl⟩)
    rfl (some "AB")

theorem pairTx_readsBack : ∃ s', (anteHandle (noncesConfig 5) ⟨false, false, false⟩ pairTx).run
      anteState = .ok () s' ∧
    ∃ parsed, parseTxResult decimalTexts ⟨0, (pairOutcome 5).gasUsed,
        ⟨"coin_spent", []⟩ :: (s'.events ++ (pairOutcome 5).events)⟩ none = .ok parsed ∧
      ReadsBack parsed 5 (pairOutcome 5).entries := by
  obtain ⟨⟨⟩, s', hrun⟩ := exists_of_matches_ok
    (r := (anteHandle (noncesConfig 5) ⟨false, false, false⟩ pairTx).run anteState)
    (by decide +kernel)
  exact ⟨s', hrun, parseTxResult_readsBack (noncesConfig 5) _ pairTx pairTx_validateBasic rfl hrun
    pairTx_collisionFree (by decide +kernel) (pairOutcome 5) _ rfl none fun h => absurd rfl h⟩

end Haqq.Rpc
