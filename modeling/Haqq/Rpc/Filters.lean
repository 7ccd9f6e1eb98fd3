import Haqq.Types
import Haqq.Lib.Bloom

/-!
# Log queries

`rpc/namespaces/ethereum/eth/filters`: `Filter.Logs` walks over the blocks of a range, and the bloom
filter of a block decides whether its logs are read at all.  A range may end up to `maxToOverhang`
blocks after the head; there is no result for such a block, and then the query returns nothing.

* `logsLoop_eq` computes the loop, `blockLogs_eq` what it reads of a block.
* `logs_exact_iff`: when a query returns exactly the matching logs of its range.
-/

namespace Haqq.Rpc

open Lib

structure Log where
  address : Address
  topics : List Hash
  data : Bytes
  blockNumber : Nat
  txHash : Hash
  txIndex : Nat
  blockHash : Hash
  index : Nat
  removed : Bool
  deriving DecidableEq, Repr

/-! ## Block results -/

structure Attribute where
  key : String
  value : Bytes

structure Event where
  type : String
  attributes : List Attribute

/-- Of the result of a transaction only the events are read. -/
structure ResultBlockResults where
  height : Int
  txsResults : List (List Event)
  finalizeBlockEvents : List Event

abbrev Bloom := Lib.Bloom 256 8

inductive FilterError
  /-- "failed to fetch header by hash %s: %w" -/
  | headerByHash (hash : Hash) (err : String)
  /-- "failed to fetch header by number (latest): %w" -/
  | latestHeader (err : String)
  /-- "maximum [from, to] blocks distance: %d" -/
  | blocksDistance (blockLimit : Int)
  /-- "query returned more than %d results" -/
  | tooManyResults (logLimit : Int)
  /-- "block bloom event is not found" -/
  | bloomNotFound
  /-- "failed to fetch block by number %d: %w" -/
  | blockByNumber (height : Int) (err : FilterError)
  /-- "failed to fetch logs block number %d: %w" -/
  | logsOfBlock (height : Int) (err : String)
  /-- `BytesToBloom` panics if it is given too many bytes. -/
  | bloomBytesTooBig (size : Nat)
  | nilPointer
  deriving DecidableEq

/-- The first six bytes of the Keccak hash, and reading a log from JSON. -/
structure LogEnv where
  keccak : Bytes → Fin 6 → UInt8
  unmarshalLog : Bytes → Except String Log

structure Backend where
  /-- `HeaderByNumber` of the latest block; a header may lack a number. -/
  headerByNumber : Except String (Option Int)
  /-- `TendermintBlockByHash`, of which the height is used; it returns nil without an error
  if there is no such block. -/
  tendermintBlockByHash : Hash → Except String (Option Int)
  tendermintBlockResultByNumber : Int → Except String ResultBlockResults

variable (env : LogEnv) (backend : Backend)

def bytesOf (width n : Nat) : Bytes :=
  (List.range width).reverse.map fun i => UInt8.ofNat (n >>> (8 * i))

/-- Three pairs of bytes of the hash give a byte of the bloom and a bit in it. -/
def calcBloomIVs (data : Bytes) : List (Mark 256 8) :=
  let hashbuf := env.keccak data
  let iv (hi lo : UInt8) : Mark 256 8 :=
    (⟨256 - (((hi.toNat * 256 + lo.toNat) &&& 0x7ff) >>> 3) - 1, by omega⟩,
      BitVec.ofNat 8 (1 <<< (lo.toNat &&& 0x7)))
  [iv (hashbuf 0) (hashbuf 1), iv (hashbuf 2) (hashbuf 3), iv (hashbuf 4) (hashbuf 5)]

def addressMarks (address : Address) : List (Mark 256 8) :=
  calcBloomIVs env (bytesOf 20 address.val)

def topicMarks (topic : Hash) : List (Mark 256 8) := calcBloomIVs env (bytesOf 32 topic.val)

def logBloom (log : Log) : Bloom :=
  log.topics.foldl (fun bloom topic => bloom.add (topicMarks env topic))
    (Bloom.empty.add (addressMarks env log.address))

/-- The bytes are put at the end. -/
def bytesToBloom (bytes : Bytes) : Except FilterError Bloom :=
  if bytes.length > 256 then .error (.bloomBytesTooBig bytes.length)
  else
    .ok ⟨Vector.ofFn fun i =>
      ((List.replicate (256 - bytes.length) 0 ++ bytes).getD i 0).toBitVec⟩

def bloomBytes (bloom : Bloom) : Bytes := bloom.words.toList.map UInt8.ofBitVec

theorem bytesToBloom_bloomBytes (bloom : Bloom) : bytesToBloom (bloomBytes bloom) = .ok bloom := by
  have hlength : (bloomBytes bloom).length = 256 := by simp [bloomBytes]
  have hwords : (Vector.ofFn fun i : Fin 256 => ((List.replicate (256 - (bloomBytes bloom).length) 0
      ++ bloomBytes bloom).getD i 0).toBitVec) = bloom.words := by
    ext1 i hi
    rw [hlength]
    simp [bloomBytes]
  rw [bytesToBloom, if_neg (by omega), hwords]

def blockBloom (blockRes : ResultBlockResults) : Except FilterError Bloom :=
  let found := blockRes.finalizeBlockEvents.findSome? fun event =>
    if event.type ≠ "block_bloom" then none
    else event.attributes.find? fun attr => attr.key == "bloom"
  match found with
  | some attr => bytesToBloom attr.value
  | none => .error .bloomNotFound

def parseTxLogsFromEvent (event : Event) : Except String (List Log) :=
  (event.attributes.filter fun attr => attr.key == "txLog").mapM fun attr =>
    env.unmarshalLog attr.value

def allTxLogsFromEvents (events : List Event) : Except String (List (List Log)) :=
  (events.filter fun event => event.type == "tx_log").mapM (parseTxLogsFromEvent env)

def getLogsFromBlockResults (blockRes : ResultBlockResults) : Except String (List (List Log)) :=
  List.flatten <$> blockRes.txsResults.mapM (allTxLogsFromEvents env)

structure Criteria where
  blockHash : Option Hash
  fromBlock : Option Int
  toBlock : Option Int
  addresses : List Address
  topics : List (List Hash)

def includes (addresses : List Address) (a : Address) : Bool := addresses.any fun addr => addr == a

def filterLogs (logs : List Log) (fromBlock toBlock : Option Int) (addresses : List Address)
    (topics : List (List Hash)) : List Log :=
  logs.filter fun log =>
    !(fromBlock.any fun b => b ≥ 0 && b > (log.blockNumber : Int)) &&
    !(toBlock.any fun b => b ≥ 0 && b < (log.blockNumber : Int)) &&
    !(addresses.length > 0 && !includes addresses log.address) &&
    !(topics.length > log.topics.length) &&
    (topics.zip log.topics).all fun (sub, logTopic) =>
      sub.length == 0 || sub.any fun topic => logTopic == topic

def bloomFilter (bloom : Bloom) (addresses : List Address) (topics : List (List Hash)) : Bool :=
  !(addresses.length > 0 && !addresses.any fun addr => bloom.lookup (addressMarks env addr)) &&
  topics.all fun sub => sub.length == 0 || sub.any fun topic => bloom.lookup (topicMarks env topic)

def blockLogs (criteria : Criteria) (blockRes : ResultBlockResults) (bloom : Bloom) :
    Except FilterError (List Log) :=
  if bloomFilter env bloom criteria.addresses criteria.topics then
    match getLogsFromBlockResults env blockRes with
    | .error err => .error (.logsOfBlock blockRes.height err)
    | .ok logsList => .ok (filterLogs logsList.flatten none none criteria.addresses criteria.topics)
  else .ok []

/-! ## Queries -/

def maxToOverhang : Int := 600

/-- A block without a result ends the loop with nil logs and no error. -/
def logsLoop (criteria : Criteria) (logLimit : Int) :
    List Int → List Log → Except FilterError (List Log)
  | [], logs => .ok logs
  | height :: heights, logs =>
    match backend.tendermintBlockResultByNumber height with
    | .error _ => .ok []
    | .ok blockRes => do
      let bloom ← blockBloom blockRes
      let filtered ← (blockLogs env criteria blockRes bloom).mapError (.blockByNumber height)
      if (logs.length + filtered.length : Int) > logLimit then throw (.tooManyResults logLimit)
      else logsLoop criteria logLimit heights (logs ++ filtered)

def heights (first last : Int) : List Int :=
  (List.range (last + 1 - first).toNat).map fun i : Nat => first + (i : Int)

/-- Negative block numbers stand for the head, zero for the first block. -/
def resolve (head number : Int) : Int :=
  if number < 0 then head else if number = 0 then 1 else number

def nonNil {α : Type} : Option α → Except FilterError α
  | some a => .ok a
  | none => .error .nilPointer

def logsByHash (criteria : Criteria) (hash : Hash) : Except FilterError (List Log) :=
  match backend.tendermintBlockByHash hash with
  | .error err => .error (.headerByHash hash err)
  | .ok block => do
    let height ← nonNil block
    match backend.tendermintBlockResultByNumber height with
    | .error _ => .ok []
    | .ok blockRes => do
      let bloom ← blockBloom blockRes
      blockLogs env criteria blockRes bloom

def logsInRange (criteria : Criteria) (logLimit blockLimit head : Int) :
    Except FilterError (List Log) := do
  let fromBlock ← nonNil criteria.fromBlock
  let toBlock ← nonNil criteria.toBlock
  let first := resolve head fromBlock
  let last := resolve head toBlock
  if last - first > blockLimit then throw (.blocksDistance blockLimit)
  if first > head then return []
  logsLoop env backend criteria logLimit
    (heights first (if last > head + maxToOverhang then head + maxToOverhang else last)) []

def logs (criteria : Criteria) (logLimit blockLimit : Int) : Except FilterError (List Log) :=
  match criteria.blockHash.filter (· ≠ 0) with
  | some hash => logsByHash env backend criteria hash
  | none =>
    match backend.headerByNumber with
    | .error err => .error (.latestHeader err)
    | .ok none => .ok []
    | .ok (some head) => logsInRange env backend criteria logLimit blockLimit head

def newRangeFilter (first last : Int) (addresses : List Address) (topics : List (List Hash)) :
    Criteria :=
  ⟨none, some first, some last, addresses, topics⟩

/-- No addresses and an empty position stand for anything. -/
def Criteria.Matches (criteria : Criteria) (log : Log) : Prop :=
  (criteria.addresses = [] ∨ log.address ∈ criteria.addresses) ∧
    criteria.topics.length ≤ log.topics.length ∧
      ∀ i : Fin criteria.topics.length, criteria.topics[i] = [] ∨
        ∃ topic ∈ log.topics[i.val]?, topic ∈ criteria.topics[i]

-- Without the local instance the topic would be searched for among all hashes.
instance (criteria : Criteria) : DecidablePred criteria.Matches := fun log =>
  haveI (i : Fin criteria.topics.length) :
      Decidable (∃ topic ∈ log.topics[i.val]?, topic ∈ criteria.topics[i]) :=
    Option.decidableExistsMem _
  inferInstanceAs (Decidable (_ ∧ _ ∧ _))

structure Chain where
  blocks : List (List (List Log))
  nonempty : 0 < blocks.length

namespace Chain

def head (chain : Chain) : Int := chain.blocks.length

def block (chain : Chain) (height : Int) : List (List Log) :=
  chain.blocks.getD (height - 1).toNat []

def logsAt (chain : Chain) (height : Int) : List Log := (chain.block height).flatten

def matching (chain : Chain) (criteria : Criteria) (first last : Int) : List Log :=
  (heights first last).flatMap fun height => (chain.logsAt height).filter criteria.Matches

end Chain

/-- The node has results exactly for the blocks of the chain, with the unions of the blooms of their
logs. -/
structure Serves (env : LogEnv) (backend : Backend) (chain : Chain) : Prop where
  latest : backend.headerByNumber = .ok (some chain.head)
  results : ∀ height, 1 ≤ height → height ≤ chain.head → ∃ blockRes,
    backend.tendermintBlockResultByNumber height = .ok blockRes ∧
    getLogsFromBlockResults env blockRes = .ok (chain.block height) ∧
    blockBloom blockRes = .ok (Bloom.unions ((chain.logsAt height).map (logBloom env)))
  beyond : ∀ height, chain.head < height →
    ∃ err, backend.tendermintBlockResultByNumber height = .error err

variable {env backend} {criteria : Criteria} {chain : Chain} {log : Log} {logLimit : Int}

variable {topics : List (List Hash)}

theorem all_zip_iff {logTopics : List Hash} (hlen : topics.length ≤ logTopics.length) :
    ((topics.zip logTopics).all fun (sub, logTopic) =>
        sub.length == 0 || sub.any fun topic => logTopic == topic) = true ↔
      ∀ i : Fin topics.length,
        topics[i] = [] ∨ ∃ topic ∈ logTopics[i.val]?, topic ∈ topics[i] := by
  induction topics generalizing logTopics with
  | nil => simp
  | cons sub topics ih =>
    cases logTopics with
    | nil => simp at hlen
    | cons logTopic logTopics =>
      have hrest := ih (Nat.le_of_succ_le_succ hlen)
      rw [List.zip_cons_cons, List.all_cons, Bool.and_eq_true, hrest]
      refine Iff.trans ?_ (Fin.forall_fin_succ (n := topics.length)).symm
      refine and_congr ?_ Iff.rfl
      have hany : (sub.any fun topic => logTopic == topic) = true ↔ logTopic ∈ sub := by
        rw [List.any_beq]
        exact List.contains_iff_mem
      simp [hany]

theorem filterLogs_eq (l : List Log) :
    filterLogs l none none criteria.addresses criteria.topics = l.filter criteria.Matches := by
  refine List.filter_congr fun log _ => ?_
  rw [Bool.eq_iff_iff, decide_eq_true_iff, Criteria.Matches]
  by_cases hlen : criteria.topics.length ≤ log.topics.length
  · rw [Bool.and_eq_true, all_zip_iff hlen]
    have haddr : (!(decide (criteria.addresses.length > 0) &&
        !includes criteria.addresses log.address)) = true ↔
        criteria.addresses = [] ∨ log.address ∈ criteria.addresses := by
      simp [includes, List.length_pos_iff, or_iff_not_imp_left]
    simp only [Option.any_none, Bool.not_false, Bool.true_and, Bool.and_eq_true, haddr, hlen,
      true_and, and_assoc]
    simp [hlen]
  · simp [hlen]

/-! ### The bloom filter -/

theorem lookup_foldl_add {bloom : Bloom} {marks : List (Mark 256 8)}
    (h : bloom.lookup marks = true) (topics : List Hash) :
    (topics.foldl (fun bloom topic => bloom.add (topicMarks env topic)) bloom).lookup marks =
      true := by
  induction topics generalizing bloom with
  | nil => exact h
  | cons topic topics ih => exact ih (Bloom.lookup_add_of_lookup h _)

theorem lookup_address (log : Log) :
    (logBloom env log).lookup (addressMarks env log.address) = true :=
  lookup_foldl_add (Bloom.lookup_add _ _) _

theorem lookup_topic {topic : Hash} (hmem : topic ∈ log.topics) :
    (logBloom env log).lookup (topicMarks env topic) = true := by
  unfold logBloom
  generalize Bloom.empty.add (addressMarks env log.address) = bloom
  generalize log.topics = topics at hmem
  induction topics generalizing bloom with
  | nil => cases hmem
  | cons first rest ih =>
    rcases List.mem_cons.mp hmem with rfl | hmem
    · exact lookup_foldl_add (Bloom.lookup_add bloom _) rest
    · exact ih _ hmem

theorem bloomFilter_of_matches {l : List Log} (hmem : log ∈ l) (hmatch : criteria.Matches log) :
    bloomFilter env (Bloom.unions (l.map (logBloom env))) criteria.addresses criteria.topics =
      true := by
  obtain ⟨haddr, hlen, htopics⟩ := hmatch
  have hbloom : logBloom env log ∈ l.map (logBloom env) := List.mem_map_of_mem hmem
  rw [bloomFilter, Bool.and_eq_true]
  constructor
  · rcases haddr with hnil | haddr
    · simp [hnil]
    · have hfound := Bloom.lookup_unions hbloom (lookup_address log)
      have hany : (criteria.addresses.any fun addr =>
          (Bloom.unions (l.map (logBloom env))).lookup (addressMarks env addr)) = true :=
        List.any_eq_true.mpr ⟨_, haddr, hfound⟩
      simp [hany]
  · refine List.all_eq_true.mpr fun sub hsub => ?_
    obtain ⟨i, hi, rfl⟩ := List.mem_iff_getElem.mp hsub
    rcases htopics ⟨i, hi⟩ with hnil | ⟨topic, htopic, hin⟩
    · have hnil' : criteria.topics[i] = [] := hnil
      simp [hnil']
    · have hfound := Bloom.lookup_unions hbloom
        (lookup_topic (List.mem_of_getElem? (Option.mem_def.mp htopic)))
      rw [Bool.or_eq_true]
      exact .inr (List.any_eq_true.mpr ⟨topic, hin, hfound⟩)

theorem blockLogs_eq {blockRes : ResultBlockResults} {block : List (List Log)}
    (hlogs : getLogsFromBlockResults env blockRes = .ok block) :
    blockLogs env criteria blockRes (Bloom.unions (block.flatten.map (logBloom env))) =
      .ok (block.flatten.filter criteria.Matches) := by
  rw [blockLogs]
  split
  · rw [hlogs, ← filterLogs_eq]
  · rename_i hdrop
    have hnone : block.flatten.filter criteria.Matches = [] := by
      refine List.filter_eq_nil_iff.mpr fun log hmem hmatch => hdrop ?_
      exact bloomFilter_of_matches hmem (of_decide_eq_true hmatch)
    rw [hnone]

/-! ## The walk over the blocks -/

variable {first last : Int}

theorem mem_heights {height : Int} :
    height ∈ heights first last ↔ first ≤ height ∧ height ≤ last := by
  simp only [heights, List.mem_map, List.mem_range]
  constructor
  · rintro ⟨i, hi, rfl⟩
    omega
  · rintro ⟨hfirst, hlast⟩
    exact ⟨(height - first).toNat, by omega, by omega⟩

theorem heights_append {mid : Int} (hfirst : first ≤ mid + 1) (hlast : mid ≤ last) :
    heights first last = heights first mid ++ heights (mid + 1) last := by
  have hlen : (last + 1 - first).toNat =
      (mid + 1 - first).toNat + (last + 1 - (mid + 1)).toNat := by omega
  rw [heights, heights, heights, hlen, List.range_add, List.map_append, List.map_map]
  congr 1
  refine List.map_congr_left fun i _ => ?_
  simp only [Function.comp_apply]
  omega

theorem heights_cons (h : first ≤ last) :
    heights first last = first :: heights (first + 1) last := by
  have hone : heights first first = [first] := by
    simp [heights]
  rw [heights_append (by omega) h, hone, List.singleton_append]

theorem logsLoop_eq (hserves : Serves env backend chain) {hs rest : List Int} {found : List Log}
    (hhs : ∀ height ∈ hs, 1 ≤ height ∧ height ≤ chain.head)
    (hlimit : ((found ++ hs.flatMap fun height =>
      (chain.logsAt height).filter criteria.Matches).length : Int) ≤ logLimit) :
    logsLoop env backend criteria logLimit (hs ++ rest) found =
      logsLoop env backend criteria logLimit rest (found ++ hs.flatMap fun height =>
        (chain.logsAt height).filter criteria.Matches) := by
  induction hs generalizing found with
  | nil => simp
  | cons height hs ih =>
    obtain ⟨hlow, hhigh⟩ := hhs height List.mem_cons_self
    obtain ⟨blockRes, hres, hlogs, hbloom⟩ := hserves.results height hlow hhigh
    rw [List.flatMap_cons, ← List.append_assoc] at hlimit ⊢
    have hfits : ¬ ((found.length + ((chain.logsAt height).filter criteria.Matches).length : Int) >
        logLimit) := by
      simp only [List.length_append] at hlimit
      push_cast at hlimit
      omega
    have hblock : blockLogs env criteria blockRes
        (Bloom.unions ((chain.logsAt height).map (logBloom env))) =
          .ok ((chain.logsAt height).filter criteria.Matches) := blockLogs_eq hlogs
    rw [← ih (fun h hh => hhs h (List.mem_cons_of_mem _ hh)) hlimit, List.cons_append, logsLoop,
      hres]
    simp only [hbloom, hblock, bind, Except.bind, Except.mapError]
    rw [if_neg hfits]

theorem resolve_pos {head number : Int} (hhead : 1 ≤ head) : 1 ≤ resolve head number := by
  unfold resolve
  split
  · exact hhead
  · split
    · exact le_rfl
    · omega

theorem logs_newRangeFilter {blockLimit : Int} {addresses : List Address}
    (hserves : Serves env backend chain) (hfirst : resolve chain.head first ≤ chain.head)
    (hdistance : resolve chain.head last - resolve chain.head first ≤ blockLimit) :
    logs env backend (newRangeFilter first last addresses topics) logLimit blockLimit =
      logsLoop env backend (newRangeFilter first last addresses topics) logLimit
        (heights (resolve chain.head first)
          (if resolve chain.head last > chain.head + maxToOverhang
            then chain.head + maxToOverhang else resolve chain.head last)) [] := by
  have hnear : ¬ resolve chain.head last - resolve chain.head first > blockLimit := by omega
  have hin : ¬ resolve chain.head first > chain.head := by omega
  simp only [logs, newRangeFilter, Option.filter_none, hserves.latest, logsInRange, nonNil, bind,
    Except.bind, if_neg hnear, if_neg hin]

theorem logsLoop_matching (hserves : Serves env backend chain) (rest : List Int)
    (hfirst : 1 ≤ first) (hlast : last ≤ chain.head)
    (hlimit : ((chain.matching criteria first last).length : Int) ≤ logLimit) :
    logsLoop env backend criteria logLimit (heights first last ++ rest) [] =
      logsLoop env backend criteria logLimit rest (chain.matching criteria first last) := by
  have hin : ∀ height ∈ heights first last, 1 ≤ height ∧ height ≤ chain.head := by
    intro height hmem
    obtain ⟨hlow, hhigh⟩ := mem_heights.mp hmem
    exact ⟨hfirst.trans hlow, hhigh.trans hlast⟩
  have hloop : logsLoop env backend criteria logLimit (heights first last ++ rest) [] =
      logsLoop env backend criteria logLimit rest ([] ++ chain.matching criteria first last) :=
    logsLoop_eq hserves hin (by rwa [List.nil_append])
  rwa [List.nil_append] at hloop

theorem logsLoop_within (hserves : Serves env backend chain) (hfirst : 1 ≤ first)
    (hlast : last ≤ chain.head)
    (hlimit : ((chain.matching criteria first last).length : Int) ≤ logLimit) :
    logsLoop env backend criteria logLimit (heights first last) [] =
      .ok (chain.matching criteria first last) := by
  rw [← List.append_nil (heights first last), logsLoop_matching hserves [] hfirst hlast hlimit,
    logsLoop]

theorem logsLoop_beyond (hserves : Serves env backend chain) (hfirst : 1 ≤ first)
    (hhead : first ≤ chain.head) (hlast : chain.head < last)
    (hlimit : ((chain.matching criteria first chain.head).length : Int) ≤ logLimit) :
    logsLoop env backend criteria logLimit (heights first last) [] = .ok [] := by
  have hsplit : heights first last =
      heights first chain.head ++ heights (chain.head + 1) last :=
    heights_append (by omega) hlast.le
  obtain ⟨err, herr⟩ := hserves.beyond (chain.head + 1) (by omega)
  rw [hsplit, logsLoop_matching hserves _ hfirst le_rfl hlimit, heights_cons (by omega), logsLoop,
    herr]

theorem matching_eq_nil_iff :
    chain.matching criteria first last = [] ↔
      ∀ height, first ≤ height → height ≤ last → ∀ log ∈ chain.logsAt height,
        ¬ criteria.Matches log := by
  simp only [Chain.matching, List.flatMap_eq_nil_iff, mem_heights, List.filter_eq_nil_iff,
    decide_eq_true_iff, and_imp]

/-- **Log queries.** For a range within the limits, the query returns exactly the matching logs if
and only if the range ends at the head or before it, or there is nothing to return. -/
theorem logs_exact_iff (env : LogEnv) (backend : Backend) (chain : Chain)
    (hserves : Serves env backend chain) (first last logLimit blockLimit : Int)
    (addresses : List Address) (topics : List (List Hash)) (criteria : Criteria)
    (hcriteria : criteria = newRangeFilter first last addresses topics) (fromBlock toBlock : Int)
    (hfrom : fromBlock = resolve chain.head first) (hto : toBlock = resolve chain.head last)
    (hstart : fromBlock ≤ chain.head) (hdistance : toBlock - fromBlock ≤ blockLimit)
    (hlimit : ((chain.matching criteria fromBlock (min toBlock chain.head)).length : Int) ≤
      logLimit) :
    logs env backend criteria logLimit blockLimit =
        .ok (chain.matching criteria fromBlock (min toBlock chain.head)) ↔
      toBlock ≤ chain.head ∨
        ∀ height, fromBlock ≤ height → height ≤ chain.head → ∀ log ∈ chain.logsAt height,
          ¬ criteria.Matches log := by
  have hpos : 1 ≤ fromBlock := by
    rw [hfrom]
    have hhead := chain.nonempty
    exact resolve_pos (by rw [Chain.head]; omega)
  rw [hcriteria, logs_newRangeFilter hserves (hfrom ▸ hstart) (hfrom ▸ hto ▸ hdistance),
    ← hcriteria, ← hfrom, ← hto]
  rcases le_or_gt toBlock chain.head with hwithin | hbeyond
  · rw [min_eq_left hwithin] at hlimit ⊢
    rw [if_neg (by rw [maxToOverhang]; omega), logsLoop_within hserves hpos hwithin hlimit]
    exact ⟨fun _ => .inl hwithin, fun _ => rfl⟩
  · rw [min_eq_right hbeyond.le] at hlimit ⊢
    have hover : chain.head < if toBlock > chain.head + maxToOverhang
        then chain.head + maxToOverhang else toBlock := by
      unfold maxToOverhang
      split <;> omega
    rw [logsLoop_beyond hserves hpos hstart hover hlimit, ← matching_eq_nil_iff]
    constructor
    · intro heq
      exact .inr (Except.ok.inj heq).symm
    · rintro (hwithin | hnone)
      · omega
      · rw [hnone]

/-! ### A chain of two blocks -/

def toyEnv : LogEnv :=
  ⟨fun _ _ => 0, fun
    | [n] => .ok ⟨⟨n.toNat, lt_trans n.toNat_lt (by decide)⟩, [7], [], 1, 0, 0, 0, 0, false⟩
    | _ => .error "unexpected end of JSON input"⟩

def twoBlocks : Chain := ⟨[[[⟨5, [7], [], 1, 0, 0, 0, 0, false⟩]], []], by decide⟩

def report (height : Int) (events : List (List Event)) (bloom : Bloom) : ResultBlockResults :=
  ⟨height, events, [⟨"block_bloom", [⟨"bloom", bloomBytes bloom⟩]⟩]⟩

theorem blockBloom_report (height : Int) (events : List (List Event)) (bloom : Bloom) :
    blockBloom (report height events bloom) = .ok bloom :=
  bytesToBloom_bloomBytes bloom

def twoBlooms (height : Int) : Bloom :=
  Bloom.unions ((twoBlocks.logsAt height).map (logBloom toyEnv))

def nodeResults : Int → Except String ResultBlockResults
  | 1 => .ok (report 1 [[⟨"tx_log", [⟨"txLog", [5]⟩]⟩]] (twoBlooms 1))
  | 2 => .ok (report 2 [] (twoBlooms 2))
  | _ => .error "height must be less than or equal to the current blockchain height"

def node : Backend := ⟨.ok (some 2), fun _ => .ok none, nodeResults⟩

theorem node_serves : Serves toyEnv node twoBlocks := by
  have hhead : twoBlocks.head = 2 := rfl
  refine ⟨rfl, fun height hlow hhigh => ?_, fun height hbeyond => ?_⟩
  · obtain rfl | rfl : height = 1 ∨ height = 2 := by omega
    · exact ⟨_, rfl, rfl, blockBloom_report 1 _ (twoBlooms 1)⟩
    · exact ⟨_, rfl, rfl, blockBloom_report 2 _ (twoBlooms 2)⟩
  · refine ⟨"height must be less than or equal to the current blockchain height", ?_⟩
    simp only [node]
    unfold nodeResults
    split
    · omega
    · omega
    · rfl

theorem node_logs_upToHead :
    logs toyEnv node (newRangeFilter 1 2 [5] [[7, 8]]) 10 10 =
      .ok (twoBlocks.matching (newRangeFilter 1 2 [5] [[7, 8]]) 1 2) ∧
    twoBlocks.matching (newRangeFilter 1 2 [5] [[7, 8]]) 1 2 =
      [⟨5, [7], [], 1, 0, 0, 0, 0, false⟩] :=
  ⟨(logs_exact_iff toyEnv node twoBlocks node_serves 1 2 10 10 [5] [[7, 8]] _ rfl 1 2 rfl rfl
      (by decide) (by decide) (by decide)).mpr (.inl (by decide)), by decide⟩

theorem node_logs_pastHead :
    logs toyEnv node (newRangeFilter 1 3 [5] [[7, 8]]) 10 10 = .ok [] ∧
    twoBlocks.matching (newRangeFilter 1 3 [5] [[7, 8]]) 1 (min 3 twoBlocks.head) =
      [⟨5, [7], [], 1, 0, 0, 0, 0, false⟩] := by
  refine ⟨?_, by decide⟩
  rw [logs_newRangeFilter node_serves (by decide) (by decide)]
  exact logsLoop_beyond node_serves (by decide) (by decide) (by decide) (by decide)

end Haqq.Rpc
