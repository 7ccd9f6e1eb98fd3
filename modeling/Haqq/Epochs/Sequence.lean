import Haqq.Lib.Run
import Mathlib.Tactic.IntervalCases
import Mathlib.Tactic.Linarith
import Mathlib.Tactic.Ring

/-!
# Epochs

`x/epochs`: at the begin of a block every stored epoch is started if its start time has come, and
ended, at most once, if the block is later than its end.  The counter is incremented before the hook
`AfterEpochEnd` is called, so it carries the number of the epoch that is starting.

* `Follows.step` says what one block does to the counter and the hooks called so far.
* `documented_iff`: when the hooks of a run are those of the documentation.
-/

namespace Haqq.Epochs

open Lib

structure EpochInfo where
  identifier : String
  startTime : Int
  duration : Int
  currentEpoch : Nat
  currentEpochStartTime : Int
  epochCountingStarted : Bool
  currentEpochStartHeight : Int
  deriving DecidableEq, Repr

structure Block where
  time : Int
  height : Int

inductive HookCall
  | beforeEpochStart (identifier : String) (epochNumber : Nat)
  | afterEpochEnd (identifier : String) (epochNumber : Nat)
  deriving DecidableEq, Repr

def HookCall.identifier : HookCall → String
  | beforeEpochStart identifier _ => identifier
  | afterEpochEnd identifier _ => identifier

namespace EpochInfo

variable (info : EpochInfo) (block : Block)

def startInitialEpoch : EpochInfo :=
  { info with
    epochCountingStarted := true
    currentEpoch := 1
    currentEpochStartTime := info.startTime }

def endEpoch : EpochInfo :=
  { info with
    currentEpoch := info.currentEpoch + 1
    currentEpochStartTime := info.currentEpochStartTime + info.duration }

def shouldInitialEpochStart : Bool :=
  !info.epochCountingStarted && decide (info.startTime ≤ block.time)

def shouldEpochEnd : Bool :=
  decide (info.currentEpochStartTime + info.duration < block.time) &&
    !info.shouldInitialEpochStart block && decide (info.startTime ≤ block.time)

/-- The epoch to be stored and the calls of the hooks. -/
def beginBlock : EpochInfo × List HookCall :=
  let info' := { info with currentEpochStartHeight := block.height }
  if info.shouldInitialEpochStart block then
    let started := info'.startInitialEpoch
    (started, [.beforeEpochStart info.identifier started.currentEpoch])
  else if info.shouldEpochEnd block then
    let next := info'.endEpoch
    (next, [.afterEpochEnd info.identifier next.currentEpoch,
      .beforeEpochStart info.identifier next.currentEpoch])
  -- nothing is stored, so the height stays what it was
  else (info, [])

end EpochInfo

/-- The stored epochs in the order of their identifiers, and all calls of the hooks so far. -/
structure State where
  infos : List EpochInfo
  calls : List HookCall
  nodup : (infos.map EpochInfo.identifier).Nodup

theorem beginBlock_identifier (info : EpochInfo) (block : Block) :
    (info.beginBlock block).1.identifier = info.identifier := by
  unfold EpochInfo.beginBlock
  dsimp only
  split
  · rfl
  · split <;> rfl

def beginBlocker (s : State) (block : Block) : State where
  infos := s.infos.map fun info => (info.beginBlock block).1
  calls := s.calls ++ s.infos.flatMap fun info => (info.beginBlock block).2
  nodup := by
    have hsame : (s.infos.map fun info => (info.beginBlock block).1).map EpochInfo.identifier =
        s.infos.map EpochInfo.identifier := by
      rw [List.map_map]
      exact List.map_congr_left fun info _ => beginBlock_identifier info block
    rw [hsame]
    exact s.nodup

def State.getEpochInfo (s : State) (identifier : String) : Option EpochInfo :=
  s.infos.find? fun info => info.identifier == identifier

def State.hooks (s : State) (identifier : String) : List HookCall :=
  s.calls.filter fun call => call.identifier == identifier

/-! ## One epoch -/

def EpochInfo.started (info : EpochInfo) : Nat :=
  if info.epochCountingStarted then info.currentEpoch else 0

/-- The calls for the first `n` epochs; `ended k` is the number carried at the end of epoch
`k`. -/
def hookSequence (identifier : String) (ended : Nat → Nat) : Nat → List HookCall
  | 0 => []
  | 1 => [.beforeEpochStart identifier 1]
  | n + 2 => hookSequence identifier ended (n + 1) ++
      [.afterEpochEnd identifier (ended (n + 1)), .beforeEpochStart identifier (n + 2)]

structure EpochInfo.OnTime (info : EpochInfo) : Prop where
  positive : info.epochCountingStarted = true → 1 ≤ info.currentEpoch
  startTime : info.epochCountingStarted = true →
    info.currentEpochStartTime = info.startTime + (info.currentEpoch - 1) * info.duration

theorem EpochInfo.OnTime.of_fresh {info : EpochInfo} (h : info.epochCountingStarted = false) :
    info.OnTime :=
  ⟨fun hstarted => by simp [h] at hstarted, fun hstarted => by simp [h] at hstarted⟩

/-- A block does nothing to an epoch, starts the first one, or starts the next one. -/
inductive Progress (block : Block) (info : EpochInfo) : EpochInfo × List HookCall → Prop
  | idle (hfresh : info.epochCountingStarted = false → block.time < info.startTime)
      (hstarted : info.epochCountingStarted = true →
        ¬ (info.currentEpochStartTime + info.duration < block.time ∧ info.startTime ≤ block.time)) :
      Progress block info (info, [])
  | first (hfresh : info.epochCountingStarted = false) (htime : info.startTime ≤ block.time) :
      Progress block info
        ({ info with
            epochCountingStarted := true
            currentEpoch := 1
            currentEpochStartTime := info.startTime
            currentEpochStartHeight := block.height },
          hookSequence info.identifier id 1)
  | next (hstarted : info.epochCountingStarted = true)
      (htime : info.currentEpochStartTime + info.duration < block.time)
      (hstart : info.startTime ≤ block.time) :
      Progress block info
        ({ info with
            currentEpoch := info.currentEpoch + 1
            currentEpochStartTime := info.currentEpochStartTime + info.duration
            currentEpochStartHeight := block.height },
          [.afterEpochEnd info.identifier (info.currentEpoch + 1),
            .beforeEpochStart info.identifier (info.currentEpoch + 1)])

theorem beginBlock_progress (info : EpochInfo) (block : Block) :
    Progress block info (info.beginBlock block) := by
  unfold EpochInfo.beginBlock
  dsimp only
  by_cases hinit : info.shouldInitialEpochStart block = true
  · rw [if_pos hinit]
    simp only [EpochInfo.shouldInitialEpochStart, Bool.and_eq_true, Bool.not_eq_true',
      decide_eq_true_eq] at hinit
    exact .first hinit.1 hinit.2
  · rw [if_neg hinit]
    simp only [EpochInfo.shouldInitialEpochStart, Bool.and_eq_true, Bool.not_eq_true',
      decide_eq_true_eq, not_and, not_le] at hinit
    by_cases hend : info.shouldEpochEnd block = true
    · rw [if_pos hend]
      simp only [EpochInfo.shouldEpochEnd, Bool.and_eq_true, decide_eq_true_eq] at hend
      obtain ⟨⟨hlate, -⟩, hstart⟩ := hend
      have hstarted : info.epochCountingStarted = true := by
        by_contra hfresh
        exact absurd (hinit (by simpa using hfresh)) (not_lt.mpr hstart)
      exact .next hstarted hlate hstart
    · rw [if_neg hend]
      refine .idle hinit fun hstarted ⟨hlate, hstart⟩ => hend ?_
      simp [EpochInfo.shouldEpochEnd, EpochInfo.shouldInitialEpochStart, hlate, hstart, hstarted]

variable {block : Block} {info : EpochInfo} {r : EpochInfo × List HookCall}

theorem Progress.onTime (h : Progress block info r) (hinfo : info.OnTime) : r.1.OnTime := by
  cases h with
  | idle => exact hinfo
  | first => exact ⟨fun _ => le_rfl, fun _ => by simp⟩
  | next hstarted =>
    refine ⟨fun _ => Nat.le_add_left 1 _, fun _ => ?_⟩
    simp only [hinfo.startTime hstarted]
    push_cast
    ring

theorem Progress.started (h : Progress block info r) (hinfo : info.OnTime) :
    r.1.started = info.started ∧ r.2 = [] ∨
    r.1.started = info.started + 1 ∧
      hookSequence info.identifier (· + 1) (info.started + 1) =
        hookSequence info.identifier (· + 1) info.started ++ r.2 := by
  cases h with
  | idle => exact .inl ⟨rfl, rfl⟩
  | first hfresh =>
    refine .inr ⟨by simp [EpochInfo.started, hfresh], ?_⟩
    simp [EpochInfo.started, hfresh, hookSequence]
  | next hstarted =>
    refine .inr ⟨by simp [EpochInfo.started, hstarted], ?_⟩
    obtain ⟨n, hn⟩ := Nat.exists_eq_add_of_le (hinfo.positive hstarted)
    rw [Nat.add_comm] at hn
    simp [EpochInfo.started, hstarted, hn, hookSequence]

/-! ## One epoch in a run -/

def EpochInfo.step (s : EpochInfo × List HookCall) (block : Block) : EpochInfo × List HookCall :=
  ((s.1.beginBlock block).1, s.2 ++ (s.1.beginBlock block).2)

theorem find?_map_beginBlock (infos : List EpochInfo) (identifier : String) (block : Block) :
    (infos.map fun info => (info.beginBlock block).1).find? (·.identifier == identifier) =
      (infos.find? (·.identifier == identifier)).map fun info => (info.beginBlock block).1 := by
  rw [List.find?_map]
  simp only [Function.comp_def, beginBlock_identifier]

theorem beginBlock_calls_identifier (info : EpochInfo) (block : Block) :
    ∀ call ∈ (info.beginBlock block).2, call.identifier = info.identifier := by
  have h := beginBlock_progress info block
  generalize info.beginBlock block = r at h ⊢
  cases h with
  | idle => simp
  | first => simp [hookSequence, HookCall.identifier]
  | next => simp [HookCall.identifier]

theorem filter_flatMap_beginBlock {infos : List EpochInfo} {info : EpochInfo} (block : Block)
    (hnodup : (infos.map EpochInfo.identifier).Nodup)
    (hfind : infos.find? (·.identifier == info.identifier) = some info) :
    (infos.flatMap fun info => (info.beginBlock block).2).filter
      (fun call => call.identifier == info.identifier) = (info.beginBlock block).2 := by
  induction infos with
  | nil => cases hfind
  | cons first rest ih =>
    rw [List.map_cons, List.nodup_cons] at hnodup
    rw [List.flatMap_cons, List.filter_append]
    by_cases hfirst : first.identifier = info.identifier
    · have heq : first = info := by simpa [hfirst] using hfind
      subst heq
      have hown : (first.beginBlock block).2.filter (·.identifier == first.identifier) =
          (first.beginBlock block).2 := by
        rw [List.filter_eq_self]
        intro call hcall
        simp [beginBlock_calls_identifier first block call hcall]
      have hother : (rest.flatMap fun info => (info.beginBlock block).2).filter
          (·.identifier == first.identifier) = [] := by
        rw [List.filter_eq_nil_iff]
        intro call hcall heq
        obtain ⟨other, hmem, hcall⟩ := List.mem_flatMap.mp hcall
        rw [beginBlock_calls_identifier other block call hcall, beq_iff_eq] at heq
        exact hnodup.1 (heq ▸ List.mem_map_of_mem hmem)
      rw [hown, hother, List.append_nil]
    · have hrest : rest.find? (·.identifier == info.identifier) = some info := by
        simpa [hfirst] using hfind
      have hnone : (first.beginBlock block).2.filter (·.identifier == info.identifier) = [] := by
        rw [List.filter_eq_nil_iff]
        intro call hcall heq
        rw [beginBlock_calls_identifier first block call hcall, beq_iff_eq] at heq
        exact hfirst heq
      rw [hnone, List.nil_append, ih hnodup.2 hrest]

variable {identifier : String}

theorem after_getEpochInfo (s : State) (blocks : List Block)
    (hfind : s.getEpochInfo identifier = some info) :
    (Run.after beginBlocker s blocks).getEpochInfo identifier =
        some (Run.after EpochInfo.step (info, s.hooks identifier) blocks).1 ∧
      (Run.after beginBlocker s blocks).hooks identifier =
        (Run.after EpochInfo.step (info, s.hooks identifier) blocks).2 := by
  induction blocks generalizing s info with
  | nil => exact ⟨hfind, rfl⟩
  | cons block rest ih =>
    have hid : info.identifier = identifier := by simpa using List.find?_some hfind
    have hnext : (beginBlocker s block).getEpochInfo identifier =
        some (info.beginBlock block).1 := by
      rw [State.getEpochInfo] at hfind ⊢
      rw [beginBlocker, find?_map_beginBlock, hfind, Option.map_some]
    have hhooks : (beginBlocker s block).hooks identifier =
        s.hooks identifier ++ (info.beginBlock block).2 := by
      subst hid
      rw [State.hooks, beginBlocker, List.filter_append,
        filter_flatMap_beginBlock block s.nodup hfind]
      rfl
    have hrest := ih (beginBlocker s block) hnext
    rw [hhooks] at hrest
    exact hrest

/-- The epoch lies where its number says and the calls are those for the epochs started. -/
structure Follows (name : String) (s : EpochInfo × List HookCall) : Prop where
  identifier : s.1.identifier = name
  onTime : s.1.OnTime
  calls : s.2 = hookSequence name (· + 1) s.1.started

theorem Follows.step {s : EpochInfo × List HookCall} (h : Follows identifier s) (block : Block) :
    Follows identifier (EpochInfo.step s block) := by
  have hprogress := beginBlock_progress s.1 block
  refine ⟨(beginBlock_identifier s.1 block).trans h.identifier, hprogress.onTime h.onTime, ?_⟩
  rcases hprogress.started h.onTime with ⟨hsame, hnone⟩ | ⟨hnext, hcalls⟩
  · simp only [EpochInfo.step, hsame, hnone, List.append_nil]
    exact h.calls
  · rw [h.identifier] at hcalls
    simp only [EpochInfo.step, hnext]
    rw [hcalls, h.calls]

theorem Follows.of_fresh (hfresh : info.epochCountingStarted = false) :
    Follows info.identifier (info, []) :=
  ⟨rfl, .of_fresh hfresh, by simp [EpochInfo.started, hfresh, hookSequence]⟩

/-! ## The first end of an epoch -/

def afterStart (info : EpochInfo) (blocks : List Block) : List Block :=
  (blocks.dropWhile fun block => decide (block.time < info.startTime)).tail

def WithinFirst (info : EpochInfo) (blocks : List Block) : Prop :=
  ∀ block ∈ blocks, block.time ≤ info.startTime + info.duration

theorem started_mono_step {s : EpochInfo × List HookCall} (h : Follows identifier s)
    (block : Block) : s.1.started ≤ (EpochInfo.step s block).1.started := by
  rcases (beginBlock_progress s.1 block).started h.onTime with ⟨hsame, -⟩ | ⟨hnext, -⟩
  · exact hsame.ge
  · exact (Nat.le_succ _).trans hnext.ge

theorem started_mono {s : EpochInfo × List HookCall} (h : Follows identifier s)
    (blocks : List Block) : s.1.started ≤ (Run.after EpochInfo.step s blocks).1.started := by
  induction blocks generalizing s with
  | nil => exact le_rfl
  | cons block rest ih => exact (started_mono_step h block).trans (ih (h.step block))

theorem started_le_one_iff_of_first {s : EpochInfo × List HookCall} (h : Follows identifier s)
    (hstarted : s.1.epochCountingStarted = true) (hfirst : s.1.currentEpoch = 1)
    (hduration : 0 < s.1.duration) (blocks : List Block) :
    (Run.after EpochInfo.step s blocks).1.started ≤ 1 ↔ WithinFirst s.1 blocks := by
  induction blocks generalizing s with
  | nil => simp [EpochInfo.started, hstarted, hfirst, WithinFirst]
  | cons block rest ih =>
    have hstart : s.1.currentEpochStartTime = s.1.startTime := by
      simp [h.onTime.startTime hstarted, hfirst]
    have hstep := beginBlock_progress s.1 block
    rw [Run.after_cons, WithinFirst, List.forall_mem_cons]
    have hfollows := h.step block
    have hmono := started_mono hfollows rest
    generalize hr : s.1.beginBlock block = r at hstep
    have hs' : (EpochInfo.step s block).1 = r.1 := by rw [← hr]; rfl
    cases hstep with
    | idle _ hnot =>
      have hin : block.time ≤ s.1.startTime + s.1.duration := by
        have := hnot hstarted
        rw [hstart] at this
        by_contra hlate
        exact this ⟨not_le.mp hlate, by linarith [not_le.mp hlate]⟩
      have hrest := ih hfollows (by rw [hs']; exact hstarted) (by rw [hs']; exact hfirst)
        (by rw [hs']; exact hduration)
      rw [hs'] at hrest
      rw [hrest]
      exact ⟨fun hall => ⟨hin, hall⟩, fun hall => hall.2⟩
    | first hfresh => simp [hstarted] at hfresh
    | next _ htime =>
      rw [hs'] at hmono
      have htwo : 2 ≤ (Run.after EpochInfo.step (EpochInfo.step s block) rest).1.started := by
        simpa [EpochInfo.started, hstarted, hfirst] using hmono
      constructor
      · intro hle
        exact absurd (htwo.trans hle) (by decide)
      · rintro ⟨hin, -⟩
        rw [hstart] at htime
        exact absurd hin (not_le.mpr htime)

theorem started_le_one_iff (hfresh : info.epochCountingStarted = false)
    (hduration : 0 < info.duration) (blocks : List Block) :
    (Run.after EpochInfo.step (info, []) blocks).1.started ≤ 1 ↔
      WithinFirst info (afterStart info blocks) := by
  induction blocks with
  | nil => simp [EpochInfo.started, hfresh, WithinFirst, afterStart]
  | cons block rest ih =>
    have hstep := beginBlock_progress info block
    rw [Run.after_cons]
    have hfollows := (Follows.of_fresh hfresh).step block
    generalize hr : info.beginBlock block = r at hstep
    have hs' : EpochInfo.step (info, []) block = r := by
      rw [← hr, EpochInfo.step, List.nil_append]
    rw [hs'] at hfollows ⊢
    cases hstep with
    | idle hnot =>
      rw [ih, afterStart, afterStart, List.dropWhile_cons_of_pos (by simpa using hnot hfresh)]
    | first _ htime =>
      rw [started_le_one_iff_of_first hfollows rfl rfl hduration, afterStart,
        List.dropWhile_cons_of_neg (by simpa using htime)]
      rfl
    | next hstarted => simp [hfresh] at hstarted

/-! ## The documented sequence -/

/-- What the documentation says about a run. -/
structure Documented (s : State) (identifier : String) (blocks : List Block) : Prop where
  onTime : ∀ before, before <+: blocks →
    ∃ info, (Run.after beginBlocker s before).getEpochInfo identifier = some info ∧ info.OnTime
  /-- The calls of the hooks, with the number of the epoch that is ending at its end. -/
  calls : ∀ before, before <+: blocks →
    ∃ info, (Run.after beginBlocker s before).getEpochInfo identifier = some info ∧
      (Run.after beginBlocker s before).hooks identifier =
        hookSequence identifier id info.started
  oneByOne : ∀ before block, before ++ [block] <+: blocks →
    ∃ info info', (Run.after beginBlocker s before).getEpochInfo identifier = some info ∧
      (Run.after beginBlocker s (before ++ [block])).getEpochInfo identifier = some info' ∧
      (info'.started = info.started ∨ info'.started = info.started + 1)

theorem hookSequence_id_eq_iff (identifier : String) (n : Nat) :
    hookSequence identifier (· + 1) n = hookSequence identifier id n ↔ n ≤ 1 := by
  constructor
  · intro heq
    by_contra hlt
    obtain ⟨k, rfl⟩ := Nat.exists_eq_add_of_le' (not_le.mp hlt)
    simp only [hookSequence] at heq
    have hlast := (List.append_inj' heq rfl).2
    simp at hlast
  · intro hle
    interval_cases n <;> rfl

section Runs

variable {s : State} {identifier : String}

theorem follows_after (hcalls : s.calls = []) (hfind : s.getEpochInfo identifier = some info)
    (hfresh : info.epochCountingStarted = false) (blocks : List Block) :
    (Run.after beginBlocker s blocks).getEpochInfo identifier =
        some (Run.after EpochInfo.step (info, []) blocks).1 ∧
      (Run.after beginBlocker s blocks).hooks identifier =
        (Run.after EpochInfo.step (info, []) blocks).2 ∧
      Follows identifier (Run.after EpochInfo.step (info, []) blocks) := by
  have hid : info.identifier = identifier := by simpa using List.find?_some hfind
  have hnone : s.hooks identifier = [] := by simp [State.hooks, hcalls]
  obtain ⟨hinfo, hhooks⟩ := after_getEpochInfo s blocks hfind
  rw [hnone] at hinfo hhooks
  have hstart : Follows identifier (info, []) := hid ▸ Follows.of_fresh hfresh
  exact ⟨hinfo, hhooks, Run.invariant_always (fun t block ht => ht.step block) hstart blocks⟩

theorem started_append (hcalls : s.calls = []) (hfind : s.getEpochInfo identifier = some info)
    (hfresh : info.epochCountingStarted = false) (before : List Block) (block : Block) :
    ∃ info info', (Run.after beginBlocker s before).getEpochInfo identifier = some info ∧
      (Run.after beginBlocker s (before ++ [block])).getEpochInfo identifier = some info' ∧
      (info'.started = info.started ∨ info'.started = info.started + 1) := by
  obtain ⟨hinfo, -, hfollows⟩ := follows_after hcalls hfind hfresh before
  obtain ⟨hnext, -, -⟩ := follows_after hcalls hfind hfresh (before ++ [block])
  rw [Run.after_append EpochInfo.step] at hnext
  refine ⟨_, _, hinfo, hnext, ?_⟩
  rcases (beginBlock_progress _ block).started hfollows.onTime with ⟨hsame, -⟩ | ⟨hmore, -⟩
  · exact .inl hsame
  · exact .inr hmore

end Runs

/-- An epoch follows its documentation in a run exactly if no epoch ends in it. In any case every
epoch lies where its number says, epochs are started one by one, and only the number at the end of
an epoch differs. -/
theorem documented_iff (s : State) (hcalls : s.calls = []) (identifier : String) (info : EpochInfo)
    (hfind : s.getEpochInfo identifier = some info) (hduration : 0 < info.duration)
    (hfresh : info.epochCountingStarted = false) (blocks : List Block) :
    (∀ before, ∃ info', (Run.after beginBlocker s before).getEpochInfo identifier = some info' ∧
      info'.OnTime ∧ (Run.after beginBlocker s before).hooks identifier =
        hookSequence identifier (· + 1) info'.started) ∧
    (∀ before block, ∃ info info',
      (Run.after beginBlocker s before).getEpochInfo identifier = some info ∧
      (Run.after beginBlocker s (before ++ [block])).getEpochInfo identifier = some info' ∧
      (info'.started = info.started ∨ info'.started = info.started + 1)) ∧
    (Documented s identifier blocks ↔
      ∀ block ∈ afterStart info blocks, block.time ≤ info.startTime + info.duration) := by
  have hone := started_append hcalls hfind hfresh
  refine ⟨fun before => ?_, hone, ?_⟩
  · obtain ⟨hinfo, hhooks, hfollows⟩ := follows_after hcalls hfind hfresh before
    exact ⟨_, hinfo, hfollows.onTime, hhooks.trans hfollows.calls⟩
  rw [← WithinFirst, ← started_le_one_iff hfresh hduration]
  constructor
  · intro hdoc
    obtain ⟨hinfo, hhooks, hfollows⟩ := follows_after hcalls hfind hfresh blocks
    obtain ⟨last, hlast, hseq⟩ := hdoc.calls blocks List.prefix_rfl
    rw [hinfo] at hlast
    cases hlast
    rw [hhooks, hfollows.calls] at hseq
    exact (hookSequence_id_eq_iff identifier _).mp hseq
  · intro hle
    refine ⟨fun before _ => ?_, fun before hbefore => ?_, fun before block _ => hone before block⟩
    · obtain ⟨hinfo, -, hfollows⟩ := follows_after hcalls hfind hfresh before
      exact ⟨_, hinfo, hfollows.onTime⟩
    · obtain ⟨hinfo, hhooks, hfollows⟩ := follows_after hcalls hfind hfresh before
      obtain ⟨rest, rfl⟩ := hbefore
      rw [Run.after_append EpochInfo.step] at hle
      refine ⟨_, hinfo, ?_⟩
      rw [hhooks, hfollows.calls, hookSequence_id_eq_iff]
      exact (started_mono hfollows rest).trans hle

def dayStore : State where
  infos := [⟨"day", 1000, 86400, 0, 0, false, 0⟩]
  calls := []
  nodup := by decide

theorem dayStore_first_epoch :
    Documented dayStore "day" [⟨900, 1⟩, ⟨1000, 2⟩, ⟨87400, 3⟩] :=
  (documented_iff dayStore rfl "day" ⟨"day", 1000, 86400, 0, 0, false, 0⟩ rfl (by decide) rfl
    [⟨900, 1⟩, ⟨1000, 2⟩, ⟨87400, 3⟩]).2.2.mpr (by decide)

theorem dayStore_second_epoch :
    (Run.after beginBlocker dayStore [⟨1000, 1⟩, ⟨87401, 2⟩]).calls =
        [.beforeEpochStart "day" 1, .afterEpochEnd "day" 2, .beforeEpochStart "day" 2] ∧
      ¬ Documented dayStore "day" [⟨1000, 1⟩, ⟨87401, 2⟩] := by
  refine ⟨by decide, fun hdoc => ?_⟩
  obtain ⟨info, hinfo, hcalls⟩ := hdoc.calls _ List.prefix_rfl
  have hlast : (Run.after beginBlocker dayStore [⟨1000, 1⟩, ⟨87401, 2⟩]).getEpochInfo "day" =
      some ⟨"day", 1000, 86400, 2, 87400, true, 2⟩ := by decide
  rw [hlast] at hinfo
  cases hinfo
  exact absurd hcalls (by decide)

end Haqq.Epochs
