import Haqq.Lib.Run
import Mathlib.Data.UInt

/-!
# The event bus

`memEventBus` of `rpc/ethereum/pubsub`, run by any number of goroutines.  A step is what a goroutine
does under one lock: `AddTopic` and `Subscribe` look the topic up in one step and change the maps in
another, and a publisher receives, passes on, closes and deletes in steps of their own.  A channel
keeps what it has received and how often it was closed.

* `Sound.step` is the invariant of all runs, `Orderly.step` that of safe ones.
* `safe_runs_deliver`: no run panics, and the safe ones deliver what the bus promises.
-/

namespace Haqq.Rpc.EventBus

open Lib Function

/-- The source of a topic: what is sent and not received yet. -/
structure Feed (E : Type) where
  pending : List E
  closed : Bool

/-- Where a goroutine is in `publishTopic`. -/
inductive Phase (E : Type)
  | receiving
  | publishing (e : E)
  | closing
  | deleting

structure Publisher (E : Type) where
  name : String
  src : Nat
  phase : Phase E

structure Subscriber where
  name : String
  id : UInt64
  chan : Nat

/-- With the source of the topic that `Subscribe` found, the sources of the topic removed before and
the events with their sources. -/
structure Channel (E : Type) where
  name : String
  src : Nat
  id : UInt64
  stale : List Nat
  received : List (Nat × E)
  closes : Nat
  unsubscribed : Bool

/-- The bus and all goroutines that use it. -/
structure Bus (E : Type) where
  topics : String → Option Nat
  subscribers : List Subscriber
  currentUniqueID : UInt64
  sources : Nat → Feed E
  /-- Calls of `AddTopic` and `Subscribe` after the lookup. -/
  adding : List (String × Nat)
  subscribing : List (String × Nat)
  publishers : Nat → Option (Publisher E)
  spawned : Nat
  channels : Nat → Channel E
  obtained : Nat
  adds : String → Nat
  removed : String → List Nat
  /-- A send on a closed channel, or the second close of one. -/
  panicked : Bool

/-- One step of a goroutine, or of a source of events. -/
inductive Step (E : Type)
  | produce (src : Nat) (e : E)
  | closeSource (src : Nat)
  | addTopic (name : String) (src : Nat)
  | write (i : Nat)
  | removeTopic (name : String)
  | subscribe (name : String)
  | register (i : Nat)
  | unsubscribe (chan : Nat)
  | publisher (k : Nat) (ready : Nat → Bool)

variable {E : Type}

def newEventBus : Bus E where
  topics _ := none
  subscribers := []
  currentUniqueID := 0
  sources _ := ⟨[], false⟩
  adding := []
  subscribing := []
  publishers _ := none
  spawned := 0
  channels _ := ⟨"", 0, 0, [], [], 0, false⟩
  obtained := 0
  adds _ := 0
  removed _ := []
  panicked := false

namespace Bus

variable (s : Bus E)

def writeTopic (name : String) (src : Nat) : Bus E :=
  { s with
    topics := update s.topics name (some src)
    publishers := update s.publishers s.spawned (some ⟨name, src, .receiving⟩)
    spawned := s.spawned + 1
    adds := update s.adds name (s.adds name + 1)
    removed := update s.removed name ((s.removed name).filter (· ≠ src)) }

def deleteTopic (name : String) : Bus E :=
  { s with
    topics := update s.topics name none
    adds := update s.adds name 0
    removed := update s.removed name ((s.topics name).toList ++ s.removed name) }

def without (name : String) (id : UInt64) : List Subscriber :=
  s.subscribers.filter fun sub => ¬ (sub.name = name ∧ sub.id = id)

/-- The part of `Subscribe` under the lock; an entry with the same number is overwritten. -/
def registerSubscriber (name : String) (src : Nat) : Bus E :=
  let id := s.currentUniqueID + 1
  { s with
    currentUniqueID := id
    subscribers := ⟨name, id, s.obtained⟩ :: s.without name id
    channels := update s.channels s.obtained
      ⟨name, src, id, s.removed name, [], 0, false⟩
    obtained := s.obtained + 1 }

def unsubscribe (chan : Nat) : Bus E :=
  { s with
    subscribers := s.without (s.channels chan).name (s.channels chan).id
    channels := update s.channels chan { s.channels chan with unsubscribed := true } }

def registrations (name : String) (chan : Nat) : Nat :=
  s.subscribers.countP fun sub => sub.name = name ∧ sub.chan = chan

/-- Sends without waiting: a subscriber that is not ready misses the event.  A send on a closed
channel panics whether anyone is ready or not. -/
def publishAllSubscribers (name : String) (src : Nat) (e : E) (ready : Nat → Bool) : Bus E :=
  { s with
    channels := fun i =>
      if ready i = true ∧ 0 < s.registrations name i then
        { s.channels i with received := (src, e) :: (s.channels i).received }
      else s.channels i
    panicked := s.panicked || s.subscribers.any fun sub =>
      sub.name = name ∧ 0 < (s.channels sub.chan).closes }

def closeAllSubscribers (name : String) : Bus E :=
  { s with
    subscribers := s.subscribers.filter fun sub => sub.name ≠ name
    channels := fun i =>
      { s.channels i with closes := (s.channels i).closes + s.registrations name i }
    panicked := s.panicked || s.subscribers.any fun sub =>
      sub.name = name ∧ 1 < (s.channels sub.chan).closes + s.registrations name sub.chan }

def setPhase (k : Nat) (p : Publisher E) (phase : Phase E) : Bus E :=
  { s with publishers := update s.publishers k (some { p with phase }) }

def setFeed (src : Nat) (feed : Feed E) : Bus E :=
  { s with sources := update s.sources src feed }

/-- One round of the loop of a publisher, in the steps between which others can run. -/
def publishTopic (k : Nat) (p : Publisher E) (ready : Nat → Bool) : Bus E :=
  match p.phase with
  | .receiving =>
    match (s.sources p.src).pending with
    | e :: rest =>
      (s.setFeed p.src { s.sources p.src with pending := rest }).setPhase k p (.publishing e)
    | [] => if (s.sources p.src).closed then s.setPhase k p .closing else s
  | .publishing e => (s.publishAllSubscribers p.name p.src e ready).setPhase k p .receiving
  | .closing => (s.closeAllSubscribers p.name).setPhase k p .deleting
  | .deleting =>
    { s.deleteTopic p.name with publishers := update s.publishers k none }

def step : Step E → Bus E
  | .produce src e =>
    if (s.sources src).closed then s
    else s.setFeed src { s.sources src with pending := (s.sources src).pending ++ [e] }
  | .closeSource src => s.setFeed src { s.sources src with closed := true }
  | .addTopic name src =>
    -- "topic already registered"
    if (s.topics name).isSome then s else { s with adding := (name, src) :: s.adding }
  | .write i =>
    match s.adding[i]? with
    | some (name, src) => { s with adding := s.adding.eraseIdx i }.writeTopic name src
    | none => s
  | .removeTopic name => s.deleteTopic name
  | .subscribe name =>
    match s.topics name with
    | some src => { s with subscribing := (name, src) :: s.subscribing }
    -- "topic not found: %s"
    | none => s
  | .register i =>
    match s.subscribing[i]? with
    | some (name, src) =>
      { s with subscribing := s.subscribing.eraseIdx i }.registerSubscriber name src
    | none => s
  | .unsubscribe chan => if chan < s.obtained then s.unsubscribe chan else s
  | .publisher k ready =>
    match s.publishers k with
    | some p => s.publishTopic k p ready
    | none => s

/-- A publisher of the topic and the source that has not closed the subscribers. -/
def Serving (name : String) (src : Nat) : Prop :=
  ∃ k p, s.publishers k = some p ∧ p.name = name ∧ p.src = src ∧ p.phase ≠ .deleting

/-- A topic is written only if it is not registered and no publisher of its name is left, and a
subscriber is registered only while the topic it has found is there and served.  The numbers must
not wrap around. -/
def Safe : Step E → Prop
  | .write i => ∀ name src, s.adding[i]? = some (name, src) →
    s.topics name = none ∧ ∀ k p, s.publishers k = some p → p.name ≠ name
  | .register i => ∀ name src, s.subscribing[i]? = some (name, src) →
    s.topics name = some src ∧ s.Serving name src ∧ s.currentUniqueID.toNat + 1 < 2 ^ 64
  | _ => True

/-! ## Channels are closed once -/

/-- How often a channel was closed and is still registered. -/
def load (i : Nat) : Nat := (s.channels i).closes + s.subscribers.countP (·.chan = i)

structure Sound : Prop where
  single : ∀ i, s.load i ≤ 1
  fresh : ∀ i, s.obtained ≤ i → s.load i = 0
  calm : s.panicked = false

end Bus

variable {sub : Subscriber} {s' : Bus E} {src : Nat} {feed : Feed E} {phase : Phase E}
  {name : String} {k : Nat} {p : Publisher E}

namespace Bus

variable {s : Bus E}

theorem countP_without (name : String) (id : UInt64) (i : Nat) :
    (s.without name id).countP (·.chan = i) ≤ s.subscribers.countP (·.chan = i) :=
  List.filter_sublist.countP_le

theorem registrations_add (subs : List Subscriber) (name : String) (i : Nat) :
    subs.countP (fun sub => sub.name = name ∧ sub.chan = i) +
      (subs.filter fun sub => sub.name ≠ name).countP (·.chan = i) =
    subs.countP (·.chan = i) := by
  induction subs with
  | nil => rfl
  | cons sub rest ih => grind

theorem closes_add_registrations_le (name : String) (i : Nat) :
    (s.channels i).closes + s.registrations name i ≤ s.load i := by
  have := registrations_add s.subscribers name i
  unfold load registrations
  omega

theorem Sound.closes_eq_zero (h : s.Sound) (hsub : sub ∈ s.subscribers) :
    (s.channels sub.chan).closes = 0 := by
  have hpos : 0 < s.subscribers.countP (·.chan = sub.chan) :=
    List.countP_pos_iff.mpr ⟨sub, hsub, by simp⟩
  have hsingle := h.single sub.chan
  unfold load at hsingle
  omega

theorem Sound.of_load (h : s.Sound) (hobtained : s'.obtained = s.obtained)
    (hload : ∀ i, s'.load i ≤ s.load i) (hcalm : s'.panicked = false) : s'.Sound where
  single i := (hload i).trans (h.single i)
  fresh i hi := Nat.le_zero.mp ((hload i).trans (h.fresh i (hobtained ▸ hi)).le)
  calm := hcalm

theorem Sound.publishAllSubscribers (h : s.Sound) (name : String) (src : Nat) (e : E)
    (ready : Nat → Bool) : (s.publishAllSubscribers name src e ready).Sound := by
  refine h.of_load rfl (fun i => ?_) ?_
  · unfold load Bus.publishAllSubscribers
    dsimp only
    split <;> exact Nat.le_refl _
  · have hany : (s.subscribers.any fun sub =>
        sub.name = name ∧ 0 < (s.channels sub.chan).closes) = false := by
      rw [List.any_eq_false]
      intro sub hsub
      simp [h.closes_eq_zero hsub]
    simp only [Bus.publishAllSubscribers, h.calm, hany, Bool.or_false]

theorem Sound.closeAllSubscribers (h : s.Sound) (name : String) :
    (s.closeAllSubscribers name).Sound := by
  refine h.of_load rfl (fun i => ?_) ?_
  · have hsplit := registrations_add s.subscribers name i
    unfold load Bus.closeAllSubscribers registrations
    dsimp only
    omega
  · have hany : (s.subscribers.any fun sub => sub.name = name ∧
        1 < (s.channels sub.chan).closes + s.registrations name sub.chan) = false := by
      rw [List.any_eq_false]
      intro sub hsub
      have hle := (closes_add_registrations_le name sub.chan).trans (h.single sub.chan)
      simp only [decide_eq_true_eq, not_and, Nat.not_lt]
      exact fun _ => hle
    simp only [Bus.closeAllSubscribers, h.calm, hany, Bool.or_false]

theorem Sound.registerSubscriber (h : s.Sound) (name : String) (src : Nat) :
    (s.registerSubscriber name src).Sound := by
  have hload : ∀ i, (s.registerSubscriber name src).load i ≤
      if i = s.obtained then 1 else s.load i := by
    intro i
    have hle := countP_without (s := s) name (s.currentUniqueID + 1) i
    have hfresh := h.fresh s.obtained (Nat.le_refl _)
    simp only [load, Bus.registerSubscriber, List.countP_cons, decide_eq_true_eq] at hfresh ⊢
    grind [update_apply]
  refine ⟨fun i => (hload i).trans ?_, fun i hi => Nat.le_zero.mp ((hload i).trans ?_), h.calm⟩
  · split
    · exact Nat.le_refl 1
    · exact h.single i
  · have hlt : s.obtained < i := hi
    rw [if_neg hlt.ne', h.fresh i hlt.le]

theorem Sound.unsubscribe (h : s.Sound) (chan : Nat) : (s.unsubscribe chan).Sound := by
  refine h.of_load rfl (fun i => ?_) h.calm
  have hle := countP_without (s := s) (s.channels chan).name (s.channels chan).id i
  simp only [load, Bus.unsubscribe]
  grind [update_apply]

theorem Sound.step (h : s.Sound) (a : Step E) : (s.step a).Sound := by
  cases a with
  | produce src e =>
    simp only [Bus.step]
    split
    · exact h
    · exact { h with }
  | closeSource src => exact { h with }
  | addTopic name src =>
    simp only [Bus.step]
    split
    · exact h
    · exact { h with }
  | write i =>
    simp only [Bus.step]
    split
    · exact { h with }
    · exact h
  | removeTopic name => exact { h with }
  | subscribe name =>
    simp only [Bus.step]
    split
    · exact { h with }
    · exact h
  | register i =>
    simp only [Bus.step]
    split
    · have hrest : { s with subscribing := s.subscribing.eraseIdx i }.Sound := { h with }
      exact hrest.registerSubscriber _ _
    · exact h
  | unsubscribe chan =>
    simp only [Bus.step]
    split
    · exact h.unsubscribe chan
    · exact h
  | publisher k ready =>
    simp only [Bus.step]
    split
    · rename_i p _
      unfold Bus.publishTopic
      split
      · split
        · exact { h with }
        · split
          · exact { h with }
          · exact h
      · exact { h.publishAllSubscribers p.name p.src _ ready with }
      · exact { h.closeAllSubscribers p.name with }
      · exact { h with }
    · exact h

theorem sound_newEventBus : (newEventBus : Bus E).Sound :=
  ⟨fun _ => Nat.zero_le 1, fun _ _ => rfl, rfl⟩

/-! ## Topics and their publishers -/

/-- A topic has a publisher, and a name has at most one. -/
structure Topics (s : Bus E) : Prop where
  unique : ∀ k l p q, s.publishers k = some p → s.publishers l = some q → p.name = q.name → k = l
  spawned : ∀ k p, s.publishers k = some p → k < s.spawned
  topic : ∀ name src, s.topics name = some src →
    ∃ k p, s.publishers k = some p ∧ p.name = name ∧ p.src = src
  adds : ∀ name, s.adds name = (s.topics name).elim 0 fun _ => 1
  removed : ∀ name src, s.topics name = some src → src ∉ s.removed name
  done : ∀ k p, s.publishers k = some p → p.phase = .closing ∨ p.phase = .deleting →
    (s.sources p.src).closed = true ∧ (s.sources p.src).pending = []

/-- A channel that is neither closed nor given back is registered, and it has received only events
of the source of its topic. -/
structure Kept (sources : Nat → Feed E) (subscribers : List Subscriber) (i : Nat) (c : Channel E) :
    Prop where
  id : c.id.toNat = i + 1
  closed : c.closes ≠ 0 → (sources c.src).closed = true
  registered : c.closes = 0 → c.unsubscribed = true ∨ ∃ sub ∈ subscribers, sub.chan = i
  received : ∀ r ∈ c.received, r.1 = c.src
  stale : c.src ∉ c.stale

structure Channels (s : Bus E) : Prop where
  counter : s.currentUniqueID.toNat = s.obtained
  kept : ∀ i < s.obtained, Kept s.sources s.subscribers i (s.channels i)
  served : ∀ sub ∈ s.subscribers, sub.chan < s.obtained ∧ (s.channels sub.chan).name = sub.name ∧
    (s.channels sub.chan).id = sub.id ∧ s.Serving sub.name (s.channels sub.chan).src

section Topics

variable {k : Nat} {p : Publisher E}

theorem update_eq_some {α β : Type} [DecidableEq α] {f : α → Option β} {a b : α} {o : Option β}
    {x : β} : update f a o b = some x ↔ b = a ∧ o = some x ∨ b ≠ a ∧ f b = some x := by
  grind [update_apply]

theorem Topics.setFeed (h : s.Topics)
    (hfeed : (s.sources src).closed = true ∧ (s.sources src).pending = [] →
      feed.closed = true ∧ feed.pending = []) : (s.setFeed src feed).Topics := by
  obtain ⟨unique, spawned, topic, adds, removed, done⟩ := h
  constructor
  all_goals
    simp only [Bus.setFeed]
    grind [update_apply]

theorem Topics.setPhase (h : s.Topics) (hk : s.publishers k = some p)
    (hdone : phase = .closing ∨ phase = .deleting →
      (s.sources p.src).closed = true ∧ (s.sources p.src).pending = []) :
    (s.setPhase k p phase).Topics := by
  obtain ⟨unique, spawned, topic, adds, removed, done⟩ := h
  constructor
  case topic =>
    intro name src hsrc
    obtain ⟨l, q, hl, rfl, rfl⟩ := topic name src hsrc
    by_cases hlk : l = k
    · subst hlk
      cases hk.symm.trans hl
      exact ⟨l, _, update_self .., rfl, rfl⟩
    · exact ⟨l, q, update_eq_some.mpr (.inr ⟨hlk, hl⟩), rfl, rfl⟩
  all_goals
    simp only [Bus.setPhase]
    grind [update_apply]

theorem Topics.deleteTopic (h : s.Topics) (name : String) : (s.deleteTopic name).Topics := by
  obtain ⟨unique, spawned, topic, adds, removed, done⟩ := h
  constructor
  all_goals
    simp only [Bus.deleteTopic]
    grind [update_apply, Option.elim]

theorem Topics.writeTopic (h : s.Topics) (hnone : s.topics name = none)
    (hfree : ∀ k p, s.publishers k = some p → p.name ≠ name) : (s.writeTopic name src).Topics := by
  obtain ⟨unique, spawned, topic, adds, removed, done⟩ := h
  constructor
  case topic =>
    intro name' src' hsrc
    rcases update_eq_some.mp hsrc with ⟨rfl, hsome⟩ | ⟨-, hsrc⟩
    · cases hsome
      exact ⟨s.spawned, _, update_self .., rfl, rfl⟩
    · obtain ⟨k, p, hk, hp⟩ := topic name' src' hsrc
      exact ⟨k, p, update_eq_some.mpr (.inr ⟨(spawned k p hk).ne, hk⟩), hp⟩
  all_goals
    simp only [Bus.writeTopic]
    grind [update_apply, Option.elim]

theorem Topics.retire (h : s.Topics) (hk : s.publishers k = some p) :
    Topics { s.deleteTopic p.name with publishers := update s.publishers k none } := by
  obtain ⟨unique, spawned, topic, adds, removed, done⟩ := h
  constructor
  case topic =>
    intro name src hsrc
    rcases update_eq_some.mp hsrc with ⟨-, hsome⟩ | ⟨hne, hsrc⟩
    · cases hsome
    · obtain ⟨l, q, hl, hname, hq⟩ := topic name src hsrc
      refine ⟨l, q, update_eq_some.mpr (.inr ⟨?_, hl⟩), hname, hq⟩
      rintro rfl
      cases hk.symm.trans hl
      exact hne hname.symm
  all_goals
    simp only [Bus.deleteTopic]
    grind [update_apply, Option.elim]

end Topics

/-! ## Channels and their publishers -/

theorem Channels.congr (h : s.Channels)
    (hsame : s'.currentUniqueID = s.currentUniqueID ∧ s'.obtained = s.obtained ∧
      s'.channels = s.channels ∧ s'.subscribers = s.subscribers)
    (hserving : ∀ sub ∈ s.subscribers, ∀ src, s.Serving sub.name src → s'.Serving sub.name src)
    (hclosed : ∀ src, (s.sources src).closed = true → (s'.sources src).closed = true) :
    s'.Channels := by
  obtain ⟨hid, hobtained, hchannels, hsubs⟩ := hsame
  constructor <;> simp only [hid, hobtained, hchannels, hsubs]
  · exact h.counter
  · intro i hi
    obtain ⟨hid, hold, hregistered, hreceived, hstale⟩ := h.kept i hi
    exact ⟨hid, fun hne => hclosed _ (hold hne), hregistered, hreceived, hstale⟩
  · intro sub hsub
    obtain ⟨hlt, hname, hid, hserves⟩ := h.served sub hsub
    exact ⟨hlt, hname, hid, hserving sub hsub _ hserves⟩

theorem Channels.setFeed (h : s.Channels)
    (hfeed : (s.sources src).closed = true → feed.closed = true) :
    (s.setFeed src feed).Channels := by
  refine h.congr ⟨rfl, rfl, rfl, rfl⟩ (fun _ _ _ hserving => hserving) fun src' hclosed => ?_
  simp only [Bus.setFeed]
  by_cases hsrc : src' = src
  · subst hsrc
    rw [update_self]
    exact hfeed hclosed
  · rwa [update_of_ne hsrc]

theorem Channels.setPhase (h : s.Channels) (hk : s.publishers k = some p)
    (hphase : phase ≠ .deleting ∨ ∀ sub ∈ s.subscribers, sub.name ≠ p.name) :
    (s.setPhase k p phase).Channels := by
  refine h.congr ⟨rfl, rfl, rfl, rfl⟩ ?_ fun _ hclosed => hclosed
  rintro sub hsub src ⟨l, q, hl, hname, hsrc, hne⟩
  by_cases hlk : l = k
  · subst hlk
    cases hk.symm.trans hl
    rcases hphase with hphase | hphase
    · exact ⟨l, _, update_self .., hname, hsrc, hphase⟩
    · exact absurd hname.symm (hphase sub hsub)
  · exact ⟨l, q, (update_of_ne hlk ..).trans hl, hname, hsrc, hne⟩

theorem Channels.registerSubscriber (h : s.Channels) (htopics : s.Topics)
    (htopic : s.topics name = some src) (hserving : s.Serving name src)
    (hfits : s.currentUniqueID.toNat + 1 < 2 ^ 64) : (s.registerSubscriber name src).Channels := by
  have hid : (s.currentUniqueID + 1).toNat = s.obtained + 1 := by
    rw [UInt64.toNat_add, ← h.counter]
    exact Nat.mod_eq_of_lt hfits
  have hnew : (s.registerSubscriber name src).channels s.obtained =
      ⟨name, src, s.currentUniqueID + 1, s.removed name, [], 0, false⟩ := update_self ..
  have hold : ∀ {i}, i < s.obtained →
      (s.registerSubscriber name src).channels i = s.channels i :=
    fun hi => update_of_ne hi.ne ..
  -- the number is new, so no entry is overwritten
  have hmem : ∀ sub, sub ∈ (s.registerSubscriber name src).subscribers ↔
      sub = ⟨name, s.currentUniqueID + 1, s.obtained⟩ ∨ sub ∈ s.subscribers := by
    intro sub
    simp only [Bus.registerSubscriber, List.mem_cons, Bus.without, List.mem_filter,
      decide_eq_true_eq]
    refine or_congr Iff.rfl (and_iff_left_of_imp ?_)
    rintro hsub ⟨-, heq⟩
    obtain ⟨hlt, -, hsubid, -⟩ := h.served sub hsub
    have := (h.kept sub.chan hlt).id
    rw [hsubid, heq, hid] at this
    omega
  refine ⟨hid, fun i hi => ?_, fun sub hsub => ?_⟩
  · rcases Nat.lt_succ_iff_lt_or_eq.mp hi with hi | rfl
    · rw [hold hi]
      refine { h.kept i hi with registered := fun hopen => ?_ }
      exact ((h.kept i hi).registered hopen).imp_right
        fun ⟨sub, hsub, hchan⟩ => ⟨sub, (hmem sub).mpr (.inr hsub), hchan⟩
    · rw [hnew]
      exact ⟨hid, fun hne => absurd rfl hne, fun _ => .inr ⟨_, (hmem _).mpr (.inl rfl), rfl⟩, nofun,
        htopics.removed name src htopic⟩
  · rcases (hmem sub).mp hsub with rfl | hsub
    · rw [hnew]
      exact ⟨Nat.lt_succ_self _, rfl, rfl, hserving⟩
    · obtain ⟨hlt, hrest⟩ := h.served sub hsub
      rw [hold hlt]
      exact ⟨Nat.lt_succ_of_lt hlt, hrest⟩

theorem Channels.unsubscribe (h : s.Channels) {chan : Nat} (hobtained : chan < s.obtained) :
    (s.unsubscribe chan).Channels := by
  have hsame : ∀ i, (s.unsubscribe chan).channels i =
      { s.channels i with unsubscribed := (s.channels i).unsubscribed || decide (i = chan) } := by
    intro i
    by_cases hi : i = chan
    · simp [Bus.unsubscribe, hi]
    · simp [Bus.unsubscribe, hi]
  refine ⟨h.counter, fun i hi => ?_, fun sub hsub => ?_⟩
  · rw [hsame]
    refine { h.kept i hi with registered := fun hopen => ?_ }
    rcases (h.kept i hi).registered hopen with hgiven | ⟨sub, hsub, rfl⟩
    · exact .inl (by rw [hgiven]; rfl)
    · by_cases hchan : sub.chan = chan
      · exact .inl (by simp [hchan])
      · refine .inr ⟨sub, List.mem_filter.mpr ⟨hsub, ?_⟩, rfl⟩
        simp only [decide_eq_true_eq, not_and]
        intro _ heq
        have hid := (h.kept sub.chan hi).id
        rw [(h.served sub hsub).2.2.1, heq, (h.kept chan hobtained).id] at hid
        omega
  · rw [hsame]
    exact h.served sub (List.mem_of_mem_filter hsub)

/-- The publisher of a name is the one that serves its subscribers. -/
theorem Channels.src_eq (h : s.Channels) (htopics : s.Topics) (hk : s.publishers k = some p)
    (hsub : sub ∈ s.subscribers) (hname : sub.name = p.name) :
    (s.channels sub.chan).src = p.src := by
  obtain ⟨-, -, -, l, q, hl, hqname, hqsrc, -⟩ := h.served sub hsub
  obtain rfl := htopics.unique l k q p hl hk (hqname.trans hname)
  cases hl.symm.trans hk
  exact hqsrc.symm

theorem exists_of_registrations {i : Nat} (h : 0 < s.registrations name i) :
    ∃ sub ∈ s.subscribers, sub.name = name ∧ sub.chan = i := by
  obtain ⟨sub, hsub, hsame⟩ := List.countP_pos_iff.mp h
  exact ⟨sub, hsub, of_decide_eq_true hsame⟩

theorem Channels.publishAllSubscribers (h : s.Channels) (htopics : s.Topics)
    (hk : s.publishers k = some p) (e : E) (ready : Nat → Bool) :
    (s.publishAllSubscribers p.name p.src e ready).Channels := by
  have hsame : ∀ i, ∃ received, (s.publishAllSubscribers p.name p.src e ready).channels i =
      { s.channels i with received } ∧ ∀ r ∈ received, r ∈ (s.channels i).received ∨
        r = (p.src, e) ∧ 0 < s.registrations p.name i := by
    intro i
    by_cases hready : ready i = true ∧ 0 < s.registrations p.name i
    · exact ⟨_, if_pos hready, fun r hr => (List.mem_cons.mp hr).symm.imp_right (⟨·, hready.2⟩)⟩
    · exact ⟨_, if_neg hready, fun _ hr => .inl hr⟩
  refine ⟨h.counter, fun i hi => ?_, fun sub hsub => ?_⟩
  · obtain ⟨_, hi', hreceived⟩ := hsame i
    rw [hi']
    refine { h.kept i hi with received := fun r hr => ?_ }
    rcases hreceived r hr with hr | ⟨rfl, hpos⟩
    · exact (h.kept i hi).received r hr
    · obtain ⟨sub, hsub, hname, rfl⟩ := exists_of_registrations hpos
      exact (h.src_eq htopics hk hsub hname).symm
  · obtain ⟨_, hi', -⟩ := hsame sub.chan
    rw [hi']
    exact h.served sub hsub

theorem Channels.closeAllSubscribers (h : s.Channels) (htopics : s.Topics)
    (hk : s.publishers k = some p) (hclosed : (s.sources p.src).closed = true) :
    (s.closeAllSubscribers p.name).Channels := by
  refine ⟨h.counter, fun i hi => { h.kept i hi with closed := ?_, registered := ?_ },
    fun sub hsub => h.served sub (List.mem_of_mem_filter hsub)⟩
  · intro hne
    by_cases hold : (s.channels i).closes = 0
    · have hpos : 0 < s.registrations p.name i := by
        have hsum : (s.channels i).closes + s.registrations p.name i ≠ 0 := hne
        omega
      obtain ⟨sub, hsub, hname, rfl⟩ := exists_of_registrations hpos
      exact (h.src_eq htopics hk hsub hname).symm ▸ hclosed
    · exact (h.kept i hi).closed hold
  · intro hopen
    have hzero : (s.channels i).closes = 0 ∧ s.registrations p.name i = 0 :=
      Nat.add_eq_zero_iff.mp hopen
    rcases (h.kept i hi).registered hzero.1 with hgiven | ⟨sub, hsub, hchan⟩
    · exact .inl hgiven
    · refine .inr ⟨sub, List.mem_filter.mpr ⟨hsub, ?_⟩, hchan⟩
      have hnot := List.countP_eq_zero.mp hzero.2 sub hsub
      simpa [hchan] using hnot

theorem Channels.retire (h : s.Channels) (hk : s.publishers k = some p)
    (hphase : p.phase = .deleting) :
    Channels { s.deleteTopic p.name with publishers := update s.publishers k none } := by
  refine h.congr ⟨rfl, rfl, rfl, rfl⟩ ?_ fun _ hclosed => hclosed
  rintro sub - src ⟨l, q, hl, hname, hsrc, hne⟩
  have hlk : l ≠ k := by
    rintro rfl
    cases hk.symm.trans hl
    exact hne hphase
  exact ⟨l, q, (update_of_ne hlk ..).trans hl, hname, hsrc, hne⟩

/-! ## Runs -/

/-- What holds in runs of safe steps. -/
structure Orderly (s : Bus E) : Prop where
  topics : s.Topics
  channels : s.Channels

theorem Orderly.setPhase (h : s.Orderly) (hk : s.publishers k = some p)
    (hdone : phase = .closing ∨ phase = .deleting →
      (s.sources p.src).closed = true ∧ (s.sources p.src).pending = [])
    (hphase : phase ≠ .deleting ∨ ∀ sub ∈ s.subscribers, sub.name ≠ p.name) :
    (s.setPhase k p phase).Orderly :=
  ⟨h.topics.setPhase hk hdone, h.channels.setPhase hk hphase⟩

theorem Orderly.publishTopic (h : s.Orderly) (hk : s.publishers k = some p) (ready : Nat → Bool) :
    (s.publishTopic k p ready).Orderly := by
  have hpublished : ∀ e, (s.publishAllSubscribers p.name p.src e ready).Orderly := fun e =>
    ⟨{ h.topics with }, h.channels.publishAllSubscribers h.topics hk e ready⟩
  unfold Bus.publishTopic
  split
  · split
    · rename_i e rest hpending
      have hreceived : (s.setFeed p.src { s.sources p.src with pending := rest }).Orderly := by
        refine ⟨h.topics.setFeed fun hdone => ?_, h.channels.setFeed fun hclosed => hclosed⟩
        rw [hpending] at hdone
        cases hdone.2
      exact hreceived.setPhase hk (by simp) (.inl (by simp))
    · rename_i hpending
      split
      · rename_i hclosed
        exact h.setPhase hk (fun _ => ⟨hclosed, hpending⟩) (.inl (by simp))
      · exact h
  · exact (hpublished _).setPhase hk (by simp) (.inl (by simp))
  · rename_i hphase
    have hdone := h.topics.done k p hk (.inl hphase)
    have hclosed : (s.closeAllSubscribers p.name).Orderly :=
      ⟨{ h.topics with }, h.channels.closeAllSubscribers h.topics hk hdone.1⟩
    exact hclosed.setPhase hk (fun _ => hdone)
      (.inr fun sub hsub => of_decide_eq_true (List.mem_filter.mp hsub).2)
  · rename_i hphase
    exact ⟨h.topics.retire hk, h.channels.retire hk hphase⟩

theorem Orderly.step (h : s.Orderly) {a : Step E} (hsafe : s.Safe a) : (s.step a).Orderly := by
  cases a with
  | produce src e =>
    simp only [Bus.step]
    split
    · exact h
    · rename_i hopen
      exact ⟨h.topics.setFeed fun hdone => absurd hdone.1 hopen,
        h.channels.setFeed fun hclosed => hclosed⟩
  | closeSource src =>
    exact ⟨h.topics.setFeed fun hdone => ⟨rfl, hdone.2⟩, h.channels.setFeed fun _ => rfl⟩
  | addTopic name src =>
    simp only [Bus.step]
    split
    · exact h
    · exact ⟨{ h.topics with }, { h.channels with }⟩
  | write i =>
    simp only [Bus.step]
    split
    · rename_i name src hadding
      obtain ⟨hnone, hfree⟩ := hsafe name src hadding
      have hrest : { s with adding := s.adding.eraseIdx i }.Topics := { h.topics with }
      refine ⟨hrest.writeTopic hnone hfree, h.channels.congr ⟨rfl, rfl, rfl, rfl⟩ ?_ fun _ h => h⟩
      rintro sub - src' ⟨k, p, hk, hp⟩
      exact ⟨k, p, (update_of_ne (h.topics.spawned k p hk).ne ..).trans hk, hp⟩
    · exact h
  | removeTopic name => exact ⟨h.topics.deleteTopic name, { h.channels with }⟩
  | subscribe name =>
    simp only [Bus.step]
    split
    · exact ⟨{ h.topics with }, { h.channels with }⟩
    · exact h
  | register i =>
    simp only [Bus.step]
    split
    · rename_i name src hsubscribing
      obtain ⟨htopic, hserving, hfits⟩ := hsafe name src hsubscribing
      have htopics : { s with subscribing := s.subscribing.eraseIdx i }.Topics := { h.topics with }
      have hchannels : { s with subscribing := s.subscribing.eraseIdx i }.Channels :=
        { h.channels with }
      exact ⟨{ htopics with }, hchannels.registerSubscriber htopics htopic hserving hfits⟩
    · exact h
  | unsubscribe chan =>
    simp only [Bus.step]
    split
    · rename_i hlt
      exact ⟨{ h.topics with }, h.channels.unsubscribe hlt⟩
    · exact h
  | publisher k ready =>
    simp only [Bus.step]
    split
    · rename_i p hk
      exact h.publishTopic hk ready
    · exact h

theorem orderly_newEventBus : (newEventBus : Bus E).Orderly where
  topics := ⟨nofun, nofun, nofun, fun _ => rfl, nofun, nofun⟩
  channels := ⟨rfl, nofun, nofun⟩

/-! ## The end of a source -/

/-- The next `n` steps of a publisher, while no subscriber is ready. -/
def publish (s : Bus E) (k n : Nat) : Bus E :=
  Run.after Bus.step s (List.replicate n (.publisher k fun _ => false))

theorem publish_succ {n : Nat} (hk : s.publishers k = some p) :
    s.publish k (n + 1) = (s.publishTopic k p fun _ => false).publish k n := by
  have hstep : s.step (.publisher k fun _ => false) = s.publishTopic k p fun _ => false := by
    simp only [Bus.step, hk]
  rw [publish, List.replicate_succ, Run.after_cons, hstep]
  rfl

theorem exists_closes_of_closing (hk : s.publishers k = some p) (hphase : p.phase = .closing) :
    ∃ n, ∀ i, ((s.publish k n).channels i).closes =
      (s.channels i).closes + s.registrations p.name i := by
  refine ⟨1, fun i => ?_⟩
  rw [publish_succ hk, publishTopic, hphase]
  rfl

theorem exists_closes_of_receiving (hk : s.publishers k = some p) (hphase : p.phase = .receiving)
    (hclosed : (s.sources p.src).closed = true) :
    ∃ n, ∀ i, ((s.publish k n).channels i).closes =
      (s.channels i).closes + s.registrations p.name i := by
  -- the induction is on what the source still holds; each event takes two steps
  induction hpending : (s.sources p.src).pending generalizing s p with
  | nil =>
    obtain ⟨n, hn⟩ := exists_closes_of_closing (s := s.setPhase k p .closing)
      (p := { p with phase := .closing }) (update_self ..) rfl
    refine ⟨n + 1, fun i => ?_⟩
    rw [publish_succ hk, publishTopic, hphase]
    simp only [hpending, hclosed, if_true]
    exact hn i
  | cons e rest ih =>
    have hpublishing : (s.publishTopic k p fun _ => false).publishers k =
        some { p with phase := .publishing e } := by
      simp [publishTopic, hphase, hpending, setPhase]
    have hreceiving : ((s.publishTopic k p fun _ => false).publishTopic k
        { p with phase := .publishing e } fun _ => false).publishers k =
        some { p with phase := .receiving } := update_self ..
    obtain ⟨n, hn⟩ := ih hreceiving rfl
      (by simp [publishTopic, hphase, hpending, setPhase, setFeed, publishAllSubscribers, hclosed])
      (by simp [publishTopic, hphase, hpending, setPhase, setFeed, publishAllSubscribers])
    refine ⟨n + 2, fun i => ?_⟩
    rw [publish_succ hk, publish_succ hpublishing, hn i]
    simp [publishTopic, hphase, hpending, setPhase, setFeed, publishAllSubscribers, registrations]

theorem exists_closes (hk : s.publishers k = some p) (hphase : p.phase ≠ .deleting)
    (hclosed : (s.sources p.src).closed = true) :
    ∃ n, ∀ i, ((s.publish k n).channels i).closes =
      (s.channels i).closes + s.registrations p.name i := by
  cases hcase : p.phase with
  | receiving => exact exists_closes_of_receiving hk hcase hclosed
  | publishing e =>
    have hreceiving : (s.publishTopic k p fun _ => false).publishers k =
        some { p with phase := .receiving } := by
      simp [publishTopic, hcase, setPhase]
    obtain ⟨n, hn⟩ := exists_closes_of_receiving hreceiving rfl
      (by simp [publishTopic, hcase, setPhase, publishAllSubscribers, hclosed])
    refine ⟨n + 1, fun i => ?_⟩
    rw [publish_succ hk, hn i]
    simp [publishTopic, hcase, setPhase, publishAllSubscribers, registrations]
  | closing => exact exists_closes_of_closing hk hcase
  | deleting => exact absurd hcase hphase

/-- What the bus promises: a topic is added once between removals, a channel is closed once, by
the publisher of its topic after the end of the source and unless it is given back, and gets no
events of a source removed before. -/
structure Delivers (s : Bus E) : Prop where
  once : ∀ name, s.adds name ≤ 1
  calm : s.panicked = false
  closed : ∀ i < s.obtained, (s.channels i).closes ≤ 1 ∧
    ((s.channels i).closes = 1 → (s.sources (s.channels i).src).closed = true) ∧
    ((s.channels i).unsubscribed = false → (s.sources (s.channels i).src).closed = true →
      ∃ k n, ((s.publish k n).channels i).closes = 1)
  current : ∀ i < s.obtained, ∀ r ∈ (s.channels i).received, r.1 ∉ (s.channels i).stale

theorem Orderly.delivers (h : s.Orderly) (hsound : s.Sound) : s.Delivers where
  once name := by
    rw [h.topics.adds]
    cases s.topics name with
    | none => exact Nat.zero_le 1
    | some src => exact Nat.le_refl 1
  calm := hsound.calm
  closed i hi := by
    have hone : (s.channels i).closes ≤ 1 := (Nat.le_add_right _ _).trans (hsound.single i)
    refine ⟨hone, fun h1 => (h.channels.kept i hi).closed (by omega), fun hkept hclosed => ?_⟩
    by_cases hopen : (s.channels i).closes = 0
    · obtain ⟨sub, hsub, rfl⟩ := ((h.channels.kept i hi).registered hopen).resolve_left
        (by simp [hkept])
      obtain ⟨-, -, -, k, p, hk, hname, hsrc, hphase⟩ := h.channels.served sub hsub
      obtain ⟨n, hn⟩ := exists_closes hk hphase (by rwa [hsrc])
      have hpos : 0 < s.registrations p.name sub.chan :=
        List.countP_pos_iff.mpr ⟨sub, hsub, by simp [hname]⟩
      have hle := (closes_add_registrations_le p.name sub.chan).trans (hsound.single sub.chan)
      exact ⟨k, n, by rw [hn]; omega⟩
    · exact ⟨0, 0, show (s.channels i).closes = 1 by omega⟩
  current i hi r hr := by
    rw [(h.channels.kept i hi).received r hr]
    exact (h.channels.kept i hi).stale

end Bus

/-- In every run no channel is closed twice or sent to after it was closed; in every run of safe
steps the bus delivers what it promises. -/
theorem safe_runs_deliver (acts : List (Step E)) :
    ((Run.after Bus.step newEventBus acts).panicked = false ∧
      ∀ i, ((Run.after Bus.step newEventBus acts).channels i).closes ≤ 1) ∧
    (Run.Along Bus.step Bus.Safe newEventBus acts →
      (Run.after Bus.step newEventBus acts).Delivers) := by
  have hsound : (Run.after Bus.step newEventBus acts).Sound :=
    Run.invariant_always (fun _ a h => h.step a) Bus.sound_newEventBus acts
  refine ⟨⟨hsound.calm, fun i => ?_⟩, fun hsafe => ?_⟩
  · exact (Nat.le_add_right _ _).trans (hsound.single i)
  · have horderly : (Run.after Bus.step newEventBus acts).Orderly :=
      Run.invariant (fun _ _ hstep h => h.step hstep) Bus.orderly_newEventBus hsafe
    exact horderly.delivers hsound

/-- The second subscriber gives its channel back before an event is published, and the topic is
removed before its source ends. -/
def twoSubscribers : List (Step Unit) :=
  [.addTopic "newHeads" 1, .write 0, .subscribe "newHeads", .subscribe "newHeads", .register 0,
    .register 0, .unsubscribe 1, .produce 1 (), .publisher 0 fun _ => true,
    .publisher 0 fun _ => true, .removeTopic "newHeads", .closeSource 1, .publisher 0 fun _ => true,
    .publisher 0 fun _ => true, .publisher 0 fun _ => true]

theorem twoSubscribers_delivered :
    Run.Along Bus.step Bus.Safe newEventBus twoSubscribers ∧
    (Run.after Bus.step newEventBus twoSubscribers).channels 0 =
      ⟨"newHeads", 1, 1, [], [(1, ())], 1, false⟩ ∧
    (Run.after Bus.step newEventBus twoSubscribers).channels 1 =
      ⟨"newHeads", 1, 2, [], [], 0, true⟩ ∧
    (Run.after Bus.step newEventBus twoSubscribers).Delivers := by
  have hsafe : Run.Along Bus.step Bus.Safe newEventBus twoSubscribers := by
    refine ⟨trivial, ?_, trivial, trivial, ?_, ?_, trivial, trivial, trivial, trivial, trivial,
      trivial, trivial, trivial, trivial, trivial⟩
    · intro name src hadding
      cases hadding
      exact ⟨rfl, nofun⟩
    all_goals
      intro name src hsubscribing
      cases hsubscribing
      exact ⟨rfl, ⟨0, _, rfl, rfl, rfl, nofun⟩, by decide⟩
  exact ⟨hsafe, rfl, rfl, (safe_runs_deliver twoSubscribers).2 hsafe⟩

/-- Two calls of `AddTopic` that both find the name free. -/
def racingAdds : List (Step Unit) :=
  [.addTopic "newHeads" 1, .addTopic "newHeads" 2, .write 0, .write 0]

/-- A topic is removed and added again with another source while the first one goes on. -/
def addedAgain : List (Step Unit) :=
  [.addTopic "newHeads" 1, .write 0, .removeTopic "newHeads", .addTopic "newHeads" 2, .write 0,
    .subscribe "newHeads", .register 0, .produce 1 (), .publisher 0 fun _ => true,
    .publisher 0 fun _ => true]

/-- `Subscribe` has found the topic and registers the channel after the end of the publisher. -/
def lateSubscriber : List (Step Unit) :=
  [.addTopic "newHeads" 1, .write 0, .subscribe "newHeads", .closeSource 1,
    .publisher 0 fun _ => true, .publisher 0 fun _ => true, .publisher 0 fun _ => true, .register 0]

/-- Two additions succeed, an event of the removed source is received, and a channel that nobody
will close is left open. -/
theorem promises_broken :
    ¬ (Run.after Bus.step newEventBus racingAdds).Delivers ∧
    ¬ (Run.after Bus.step newEventBus addedAgain).Delivers ∧
    ((Run.after Bus.step newEventBus lateSubscriber).channels 0).closes = 0 ∧
    (Run.after Bus.step newEventBus lateSubscriber).publishers 0 = none := by
  refine ⟨fun h => ?_, fun h => ?_, rfl, rfl⟩
  · have htwo : (Run.after Bus.step newEventBus racingAdds).adds "newHeads" = 2 := rfl
    have := h.once "newHeads"
    omega
  · exact h.current 0 (by decide) (1, ()) (by decide) (by decide)

end Haqq.Rpc.EventBus
