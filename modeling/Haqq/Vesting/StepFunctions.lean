import Haqq.Vesting.Schedule

/-!
# Schedules as step functions

Reading a schedule gives `value` of `Lib.Schedule`, the union adds two step functions and the
intersection takes their minimum, if all event times lie in a window of `int64` values small enough
for their differences to be `int64` values as well.
-/

namespace Haqq.Vesting

open Lib Lib.Schedule

/-- An interval of times in which sums and differences do not wrap around. -/
structure Window (lo hi : Int) : Prop where
  low : -2 ^ 63 ≤ lo
  high : hi < 2 ^ 63
  width : hi - lo < 2 ^ 63

variable {lo hi n : Int}

theorem Window.int64_eq (w : Window lo hi) (hlo : lo ≤ n) (hhi : n ≤ hi) : int64 n = n := by
  have := w.low
  have := w.high
  exact int64_of_inInt64 ⟨by omega, by omega⟩

theorem Window.int64_sub_eq (w : Window lo hi) {m : Int} (hm : lo ≤ m ∧ m ≤ hi)
    (hn : lo ≤ n ∧ n ≤ hi) : int64 (m - n) = m - n := by
  have := w.width
  exact int64_of_inInt64 ⟨by omega, by omega⟩

variable {t₀ : Int} {ps : Periods}

/-- No length is negative, and every event time is an `int64` value. -/
structure Timely (t₀ : Int) (ps : Periods) : Prop where
  ordered : Ordered ps
  inInt64 : ∀ time ∈ events t₀ ps, InInt64 time

theorem Window.timely (w : Window lo hi) (hps : Ordered ps) (hlo : lo ≤ t₀)
    (hhi : t₀ + duration ps ≤ hi) : Timely t₀ ps := by
  have hlow := w.low
  have hhigh := w.high
  refine ⟨hps, fun time hmem => ?_⟩
  have hge := le_of_mem_events hps hmem
  have hle := le_last_of_mem_events hps hmem
  exact ⟨by omega, by omega⟩

/-- The next event of a schedule is not before `e`. -/
def After (e t₀ : Int) : Periods → Prop
  | [] => True
  | p :: _ => e ≤ t₀ + p.length

variable {x : Coins}

namespace Timely

variable {t₀ : Int} {p : Period} {ps : Periods}

theorem int64_next (h : Timely t₀ (p :: ps)) : int64 (t₀ + p.length) = t₀ + p.length :=
  int64_of_inInt64 (h.inInt64 _ (by simp))

theorem tail (h : Timely t₀ (p :: ps)) : Timely (t₀ + p.length) ps :=
  ⟨(ordered_cons.mp h.ordered).2, fun time hmem => h.inInt64 time (by simp [hmem])⟩

theorem consume {next t₀' : Int} {ps' : Periods} (h : Timely t₀ ps)
    (hc : Consumes next x t₀ t₀' ps ps') : Timely t₀' ps' :=
  ⟨hc.ordered h.ordered, fun time hmem => h.inInt64 time (hc.mem_events hmem)⟩

theorem keep {next : Int} (h : Timely t₀ (p :: ps)) (hlt : next ≤ t₀ + p.length) :
    Consumes next 0 t₀ t₀ (p :: ps) (p :: ps) := by
  have hrest := (ordered_cons.mp h.ordered).2
  refine .keep fun time hmem => ?_
  rcases List.mem_cons.mp hmem with rfl | hmem'
  · exact hlt
  · exact hlt.trans (le_of_mem_events hrest hmem')

end Timely

/-! ## Reading -/

theorem Timely.readPeriods_eq (h : Timely t₀ ps) (t : Int) :
    readPeriods t₀ ps t = value t₀ ps t := by
  induction ps generalizing t₀ with
  | nil => rfl
  | cons p ps ih =>
    simp only [readPeriods, h.int64_next]
    split
    · rename_i hlt
      rw [value_cons_of_lt h.tail.ordered hlt]
    · rename_i hge
      rw [value_cons_of_le (by omega), ih h.tail]

theorem Timely.countPeriods_spec (h : Timely t₀ ps) (t : Int) :
    ∃ past upcoming, ps = past ++ upcoming ∧ past.length = countPeriods t₀ ps t ∧
      (past ≠ [] → t₀ + duration past ≤ t) ∧
      ∀ p rest, upcoming = p :: rest → t < t₀ + duration past + p.length := by
  induction ps generalizing t₀ with
  | nil => exact ⟨[], [], rfl, rfl, by simp, by simp⟩
  | cons p ps ih =>
    simp only [countPeriods, h.int64_next]
    split
    · rename_i hlt
      refine ⟨[], p :: ps, rfl, rfl, by simp, ?_⟩
      rintro q rest ⟨⟩
      simpa using hlt
    · rename_i hge
      obtain ⟨past, upcoming, hsplit, hlength, hpast, hupcoming⟩ := ih h.tail
      refine ⟨p :: past, upcoming, by simp [hsplit], by simp [hlength], ?_, ?_⟩
      · intro _
        simp only [duration_cons]
        by_cases hnil : past = []
        · subst hnil
          simp
          omega
        · have := hpast hnil
          omega
      · intro q rest hq
        have := hupcoming q rest hq
        simp only [duration_cons]
        omega

theorem foldl_int64_add (ps : Periods) (t₀ : Int) :
    ps.foldl (fun time period => int64 (time + period.length)) (int64 t₀) =
      int64 (t₀ + duration ps) := by
  induction ps generalizing t₀ with
  | nil => simp
  | cons p ps ih =>
    have hstep : int64 (int64 t₀ + p.length) = int64 (t₀ + p.length) := by
      rw [add_comm, int64_add_int64, add_comm]
    rw [List.foldl_cons, hstep, ih, duration_cons, add_assoc]

theorem totalLength_eq (ps : Periods) : totalLength ps = int64 (duration ps) := by
  have h := foldl_int64_add ps 0
  rw [zero_add] at h
  exact h

/-! ## Merging -/

structure Handles (next : Int) (x y : Coins) (tA tA' tB tB' : Int) (as as' bs bs' : Periods) :
    Prop where
  timelyA : Timely tA as
  timelyB : Timely tB bs
  consumesA : Consumes next x tA tA' as as'
  consumesB : Consumes next y tB tB' bs bs'
  event : next ∈ events tA as ∨ next ∈ events tB bs

variable {tA tB : Int} {as bs : Periods}

section

variable {a b : Period}

theorem Handles.left (hA : Timely tA (a :: as)) (hB : Timely tB bs)
    (hkeep : Consumes (int64 (tA + a.length)) 0 tB tB bs bs) :
    Handles (int64 (tA + a.length)) a.amount 0 tA (int64 (tA + a.length)) tB tB
      (a :: as) as bs bs :=
  ⟨hA, hB, .take hA.int64_next.symm, hkeep, by simp [hA.int64_next]⟩

theorem Handles.right (hA : Timely tA as) (hB : Timely tB (b :: bs))
    (hkeep : Consumes (int64 (tB + b.length)) 0 tA tA as as) :
    Handles (int64 (tB + b.length)) 0 b.amount tA tA tB (int64 (tB + b.length)) as as
      (b :: bs) bs :=
  ⟨hA, hB, hkeep, .take hB.int64_next.symm, by simp [hB.int64_next]⟩

theorem Handles.both (hA : Timely tA (a :: as)) (hB : Timely tB (b :: bs))
    (hge : ¬ int64 (tA + a.length) < int64 (tB + b.length))
    (hge' : ¬ int64 (tB + b.length) < int64 (tA + a.length)) :
    Handles (int64 (tA + a.length)) a.amount b.amount tA (int64 (tA + a.length)) tB
      (int64 (tA + a.length)) (a :: as) as (b :: bs) bs :=
  ⟨hA, hB, .take hA.int64_next.symm, .take (by have := hB.int64_next; omega),
    by simp [hA.int64_next]⟩

end

/-- **Induction along a merge.** -/
theorem disjunctLoop_rec {P : Int → Int → Int → Periods → Periods → Int × Periods → Prop}
    (done : ∀ tA tB e, P tA tB e [] [] (e, []))
    (step : ∀ {next x y tA tA' tB tB' as as' bs bs' r} (e : Int),
      Handles next x y tA tA' tB tB' as as' bs bs' → P tA' tB' next as' bs' r →
        P tA tB e as bs (r.1, ⟨int64 (next - e), x + y⟩ :: r.2)) (e : Int) (hA : Timely tA as)
    (hB : Timely tB bs) : P tA tB e as bs (disjunctLoop tA tB e as bs) := by
  fun_induction disjunctLoop tA tB e as bs with
  | case1 tA tB e => exact done tA tB e
  | case2 tA tB e a as nextA last periods heq ih =>
    have h : Handles nextA _ _ _ _ _ _ _ _ _ _ := .left hA hB (.keep (by simp))
    simpa only [heq, add_zero] using step e h (ih (hA.consume h.consumesA) hB)
  | case3 tA tB e b bs nextB last periods heq ih =>
    have h : Handles nextB _ _ _ _ _ _ _ _ _ _ := .right hA hB (.keep (by simp))
    simpa only [heq, zero_add] using step e h (ih hA (hB.consume h.consumesB))
  | case4 tA tB e a as b bs nextA nextB hlt last periods heq ih =>
    have hnextB : nextB = tB + b.length := hB.int64_next
    have h : Handles nextA _ _ _ _ _ _ _ _ _ _ := .left hA hB (hB.keep (hnextB ▸ hlt.le))
    simpa only [heq, add_zero] using step e h (ih (hA.consume h.consumesA) hB)
  | case5 tA tB e a as b bs nextA nextB hge hlt last periods heq ih =>
    have hnextA : nextA = tA + a.length := hA.int64_next
    have h : Handles nextB _ _ _ _ _ _ _ _ _ _ := .right hA hB (hA.keep (hnextA ▸ hlt.le))
    simpa only [heq, zero_add] using step e h (ih hA (hB.consume h.consumesB))
  | case6 tA tB e a as b bs nextA nextB hge hge' last periods heq ih =>
    have h : Handles nextA _ _ _ _ _ _ _ _ _ _ := .both hA hB hge hge'
    simpa only [heq] using step e h (ih (hA.consume h.consumesA) (hB.consume h.consumesB))

/-! ## Union -/

variable {e last : Int} {out : Periods}

variable {time : Int}

namespace Handles

variable {next tA tA' tB tB' t : Int} {x y : Coins} {as as' bs bs' : Periods}

section

variable (h : Handles next x y tA tA' tB tB' as as' bs bs')

include h

theorem value_add (t : Int) :
    (if next ≤ t then x + y else 0) + (value tA' as' t + value tB' bs' t) =
      value tA as t + value tB bs t := by
  split
  · rename_i hle
    rw [h.consumesA.value_of_le hle, h.consumesB.value_of_le hle]
    exact add_add_add_comm _ _ _ _
  · rename_i hlt
    obtain ⟨hA, hA'⟩ := h.consumesA.value_of_lt h.timelyA.ordered (not_le.mp hlt)
    obtain ⟨hB, hB'⟩ := h.consumesB.value_of_lt h.timelyB.ordered (not_le.mp hlt)
    rw [hA, hA', hB, hB', zero_add]

theorem le_of_mem (hmem : time ∈ events tA' as' ∨ time ∈ events tB' bs') : next ≤ time :=
  hmem.elim (h.consumesA.le_of_mem h.timelyA.ordered time)
    (h.consumesB.le_of_mem h.timelyB.ordered time)

theorem mem_events (hmem : time ∈ events tA' as' ∨ time ∈ events tB' bs') :
    time ∈ events tA as ∨ time ∈ events tB bs :=
  hmem.imp h.consumesA.mem_events h.consumesB.mem_events

theorem eq_or_mem_events (hmem : time ∈ events tA as ∨ time ∈ events tB bs) :
    time = next ∨ time ∈ events tA' as' ∨ time ∈ events tB' bs' := by
  rcases hmem with hA | hB
  · exact (h.consumesA.eq_or_mem_events hA).imp_right .inl
  · exact (h.consumesB.eq_or_mem_events hB).imp_right .inr

end

end Handles

/-- The periods `out` from `e` on to `last`, with events of the two schedules only. -/
structure Emitted (e last tA tB : Int) (as bs out : Periods) : Prop where
  ordered : Ordered out
  last : last = e + duration out
  events : ∀ time ∈ Schedule.events e out,
    time ∈ Schedule.events tA as ∨ time ∈ Schedule.events tB bs

theorem Emitted.timely (h : Emitted e last tA tB as bs out) (hA : Timely tA as)
    (hB : Timely tB bs) : Timely e out :=
  ⟨h.ordered, fun time hmem => (h.events time hmem).elim (hA.inInt64 time) (hB.inInt64 time)⟩

variable {tA' tB' : Int} {y : Coins} {as' bs' : Periods}

theorem Emitted.emit {next : Int} (h : Handles next x y tA tA' tB tB' as as' bs bs')
    (hrest : Emitted next last tA' tB' as' bs' out) (hle : e ≤ next)
    (hsub : int64 (next - e) = next - e) (coins : Coins) :
    Emitted e last tA tB as bs (⟨int64 (next - e), coins⟩ :: out) := by
  have hadd : e + (next - e) = next := by omega
  rw [hsub]
  refine ⟨ordered_cons.mpr ⟨sub_nonneg.mpr hle, hrest.ordered⟩, ?_, fun time hmem => ?_⟩
  · rw [hrest.last, duration_cons, ← add_assoc, hadd]
  · simp only [events_cons, hadd, List.mem_cons] at hmem
    rcases hmem with rfl | hmem
    · exact h.event
    · exact h.mem_events (hrest.events time hmem)

theorem disjunctLoop_last (e : Int) (hA : Timely tA as) (hB : Timely tB bs)
    (hle : ∀ time, time ∈ events tA as ∨ time ∈ events tB bs → e ≤ time) :
    IsGreatest {time | time = e ∨ time ∈ events tA as ∨ time ∈ events tB bs}
      (disjunctLoop tA tB e as bs).1 := by
  refine disjunctLoop_rec (P := fun tA tB e as bs r =>
    (∀ time, time ∈ events tA as ∨ time ∈ events tB bs → e ≤ time) →
      IsGreatest {time | time = e ∨ time ∈ events tA as ∨ time ∈ events tB bs} r.1)
    ?done ?step e hA hB hle
  case done =>
    intro tA tB e _
    exact ⟨by simp, by simp [upperBounds]⟩
  case step =>
    intro next x y tA tA' tB tB' as as' bs bs' r e h ih hle
    obtain ⟨hmem, hbound⟩ := ih fun time hmem => h.le_of_mem hmem
    have hnext : next ≤ r.1 := hbound (.inl rfl)
    refine ⟨.inr ?_, ?_⟩
    · rcases hmem with heq | hmem
      · exact heq ▸ h.event
      · exact h.mem_events hmem
    · rintro time (rfl | hmem)
      · exact (hle next h.event).trans hnext
      · exact hbound (h.eq_or_mem_events hmem)

/-- Every event is at `e`, or less than `2 ^ 63` after an earlier event or after `e`. -/
def Dense (e : Int) (isEvent : Int → Prop) : Prop :=
  ∀ time, isEvent time → time = e ∨
    ∃ earlier, (earlier = e ∨ isEvent earlier) ∧ earlier < time ∧ time - earlier < 2 ^ 63

variable {isEvent : Int → Prop}

theorem Window.dense (w : Window lo hi) (hlo : lo ≤ e)
    (h : ∀ time, isEvent time → e ≤ time ∧ time ≤ hi) : Dense e isEvent := by
  intro time hmem
  obtain ⟨hle, hhi⟩ := h time hmem
  have hwidth := w.width
  rcases hle.eq_or_lt with heq | hlt
  · exact .inl heq.symm
  · exact .inr ⟨e, .inl rfl, hlt, by omega⟩

theorem Dense.next {next : Int} {isLater : Int → Prop} (h : Dense e isEvent) (hle : e ≤ next)
    (hnext : isEvent next) (hlater : ∀ time, isLater time → isEvent time)
    (hsplit : ∀ time, isEvent time → time = next ∨ isLater time)
    (hmin : ∀ time, isLater time → next ≤ time) :
    int64 (next - e) = next - e ∧ Dense next isLater := by
  constructor
  · have hgap : next - e < 2 ^ 63 := by
      rcases h next hnext with rfl | ⟨earlier, rfl | hmem, hlt, hgap⟩
      · omega
      · exact hgap
      · rcases hsplit earlier hmem with rfl | hmem
        · omega
        · have := hmin earlier hmem
          omega
    exact int64_of_inInt64 ⟨by omega, hgap⟩
  · intro time hmem
    rcases (hmin time hmem).eq_or_lt with heq | hlt
    · exact .inl heq.symm
    · refine .inr ?_
      rcases h time (hlater time hmem) with rfl | ⟨earlier, rfl | hearlier, hbefore, hgap⟩
      · omega
      · exact ⟨next, .inl rfl, hlt, by omega⟩
      · exact ⟨earlier, hsplit earlier hearlier, hbefore, hgap⟩

theorem disjunctLoop_emitted (e : Int) (hA : Timely tA as) (hB : Timely tB bs)
    (hle : ∀ time, time ∈ events tA as ∨ time ∈ events tB bs → e ≤ time)
    (hdense : Dense e fun time => time ∈ events tA as ∨ time ∈ events tB bs) :
    Emitted e (disjunctLoop tA tB e as bs).1 tA tB as bs (disjunctLoop tA tB e as bs).2 := by
  refine disjunctLoop_rec (P := fun tA tB e as bs r =>
    (∀ time, time ∈ events tA as ∨ time ∈ events tB bs → e ≤ time) →
      (Dense e fun time => time ∈ events tA as ∨ time ∈ events tB bs) →
        Emitted e r.1 tA tB as bs r.2) ?done ?step e hA hB hle hdense
  case done =>
    intro tA tB e _ _
    exact ⟨by simp, by simp, by simp⟩
  case step =>
    intro next x y tA tA' tB tB' as as' bs bs' r e h ih hle hdense
    have henext := hle next h.event
    obtain ⟨hsub, hdense'⟩ := hdense.next henext h.event (fun _ => h.mem_events)
      (fun _ => h.eq_or_mem_events) fun _ => h.le_of_mem
    exact .emit h (ih (fun time hmem => h.le_of_mem hmem) hdense') henext hsub _

theorem readPeriods_cons_sub {next : Int} (hnext : InInt64 next) (e : Int) (coins : Coins)
    (out : Periods) (t : Int) :
    readPeriods e (⟨int64 (next - e), coins⟩ :: out) t =
      if t < next then 0 else coins + readPeriods next out t := by
  have htime : int64 (e + int64 (next - e)) = next := by
    rw [int64_add_int64, add_sub_cancel, int64_of_inInt64 hnext]
  simp only [readPeriods, htime]

theorem Handles.inInt64 {next : Int} (h : Handles next x y tA tA' tB tB' as as' bs bs') :
    InInt64 next :=
  h.event.elim (h.timelyA.inInt64 next) (h.timelyB.inInt64 next)

theorem readPeriods_disjunctLoop (e : Int) (hA : Timely tA as) (hB : Timely tB bs) (t : Int) :
    readPeriods e (disjunctLoop tA tB e as bs).2 t = value tA as t + value tB bs t := by
  refine disjunctLoop_rec (P := fun tA tB e as bs r =>
    readPeriods e r.2 t = value tA as t + value tB bs t) ?done ?step e hA hB
  case done =>
    intro tA tB e
    simp [readPeriods]
  case step =>
    intro next x y tA tA' tB tB' as as' bs bs' r e h ih
    rw [readPeriods_cons_sub h.inInt64, ih, ← h.value_add t]
    split
    · rename_i hlt
      obtain ⟨_, hA⟩ := h.consumesA.value_of_lt h.timelyA.ordered hlt
      obtain ⟨_, hB⟩ := h.consumesB.value_of_lt h.timelyB.ordered hlt
      rw [hA, hB, if_neg (not_le.mpr hlt), add_zero, add_zero]
    · rename_i hge
      rw [if_pos (not_lt.mp hge)]

/-! ## Intersection -/

namespace Conjunction

variable {c : Conjunction} {time : Int}

@[simp] theorem advance_totalA : (c.advance time).totalA = c.totalA := by
  unfold advance
  split <;> rfl

@[simp] theorem advance_totalB : (c.advance time).totalB = c.totalB := by
  unfold advance
  split <;> rfl

def add (c : Conjunction) (x y : Coins) : Conjunction :=
  { c with totalA := c.totalA + x, totalB := c.totalB + y }

@[simp] theorem add_totalA (x y : Coins) : (c.add x y).totalA = c.totalA + x := rfl

@[simp] theorem add_totalB (x y : Coins) : (c.add x y).totalB = c.totalB + y := rfl

@[simp] theorem add_resulting (x y : Coins) : (c.add x y).resulting = c.resulting := rfl

@[simp] theorem add_endTime (x y : Coins) : (c.add x y).endTime = c.endTime := rfl

theorem addA_eq (a : Period) : c.addA a = c.add a.amount 0 := by
  simp [addA, add]

theorem addB_eq (b : Period) : c.addB b = c.add 0 b.amount := by
  simp [addB, add]

def Settled (c : Conjunction) : Prop := c.resulting = min c.totalA c.totalB

theorem Settled.le_add (h : c.Settled) (x y : Coins) :
    c.resulting ≤ min (c.add x y).totalA (c.add x y).totalB := by
  intro d
  rw [h]
  simp only [add_totalA, add_totalB, Tally.get_min, Tally.get_add]
  omega

theorem emits_iff (hle : c.resulting ≤ min c.totalA c.totalB) :
    c.emits = true ↔ c.resulting ≠ min c.totalA c.totalB := by
  have hzero : (min c.totalA c.totalB - c.resulting).isZero = true ↔
      c.resulting = min c.totalA c.totalB := by
    rw [Tally.isZero_iff]
    constructor
    · intro hsub
      rw [← Tally.sub_add_cancel_of_le hle, hsub, zero_add]
    · intro heq
      ext d
      simp [← heq]
  simp [emits, hle, ← hzero]

theorem advance_endTime (h : c.emits = true) : (c.advance time).endTime = time := by
  simp only [advance, if_pos h]

theorem advance_of_not_emits (h : ¬ c.emits = true) : c.advance time = c := if_neg h

theorem emit_of_not_emits (h : ¬ c.emits = true) : c.emit time = [] := if_neg h

theorem settled_advance (hle : c.resulting ≤ min c.totalA c.totalB) :
    (c.advance time).Settled := by
  unfold Settled
  rw [advance_totalA, advance_totalB]
  unfold advance
  split
  · simp only
    rw [add_comm, Tally.sub_add_cancel_of_le hle]
  · rename_i h
    rw [emits_iff hle, not_not] at h
    exact h

end Conjunction

/-- **Induction along an intersection.** -/
theorem conjunctLoop_rec {P : Conjunction → Int → Int → Periods → Periods → Int × Periods → Prop}
    (done : ∀ c tA tB, P c tA tB [] [] (c.endTime, []))
    (step : ∀ {next x y tA tA' tB tB' as as' bs bs' r} (c : Conjunction),
      Handles next x y tA tA' tB tB' as as' bs bs' →
        P ((c.add x y).advance next) tA' tB' as' bs' r →
          P c tA tB as bs (r.1, (c.add x y).emit next ++ r.2)) (c : Conjunction) (hA : Timely tA as)
    (hB : Timely tB bs) : P c tA tB as bs (conjunctLoop tA tB c as bs) := by
  fun_induction conjunctLoop tA tB c as bs with
  | case1 tA tB c => exact done c tA tB
  | case2 tA tB c a as nextA c' last periods heq ih =>
    have h : Handles nextA _ _ _ _ _ _ _ _ _ _ := .left hA hB (.keep (by simp))
    have hstep := step (r := (last, periods)) c h
    rw [← Conjunction.addA_eq] at hstep
    exact hstep (heq ▸ ih (hA.consume h.consumesA) hB)
  | case3 tA tB c b bs nextB c' last periods heq ih =>
    have h : Handles nextB _ _ _ _ _ _ _ _ _ _ := .right hA hB (.keep (by simp))
    have hstep := step (r := (last, periods)) c h
    rw [← Conjunction.addB_eq] at hstep
    exact hstep (heq ▸ ih hA (hB.consume h.consumesB))
  | case4 tA tB c a as b bs nextA nextB hlt c' last periods heq ih =>
    have hnextB : nextB = tB + b.length := hB.int64_next
    have h : Handles nextA _ _ _ _ _ _ _ _ _ _ := .left hA hB (hB.keep (hnextB ▸ hlt.le))
    have hstep := step (r := (last, periods)) c h
    rw [← Conjunction.addA_eq] at hstep
    exact hstep (heq ▸ ih (hA.consume h.consumesA) hB)
  | case5 tA tB c a as b bs nextA nextB hge hlt c' last periods heq ih =>
    have hnextA : nextA = tA + a.length := hA.int64_next
    have h : Handles nextB _ _ _ _ _ _ _ _ _ _ := .right hA hB (hA.keep (hnextA ▸ hlt.le))
    have hstep := step (r := (last, periods)) c h
    rw [← Conjunction.addB_eq] at hstep
    exact hstep (heq ▸ ih hA (hB.consume h.consumesB))
  | case6 tA tB c a as b bs nextA nextB hge hge' c' last periods heq ih =>
    have h : Handles nextA _ _ _ _ _ _ _ _ _ _ := .both hA hB hge hge'
    exact step c h (heq ▸ ih (hA.consume h.consumesA) (hB.consume h.consumesB))

variable {c : Conjunction}

namespace Conjunction

/-- The minimum of the two schedules at time `t`, seen from the state of the loops. -/
def level (c : Conjunction) (tA tB : Int) (as bs : Periods) (t : Int) : Coins :=
  min (c.totalA + value tA as t) (c.totalB + value tB bs t)

def finalLevel (c : Conjunction) (as bs : Periods) : Coins :=
  min (c.totalA + total as) (c.totalB + total bs)

section Level

variable {c : Conjunction} {next tA tA' tB tB' t : Int} {x y : Coins} {as as' bs bs' : Periods}

@[simp] theorem level_advance (time : Int) :
    (c.advance time).level tA tB as bs t = c.level tA tB as bs t := by
  simp [level]

@[simp] theorem finalLevel_advance (time : Int) :
    (c.advance time).finalLevel as bs = c.finalLevel as bs := by
  simp [finalLevel]

variable (h : Handles next x y tA tA' tB tB' as as' bs bs')

include h

theorem level_of_le (ht : next ≤ t) :
    (c.add x y).level tA' tB' as' bs' t = c.level tA tB as bs t := by
  simp only [level, add_totalA, add_totalB, h.consumesA.value_of_le ht,
    h.consumesB.value_of_le ht, add_assoc]

theorem finalLevel_add : (c.add x y).finalLevel as' bs' = c.finalLevel as bs := by
  simp only [finalLevel, add_totalA, add_totalB, h.consumesA.total_eq, h.consumesB.total_eq,
    add_assoc]

theorem level_of_lt (ht : t < next) :
    c.level tA tB as bs t = min c.totalA c.totalB ∧
      (c.add x y).level tA' tB' as' bs' t = min (c.totalA + x) (c.totalB + y) := by
  obtain ⟨hA, hA'⟩ := h.consumesA.value_of_lt h.timelyA.ordered ht
  obtain ⟨hB, hB'⟩ := h.consumesB.value_of_lt h.timelyB.ordered ht
  simp only [level, hA, hA', hB, hB', add_zero, add_totalA, add_totalB, and_self]

theorem level_of_not_emits (hc : c.Settled) (hemits : ¬ (c.add x y).emits = true) (t : Int) :
    (c.add x y).level tA' tB' as' bs' t = c.level tA tB as bs t := by
  rcases lt_or_ge t next with ht | ht
  · rw [emits_iff (hc.le_add x y), not_not] at hemits
    obtain ⟨hbefore, hafter⟩ := level_of_lt (c := c) h ht
    rw [hbefore, hafter, ← hc]
    exact hemits.symm
  · exact level_of_le h ht

theorem level_ne_of_emits (hc : c.Settled) (hemits : (c.add x y).emits = true) :
    c.level tA tB as bs (next - 1) ≠ c.level tA tB as bs next := by
  have hle := hc.le_add x y
  rw [emits_iff hle] at hemits
  rw [(level_of_lt h (by omega)).1, ← hc, ← level_of_le h le_rfl]
  intro heq
  refine hemits (le_antisymm hle ?_)
  intro d
  have hd := congrArg (fun z : Coins => z.get d) heq
  simp only [level, add_totalA, add_totalB, add_resulting, Tally.get_min, Tally.get_add] at hd ⊢
  omega

end Level

theorem readPeriods_emit {next : Int} (hnext : InInt64 next) (hemits : c.emits = true)
    (out : Periods) (t : Int) :
    readPeriods c.endTime (c.emit next ++ out) t =
      if t < next then 0
      else min c.totalA c.totalB - c.resulting + readPeriods next out t := by
  rw [emit, if_pos hemits, List.cons_append, List.nil_append, readPeriods_cons_sub hnext]

end Conjunction

/-- Together with what was emitted before, it gives the minimum of the two schedules, and its last
event is the last one at which that minimum changes. -/
structure Levels (c : Conjunction) (tA tB : Int) (as bs : Periods) (r : Int × Periods) :
    Prop where
  read : ∀ t, c.resulting + readPeriods c.endTime r.2 t = c.level tA tB as bs t
  total : c.resulting + Schedule.total r.2 = c.finalLevel as bs
  settled : ∀ t, r.1 ≤ t → c.level tA tB as bs t = c.finalLevel as bs
  change : r.1 = c.endTime ∨ (r.1 ∈ events tA as ∨ r.1 ∈ events tB bs) ∧
    c.level tA tB as bs (r.1 - 1) ≠ c.level tA tB as bs r.1

theorem Levels.step {next : Int} {r : Int × Periods} (hc : c.Settled)
    (h : Handles next x y tA tA' tB tB' as as' bs bs')
    (hrest : Levels ((c.add x y).advance next) tA' tB' as' bs' r) :
    Levels c tA tB as bs (r.1, (c.add x y).emit next ++ r.2) := by
  obtain ⟨hread, htotal, hsettled, hchange⟩ := hrest
  simp only [Conjunction.level_advance, Conjunction.finalLevel_advance,
    Conjunction.finalLevel_add h] at hread htotal hsettled hchange
  have hle := hc.le_add x y
  by_cases hemits : (c.add x y).emits = true
  · -- the minimum grows at `next`, which is the new end time
    have hresulting : c.resulting + (min (c.totalA + x) (c.totalB + y) - c.resulting) =
        ((c.add x y).advance next).resulting := by
      simp only [Conjunction.advance, if_pos hemits, Conjunction.add_totalA,
        Conjunction.add_totalB, Conjunction.add_resulting]
    have hend : ((c.add x y).advance next).endTime = next := Conjunction.advance_endTime hemits
    have hlast : next ≤ r.1 := by
      rcases hchange with heq | ⟨hmem, _⟩
      · exact (heq.trans hend).ge
      · exact h.le_of_mem hmem
    refine ⟨fun t => ?_, ?_, fun t ht => ?_, .inr ?_⟩
    · have hemit := Conjunction.readPeriods_emit h.inInt64 hemits r.2 t
      rw [Conjunction.add_endTime] at hemit
      rw [hemit]
      split
      · rename_i hlt
        rw [add_zero, (Conjunction.level_of_lt h hlt).1]
        exact hc
      · rename_i hge
        rw [← Conjunction.level_of_le h (not_lt.mp hge), ← hread t, hend, ← hresulting, add_assoc]
        rfl
    · rw [← htotal, ← hresulting, Conjunction.emit, if_pos hemits, add_assoc]
      simp
    · rw [← Conjunction.level_of_le h (hlast.trans ht)]
      exact hsettled t ht
    · rcases hlast.eq_or_lt with heq | hlt
      · rw [← heq]
        exact ⟨h.event, Conjunction.level_ne_of_emits h hc hemits⟩
      · rcases hchange with heq | ⟨hmem, hne⟩
        · exact absurd (heq.trans hend) hlt.ne'
        · rw [Conjunction.level_of_le h (by omega), Conjunction.level_of_le h hlt.le] at hne
          exact ⟨h.mem_events hmem, hne⟩
  · simp only [Conjunction.advance_of_not_emits hemits, Conjunction.add_resulting,
      Conjunction.add_endTime, Conjunction.level_of_not_emits h hc hemits]
      at hread htotal hsettled hchange
    rw [Conjunction.emit_of_not_emits hemits, List.nil_append]
    exact ⟨hread, htotal, hsettled,
      hchange.imp_right fun hmem => ⟨h.mem_events hmem.1, hmem.2⟩⟩

theorem conjunctLoop_levels (hc : c.Settled) (hA : Timely tA as) (hB : Timely tB bs) :
    Levels c tA tB as bs (conjunctLoop tA tB c as bs) := by
  refine conjunctLoop_rec (P := fun c tA tB as bs r => c.Settled → Levels c tA tB as bs r)
    ?done ?step c hA hB hc
  case done =>
    intro c tA tB hc
    have hlevel : c.resulting = min (c.totalA + 0) (c.totalB + 0) := by
      simpa [Conjunction.Settled] using hc
    exact ⟨fun t => by simpa [Conjunction.level, readPeriods] using hlevel,
      by simpa [Conjunction.finalLevel] using hlevel, fun t _ => rfl, .inl rfl⟩
  case step =>
    intro next x y tA tA' tB tB' as as' bs bs' r c h ih hc
    exact .step hc h (ih (Conjunction.settled_advance (hc.le_add x y)))

theorem conjunctLoop_emitted (w : Window lo hi) (hA : Timely tA as) (hB : Timely tB bs)
    (hlo : lo ≤ c.endTime)
    (hbound : ∀ time, time ∈ events tA as ∨ time ∈ events tB bs → c.endTime ≤ time ∧ time ≤ hi) :
    Emitted c.endTime (conjunctLoop tA tB c as bs).1 tA tB as bs
      (conjunctLoop tA tB c as bs).2 := by
  refine conjunctLoop_rec (P := fun c tA tB as bs r => lo ≤ c.endTime →
    (∀ time, time ∈ events tA as ∨ time ∈ events tB bs → c.endTime ≤ time ∧ time ≤ hi) →
      Emitted c.endTime r.1 tA tB as bs r.2) ?done ?step c hA hB hlo hbound
  case done =>
    intro c tA tB _ _
    exact ⟨by simp, by simp, by simp⟩
  case step =>
    intro next x y tA tA' tB tB' as as' bs bs' r c h ih hlo hbound
    obtain ⟨hle, hhi⟩ := hbound next h.event
    by_cases hemits : (c.add x y).emits = true
    · have hend : ((c.add x y).advance next).endTime = next := Conjunction.advance_endTime hemits
      have hsub : int64 (next - c.endTime) = next - c.endTime :=
        w.int64_sub_eq ⟨by omega, hhi⟩ ⟨hlo, by omega⟩
      have hrest := ih (by omega) fun time hmem => by
        rw [hend]
        exact ⟨h.le_of_mem hmem, (hbound time (h.mem_events hmem)).2⟩
      rw [hend] at hrest
      rw [Conjunction.emit, if_pos hemits]
      exact hrest.emit h hle hsub _
    · rw [Conjunction.advance_of_not_emits hemits] at ih
      rw [Conjunction.emit_of_not_emits hemits, List.nil_append]
      obtain ⟨hord, hlast, hevents⟩ := ih hlo fun time hmem => hbound time (h.mem_events hmem)
      exact ⟨hord, hlast, fun time hmem => h.mem_events (hevents time hmem)⟩

/-- Together with what was emitted before, it is the minimum of the two schedules at every time. -/
structure Conjoins (c : Conjunction) (tA tB : Int) (as bs : Periods) (r : Int × Periods) :
    Prop where
  value : ∀ t d, c.resulting.get d + (Schedule.value c.endTime r.2 t).get d =
    min (c.totalA.get d + (Schedule.value tA as t).get d)
      (c.totalB.get d + (Schedule.value tB bs t).get d)
  total : ∀ d, c.resulting.get d + (Schedule.total r.2).get d =
    min (c.totalA.get d + (Schedule.total as).get d)
      (c.totalB.get d + (Schedule.total bs).get d)
  last : r.1 = c.endTime + duration r.2
  ordered : Ordered r.2
  bound : ∀ x, c.endTime ≤ x → tA + duration as ≤ x → tB + duration bs ≤ x → r.1 ≤ x

theorem conjunctLoop_conjoins (w : Window lo hi) (hc : c.Settled) (hA : Timely tA as)
    (hB : Timely tB bs) (hlo : lo ≤ c.endTime)
    (hbound : ∀ time, time ∈ events tA as ∨ time ∈ events tB bs → c.endTime ≤ time ∧ time ≤ hi) :
    Conjoins c tA tB as bs (conjunctLoop tA tB c as bs) := by
  have hlevels := conjunctLoop_levels hc hA hB
  have hemitted := conjunctLoop_emitted w hA hB hlo hbound
  refine ⟨fun t d => ?_, fun d => ?_, hemitted.last, hemitted.ordered, fun x hx hxA hxB => ?_⟩
  · have hread := congrArg (fun z : Coins => z.get d) (hlevels.read t)
    simpa [(hemitted.timely hA hB).readPeriods_eq, Conjunction.level] using hread
  · have htotal := congrArg (fun z : Coins => z.get d) hlevels.total
    simpa [Conjunction.finalLevel] using htotal
  · rcases hlevels.change with heq | ⟨hmem | hmem, _⟩
    · exact heq.trans_le hx
    · exact (le_last_of_mem_events hA.ordered hmem).trans hxA
    · exact (le_last_of_mem_events hB.ordered hmem).trans hxB

end Haqq.Vesting
