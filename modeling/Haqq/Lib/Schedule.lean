import Mathlib.Tactic.Linarith
import Mathlib.Tactic.Positivity

/-!
# Release schedules

A schedule releases amounts of a commutative monoid at the ends of consecutive periods: `value t₀ ps
t` is what the periods `ps`, starting at `t₀`, have released by time `t`.  When no length is
negative the events come in order, and a reader may stop at the first event that lies in the future.
-/

namespace Lib.Schedule

structure Period (A : Type*) where
  length : Int
  amount : A
  deriving DecidableEq, Repr

variable {A : Type*} [AddCommMonoid A]

def total (ps : List (Period A)) : A := (ps.map Period.amount).sum

omit [AddCommMonoid A] in
def duration (ps : List (Period A)) : Int := (ps.map Period.length).sum

/-- What is released by time `t`. -/
def value (t₀ : Int) : List (Period A) → Int → A
  | [], _ => 0
  | p :: ps, t =>
    (if t₀ + p.length ≤ t then p.amount else 0) + value (t₀ + p.length) ps t

def Ordered (ps : List (Period A)) : Prop := ∀ p ∈ ps, 0 ≤ p.length

instance (ps : List (Period A)) : Decidable (Ordered ps) :=
  inferInstanceAs (Decidable (∀ p ∈ ps, 0 ≤ p.length))

@[simp] theorem total_nil : total ([] : List (Period A)) = 0 := rfl

@[simp] theorem total_cons (p : Period A) (ps : List (Period A)) :
    total (p :: ps) = p.amount + total ps := by
  simp [total]

@[simp] theorem total_append (ps qs : List (Period A)) :
    total (ps ++ qs) = total ps + total qs := by
  simp [total]

@[simp] theorem total_reverse (ps : List (Period A)) : total ps.reverse = total ps := by
  simp [total, List.sum_reverse]

omit [AddCommMonoid A] in
@[simp] theorem duration_nil : duration ([] : List (Period A)) = 0 := rfl

omit [AddCommMonoid A] in
@[simp] theorem duration_cons (p : Period A) (ps : List (Period A)) :
    duration (p :: ps) = p.length + duration ps := by
  simp [duration]

omit [AddCommMonoid A] in
@[simp] theorem duration_append (ps qs : List (Period A)) :
    duration (ps ++ qs) = duration ps + duration qs := by
  simp [duration]

@[simp] theorem value_nil (t₀ t : Int) : value t₀ ([] : List (Period A)) t = 0 := rfl

theorem value_cons (t₀ t : Int) (p : Period A) (ps : List (Period A)) :
    value t₀ (p :: ps) t =
      (if t₀ + p.length ≤ t then p.amount else 0) + value (t₀ + p.length) ps t := rfl

omit [AddCommMonoid A] in
@[simp] theorem ordered_nil : Ordered ([] : List (Period A)) := by
  simp [Ordered]

variable {p : Period A} {ps : List (Period A)}

omit [AddCommMonoid A] in
@[simp] theorem ordered_cons : Ordered (p :: ps) ↔ 0 ≤ p.length ∧ Ordered ps := by
  simp [Ordered]

omit [AddCommMonoid A] in
@[simp] theorem ordered_append {qs : List (Period A)} :
    Ordered (ps ++ qs) ↔ Ordered ps ∧ Ordered qs := by
  simp only [Ordered, List.mem_append]
  exact ⟨fun h => ⟨fun p hp => h p (.inl hp), fun p hp => h p (.inr hp)⟩,
    fun h p hp => hp.elim (h.1 p) (h.2 p)⟩

omit [AddCommMonoid A] in
theorem Ordered.duration_nonneg (h : Ordered ps) : 0 ≤ duration ps := by
  induction ps with
  | nil => simp
  | cons p ps ih =>
    obtain ⟨hp, hps⟩ := ordered_cons.mp h
    have := ih hps
    simp only [duration_cons]
    omega

omit [AddCommMonoid A] in
theorem Ordered.length_le_duration (h : Ordered ps) (hp : p ∈ ps) : p.length ≤ duration ps := by
  refine List.single_le_sum (fun n hn => ?_) _ (List.mem_map_of_mem hp)
  obtain ⟨q, hq, rfl⟩ := List.mem_map.mp hn
  exact h q hq

theorem value_append (t₀ t : Int) (ps qs : List (Period A)) :
    value t₀ (ps ++ qs) t = value t₀ ps t + value (t₀ + duration ps) qs t := by
  induction ps generalizing t₀ with
  | nil => simp
  | cons p ps ih =>
    simp only [List.cons_append, value_cons, ih, duration_cons, add_assoc]

variable {t₀ t : Int}

theorem value_of_lt (hps : Ordered ps) (ht : t < t₀) : value t₀ ps t = 0 := by
  induction ps generalizing t₀ with
  | nil => rfl
  | cons p ps ih =>
    obtain ⟨hp, hrest⟩ := ordered_cons.mp hps
    rw [value_cons, ih hrest (by omega), if_neg (by omega), add_zero]

theorem value_cons_of_lt (hps : Ordered ps) (ht : t < t₀ + p.length) :
    value t₀ (p :: ps) t = 0 := by
  rw [value_cons, value_of_lt hps ht, if_neg (by omega), add_zero]

theorem value_cons_of_le (ht : t₀ + p.length ≤ t) :
    value t₀ (p :: ps) t = p.amount + value (t₀ + p.length) ps t := by
  rw [value_cons, if_pos ht]

theorem value_of_ge (hps : Ordered ps) (ht : t₀ + duration ps ≤ t) : value t₀ ps t = total ps := by
  induction ps generalizing t₀ with
  | nil => rfl
  | cons p ps ih =>
    obtain ⟨hp, hrest⟩ := ordered_cons.mp hps
    have hduration := hrest.duration_nonneg
    simp only [duration_cons] at ht
    rw [value_cons_of_le (by omega), ih hrest (by omega), total_cons]

theorem value_shift (t₀ d t : Int) (p : Period A) (ps : List (Period A)) :
    value (t₀ + d) ({ p with length := p.length - d } :: ps) t = value t₀ (p :: ps) t := by
  have : t₀ + d + (p.length - d) = t₀ + p.length := by omega
  simp only [value_cons, this]

theorem value_eq_zero (h : ∀ p ∈ ps, p.amount = 0) : value t₀ ps t = 0 := by
  induction ps generalizing t₀ with
  | nil => rfl
  | cons p ps ih =>
    rw [value_cons, ih fun q hq => h q (by simp [hq]), h p (by simp), ite_self, add_zero]

theorem value_delay (t₀ d t : Int) (ps : List (Period A)) :
    value (t₀ + d) ps (t + d) = value t₀ ps t := by
  induction ps generalizing t₀ with
  | nil => rfl
  | cons p ps ih =>
    have hnext : t₀ + d + p.length = t₀ + p.length + d := by omega
    simp only [value_cons, hnext, ih, Int.add_le_add_iff_right]

theorem total_eq_zero_of_delay {d : Int} (hps : Ordered ps) (hd : 0 < d)
    (h : ∀ t, t₀ < t → value t₀ ps t = if t ≤ t₀ + d then 0 else value (t₀ + d) ps t) :
    total ps = 0 := by
  -- the delay can be repeated, so nothing is released by any multiple of it
  have hzero : ∀ n : Nat, ∀ t, t₀ < t → t ≤ t₀ + d * (n + 1) → value t₀ ps t = 0 := by
    intro n
    induction n with
    | zero =>
      intro t ht hle
      rw [h t ht, if_pos (by simpa using hle)]
    | succ n ih =>
      intro t ht hle
      rw [h t ht]
      split
      · rfl
      · have hprev : t - d ≤ t₀ + d * (n + 1) := by
          push_cast at hle
          linarith
        have hdelay := value_delay t₀ d (t - d) ps
        rw [sub_add_cancel] at hdelay
        rw [hdelay]
        exact ih (t - d) (by omega) hprev
  have hlast : t₀ + duration ps ≤ t₀ + d * ((duration ps).toNat + 1) := by
    have hduration := hps.duration_nonneg
    rw [Int.toNat_of_nonneg hduration]
    nlinarith
  have hpos : t₀ < t₀ + d * ((duration ps).toNat + 1) := by
    have : 0 < d * ((duration ps).toNat + 1) := by positivity
    omega
  rw [← value_of_ge hps hlast]
  exact hzero _ _ hpos le_rfl

/-! ## Events -/

section Events

variable {t₀ time : Int} {ps : List (Period A)}

omit [AddCommMonoid A] in
def events (t₀ : Int) : List (Period A) → List Int
  | [] => []
  | p :: ps => (t₀ + p.length) :: events (t₀ + p.length) ps

omit [AddCommMonoid A]

@[simp] theorem events_nil (t₀ : Int) : events t₀ ([] : List (Period A)) = [] := rfl

@[simp] theorem events_cons (t₀ : Int) (p : Period A) (ps : List (Period A)) :
    events t₀ (p :: ps) = (t₀ + p.length) :: events (t₀ + p.length) ps := rfl

theorem events_append (t₀ : Int) (ps qs : List (Period A)) :
    events t₀ (ps ++ qs) = events t₀ ps ++ events (t₀ + duration ps) qs := by
  induction ps generalizing t₀ with
  | nil => simp
  | cons p ps ih => simp [ih, add_assoc]

theorem events_shift (t₀ d : Int) (p : Period A) (ps : List (Period A)) :
    events (t₀ + d) ({ p with length := p.length - d } :: ps) = events t₀ (p :: ps) := by
  have : t₀ + d + (p.length - d) = t₀ + p.length := by omega
  simp only [events_cons, this]

theorem le_of_mem_events (hps : Ordered ps) (h : time ∈ events t₀ ps) : t₀ ≤ time := by
  induction ps generalizing t₀ with
  | nil => simp at h
  | cons p ps ih =>
    obtain ⟨hp, hrest⟩ := ordered_cons.mp hps
    rcases List.mem_cons.mp h with rfl | hmem
    · omega
    · have := ih hrest hmem
      omega

theorem lt_of_mem_events (hps : ∀ p ∈ ps, 0 < p.length) (h : time ∈ events t₀ ps) :
    t₀ < time := by
  cases ps with
  | nil => simp at h
  | cons p ps =>
    have hp := hps p (by simp)
    have hrest : Ordered ps := fun q hq => (hps q (by simp [hq])).le
    rcases List.mem_cons.mp h with rfl | hmem
    · omega
    · have := le_of_mem_events hrest hmem
      omega

theorem le_last_of_mem_events (hps : Ordered ps) (h : time ∈ events t₀ ps) :
    time ≤ t₀ + duration ps := by
  induction ps generalizing t₀ with
  | nil => simp at h
  | cons p ps ih =>
    obtain ⟨hp, hrest⟩ := ordered_cons.mp hps
    rw [duration_cons]
    rcases List.mem_cons.mp h with rfl | hmem
    · have := hrest.duration_nonneg
      omega
    · have := ih hrest hmem
      omega

theorem last_mem_events (hne : ps ≠ []) : t₀ + duration ps ∈ events t₀ ps := by
  induction ps generalizing t₀ with
  | nil => exact absurd rfl hne
  | cons p ps ih =>
    rw [duration_cons, ← add_assoc, events_cons]
    by_cases hnil : ps = []
    · simp [hnil]
    · exact List.mem_cons_of_mem _ (ih hnil)

theorem ne_nil_of_mem_events (h : time ∈ events t₀ ps) : ps ≠ [] := by
  rintro rfl
  simp at h

end Events

theorem value_eq_zero_of_events (h : ∀ time ∈ events t₀ ps, t < time) : value t₀ ps t = 0 := by
  induction ps generalizing t₀ with
  | nil => rfl
  | cons p ps ih =>
    have hp := h (t₀ + p.length) (by simp)
    rw [value_cons, if_neg (by omega), ih fun time hmem => h time (by simp [hmem]), add_zero]

theorem value_eq_total_of_events (hps : Ordered ps) (h : ∀ time ∈ events t₀ ps, time ≤ t) :
    value t₀ ps t = total ps := by
  by_cases hnil : ps = []
  · subst hnil
    rfl
  · exact value_of_ge hps (h _ (last_mem_events hnil))

/-- The first period is taken if it ends at `next`, and otherwise nothing changes. -/
inductive Consumes (next : Int) : A → Int → Int → List (Period A) → List (Period A) → Prop
  | take {t₀ : Int} {p : Period A} {ps : List (Period A)} (htime : t₀ + p.length = next) :
      Consumes next p.amount t₀ next (p :: ps) ps
  | keep {t₀ : Int} {ps : List (Period A)} (hlater : ∀ time ∈ events t₀ ps, next ≤ time) :
      Consumes next 0 t₀ t₀ ps ps

variable {time : Int}

namespace Consumes

variable {next t₀ t₀' t : Int} {x : A} {ps ps' : List (Period A)}

section

variable (h : Consumes next x t₀ t₀' ps ps')

include h

theorem ordered (hps : Ordered ps) : Ordered ps' := by
  cases h with
  | take => exact (ordered_cons.mp hps).2
  | keep => exact hps

theorem mem_events (hmem : time ∈ events t₀' ps') :
    time ∈ events t₀ ps := by
  cases h with
  | take htime => simp [htime, hmem]
  | keep => exact hmem

theorem eq_or_mem_events (hmem : time ∈ events t₀ ps) :
    time = next ∨ time ∈ events t₀' ps' := by
  cases h with
  | take htime => simpa [htime] using hmem
  | keep => exact .inr hmem

theorem le_of_mem (hps : Ordered ps) :
    ∀ time ∈ events t₀' ps', next ≤ time := by
  cases h with
  | take => exact fun time hmem => le_of_mem_events (ordered_cons.mp hps).2 hmem
  | keep hlater => exact hlater

theorem value_of_le (ht : next ≤ t) :
    value t₀ ps t = x + value t₀' ps' t := by
  cases h with
  | take htime => rw [value_cons_of_le (htime.trans_le ht), htime]
  | keep => rw [zero_add]

theorem value_of_lt (hps : Ordered ps) (ht : t < next) :
    value t₀ ps t = 0 ∧ value t₀' ps' t = 0 := by
  have hrest : ∀ time ∈ events t₀' ps', t < time :=
    fun time hmem => ht.trans_le (h.le_of_mem hps time hmem)
  refine ⟨value_eq_zero_of_events fun time hmem => ?_, value_eq_zero_of_events hrest⟩
  rcases h.eq_or_mem_events hmem with rfl | hmem'
  · exact ht
  · exact hrest time hmem'

theorem total_eq : total ps = x + total ps' := by
  cases h with
  | take => rw [total_cons]
  | keep => rw [zero_add]

end

end Consumes

/-! ## Order -/

section Order

variable {A : Type*} [AddCommMonoid A] [PartialOrder A] [IsOrderedAddMonoid A]
  {ps : List (Period A)}

theorem value_mono (hps : ∀ p ∈ ps, 0 ≤ p.amount) (t₀ : Int) {t' : Int} (ht : t ≤ t') :
    value t₀ ps t ≤ value t₀ ps t' := by
  induction ps generalizing t₀ with
  | nil => exact le_rfl
  | cons p ps ih =>
    have hp := hps p (by simp)
    refine add_le_add ?_ (ih (fun q hq => hps q (by simp [hq])) _)
    split
    · rw [if_pos (by omega)]
    · split
      · exact hp
      · exact le_rfl

theorem value_le_total (hps : ∀ p ∈ ps, 0 ≤ p.amount) (t₀ t : Int) :
    value t₀ ps t ≤ total ps := by
  induction ps generalizing t₀ with
  | nil => exact le_rfl
  | cons p ps ih =>
    rw [total_cons]
    refine add_le_add ?_ (ih (fun q hq => hps q (by simp [hq])) _)
    split
    · exact le_rfl
    · exact hps p (by simp)

theorem value_le_of_earlier (hps : ∀ p ∈ ps, 0 ≤ p.amount) {t₁ : Int} (hle : t₁ ≤ t₀) (t : Int) :
    value t₀ ps t ≤ value t₁ ps t := by
  have hdelay := value_delay t₁ (t₀ - t₁) (t - (t₀ - t₁)) ps
  rw [add_sub_cancel, sub_add_cancel] at hdelay
  rw [hdelay]
  exact value_mono hps t₁ (by omega)

end Order

/-- The amounts of `ps` are divided between `qs` and `rs`, period by period. -/
inductive Splits : List (Period A) → List (Period A) → List (Period A) → Prop
  | nil : Splits [] [] []
  | cons {p q r : Period A} {ps qs rs : List (Period A)} (hq : q.length = p.length)
      (hr : r.length = p.length) (hamount : q.amount + r.amount = p.amount)
      (hrest : Splits ps qs rs) : Splits (p :: ps) (q :: qs) (r :: rs)

namespace Splits

variable {ps qs rs : List (Period A)}

section

variable (h : Splits ps qs rs)

include h

theorem value_add (t₀ t : Int) :
    value t₀ qs t + value t₀ rs t = value t₀ ps t := by
  induction h generalizing t₀ with
  | nil => simp
  | cons hq hr hamount _ ih =>
    simp only [value_cons, hq, hr, ← ih]
    split
    · rw [← hamount]
      exact add_add_add_comm _ _ _ _
    · simp only [zero_add]

theorem total_add : total qs + total rs = total ps := by
  induction h with
  | nil => simp
  | cons _ _ hamount _ ih =>
    simp only [total_cons, ← ih, ← hamount]
    exact add_add_add_comm _ _ _ _

theorem lengths_left : qs.map Period.length = ps.map Period.length := by
  induction h with
  | nil => rfl
  | cons hq _ _ _ ih => simp [hq, ih]

theorem lengths_right : rs.map Period.length = ps.map Period.length := by
  induction h with
  | nil => rfl
  | cons _ hr _ _ ih => simp [hr, ih]

theorem length_left : qs.length = ps.length := by
  simpa using congrArg List.length h.lengths_left

theorem length_right : rs.length = ps.length := by
  simpa using congrArg List.length h.lengths_right

theorem drop (n : Nat) : Splits (ps.drop n) (qs.drop n) (rs.drop n) := by
  induction h generalizing n with
  | nil => simpa using Splits.nil
  | cons hq hr hamount hrest ih =>
    cases n with
    | zero => exact .cons hq hr hamount hrest
    | succ n => exact ih n

theorem getElem? {i : Nat} (hp : ps[i]? = some p) :
    ∃ q r, qs[i]? = some q ∧ rs[i]? = some r ∧ q.length = p.length ∧ r.length = p.length ∧
      q.amount + r.amount = p.amount := by
  induction h generalizing i with
  | nil => simp at hp
  | cons hq hr hamount hrest ih =>
    cases i with
    | zero =>
      cases hp
      exact ⟨_, _, rfl, rfl, hq, hr, hamount⟩
    | succ i => exact ih hp

end

theorem nothing (ps : List (Period A)) : Splits ps ps (ps.map fun p => ⟨p.length, 0⟩) := by
  induction ps with
  | nil => exact .nil
  | cons p ps ih => exact .cons rfl rfl (add_zero p.amount) ih

theorem append {ps' qs' rs' : List (Period A)} (h : Splits ps qs rs) (h' : Splits ps' qs' rs') :
    Splits (ps ++ ps') (qs ++ qs') (rs ++ rs') := by
  induction h with
  | nil => exact h'
  | cons hq hr hamount _ ih => exact .cons hq hr hamount ih

theorem reverse (h : Splits ps qs rs) : Splits ps.reverse qs.reverse rs.reverse := by
  induction h with
  | nil => exact .nil
  | cons hq hr hamount _ ih =>
    simp only [List.reverse_cons]
    exact ih.append (.cons hq hr hamount .nil)

end Splits

section SameLengths

omit [AddCommMonoid A]

variable {ps qs : List (Period A)}

theorem duration_congr (h : qs.map Period.length = ps.map Period.length) :
    duration qs = duration ps := by
  simp only [duration, h]

theorem ordered_congr (h : qs.map Period.length = ps.map Period.length) :
    Ordered qs ↔ Ordered ps := by
  have hmem : ∀ l : List (Period A), Ordered l ↔ ∀ n ∈ l.map Period.length, 0 ≤ n := by
    intro l
    simp [Ordered]
  rw [hmem, hmem, h]

theorem events_congr (h : qs.map Period.length = ps.map Period.length) :
    events t₀ qs = events t₀ ps := by
  induction qs generalizing ps t₀ with
  | nil => rw [List.map_eq_nil_iff.mp h.symm]
  | cons q qs ih =>
    cases ps with
    | nil => simp at h
    | cons p ps =>
      simp only [List.map_cons, List.cons.injEq] at h
      rw [events_cons, events_cons, h.1, ih h.2]

end SameLengths

end Lib.Schedule
