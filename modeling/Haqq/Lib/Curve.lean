import Mathlib.Algebra.BigOperators.Intervals
import Mathlib.Algebra.Order.BigOperators.Group.Finset
import Mathlib.Order.Lattice.Nat
import Mathlib.Tactic.Linarith

/-!
# Selling along a curve

Selling an interval of a curve pays out, on each level, what the level yields for the part of the
interval that lies on it.  If no level yields more for two amounts than for their sum, selling in
pieces never pays out more.  When the rates fall along the curve an interval is worth no more than
one of the same length further down.
-/

namespace Lib.Curve

structure Level where
  bound : Nat
  yield : Nat → Nat

def Superadditive (f : Nat → Nat) : Prop := ∀ m n, f m + f n ≤ f (m + n)

theorem Superadditive.zero {f : Nat → Nat} (h : Superadditive f) : f 0 = 0 := by
  have := h 0 0
  rw [Nat.add_zero] at this
  omega

theorem Superadditive.le {f : Nat → Nat} (h : Superadditive f) {m n : Nat} (hle : m ≤ n) :
    f m ≤ f n := by
  have := h m (n - m)
  rw [Nat.add_sub_cancel' hle] at this
  omega

/-- What the interval from `a` to `b` pays out. -/
def sale : List Level → Nat → Nat → Nat
  | [], _, _ => 0
  | level :: rest, a, b => level.yield (min b level.bound - a) + sale rest (max a level.bound) b

variable {levels : List Level}

section

variable (h : ∀ level ∈ levels, Superadditive level.yield)

include h

theorem sale_of_le {a b : Nat} (hle : b ≤ a) :
    sale levels a b = 0 := by
  induction levels generalizing a with
  | nil => rfl
  | cons level rest ih =>
    have hzero : min b level.bound - a = 0 := by omega
    rw [sale, hzero, (h level (by simp)).zero, ih (fun l hl => h l (by simp [hl])) (by omega)]

theorem sale_add_le {a b c : Nat} (hab : a ≤ b)
    (hbc : b ≤ c) : sale levels a b + sale levels b c ≤ sale levels a c := by
  induction levels generalizing a b with
  | nil => simp [sale]
  | cons level rest ih =>
    have hrest : ∀ l ∈ rest, Superadditive l.yield := fun l hl => h l (by simp [hl])
    have hyield : level.yield (min b level.bound - a) + level.yield (min c level.bound - b) ≤
        level.yield (min c level.bound - a) := by
      refine (h level (by simp) _ _).trans ((h level (by simp)).le ?_)
      omega
    have hlater : sale rest (max a level.bound) b + sale rest (max b level.bound) c ≤
        sale rest (max a level.bound) c := by
      by_cases hb : level.bound ≤ b
      · rw [max_eq_left hb]
        exact ih hrest (by omega) hbc
      · -- the first piece ends on this level
        have hsame : max b level.bound = max a level.bound := by omega
        rw [hsame, sale_of_le hrest (by omega), zero_add]
    simp only [sale]
    omega

theorem sale_mono {a b c : Nat} (hab : a ≤ b)
    (hbc : b ≤ c) : sale levels a b ≤ sale levels a c :=
  (Nat.le_add_right _ _).trans (sale_add_le h hab hbc)

theorem sale_le_add_one
    (hone : ∀ level ∈ levels, ∀ m n, level.yield (m + n) ≤ level.yield m + level.yield n + 1)
    {a b c : Nat} (hab : a ≤ b) (hbc : b ≤ c) :
    sale levels a c ≤ sale levels a b + sale levels b c + 1 := by
  induction levels generalizing a b with
  | nil => simp [sale]
  | cons level rest ih =>
    have hrest : ∀ l ∈ rest, Superadditive l.yield := fun l hl => h l (by simp [hl])
    simp only [sale]
    by_cases hb : level.bound ≤ b
    · -- the level lies before the cut
      have hlater := ih hrest (fun l hl => hone l (by simp [hl]))
        (by omega : max a level.bound ≤ b) hbc
      have hfirst : min c level.bound - a = min b level.bound - a := by omega
      rw [hfirst, max_eq_left hb]
      omega
    · -- the cut is on the level, and the later levels lie after it
      have hsame : max b level.bound = max a level.bound := by omega
      have hparts : min c level.bound - a =
          (min b level.bound - a) + (min c level.bound - b) := by omega
      have hlevel := hone level (by simp) (min b level.bound - a) (min c level.bound - b)
      rw [hparts, hsame, sale_of_le hrest (by omega : b ≤ max a level.bound)]
      omega

end

section Along

variable {ι M : Type*} (bound : ι → Nat)

/-- Adds up what `f` gives for the parts of an interval on the levels. -/
def along [AddCommMonoid M] (f : ι → Nat → M) : List ι → Nat → Nat → M
  | [], _, _ => 0
  | i :: rest, a, b => f i (min b (bound i) - a) + along f rest (max a (bound i)) b

theorem sale_map (level : ι → Level) (ls : List ι) (a b : Nat) :
    sale (ls.map level) a b = along (fun i => (level i).bound)
    (fun i => (level i).yield) ls a b := by
  induction ls generalizing a with
  | nil => rfl
  | cons i rest ih => rw [List.map_cons, sale, ih, along]

def touched (ls : List ι) (a b : Nat) : Nat :=
  along bound (fun _ n => if 0 < n then 1 else 0) ls a b

theorem cast_along_le {f : ι → Nat → Nat} {g : ι → Nat → ℚ} {ls : List ι}
    (h : ∀ i ∈ ls, ∀ n, (f i n : ℚ) ≤ g i n) (a b : Nat) :
    ((along bound f ls a b : Nat) : ℚ) ≤ along bound g ls a b := by
  induction ls generalizing a with
  | nil => simp [along]
  | cons i rest ih =>
    simp only [along, Nat.cast_add]
    exact add_le_add (h i (by simp) _) (ih (fun j hj => h j (by simp [hj])) _)

theorem along_lt_add_touched {f : ι → Nat → Nat} {g : ι → Nat → ℚ} {ls : List ι}
    (hzero : ∀ i ∈ ls, g i 0 ≤ f i 0) (hlt : ∀ i ∈ ls, ∀ n, 0 < n → g i n < f i n + 1) (a b : Nat) :
    along bound g ls a b ≤ (along bound f ls a b + touched bound ls a b : Nat) ∧
      (0 < touched bound ls a b →
        along bound g ls a b < (along bound f ls a b + touched bound ls a b : Nat)) := by
  induction ls generalizing a with
  | nil => simp [along, touched]
  | cons i rest ih =>
    obtain ⟨hle, hstrict⟩ := ih (fun j hj => hzero j (by simp [hj]))
      (fun j hj => hlt j (by simp [hj])) (max a (bound i))
    simp only [along, touched, Nat.cast_add] at hle hstrict ⊢
    rcases Nat.eq_zero_or_pos (min b (bound i) - a) with hn | hn
    · have hlevel := hzero i (by simp)
      simp only [hn, lt_irrefl, if_false, Nat.cast_zero, zero_add]
      exact ⟨by linarith, fun hpos => by linarith [hstrict hpos]⟩
    · have hlevel := hlt i (by simp) _ hn
      simp only [if_pos hn, Nat.cast_one]
      exact ⟨by linarith, fun _ => by linarith⟩

/-! ## Rates -/

variable (rate : ι → ℚ)

def rateAt : List ι → Nat → ℚ
  | [], _ => 0
  | i :: rest, x => if x < bound i then rate i else rateAt rest x

theorem along_rate_eq_sum (ls : List ι) (a b : Nat) :
    along bound (fun i n => rate i * n) ls a b = ∑ x ∈ Finset.Ico a b, rateAt bound rate ls x := by
  induction ls generalizing a with
  | nil => simp [along, rateAt]
  | cons i rest ih =>
    rw [along, ih]
    rcases Nat.lt_or_ge b a with hempty | hab
    · have hzero : min b (bound i) - a = 0 := by omega
      rw [hzero, Finset.Ico_eq_empty_of_le hempty.le, Finset.Ico_eq_empty_of_le (by omega)]
      simp
    · -- the interval is cut where the level ends
      have hcut := Finset.sum_Ico_consecutive (rateAt bound rate (i :: rest))
        (le_max_left a (min b (bound i))) (by omega : max a (min b (bound i)) ≤ b)
      have hfirst : ∑ x ∈ Finset.Ico a (max a (min b (bound i))), rateAt bound rate (i :: rest) x =
          rate i * (min b (bound i) - a : Nat) := by
        have hconst : ∀ x ∈ Finset.Ico a (max a (min b (bound i))),
            rateAt bound rate (i :: rest) x = rate i := by
          intro x hx
          rw [Finset.mem_Ico] at hx
          exact if_pos (by omega)
        have hcard : max a (min b (bound i)) - a = min b (bound i) - a := by omega
        rw [Finset.sum_congr rfl hconst, Finset.sum_const, Nat.card_Ico, hcard, nsmul_eq_mul,
          mul_comm]
      have hsecond : ∑ x ∈ Finset.Ico (max a (min b (bound i))) b,
          rateAt bound rate (i :: rest) x =
            ∑ x ∈ Finset.Ico (max a (bound i)) b, rateAt bound rate rest x := by
        rcases Nat.le_total b (bound i) with hb | hb
        · rw [Finset.Ico_eq_empty_of_le (by omega), Finset.Ico_eq_empty_of_le (by omega)]
          rfl
        · rw [min_eq_right hb]
          refine Finset.sum_congr rfl fun x hx => ?_
          rw [Finset.mem_Ico] at hx
          exact if_neg (by omega)
      rw [← hcut, hfirst, hsecond]

variable {bound rate}

theorem rateAt_le {r : ℚ} (hr : 0 ≤ r) {ls : List ι} (h : ∀ i ∈ ls, rate i ≤ r) (x : Nat) :
    rateAt bound rate ls x ≤ r := by
  induction ls with
  | nil => exact hr
  | cons i rest ih =>
    rw [rateAt]
    split
    · exact h i (by simp)
    · exact ih fun j hj => h j (by simp [hj])

theorem rateAt_antitone {ls : List ι} (hnonneg : ∀ i ∈ ls, 0 ≤ rate i)
    (h : ls.Pairwise fun i j => rate j ≤ rate i) {x y : Nat} (hxy : x ≤ y) :
    rateAt bound rate ls y ≤ rateAt bound rate ls x := by
  induction ls with
  | nil => exact le_rfl
  | cons i rest ih =>
    obtain ⟨hfirst, hrest⟩ := List.pairwise_cons.mp h
    simp only [rateAt]
    by_cases hx : x < bound i
    · rw [if_pos hx]
      split
      · exact le_rfl
      · exact rateAt_le (hnonneg i (by simp)) hfirst y
    · rw [if_neg hx, if_neg (by omega)]
      exact ih (fun j hj => hnonneg j (by simp [hj])) hrest

theorem along_rate_shift_le {ls : List ι} (hnonneg : ∀ i ∈ ls, 0 ≤ rate i)
    (h : ls.Pairwise fun i j => rate j ≤ rate i) {a a' : Nat} (ha : a ≤ a') (n : Nat) :
    along bound (fun i n => rate i * n) ls a' (a' + n) ≤
      along bound (fun i n => rate i * n) ls a (a + n) := by
  rw [along_rate_eq_sum, along_rate_eq_sum, Finset.sum_Ico_eq_sum_range,
    Finset.sum_Ico_eq_sum_range, Nat.add_sub_cancel_left, Nat.add_sub_cancel_left]
  exact Finset.sum_le_sum fun x _ => rateAt_antitone hnonneg h (by omega)

end Along

end Lib.Curve
