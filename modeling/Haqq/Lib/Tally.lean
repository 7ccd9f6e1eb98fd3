import Mathlib.Algebra.BigOperators.Group.Finset.Basic
import Mathlib.Algebra.Order.Group.Nat
import Mathlib.Data.Finset.Sort

/-!
# Tallies: computable counters with finite support

A `Tally κ` gives every key of `κ` a natural number, nonzero at finitely many keys only.  The
support is a field with its law, so that equality, order and enumeration of the keys can all be
computed.
-/

namespace Lib

/-- Counters indexed by `κ`, nonzero at finitely many keys. -/
structure Tally (κ : Type*) where
  get : κ → Nat
  support : Finset κ
  mem_support : ∀ k, k ∈ support ↔ get k ≠ 0

namespace Tally

variable {κ : Type*}

@[ext]
theorem ext {x y : Tally κ} (hget : ∀ k, x.get k = y.get k) : x = y := by
  obtain ⟨getX, supportX, hX⟩ := x
  obtain ⟨getY, supportY, hY⟩ := y
  have hfun : getX = getY := funext hget
  subst hfun
  have hsupport : supportX = supportY := by
    apply Finset.ext
    intro k
    rw [hX k, hY k]
  subst hsupport
  rfl

theorem support_eq_empty {x : Tally κ} : x.support = ∅ ↔ ∀ k, x.get k = 0 := by
  constructor
  · intro hempty k
    by_contra hk
    have hmem := (x.mem_support k).mpr hk
    simp [hempty] at hmem
  · intro hzero
    apply Finset.eq_empty_of_forall_notMem
    intro k hk
    exact (x.mem_support k).mp hk (hzero k)

instance : Zero (Tally κ) := ⟨⟨fun _ => 0, ∅, by simp⟩⟩

@[simp] theorem get_zero (k : κ) : (0 : Tally κ).get k = 0 := rfl

def isZero (x : Tally κ) : Bool := x.support.card == 0

theorem isZero_iff {x : Tally κ} : x.isZero = true ↔ x = 0 := by
  simp only [isZero, beq_iff_eq, Finset.card_eq_zero]
  constructor
  · intro hempty
    exact ext fun k => support_eq_empty.mp hempty k
  · rintro rfl
    rfl

@[simp] theorem isZero_zero : (0 : Tally κ).isZero = true := isZero_iff.mpr rfl

instance : LE (Tally κ) := ⟨fun x y => ∀ k, x.get k ≤ y.get k⟩

instance (x y : Tally κ) : Decidable (x ≤ y) :=
  decidable_of_iff (∀ k ∈ x.support, x.get k ≤ y.get k) (by
    constructor
    · intro h k
      by_cases hk : k ∈ x.support
      · exact h k hk
      · have hzero : x.get k = 0 := by
          by_contra hne
          exact hk ((x.mem_support k).mpr hne)
        omega
    · intro h k _
      exact h k)

instance : PartialOrder (Tally κ) where
  le_refl _ _ := le_rfl
  le_trans _ _ _ hxy hyz k := (hxy k).trans (hyz k)
  le_antisymm _ _ hxy hyx := ext fun k => le_antisymm (hxy k) (hyx k)

theorem zero_le (x : Tally κ) : 0 ≤ x := fun k => Nat.zero_le (x.get k)

/-- Key-by-key subtraction, truncated at zero; callers check `y ≤ x` first. -/
instance : Sub (Tally κ) where
  sub x y :=
    { get k := x.get k - y.get k
      support := x.support.filter fun k => x.get k - y.get k ≠ 0
      mem_support k := by
        rw [Finset.mem_filter, x.mem_support]
        omega }

@[simp] theorem get_sub (x y : Tally κ) (k : κ) : (x - y).get k = x.get k - y.get k := rfl

instance : Min (Tally κ) where
  min x y :=
    { get k := min (x.get k) (y.get k)
      support := x.support.filter fun k => y.get k ≠ 0
      mem_support k := by
        rw [Finset.mem_filter, x.mem_support]
        omega }

@[simp] theorem get_min (x y : Tally κ) (k : κ) :
    (min x y).get k = min (x.get k) (y.get k) := rfl

theorem min_eq_left {x y : Tally κ} (hle : x ≤ y) : min x y = x := by
  ext k
  rw [get_min]
  exact Nat.min_eq_left (hle k)

theorem min_eq_right {x y : Tally κ} (hle : y ≤ x) : min x y = y := by
  ext k
  rw [get_min]
  exact Nat.min_eq_right (hle k)

section DecidableEq

variable [DecidableEq κ]

instance : DecidableEq (Tally κ) := fun x y =>
  decidable_of_iff (x ≤ y ∧ y ≤ x) ⟨fun h => le_antisymm h.1 h.2, fun h => h ▸ ⟨le_rfl, le_rfl⟩⟩

def single (key : κ) (n : Nat) : Tally κ where
  get k := if k = key then n else 0
  support := if n = 0 then ∅ else {key}
  mem_support k := by
    by_cases hn : n = 0 <;> simp [hn]

theorem get_single (key : κ) (n : Nat) (k : κ) :
    (single key n).get k = if k = key then n else 0 := rfl

@[simp] theorem get_single_self (key : κ) (n : Nat) : (single key n).get key = n := by
  simp [get_single]

theorem get_single_of_ne {key k : κ} (n : Nat) (hne : k ≠ key) : (single key n).get k = 0 := by
  simp [get_single, hne]

@[simp] theorem single_zero (key : κ) : single key 0 = 0 := by
  ext k
  simp [get_single]

instance : Add (Tally κ) where
  add x y :=
    { get k := x.get k + y.get k
      support := x.support ∪ y.support
      mem_support k := by
        rw [Finset.mem_union, x.mem_support, y.mem_support]
        omega }

@[simp] theorem get_add (x y : Tally κ) (k : κ) : (x + y).get k = x.get k + y.get k := rfl

instance : AddCommMonoid (Tally κ) where
  add_assoc _ _ _ := ext fun _ => Nat.add_assoc _ _ _
  zero_add _ := ext fun _ => Nat.zero_add _
  add_zero _ := ext fun _ => Nat.add_zero _
  add_comm _ _ := ext fun _ => Nat.add_comm _ _
  nsmul := nsmulRec

instance : IsCancelAdd (Tally κ) where
  add_left_cancel x y z h := by
    ext k
    exact Nat.add_left_cancel (congrArg (get · k) h)
  add_right_cancel x y z h := by
    ext k
    exact Nat.add_right_cancel (congrArg (get · k) h)

instance : IsOrderedAddMonoid (Tally κ) where
  add_le_add_left _ _ h z k := Nat.add_le_add_right (h k) (z.get k)

theorem add_eq_zero {x y : Tally κ} : x + y = 0 ↔ x = 0 ∧ y = 0 := by
  constructor
  · intro h
    have hk : ∀ k, x.get k + y.get k = 0 := fun k => congrArg (get · k) h
    exact ⟨ext fun k => (Nat.add_eq_zero_iff.mp (hk k)).1,
      ext fun k => (Nat.add_eq_zero_iff.mp (hk k)).2⟩
  · rintro ⟨rfl, rfl⟩
    exact add_zero 0

theorem single_ne_zero {key : κ} {n : Nat} (hpos : 0 < n) : single key n ≠ 0 := by
  intro hzero
  have hget := congrArg (fun x => x.get key) hzero
  simp only [get_single_self, get_zero] at hget
  omega

theorem single_add (key : κ) (m n : Nat) : single key (m + n) = single key m + single key n := by
  ext k
  by_cases hk : k = key <;> simp [get_single, hk]

theorem sub_add_cancel_of_le {x y : Tally κ} (hle : y ≤ x) : x - y + y = x := by
  ext k
  have hk := hle k
  simp only [get_add, get_sub]
  omega

theorem add_sub_cancel_right' (x y : Tally κ) : x + y - y = x := by
  ext k
  simp

theorem single_le_iff {key : κ} {n : Nat} {x : Tally κ} : single key n ≤ x ↔ n ≤ x.get key := by
  constructor
  · intro h
    simpa using h key
  · intro h k
    by_cases hk : k = key
    · subst hk
      simpa using h
    · simp [get_single_of_ne n hk]

def getHom (k : κ) : Tally κ →+ Nat where
  toFun x := x.get k
  map_zero' := rfl
  map_add' _ _ := rfl

theorem get_sum {ι : Type*} (s : Finset ι) (f : ι → Tally κ) (k : κ) :
    (∑ i ∈ s, f i).get k = ∑ i ∈ s, (f i).get k :=
  map_sum (getHom k) f s

def sum (x : Tally κ) : Nat := ∑ k ∈ x.support, x.get k

omit [DecidableEq κ] in
theorem sum_eq {x : Tally κ} {s : Finset κ} (h : x.support ⊆ s) : x.sum = ∑ k ∈ s, x.get k := by
  apply Finset.sum_subset h
  intro k _ hk
  by_contra hne
  exact hk ((x.mem_support k).mpr hne)

theorem sum_add (x y : Tally κ) : (x + y).sum = x.sum + y.sum := by
  rw [sum_eq (x := x) (s := x.support ∪ y.support) Finset.subset_union_left,
    sum_eq (x := y) (s := x.support ∪ y.support) Finset.subset_union_right,
    ← Finset.sum_add_distrib]
  rfl

@[simp] theorem sum_single (key : κ) (n : Nat) : (single key n).sum = n := by
  rw [sum_eq (s := {key}), Finset.sum_singleton, get_single_self]
  intro k hk
  rw [mem_support, get_single] at hk
  simp only [Finset.mem_singleton]
  by_contra hne
  simp [hne] at hk

theorem sum_sub_add {x y : Tally κ} (hle : y ≤ x) : (x - y).sum + y.sum = x.sum := by
  rw [← sum_add, sub_add_cancel_of_le hle]

end DecidableEq

section Sorted

variable [LinearOrder κ]

def sorted (s : Finset κ) : List κ :=
  Quotient.liftOn s.val (List.insertionSort (· ≤ ·)) fun l₁ l₂ hperm => by
    have hsorted := List.perm_insertionSort (· ≤ · : κ → κ → Prop)
    exact ((hsorted l₁).trans (hperm.trans (hsorted l₂).symm)).eq_of_pairwise'
      (List.pairwise_insertionSort _ l₁) (List.pairwise_insertionSort _ l₂)

theorem mem_sorted {s : Finset κ} {k : κ} : k ∈ sorted s ↔ k ∈ s := by
  obtain ⟨⟨l⟩, hl⟩ := s
  exact List.mem_insertionSort _

theorem nodup_sorted (s : Finset κ) : (sorted s).Nodup := by
  obtain ⟨⟨l⟩, hl⟩ := s
  exact (List.perm_insertionSort _ l).nodup_iff.mpr hl

end Sorted

end Tally

end Lib
