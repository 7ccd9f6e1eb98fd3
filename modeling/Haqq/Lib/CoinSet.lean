import Mathlib.Data.List.Pairwise
import Mathlib.Order.Lattice
import Mathlib.Tactic.Tauto

/-!
# Sets of coins

Lists of denominations with positive amounts, in the order of the denominations.
-/

namespace Lib.CoinSet

variable {D : Type} [LinearOrder D]

def Valid (coins : List (D × Nat)) : Prop :=
  coins.Pairwise (fun a b => a.1 < b.1) ∧ ∀ c ∈ coins, 0 < c.2

def amountOf (d : D) : List (D × Nat) → Nat
  | [] => 0
  | (e, y) :: rest => if e = d then y else amountOf d rest

def set (d : D) (x : Nat) : List (D × Nat) → List (D × Nat)
  | [] => if x = 0 then [] else [(d, x)]
  | (e, y) :: rest =>
    if d < e then if x = 0 then (e, y) :: rest else (d, x) :: (e, y) :: rest
    else if d = e then if x = 0 then rest else (d, x) :: rest
    else (e, y) :: set d x rest

def add (d : D) (x : Nat) (coins : List (D × Nat)) : List (D × Nat) :=
  set d (amountOf d coins + x) coins

/-- None if the amount would be negative. -/
def safeSub (d : D) (x : Nat) (coins : List (D × Nat)) : Option (List (D × Nat)) :=
  if amountOf d coins < x then none else some (set d (amountOf d coins - x) coins)

variable {d e : D} {x : Nat} {coins : List (D × Nat)}

theorem valid_cons {c : D × Nat} :
    Valid (c :: coins) ↔ ((∀ b ∈ coins, c.1 < b.1) ∧ 0 < c.2) ∧ Valid coins := by
  rw [Valid, Valid, List.pairwise_cons, List.forall_mem_cons]
  tauto

theorem mem_set {c : D × Nat} (h : c ∈ set d x coins) : c ∈ coins ∨ c = (d, x) ∧ x ≠ 0 := by
  induction coins with
  | nil =>
    rw [set] at h
    grind
  | cons b rest ih =>
    obtain ⟨e, y⟩ := b
    rw [set] at h
    grind

theorem valid_set (h : Valid coins) : Valid (set d x coins) := by
  induction coins with
  | nil =>
    rw [set]
    split
    · exact h
    · exact ⟨List.pairwise_singleton .., by simpa using Nat.pos_of_ne_zero ‹_›⟩
  | cons b rest ih =>
    obtain ⟨e, y⟩ := b
    obtain ⟨⟨hlt, hy⟩, hrest⟩ := valid_cons.mp h
    rw [set]
    split_ifs with hde hx heq hx'
    · exact h
    · refine valid_cons.mpr ⟨⟨List.forall_mem_cons.mpr ⟨hde, fun b hb => ?_⟩, by simp; omega⟩, h⟩
      exact hde.trans (hlt b hb)
    · exact hrest
    · exact valid_cons.mpr ⟨⟨heq ▸ hlt, by simp; omega⟩, hrest⟩
    · refine valid_cons.mpr ⟨⟨fun b hb => ?_, hy⟩, ih hrest⟩
      rcases mem_set hb with hb | ⟨rfl, -⟩
      · exact hlt b hb
      · exact lt_of_le_of_ne (not_lt.mp hde) (Ne.symm heq)

theorem amountOf_eq_zero (h : ∀ c ∈ coins, c.1 ≠ d) : amountOf d coins = 0 := by
  induction coins with
  | nil => rfl
  | cons b rest ih =>
    rw [List.forall_mem_cons] at h
    rw [amountOf, if_neg h.1, ih h.2]

theorem amountOf_set (h : Valid coins) : amountOf e (set d x coins) =
    if e = d then x else amountOf e coins := by
  induction coins with
  | nil =>
    rw [set]
    grind [amountOf]
  | cons b rest ih =>
    obtain ⟨f, y⟩ := b
    obtain ⟨⟨hlt, -⟩, hrest⟩ := valid_cons.mp h
    have hbelow : ∀ d' : D, d' ≤ f → amountOf d' rest = 0 := fun d' hd' =>
      amountOf_eq_zero fun c hc => (hd'.trans_lt (hlt c hc)).ne'
    rw [set]
    split_ifs with hdf hx hxe heq hx' hxe hxe hxe <;>
      grind [amountOf]

theorem find?_eq (h : Valid coins) : coins.find? (fun c => c.1 = d) =
    if amountOf d coins = 0 then none else some (d, amountOf d coins) := by
  induction coins with
  | nil => rfl
  | cons b rest ih =>
    obtain ⟨⟨-, hpos⟩, hrest⟩ := valid_cons.mp h
    rw [List.find?_cons, amountOf, ih hrest]
    grind

end Lib.CoinSet
