import Mathlib.Data.BitVec

/-!
# Bloom filters

A filter is a vector of words.  A key is known by its marks, the bits it sets in some of the words.
A key that was added is found, also in every union the filter is part of.
-/

namespace Lib

abbrev Mark (n w : Nat) := Fin n × BitVec w

structure Bloom (n w : Nat) where
  words : Vector (BitVec w) n
  deriving DecidableEq, Repr

namespace Bloom

variable {n w : Nat} {a b : Bloom n w} {m : Mark n w} {marks : List (Mark n w)}

def empty : Bloom n w := ⟨Vector.replicate n 0⟩

def word (b : Bloom n w) (i : Fin n) : BitVec w := b.words[i]

def set (b : Bloom n w) (m : Mark n w) : Bloom n w :=
  ⟨b.words.set m.1 (b.word m.1 ||| m.2)⟩

def add (b : Bloom n w) (marks : List (Mark n w)) : Bloom n w := marks.foldl set b

def has (b : Bloom n w) (m : Mark n w) : Bool := m.2 == m.2 &&& b.word m.1

def lookup (b : Bloom n w) (marks : List (Mark n w)) : Bool := marks.all b.has

def union (a b : Bloom n w) : Bloom n w := ⟨Vector.zipWith (· ||| ·) a.words b.words⟩

def unions (blooms : List (Bloom n w)) : Bloom n w := blooms.foldr union empty

theorem has_iff : b.has m = true ↔ ∀ j, m.2.getLsbD j = true → (b.word m.1).getLsbD j = true := by
  rw [has, beq_iff_eq]
  constructor
  · intro h j hj
    rw [h, BitVec.getLsbD_and, Bool.and_eq_true] at hj
    exact hj.2
  · intro h
    refine BitVec.eq_of_getLsbD_eq fun j _ => ?_
    rw [BitVec.getLsbD_and]
    cases hj : m.2.getLsbD j with
    | false => rfl
    | true => rw [h j hj, Bool.and_self]

theorem word_set (b : Bloom n w) (m : Mark n w) (i : Fin n) :
    (b.set m).word i = if i = m.1 then b.word i ||| m.2 else b.word i := by
  simp only [word, set, Fin.getElem_fin, Vector.getElem_set]
  by_cases h : i = m.1
  · subst h
    simp
  · rw [if_neg h, if_neg fun heq => h (Fin.ext heq.symm)]

@[simp] theorem word_union (a b : Bloom n w) (i : Fin n) :
    (a.union b).word i = a.word i ||| b.word i := by
  simp [word, union]

theorem has_set_self (b : Bloom n w) (m : Mark n w) : (b.set m).has m = true := by
  refine has_iff.mpr fun j hj => ?_
  rw [word_set, if_pos rfl, BitVec.getLsbD_or, hj, Bool.or_true]

theorem has_set (h : b.has m = true) (m' : Mark n w) : (b.set m').has m = true := by
  refine has_iff.mpr fun j hj => ?_
  have hbit := has_iff.mp h j hj
  rw [word_set]
  split
  · rw [BitVec.getLsbD_or, hbit, Bool.true_or]
  · exact hbit

theorem has_add (h : b.has m = true) (marks : List (Mark n w)) : (b.add marks).has m = true := by
  induction marks generalizing b with
  | nil => exact h
  | cons m' marks ih => exact ih (has_set h m')

theorem has_add_of_mem (hmem : m ∈ marks) (b : Bloom n w) : (b.add marks).has m = true := by
  induction marks generalizing b with
  | nil => cases hmem
  | cons m' marks ih =>
    rcases List.mem_cons.mp hmem with rfl | hmem
    · exact has_add (has_set_self b m) marks
    · exact ih hmem (b.set m')

theorem lookup_add (b : Bloom n w) (marks : List (Mark n w)) :
    (b.add marks).lookup marks = true :=
  List.all_eq_true.mpr fun _ hmem => has_add_of_mem hmem b

theorem lookup_add_of_lookup (h : b.lookup marks = true) (more : List (Mark n w)) :
    (b.add more).lookup marks = true :=
  List.all_eq_true.mpr fun m hmem => has_add (List.all_eq_true.mp h m hmem) more

theorem lookup_union_left (h : a.lookup marks = true) (b : Bloom n w) :
    (a.union b).lookup marks = true := by
  refine List.all_eq_true.mpr fun m hmem => has_iff.mpr fun j hj => ?_
  rw [word_union, BitVec.getLsbD_or, has_iff.mp (List.all_eq_true.mp h m hmem) j hj, Bool.true_or]

theorem lookup_union_right (a : Bloom n w) (h : b.lookup marks = true) :
    (a.union b).lookup marks = true := by
  refine List.all_eq_true.mpr fun m hmem => has_iff.mpr fun j hj => ?_
  rw [word_union, BitVec.getLsbD_or, has_iff.mp (List.all_eq_true.mp h m hmem) j hj, Bool.or_true]

theorem lookup_unions {blooms : List (Bloom n w)} (hmem : b ∈ blooms)
    (h : b.lookup marks = true) : (unions blooms).lookup marks = true := by
  induction blooms with
  | nil => cases hmem
  | cons a blooms ih =>
    rcases List.mem_cons.mp hmem with rfl | hmem
    · exact lookup_union_left h _
    · exact lookup_union_right a (ih hmem)

end Bloom

end Lib
