import Mathlib.Algebra.Group.Nat.Defs
import Mathlib.Logic.Function.Iterate

/-!
# Binary search over machine words

`search` looks for the least word above `lo` and up to `hi` at which a test does not fail.  For
bounds up to 2^63 the midpoint is exact; beyond, the sum can wrap around, and as long as all
midpoints fail the search does not end.
-/

namespace Lib.BinarySearch

def midpoint (lo hi : UInt64) : UInt64 := (hi + lo) / 2

theorem toNat_midpoint (lo hi : UInt64) :
    (midpoint lo hi).toNat = (hi.toNat + lo.toNat) % 2 ^ 64 / 2 := by
  rw [midpoint, UInt64.toNat_div, UInt64.toNat_add]
  rfl

theorem midpoint_lt (lo hi : UInt64) : (midpoint lo hi).toNat < 2 ^ 63 := by
  rw [toNat_midpoint]
  omega

theorem toNat_midpoint_eq_iff (lo hi : UInt64) :
    (midpoint lo hi).toNat = (hi.toNat + lo.toNat) / 2 ↔ hi.toNat + lo.toNat < 2 ^ 64 := by
  have := hi.toNat_lt
  have := lo.toNat_lt
  rw [toNat_midpoint]
  omega

variable {ε : Type*} {failed : UInt64 → Except ε Bool} {fuel : Nat} {lo hi : UInt64}

/-- There is no result if the fuel runs out. -/
def search (failed : UInt64 → Except ε Bool) : Nat → UInt64 → UInt64 → Option (Except ε UInt64)
  | 0, _, _ => none
  | fuel + 1, lo, hi =>
    if lo + 1 < hi then
      match failed (midpoint lo hi) with
      | .error err => some (.error err)
      | .ok true => search failed fuel (midpoint lo hi) hi
      | .ok false => search failed fuel lo (midpoint lo hi)
    else some (.ok hi)

theorem search_stable {fuel' : Nat} (hle : fuel ≤ fuel') {r : Except ε UInt64}
    (h : search failed fuel lo hi = some r) : search failed fuel' lo hi = some r := by
  induction fuel generalizing fuel' lo hi with
  | zero => cases h
  | succ fuel ih =>
    obtain ⟨fuel', rfl⟩ := Nat.exists_eq_add_of_le' (Nat.one_le_of_lt hle)
    have hle := Nat.le_of_succ_le_succ hle
    unfold search at h ⊢
    split
    · rename_i hopen
      rw [if_pos hopen] at h
      cases htest : failed (midpoint lo hi) with
      | error err => rwa [htest] at h
      | ok b =>
        rw [htest] at h
        cases b with
        | true => exact ih hle h
        | false => exact ih hle h
    · rename_i hclosed
      rwa [if_neg hclosed] at h

theorem search_ok {r : UInt64} (h : search failed fuel lo hi = some (.ok r)) :
    r = hi ∨ failed r = .ok false := by
  induction fuel generalizing lo hi with
  | zero => cases h
  | succ fuel ih =>
    unfold search at h
    split at h
    · cases htest : failed (midpoint lo hi) with
      | error err =>
        rw [htest] at h
        cases h
      | ok b =>
        rw [htest] at h
        cases b with
        | true => exact ih h
        | false =>
          rcases ih h with rfl | hfound
          · exact .inr htest
          · exact .inr hfound
    · cases h
      exact .inl rfl

theorem search_error (hopen : lo + 1 < hi) {err : ε} (h : ∀ g, failed g = .error err) :
    search failed (fuel + 1) lo hi = some (.error err) := by
  rw [search, if_pos hopen, h]

theorem search_closed (hclosed : ¬ lo + 1 < hi) :
    search failed (fuel + 1) lo hi = some (.ok hi) := by
  rw [search, if_neg hclosed]

structure Brackets (failed : UInt64 → Except ε Bool) (lo hi r : UInt64) : Prop where
  lower : lo < r
  upper : r ≤ hi
  found : r = hi ∨ failed r = .ok false
  below : r.toNat = lo.toNat + 1 ∨ ∃ l : UInt64, l.toNat + 1 = r.toNat ∧ failed l = .ok true

theorem toNat_succ_of_lt (h : lo < hi) : (lo + 1).toNat = lo.toNat + 1 := by
  rw [UInt64.lt_iff_toNat_lt] at h
  have := hi.toNat_lt
  rw [UInt64.toNat_add, UInt64.toNat_one]
  omega

theorem midpoint_between (hbound : hi.toNat ≤ 2 ^ 63) (hlt : lo < hi) (hopen : lo + 1 < hi) :
    lo < midpoint lo hi ∧ midpoint lo hi < hi := by
  rw [UInt64.lt_iff_toNat_lt, toNat_succ_of_lt hlt] at hopen
  simp only [UInt64.lt_iff_toNat_lt, toNat_midpoint]
  omega

theorem exists_search (htotal : ∀ g, ∃ b, failed g = .ok b) (hbound : hi.toNat ≤ 2 ^ 63)
    (hlt : lo < hi) (hfuel : hi.toNat - lo.toNat ≤ fuel) :
    ∃ r, search failed fuel lo hi = some (.ok r) ∧ Brackets failed lo hi r := by
  have hlt' := UInt64.lt_iff_toNat_lt.mp hlt
  induction fuel generalizing lo hi with
  | zero => omega
  | succ fuel ih =>
    by_cases hopen : lo + 1 < hi
    · obtain ⟨hlower, hupper⟩ := midpoint_between hbound hlt hopen
      have hlower' := UInt64.lt_iff_toNat_lt.mp hlower
      have hupper' := UInt64.lt_iff_toNat_lt.mp hupper
      obtain ⟨b, htest⟩ := htotal (midpoint lo hi)
      cases b with
      | true =>
        obtain ⟨r, hsearch, hr⟩ := ih hbound hupper (by omega) hupper'
        refine ⟨r, by rw [search, if_pos hopen, htest]; exact hsearch,
          UInt64.lt_trans hlower hr.lower, hr.upper, hr.found, ?_⟩
        rcases hr.below with hnext | hfails
        · exact .inr ⟨midpoint lo hi, hnext.symm, htest⟩
        · exact .inr hfails
      | false =>
        obtain ⟨r, hsearch, hr⟩ :=
          ih (Nat.le_trans (Nat.le_of_lt hupper') hbound) hlower (by omega) hlower'
        refine ⟨r, by rw [search, if_pos hopen, htest]; exact hsearch, hr.lower,
          UInt64.le_trans hr.upper (UInt64.le_of_lt hupper), ?_, hr.below⟩
        rcases hr.found with rfl | hfound
        · exact .inr htest
        · exact .inr hfound
    · refine ⟨hi, search_closed hopen, hlt, UInt64.le_refl hi, .inl rfl, .inl ?_⟩
      rw [UInt64.lt_iff_toNat_lt, toNat_succ_of_lt hlt] at hopen
      omega

def orbit (lo hi : UInt64) (k : Nat) : UInt64 := (midpoint · hi)^[k] lo

theorem orbit_succ (k : Nat) : orbit lo hi (k + 1) = midpoint (orbit lo hi k) hi :=
  Function.iterate_succ_apply' ..

theorem orbit_lt (hlo : lo.toNat < 2 ^ 63) (k : Nat) : (orbit lo hi k).toNat < 2 ^ 63 := by
  cases k with
  | zero => exact hlo
  | succ k =>
    rw [orbit_succ]
    exact midpoint_lt ..

theorem open_of_lt (hlo : lo.toNat < 2 ^ 63) (hhi : 2 ^ 63 < hi.toNat) : lo + 1 < hi := by
  have hlt : lo < hi := UInt64.lt_iff_toNat_lt.mpr (by omega)
  rw [UInt64.lt_iff_toNat_lt, toNat_succ_of_lt hlt]
  omega

theorem search_orbit (hlo : lo.toNat < 2 ^ 63) (hhi : 2 ^ 63 < hi.toNat) {k : Nat}
    (hfails : ∀ j < k, failed (orbit lo hi (j + 1)) = .ok true) :
    search failed (fuel + k) lo hi = search failed fuel (orbit lo hi k) hi := by
  induction k generalizing fuel with
  | zero => rfl
  | succ k ih =>
    rw [show fuel + (k + 1) = fuel + 1 + k by omega,
      ih fun j hj => hfails j (Nat.lt_succ_of_lt hj)]
    have htest := hfails k (Nat.lt_succ_self k)
    rw [orbit_succ] at htest ⊢
    rw [search, if_pos (open_of_lt (orbit_lt hlo k) hhi), htest]

theorem search_diverges (hlo : lo.toNat < 2 ^ 63) (hhi : 2 ^ 63 < hi.toNat)
    (hfails : ∀ k, failed (orbit lo hi (k + 1)) = .ok true) (fuel : Nat) :
    search failed fuel lo hi = none := by
  rw [← Nat.zero_add fuel, search_orbit hlo hhi fun j _ => hfails j, search]

end Lib.BinarySearch
