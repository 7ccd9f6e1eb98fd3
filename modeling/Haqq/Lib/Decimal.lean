import Mathlib.Tactic.Linarith
import Mathlib.Tactic.Positivity
import Mathlib.Tactic.Ring

/-!
# Decimals with 18 digits

Fixed-point decimals, represented by the number of their smallest units.  Products and quotients are
rounded half to even; the signed operations round the absolute value.
-/

namespace Lib.Decimal

def precision : Nat := 10 ^ 18

def ofNat (n : Nat) : Nat := n * precision

def chopPrecisionAndRound (d : Nat) : Nat :=
  let quo := d / precision
  let rem := d % precision
  if rem < precision / 2 then quo
  else if precision / 2 < rem then quo + 1
  else if quo % 2 = 0 then quo else quo + 1

def mul (d e : Nat) : Nat := chopPrecisionAndRound (d * e)

def quo (d e : Nat) : Nat := chopPrecisionAndRound (d * precision * precision / e)

def truncateInt (d : Nat) : Nat := d / precision

theorem chopPrecisionAndRound_bounds (d : Nat) :
    d / precision ≤ chopPrecisionAndRound d ∧
      2 * precision * chopPrecisionAndRound d ≤ 2 * d + precision ∧
      2 * d ≤ 2 * precision * chopPrecisionAndRound d + precision := by
  have hdiv := Nat.div_add_mod d precision
  have hmod := Nat.mod_lt d (show 0 < precision by decide)
  have hhalf : precision = 2 * (precision / 2) := rfl
  simp only [chopPrecisionAndRound]
  generalize d / precision = q at *
  generalize d % precision = r at *
  split
  · exact ⟨le_rfl, by rw [← hdiv]; ring_nf; omega, by rw [← hdiv]; ring_nf; omega⟩
  · split
    · exact ⟨by omega, by rw [← hdiv]; ring_nf; omega, by rw [← hdiv]; ring_nf; omega⟩
    · split
      · exact ⟨le_rfl, by rw [← hdiv]; ring_nf; omega, by rw [← hdiv]; ring_nf; omega⟩
      · exact ⟨by omega, by rw [← hdiv]; ring_nf; omega, by rw [← hdiv]; ring_nf; omega⟩

theorem chopPrecisionAndRound_ofNat (n : Nat) : chopPrecisionAndRound (ofNat n) = n := by
  have hpos : 0 < precision := by decide
  simp [chopPrecisionAndRound, ofNat, Nat.mul_div_cancel _ hpos, show 0 < precision / 2 by decide]

theorem mul_ofNat (n e : Nat) : mul (ofNat n) e = n * e := by
  have hproduct : ofNat n * e = ofNat (n * e) := by
    unfold ofNat
    ring
  rw [mul, hproduct, chopPrecisionAndRound_ofNat]

theorem truncateInt_max_ofNat (d n : Nat) :
    truncateInt (max d (ofNat n)) = max (truncateInt d) n := by
  have hpos : 0 < precision := by decide
  have hmono : Monotone fun m => m / precision := fun _ _ h => Nat.div_le_div_right h
  exact hmono.map_max.trans (congrArg (max _) (Nat.mul_div_cancel n hpos))

/-- With few enough digits of the divisor the quotient is never so close below an integer that it is
rounded up to it. -/
theorem truncateInt_quo {n e m k : Nat} (hk : k * m = precision) (he : 0 < e)
    (hle : e ≤ precision) :
    truncateInt (quo (ofNat n) (e * m)) = n * k / e := by
  have hpos : 0 < precision := by decide
  have hm : 0 < m := Nat.pos_of_ne_zero fun hm => by simp [hm] at hk; omega
  have hcancel : ofNat n * precision * precision / (e * m) = n * k * precision * precision / e := by
    have : ofNat n * precision * precision = n * k * precision * precision * m := by
      rw [ofNat, ← hk]
      ring
    rw [this, Nat.mul_div_mul_right _ _ hm]
  rw [truncateInt, quo, hcancel]
  generalize n * k = N
  obtain ⟨hlow, hhigh, -⟩ := chopPrecisionAndRound_bounds (N * precision * precision / e)
  generalize chopPrecisionAndRound (N * precision * precision / e) = c at hlow hhigh
  generalize precision = D at *
  -- the quotient in units of `1 / D²`, between `q * D²` and `(q + 1) * D² - D² / e`
  have hN := Nat.div_add_mod N e
  have hs := Nat.mod_lt N he
  generalize N / e = q at *
  generalize N % e = s at *
  have hx := Nat.div_mul_le_self (N * D * D) e
  have hq : q * D * D ≤ N * D * D / e := by
    rw [Nat.le_div_iff_mul_le he, ← hN]
    nlinarith [Nat.zero_le (s * D * D)]
  generalize N * D * D / e = x at *
  refine Nat.div_eq_of_lt_le ?_ ?_
  · have : q * D ≤ x / D := (Nat.le_div_iff_mul_le hpos).mpr hq
    omega
  · have hbound : 2 * D * c < 2 * D * ((q + 1) * D) := by
      have hxe : x * e + D * D ≤ e * ((q + 1) * D * D) := by
        calc x * e + D * D ≤ N * D * D + D * D := by omega
          _ = (N + 1) * (D * D) := by ring
          _ ≤ (e * q + e) * (D * D) := Nat.mul_le_mul_right _ (by omega)
          _ = e * ((q + 1) * D * D) := by ring
      have hstrict : (2 * x + D) * e < 2 * ((q + 1) * D * D) * e := by nlinarith
      have := Nat.lt_of_mul_lt_mul_right hstrict
      calc 2 * D * c ≤ 2 * x + D := hhigh
        _ < 2 * ((q + 1) * D * D) := this
        _ = 2 * D * ((q + 1) * D) := by ring
    have := Nat.lt_of_mul_lt_mul_left hbound
    simpa [Nat.succ_eq_add_one] using this

/-! ## Signed decimals -/

def ofInt (n : Int) : Int := n * precision

def roundInt (d : Int) : Int :=
  if d < 0 then -chopPrecisionAndRound d.natAbs else chopPrecisionAndRound d.natAbs

def smul (d e : Int) : Int := roundInt (d * e)

def squo (d e : Int) : Int := roundInt ((d * precision * precision).tdiv e)

theorem roundInt_nonneg {d : Int} (h : 0 ≤ d) : 0 ≤ roundInt d := by
  rw [roundInt, if_neg (not_lt.mpr h)]
  omega

theorem roundInt_le {d n : Int} (hd : 0 ≤ d) (h : d ≤ ofInt n) : roundInt d ≤ n := by
  have hpos : (0 : Int) < precision := by decide
  rw [roundInt, if_neg (not_lt.mpr hd)]
  obtain ⟨-, hbound, -⟩ := chopPrecisionAndRound_bounds d.natAbs
  generalize chopPrecisionAndRound d.natAbs = c at hbound ⊢
  have habs : (d.natAbs : Int) = d := Int.natAbs_of_nonneg hd
  have hbound' : 2 * (precision : Int) * c ≤ 2 * d + precision := by
    rw [← habs]
    exact_mod_cast hbound
  -- twice the rounded value is less than `2 * n + 2`
  unfold ofInt at h
  have hlt : (precision : Int) * (2 * c) < precision * (2 * n + 2) := by nlinarith
  have := lt_of_mul_lt_mul_left hlt hpos.le
  omega

theorem roundInt_ofInt (n : Int) : roundInt (ofInt n) = n := by
  have hpos : 0 < precision := by decide
  have habs : chopPrecisionAndRound (ofInt n).natAbs = n.natAbs := by
    rw [ofInt, Int.natAbs_mul, Int.natAbs_natCast]
    exact chopPrecisionAndRound_ofNat n.natAbs
  have hsign : ofInt n < 0 ↔ n < 0 := by
    unfold ofInt
    have hcast : (0 : Int) < precision := by exact_mod_cast hpos
    constructor
    · intro h
      by_contra hn
      exact absurd h (not_lt.mpr (mul_nonneg (not_lt.mp hn) hcast.le))
    · exact fun h => mul_neg_of_neg_of_pos h hcast
  rw [roundInt, habs]
  split
  · rename_i hneg
    have := hsign.mp hneg
    omega
  · rename_i hnonneg
    have := mt hsign.mpr hnonneg
    omega

theorem roundInt_error (d : Int) : |2 * (precision * roundInt d - d)| ≤ precision := by
  obtain ⟨-, hhigh, hlow⟩ := chopPrecisionAndRound_bounds d.natAbs
  have hhigh' : 2 * ((precision : Int) * chopPrecisionAndRound d.natAbs) ≤
      2 * d.natAbs + precision := by
    rw [← mul_assoc]
    exact_mod_cast hhigh
  have hlow' : 2 * (d.natAbs : Int) ≤
      2 * (precision * chopPrecisionAndRound d.natAbs) + precision := by
    rw [← mul_assoc]
    exact_mod_cast hlow
  rw [roundInt, abs_le]
  split
  · rw [mul_neg]
    constructor <;> omega
  · constructor <;> omega

theorem smul_ofInt (n e : Int) : smul (ofInt n) e = n * e := by
  have hproduct : ofInt n * e = ofInt (n * e) := by
    unfold ofInt
    ring
  rw [smul, hproduct, roundInt_ofInt]

/-- The digits that decide are cut off first, but a quotient of a small divisor is not so close to
the middle between two decimals. -/
theorem squo_ofInt_error {n e : Int} (hn : 0 ≤ n) (he : 0 < e) (hle : 2 * e ≤ precision) :
    |2 * (e * squo (ofInt n) (ofInt e) - n * precision)| ≤ e := by
  have hpos : (0 : Int) < precision := by decide
  have hcut : (ofInt n * precision * precision).tdiv (ofInt e) = n * precision * precision / e := by
    have hleft : ofInt n * precision * precision = n * precision * precision * precision := by
      unfold ofInt
      ring
    rw [hleft, ofInt, Int.mul_tdiv_mul_of_pos_left _ _ hpos,
      Int.tdiv_eq_ediv_of_nonneg (by positivity)]
  have hround := abs_le.mp (roundInt_error (n * precision * precision / e))
  rw [squo, hcut]
  generalize roundInt (n * precision * precision / e) = c at *
  have hdiv := Int.mul_ediv_add_emod (n * precision * precision) e
  have hmod := Int.emod_nonneg (n * precision * precision) he.ne'
  have hmod' := Int.emod_lt_of_pos (n * precision * precision) he
  generalize n * precision * precision / e = x at *
  generalize n * precision * precision % e = r at *
  generalize (precision : Int) = D at *
  rw [abs_le]
  constructor
  · -- what was cut off is less than a unit of the difference
    have hlt : D * (2 * (n * D)) < D * (2 * (e * c) + e + 1) := by nlinarith
    have := lt_of_mul_lt_mul_left hlt hpos.le
    omega
  · have hle : D * (2 * (e * c)) ≤ D * (2 * (n * D) + e) := by nlinarith
    have := le_of_mul_le_mul_left hle hpos
    omega

end Lib.Decimal
