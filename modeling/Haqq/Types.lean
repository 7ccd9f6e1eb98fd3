import Haqq.Lib.Tally
import Mathlib.Data.Nat.Digits.Lemmas

/-!
# Addresses, coins and machine integers

The value types shared by all modules of the chain.
-/

namespace Haqq

open Lib

abbrev Address := Fin (2 ^ 160)

abbrev Hash := Fin (2 ^ 256)

instance neZeroAddress : NeZero (2 ^ 160) := ⟨by decide⟩

instance neZeroHash : NeZero (2 ^ 256) := ⟨by decide⟩

abbrev Bytes := List UInt8

/-- The bank denominations: the staking and gas coin `aISLM`, the coin `aHAQQ`, the
liquid vesting tokens `aLIQUID<id>`, and everything else. -/
inductive Denom
  | islm
  | haqq
  | liquid (id : Nat)
  | other (name : String)
  deriving DecidableEq, Repr

namespace Denom

/-- The ids of liquid tokens compare by their decimal digits. -/
def key : Denom → List Nat
  | haqq => [0]
  | islm => [1]
  | liquid id => 2 :: (Nat.digits 10 id).reverse
  | other name => 3 :: name.toList.map Char.toNat

theorem key_injective : Function.Injective key := by
  intro d e h
  cases d <;> cases e <;> simp [key] at h ⊢
  case liquid.liquid => exact h
  case other.other =>
    have hinj : Function.Injective Char.toNat := fun _ _ => Char.toNat_inj.mp
    exact String.toList_inj.mp (List.map_injective_iff.mpr hinj h)

instance : LinearOrder Denom := LinearOrder.lift' key key_injective

def isLiquid : Denom → Bool
  | liquid _ => true
  | _ => false

end Denom

abbrev Coins := Tally Denom

abbrev Uint256 := Fin (2 ^ 256)

def maxUint256 : Uint256 := Fin.last _

/-- Two's complement wrap-around. -/
def int64 (n : Int) : Int := n.bmod (2 ^ 64)

def InInt64 (n : Int) : Prop := -2 ^ 63 ≤ n ∧ n < 2 ^ 63

instance (n : Int) : Decidable (InInt64 n) := inferInstanceAs (Decidable (_ ∧ _))

theorem int64_of_inInt64 {n : Int} (h : InInt64 n) : int64 n = n := by
  obtain ⟨hlow, hhigh⟩ := h
  exact Int.bmod_eq_of_le (by omega) (by omega)

theorem int64_add_int64 (m n : Int) : int64 (m + int64 n) = int64 (m + n) :=
  Int.add_bmod_bmod

theorem int64_sub_int64 (m n : Int) : int64 (m - int64 n) = int64 (m - n) :=
  Int.sub_bmod_bmod

theorem inInt64_int64 (n : Int) : InInt64 (int64 n) := by
  have hlow := @Int.le_bmod n (2 ^ 64) (by decide)
  have hhigh := @Int.bmod_lt n (2 ^ 64) (by decide)
  exact ⟨by simpa [int64] using hlow, by simpa [int64] using hhigh⟩

theorem int64_pos_iff {n : Int} (hpos : 0 < n) (hlt : n < 2 ^ 64) : 0 < int64 n ↔ n < 2 ^ 63 := by
  by_cases hn : n < 2 ^ 63
  · rw [int64_of_inInt64 ⟨by omega, hn⟩]
    exact ⟨fun _ => hn, fun _ => hpos⟩
  · have hwrap : int64 n = n - 2 ^ 64 :=
      (Int.sub_bmod_right n (2 ^ 64)).symm.trans (int64_of_inInt64 ⟨by omega, by omega⟩)
    omega

end Haqq
