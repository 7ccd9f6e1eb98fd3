import Mathlib.Data.List.Lex
import Mathlib.Tactic.Ring

/-!
# Bytes of numbers

Numbers as digits of a fixed width, the most significant digit first, and as bytes.  Bytes of one
width are in lexicographic order exactly if the numbers are in numeric order.
-/

namespace Lib

instance linearOrderUInt8 : LinearOrder UInt8 where
  le_refl := UInt8.le_refl
  le_trans _ _ _ := UInt8.le_trans
  lt_iff_le_not_ge a b := by
    rw [UInt8.lt_iff_toNat_lt, UInt8.le_iff_toNat_le, UInt8.le_iff_toNat_le]
    omega
  le_antisymm a b h h' := by
    rw [UInt8.le_iff_toNat_le] at h h'
    exact UInt8.toNat_inj.mp (Nat.le_antisymm h h')
  le_total a b := by
    rw [UInt8.le_iff_toNat_le, UInt8.le_iff_toNat_le]
    exact Nat.le_total _ _
  toDecidableLE := fun a b => a.decLe b
  toDecidableLT := fun a b => a.decLt b

variable {base width n m : Nat} {bytes bytes' : List UInt8}

namespace BigEndian

def value (base : Nat) : List Nat → Nat
  | [] => 0
  | d :: rest => d * base ^ rest.length + value base rest

/-- The last `width` digits of a number. -/
def digits (base : Nat) : Nat → Nat → List Nat
  | 0, _ => []
  | width + 1, n => n / base ^ width % base :: digits base width n

@[simp] theorem length_digits (base width n : Nat) : (digits base width n).length = width := by
  induction width with
  | zero => rfl
  | succ width ih => rw [digits, List.length_cons, ih]

theorem lt_of_mem_digits {d : Nat} (hbase : 0 < base) (h : d ∈ digits base width n) : d < base := by
  induction width with
  | zero => cases h
  | succ width ih =>
    rcases List.mem_cons.mp h with rfl | h
    · exact Nat.mod_lt _ hbase
    · exact ih h

theorem value_digits (base width n : Nat) :
    value base (digits base width n) = n % base ^ width := by
  induction width with
  | zero => rw [digits, value, pow_zero, Nat.mod_one]
  | succ width ih =>
    rw [digits, value, length_digits, ih, pow_succ, Nat.mod_mul]
    ring

theorem value_lt {ds : List Nat} (h : ∀ d ∈ ds, d < base) : value base ds < base ^ ds.length := by
  induction ds with
  | nil => exact Nat.one_pos
  | cons d rest ih =>
    have hd : d + 1 ≤ base := h d List.mem_cons_self
    have hrest := ih fun d' hd' => h d' (List.mem_cons_of_mem d hd')
    calc value base (d :: rest) < d * base ^ rest.length + base ^ rest.length :=
          Nat.add_lt_add_left hrest _
      _ = (d + 1) * base ^ rest.length := by ring
      _ ≤ base * base ^ rest.length := Nat.mul_le_mul_right _ hd
      _ = base ^ (d :: rest).length := by rw [List.length_cons, pow_succ']

/-! ## Bytes -/

def toNat (bytes : List UInt8) : Nat := value 256 (bytes.map UInt8.toNat)

/-- The last `width` bytes of a number. -/
def ofNat (width n : Nat) : List UInt8 := (digits 256 width n).map UInt8.ofNat

theorem toNat_cons (b : UInt8) (rest : List UInt8) :
    toNat (b :: rest) = b.toNat * 256 ^ rest.length + toNat rest := by
  rw [toNat, List.map_cons, value, List.length_map, ← toNat]

theorem toNat_append (bytes bytes' : List UInt8) :
    toNat (bytes ++ bytes') = toNat bytes * 256 ^ bytes'.length + toNat bytes' := by
  induction bytes with
  | nil => simp [toNat, value]
  | cons b rest ih =>
    rw [List.cons_append, toNat_cons, ih, toNat_cons, List.length_append, pow_add]
    ring

@[simp] theorem length_ofNat (width n : Nat) : (ofNat width n).length = width := by
  rw [ofNat, List.length_map, length_digits]

theorem toNat_lt (bytes : List UInt8) : toNat bytes < 256 ^ bytes.length := by
  have hbytes : ∀ d ∈ bytes.map UInt8.toNat, d < 256 := by
    intro d hd
    obtain ⟨b, -, rfl⟩ := List.mem_map.mp hd
    exact b.toNat_lt
  have h := value_lt hbytes
  rwa [List.length_map] at h

theorem toNat_ofNat (width n : Nat) : toNat (ofNat width n) = n % 256 ^ width := by
  have hmap : (ofNat width n).map UInt8.toNat = digits 256 width n := by
    rw [ofNat, List.map_map]
    apply (List.map_congr_left fun d hd => ?_).trans (List.map_id _)
    have hlt : d < 256 := lt_of_mem_digits (by decide) hd
    exact UInt8.toNat_ofNat_of_lt' hlt
  rw [toNat, hmap, value_digits]

theorem toNat_ofNat_of_lt (h : n < 256 ^ width) : toNat (ofNat width n) = n := by
  rw [toNat_ofNat, Nat.mod_eq_of_lt h]

theorem ofNat_inj (hm : m < 256 ^ width) (hn : n < 256 ^ width) :
    ofNat width m = ofNat width n ↔ m = n := by
  constructor
  · intro h
    rw [← toNat_ofNat_of_lt hm, ← toNat_ofNat_of_lt hn, h]
  · rintro rfl
    rfl

theorem lt_iff_toNat_lt (hlength : bytes.length = bytes'.length) :
    bytes < bytes' ↔ toNat bytes < toNat bytes' := by
  induction bytes generalizing bytes' with
  | nil =>
    cases bytes' with
    | nil => simp
    | cons b' rest' => cases hlength
  | cons b rest ih =>
    cases bytes' with
    | nil => cases hlength
    | cons b' rest' =>
      have hrest : rest.length = rest'.length := Nat.succ.inj hlength
      have hlow := toNat_lt rest
      have hlow' := toNat_lt rest'
      rw [List.cons_lt_cons_iff, ih hrest, toNat_cons, toNat_cons, UInt8.lt_iff_toNat_lt, hrest]
      rw [hrest] at hlow
      -- the first bytes decide unless they are the same
      rcases Nat.lt_trichotomy b.toNat b'.toNat with hlt | heq | hgt
      · have hstep := Nat.mul_le_mul_right (256 ^ rest'.length) hlt
        rw [Nat.succ_mul] at hstep
        exact ⟨fun _ => by omega, fun _ => .inl hlt⟩
      · obtain rfl := UInt8.toNat_inj.mp heq
        simp
      · have hstep := Nat.mul_le_mul_right (256 ^ rest'.length) hgt
        rw [Nat.succ_mul] at hstep
        constructor
        · rintro (hlt | ⟨rfl, -⟩)
          · omega
          · exact absurd hgt (Nat.lt_irrefl _)
        · intro h
          omega

theorem toNat_inj (hlength : bytes.length = bytes'.length) (h : toNat bytes = toNat bytes') :
    bytes = bytes' := by
  rcases lt_trichotomy bytes bytes' with hlt | heq | hgt
  · have := (lt_iff_toNat_lt hlength).mp hlt
    omega
  · exact heq
  · have := (lt_iff_toNat_lt hlength.symm).mp hgt
    omega

theorem ofNat_toNat (bytes : List UInt8) : ofNat bytes.length (toNat bytes) = bytes :=
  toNat_inj (length_ofNat _ _) (toNat_ofNat_of_lt (toNat_lt bytes))

end BigEndian

end Lib
