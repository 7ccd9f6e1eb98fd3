import Haqq.Lib.BigEndian
import Mathlib.Data.BitVec

/-!
# Bech32

A human readable part, the separator `1`, and characters for groups of five bits: the data and a
checksum, the remainder of a polynomial division over bits.  A division step is linear in exclusive
or, and a remainder that starts at zero takes up six groups unchanged.
-/

namespace Lib.Bech32

abbrev Group := BitVec 5

/-! ## The checksum -/

def generator : List (BitVec 30) :=
  [0x3b6a57b2#30, 0x26508e6d#30, 0x1ea119fa#30, 0x3d4233dd#30, 0x2a1462b3#30]

def feedback (top : BitVec 30) : List (BitVec 30) → Nat → BitVec 30
  | [], _ => 0#30
  | g :: rest, i => (if top.getLsbD i then g else 0#30) ^^^ feedback top rest (i + 1)

def step (chk : BitVec 30) (v : Group) : BitVec 30 :=
  chk <<< 5 ^^^ v.setWidth 30 ^^^ feedback (chk >>> 25) generator 0

def remainder (chk : BitVec 30) (groups : List Group) : BitVec 30 := groups.foldl step chk

/-- The high bits of its characters, then the low ones. -/
def expand (hrp : List Char) : List Group :=
  hrp.map (fun c => BitVec.ofNat 5 (c.toNat / 32)) ++ 0#5 ::
    hrp.map (fun c => BitVec.ofNat 5 (c.toNat % 32))

def lastGroups (x : BitVec 30) : Nat → List Group
  | 0 => []
  | n + 1 => (x >>> (5 * n)).setWidth 5 :: lastGroups x n

def checksum (hrp : List Char) (data : List Group) : List Group :=
  lastGroups (remainder 1#30 (expand hrp ++ data ++ List.replicate 6 0#5) ^^^ 1#30) 6

def verifyChecksum (hrp : List Char) (groups : List Group) : Bool :=
  remainder 1#30 (expand hrp ++ groups) == 1#30

section

theorem feedback_xor (a b : BitVec 30) (gs : List (BitVec 30)) (i : Nat) :
    feedback (a ^^^ b) gs i = feedback a gs i ^^^ feedback b gs i := by
  induction gs generalizing i with
  | nil => simp [feedback]
  | cons g rest ih =>
    have hbit : (if (a ^^^ b).getLsbD i then g else 0#30) =
        (if a.getLsbD i then g else 0#30) ^^^ (if b.getLsbD i then g else 0#30) := by
      rw [BitVec.getLsbD_xor]
      cases a.getLsbD i <;> cases b.getLsbD i <;> simp
    rw [feedback, feedback, feedback, ih, hbit]
    ac_rfl

theorem feedback_zero (gs : List (BitVec 30)) (i : Nat) : feedback 0#30 gs i = 0#30 := by
  induction gs generalizing i with
  | nil => rfl
  | cons g rest ih => simp [feedback, ih]

theorem step_xor (a b : BitVec 30) (v w : Group) :
    step (a ^^^ b) (v ^^^ w) = step a v ^^^ step b w := by
  simp only [step, BitVec.shiftLeft_xor_distrib, BitVec.ushiftRight_xor_distrib, feedback_xor,
    BitVec.setWidth_xor]
  ac_rfl

theorem step_of_small {chk : BitVec 30} (h : chk >>> 25 = 0#30) (v : Group) :
    step chk v = chk <<< 5 ^^^ v.setWidth 30 := by
  rw [step, h, feedback_zero, BitVec.xor_zero]

theorem remainder_append (chk : BitVec 30) (groups groups' : List Group) :
    remainder chk (groups ++ groups') = remainder (remainder chk groups) groups' :=
  List.foldl_append

theorem remainder_cons (chk : BitVec 30) (v : Group) (rest : List Group) :
    remainder chk (v :: rest) = remainder (step chk v) rest := rfl

theorem remainder_xor (a b : BitVec 30) (groups : List Group) :
    remainder (a ^^^ b) groups =
      remainder a (List.replicate groups.length 0#5) ^^^ remainder b groups := by
  induction groups generalizing a b with
  | nil => rfl
  | cons v rest ih =>
    have hstep : step (a ^^^ b) v = step a 0#5 ^^^ step b v := by
      rw [← step_xor, BitVec.zero_xor]
    rw [List.length_cons, List.replicate_succ, remainder_cons, remainder_cons, remainder_cons,
      hstep, ih]

theorem shift_group (y : BitVec 30) : (y >>> 5) <<< 5 ^^^ (y.setWidth 5).setWidth 30 = y := by
  apply BitVec.eq_of_getLsbD_eq
  intro i hi
  simp only [BitVec.getLsbD_xor, BitVec.getLsbD_shiftLeft, BitVec.getLsbD_ushiftRight,
    BitVec.getLsbD_setWidth]
  by_cases hlow : i < 5
  · simp [hi, hlow]
  · simp [hi, hlow, show 5 + (i - 5) = i by omega]

theorem remainder_lastGroups (x : BitVec 30) (n : Nat) (hn : n ≤ 6) :
    remainder (x >>> (5 * n)) (lastGroups x n) = x := by
  induction n with
  | zero => simp [remainder, lastGroups]
  | succ n ih =>
    have hsmall : (x >>> (5 * (n + 1))) >>> 25 = 0#30 := by
      rw [← BitVec.shiftRight_add]
      apply BitVec.eq_of_getLsbD_eq
      intro i hi
      rw [BitVec.getLsbD_ushiftRight, BitVec.getLsbD_of_ge _ _ (by omega),
        BitVec.getLsbD_zero]
    have hnext : step (x >>> (5 * (n + 1))) ((x >>> (5 * n)).setWidth 5) = x >>> (5 * n) := by
      rw [step_of_small hsmall, show 5 * (n + 1) = 5 * n + 5 by omega, BitVec.shiftRight_add]
      exact shift_group _
    rw [lastGroups, remainder_cons, hnext]
    exact ih (by omega)

theorem length_lastGroups (x : BitVec 30) (n : Nat) : (lastGroups x n).length = n := by
  induction n with
  | zero => rfl
  | succ n ih => rw [lastGroups, List.length_cons, ih]

theorem verifyChecksum_checksum (hrp : List Char) (data : List Group) :
    verifyChecksum hrp (data ++ checksum hrp data) = true := by
  rw [verifyChecksum, beq_iff_eq, ← List.append_assoc, remainder_append]
  have hzero : remainder 0#30 (checksum hrp data) =
      remainder 1#30 (expand hrp ++ data ++ List.replicate 6 0#5) ^^^ 1#30 := by
    have h := remainder_lastGroups
      (remainder 1#30 (expand hrp ++ data ++ List.replicate 6 0#5) ^^^ 1#30) 6 (Nat.le_refl 6)
    rwa [BitVec.ushiftRight_eq_zero (by decide)] at h
  have hlength : (checksum hrp data).length = 6 := length_lastGroups _ 6
  have hsplit := remainder_xor (remainder 1#30 (expand hrp ++ data)) 0#30 (checksum hrp data)
  rw [BitVec.xor_zero, hlength, hzero] at hsplit
  rw [hsplit, ← remainder_append 1#30 (expand hrp ++ data), ← BitVec.xor_assoc, BitVec.xor_self,
    BitVec.zero_xor]

end

/-! ## Text -/

def charset : List Char := "qpzry9x8gf2tvdw0s3jn54khce6mua7l".toList

def toChar (v : Group) : Char := charset.getD v.toNat 'q'

def ofChar (c : Char) : Option Group := (charset.idxOf? c).map (BitVec.ofNat 5)

def encode (hrp : List Char) (data : List Group) : List Char :=
  hrp ++ '1' :: (data ++ checksum hrp data).map toChar

/-- Around the last separator. -/
def split (text : List Char) : Option (List Char × List Char) :=
  let tail := text.reverse.takeWhile (· ≠ '1')
  match text.reverse.drop tail.length with
  | [] => none
  | _ :: head => some (head.reverse, tail.reverse)

/-- Printable, at least eight and at most `limit` characters, not in mixed case. -/
def wellFormed (limit : Nat) (text : List Char) : Bool :=
  8 ≤ text.length && text.length ≤ limit && text.all (fun c => 33 ≤ c.toNat && c.toNat ≤ 126) &&
    !(text.any Char.isLower && text.any Char.isUpper)

def decode (limit : Nat) (text : List Char) : Option (List Char × List Group) := do
  guard (wellFormed limit text = true)
  let (hrp, chars) ← split (text.map Char.toLower)
  guard (hrp ≠ [] ∧ 6 ≤ chars.length)
  let groups ← chars.mapM ofChar
  guard (verifyChecksum hrp groups = true)
  return (hrp, groups.take (groups.length - 6))

def isHrpChar (c : Char) : Bool := 33 ≤ c.toNat && c.toNat ≤ 126 && !c.isUpper && c.toLower == c

theorem ofChar_toChar (v : Group) : ofChar (toChar v) = some v := by
  revert v
  decide

theorem toChar_ne_separator (v : Group) : toChar v ≠ '1' := by
  revert v
  decide

theorem isHrpChar_toChar (v : Group) : isHrpChar (toChar v) = true := by
  revert v
  decide

theorem mapM_ofChar (groups : List Group) : (groups.map toChar).mapM ofChar = some groups := by
  induction groups with
  | nil => rfl
  | cons v rest ih => simp [ofChar_toChar, ih]

theorem split_append {chars : List Char} (hrp : List Char) (h : '1' ∉ chars) :
    split (hrp ++ '1' :: chars) = some (hrp, chars) := by
  have hreverse : (hrp ++ '1' :: chars).reverse = chars.reverse ++ '1' :: hrp.reverse := by simp
  have htail : (chars.reverse ++ '1' :: hrp.reverse).takeWhile (· ≠ '1') = chars.reverse := by
    rw [List.takeWhile_append_of_pos]
    · simp
    · intro c hc
      have hne : c ≠ '1' := by
        rintro rfl
        exact h (List.mem_reverse.mp hc)
      simpa using hne
  rw [split, hreverse, htail, List.drop_left]
  simp

section

variable {hrp : List Char} {limit : Nat}

theorem isHrpChar_encode (hchars : ∀ c ∈ hrp, isHrpChar c = true) (data : List Group) :
    ∀ c ∈ encode hrp data, isHrpChar c = true := by
  intro c hc
  rcases List.mem_append.mp hc with hc | hc
  · exact hchars c hc
  · rcases List.mem_cons.mp hc with rfl | hc
    · decide
    · obtain ⟨v, -, rfl⟩ := List.mem_map.mp hc
      exact isHrpChar_toChar v

theorem length_encode (hrp : List Char) (data : List Group) :
    (encode hrp data).length = hrp.length + data.length + 7 := by
  have hlength : (checksum hrp data).length = 6 := length_lastGroups _ 6
  simp only [encode, List.length_append, List.length_cons, List.length_map, hlength]
  omega

theorem wellFormed_encode (hhrp : hrp ≠ []) (hchars : ∀ c ∈ hrp, isHrpChar c = true)
    (data : List Group) (hlimit : hrp.length + data.length + 7 ≤ limit) :
    wellFormed limit (encode hrp data) = true := by
  have hall := isHrpChar_encode hchars data
  have hpos := List.length_pos_of_ne_nil hhrp
  have hprintable : (encode hrp data).all (fun c => 33 ≤ c.toNat && c.toNat ≤ 126) = true := by
    rw [List.all_eq_true]
    intro c hc
    have h := hall c hc
    simp only [isHrpChar, Bool.and_eq_true] at h
    simp only [Bool.and_eq_true]
    exact h.1.1
  have hupper : (encode hrp data).any Char.isUpper = false := by
    rw [List.any_eq_false]
    intro c hc
    have h := hall c hc
    simp only [isHrpChar, Bool.and_eq_true, Bool.not_eq_true'] at h
    rw [h.1.2]
    decide
  rw [wellFormed, hprintable, hupper, length_encode]
  simp only [Bool.and_false, Bool.not_false, Bool.and_true, Bool.and_eq_true, decide_eq_true_eq]
  omega

theorem map_toLower_encode (hchars : ∀ c ∈ hrp, isHrpChar c = true) (data : List Group) :
    (encode hrp data).map Char.toLower = encode hrp data := by
  apply (List.map_congr_left fun c hc => ?_).trans (List.map_id _)
  have h := isHrpChar_encode hchars data c hc
  simp only [isHrpChar, Bool.and_eq_true, beq_iff_eq] at h
  exact h.2

theorem decode_encode (hhrp : hrp ≠ []) (hchars : ∀ c ∈ hrp, isHrpChar c = true)
    (data : List Group) (hlimit : hrp.length + data.length + 7 ≤ limit) :
    decode limit (encode hrp data) = some (hrp, data) := by
  have hlength : (checksum hrp data).length = 6 := length_lastGroups _ 6
  have hverify := verifyChecksum_checksum hrp data
  have htake : (data ++ checksum hrp data).take
      ((data ++ checksum hrp data).length - 6) = data := by
    rw [List.length_append, hlength, Nat.add_sub_cancel, List.take_left]
  have hsix : 6 ≤ (data ++ checksum hrp data).length := by
    rw [List.length_append, hlength]
    omega
  rw [decode, wellFormed_encode hhrp hchars data hlimit, map_toLower_encode hchars data, encode]
  generalize data ++ checksum hrp data = groups at hverify htake hsix ⊢
  have hseparator : '1' ∉ groups.map toChar := by
    intro hmem
    obtain ⟨v, -, hv⟩ := List.mem_map.mp hmem
    exact toChar_ne_separator v hv
  rw [split_append hrp hseparator]
  have hguard : hrp ≠ [] ∧ 6 ≤ (groups.map toChar).length := ⟨hhrp, by rwa [List.length_map]⟩
  simp only [guard, if_true, Option.bind_eq_bind, Option.pure_def, Option.bind_some, if_pos hguard,
    mapM_ofChar, hverify, htake]

end

/-! ## Bytes -/

def groupCount (n : Nat) : Nat := (8 * n + 4) / 5

def padding (n : Nat) : Nat := 5 * groupCount n - 8 * n

def ofBytes (bytes : List UInt8) : List Group :=
  (BigEndian.digits 32 (groupCount bytes.length)
    (BigEndian.toNat bytes * 2 ^ padding bytes.length)).map (BitVec.ofNat 5)

/-- What is left over are less than five zeros. -/
def toBytes (groups : List Group) : Option (List UInt8) :=
  let n := BigEndian.value 32 (groups.map BitVec.toNat)
  let left := 5 * groups.length % 8
  if left < 5 ∧ n % 2 ^ left = 0 then
    some (BigEndian.ofNat (5 * groups.length / 8) (n / 2 ^ left))
  else none

@[simp] theorem length_ofBytes (bytes : List UInt8) :
    (ofBytes bytes).length = groupCount bytes.length := by
  rw [ofBytes, List.length_map, BigEndian.length_digits]

theorem value_ofBytes (bytes : List UInt8) :
    BigEndian.value 32 ((ofBytes bytes).map BitVec.toNat) =
      BigEndian.toNat bytes * 2 ^ padding bytes.length := by
  have hmap : (ofBytes bytes).map BitVec.toNat = BigEndian.digits 32 (groupCount bytes.length)
      (BigEndian.toNat bytes * 2 ^ padding bytes.length) := by
    rw [ofBytes, List.map_map]
    apply (List.map_congr_left fun d hd => ?_).trans (List.map_id _)
    have hlt : d < 32 := BigEndian.lt_of_mem_digits (by decide) hd
    exact (BitVec.toNat_ofNat d 5).trans (Nat.mod_eq_of_lt hlt)
  have hbits : 8 * bytes.length + padding bytes.length = 5 * groupCount bytes.length := by
    rw [padding, groupCount]
    omega
  have hlt : BigEndian.toNat bytes * 2 ^ padding bytes.length < 32 ^ groupCount bytes.length := by
    calc BigEndian.toNat bytes * 2 ^ padding bytes.length
        < 256 ^ bytes.length * 2 ^ padding bytes.length :=
          Nat.mul_lt_mul_of_pos_right (BigEndian.toNat_lt bytes) (Nat.two_pow_pos _)
      _ = 2 ^ (8 * bytes.length + padding bytes.length) := by rw [pow_add, pow_mul]; rfl
      _ = 32 ^ groupCount bytes.length := by rw [hbits, pow_mul]; rfl
  rw [hmap, BigEndian.value_digits, Nat.mod_eq_of_lt hlt]

theorem toBytes_ofBytes (bytes : List UInt8) : toBytes (ofBytes bytes) = some bytes := by
  have hleft : 5 * groupCount bytes.length % 8 = padding bytes.length := by
    rw [padding, groupCount]
    omega
  have hwidth : 5 * groupCount bytes.length / 8 = bytes.length := by
    rw [groupCount]
    omega
  have hsmall : padding bytes.length < 5 := by
    rw [padding, groupCount]
    omega
  simp only [toBytes, value_ofBytes, length_ofBytes, hleft, hwidth]
  rw [if_pos ⟨hsmall, Nat.mul_mod_left _ _⟩, Nat.mul_div_cancel _ (Nat.two_pow_pos _),
    BigEndian.ofNat_toNat]

end Lib.Bech32
