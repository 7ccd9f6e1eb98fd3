import Haqq.Lib.BigEndian

/-!
# Hexadecimal text

Bytes as pairs of hexadecimal digits.  The decoder reads digits of either case and stops at the
first pair that has another character.
-/

namespace Lib.Hex

def digit? (c : Char) : Option Nat :=
  if c.isDigit then some (c.toNat - '0'.toNat)
  else if 'a' ≤ c ∧ c ≤ 'f' then some (c.toNat - 'a'.toNat + 10)
  else if 'A' ≤ c ∧ c ≤ 'F' then some (c.toNat - 'A'.toNat + 10)
  else none

/-- Up to the first pair that is none. -/
def pairs : List (Option Nat) → List UInt8
  | some high :: some low :: rest => UInt8.ofNat (16 * high + low) :: pairs rest
  | _ => []

def decode (text : List Char) : List UInt8 := pairs (text.map digit?)

def encode : List UInt8 → List Char
  | [] => []
  | b :: rest => Nat.digitChar (b.toNat / 16) :: Nat.digitChar (b.toNat % 16) :: encode rest

theorem digit?_digitChar {n : Nat} (h : n < 16) : digit? (Nat.digitChar n) = some n := by
  have hall : ∀ n < 16, digit? (Nat.digitChar n) = some n := by decide
  exact hall n h

theorem digit?_toUpper_digitChar {n : Nat} (h : n < 16) :
    digit? (Nat.digitChar n).toUpper = some n := by
  have hall : ∀ n < 16, digit? (Nat.digitChar n).toUpper = some n := by decide
  exact hall n h

@[simp] theorem length_encode (bytes : List UInt8) : (encode bytes).length = 2 * bytes.length := by
  induction bytes with
  | nil => rfl
  | cons b rest ih =>
    rw [encode, List.length_cons, List.length_cons, ih, List.length_cons]
    omega

theorem mem_encode {bytes : List UInt8} {c : Char} (h : c ∈ encode bytes) :
    ∃ n < 16, c = Nat.digitChar n := by
  induction bytes with
  | nil => cases h
  | cons b rest ih =>
    have hb := b.toNat_lt
    rcases List.mem_cons.mp h with rfl | h
    · exact ⟨b.toNat / 16, by omega, rfl⟩
    · rcases List.mem_cons.mp h with rfl | h
      · exact ⟨b.toNat % 16, by omega, rfl⟩
      · exact ih h

theorem decode_encode (bytes : List UInt8) : decode (encode bytes) = bytes := by
  induction bytes with
  | nil => rfl
  | cons b rest ih =>
    have hb := b.toNat_lt
    rw [decode, encode, List.map_cons, List.map_cons, digit?_digitChar (by omega),
      digit?_digitChar (by omega), pairs, ← decode, ih, Nat.div_add_mod, UInt8.ofNat_toNat]

theorem decode_congr {text text' : List Char} (h : text.map digit? = text'.map digit?) :
    decode text = decode text' := by
  rw [decode, decode, h]

theorem decode_eq_nil {c c' : Char} {rest : List Char} (h : digit? c = none ∨ digit? c' = none) :
    decode (c :: c' :: rest) = [] := by
  rw [decode, List.map_cons, List.map_cons]
  rcases h with h | h
  · rw [h]
    rfl
  · rw [h]
    cases digit? c <;> rfl

end Lib.Hex
