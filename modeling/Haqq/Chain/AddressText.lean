import Haqq.Lib.Bech32
import Haqq.Lib.Hex
import Haqq.Types

/-!
# Texts of addresses

Addresses as `common.Address` in hexadecimal digits, whose case is a checksum, and as
`sdk.AccAddress` in Bech32.  What `HexToAddress` makes of a Bech32 text is the zero address.
-/

namespace Haqq

open Lib

def addressBytes (a : Address) : Bytes := BigEndian.ofNat 20 a.val

def bytesToAddress (bytes : Bytes) : Address := Fin.ofNat (2 ^ 160) (BigEndian.toNat bytes)

theorem bytesToAddress_addressBytes (a : Address) : bytesToAddress (addressBytes a) = a := by
  have hlt : a.val < 256 ^ 20 := a.isLt
  apply Fin.ext
  show BigEndian.toNat (addressBytes a) % 2 ^ 160 = a.val
  rw [addressBytes, BigEndian.toNat_ofNat_of_lt hlt]
  exact Nat.mod_eq_of_lt a.isLt

/-! ## Hexadecimal digits -/

def has0xPrefix : List Char → Bool
  | '0' :: c :: _ => c == 'x' || c == 'X'
  | _ => false

def without0x (text : List Char) : List Char :=
  if has0xPrefix text then text.drop 2 else text

/-- Digits after the first character that is none are not read. -/
def fromHex (text : List Char) : Bytes :=
  let digits := without0x text
  Hex.decode (if digits.length % 2 = 1 then '0' :: digits else digits)

def hexToAddress (text : List Char) : Address := bytesToAddress (fromHex text)

def isHexAddress (text : List Char) : Bool :=
  let digits := without0x text
  digits.length == 40 && digits.all fun c => (Hex.digit? c).isSome

def hashNibble (hash : Bytes) (i : Nat) : Nat :=
  let hashByte := (hash.getD (i / 2) 0).toNat
  if i % 2 = 0 then hashByte / 16 else hashByte % 16

def checksumDigit (hash : Bytes) (i : Nat) (c : Char) : Char :=
  if '9' < c ∧ 7 < hashNibble hash i then c.toUpper else c

/-- `Address.String` is the same. -/
def checksumHex (keccak : List Char → Bytes) (a : Address) : List Char :=
  let digits := Hex.encode (addressBytes a)
  '0' :: 'x' :: digits.mapIdx (checksumDigit (keccak digits))

theorem digit?_checksumDigit (hash : Bytes) (i : Nat) {n : Nat} (h : n < 16) :
    Hex.digit? (checksumDigit hash i (Nat.digitChar n)) = some n := by
  unfold checksumDigit
  split
  · exact Hex.digit?_toUpper_digitChar h
  · exact Hex.digit?_digitChar h

theorem map_digit?_checksum (hash : Bytes) (bytes : Bytes) :
    ((Hex.encode bytes).mapIdx (checksumDigit hash)).map Hex.digit? =
      (Hex.encode bytes).map Hex.digit? := by
  apply List.ext_getElem
  · simp
  · intro i hi hi'
    have hlt : i < (Hex.encode bytes).length := by rwa [List.length_map] at hi'
    obtain ⟨n, hn, heq⟩ := Hex.mem_encode (List.getElem_mem hlt)
    simp only [List.getElem_map, List.getElem_mapIdx, heq, digit?_checksumDigit hash i hn,
      Hex.digit?_digitChar hn]

theorem hexToAddress_checksumHex (keccak : List Char → Bytes) (a : Address) :
    hexToAddress (checksumHex keccak a) = a := by
  have hdigits : without0x (checksumHex keccak a) = (Hex.encode (addressBytes a)).mapIdx
      (checksumDigit (keccak (Hex.encode (addressBytes a)))) := rfl
  simp only [hexToAddress, fromHex, hdigits]
  rw [if_neg (by simp), Hex.decode_congr (map_digit?_checksum _ _), Hex.decode_encode,
    bytesToAddress_addressBytes]

def accountHrp : List Char := ['h', 'a', 'q', 'q']

def accAddressString (a : Address) : List Char :=
  Bech32.encode accountHrp (Bech32.ofBytes (addressBytes a))

/-- Accepts addresses of up to 255 bytes. -/
def accAddressFromBech32 (text : List Char) : Option Bytes := do
  let (hrp, groups) ← Bech32.decode 1023 text
  guard (hrp = accountHrp)
  let bytes ← Bech32.toBytes groups
  guard (bytes ≠ [] ∧ bytes.length ≤ 255)
  return bytes

theorem accAddressFromBech32_encode {bytes : Bytes} (hne : bytes ≠ [])
    (hlength : bytes.length ≤ 255) :
    accAddressFromBech32 (Bech32.encode accountHrp (Bech32.ofBytes bytes)) = some bytes := by
  have hdecode : Bech32.decode 1023 (Bech32.encode accountHrp (Bech32.ofBytes bytes)) =
      some (accountHrp, Bech32.ofBytes bytes) := by
    apply Bech32.decode_encode
    · decide
    · exact List.all_eq_true.mp (by decide)
    · rw [Bech32.length_ofBytes, Bech32.groupCount, show accountHrp.length = 4 from rfl]
      omega
  rw [accAddressFromBech32, hdecode]
  simp only [Option.bind_eq_bind, Option.bind_some, guard, if_true, Bech32.toBytes_ofBytes,
    if_pos (And.intro hne hlength), Option.pure_def]

theorem accAddressFromBech32_string (a : Address) :
    accAddressFromBech32 (accAddressString a) = some (addressBytes a) := by
  have hlength : (addressBytes a).length = 20 := BigEndian.length_ofNat 20 a.val
  apply accAddressFromBech32_encode
  · exact List.ne_nil_of_length_pos (by omega)
  · omega

theorem hexToAddress_accAddressString (a : Address) : hexToAddress (accAddressString a) = 0 := by
  have hlength : (accAddressString a).length = 43 := by
    rw [accAddressString, Bech32.length_encode, Bech32.length_ofBytes, addressBytes,
      BigEndian.length_ofNat]
    rfl
  obtain ⟨rest, hrest⟩ : ∃ rest, accAddressString a = 'h' :: rest := ⟨_, rfl⟩
  have hwithout : without0x (accAddressString a) = accAddressString a := by
    rw [hrest]
    rfl
  have hnil : fromHex (accAddressString a) = [] := by
    simp only [fromHex, hwithout]
    rw [hlength, hrest, if_pos (by decide)]
    exact Hex.decode_eq_nil (.inr (by decide))
  rw [hexToAddress, hnil]
  rfl

end Haqq
