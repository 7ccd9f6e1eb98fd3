import Haqq.Chain.AddressText
import Haqq.Lib.Text
import Mathlib.Data.List.TakeWhile

/-!
# The bech32 precompile

`precompiles/bech32/methods.go`.  `Bech32ToHex` takes the human readable part up to the first
separator, the decoder of the SDK up to the last one, and the two must agree.

`bech32ToHex_hexToBech32` is the round trip, with the error where it fails.
-/

namespace Haqq.Precompiles

open Lib

inductive ConversionError
  /-- "invalid bech32 human readable prefix (HRP). Please provide a either an account, validator or
  consensus address prefix (eg: %s, %s, %s)" -/
  | invalidHrp
  /-- "invalid bech32 address: %s" -/
  | invalidAddress (text : List Char)
  /-- "decoding bech32 failed: %w" -/
  | decodingFailed
  /-- "invalid Bech32 prefix; expected %s, got %s" -/
  | unexpectedHrp (expected got : List Char)
  /-- "addresses cannot be empty" or "address max length is %d, got %d" -/
  | addressFormat (length : Nat)

def verifyAddressFormat (bytes : Bytes) : Except ConversionError Unit :=
  if bytes ≠ [] ∧ bytes.length ≤ 255 then .ok () else .error (.addressFormat bytes.length)

/-- For a human readable part in ASCII. -/
def hexToBech32 (address : Address) (hrp : List Char) : Except ConversionError (List Char) := do
  if trimSpace hrp = [] then throw .invalidHrp
  verifyAddressFormat (addressBytes address)
  return Bech32.encode hrp (Bech32.ofBytes (addressBytes address))

def decodeAndConvert (text : List Char) : Option (List Char × Bytes) := do
  let (hrp, groups) ← Bech32.decode 1023 text
  let bytes ← Bech32.toBytes groups
  return (hrp, bytes)

def getFromBech32 (text hrp : List Char) : Except ConversionError Bytes :=
  match decodeAndConvert text with
  | none => .error .decodingFailed
  | some (got, bytes) => if got = hrp then .ok bytes else .error (.unexpectedHrp hrp got)

def bech32ToHex (text : List Char) : Except ConversionError Address := do
  let hrp := text.takeWhile (· ≠ '1')
  if hrp = text then throw (.invalidAddress text)
  let bytes ← getFromBech32 text hrp
  verifyAddressFormat bytes
  return bytesToAddress bytes

theorem verifyAddressFormat_addressBytes (a : Address) :
    verifyAddressFormat (addressBytes a) = .ok () := by
  have hlength : (addressBytes a).length = 20 := BigEndian.length_ofNat 20 a.val
  rw [verifyAddressFormat, if_pos ⟨List.ne_nil_of_length_pos (by omega), by omega⟩]

theorem decodeAndConvert_eq_some {text hrp : List Char} {groups : List Bech32.Group} {bytes : Bytes}
    (hdecode : Bech32.decode 1023 text = some (hrp, groups))
    (hbytes : Bech32.toBytes groups = some bytes) : decodeAndConvert text = some (hrp, bytes) := by
  rw [decodeAndConvert, hdecode]
  simp only [Option.bind_eq_bind, Option.bind_some, hbytes, Option.pure_def]

theorem takeWhile_encode (hrp : List Char) (groups : List Bech32.Group) :
    (Bech32.encode hrp groups).takeWhile (· ≠ '1') = hrp.takeWhile (· ≠ '1') := by
  rw [Bech32.encode, List.takeWhile_append]
  split
  · next h => rw [List.takeWhile_cons_of_neg (by decide), List.append_nil,
      List.IsPrefix.eq_of_length (List.takeWhile_prefix _) h]
  · rfl

theorem eq_takeWhile_iff {text : List Char} : text = text.takeWhile (· ≠ '1') ↔ '1' ∉ text := by
  rw [eq_comm, List.takeWhile_eq_self_iff]
  simp [List.forall_mem_ne']

theorem hexToBech32_ok {a : Address} {hrp text : List Char} (h : hexToBech32 a hrp = .ok text) :
    hrp ≠ [] ∧ text = Bech32.encode hrp (Bech32.ofBytes (addressBytes a)) := by
  rw [hexToBech32, verifyAddressFormat_addressBytes] at h
  split at h
  · cases h
  · next htrim =>
    cases h
    constructor
    · rintro rfl
      exact htrim rfl
    · rfl

/-- A human readable part with a separator in it can be written, and not read back. -/
theorem bech32ToHex_hexToBech32 (a : Address) (hrp text : List Char)
    (hchars : ∀ c ∈ hrp, Bech32.isHrpChar c = true) (hlength : hrp.length ≤ 984)
    (hwritten : hexToBech32 a hrp = .ok text) : bech32ToHex text =
      if '1' ∈ hrp then .error (.unexpectedHrp (hrp.takeWhile (· ≠ '1')) hrp) else .ok a := by
  obtain ⟨hne, rfl⟩ := hexToBech32_ok hwritten
  have hgroups : (Bech32.ofBytes (addressBytes a)).length = 32 := by
    rw [Bech32.length_ofBytes, addressBytes, BigEndian.length_ofNat]
    rfl
  have hdecode := decodeAndConvert_eq_some (Bech32.decode_encode hne hchars _ (by omega))
    (Bech32.toBytes_ofBytes (addressBytes a))
  have hseparator : '1' ∈ Bech32.encode hrp (Bech32.ofBytes (addressBytes a)) := by
    simp [Bech32.encode]
  rw [bech32ToHex, if_neg fun h => eq_takeWhile_iff.mp h.symm hseparator, takeWhile_encode,
    getFromBech32, hdecode]
  by_cases hmem : '1' ∈ hrp
  · simp only [if_neg (fun h => eq_takeWhile_iff.mp h hmem), if_pos hmem]
    rfl
  · simp only [if_pos (eq_takeWhile_iff.mpr hmem), if_neg hmem]
    show (verifyAddressFormat (addressBytes a) >>= fun _ => _) = _
    rw [verifyAddressFormat_addressBytes]
    exact congrArg Except.ok (bytesToAddress_addressBytes a)

theorem accountHrp_readBack :
    ∃ text, hexToBech32 7 accountHrp = .ok text ∧ bech32ToHex text = .ok 7 := by
  have hwritten : hexToBech32 7 accountHrp =
      .ok (Bech32.encode accountHrp (Bech32.ofBytes (addressBytes 7))) := rfl
  refine ⟨_, hwritten, ?_⟩
  rw [bech32ToHex_hexToBech32 7 accountHrp _ (List.all_eq_true.mp (by decide)) (by decide) hwritten,
    if_neg (by decide)]

end Haqq.Precompiles
