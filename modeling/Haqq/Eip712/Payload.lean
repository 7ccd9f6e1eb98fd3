import Haqq.Eip712.TypedData
import Haqq.Lib.Effects

/-!
# The payload of typed data

`FlattenPayloadMessages` takes the messages out of their array: message `i` is the field `msg{i}` of
the flattened payload, and the other fields are as before.
-/

namespace Haqq.Eip712

open Lib

theorem toString_injective : Function.Injective fun n : Nat => toString n := by
  intro m n h
  have hdigits := congrArg String.toList h
  simp only [Nat.toString_eq_ofList_toDigits, String.toList_ofList] at hdigits
  rw [← @Nat.ofDigitChars_ten_toDigits m, hdigits, Nat.ofDigitChars_ten_toDigits]

theorem msgFieldForIndex_injective : Function.Injective msgFieldForIndex := by
  intro i j h
  exact toString_injective ((String.append_right_inj "msg").mp h)

theorem msgFieldForIndex_ne_msgs (i : Nat) : msgFieldForIndex i ≠ "msgs" := by
  intro h
  have hchars := congrArg String.toList h
  rw [msgFieldForIndex, Nat.toString_eq_ofList_toDigits] at hchars
  simp only [String.toList_append, String.toList_ofList] at hchars
  have hdigits : Nat.toDigits 10 i = ['s'] := by simpa using hchars
  have hdigit := @Nat.isDigit_of_mem_toDigits 10 i 's' (by decide) (by decide) (by simp [hdigits])
  exact absurd hdigit (by decide)

theorem msgFieldForIndex_ne {i : Nat} {name : String} (h : name.toList.take 3 ≠ ['m', 's', 'g']) :
    msgFieldForIndex i ≠ name := by
  rintro rfl
  simp [msgFieldForIndex] at h

section Message

variable {msgs : List Json} {i : Nat} {payload payload' : Payload}

theorem payloadWithNewMessage_ok {msg : Json}
    (h : payloadWithNewMessage payload msg i = .ok payload') :
    payload' = payload.set (msgFieldForIndex i) msg := by
  unfold payloadWithNewMessage at h
  dsimp only at h
  split at h
  · cases h
  · split at h
    · exact (Except.ok.inj h).symm
    · cases h

theorem addMessages_get_of_ne {name : String}
    (hname : ∀ j < msgs.length, name ≠ msgFieldForIndex (i + j))
    (h : addMessages msgs i payload = .ok payload') : payload'.get name = payload.get name := by
  induction msgs generalizing i payload with
  | nil =>
    cases h
    rfl
  | cons msg rest ih =>
    obtain ⟨mid, hmid, hrest⟩ := except_bind_ok.mp h
    rw [ih (fun j hj => ?_) hrest, payloadWithNewMessage_ok hmid]
    · exact FinMap.get_set_of_ne _ _ (hname 0 (by simp))
    · have hlater := hname (j + 1) (by simpa using hj)
      rwa [Nat.add_comm j 1, ← Nat.add_assoc] at hlater

theorem addMessages_get_of_some {j : Nat} {msg : Json} (hmsg : msgs[j]? = some msg)
    (h : addMessages msgs i payload = .ok payload') :
    payload'.get (msgFieldForIndex (i + j)) = some msg := by
  induction msgs generalizing i j payload with
  | nil => cases hmsg
  | cons first rest ih =>
    obtain ⟨mid, hmid, hrest⟩ := except_bind_ok.mp h
    obtain rfl := payloadWithNewMessage_ok hmid
    cases j with
    | zero =>
      cases hmsg
      rw [Nat.add_zero, addMessages_get_of_ne (fun k _ heq => ?_) hrest, FinMap.get_set_self]
      have hindex := msgFieldForIndex_injective heq
      omega
    | succ j =>
      rw [Nat.add_comm j 1, ← Nat.add_assoc]
      exact ih hmsg hrest

theorem addMessages_get (hfree : ∀ j, payload.get (msgFieldForIndex (i + j)) = none)
    (h : addMessages msgs i payload = .ok payload') (j : Nat) :
    payload'.get (msgFieldForIndex (i + j)) = msgs[j]? := by
  cases hmsg : msgs[j]? with
  | some msg => exact addMessages_get_of_some hmsg h
  | none =>
    have hlength := List.getElem?_eq_none_iff.mp hmsg
    rw [addMessages_get_of_ne (fun k hk heq => ?_) h, hfree j]
    have hindex := msgFieldForIndex_injective heq
    omega

theorem flattenPayloadMessages_ok {n : Nat}
    (h : flattenPayloadMessages payload = .ok (payload', n)) :
    ∃ msgs, getPayloadMessages payload = .ok msgs ∧ n = msgs.length ∧
      ∀ (j : Nat) msg, msgs[j]? = some msg → payload'.get (msgFieldForIndex j) = some msg := by
  obtain ⟨msgs, hmsgs, h⟩ := except_bind_ok.mp h
  obtain ⟨flattened, hadd, h⟩ := except_bind_ok.mp h
  cases h
  refine ⟨msgs, hmsgs, rfl, fun j msg hmsg => ?_⟩
  have hget := addMessages_get_of_some hmsg hadd
  rw [Nat.zero_add] at hget
  rw [FinMap.get_erase, if_neg (msgFieldForIndex_ne_msgs j), hget]

end Message

end Haqq.Eip712
