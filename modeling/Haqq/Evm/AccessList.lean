import Haqq.Evm.Store

/-!
# The per-transaction access list

`x/evm/statedb/access_list.go`.  An address carries the index of its slot set in `slots`, or no
index (the source's `-1`).  Deletions are only made by the journal, in the reverse order of the
additions.
-/

namespace Haqq.Evm

open Function

@[ext]
structure AccessList where
  /-- `some none` is an address without slots, `some (some i)` one with slot set `i`. -/
  addresses : Address → Option (Option Nat)
  slots : List (Finset Hash)

variable {al al' : AccessList} {address : Address} {added : Bool} {slot : Hash}

namespace AccessList

def newAccessList : AccessList := ⟨fun _ => none, []⟩

def containsAddress (al : AccessList) (address : Address) : Bool :=
  (al.addresses address).isSome

def contains (al : AccessList) (address : Address) (slot : Hash) : Bool × Bool :=
  match al.addresses address with
  | none => (false, false)
  | some none => (true, false)
  | some (some idx) => (true, slot ∈ al.slots.getD idx ∅)

def addAddress (al : AccessList) (address : Address) : AccessList × Bool :=
  match al.addresses address with
  | some _ => (al, false)
  | none => ({ al with addresses := update al.addresses address (some none) }, true)

/-- Also returns whether the address and the slot were added. -/
def addSlot (al : AccessList) (address : Address) (slot : Hash) : AccessList × Bool × Bool :=
  match al.addresses address with
  | some (some idx) =>
    let slotmap := al.slots.getD idx ∅
    if slot ∈ slotmap then (al, false, false)
    else ({ al with slots := al.slots.set idx (insert slot slotmap) }, false, true)
  | absent =>
    -- address not present, or present without slots
    ({ addresses := update al.addresses address (some (some al.slots.length))
       slots := al.slots ++ [{slot}] }, absent.isNone, true)

/-- `none` is a panic: for an address without slots and for an index past the slot sets. -/
def deleteSlot (al : AccessList) (address : Address) (slot : Hash) : Option AccessList :=
  match al.addresses address with
  | some (some idx) => do
    let slotmap := (← al.slots[idx]?).erase slot
    -- additions and rollbacks come in order, so the emptied set is the last one
    if slotmap = ∅ then
      return { addresses := update al.addresses address (some none)
               slots := al.slots.take idx }
    else return { al with slots := al.slots.set idx slotmap }
  | _ => none

def deleteAddress (al : AccessList) (address : Address) : AccessList :=
  { al with addresses := update al.addresses address none }

def WellFormed (al : AccessList) : Prop :=
  ∀ address idx, al.addresses address = some (some idx) →
    idx < al.slots.length ∧ al.slots.getD idx ∅ ≠ ∅

theorem wellFormed_new : newAccessList.WellFormed := by
  intro address idx h
  cases h

theorem addAddress_eq_false (h : al.addAddress address = (al', false)) : al' = al := by
  unfold addAddress at h
  split at h <;> simp_all

theorem deleteAddress_addAddress (h : al.addAddress address = (al', true)) :
    al'.deleteAddress address = al := by
  unfold addAddress at h
  split at h
  · simp at h
  · rename_i hnone
    obtain ⟨rfl, -⟩ := Prod.mk.inj h
    ext1
    · simp [deleteAddress, ← hnone]
    · rfl

theorem wellFormed_addAddress (hwf : al.WellFormed) (h : al.addAddress address = (al', added)) :
    al'.WellFormed := by
  unfold addAddress at h
  split at h
  · obtain ⟨rfl, -⟩ := Prod.mk.inj h
    exact hwf
  · obtain ⟨rfl, -⟩ := Prod.mk.inj h
    intro a idx ha
    by_cases heq : a = address
    · subst heq
      simp at ha
    · simp only [update_of_ne heq] at ha
      exact hwf a idx ha

theorem addSlot_eq_false (h : al.addSlot address slot = (al', added, false)) :
    al' = al ∧ added = false := by
  unfold addSlot at h
  split at h
  · simp only at h
    split at h <;> simp_all
  · simp at h

/-- Undoing a new slot: the slot set goes when it was new, and what then remains of a
new address is the bare address. -/
theorem deleteSlot_addSlot (hwf : al.WellFormed)
    (h : al.addSlot address slot = (al', added, true)) :
    ∃ mid, al'.deleteSlot address slot = some mid ∧
      (if added then mid.deleteAddress address else mid) = al := by
  unfold addSlot at h
  split at h
  · rename_i idx hidx
    obtain ⟨hlt, hne⟩ := hwf address idx hidx
    simp only at h
    split at h
    · simp at h
    · rename_i hslot
      simp only [Prod.mk.injEq, and_true] at h
      obtain ⟨rfl, rfl⟩ := h
      have hget : (al.slots.set idx (insert slot (al.slots.getD idx ∅)))[idx]? =
          some (insert slot (al.slots.getD idx ∅)) := by
        simp [hlt]
      have herase : (insert slot (al.slots.getD idx ∅)).erase slot = al.slots.getD idx ∅ :=
        Finset.erase_insert hslot
      refine ⟨al, ?_, by simp⟩
      simp only [deleteSlot, hidx, hget, Option.bind_eq_bind, Option.bind_some, herase, hne,
        if_false]
      congr 1
      ext1
      · rfl
      · have hself : al.slots.getD idx ∅ = al.slots[idx] := by simp [List.getD, hlt]
        simp only [hself, List.set_set, List.set_getElem_self]
  · rename_i hno
    simp only [Prod.mk.injEq, and_true] at h
    obtain ⟨rfl, rfl⟩ := h
    refine ⟨{ al with addresses := update al.addresses address (some none) }, ?_, ?_⟩
    · simp [deleteSlot]
    · cases haddr : al.addresses address with
      | none =>
        simp only [Option.isNone_none, if_true, deleteAddress]
        ext1
        · simp [← haddr]
        · rfl
      | some i =>
        cases i with
        | none =>
          simp only [Option.isNone_some, Bool.false_eq_true, if_false]
          ext1
          · simp [← haddr]
          · rfl
        | some idx => exact absurd haddr (hno idx)

theorem wellFormed_addSlot {addedSlot : Bool} (hwf : al.WellFormed)
    (h : al.addSlot address slot = (al', added, addedSlot)) : al'.WellFormed := by
  unfold addSlot at h
  split at h
  · rename_i idx hidx
    simp only at h
    split at h
    · obtain ⟨rfl, -⟩ := Prod.mk.inj h
      exact hwf
    · obtain ⟨rfl, -⟩ := Prod.mk.inj h
      intro a i ha
      obtain ⟨hlt, hne⟩ := hwf a i ha
      refine ⟨by simpa using hlt, ?_⟩
      by_cases hi : i = idx
      · subst hi
        simp [List.getD, hlt]
      · simpa [List.getD, List.getElem?_set_ne (Ne.symm hi)] using hne
  · obtain ⟨rfl, -⟩ := Prod.mk.inj h
    intro a i ha
    by_cases heq : a = address
    · subst heq
      simp only [update_self, Option.some.injEq] at ha
      subst ha
      simp
    · simp only [update_of_ne heq] at ha
      obtain ⟨hlt, hne⟩ := hwf a i ha
      refine ⟨by simp; omega, ?_⟩
      simpa [List.getD, List.getElem?_append_left hlt] using hne

end AccessList

end Haqq.Evm
