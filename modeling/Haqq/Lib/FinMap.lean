import Haqq.Lib.Tally

/-!
# Finite maps

A `FinMap κ α` is a partial function with a finite, enumerable domain.  The domain is a field with
its law, so a map can be folded over its keys in increasing order.
-/

namespace Lib

structure FinMap (κ α : Type*) where
  get : κ → Option α
  keys : Finset κ
  mem_keys : ∀ k, k ∈ keys ↔ get k ≠ none

namespace FinMap

variable {κ α β : Type*}

@[ext]
theorem ext {x y : FinMap κ α} (hget : ∀ k, x.get k = y.get k) : x = y := by
  obtain ⟨getX, keysX, hX⟩ := x
  obtain ⟨getY, keysY, hY⟩ := y
  have hfun : getX = getY := funext hget
  subst hfun
  have hkeys : keysX = keysY := by
    apply Finset.ext
    intro k
    rw [hX k, hY k]
  subst hkeys
  rfl

instance : EmptyCollection (FinMap κ α) := ⟨⟨fun _ => none, ∅, by simp⟩⟩

@[simp] theorem get_empty (k : κ) : (∅ : FinMap κ α).get k = none := rfl

def set [DecidableEq κ] (m : FinMap κ α) (key : κ) (value : α) : FinMap κ α where
  get k := if k = key then some value else m.get k
  keys := insert key m.keys
  mem_keys k := by
    rw [Finset.mem_insert, m.mem_keys]
    by_cases hk : k = key <;> simp [hk]

theorem get_set [DecidableEq κ] (m : FinMap κ α) (key : κ) (value : α) (k : κ) :
    (m.set key value).get k = if k = key then some value else m.get k := rfl

@[simp] theorem get_set_self [DecidableEq κ] (m : FinMap κ α) (key : κ) (value : α) :
    (m.set key value).get key = some value := by
  simp [get_set]

theorem get_set_of_ne [DecidableEq κ] (m : FinMap κ α) {key k : κ} (value : α)
    (hne : k ≠ key) : (m.set key value).get k = m.get k := by
  simp [get_set, hne]

def erase [DecidableEq κ] (m : FinMap κ α) (key : κ) : FinMap κ α where
  get k := if k = key then none else m.get k
  keys := m.keys.erase key
  mem_keys k := by
    rw [Finset.mem_erase, m.mem_keys]
    by_cases hk : k = key <;> simp [hk]

theorem get_erase [DecidableEq κ] (m : FinMap κ α) (key k : κ) :
    (m.erase key).get k = if k = key then none else m.get k := rfl

/-- Of several entries for a key the first counts. -/
def ofList [DecidableEq κ] : List (κ × α) → FinMap κ α
  | [] => ∅
  | (key, value) :: rest => (ofList rest).set key value

@[simp] theorem get_ofList_nil [DecidableEq κ] (k : κ) :
    (ofList ([] : List (κ × α))).get k = none := rfl

@[simp] theorem get_ofList_cons [DecidableEq κ] (key k : κ) (value : α) (rest : List (κ × α)) :
    (ofList ((key, value) :: rest)).get k =
      if k = key then some value else (ofList rest).get k := rfl

section SetAll

variable [DecidableEq κ] {m : FinMap κ α} {entries : List (κ × α)}

def setAll (m : FinMap κ α) (entries : List (κ × α)) : FinMap κ α :=
  entries.foldl (fun m e => m.set e.1 e.2) m

theorem setAll_append (m : FinMap κ α) (entries entries' : List (κ × α)) :
    m.setAll (entries ++ entries') = (m.setAll entries).setAll entries' := List.foldl_append

theorem get_setAll_of_forall_ne {k : κ} (h : ∀ e ∈ entries, e.1 ≠ k) :
    (m.setAll entries).get k = m.get k := by
  induction entries generalizing m with
  | nil => rfl
  | cons e rest ih =>
    rw [List.forall_mem_cons] at h
    exact (ih h.2).trans (get_set_of_ne m e.2 h.1.symm)

theorem get_setAll (hsame : ∀ e ∈ entries, ∀ e' ∈ entries, e.1 = e'.1 → e.2 = e'.2) {e : κ × α}
    (he : e ∈ entries) : (m.setAll entries).get e.1 = some e.2 := by
  induction entries generalizing m e with
  | nil => cases he
  | cons first rest ih =>
    -- the last entry of the key counts
    by_cases hlater : ∃ e' ∈ rest, e'.1 = e.1
    · obtain ⟨e', he', hkey⟩ := hlater
      rw [← hkey, hsame e he e' (.tail _ he') hkey.symm]
      exact ih (fun a ha b hb => hsame a (.tail _ ha) b (.tail _ hb)) he'
    · rw [not_exists] at hlater
      rcases List.mem_cons.mp he with rfl | he
      · exact (get_setAll_of_forall_ne fun e' he' hkey => hlater e' ⟨he', hkey⟩).trans
          (get_set_self ..)
      · exact absurd ⟨he, rfl⟩ (hlater e)

theorem setAll_eq_self (h : ∀ e ∈ entries, m.get e.1 = some e.2) : m.setAll entries = m := by
  induction entries with
  | nil => rfl
  | cons e rest ih =>
    rw [List.forall_mem_cons] at h
    have hset : m.set e.1 e.2 = m := by
      apply ext
      intro k
      rw [get_set]
      split
      · rename_i hk
        rw [hk, h.1]
      · rfl
    exact (congrArg (setAll · rest) hset).trans (ih h.2)

end SetAll

/-- Applies `write` to every entry, keys in increasing order. -/
def foldSorted [LinearOrder κ] (m : FinMap κ α) (write : β → κ → α → β) (init : β) : β :=
  (Tally.sorted m.keys).foldl
    (fun acc k => match m.get k with
      | some v => write acc k v
      | none => acc) init

theorem foldSorted_update [LinearOrder κ] (m : FinMap κ α) (f : κ → α) :
    m.foldSorted (fun g k v => Function.update g k v) f = fun k => (m.get k).getD (f k) := by
  have hfold : ∀ (l : List κ), l.Nodup → ∀ (g : κ → α) (k : κ),
      l.foldl (fun acc k => match m.get k with
        | some v => Function.update acc k v
        | none => acc) g k = if k ∈ l then (m.get k).getD (g k) else g k := by
    intro l
    induction l with
    | nil => intro _ g k; simp
    | cons key rest ih =>
      intro hnodup g k
      obtain ⟨hkey, hrest⟩ := List.nodup_cons.mp hnodup
      rw [List.foldl_cons, ih hrest]
      by_cases hk : k = key
      · subst hk
        cases m.get k <;> simp [hkey]
      · cases hget : m.get key <;> simp [hk]
  funext k
  rw [foldSorted, hfold _ (Tally.nodup_sorted _)]
  by_cases hk : k ∈ m.keys
  · simp [Tally.mem_sorted, hk]
  · have hnone : m.get k = none := by
      by_contra hne
      exact hk ((m.mem_keys k).mpr hne)
    simp [Tally.mem_sorted, hk, hnone]

end FinMap

end Lib
