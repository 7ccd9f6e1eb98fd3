import Mathlib.Algebra.BigOperators.Group.List.Basic
import Mathlib.Algebra.Order.Monoid.Defs

/-!
# Runs of a state machine

`after step s is` is the state after all inputs; `Along` says that a condition on the state and the
next input holds at every step of the run.  What every step preserves under the condition holds at
the end.
-/

namespace Lib.Run

variable {σ ι : Type*} (step : σ → ι → σ)

def after (s : σ) (is : List ι) : σ := is.foldl step s

def Along (P : σ → ι → Prop) : σ → List ι → Prop
  | _, [] => True
  | s, i :: is => P s i ∧ Along P (step s i) is

instance decidableAlong (P : σ → ι → Prop) [∀ s i, Decidable (P s i)] :
    (s : σ) → (is : List ι) → Decidable (Along step P s is)
  | _, [] => isTrue trivial
  | s, i :: is => @instDecidableAnd _ _ _ (decidableAlong P (step s i) is)

def total (f : σ → ι → Nat) : σ → List ι → Nat
  | _, [] => 0
  | s, i :: is => f s i + total f (step s i) is

@[simp] theorem after_nil (s : σ) : after step s [] = s := rfl

@[simp] theorem after_cons (s : σ) (i : ι) (is : List ι) :
    after step s (i :: is) = after step (step s i) is := rfl

theorem after_append (s : σ) (is js : List ι) :
    after step s (is ++ js) = after step (after step s is) js := List.foldl_append

variable {step}

variable {Inv : σ → Prop} {P : σ → ι → Prop} {s : σ} {is : List ι}

theorem invariant (hstep : ∀ s i, P s i → Inv s → Inv (step s i)) (hs : Inv s)
    (hrun : Along step P s is) : Inv (after step s is) := by
  induction is generalizing s with
  | nil => exact hs
  | cons i is ih => exact ih (hstep s i hrun.1 hs) hrun.2

theorem along_of_invariant {Q : σ → ι → Prop}
    (hstep : ∀ s i, P s i → Inv s → Q s i ∧ Inv (step s i)) (hs : Inv s)
    (hrun : Along step P s is) : Along step Q s is := by
  induction is generalizing s with
  | nil => trivial
  | cons i is ih =>
    obtain ⟨hQ, hnext⟩ := hstep s i hrun.1 hs
    exact ⟨hQ, ih hnext hrun.2⟩

theorem along_of_forall {P : ι → Prop} (h : ∀ i ∈ is, P i) (s : σ) :
    Along step (fun _ i => P i) s is := by
  induction is generalizing s with
  | nil => trivial
  | cons i is ih => exact ⟨h i (by simp), ih (fun j hj => h j (by simp [hj])) _⟩

theorem invariant_always (hstep : ∀ s i, Inv s → Inv (step s i)) (hs : Inv s) (is : List ι) :
    Inv (after step s is) := by
  induction is generalizing s with
  | nil => exact hs
  | cons i is ih => exact ih (hstep s i hs)

theorem invariant_total {Inv : Nat → σ → Prop} {f : σ → ι → Nat}
    (hstep : ∀ n s i, Inv n s → Inv (n + f s i) (step s i)) {n : Nat} (hs : Inv n s) (is : List ι) :
    Inv (n + total step f s is) (after step s is) := by
  induction is generalizing n s with
  | nil => exact hs
  | cons i is ih =>
    rw [total, ← Nat.add_assoc]
    exact ih (hstep n s i hs)

/-! ## Runs whose steps can fail -/

/-- The condition holds at every step of a run that stops at the first failing step. -/
def AlongM (f : σ → ι → Option σ) (P : σ → ι → Prop) : σ → List ι → Prop
  | _, [] => True
  | s, i :: is => P s i ∧ ∀ s', f s i = some s' → AlongM f P s' is

variable {f : σ → ι → Option σ}

theorem alongM_of_forall {P : ι → Prop} (h : ∀ i ∈ is, P i) (s : σ) :
    AlongM f (fun _ i => P i) s is := by
  induction is generalizing s with
  | nil => trivial
  | cons i is ih => exact ⟨h i (by simp), fun s' _ => ih (fun j hj => h j (by simp [hj])) s'⟩

variable {I : σ → Prop} {s' : σ}

theorem invariantM (hstep : ∀ s i s', P s i → f s i = some s' → I s → I s') (hs : I s)
    (halong : AlongM f P s is) (hrun : is.foldlM f s = some s') : I s' := by
  induction is generalizing s with
  | nil =>
    cases hrun
    exact hs
  | cons i is ih =>
    simp only [List.foldlM_cons, Option.bind_eq_bind, Option.bind_eq_some_iff] at hrun
    obtain ⟨s₁, hs₁, hrest⟩ := hrun
    exact ih (hstep s i s₁ halong.1 hs₁ hs) (halong.2 s₁ hs₁) hrest

/-- Every step pays its cost out of a potential. -/
theorem cost_add_potential_le {α : Type*} [AddCommMonoid α] [PartialOrder α] [IsOrderedAddMonoid α]
    {P : ι → Prop} {cost : ι → α} {potential : σ → α}
    (hstep : ∀ s i s', P i → f s i = some s' → cost i + potential s' ≤ potential s)
    (hP : ∀ i ∈ is, P i) (hrun : is.foldlM f s = some s') :
    (is.map cost).sum + potential s' ≤ potential s := by
  induction is generalizing s with
  | nil =>
    cases hrun
    simp
  | cons i is ih =>
    simp only [List.foldlM_cons, Option.bind_eq_bind, Option.bind_eq_some_iff] at hrun
    obtain ⟨s₁, hs₁, hrest⟩ := hrun
    have hrest := ih (fun j hj => hP j (by simp [hj])) hrest
    calc ((i :: is).map cost).sum + potential s'
        = cost i + ((is.map cost).sum + potential s') := by simp [add_assoc]
      _ ≤ cost i + potential s₁ := by gcongr
      _ ≤ potential s := hstep s i s₁ (hP i (by simp)) hs₁

variable {ε : Type*}

theorem foldlM_cons_ok {f : σ → ι → Except ε σ} {s₁ : σ} {i : ι} (h : f s i = .ok s₁)
    (is : List ι) : (i :: is).foldlM f s = is.foldlM f s₁ := by
  rw [List.foldlM_cons, h]
  rfl

theorem reads_foldlM {τ : Type*} {f : σ → ι → Except ε σ} {g : τ → ι → τ} {read : σ → τ}
    (hstep : ∀ s s', ∀ i ∈ is, f s i = .ok s' → read s' = g (read s) i)
    (hrun : is.foldlM f s = .ok s') : read s' = is.foldl g (read s) := by
  induction is generalizing s with
  | nil =>
    cases hrun
    rfl
  | cons i is ih =>
    rw [List.foldlM_cons] at hrun
    cases hs₁ : f s i with
    | error e =>
      rw [hs₁] at hrun
      cases hrun
    | ok s₁ =>
      rw [hs₁] at hrun
      rw [List.foldl_cons, ← hstep s s₁ i (by simp) hs₁]
      exact ih (fun t t' j hj => hstep t t' j (by simp [hj])) hrun

theorem invariant_foldlM {f : σ → ι → Except ε σ} (hstep : ∀ s s' i, f s i = .ok s' → I s → I s')
    (hs : I s) (hrun : is.foldlM f s = .ok s') : I s' := by
  induction is generalizing s with
  | nil =>
    cases hrun
    exact hs
  | cons i is ih =>
    rw [List.foldlM_cons] at hrun
    cases hs₁ : f s i with
    | error e =>
      rw [hs₁] at hrun
      cases hrun
    | ok s₁ =>
      rw [hs₁] at hrun
      exact ih (hstep s s₁ i hs₁ hs) hrun

theorem exists_iterate_fixed {F : σ → σ} {measure : σ → Nat} (hinv : ∀ s, I s → I (F s))
    (hlower : ∀ s, I s → F s ≠ s → measure (F s) < measure s) (s : σ) (hs : I s) :
    ∃ n, I (F^[n] s) ∧ F (F^[n] s) = F^[n] s := by
  by_cases hfixed : F s = s
  · exact ⟨0, hs, hfixed⟩
  · have hlt := hlower s hs hfixed
    obtain ⟨n, hn, hend⟩ := exists_iterate_fixed hinv hlower (F s) (hinv s hs)
    exact ⟨n + 1, by rwa [Function.iterate_succ_apply], by rwa [Function.iterate_succ_apply]⟩
termination_by measure s

end Lib.Run
