import Mathlib.Data.List.Basic

/-!
# Stateful computations that can fail

Successful runs in `EStateM` taken apart, step by step, and what all runs of a computation leave
alone (`Fixes`), keep (`Preserves`), relate (`Relates`) or do not fail with (`Avoids`).
-/

namespace Lib

variable {ε σ τ α β : Type}

/-! ## Successful runs -/

def ensure (c : Prop) [Decidable c] (e : ε) : EStateM ε σ Unit := if c then pure () else throw e

def ofOption (e : ε) : Option α → EStateM ε σ α
  | some a => pure a
  | none => throw e

def runExcept : Except ε α → EStateM ε σ α
  | .ok a => pure a
  | .error e => throw e

variable {x : EStateM ε σ α} {s s'' : σ} {b : β}

theorem run_bind_ok {g : α → EStateM ε σ β} :
    (x >>= g).run s = .ok b s'' ↔
      ∃ a s', x.run s = .ok a s' ∧ (g a).run s' = .ok b s'' := by
  rw [EStateM.run_bind]
  cases hx : x.run s with
  | ok a s' => simp
  | error e s' => simp

variable {a : α} {s' : σ}

@[simp] theorem run_pure_ok {b : α} :
    (pure a : EStateM ε σ α).run s = .ok b s' ↔ a = b ∧ s = s' := by
  simp

variable {e : ε}

@[simp] theorem run_throw_ok : (throw e : EStateM ε σ α).run s = .ok a s' ↔ False :=
  ⟨fun h => (nomatch h), False.elim⟩

variable {c : Prop}

@[simp] theorem run_ensure_ok [Decidable c] {u : Unit} :
    (ensure c e : EStateM ε σ Unit).run s = .ok u s' ↔ c ∧ s = s' := by
  unfold ensure
  split <;> simp_all

variable {o : Option α}

@[simp] theorem run_ofOption_ok :
    (ofOption e o : EStateM ε σ α).run s = .ok a s' ↔ o = some a ∧ s = s' := by
  cases o with
  | none => exact ⟨fun h => (nomatch h), fun h => (nomatch h.1)⟩
  | some b => simp [ofOption]

@[simp] theorem run_runExcept_ok {x : Except ε α} :
    (runExcept x : EStateM ε σ α).run s = .ok a s' ↔ x = .ok a ∧ s = s' := by
  cases x with
  | error e => exact ⟨fun h => (nomatch h), fun h => (nomatch h.1)⟩
  | ok b => simp [runExcept]

@[simp] theorem run_get_ok {t : σ} : (get : EStateM ε σ σ).run s = .ok t s' ↔ s = t ∧ s = s' := by
  simp

variable {u : PUnit}

@[simp] theorem run_modify_ok {g : σ → σ} :
    (modify g : EStateM ε σ PUnit).run s = .ok u s' ↔ s' = g s := by
  simp [eq_comm]

variable {ε' : Type}

@[simp] theorem run_adaptExcept_ok {g : ε → ε'} :
    (EStateM.adaptExcept g x).run s = .ok a s' ↔ x.run s = .ok a s' := by
  show (match x s with
    | .error e s => .error (g e) s
    | .ok a s => .ok a s : EStateM.Result ε' σ α) = .ok a s' ↔ x s = .ok a s'
  cases x s <;> simp

-- the steps that only read or check, in front of a rest `P`
section Then

variable {P : α → σ → Prop}

theorem get_then {P : σ → σ → Prop} :
    (∃ t s', (get : EStateM ε σ σ).run s = .ok t s' ∧ P t s') ↔ P s s := by
  simp

theorem ensure_then [Decidable c] {P : Unit → σ → Prop} :
    (∃ u s', (ensure c e : EStateM ε σ Unit).run s = .ok u s' ∧ P u s') ↔ c ∧ P () s := by
  simp [and_assoc, Unique.exists_iff]

theorem ofOption_then :
    (∃ a s', (ofOption e o : EStateM ε σ α).run s = .ok a s' ∧ P a s') ↔
      ∃ a, o = some a ∧ P a s := by
  simp [and_assoc]

theorem runExcept_then {x : Except ε α} :
    (∃ a s', (runExcept x : EStateM ε σ α).run s = .ok a s' ∧ P a s') ↔
      ∃ a, x = .ok a ∧ P a s := by
  simp [and_assoc]

end Then

theorem ite_error_ok [Decidable c] {x : Except ε α} :
    (if c then .error e else x) = .ok a ↔ ¬ c ∧ x = .ok a := by
  by_cases hc : c <;> simp [hc]

theorem except_bind_ok {x : Except ε α} {g : α → Except ε β} :
    (x >>= g) = .ok b ↔ ∃ a, x = .ok a ∧ g a = .ok b := by
  cases x with
  | error e => exact ⟨fun h => (nomatch h), fun ⟨_, h, _⟩ => (nomatch h)⟩
  | ok a => exact ⟨fun h => ⟨a, rfl, h⟩, fun ⟨_, h, hb⟩ => Except.ok.inj h ▸ hb⟩

@[simp] theorem except_mapError_ok {x : Except ε α} {g : ε → ε'} :
    x.mapError g = .ok a ↔ x = .ok a := by
  cases x <;> simp [Except.mapError]

theorem exists_of_matches_ok {r : EStateM.Result ε σ α} (h : (r matches .ok _ _) = true) :
    ∃ a s, r = .ok a s := by
  cases r with
  | ok a s => exact ⟨a, s, rfl⟩
  | error e s => cases h

variable {γ : Type} {g : γ → EStateM ε σ PUnit}

theorem run_forM_nil_ok : (([] : List γ).forM g).run s = .ok u s' ↔ s = s' := by
  show (pure ⟨⟩ : EStateM ε σ PUnit).run s = .ok u s' ↔ s = s'
  simp

theorem run_forM_cons_ok {c : γ} {rest : List γ} :
    ((c :: rest).forM g).run s = .ok u s'' ↔
      ∃ s', (g c).run s = .ok ⟨⟩ s' ∧ (rest.forM g).run s' = .ok u s'' := by
  show (g c >>= fun _ => rest.forM g).run s = _ ↔ _
  rw [run_bind_ok]
  exact ⟨fun ⟨_, s', h⟩ => ⟨s', h⟩, fun ⟨s', h⟩ => ⟨⟨⟩, s', h⟩⟩

variable {l : List γ}

theorem run_forM_invariant {Inv : σ → Prop}
    (hstep : ∀ c ∈ l, ∀ s s', (g c).run s = .ok ⟨⟩ s' → Inv s → Inv s')
    (h : (l.forM g).run s = .ok u s') (hs : Inv s) : Inv s' := by
  induction l generalizing s with
  | nil => rwa [← run_forM_nil_ok.mp h]
  | cons c rest ih =>
    obtain ⟨mid, hc, hrest⟩ := run_forM_cons_ok.mp h
    exact ih (fun c' hc' => hstep c' (by simp [hc'])) hrest (hstep c (by simp) s mid hc hs)

/-! ## What a computation leaves alone -/

def finalState : EStateM.Result ε σ α → σ
  | .ok _ s => s
  | .error _ s => s

@[simp] theorem finalState_ok (a : α) (s : σ) :
    finalState (.ok a s : EStateM.Result ε σ α) = s := rfl

/-- `x` does not change `f` of the state, whether it succeeds or fails. -/
def Fixes (f : σ → τ) (x : EStateM ε σ α) : Prop :=
  ∀ s, f (finalState (x.run s)) = f s

variable {f : σ → τ}

theorem Fixes.pure (a : α) : Fixes f (pure a : EStateM ε σ α) := fun _ => rfl

theorem Fixes.throw (e : ε) : Fixes f (throw e : EStateM ε σ α) := fun _ => rfl

theorem Fixes.get : Fixes f (get : EStateM ε σ σ) := fun _ => rfl

theorem Fixes.modify {g : σ → σ} (h : ∀ s, f (g s) = f s) :
    Fixes f (modify g : EStateM ε σ PUnit) := h

theorem Fixes.bind_get {g : σ → EStateM ε σ β} (h : ∀ s, f (finalState ((g s).run s)) = f s) :
    Fixes f (MonadState.get >>= g) := h

theorem Fixes.bind {g : α → EStateM ε σ β} (hx : Fixes f x) (hg : ∀ a, Fixes f (g a)) :
    Fixes f (x >>= g) := by
  intro s
  rw [EStateM.run_bind]
  have hxs := hx s
  cases hrun : x.run s with
  | ok a s' =>
    rw [hrun] at hxs
    exact (hg a s').trans hxs
  | error e s' =>
    rw [hrun] at hxs
    exact hxs

theorem run_forM_cons (c : γ) (rest : List γ) (g : γ → EStateM ε σ PUnit) (s : σ) :
    ((c :: rest).forM g).run s = match (g c).run s with
      | .ok _ s' => (rest.forM g).run s'
      | .error e s' => .error e s' := by
  show (g c >>= fun _ => rest.forM g).run s = _
  rw [EStateM.run_bind]
  cases (g c).run s <;> rfl

theorem Fixes.forM (hg : ∀ c ∈ l, Fixes f (g c)) : Fixes f (l.forM g) := by
  induction l with
  | nil => exact .pure _
  | cons c rest ih =>
    show Fixes f (g c >>= fun _ => rest.forM g)
    apply Fixes.bind (hg c (by simp))
    intro _
    exact ih fun d hd => hg d (by simp [hd])

/-- `P` stays true of the state, whether `x` succeeds or fails. -/
def Preserves (P : σ → Prop) (x : EStateM ε σ α) : Prop :=
  ∀ s, P s → P (finalState (x.run s))

variable {P : σ → Prop}

theorem Preserves.pure (a : α) : Preserves P (pure a : EStateM ε σ α) := fun _ h => h

theorem Preserves.throw (e : ε) : Preserves P (throw e : EStateM ε σ α) := fun _ h => h

theorem Preserves.bind {g : α → EStateM ε σ β} (hx : Preserves P x) (hg : ∀ a, Preserves P (g a)) :
    Preserves P (x >>= g) := by
  intro s hs
  rw [EStateM.run_bind]
  have hxs := hx s hs
  cases hrun : x.run s with
  | ok a s' =>
    rw [hrun] at hxs
    exact hg a s' hxs
  | error e s' =>
    rw [hrun] at hxs
    exact hxs

theorem Preserves.forM (hg : ∀ c ∈ l, Preserves P (g c)) : Preserves P (l.forM g) := by
  induction l with
  | nil => exact .pure _
  | cons c rest ih =>
    show Preserves P (g c >>= fun _ => rest.forM g)
    apply Preserves.bind (hg c (by simp))
    intro _
    exact ih fun d hd => hg d (by simp [hd])

theorem Preserves.forM_of_mem {c : γ} (hc : c ∈ l) (hg : ∀ d ∈ l, Preserves P (g d))
    (hestablish : ∀ s s', (g c).run s = .ok ⟨⟩ s' → P s') (h : (l.forM g).run s = .ok u s') :
    P s' := by
  induction l generalizing s with
  | nil => cases hc
  | cons d rest ih =>
    obtain ⟨mid, hd, hrest⟩ := run_forM_cons_ok.mp h
    have hgrest : ∀ d' ∈ rest, Preserves P (g d') := fun d' hd' => hg d' (by simp [hd'])
    rcases List.mem_cons.mp hc with rfl | hmem
    · have hfinal := Preserves.forM hgrest mid (hestablish s mid hd)
      rwa [hrest] at hfinal
    · exact ih hmem hgrest hrest

/-! ## What a computation relates -/

/-- A successful run of `x` takes a state to one that `R` relates it to. -/
def Relates (R : σ → σ → Prop) (x : EStateM ε σ α) : Prop :=
  ∀ s a s', x.run s = .ok a s' → R s s'

section Relates

variable {R : σ → σ → Prop}

theorem Relates.throw (e : ε) : Relates R (throw e : EStateM ε σ α) :=
  fun _ _ _ h => (run_throw_ok.mp h).elim

theorem Relates.modify {g : σ → σ} (h : ∀ s, R s (g s)) :
    Relates R (modify g : EStateM ε σ PUnit) := by
  intro s u s' hrun
  rw [run_modify_ok] at hrun
  exact hrun ▸ h s

theorem Relates.bind_ofOption {g : α → EStateM ε σ β} (h : ∀ a, o = some a → Relates R (g a)) :
    Relates R (Lib.ofOption e o >>= g) := by
  intro s b s' hrun
  obtain ⟨a, _, hread, hrun⟩ := run_bind_ok.mp hrun
  obtain ⟨hvalue, rfl⟩ := run_ofOption_ok.mp hread
  exact h a hvalue _ b _ hrun

variable [IsPreorder σ R]

theorem Relates.of_unchanged (h : ∀ s a s', x.run s = .ok a s' → s = s') : Relates R x :=
  fun s a s' hrun => h s a s' hrun ▸ refl_of R s

theorem Relates.pure (a : α) : Relates R (pure a : EStateM ε σ α) :=
  .of_unchanged fun _ _ _ h => (run_pure_ok.mp h).2

theorem Relates.get : Relates R (get : EStateM ε σ σ) :=
  .of_unchanged fun _ _ _ h => (run_get_ok.mp h).2

theorem Relates.ensure (c : Prop) [Decidable c] (e : ε) :
    Relates R (ensure c e : EStateM ε σ Unit) :=
  .of_unchanged fun _ _ _ h => (run_ensure_ok.mp h).2

theorem Relates.ofOption (e : ε) (o : Option α) : Relates R (ofOption e o : EStateM ε σ α) :=
  .of_unchanged fun _ _ _ h => (run_ofOption_ok.mp h).2

theorem Relates.runExcept (x : Except ε α) : Relates R (runExcept x : EStateM ε σ α) :=
  .of_unchanged fun _ _ _ h => (run_runExcept_ok.mp h).2

theorem Relates.bind {g : α → EStateM ε σ β} (hx : Relates R x) (hg : ∀ a, Relates R (g a)) :
    Relates R (x >>= g) := by
  intro s b s'' hrun
  obtain ⟨a, s', hrunx, hrung⟩ := run_bind_ok.mp hrun
  exact trans_of R (hx s a s' hrunx) (hg a s' b s'' hrung)

theorem Relates.forM (hg : ∀ c ∈ l, Relates R (g c)) : Relates R (l.forM g) := by
  induction l with
  | nil => exact .pure _
  | cons c rest ih =>
    show Relates R (g c >>= fun _ => rest.forM g)
    apply Relates.bind (hg c (by simp))
    intro _
    exact ih fun d hd => hg d (by simp [hd])

end Relates

/-! ## Errors that do not occur -/

/-- `x` does not fail with `e` from the state `s`. -/
def Avoids (e : ε) (x : EStateM ε σ α) (s : σ) : Prop := ∀ s', x.run s ≠ .error e s'

variable {e' : ε}

section Avoids

variable {e : ε} {s : σ}

theorem Avoids.of_ok (h : x.run s = .ok a s') : Avoids e x s := by
  intro s'' herror
  rw [h] at herror
  cases herror

theorem Avoids.pure (a : α) : Avoids e (pure a : EStateM ε σ α) s := .of_ok rfl

theorem Avoids.get : Avoids e (get : EStateM ε σ σ) s := .of_ok rfl

theorem Avoids.modify (g : σ → σ) : Avoids e (modify g : EStateM ε σ PUnit) s := .of_ok rfl

theorem Avoids.throw (h : e' ≠ e) : Avoids e (throw e' : EStateM ε σ α) s := by
  intro s' herror
  cases herror
  exact h rfl

theorem Avoids.ensure [Decidable c] (h : ¬ c → e' ≠ e) :
    Avoids e (ensure c e' : EStateM ε σ Unit) s := by
  unfold Lib.ensure
  split
  · exact .pure ()
  · rename_i hc
    exact .throw (h hc)

theorem Avoids.ofOption (h : o = none → e' ≠ e) : Avoids e (ofOption e' o : EStateM ε σ α) s := by
  cases o with
  | none => exact .throw (h rfl)
  | some a => exact .pure a

theorem Avoids.runExcept {x : Except ε α} (h : x ≠ .error e) :
    Avoids e (runExcept x : EStateM ε σ α) s := by
  cases x with
  | error e' => exact .throw fun heq => h (by rw [heq])
  | ok a => exact .pure a

theorem Avoids.bind {g : α → EStateM ε σ β} (hx : Avoids e x s)
    (hg : ∀ a s', x.run s = .ok a s' → Avoids e (g a) s') : Avoids e (x >>= g) s := by
  intro s'' herror
  rw [EStateM.run_bind] at herror
  cases hrun : x.run s with
  | ok a s' =>
    rw [hrun] at herror
    exact hg a s' hrun s'' herror
  | error e' s' =>
    rw [hrun] at herror
    cases herror
    exact hx _ hrun

section

variable {c : Prop} [Decidable c] {o : Option α} {e' : ε}

-- reads and checks do not change the state
theorem Avoids.bind_get {g : σ → EStateM ε σ β} (hg : Avoids e (g s) s) :
    Avoids e (MonadState.get >>= g) s := hg

theorem Avoids.bind_ensure {g : Unit → EStateM ε σ β} (hc : ¬ c → e' ≠ e)
    (hg : c → Avoids e (g ()) s) : Avoids e (Lib.ensure c e' >>= g) s := by
  refine .bind (.ensure hc) fun _ s' hrun => ?_
  obtain ⟨hholds, rfl⟩ := run_ensure_ok.mp hrun
  exact hg hholds

theorem Avoids.bind_ofOption {g : α → EStateM ε σ β} (ho : o = none → e' ≠ e)
    (hg : ∀ a, o = some a → Avoids e (g a) s) : Avoids e (Lib.ofOption e' o >>= g) s := by
  refine .bind (.ofOption ho) fun a s' hrun => ?_
  obtain ⟨hsome, rfl⟩ := run_ofOption_ok.mp hrun
  exact hg a hsome

end

theorem Avoids.forM (Inv : σ → Prop) (hround : ∀ c ∈ l, ∀ s, Inv s → Avoids e (g c) s)
    (hstep : ∀ c ∈ l, ∀ s s', (g c).run s = .ok ⟨⟩ s' → Inv s → Inv s') (hs : Inv s) :
    Avoids e (l.forM g) s := by
  induction l generalizing s with
  | nil => exact .pure _
  | cons c rest ih =>
    show Avoids e (g c >>= fun _ => rest.forM g) s
    refine .bind (hround c (by simp) s hs) fun _ s' hrun => ?_
    exact ih (fun d hd => hround d (by simp [hd])) (fun d hd => hstep d (by simp [hd]))
      (hstep c (by simp) s s' hrun hs)

end Avoids

end Lib
