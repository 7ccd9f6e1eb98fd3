import Haqq.Lib.Tally
import Mathlib.Algebra.BigOperators.Fin

/-!
# Ledgers

Balances of several denominations held by accounts, together with the total supply.  A debit may
respect a locked part of the balance.  `Conserved` says that the supply of every denomination is the
sum of all balances.
-/

namespace Lib

theorem sum_add_of_eq_off {ι : Type*} [DecidableEq ι] {s : Finset ι} {f g : ι → ℕ} {a : ι}
    (ha : a ∈ s) (h : ∀ b ∈ s, b ≠ a → g b = f b) :
    ∑ b ∈ s, g b + f a = ∑ b ∈ s, f b + g a := by
  have hrest : ∑ b ∈ s.erase a, g b = ∑ b ∈ s.erase a, f b :=
    Finset.sum_congr rfl fun b hb => h b (Finset.mem_of_mem_erase hb) (Finset.ne_of_mem_erase hb)
  rw [← Finset.add_sum_erase s g ha, ← Finset.add_sum_erase s f ha, hrest]
  omega

/-- Balances per account and the supply per denomination. -/
@[ext]
structure Ledger (α δ : Type*) where
  balance : α → Tally δ
  supply : Tally δ

namespace Ledger

variable {α δ : Type*} [DecidableEq α] [DecidableEq δ]

def credit (l : Ledger α δ) (a : α) (coins : Tally δ) : Ledger α δ :=
  { l with balance := Function.update l.balance a (l.balance a + coins) }

/-- Takes coins from one balance if what remains still covers the locked coins. -/
def debit (l : Ledger α δ) (locked : Tally δ) (a : α) (coins : Tally δ) :
    Option (Ledger α δ) :=
  if ∀ d ∈ coins.support, locked.get d + coins.get d ≤ (l.balance a).get d then
    some { l with balance := Function.update l.balance a (l.balance a - coins) }
  else none

def mint (l : Ledger α δ) (a : α) (coins : Tally δ) : Ledger α δ :=
  { l.credit a coins with supply := l.supply + coins }

def burn (l : Ledger α δ) (a : α) (coins : Tally δ) : Option (Ledger α δ) := do
  let l' ← l.debit 0 a coins
  if coins ≤ l'.supply then
    some { l' with supply := l'.supply - coins }
  else none

def send (l : Ledger α δ) (locked : Tally δ) (src dst : α) (coins : Tally δ) :
    Option (Ledger α δ) := do
  let l' ← l.debit locked src coins
  return l'.credit dst coins

omit [DecidableEq δ] in
theorem debit_eq_some {l l' : Ledger α δ} {locked coins : Tally δ} {a : α}
    (h : l.debit locked a coins = some l') :
    coins ≤ l.balance a ∧
      l' = { l with balance := Function.update l.balance a (l.balance a - coins) } := by
  unfold debit at h
  split at h
  · rename_i hcover
    refine ⟨fun d => ?_, (Option.some.inj h).symm⟩
    by_cases hd : d ∈ coins.support
    · have := hcover d hd
      omega
    · have hzero : coins.get d = 0 := by
        by_contra hne
        exact hd ((coins.mem_support d).mpr hne)
      omega
  · cases h

theorem send_eq_some {l l' : Ledger α δ} {locked coins : Tally δ} {src dst : α}
    (h : l.send locked src dst coins = some l') :
    ∃ mid, l.debit locked src coins = some mid ∧ l' = mid.credit dst coins := by
  simp only [send, Option.bind_eq_bind, Option.bind_eq_some_iff] at h
  obtain ⟨mid, hmid, hl'⟩ := h
  exact ⟨mid, hmid, (Option.some.inj hl').symm⟩

omit [DecidableEq δ] in
theorem burn_eq_some {l l' : Ledger α δ} {coins : Tally δ} {a : α}
    (h : l.burn a coins = some l') :
    ∃ mid, l.debit 0 a coins = some mid ∧ coins ≤ mid.supply ∧
      l' = { mid with supply := mid.supply - coins } := by
  simp only [burn, Option.bind_eq_bind, Option.bind_eq_some_iff] at h
  obtain ⟨mid, hmid, hrest⟩ := h
  split at hrest
  · exact ⟨mid, hmid, ‹_›, (Option.some.inj hrest).symm⟩
  · cases hrest

/-! ## Balances after an operation -/

section Balances

variable {l l' : Ledger α δ} {locked coins : Tally δ} {a src dst : α}

@[simp] theorem supply_credit : (l.credit a coins).supply = l.supply := rfl

@[simp] theorem mint_zero : l.mint a 0 = l := by
  simp [mint, credit]

@[simp] theorem supply_mint : (l.mint a coins).supply = l.supply + coins := rfl

theorem balance_credit (b : α) (d : δ) :
    ((l.credit a coins).balance b).get d =
      (l.balance b).get d + if b = a then coins.get d else 0 := by
  by_cases hb : b = a
  · subst hb
    simp [credit]
  · simp [credit, hb]

theorem balance_mint (b : α) (d : δ) :
    ((l.mint a coins).balance b).get d =
      (l.balance b).get d + if b = a then coins.get d else 0 :=
  balance_credit b d

omit [DecidableEq δ] in
theorem balance_debit (h : l.debit locked a coins = some l') (b : α) (d : δ) :
    ((l'.balance b).get d + if b = a then coins.get d else 0) = (l.balance b).get d := by
  obtain ⟨hle, rfl⟩ := debit_eq_some h
  by_cases hb : b = a
  · subst hb
    have := hle d
    simp only [Function.update_self, Tally.get_sub, if_true]
    omega
  · simp [hb]

omit [DecidableEq δ] in
theorem supply_debit (h : l.debit locked a coins = some l') : l'.supply = l.supply := by
  obtain ⟨_, rfl⟩ := debit_eq_some h
  rfl

theorem balance_send (h : l.send locked src dst coins = some l') (b : α) (d : δ) :
    ((l'.balance b).get d + if b = src then coins.get d else 0) =
      (l.balance b).get d + if b = dst then coins.get d else 0 := by
  obtain ⟨mid, hmid, rfl⟩ := send_eq_some h
  have hdebit := balance_debit hmid b d
  rw [balance_credit]
  omega

theorem supply_send (h : l.send locked src dst coins = some l') : l'.supply = l.supply := by
  obtain ⟨mid, hmid, rfl⟩ := send_eq_some h
  rw [supply_credit, supply_debit hmid]

theorem isSome_send_iff : (l.send locked src dst coins).isSome = true ↔
    ∀ d ∈ coins.support, locked.get d + coins.get d ≤ (l.balance src).get d := by
  unfold send debit
  split <;> simp_all

theorem send_isSome (h : ∀ d, locked.get d + coins.get d ≤ (l.balance src).get d) :
    (l.send locked src dst coins).isSome = true :=
  isSome_send_iff.mpr fun d _ => h d

theorem le_balance_src_of_send (h : l.send locked src dst coins = some l') (d : δ) :
    coins.get d ≤ (l.balance src).get d := by
  have hcover := isSome_send_iff.mp (Option.isSome_of_eq_some h) d
  rw [Tally.mem_support] at hcover
  omega

theorem le_balance_of_send (h : l.send locked src dst coins = some l') {d : δ} {x : ℕ}
    (hx : x ≤ (l.balance a).get d + if a = dst then coins.get d else 0)
    (hlocked : a = src → x ≤ locked.get d + if a = dst then coins.get d else 0) :
    x ≤ (l'.balance a).get d := by
  have hbalance := balance_send h a d
  by_cases hsrc : a = src
  · subst hsrc
    by_cases hd : coins.get d = 0
    · simp only [hd, ite_self, add_zero] at hbalance hx
      omega
    · obtain ⟨mid, hmid, -⟩ := send_eq_some h
      unfold debit at hmid
      split at hmid
      · rename_i hcover
        have hcovered := hcover d ((coins.mem_support d).mpr hd)
        have hkept := hlocked rfl
        rw [if_pos rfl] at hbalance
        omega
      · cases hmid
  · rw [if_neg hsrc] at hbalance
    omega

omit [DecidableEq δ] in
theorem balance_burn (h : l.burn a coins = some l') (b : α) (d : δ) :
    ((l'.balance b).get d + if b = a then coins.get d else 0) = (l.balance b).get d := by
  obtain ⟨mid, hmid, _, rfl⟩ := burn_eq_some h
  exact balance_debit hmid b d

theorem supply_burn (h : l.burn a coins = some l') : l'.supply + coins = l.supply := by
  obtain ⟨mid, hmid, hle, rfl⟩ := burn_eq_some h
  rw [Tally.sub_add_cancel_of_le hle, supply_debit hmid]

end Balances

section Conserved

variable [Fintype α] {l l' : Ledger α δ} {locked coins : Tally δ} {a src dst : α}

def Conserved (l : Ledger α δ) : Prop :=
  ∀ d, l.supply.get d = ∑ b, (l.balance b).get d

theorem Conserved.mint (h : l.Conserved) : (l.mint a coins).Conserved := by
  intro d
  simp only [balance_mint, Finset.sum_add_distrib, Finset.sum_ite_eq', Finset.mem_univ,
    if_true, supply_mint, Tally.get_add, h d]

theorem Conserved.burn (hl : l.Conserved) (h : l.burn a coins = some l') : l'.Conserved := by
  intro d
  have hsupply := congrArg (fun x => x.get d) (supply_burn h)
  have hsum : ∑ b, (l.balance b).get d = ∑ b, (l'.balance b).get d + coins.get d := by
    simp only [← balance_burn h, Finset.sum_add_distrib, Finset.sum_ite_eq', Finset.mem_univ,
      if_true]
  have := hl d
  simp only [Tally.get_add] at hsupply
  omega

theorem Conserved.send (hl : l.Conserved) (h : l.send locked src dst coins = some l') :
    l'.Conserved := by
  intro d
  have hsum : ∑ b, ((l'.balance b).get d + if b = src then coins.get d else 0) =
      ∑ b, ((l.balance b).get d + if b = dst then coins.get d else 0) :=
    Finset.sum_congr rfl fun b _ => balance_send h b d
  simp only [Finset.sum_add_distrib, Finset.sum_ite_eq', Finset.mem_univ, if_true] at hsum
  rw [supply_send h, hl d]
  omega

end Conserved

end Ledger

end Lib
