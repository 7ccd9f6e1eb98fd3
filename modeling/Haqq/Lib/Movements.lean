import Haqq.Lib.Ledger

/-!
# Movements in a ledger

A computation with a ledger is a sequence of sends, mints and burns; `Moves P` says that every one
of them meets `P`.
-/

namespace Lib.Ledger

variable {α δ : Type*}

inductive Move (α δ : Type*)
  | send (src dst : α) (coins : Tally δ)
  | mint (a : α) (coins : Tally δ)
  | burn (a : α) (coins : Tally δ)

namespace Move

def source : Move α δ → Option α
  | send src _ _ => some src
  | mint _ _ => none
  | burn a _ => some a

def parties : Move α δ → List α
  | send src dst _ => [src, dst]
  | mint a _ => [a]
  | burn a _ => [a]

def coins : Move α δ → Tally δ
  | send _ _ coins => coins
  | mint _ coins => coins
  | burn _ coins => coins

end Move

variable [DecidableEq α] [DecidableEq δ]

inductive Step : Move α δ → Ledger α δ → Ledger α δ → Prop
  | send {l l' : Ledger α δ} {locked coins : Tally δ} {src dst : α}
      (h : l.send locked src dst coins = some l') : Step (.send src dst coins) l l'
  | mint (l : Ledger α δ) (a : α) (coins : Tally δ) : Step (.mint a coins) l (l.mint a coins)
  | burn {l l' : Ledger α δ} {a : α} {coins : Tally δ} (h : l.burn a coins = some l') :
      Step (.burn a coins) l l'

def Moves (P : Move α δ → Prop) : Ledger α δ → Ledger α δ → Prop :=
  Relation.ReflTransGen fun l l' => ∃ m, P m ∧ Step m l l'

variable {P Q : Move α δ → Prop} {l l' : Ledger α δ} {m : Move α δ} {b : α} {d : δ}

theorem Step.le_balance (h : Step m l l') (hb : m.source ≠ some b) :
    (l.balance b).get d ≤ (l'.balance b).get d := by
  cases h with
  | send h =>
    have hd := balance_send h b d
    rw [if_neg fun heq => hb (congrArg some heq.symm)] at hd
    omega
  | mint a coins =>
    rw [balance_mint]
    omega
  | burn h =>
    have hd := balance_burn h b d
    rw [if_neg fun heq => hb (congrArg some heq.symm)] at hd
    omega

theorem Step.balance_eq (h : Step m l l') (hb : b ∈ m.parties → m.coins.get d = 0) :
    (l'.balance b).get d = (l.balance b).get d := by
  cases h with
  | send h =>
    have hd := balance_send h b d
    simp only [Move.parties, Move.coins, List.mem_cons, List.not_mem_nil, or_false] at hb
    split at hd <;> split at hd <;> simp_all
  | mint a coins =>
    rw [balance_mint]
    simp only [Move.parties, Move.coins, List.mem_singleton] at hb
    split <;> simp_all
  | burn h =>
    have hd := balance_burn h b d
    simp only [Move.parties, Move.coins, List.mem_singleton] at hb
    split at hd <;> simp_all

theorem Step.conserved [Fintype α] (h : Step m l l') (hl : l.Conserved) : l'.Conserved := by
  cases h with
  | send h => exact hl.send h
  | mint a coins => exact hl.mint
  | burn h => exact hl.burn h

namespace Moves

instance : IsPreorder (Ledger α δ) (Moves P) where
  refl _ := .refl
  trans _ _ _ := .trans

theorem single (hm : P m) (h : Step m l l') : Moves P l l' :=
  Relation.ReflTransGen.single ⟨m, hm, h⟩

theorem mono (h : Moves P l l') (hPQ : ∀ m, P m → Q m) : Moves Q l l' :=
  Relation.ReflTransGen.mono (fun _ _ ⟨m, hm, hstep⟩ => ⟨m, hPQ m hm, hstep⟩) _ _ h

theorem le_balance (h : Moves P l l') (hb : ∀ m, P m → m.source ≠ some b) :
    (l.balance b).get d ≤ (l'.balance b).get d := by
  induction h with
  | refl => exact le_rfl
  | tail _ hstep ih =>
    obtain ⟨m, hm, hstep⟩ := hstep
    exact ih.trans (hstep.le_balance (hb m hm))

theorem balance_eq (h : Moves P l l') (hb : ∀ m, P m → b ∈ m.parties → m.coins.get d = 0) :
    (l'.balance b).get d = (l.balance b).get d := by
  induction h with
  | refl => rfl
  | tail _ hstep ih =>
    obtain ⟨m, hm, hstep⟩ := hstep
    exact (hstep.balance_eq (hb m hm)).trans ih

theorem conserved [Fintype α] (h : Moves P l l') (hl : l.Conserved) : l'.Conserved := by
  induction h with
  | refl => exact hl
  | tail _ hstep ih =>
    obtain ⟨m, -, hstep⟩ := hstep
    exact hstep.conserved ih

end Moves

end Lib.Ledger
