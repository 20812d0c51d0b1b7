import Mathlib.Data.List.Count
import Mathlib.Data.List.Perm.Basic

namespace Custody

variable {τ : Type}

-- what became of the items of a store that callers move out of it in two steps
structure Ledger (τ : Type) where
  added : List τ
  removed : List τ
  moved : List τ
  held : List (Nat × τ)
  lost : List (Nat × τ)

namespace Ledger

def empty : Ledger τ :=
  ⟨[], [], [], [], []⟩

def add (l : Ledger τ) (x : τ) : Ledger τ :=
  { l with added := x :: l.added }

def take (l : Ledger τ) (t : Nat) (x : τ) : Ledger τ :=
  { l with removed := x :: l.removed, held := (t, x) :: l.held }

def move [DecidableEq τ] (l : Ledger τ) (t : Nat) (x : τ) : Ledger τ :=
  { l with moved := x :: l.moved, held := l.held.erase (t, x) }

def heldBy (l : Ledger τ) (t : Nat) : List τ :=
  (l.held.filter fun p => p.1 = t).map Prod.snd

-- the end of a caller, who may still hold something
def drop (l : Ledger τ) (t : Nat) : Ledger τ :=
  { l with
    held := l.held.filter fun p => ¬ p.1 = t
    lost := l.held.filter (fun p => p.1 = t) ++ l.lost }

structure Balanced (l : Ledger τ) (store : List τ) : Prop where
  added : l.added.Perm (store ++ l.removed)
  removed : l.removed.Perm (l.moved ++ (l.held ++ l.lost).map Prod.snd)

variable {l : Ledger τ} {store store' : List τ} {t u : Nat} {x : τ}

theorem balanced_empty : (empty : Ledger τ).Balanced [] :=
  ⟨.refl _, .refl _⟩

theorem Balanced.add (h : l.Balanced store) (hs : store'.Perm (x :: store)) :
    (l.add x).Balanced store' := by
  refine ⟨?_, h.removed⟩
  have hcons : (x :: l.added).Perm (x :: (store ++ l.removed)) := h.added.cons x
  exact hcons.trans (hs.symm.append_right l.removed)

theorem Balanced.take (h : l.Balanced store) (hs : store.Perm (x :: store')) :
    (l.take t x).Balanced store' := by
  constructor
  · have hmiddle : (store' ++ x :: l.removed).Perm (x :: store' ++ l.removed) :=
      List.perm_middle
    exact h.added.trans ((hs.append_right _).trans hmiddle.symm)
  · have hmiddle : (l.moved ++ x :: (l.held ++ l.lost).map Prod.snd).Perm
        (x :: (l.moved ++ (l.held ++ l.lost).map Prod.snd)) :=
      List.perm_middle
    exact (h.removed.cons x).trans hmiddle.symm

theorem Balanced.move [DecidableEq τ] (h : l.Balanced store) (hheld : (t, x) ∈ l.held) :
    (l.move t x).Balanced store := by
  refine ⟨h.added, h.removed.trans ?_⟩
  have hsplit : (l.held ++ l.lost).Perm ((t, x) :: (l.held.erase (t, x) ++ l.lost)) :=
    (List.perm_cons_erase hheld).append_right l.lost
  have hitems := hsplit.map Prod.snd
  exact (hitems.append_left l.moved).trans List.perm_middle

theorem Balanced.drop (h : l.Balanced store) : (l.drop t).Balanced store := by
  refine ⟨h.added, h.removed.trans (List.Perm.append_left _ (List.Perm.map _ ?_))⟩
  have hsplit := List.filter_append_perm (fun p : Nat × τ => decide (p.1 = t)) l.held
  have hswap := (List.perm_append_comm.trans hsplit).symm
  have hflat := hswap.append_right l.lost
  simpa only [Ledger.drop, List.append_assoc, decide_not] using hflat

theorem mem_held_iff : x ∈ l.heldBy t ↔ (t, x) ∈ l.held := by
  simp [heldBy]

@[simp] theorem heldBy_take : (l.take t x).heldBy t = x :: l.heldBy t := by
  simp [heldBy, take]

theorem heldBy_take_of_ne (h : u ≠ t) : (l.take t x).heldBy u = l.heldBy u := by
  simp [heldBy, take, h.symm]

theorem heldBy_move [DecidableEq τ] : (l.move t x).heldBy t = (l.heldBy t).erase x := by
  unfold heldBy move
  induction l.held with
  | nil => rfl
  | cons p held ih =>
      obtain ⟨v, y⟩ := p
      rw [List.erase_cons]
      by_cases hv : v = t
      · subst hv
        by_cases hy : y = x
        · subst hy
          simp
        · simp [hy, ih]
      · simp [hv, ih]

theorem heldBy_move_of_ne [DecidableEq τ] (h : u ≠ t) : (l.move t x).heldBy u = l.heldBy u := by
  unfold heldBy move
  induction l.held with
  | nil => rfl
  | cons p held ih =>
      obtain ⟨v, y⟩ := p
      rw [List.erase_cons]
      by_cases hv : v = u
      · subst hv
        simp [h, ih]
      · by_cases hp : (v, y) = (t, x)
        · obtain ⟨rfl, rfl⟩ := Prod.mk.inj hp
          simp [hv]
        · simp [hv, hp, ih]

theorem heldBy_drop : (l.drop t).heldBy t = [] := by
  simp [heldBy, drop, List.filter_filter]

theorem heldBy_drop_of_ne (h : u ≠ t) : (l.drop t).heldBy u = l.heldBy u := by
  simp only [heldBy, drop, List.filter_filter]
  congr 1
  refine List.filter_congr fun p _ => ?_
  by_cases hp : p.1 = u
  · simp [hp, h]
  · simp [hp]

theorem lost_drop (h : l.heldBy t = []) : (l.drop t).lost = l.lost := by
  have hnone : l.held.filter (fun p => decide (p.1 = t)) = [] := List.map_eq_nil_iff.mp h
  rw [drop, hnone, List.nil_append]

theorem Balanced.count_le [DecidableEq τ] (h : l.Balanced store) (x : τ) :
    l.moved.count x + store.count x ≤ l.added.count x := by
  have hadded := h.added.count_eq x
  have hremoved := h.removed.count_eq x
  rw [List.count_append] at hadded hremoved
  omega

end Ledger

end Custody
