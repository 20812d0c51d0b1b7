import Mathlib.Logic.Function.Basic

namespace AdvisoryLock

-- each key is free or held by one transaction, which may take it again
abbrev Locks (K : Type) := K → Option Nat

namespace Locks

variable {K : Type}

def empty : Locks K := fun _ => none

-- the locks of a transaction are released together at its end
def release (locks : Locks K) (t : Nat) : Locks K :=
  fun k => if locks k = some t then none else locks k

theorem release_other {locks : Locks K} {t u : Nat} {k : K} (hu : u ≠ t) :
    locks.release t k = some u ↔ locks k = some u := by
  unfold release
  split
  · rename_i h
    constructor
    · intro h'
      cases h'
    · intro h'
      exact absurd (Option.some.inj (h'.symm.trans h)) hu
  · rfl

theorem release_self {locks : Locks K} {t : Nat} {k : K} : locks.release t k ≠ some t := by
  unfold release
  split
  · simp
  · assumption

variable [DecidableEq K]

def acquire (locks : Locks K) (t : Nat) (k : K) : Option (Locks K) :=
  if locks k = none ∨ locks k = some t then some (Function.update locks k (some t)) else none

theorem acquire_cases {locks locks' : Locks K} {t : Nat} {k : K}
    (h : locks.acquire t k = some locks') :
    (locks k = none ∨ locks k = some t) ∧ locks' = Function.update locks k (some t) := by
  unfold acquire at h
  split at h
  · exact ⟨‹_›, (Option.some.inj h).symm⟩
  · cases h

theorem acquire_self {locks locks' : Locks K} {t : Nat} {k : K}
    (h : locks.acquire t k = some locks') : locks' k = some t := by
  obtain ⟨_, rfl⟩ := acquire_cases h
  exact Function.update_self ..

theorem acquire_other {locks locks' : Locks K} {t u : Nat} {k j : K}
    (h : locks.acquire t k = some locks') (hu : u ≠ t) :
    locks' j = some u ↔ locks j = some u := by
  obtain ⟨hfree, rfl⟩ := acquire_cases h
  rcases eq_or_ne j k with rfl | hne
  · rw [Function.update_self]
    rcases hfree with hk | hk <;> simp [hk, hu.symm]
  · rw [Function.update_of_ne hne]

end Locks

end AdvisoryLock
