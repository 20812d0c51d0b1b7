import AiSoc.Library.PyStr
import Mathlib.Tactic.IntervalCases

namespace Sql

def nul : Char := Char.ofNat 0

-- what a varchar(n) column holds: no NUL, and at most n characters
structure Storable (n : Nat) (s : String) : Prop where
  fits : s.length ≤ n
  clean : nul ∉ s.toList

instance (n : Nat) (s : String) : Decidable (Storable n s) :=
  decidable_of_iff (s.length ≤ n ∧ nul ∉ s.toList)
    ⟨fun h => ⟨h.1, h.2⟩, fun h => ⟨h.fits, h.clean⟩⟩

structure Varchar (n : Nat) where
  value : String
  storable : Storable n value

theorem Storable.mono {n m : Nat} {s : String} (h : Storable n s) (hle : n ≤ m) :
    Storable m s :=
  ⟨Nat.le_trans h.fits hle, h.clean⟩

theorem storable_slice (n : Nat) {s : String} (h : nul ∉ s.toList) :
    Storable n (PyStr.slice n s) := by
  constructor
  · rw [PyStr.length_slice]
    exact Nat.min_le_left n s.length
  · intro hmem
    rw [PyStr.slice, String.toList_ofList] at hmem
    exact h (List.mem_of_mem_take hmem)

theorem storable_uuidText (id : Nat) {n : Nat} (h : 36 ≤ n) : Storable n (PyStr.uuidText id) := by
  constructor
  · rw [PyStr.length_uuidText]
    exact h
  · intro hmem
    rcases PyStr.mem_uuidText hmem with hdash | ⟨d, hd, hdigit⟩
    · exact absurd hdash (by decide)
    · revert hdigit
      interval_cases d <;> decide

-- a text that is too long is an error, unless only blanks stand beyond the limit
def assign (n : Nat) (s : String) : Option (Varchar n) :=
  if h : nul ∈ s.toList then none
  else if hfits : s.length ≤ n then some ⟨s, hfits, h⟩
  else if (s.toList.drop n).all (· == ' ') then some ⟨PyStr.slice n s, storable_slice n h⟩
  else none

def assignNullable (n : Nat) : Option String → Option (Option (Varchar n))
  | none => some none
  | some s => (assign n s).map some

section Assign

variable {n : Nat}

theorem assign_of_storable {s : String} (h : Storable n s) : assign n s = some ⟨s, h⟩ := by
  rw [assign, dif_neg h.clean, dif_pos h.fits]

theorem assign_of_long {s : String} (hlong : n < s.length)
    (hend : (s.toList.drop n).all (· == ' ') = false) : assign n s = none := by
  rw [assign]
  split
  · rfl
  · rw [dif_neg (Nat.not_le.mpr hlong), if_neg (by rw [hend]; exact Bool.false_ne_true)]

theorem storable_some {s : String} : (∀ t ∈ some s, Storable n t) ↔ Storable n s := by
  constructor
  · intro h
    exact h s rfl
  · intro h t ht
    rw [Option.mem_some_iff] at ht
    exact ht ▸ h

theorem storable_none : ∀ t ∈ (none : Option String), Storable n t := by
  intro t ht
  cases ht

theorem assignNullable_of_storable {s : Option String} (h : ∀ t ∈ s, Storable n t) :
    ∃ stored, assignNullable n s = some stored ∧ stored.map Varchar.value = s := by
  cases s with
  | none => exact ⟨none, rfl, rfl⟩
  | some t =>
      have ht : Storable n t := storable_some.1 h
      refine ⟨some ⟨t, ht⟩, ?_, rfl⟩
      rw [assignNullable, assign_of_storable ht]
      rfl

theorem storable_values (stored : Option (Varchar n)) :
    ∀ t ∈ stored.map Varchar.value, Storable n t := by
  intro t ht
  rw [Option.mem_def, Option.map_eq_some_iff] at ht
  obtain ⟨v, _, rfl⟩ := ht
  exact v.storable

end Assign

end Sql
