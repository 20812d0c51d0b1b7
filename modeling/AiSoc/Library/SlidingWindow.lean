import Mathlib.Data.List.Basic

namespace SlidingWindow

variable {α : Type} {expired : α → Bool} {ordered : List α} {index left : Nat}

-- while left < index and expired(ordered[left]): left += 1
def advance (ordered : List α) (expired : α → Bool) (index left : Nat) : Nat :=
  if left < index ∧ ordered[left]?.any expired = true then
    advance ordered expired index (left + 1)
  else left
termination_by index - left

def Behind (ordered : List α) (expired : α → Bool) (left : Nat) : Prop :=
  ∀ i < left, ordered[i]?.any expired = true

theorem advance_step (h : left < index ∧ ordered[left]?.any expired = true) :
    advance ordered expired index left = advance ordered expired index (left + 1) := by
  rw [advance, if_pos h]

theorem advance_stop (h : ¬ (left < index ∧ ordered[left]?.any expired = true)) :
    advance ordered expired index left = left := by
  rw [advance, if_neg h]

theorem advance_spec (hle : left ≤ index) (hbehind : Behind ordered expired left) :
    advance ordered expired index left ≤ index ∧
      Behind ordered expired (advance ordered expired index left) ∧
      (advance ordered expired index left = index ∨
        ordered[advance ordered expired index left]?.any expired = false) := by
  induction hn : index - left generalizing left with
  | zero =>
      have hstop : ¬ (left < index ∧ ordered[left]?.any expired = true) := fun h => by omega
      rw [advance_stop hstop]
      exact ⟨hle, hbehind, .inl (by omega)⟩
  | succ n ih =>
      by_cases hstep : left < index ∧ ordered[left]?.any expired = true
      · rw [advance_step hstep]
        refine ih hstep.1 (fun i hi => ?_) (by omega)
        rcases Nat.lt_succ_iff_lt_or_eq.mp hi with hlt | rfl
        · exact hbehind i hlt
        · exact hstep.2
      · rw [advance_stop hstep]
        refine ⟨hle, hbehind, .inr ?_⟩
        cases hexpired : ordered[left]?.any expired with
        | false => rfl
        | true => exact absurd ⟨by omega, hexpired⟩ hstep

theorem filter_eq_drop {xs : List α} {n : Nat} (htake : ∀ x ∈ xs.take n, expired x = true)
    (hdrop : ∀ x ∈ xs.drop n, expired x = false) :
    xs.filter (fun x => !expired x) = xs.drop n := by
  have hsplit : xs.filter (fun x => !expired x) =
      (xs.take n).filter (fun x => !expired x) ++ (xs.drop n).filter fun x => !expired x := by
    rw [← List.filter_append, List.take_append_drop]
  have hnone : (xs.take n).filter (fun x => !expired x) = [] := by
    rw [List.filter_eq_nil_iff]
    intro x hx
    simp [htake x hx]
  have hall : (xs.drop n).filter (fun x => !expired x) = xs.drop n := by
    rw [List.filter_eq_self]
    intro x hx
    simp [hdrop x hx]
  rw [hsplit, hnone, hall, List.nil_append]

theorem any_getElem? {n : Nat} {x : α} (hx : ordered[n]? = some x) :
    ordered[n]?.any expired = expired x := by
  rw [hx, Option.any_some]

theorem slice_eq_filter (hsorted : ordered.Pairwise fun a b => expired b = true → expired a = true)
    (hle : left ≤ index) (hbehind : Behind ordered expired left) {last : α}
    (hlast : ordered[index]? = some last) (hfresh : expired last = false) :
    (ordered.take (index + 1)).drop (advance ordered expired index left) =
      (ordered.take (index + 1)).filter fun x => !expired x := by
  obtain ⟨hbound, hbehind', hstop⟩ := advance_spec hle hbehind
  have hindex : index < ordered.length := (List.getElem?_eq_some_iff.mp hlast).1
  refine (filter_eq_drop ?_ ?_).symm
  · intro x hx
    obtain ⟨i, hi, rfl⟩ := List.mem_take_iff_getElem.mp hx
    rw [List.length_take] at hi
    have hold := hbehind' i (by omega)
    rw [any_getElem? (List.getElem?_eq_getElem (by omega))] at hold
    rwa [List.getElem_take]
  · intro x hx
    obtain ⟨j, hj, rfl⟩ := List.mem_iff_getElem.mp hx
    rw [List.length_drop, List.length_take] at hj
    rw [List.getElem_drop, List.getElem_take]
    generalize hl : advance ordered expired index left = l at *
    have hfirst : expired (ordered.get ⟨l, by omega⟩) = false := by
      rcases hstop with rfl | hstop
      · obtain ⟨_, rfl⟩ := List.getElem?_eq_some_iff.mp hlast
        exact hfresh
      · rwa [any_getElem? (List.getElem?_eq_getElem (by omega))] at hstop
    cases j with
    | zero => exact hfirst
    | succ j =>
        have hback := List.pairwise_iff_getElem.mp hsorted l (l + (j + 1)) (by omega) (by omega)
          (by omega)
        refine Bool.eq_false_iff.mpr fun hexpired => ?_
        have hold := hback hexpired
        rw [List.get_eq_getElem, hold] at hfirst
        cases hfirst

end SlidingWindow
