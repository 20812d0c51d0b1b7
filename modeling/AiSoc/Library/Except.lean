import Mathlib.Data.List.Forall2
import Mathlib.Tactic.Common

namespace Except

variable {ε α β : Type}

theorem bind_ok_iff {x : Except ε α} {f : α → Except ε β} {b : β} :
    (x >>= f) = .ok b ↔ ∃ a, x = .ok a ∧ f a = .ok b := by
  cases x with
  | error e =>
      constructor
      · intro h
        cases h
      · rintro ⟨a, h, _⟩
        cases h
  | ok a =>
      constructor
      · intro h
        exact ⟨a, rfl, h⟩
      · rintro ⟨a', h, hf⟩
        cases h
        exact hf

theorem pure_ok_iff {a b : α} : (pure a : Except ε α) = .ok b ↔ a = b := by
  constructor
  · intro h
    cases h
    rfl
  · rintro rfl
    rfl

theorem mapM_ok_iff {f : α → Except ε β} {xs : List α} {ys : List β} :
    xs.mapM f = .ok ys ↔ List.Forall₂ (fun x y => f x = .ok y) xs ys := by
  induction xs generalizing ys with
  | nil =>
      constructor
      · intro h
        cases h
        exact .nil
      · intro h
        cases h
        rfl
  | cons x xs ih =>
      rw [List.mapM_cons, bind_ok_iff]
      constructor
      · rintro ⟨y, hy, h⟩
        obtain ⟨rest, hrest, h⟩ := bind_ok_iff.mp h
        obtain rfl := pure_ok_iff.mp h
        exact .cons hy (ih.mp hrest)
      · intro h
        cases h with
        | cons hy hrest => exact ⟨_, hy, bind_ok_iff.mpr ⟨_, ih.mpr hrest, rfl⟩⟩

theorem mem_of_mapM_ok {f : α → Except ε β} {xs : List α} {ys : List β} {y : β}
    (h : xs.mapM f = .ok ys) (hy : y ∈ ys) : ∃ x ∈ xs, f x = .ok y := by
  have hpairs := mapM_ok_iff.mp h
  induction hpairs with
  | nil => cases hy
  | cons hfirst hrest ih =>
      rcases List.mem_cons.mp hy with rfl | hy
      · exact ⟨_, List.mem_cons_self, hfirst⟩
      · obtain ⟨x, hx, hf⟩ := ih (mapM_ok_iff.mpr hrest) hy
        exact ⟨x, List.mem_cons_of_mem _ hx, hf⟩

theorem exists_mapM_ok_iff {f : α → Except ε β} {xs : List α} :
    (∃ ys, xs.mapM f = .ok ys) ↔ ∀ x ∈ xs, ∃ y, f x = .ok y := by
  induction xs with
  | nil => exact iff_of_true ⟨[], rfl⟩ nofun
  | cons x xs ih =>
      rw [List.forall_mem_cons, ← ih, List.mapM_cons]
      constructor
      · rintro ⟨_, hall⟩
        obtain ⟨y, hy, hall⟩ := bind_ok_iff.mp hall
        obtain ⟨ys, hys, _⟩ := bind_ok_iff.mp hall
        exact ⟨⟨y, hy⟩, ys, hys⟩
      · rintro ⟨⟨y, hy⟩, ys, hys⟩
        exact ⟨y :: ys, bind_ok_iff.mpr ⟨y, hy, bind_ok_iff.mpr ⟨ys, hys, rfl⟩⟩⟩

theorem mem_of_mapM_error {f : α → Except ε β} {xs : List α} {e : ε}
    (h : xs.mapM f = .error e) : ∃ x ∈ xs, f x = .error e := by
  induction xs with
  | nil => cases h
  | cons x xs ih =>
      rw [List.mapM_cons] at h
      cases hx : f x with
      | error e' =>
          rw [hx] at h
          cases h
          exact ⟨x, List.mem_cons_self, hx⟩
      | ok y =>
          have hrest : xs.mapM f = .error e := by
            cases hxs : xs.mapM f with
            | error e' =>
                rw [hx, hxs] at h
                cases h
                rfl
            | ok ys =>
                rw [hx, hxs] at h
                cases h
          obtain ⟨x', hx', hf⟩ := ih hrest
          exact ⟨x', List.mem_cons_of_mem _ hx', hf⟩

theorem mapM_foldlM {σ : Type} {f : α → Except ε β} {g : σ → β → Except ε σ} {xs : List α}
    (h : ∀ x ∈ xs, ∃ y, f x = .ok y) (s : σ) :
    (xs.mapM f >>= fun ys => ys.foldlM g s) =
      xs.foldlM (fun s x => f x >>= fun y => g s y) s := by
  obtain ⟨ys, hys⟩ := exists_mapM_ok_iff.mpr h
  rw [hys]
  have hpairs := mapM_ok_iff.mp hys
  clear hys h
  change ys.foldlM g s = _
  induction hpairs generalizing s with
  | nil => rfl
  | @cons x y xs ys hxy _ ih =>
      rw [List.foldlM_cons, List.foldlM_cons, hxy]
      exact bind_congr fun s' => ih s'

end Except

namespace Option

variable {α : Type*} {β : Type} {f : α → Option β} {xs : List α} {ys : List β}

theorem mapM_eq_some_iff : xs.mapM f = some ys ↔ List.Forall₂ (fun x y => f x = some y) xs ys := by
  induction xs generalizing ys with
  | nil =>
      constructor
      · intro h
        cases h
        exact .nil
      · intro h
        cases h
        rfl
  | cons x xs ih =>
      rw [List.mapM_cons]
      constructor
      · intro h
        obtain ⟨y, hy, h⟩ := Option.bind_eq_some_iff.mp h
        obtain ⟨rest, hrest, h⟩ := Option.bind_eq_some_iff.mp h
        cases h
        exact .cons hy (ih.mp hrest)
      · intro h
        cases h with
        | cons hy hrest =>
            rw [hy, ih.mpr hrest]
            rfl

theorem mem_of_mapM (h : xs.mapM f = some ys) {y : β} (hy : y ∈ ys) : ∃ x ∈ xs, f x = some y := by
  have hpairs := mapM_eq_some_iff.mp h
  clear h
  induction hpairs with
  | nil => cases hy
  | cons hfirst _ ih =>
      rcases List.mem_cons.mp hy with rfl | hy
      · exact ⟨_, List.mem_cons_self, hfirst⟩
      · obtain ⟨x, hx, hf⟩ := ih hy
        exact ⟨x, List.mem_cons_of_mem _ hx, hf⟩

theorem exists_mapM_iff : (∃ ys, xs.mapM f = some ys) ↔ ∀ x ∈ xs, ∃ y, f x = some y := by
  induction xs with
  | nil => exact iff_of_true ⟨[], rfl⟩ nofun
  | cons x xs ih =>
      rw [List.mapM_cons, List.forall_mem_cons, ← ih]
      constructor
      · rintro ⟨ys, h⟩
        obtain ⟨y, hy, h⟩ := Option.bind_eq_some_iff.mp h
        obtain ⟨zs, hzs, _⟩ := Option.bind_eq_some_iff.mp h
        exact ⟨⟨y, hy⟩, zs, hzs⟩
      · rintro ⟨⟨y, hy⟩, zs, hzs⟩
        refine ⟨y :: zs, ?_⟩
        rw [hy, hzs]
        rfl

end Option
