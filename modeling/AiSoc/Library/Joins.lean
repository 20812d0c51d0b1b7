import Mathlib.Algebra.BigOperators.Group.List.Basic
import Mathlib.Algebra.GroupWithZero.Nat
import Mathlib.Data.List.Nodup

namespace Joins

variable {A B K : Type} [DecidableEq K] {key : A → K} {id : B → K}

def joined (key : A → K) (id : B → K) (refs : List A) (rows : List B) : List B :=
  refs.filterMap fun a => rows.find? fun b => id b = key a

def references (key : A → K) (refs : List A) (k : K) : Nat :=
  refs.countP fun a => key a = k

theorem sum_found {rows : List B} (hrows : (rows.map id).Nodup) (k : K) (w : B → Nat) :
    (((rows.find? fun b => id b = k).toList).map w).sum =
      (rows.map fun b => if id b = k then w b else 0).sum := by
  induction rows with
  | nil => rfl
  | cons b rows ih =>
      obtain ⟨hnotin, hrest⟩ := List.nodup_cons.mp hrows
      by_cases hb : id b = k
      · have hzero : ∀ x ∈ rows.map fun b => if id b = k then w b else 0, x = 0 := by
          intro x hx
          obtain ⟨other, hother, rfl⟩ := List.mem_map.mp hx
          have hne : id other ≠ k := by
            intro heq
            rw [hb, ← heq] at hnotin
            exact hnotin (List.mem_map_of_mem hother)
          rw [if_neg hne]
        simp [hb, List.sum_eq_zero hzero]
      · simp [hb, ih hrest]

theorem joined_cons (a : A) (refs : List A) (rows : List B) :
    joined key id (a :: refs) rows =
      (rows.find? fun b => id b = key a).toList ++ joined key id refs rows := by
  simp only [joined, List.filterMap_cons]
  cases rows.find? fun b => id b = key a with
  | none => rfl
  | some b => rfl

theorem sum_joined {rows : List B} (hrows : (rows.map id).Nodup) (refs : List A) (w : B → Nat) :
    ((joined key id refs rows).map w).sum =
      (rows.map fun b => references key refs (id b) * w b).sum := by
  induction refs with
  | nil => simp [joined, references]
  | cons a refs ih =>
      rw [joined_cons, List.map_append, List.sum_append, sum_found hrows, ih,
        ← List.sum_map_add]
      congr 1
      refine List.map_congr_left fun b _ => ?_
      by_cases hb : key a = id b
      · simp [references, hb, Nat.add_mul, Nat.add_comm]
      · have hb' : ¬ id b = key a := fun h => hb h.symm
        simp [references, hb, hb']

theorem found_iff {rows : List B} (hrows : (rows.map id).Nodup) {k : K} {b : B} :
    (rows.find? fun b => id b = k) = some b ↔ b ∈ rows ∧ id b = k := by
  constructor
  · intro hfound
    have hid := List.find?_some hfound
    simp only [decide_eq_true_eq] at hid
    exact ⟨List.mem_of_find?_eq_some hfound, hid⟩
  · rintro ⟨hb, hid⟩
    cases hfound : rows.find? fun b => id b = k with
    | none =>
        have hnone := List.find?_eq_none.mp hfound b hb
        exact absurd (decide_eq_true hid) hnone
    | some b' =>
        have hid' := List.find?_some hfound
        simp only [decide_eq_true_eq] at hid'
        have hsame : id b' = id b := hid'.trans hid.symm
        rw [List.inj_on_of_nodup_map hrows (List.mem_of_find?_eq_some hfound) hb hsame]

theorem mem_joined {rows : List B} (hrows : (rows.map id).Nodup) {refs : List A} {b : B} :
    b ∈ joined key id refs rows ↔ b ∈ rows ∧ ∃ a ∈ refs, key a = id b := by
  simp only [joined, List.mem_filterMap, found_iff hrows]
  constructor
  · rintro ⟨a, ha, hb, hid⟩
    exact ⟨hb, a, ha, hid.symm⟩
  · rintro ⟨hb, a, ha, hkey⟩
    exact ⟨a, ha, hb, hkey.symm⟩

theorem references_pos {refs : List A} {k : K} (h : ∃ a ∈ refs, key a = k) :
    0 < references key refs k := by
  obtain ⟨a, ha, hkey⟩ := h
  exact List.countP_pos_iff.mpr ⟨a, ha, decide_eq_true hkey⟩

theorem le_sum_repeated {rows : List B} {n w : B → Nat} (hn : ∀ b ∈ rows, 0 < n b) :
    (rows.map w).sum ≤ (rows.map fun b => n b * w b).sum := by
  induction rows with
  | nil => exact Nat.le_refl _
  | cons b rows ih =>
      have hrest := ih fun b' hb' => hn b' (List.mem_cons_of_mem _ hb')
      have hhead : w b ≤ n b * w b := Nat.le_mul_of_pos_left _ (hn b List.mem_cons_self)
      simp only [List.map_cons, List.sum_cons]
      omega

theorem sum_repeated_eq_iff {rows : List B} {n w : B → Nat} (hn : ∀ b ∈ rows, 0 < n b) :
    (rows.map fun b => n b * w b).sum = (rows.map w).sum ↔ ∀ b ∈ rows, n b = 1 ∨ w b = 0 := by
  induction rows with
  | nil => simp
  | cons b rows ih =>
      have hrest : ∀ b ∈ rows, 0 < n b := fun b' hb' => hn b' (List.mem_cons_of_mem _ hb')
      have hle : (rows.map w).sum ≤ (rows.map fun b => n b * w b).sum := le_sum_repeated hrest
      have hhead : w b ≤ n b * w b := Nat.le_mul_of_pos_left _ (hn b List.mem_cons_self)
      simp only [List.map_cons, List.sum_cons, List.forall_mem_cons]
      rw [← ih hrest]
      constructor
      · intro heq
        have hfirst : n b * w b = w b := by omega
        refine ⟨?_, by omega⟩
        rcases Nat.eq_zero_or_pos (w b) with hzero | hpos
        · exact .inr hzero
        · exact .inl (Nat.eq_of_mul_eq_mul_right hpos (by rw [hfirst, Nat.one_mul]))
      · rintro ⟨hfirst, htail⟩
        rcases hfirst with hone | hzero
        · rw [hone, Nat.one_mul, htail]
        · rw [hzero, Nat.mul_zero, htail]

end Joins
