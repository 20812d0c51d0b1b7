import Mathlib.Data.List.Sort

namespace SortedSet

-- members with a score each, and no member twice
structure ZSet (α : Type) where
  entries : List (α × Int)
  nodup : (entries.map Prod.fst).Nodup

variable {α : Type}

namespace ZSet

def empty : ZSet α :=
  ⟨[], List.nodup_nil⟩

def members (s : ZSet α) : List α :=
  s.entries.map Prod.fst

variable [DecidableEq α]

def rescore (x : α) (score : Int) (entry : α × Int) : α × Int :=
  if entry.1 = x then (x, score) else entry

theorem map_rescore (entries : List (α × Int)) (x : α) (score : Int) :
    (entries.map (rescore x score)).map Prod.fst = entries.map Prod.fst := by
  rw [List.map_map]
  refine List.map_congr_left fun entry _ => ?_
  simp only [Function.comp_apply, rescore]
  split
  · rename_i h
    exact h.symm
  · rfl

-- the number of members that are new, and the set
def add (s : ZSet α) (x : α) (score : Int) : Nat × ZSet α :=
  if h : x ∈ s.members then
    (0, ⟨s.entries.map (rescore x score), by rw [map_rescore]; exact s.nodup⟩)
  else
    (1, ⟨(x, score) :: s.entries, List.nodup_cons.mpr ⟨h, s.nodup⟩⟩)

def without (entries : List (α × Int)) (x : α) : List (α × Int) :=
  entries.filter fun entry => ¬ entry.1 = x

-- the number of members removed, and the set
def remove (s : ZSet α) (x : α) : Nat × ZSet α :=
  (if x ∈ s.members then 1 else 0,
    ⟨without s.entries x, s.nodup.sublist (List.filter_sublist.map _)⟩)

theorem members_add_of_mem {s : ZSet α} {x : α} (h : x ∈ s.members) (score : Int) :
    (s.add x score).1 = 0 ∧ (s.add x score).2.members = s.members := by
  rw [add, dif_pos h]
  exact ⟨rfl, map_rescore s.entries x score⟩

theorem members_add {s : ZSet α} {x : α} (h : x ∉ s.members) (score : Int) :
    (s.add x score).1 = 1 ∧ (s.add x score).2.members = x :: s.members := by
  rw [add, dif_neg h]
  exact ⟨rfl, rfl⟩

theorem members_remove (s : ZSet α) (x : α) :
    (s.remove x).2.members = s.members.erase x := by
  have hfilter : (s.remove x).2.members = s.members.filter fun y => ¬ y = x := by
    simp only [remove, members, without, List.filter_map]
    rfl
  have herase : s.members.erase x = s.members.filter (· != x) :=
    List.Nodup.erase_eq_filter s.nodup x
  rw [hfilter, herase]
  refine List.filter_congr fun y _ => ?_
  simp [bne, beq_eq_decide]

theorem remove_fst_pos {s : ZSet α} {x : α} : (s.remove x).1 > 0 ↔ x ∈ s.members := by
  unfold remove
  dsimp only
  split
  · rename_i h
    exact iff_of_true Nat.one_pos h
  · rename_i h
    exact iff_of_false (Nat.lt_irrefl 0) h

variable [LinearOrder α]

def precedes (a b : α × Int) : Prop :=
  a.2 < b.2 ∨ a.2 = b.2 ∧ a.1 ≤ b.1

instance : DecidableRel (precedes (α := α)) := fun a b =>
  inferInstanceAs (Decidable (a.2 < b.2 ∨ a.2 = b.2 ∧ a.1 ≤ b.1))

def rangeByScore (s : ZSet α) (lo hi : Int) : List α :=
  ((s.entries.filter fun entry => lo ≤ entry.2 ∧ entry.2 ≤ hi).insertionSort precedes).map
    Prod.fst

end ZSet

end SortedSet
