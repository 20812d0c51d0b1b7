import Mathlib.Data.List.Basic
import Mathlib.Tactic.Common

namespace BoundedQueue

variable {α : Type*}

section Queue

-- none is QueueFull
def putNowait (maxsize : Nat) (queue : List α) (a : α) : Option (List α) :=
  if maxsize ≤ queue.length then none else some (queue ++ [a])

-- none is QueueEmpty
def getNowait : List α → Option (α × List α)
  | [] => none
  | a :: queue => some (a, queue)

-- a full queue drops its oldest element; a second QueueFull is not handled
def putDropping (maxsize : Nat) (queue : List α) (a : α) : Option (List α) :=
  match putNowait maxsize queue a with
  | some queue => some queue
  | none =>
      match getNowait queue with
      | none => some queue
      | some (_, queue) => putNowait maxsize queue a

def latest (n : Nat) (xs : List α) : List α :=
  xs.drop (xs.length - n)

theorem length_latest (n : Nat) (xs : List α) : (latest n xs).length = min n xs.length := by
  rw [latest, List.length_drop]
  omega

theorem putDropping_eq {maxsize : Nat} (hpos : 0 < maxsize) {queue : List α}
    (hlength : queue.length ≤ maxsize) (a : α) :
    putDropping maxsize queue a = some (latest maxsize (queue ++ [a])) := by
  rw [putDropping, putNowait, latest, List.length_append, List.length_singleton]
  rcases Nat.lt_or_ge queue.length maxsize with hroom | hfull
  · have hkeep : queue.length + 1 - maxsize = 0 := by omega
    rw [if_neg (by omega), hkeep, List.drop_zero]
  · have hone : queue.length + 1 - maxsize = 1 := by omega
    rw [if_pos hfull, hone]
    cases queue with
    | nil =>
        rw [List.length_nil] at hfull
        omega
    | cons b queue =>
        rw [List.length_cons] at hlength
        simp only [getNowait, putNowait, List.cons_append, List.drop_one, List.tail_cons]
        exact if_neg (by omega)

end Queue

section Streams

inductive Op (α : Type*) where
  | put (a : α)
  | take

-- a queue with what was taken from its head so far
structure Stream (α : Type*) where
  queue : List α
  delivered : List α

def Stream.empty : Stream α :=
  ⟨[], []⟩

-- a take on an empty queue waits
def Stream.take (s : Stream α) : Stream α :=
  match getNowait s.queue with
  | none => s
  | some (a, queue) => ⟨queue, s.delivered ++ [a]⟩

def Stream.put (maxsize : Nat) (s : Stream α) (a : α) : Option (Stream α) :=
  (putDropping maxsize s.queue a).map fun queue => { s with queue := queue }

def Stream.step (maxsize : Nat) (s : Stream α) : Op α → Option (Stream α)
  | .put a => s.put maxsize a
  | .take => some s.take

def Stream.run (maxsize : Nat) : Stream α → List (Op α) → Option (Stream α)
  | s, [] => some s
  | s, op :: ops => (s.step maxsize op).bind fun s => Stream.run maxsize s ops

def Op.accepted : Op α → Option α
  | .put a => some a
  | .take => none

def accepted (ops : List (Op α)) : List α :=
  ops.filterMap Op.accepted

end Streams

section Delivery

def next (taken : List Nat) : Nat :=
  taken.getLast?.elim 0 (· + 1)

theorem next_concat (taken : List Nat) (i : Nat) : next (taken ++ [i]) = i + 1 := by
  rw [next, List.getLast?_concat, Option.elim_some]

structure Delivery (maxsize : Nat) (accepted : List α) (taken : List Nat) (s : Stream α) : Prop where
  queue : s.queue = latest maxsize (accepted.drop (next taken))
  delivered : s.delivered.map some = taken.map fun i => accepted[i]?
  ordered : taken.Pairwise (· < ·)
  below : ∀ i ∈ taken, i < next taken
  arrived : next taken ≤ accepted.length
  skipped : ∀ i < next taken, i ∉ taken → i + maxsize < accepted.length

theorem delivery_empty (maxsize : Nat) : Delivery maxsize [] [] (Stream.empty : Stream α) where
  queue := by rw [latest, List.drop_nil, List.drop_nil, Stream.empty]
  delivered := rfl
  ordered := .nil
  below := nofun
  arrived := Nat.le_refl 0
  skipped := nofun

variable {maxsize : Nat} {elements : List α} {taken : List Nat} {s : Stream α}

theorem latest_drop (xs : List α) (n k : Nat) :
    latest n (xs.drop k) = xs.drop (max k (xs.length - n)) := by
  rw [latest, List.drop_drop, List.length_drop]
  congr 1
  omega

theorem Delivery.queue_eq (h : Delivery maxsize elements taken s) :
    s.queue = elements.drop (max (next taken) (elements.length - maxsize)) := by
  rw [h.queue, latest_drop]

theorem Delivery.length_queue (h : Delivery maxsize elements taken s) :
    s.queue.length ≤ maxsize := by
  rw [h.queue, length_latest]
  exact Nat.min_le_left _ _

theorem Delivery.put (hpos : 0 < maxsize) (h : Delivery maxsize elements taken s) (a : α) :
    ∃ s', s.put maxsize a = some s' ∧ Delivery maxsize (elements ++ [a]) taken s' := by
  refine ⟨⟨latest maxsize (s.queue ++ [a]), s.delivered⟩, ?_, ?_⟩
  · rw [Stream.put, putDropping_eq hpos h.length_queue, Option.map_some]
  · have harrived := h.arrived
    exact {
      queue := by
        have hmax : max (next taken) (elements.length - maxsize) ≤ elements.length := by omega
        have hlength : (elements ++ [a]).length = elements.length + 1 := by simp
        rw [latest_drop]
        simp only [h.queue_eq]
        rw [← List.drop_append_of_le_length hmax, latest_drop]
        congr 1
        omega
      delivered := by
        rw [h.delivered]
        apply List.map_congr_left
        intro i hi
        have hbelow := h.below i hi
        rw [List.getElem?_append_left (by omega)]
      ordered := h.ordered
      below := h.below
      arrived := by
        rw [List.length_append]
        omega
      skipped := by
        intro i hi hnot
        have hskipped := h.skipped i hi hnot
        rw [List.length_append]
        omega }

theorem Delivery.take (h : Delivery maxsize elements taken s) :
    ∃ taken', Delivery maxsize elements taken' s.take := by
  have hqueue := h.queue_eq
  cases hs : s.queue with
  | nil =>
      refine ⟨taken, ?_⟩
      rw [Stream.take, hs]
      exact h
  | cons a rest =>
      obtain ⟨k, hposition⟩ : ∃ k, k = max (next taken) (elements.length - maxsize) := ⟨_, rfl⟩
      have hdrop : elements.drop k = a :: rest := by
        rw [hposition, ← hqueue, hs]
      have hk : k < elements.length := by
        by_contra hle
        rw [List.drop_of_length_le (Nat.le_of_not_lt hle)] at hdrop
        cases hdrop
      have hcons := List.drop_eq_getElem_cons hk
      rw [hcons] at hdrop
      obtain ⟨hhead, hrest⟩ := List.cons.inj hdrop
      have hbelow : ∀ i ∈ taken, i < k := fun i hi =>
        Nat.lt_of_lt_of_le (h.below i hi) (hposition ▸ Nat.le_max_left _ _)
      refine ⟨taken ++ [k], ?_⟩
      rw [Stream.take, hs]
      exact {
        queue := by
          have hmax : max (k + 1) (elements.length - maxsize) = k + 1 := by omega
          rw [next_concat, latest_drop, hmax, hrest, getNowait]
        delivered := by
          simp only [getNowait, List.map_append, List.map_singleton, h.delivered]
          rw [List.getElem?_eq_getElem hk, hhead]
        ordered := by
          rw [List.pairwise_append]
          refine ⟨h.ordered, List.pairwise_singleton _ _, ?_⟩
          intro i hi j hj
          rw [List.mem_singleton.mp hj]
          exact hbelow i hi
        below := by
          intro i hi
          rw [next_concat]
          rcases List.mem_append.mp hi with hi | hi
          · exact Nat.lt_succ_of_lt (hbelow i hi)
          · rw [List.mem_singleton.mp hi]
            exact Nat.lt_succ_self k
        arrived := by
          rw [next_concat]
          exact hk
        skipped := by
          intro i hi hnot
          rw [next_concat] at hi
          have hold : i ∉ taken := fun hmem => hnot (List.mem_append_left _ hmem)
          have hne : i ≠ k := by
            rintro rfl
            exact hnot (List.mem_append_right _ (List.mem_singleton_self _))
          rcases Nat.lt_or_ge i (next taken) with hlt | hge
          · exact h.skipped i hlt hold
          · omega }

theorem Delivery.run (hpos : 0 < maxsize) (h : Delivery maxsize elements taken s)
    (ops : List (Op α)) :
    ∃ s' taken', s.run maxsize ops = some s' ∧
      Delivery maxsize (elements ++ accepted ops) taken' s' := by
  induction ops generalizing elements taken s with
  | nil =>
      refine ⟨s, taken, rfl, ?_⟩
      rw [accepted, List.filterMap_nil, List.append_nil]
      exact h
  | cons op ops ih =>
      cases op with
      | put a =>
          obtain ⟨s1, hs1, h1⟩ := h.put hpos a
          obtain ⟨s', taken', hrun, h'⟩ := ih h1
          refine ⟨s', taken', ?_, ?_⟩
          · rw [Stream.run, Stream.step, hs1, Option.bind_some]
            exact hrun
          · have haccepted : accepted (.put a :: ops) = a :: accepted ops := rfl
            rw [haccepted, List.append_cons]
            exact h'
      | take =>
          obtain ⟨taken1, h1⟩ := h.take
          exact ih h1

theorem delivery_run (hpos : 0 < maxsize) (ops : List (Op α)) :
    ∃ s taken, Stream.empty.run maxsize ops = some s ∧ Delivery maxsize (accepted ops) taken s := by
  have h := (delivery_empty maxsize : Delivery maxsize [] [] (Stream.empty : Stream α)).run hpos ops
  rw [List.nil_append] at h
  exact h

theorem Delivery.lost (h : Delivery maxsize elements taken s) {i : Nat} (hnot : i ∉ taken) :
    (next taken ≤ i ∧ elements.length - maxsize ≤ i) ∨ i + maxsize < elements.length := by
  rcases Nat.lt_or_ge i (next taken) with hlt | hge
  · exact .inr (h.skipped i hlt hnot)
  · omega

end Delivery

end BoundedQueue
