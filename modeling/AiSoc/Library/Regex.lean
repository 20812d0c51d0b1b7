import Mathlib.Algebra.BigOperators.Group.List.Basic
import Mathlib.Algebra.Ring.Int.Defs
import Mathlib.Data.List.TakeWhile

namespace Regex

inductive Pattern where
  | empty
  -- \b
  | boundary
  | one (p : Char → Bool)
  -- greedy
  | star (p : Char → Bool)
  -- as few as possible
  | lazy (p : Char → Bool)
  | seq (r s : Pattern)
  | alt (r s : Pattern)

namespace Pattern

def lit (cs : List Char) : Pattern :=
  cs.foldr (fun c r => .seq (.one fun d => d == c) r) .empty

def plus (p : Char → Bool) : Pattern :=
  .seq (.one p) (.star p)

def opt (p : Char → Bool) : Pattern :=
  .alt (.one p) .empty

def times (p : Char → Bool) : Nat → Pattern
  | 0 => .empty
  | n + 1 => .seq (.one p) (times p n)

end Pattern

section Matching

variable (isWord : Char → Bool)

def wordAt (c : Option Char) : Bool :=
  c.any isWord

-- the character before the rest of a text of which n characters were read
def before (prev : Option Char) (t : List Char) (n : Nat) : Option Char :=
  match n with
  | 0 => prev
  | n + 1 => t[n]?

theorem before_cons (prev : Option Char) (c : Char) (t : List Char) (k : Nat) :
    before (some c) t k = before prev (c :: t) (k + 1) := by
  cases k <;> rfl

-- the lengths that a backtracking matcher tries, in its order
def results : Pattern → Option Char → List Char → List Nat
  | .empty, _, _ => [0]
  | .boundary, prev, t => if wordAt isWord prev = wordAt isWord t.head? then [] else [0]
  | .one p, _, t => if t.head?.any p then [1] else []
  | .star p, _, t => (List.range ((t.takeWhile p).length + 1)).reverse
  | .lazy p, _, t => List.range ((t.takeWhile p).length + 1)
  | .seq r s, prev, t =>
      (results r prev t).flatMap fun n =>
        (results s (before prev t n) (t.drop n)).map fun m => n + m
  | .alt r s, prev, t => results r prev t ++ results s prev t

def matchLength (r : Pattern) (prev : Option Char) (t : List Char) : Option Nat :=
  (results isWord r prev t).head?

-- pattern.sub(marker, text) for a pattern that matches no empty text; the counter skips
-- the rest of a match
def subFrom (r : Pattern) (marker : List Char) : Nat → Option Char → List Char → List Char
  | _, _, [] => []
  | skip + 1, _, c :: t => subFrom r marker skip (some c) t
  | 0, prev, c :: t =>
      match matchLength isWord r prev (c :: t) with
      | some (n + 1) => marker ++ subFrom r marker n (some c) t
      | _ => c :: subFrom r marker 0 (some c) t

def sub (r : Pattern) (marker t : List Char) : List Char :=
  subFrom isWord r marker 0 none t

def marksFrom (r : Pattern) : Nat → Option Char → List Char → List (Option Nat)
  | _, _, [] => []
  | skip + 1, _, c :: t => none :: marksFrom r skip (some c) t
  | 0, prev, c :: t =>
      match matchLength isWord r prev (c :: t) with
      | some (n + 1) => some n :: marksFrom r n (some c) t
      | _ => none :: marksFrom r 0 (some c) t

def marks (r : Pattern) (t : List Char) : List (Option Nat) :=
  marksFrom isWord r 0 none t

def lengths (found : List (Option Nat)) : List Nat :=
  found.filterMap fun mark => mark.map (· + 1)

def matched (r : Pattern) (t : List Char) : List Nat :=
  lengths (marks isWord r t)

variable {isWord} {r : Pattern} {prev : Option Char} {t : List Char}

theorem results_le {n : Nat} (h : n ∈ results isWord r prev t) : n ≤ t.length := by
  induction r generalizing prev t n with
  | empty =>
      obtain rfl := List.mem_singleton.mp h
      exact Nat.zero_le _
  | boundary =>
      simp only [results] at h
      split at h
      · cases h
      · obtain rfl := List.mem_singleton.mp h
        exact Nat.zero_le _
  | one p =>
      simp only [results] at h
      split at h
      · rename_i hc
        obtain rfl := List.mem_singleton.mp h
        cases t with
        | nil => cases hc
        | cons c t => exact Nat.succ_le_succ (Nat.zero_le _)
      · cases h
  | star p =>
      have hlt := List.mem_range.mp (List.mem_reverse.mp h)
      have hle := (List.takeWhile_prefix p (l := t)).length_le
      omega
  | lazy p =>
      have hlt := List.mem_range.mp h
      have hle := (List.takeWhile_prefix p (l := t)).length_le
      omega
  | seq r s ihr ihs =>
      obtain ⟨k, hk, hrest⟩ := List.mem_flatMap.mp h
      obtain ⟨m, hm, rfl⟩ := List.mem_map.mp hrest
      have hk' := ihr hk
      have hm' := ihs hm
      rw [List.length_drop] at hm'
      omega
  | alt r s ihr ihs =>
      rcases List.mem_append.mp h with h | h
      · exact ihr h
      · exact ihs h

theorem matchLength_mem {n : Nat} (h : matchLength isWord r prev t = some n) :
    n ∈ results isWord r prev t :=
  List.mem_of_mem_head? h

theorem matchLength_le {n : Nat} (h : matchLength isWord r prev t = some n) : n ≤ t.length :=
  results_le (matchLength_mem h)

theorem head?_map_add (n : Nat) (ns : List Nat) :
    (ns.map fun m => n + m).head? = ns.head?.map (· + n) := by
  cases ns with
  | nil => rfl
  | cons m ns => simp [Nat.add_comm]

def growth (marker : Nat) (ns : List Nat) : Int :=
  (ns.map fun n : Nat => (marker : Int) - n).sum

theorem length_subFrom (marker : List Char) (prev : Option Char) {skip : Nat}
    (hskip : skip ≤ t.length) :
    ((subFrom isWord r marker skip prev t).length : Int) =
      t.length - skip + growth marker.length (lengths (marksFrom isWord r skip prev t)) := by
  induction t generalizing prev skip with
  | nil =>
      obtain rfl : skip = 0 := Nat.le_zero.mp hskip
      rfl
  | cons c t ih =>
      cases skip with
      | succ skip =>
          have hrest := ih (some c) (Nat.le_of_succ_le_succ hskip)
          simp only [subFrom, marksFrom, lengths, List.filterMap_cons, Option.map_none,
            List.length_cons] at hrest ⊢
          omega
      | zero =>
          simp only [subFrom, marksFrom]
          split
          · rename_i n hmatch
            have hlength := matchLength_le hmatch
            have hrest := ih (some c) (Nat.le_of_succ_le_succ hlength)
            simp only [growth, lengths, List.filterMap_cons, Option.map_some, List.map_cons,
              List.sum_cons, List.length_append, List.length_cons] at hrest ⊢
            omega
          · have hrest := ih (some c) (Nat.zero_le _)
            simp only [lengths, List.filterMap_cons, Option.map_none, List.length_cons] at hrest ⊢
            omega

variable (isWord) in
theorem length_sub (r : Pattern) (marker t : List Char) :
    ((sub isWord r marker t).length : Int) =
      t.length + growth marker.length (matched isWord r t) := by
  have hlength : ((subFrom isWord r marker 0 none t).length : Int) = _ :=
    length_subFrom marker none (Nat.zero_le t.length)
  rw [sub, hlength, matched, marks]
  omega

end Matching

end Regex
