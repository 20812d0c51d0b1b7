import AiSoc.Library.Regex
import Mathlib.Data.List.Infix

namespace Regex

-- some n at k: the n + 1 characters from k on are replaced
abbrev Marks := Nat → Option Nat

namespace Marks

def shift (m : Marks) (k : Nat) : Marks :=
  fun i => m (i + k)

def union (m j : Marks) : Marks :=
  fun k => (m k).or (j k)

def ofList (found : List (Option Nat)) : Marks :=
  fun k => found[k]?.join

def Free (m : Marks) (k : Nat) : Prop :=
  ∀ i n, m i = some n → i < k → i + n < k

def Outside (m : Marks) (k : Nat) : Prop :=
  ∀ i n, m i = some n → i ≤ k → i + n < k

def Laminar (m : Marks) : Prop :=
  ∀ k n, m k = some n → ∀ i ≤ n, ∀ l, m (k + i) = some l → i + l ≤ n

def Unnested (m : Marks) : Prop :=
  ∀ k n, m k = some n → ∀ i, 1 ≤ i → i ≤ n → m (k + i) = none

structure Nested (m j : Marks) : Prop where
  ends : ∀ k n, j k = some n → ∀ i ≤ n, ∀ l, m (k + i) = some l → i + l ≤ n
  starts : ∀ k n, m k = some n → ∀ i ≤ n, j (k + i) = none

theorem shift_shift (m : Marks) (k l : Nat) : (m.shift k).shift l = m.shift (l + k) := by
  funext i
  simp only [shift, Nat.add_assoc]

theorem shift_apply_zero (m : Marks) (k : Nat) : m.shift k 0 = m k := by
  rw [shift, Nat.zero_add]

theorem ofList_cons_zero (mark : Option Nat) (found : List (Option Nat)) :
    ofList (mark :: found) 0 = mark := by
  cases mark <;> rfl

theorem union_left {m j : Marks} {k n : Nat} (h : m k = some n) : m.union j k = some n := by
  rw [union, h, Option.some_or]

theorem union_right {m j : Marks} {k : Nat} {mark : Option Nat} (hm : m k = none)
    (hj : j k = mark) : m.union j k = mark := by
  rw [union, hm, hj, Option.none_or]

theorem union_none {m j : Marks} {k : Nat} (hm : m k = none) (hj : j k = none) :
    m.union j k = none :=
  union_right hm hj

theorem Outside.free {m : Marks} {k : Nat} (h : m.Outside k) : m.Free k :=
  fun i n hi hlt => h i n hi (Nat.le_of_lt hlt)

theorem Outside.eq_none {m : Marks} {k : Nat} (h : m.Outside k) : m k = none := by
  cases hm : m k with
  | none => rfl
  | some n =>
      have hreach := h k n hm (Nat.le_refl k)
      omega

theorem Free.outside {m : Marks} {k : Nat} (h : m.Free k) (hk : m k = none) : m.Outside k := by
  intro i n hi hle
  rcases Nat.lt_or_eq_of_le hle with hlt | rfl
  · exact h i n hi hlt
  · rw [hk] at hi
    cases hi

theorem Free.zero (m : Marks) : m.Free 0 :=
  fun i _ _ hi => absurd hi (Nat.not_lt_zero i)

theorem Free.succ {m : Marks} {k : Nat} (h : m.Free k) (hk : m k = none) : m.Free (k + 1) := by
  intro i n hi hlt
  rcases Nat.lt_succ_iff_lt_or_eq.mp hlt with hlt | rfl
  · exact Nat.lt_succ_of_lt (h i n hi hlt)
  · rw [hk] at hi
    cases hi

theorem Free.after {m : Marks} {k n : Nat} (h : m.Free k)
    (hends : ∀ i ≤ n, ∀ l, m (k + i) = some l → i + l ≤ n) : m.Free (k + n + 1) := by
  intro i l hi hlt
  rcases Nat.lt_or_ge i k with hbefore | hle
  · have hreach := h i l hi hbefore
    omega
  · obtain ⟨d, rfl⟩ := Nat.exists_eq_add_of_le hle
    have hreach := hends d (by omega) l hi
    omega

theorem Free.after_none {m : Marks} {k n : Nat} (h : m.Free k)
    (hnone : ∀ i ≤ n, m (k + i) = none) : m.Free (k + n + 1) :=
  h.after fun i hi l hl => by
    rw [hnone i hi] at hl
    cases hl

theorem Free.union {m j : Marks} {k : Nat} (h : m.Free k) (h' : j.Free k) : (m.union j).Free k := by
  intro i n hi
  rcases Option.or_eq_some_iff.mp hi with hi | ⟨_, hi⟩
  · exact h i n hi
  · exact h' i n hi

theorem Free.shift {m : Marks} {k l : Nat} (h : m.Free (l + k)) : (m.shift k).Free l := by
  intro i n hi hlt
  have hreach := h (i + k) n hi (by omega)
  omega

theorem Unnested.laminar {m : Marks} (h : m.Unnested) : m.Laminar := by
  intro k n hk i hi l hl
  cases i with
  | zero =>
      rw [Nat.add_zero, hk] at hl
      rw [Nat.zero_add, Option.some.inj hl]
  | succ i =>
      rw [h k n hk (i + 1) (Nat.succ_pos i) hi] at hl
      cases hl

theorem Nested.eq_none {m j : Marks} (h : m.Nested j) {k n : Nat} (hk : j k = some n) :
    m k = none := by
  cases hm : m k with
  | none => rfl
  | some l =>
      have hnone := h.starts k l hm 0 (Nat.zero_le l)
      rw [Nat.add_zero, hk] at hnone
      cases hnone

theorem Outside.union {m j : Marks} {k : Nat} (h : m.Outside k) (h' : j.Outside k) :
    (m.union j).Outside k := by
  intro i n hi
  rcases Option.or_eq_some_iff.mp hi with hi | ⟨_, hi⟩
  · exact h i n hi
  · exact h' i n hi

theorem Outside.of_union {m j : Marks} {k : Nat} (h : (m.union j).Outside k)
    (hnested : m.Nested j) : m.Outside k ∧ j.Outside k := by
  constructor
  · intro i n hi
    exact h i n (union_left hi)
  · intro i n hi
    exact h i n (union_right (hnested.eq_none hi) hi)

theorem Laminar.shift {m : Marks} (h : m.Laminar) (k : Nat) : (m.shift k).Laminar := by
  intro i n hi d hd l hl
  refine h (i + k) n hi d hd l ?_
  rw [Nat.add_right_comm]
  exact hl

theorem Laminar.union {m j : Marks} (h : m.Laminar) (h' : j.Laminar) (hnested : m.Nested j) :
    (m.union j).Laminar := by
  intro k n hk i hi l hl
  rcases Option.or_eq_some_iff.mp hk with hk | ⟨_, hk⟩
  · rcases Option.or_eq_some_iff.mp hl with hl | ⟨_, hl⟩
    · exact h k n hk i hi l hl
    · rw [hnested.starts k n hk i hi] at hl
      cases hl
  · rcases Option.or_eq_some_iff.mp hl with hl | ⟨_, hl⟩
    · exact hnested.ends k n hk i hi l hl
    · exact h' k n hk i hi l hl

end Marks

section Blank

variable {marker : List Char}

def blank (marker : List Char) : Nat → Marks → List Char → List Char
  | _, _, [] => []
  | skip + 1, m, _ :: t => blank marker skip (m.shift 1) t
  | 0, m, c :: t =>
      match m 0 with
      | some n => marker ++ blank marker n (m.shift 1) t
      | none => c :: blank marker 0 (m.shift 1) t

theorem blank_nil (skip : Nat) (m : Marks) : blank marker skip m [] = [] := by
  simp only [blank]

theorem blank_kept {m : Marks} {c : Char} {t : List Char} (h : m 0 = none) :
    blank marker 0 m (c :: t) = c :: blank marker 0 (m.shift 1) t := by
  simp only [blank, h]

theorem blank_marked {m : Marks} {n : Nat} {c : Char} {t : List Char} (h : m 0 = some n) :
    blank marker 0 m (c :: t) = marker ++ blank marker n (m.shift 1) t := by
  simp only [blank, h]

theorem blank_skip (skip : Nat) (m : Marks) (t : List Char) :
    blank marker skip m t = blank marker 0 (m.shift skip) (t.drop skip) := by
  induction t generalizing skip m with
  | nil => rw [List.drop_nil, blank_nil, blank_nil]
  | cons c t ih =>
      cases skip with
      | zero => rfl
      | succ skip =>
          rw [List.drop_succ_cons, ← Marks.shift_shift, ← ih skip (m.shift 1)]
          rfl

theorem blank_take_drop {skip l : Nat} {m : Marks} (t : List Char) (hskip : skip ≤ l)
    (h : ∀ i n, skip ≤ i → i < l → m i = some n → i + n < l) :
    blank marker skip m t =
      blank marker skip m (t.take l) ++ blank marker 0 (m.shift l) (t.drop l) := by
  induction t generalizing skip m l with
  | nil => rw [List.take_nil, List.drop_nil, blank_nil, blank_nil, List.append_nil]
  | cons c t ih =>
      have hnext : ∀ {skip' l'}, (∀ i n, skip' + 1 ≤ i → i < l' + 1 → m i = some n → i + n < l' + 1) →
          ∀ i n, skip' ≤ i → i < l' → m.shift 1 i = some n → i + n < l' := by
        intro skip' l' hall i n hle hlt hi
        have hreach := hall (i + 1) n (Nat.succ_le_succ hle) (Nat.succ_lt_succ hlt) hi
        omega
      cases l with
      | zero =>
          obtain rfl : skip = 0 := Nat.le_zero.mp hskip
          rw [List.take_zero, List.drop_zero, blank_nil, List.nil_append]
          rfl
      | succ l =>
          rw [List.take_succ_cons, List.drop_succ_cons, ← Marks.shift_shift]
          cases skip with
          | succ skip => exact ih (Nat.le_of_succ_le_succ hskip) (hnext h)
          | zero =>
              cases hm : m 0 with
              | some n =>
                  have hn := h 0 n (Nat.le_refl 0) (Nat.succ_pos l) hm
                  rw [blank_marked hm, blank_marked hm, List.append_assoc]
                  refine congrArg (marker ++ ·) (ih (by omega) (hnext fun i k hle => ?_))
                  exact h i k (Nat.zero_le i)
              | none =>
                  rw [blank_kept hm, blank_kept hm, List.cons_append]
                  refine congrArg (c :: ·) (ih (Nat.zero_le l) (hnext fun i k _ => ?_))
                  exact h i k (Nat.zero_le i)

theorem mem_blank {skip : Nat} {m : Marks} {t : List Char} {c : Char}
    (h : c ∈ blank marker skip m t) : c ∈ marker ∨ c ∈ t := by
  induction t generalizing skip m with
  | nil =>
      rw [blank_nil] at h
      cases h
  | cons d t ih =>
      have hlater : ∀ {skip}, c ∈ blank marker skip (m.shift 1) t → c ∈ marker ∨ c ∈ d :: t :=
        fun hc => (ih hc).imp_right (List.mem_cons_of_mem d)
      cases skip with
      | succ skip => exact hlater h
      | zero =>
          cases hm : m 0 with
          | some n =>
              rw [blank_marked hm] at h
              exact (List.mem_append.mp h).elim .inl hlater
          | none =>
              rw [blank_kept hm] at h
              rcases List.mem_cons.mp h with rfl | h
              · exact .inr List.mem_cons_self
              · exact hlater h

theorem blank_ne_nil {m : Marks} {t : List Char} (hmarker : marker ≠ []) (ht : t ≠ []) :
    blank marker 0 m t ≠ [] := by
  obtain ⟨c, t, rfl⟩ := List.exists_cons_of_ne_nil ht
  cases hm : m 0 with
  | some n =>
      rw [blank_marked hm]
      exact List.append_ne_nil_of_left_ne_nil hmarker _
  | none =>
      rw [blank_kept hm]
      exact List.cons_ne_nil _ _

theorem blank_of_none {m : Marks} {t : List Char} (h : ∀ i < t.length, m i = none) :
    blank marker 0 m t = t := by
  induction t generalizing m with
  | nil => exact blank_nil 0 m
  | cons c t ih =>
      rw [blank_kept (h 0 (Nat.succ_pos _))]
      exact congrArg (c :: ·) (ih fun i hi => h (i + 1) (Nat.succ_lt_succ hi))

theorem blank_of_start {m : Marks} {s t : List Char} (hs : s <+: t) (h : ∀ i < s.length, m i = none) :
    blank marker 0 m t = s ++ blank marker 0 (m.shift s.length) (t.drop s.length) := by
  obtain ⟨r, rfl⟩ := hs
  rw [blank_take_drop (s ++ r) (Nat.zero_le s.length) fun i l _ hi hl => ?_, List.take_left,
    blank_of_none h]
  rw [h i hi] at hl
  cases hl

def blankFrom (marker : List Char) (m : Marks) (t : List Char) (k : Nat) : List Char :=
  blank marker 0 (m.shift k) (t.drop k)

theorem blankFrom_kept {m : Marks} {t : List Char} {c : Char} {k : Nat} (hc : t[k]? = some c)
    (h : m k = none) : blankFrom marker m t k = c :: blankFrom marker m t (k + 1) := by
  obtain ⟨hlt, rfl⟩ := List.getElem?_eq_some_iff.mp hc
  have hzero : m.shift k 0 = none := by rw [Marks.shift_apply_zero, h]
  rw [blankFrom, List.drop_eq_getElem_cons hlt, blank_kept hzero, Marks.shift_shift, Nat.add_comm 1 k]
  rfl

theorem blankFrom_marked {m : Marks} {t : List Char} {k n : Nat} (hlt : k < t.length)
    (h : m k = some n) : blankFrom marker m t k = marker ++ blankFrom marker m t (k + n + 1) := by
  have hzero : m.shift k 0 = some n := by rw [Marks.shift_apply_zero, h]
  rw [blankFrom, List.drop_eq_getElem_cons hlt, blank_marked hzero, blank_skip, Marks.shift_shift,
    Marks.shift_shift, List.drop_drop, blankFrom]
  have hsum : n + 1 + k = k + n + 1 := by omega
  have hsum' : k + 1 + n = k + n + 1 := by omega
  rw [hsum, hsum']

theorem blankFrom_end {m : Marks} {t : List Char} {k : Nat} (h : t.length ≤ k) :
    blankFrom marker m t k = [] := by
  rw [blankFrom, List.drop_eq_nil_of_le h, blank_nil]

theorem blankFrom_split {m : Marks} {k n : Nat} (t : List Char)
    (h : ∀ i ≤ n, ∀ l, m (k + i) = some l → i + l ≤ n) :
    blankFrom marker m t k =
      blank marker 0 (m.shift k) ((t.drop k).take (n + 1)) ++ blankFrom marker m t (k + n + 1) := by
  have hinside : ∀ i l, 0 ≤ i → i < n + 1 → m.shift k i = some l → i + l < n + 1 := by
    intro i l _ hi hl
    have hreach := h i (Nat.le_of_lt_succ hi) l (by rw [Nat.add_comm]; exact hl)
    omega
  rw [blankFrom, blank_take_drop (t.drop k) (Nat.zero_le (n + 1)) hinside, Marks.shift_shift,
    List.drop_drop, blankFrom]
  have hsum : n + 1 + k = k + n + 1 := by omega
  rw [hsum, ← Nat.add_assoc]

end Blank

section Gaps

variable {marker : List Char} {w : Char}

def gap : Marks → List Char → List Char
  | _, [] => []
  | m, c :: t =>
      match m 0 with
      | some _ => []
      | none => c :: gap (m.shift 1) t

theorem gap_kept {m : Marks} {c : Char} {t : List Char} (h : m 0 = none) :
    gap m (c :: t) = c :: gap (m.shift 1) t := by
  simp only [gap, h]

theorem gap_marked {m : Marks} {n : Nat} {c : Char} {t : List Char} (h : m 0 = some n) :
    gap m (c :: t) = [] := by
  simp only [gap, h]

theorem gap_of_none {m : Marks} {t : List Char} (h : ∀ i, m i = none) : gap m t = t := by
  induction t generalizing m with
  | nil => simp only [gap]
  | cons c t ih =>
      have hrest : ∀ i, m.shift 1 i = none := fun i => h (i + 1)
      rw [gap_kept (h 0), ih hrest]

theorem none_of_lt_gap {m : Marks} {t : List Char} {i : Nat} (h : i < (gap m t).length) :
    m i = none := by
  induction t generalizing m i with
  | nil =>
      simp only [gap] at h
      cases h
  | cons c t ih =>
      cases hm : m 0 with
      | some n =>
          rw [gap_marked hm] at h
          cases h
      | none =>
          rw [gap_kept hm] at h
          cases i with
          | zero => exact hm
          | succ i =>
              have hrest : m.shift 1 i = none := ih (Nat.lt_of_succ_lt_succ h)
              exact hrest

variable (marker) in
theorem gap_split (m : Marks) (t : List Char) :
    ∃ a b, t = gap m t ++ a ∧ blank marker 0 m t = gap m t ++ b ∧
      ((a = [] ∧ b = []) ∨
        ∃ x a' b', a = x :: a' ∧ b = marker ++ b' ∧ (m (gap m t).length).isSome) := by
  induction t generalizing m with
  | nil => exact ⟨[], [], by simp only [gap, List.append_nil], blank_nil 0 m, .inl ⟨rfl, rfl⟩⟩
  | cons c t ih =>
      cases hm : m 0 with
      | some n =>
          rw [gap_marked hm, blank_marked hm]
          refine ⟨c :: t, _, rfl, rfl, .inr ⟨c, t, _, rfl, rfl, ?_⟩⟩
          rw [List.length_nil, hm]
          rfl
      | none =>
          obtain ⟨a, b, ht, hb, hend⟩ := ih (m.shift 1)
          rw [gap_kept hm, blank_kept hm]
          exact ⟨a, b, by rw [List.cons_append, ← ht], by rw [List.cons_append, ← hb], hend⟩

theorem head_of_gap {m : Marks} {t a b : List Char} (hmarker : marker.head? = some w)
    (hend : (a = [] ∧ b = []) ∨
      ∃ x a' b', a = x :: a' ∧ b = marker ++ b' ∧ (m (gap m t).length).isSome) :
    b.head? = some w ∨ b = [] := by
  rcases hend with ⟨_, hb⟩ | ⟨_, _, b', _, rfl, _⟩
  · exact .inr hb
  · exact .inl (by rw [List.head?_append, hmarker]; rfl)

theorem prefix_of_append {s u b : List Char} (hs : s <+: u ++ b) (hw : w ∉ s)
    (hb : b.head? = some w ∨ b = []) : s <+: u := by
  induction s generalizing u with
  | nil => exact List.nil_prefix
  | cons c s ih =>
      have hws : w ∉ s := fun h => hw (List.mem_cons_of_mem _ h)
      cases u with
      | nil =>
          rcases hb with hb | rfl
          · obtain ⟨d, b, rfl⟩ := List.exists_cons_of_ne_nil (fun h : b = [] => by simp [h] at hb)
            obtain rfl : d = w := Option.some.inj hb
            obtain ⟨rfl, _⟩ := List.cons_prefix_cons.mp hs
            exact absurd List.mem_cons_self hw
          · cases List.prefix_nil.mp hs
      | cons d u =>
          obtain ⟨rfl, hrest⟩ := List.cons_prefix_cons.mp hs
          exact List.cons_prefix_cons.mpr ⟨rfl, ih hrest hws⟩

theorem prefix_gap_of_blank {m : Marks} {s t : List Char} (hw : w ∉ s)
    (hmarker : marker.head? = some w) (hs : s <+: blank marker 0 m t) : s <+: gap m t := by
  obtain ⟨a, b, _, hblank, hend⟩ := gap_split marker m t
  rw [hblank] at hs
  exact prefix_of_append hs hw (head_of_gap hmarker hend)

variable (marker) in
theorem gap_starts (m : Marks) (t : List Char) : gap m t <+: t ∧ gap m t <+: blank marker 0 m t := by
  obtain ⟨a, b, ht, hblank, _⟩ := gap_split marker m t
  exact ⟨⟨a, ht.symm⟩, ⟨b, hblank.symm⟩⟩

theorem prefix_of_blank {m : Marks} {s t : List Char} (hw : w ∉ s)
    (hmarker : marker.head? = some w) (hs : s <+: blank marker 0 m t) : s <+: t :=
  (prefix_gap_of_blank hw hmarker hs).trans (gap_starts marker m t).1

theorem infix_of_append {s l r : List Char} (hne : s ≠ []) (hhead : ∀ c ∈ s.head?, c ∉ l)
    (h : s <:+: l ++ r) : s <:+: r := by
  induction l with
  | nil => exact h
  | cons x l ih =>
      rcases List.infix_cons_iff.mp h with hstart | hinside
      · obtain ⟨c, s, rfl⟩ := List.exists_cons_of_ne_nil hne
        obtain ⟨rfl, _⟩ := List.cons_prefix_cons.mp hstart
        exact absurd List.mem_cons_self (hhead c rfl)
      · exact ih (fun c hc hmem => hhead c hc (List.mem_cons_of_mem _ hmem)) hinside

theorem infix_of_blank {skip : Nat} {m : Marks} {s t : List Char} (hw : w ∉ s)
    (hmarker : marker.head? = some w) (hne : s ≠ []) (hhead : ∀ c ∈ s.head?, c ∉ marker)
    (h : s <:+: blank marker skip m t) : s <:+: t := by
  induction t generalizing skip m with
  | nil =>
      rw [blank_nil] at h
      exact absurd (List.infix_nil.mp h) hne
  | cons c t ih =>
      cases skip with
      | succ skip => exact List.infix_cons (ih h)
      | zero =>
          cases hm : m 0 with
          | some n =>
              rw [blank_marked hm] at h
              exact List.infix_cons (ih (infix_of_append hne hhead h))
          | none =>
              have hkept : blank marker 0 m (c :: t) = c :: blank marker 0 (m.shift 1) t :=
                blank_kept hm
              rw [hkept] at h
              rcases List.infix_cons_iff.mp h with hstart | hinside
              · rw [← hkept] at hstart
                exact (prefix_of_blank hw hmarker hstart).isInfix
              · exact List.infix_cons (ih hinside)

end Gaps

end Regex
