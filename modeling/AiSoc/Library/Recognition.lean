import AiSoc.Library.Regex

namespace Regex

section Recognition

variable {isWord : Char → Bool} {r q : Pattern} {language language' : List Char → Prop}

def Recognises (isWord : Char → Bool) (r : Pattern) (language : List Char → Prop) : Prop :=
  ∀ prev t n, n ∈ results isWord r prev t ↔ ∃ s, language s ∧ s <+: t ∧ n = s.length

def Concat (language language' : List Char → Prop) (s : List Char) : Prop :=
  ∃ l l', language l ∧ language' l' ∧ s = l ++ l'

theorem mem_results_seq {prev : Option Char} {t : List Char} {n : Nat} :
    n ∈ results isWord (.seq r q) prev t ↔
      ∃ k ∈ results isWord r prev t,
        ∃ m ∈ results isWord q (before prev t k) (t.drop k), k + m = n := by
  simp only [results, List.mem_flatMap, List.mem_map]

theorem append_prefix_iff {l l' t : List Char} :
    l ++ l' <+: t ↔ l <+: t ∧ l' <+: t.drop l.length := by
  constructor
  · rintro ⟨rest, rfl⟩
    rw [List.append_assoc, List.drop_left]
    exact ⟨List.prefix_append _ _, List.prefix_append _ _⟩
  · rintro ⟨⟨rest, rfl⟩, hl'⟩
    rw [List.drop_left] at hl'
    exact (List.prefix_append_right_inj l).mpr hl'

theorem recognises_empty : Recognises isWord .empty fun s => s = [] := by
  intro prev t n
  constructor
  · intro h
    obtain rfl := List.mem_singleton.mp h
    exact ⟨[], rfl, List.nil_prefix, rfl⟩
  · rintro ⟨s, rfl, _, rfl⟩
    exact List.mem_singleton_self 0

theorem recognises_one (p : Char → Bool) :
    Recognises isWord (.one p) fun s => ∃ c, s = [c] ∧ p c = true := by
  intro prev t n
  constructor
  · intro h
    cases t with
    | nil => cases h
    | cons c t =>
        by_cases hc : p c = true
        · simp only [results, List.head?_cons, Option.any_some, hc, if_true] at h
          obtain rfl := List.mem_singleton.mp h
          exact ⟨[c], ⟨c, rfl, hc⟩, List.prefix_append [c] t, rfl⟩
        · simp [results, hc] at h
  · rintro ⟨s, ⟨c, rfl, hc⟩, ⟨t, rfl⟩, rfl⟩
    simp [results, hc]

theorem recognises_star (p : Char → Bool) :
    Recognises isWord (.star p) fun s => ∀ c ∈ s, p c = true := by
  intro prev t n
  simp only [results, List.mem_reverse, List.mem_range]
  constructor
  · intro h
    refine ⟨(t.takeWhile p).take n, ?_, ?_, ?_⟩
    · exact fun c hc => List.mem_takeWhile_imp (List.mem_of_mem_take hc)
    · exact (List.take_prefix n _).trans (List.takeWhile_prefix p)
    · rw [List.length_take]
      omega
  · rintro ⟨s, hs, ⟨rest, rfl⟩, rfl⟩
    rw [List.takeWhile_append_of_pos hs, List.length_append]
    omega

theorem Recognises.seq (h : Recognises isWord r language) (h' : Recognises isWord q language') :
    Recognises isWord (.seq r q) (Concat language language') := by
  intro prev t n
  rw [mem_results_seq]
  constructor
  · rintro ⟨k, hk, m, hm, rfl⟩
    obtain ⟨l, hl, hstart, rfl⟩ := (h prev t k).mp hk
    obtain ⟨l', hl', hstart', rfl⟩ := (h' _ _ m).mp hm
    refine ⟨l ++ l', ⟨l, l', hl, hl', rfl⟩, append_prefix_iff.mpr ⟨hstart, hstart'⟩, ?_⟩
    rw [List.length_append]
  · rintro ⟨s, ⟨l, l', hl, hl', rfl⟩, hstart, rfl⟩
    obtain ⟨hstart, hstart'⟩ := append_prefix_iff.mp hstart
    refine ⟨l.length, (h prev t _).mpr ⟨l, hl, hstart, rfl⟩, l'.length, ?_, ?_⟩
    · exact (h' _ _ _).mpr ⟨l', hl', hstart', rfl⟩
    · rw [List.length_append]

theorem Recognises.alt (h : Recognises isWord r language) (h' : Recognises isWord q language') :
    Recognises isWord (.alt r q) fun s => language s ∨ language' s := by
  intro prev t n
  simp only [results, List.mem_append, h prev t n, h' prev t n]
  constructor
  · rintro (⟨s, hs, hrest⟩ | ⟨s, hs, hrest⟩)
    · exact ⟨s, .inl hs, hrest⟩
    · exact ⟨s, .inr hs, hrest⟩
  · rintro ⟨s, hs | hs, hrest⟩
    · exact .inl ⟨s, hs, hrest⟩
    · exact .inr ⟨s, hs, hrest⟩

theorem Recognises.of_iff (h : Recognises isWord r language)
    (hiff : ∀ s, language s ↔ language' s) : Recognises isWord r language' := by
  obtain rfl : language = language' := funext fun s => propext (hiff s)
  exact h

theorem recognises_lit (cs : List Char) : Recognises isWord (.lit cs) fun s => s = cs := by
  induction cs with
  | nil => exact recognises_empty
  | cons c cs ih =>
      refine ((recognises_one _).seq ih).of_iff fun s => ?_
      constructor
      · rintro ⟨_, _, ⟨d, rfl, hd⟩, rfl, rfl⟩
        rw [eq_of_beq hd, List.singleton_append]
      · rintro rfl
        exact ⟨[c], cs, ⟨c, rfl, beq_self_eq_true c⟩, rfl, rfl⟩

theorem recognises_times (p : Char → Bool) (n : Nat) :
    Recognises isWord (.times p n) fun s => s.length = n ∧ ∀ c ∈ s, p c = true := by
  induction n with
  | zero =>
      refine recognises_empty.of_iff fun s => ?_
      constructor
      · rintro rfl
        exact ⟨rfl, nofun⟩
      · rintro ⟨hs, _⟩
        exact List.length_eq_zero_iff.mp hs
  | succ n ih =>
      refine ((recognises_one p).seq ih).of_iff fun s => ?_
      constructor
      · rintro ⟨_, l, ⟨c, rfl, hc⟩, ⟨hlength, hl⟩, rfl⟩
        rw [List.singleton_append, List.length_cons, hlength]
        exact ⟨rfl, List.forall_mem_cons.mpr ⟨hc, hl⟩⟩
      · rintro ⟨hlength, hs⟩
        cases s with
        | nil => cases hlength
        | cons c s =>
            obtain ⟨hc, hrest⟩ := List.forall_mem_cons.mp hs
            exact ⟨[c], s, ⟨c, rfl, hc⟩, ⟨Nat.succ.inj hlength, hrest⟩, rfl⟩

theorem before_prefix {prev : Option Char} {l t : List Char} {c : Char} (h : l ++ [c] <+: t) :
    before prev t (l ++ [c]).length = some c := by
  obtain ⟨rest, rfl⟩ := h
  rw [List.length_append, List.length_singleton, before, List.append_assoc,
    List.getElem?_append_right (Nat.le_refl _), Nat.sub_self, List.singleton_append,
    List.getElem?_cons_zero]

theorem mem_results_boundary (h : Recognises isWord r language)
    (hlast : ∀ s, language s → ∃ l c, s = l ++ [c] ∧ isWord c = true) {prev : Option Char}
    {t : List Char} {n : Nat} (hn : n ∈ results isWord (.seq r .boundary) prev t) :
    (∃ s, language s ∧ s <+: t ∧ n = s.length) ∧ ∀ y, t[n]? = some y → isWord y = false := by
  obtain ⟨k, hk, m, hm, rfl⟩ := mem_results_seq.mp hn
  obtain ⟨s, hs, hstart, rfl⟩ := (h prev t k).mp hk
  obtain ⟨l, c, rfl, hc⟩ := hlast s hs
  simp only [results, before_prefix hstart, wordAt, Option.any_some, hc] at hm
  split at hm
  · cases hm
  · rename_i hend
    obtain rfl := List.mem_singleton.mp hm
    refine ⟨⟨l ++ [c], hs, hstart, rfl⟩, fun y hy => ?_⟩
    rw [Nat.add_zero, ← List.head?_drop] at hy
    rw [hy, Option.any_some] at hend
    exact Bool.eq_false_iff.mpr fun hword => hend hword.symm

end Recognition

section Spelling

variable {isWord : Char → Bool} {r q : Pattern} {language : List Char → Prop}

structure Spells (isWord : Char → Bool) (r : Pattern) (language : List Char → Prop) : Prop where
  recognises : Recognises isWord r language
  unique : ∀ {s s' t}, language s → language s' → s <+: t → s' <+: t → s = s'

theorem matchLength_seq (r q : Pattern) (prev : Option Char) (t : List Char) :
    matchLength isWord (.seq r q) prev t =
      (results isWord r prev t).findSome? fun n =>
        (matchLength isWord q (before prev t n) (t.drop n)).map (· + n) := by
  simp only [matchLength, results, List.head?_flatMap, head?_map_add]

theorem Spells.matchLength_iff (h : Spells isWord r language) {prev : Option Char} {t : List Char}
    {n : Nat} : matchLength isWord r prev t = some n ↔ ∃ s, language s ∧ s <+: t ∧ n = s.length := by
  constructor
  · intro hn
    exact (h.recognises _ _ _).mp (matchLength_mem hn)
  · rintro ⟨s, hs, hstart, rfl⟩
    have hmem : s.length ∈ results isWord r prev t := (h.recognises _ _ _).mpr ⟨s, hs, hstart, rfl⟩
    cases hmatch : matchLength isWord r prev t with
    | none =>
        rw [List.head?_eq_none_iff.mp hmatch] at hmem
        cases hmem
    | some k =>
        obtain ⟨s', hs', hstart', rfl⟩ := (h.recognises _ _ _).mp (matchLength_mem hmatch)
        rw [h.unique hs' hs hstart' hstart]

theorem Spells.matchLength_seq_iff (h : Spells isWord r language) {prev : Option Char}
    {t : List Char} {n : Nat} :
    matchLength isWord (.seq r q) prev t = some n ↔
      ∃ s k, language s ∧ s <+: t ∧
        matchLength isWord q (before prev t s.length) (t.drop s.length) = some k ∧
        n = k + s.length := by
  rw [matchLength_seq]
  constructor
  · intro hn
    obtain ⟨m, hm, hsome⟩ := List.exists_of_findSome?_eq_some hn
    obtain ⟨s, hs, hstart, rfl⟩ := (h.recognises _ _ _).mp hm
    obtain ⟨k, hk, rfl⟩ := Option.map_eq_some_iff.mp hsome
    exact ⟨s, k, hs, hstart, hk, rfl⟩
  · rintro ⟨s, k, hs, hstart, hk, rfl⟩
    cases hfind : (results isWord r prev t).findSome? fun n =>
        (matchLength isWord q (before prev t n) (t.drop n)).map (· + n) with
    | none =>
        have hmem : s.length ∈ results isWord r prev t :=
          (h.recognises _ _ _).mpr ⟨s, hs, hstart, rfl⟩
        have hnone := List.findSome?_eq_none_iff.mp hfind s.length hmem
        rw [hk] at hnone
        cases hnone
    | some b =>
        obtain ⟨m, hm, hsome⟩ := List.exists_of_findSome?_eq_some hfind
        obtain ⟨s', hs', hstart', rfl⟩ := (h.recognises _ _ _).mp hm
        obtain rfl := h.unique hs' hs hstart' hstart
        rw [hk] at hsome
        exact hsome.symm

theorem delimited_unique {w : Char} {start body body' tail t : List Char} (hbody : w ∉ body)
    (hbody' : w ∉ body') (hstart : start ++ body ++ w :: tail <+: t)
    (hstart' : start ++ body' ++ w :: tail <+: t) : body = body' := by
  obtain ⟨rest, rfl⟩ := hstart
  obtain ⟨rest', h⟩ := hstart'
  simp only [List.append_assoc, List.cons_append, List.append_cancel_left_eq] at h
  have hwhile : ∀ {l m : List Char}, w ∉ l → (l ++ w :: m).takeWhile (· != w) = l := by
    intro l m hl
    have hall : ∀ c ∈ l, (c != w) = true := fun c hc =>
      bne_iff_ne.mpr fun hcw => hl (hcw ▸ hc)
    rw [List.takeWhile_append_of_pos hall, List.takeWhile_cons_of_neg (by simp), List.append_nil]
  rw [← hwhile hbody, ← hwhile hbody', h]

end Spelling

end Regex
