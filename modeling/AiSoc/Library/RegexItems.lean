import AiSoc.Library.Regex

namespace Regex

section Equivalence

variable {isWord : Char → Bool}

def Same (isWord : Char → Bool) (r s : Pattern) : Prop :=
  ∀ prev t, results isWord r prev t = results isWord s prev t

variable {r r' s s' q : Pattern}

theorem Same.trans (h : Same isWord r s) (h' : Same isWord s q) : Same isWord r q :=
  fun prev t => (h prev t).trans (h' prev t)

theorem Same.seq (hr : Same isWord r r') (hs : Same isWord s s') :
    Same isWord (.seq r s) (.seq r' s') := by
  intro prev t
  simp only [results, hr prev t]
  refine congrArg (fun f => (results isWord r' prev t).flatMap f) (funext fun n => ?_)
  rw [hs]

theorem Same.alt (hr : Same isWord r r') (hs : Same isWord s s') :
    Same isWord (.alt r s) (.alt r' s') := by
  intro prev t
  simp only [results, hr prev t, hs prev t]

variable (isWord) in
theorem Same.refl (r : Pattern) : Same isWord r r := fun _ _ => rfl

theorem before_before (prev : Option Char) (t : List Char) (n m : Nat) :
    before (before prev t n) (t.drop n) m = before prev t (n + m) := by
  cases m with
  | zero => rfl
  | succ m =>
      simp only [before, List.getElem?_drop]
      rfl

variable (isWord) in
theorem same_assoc (r s q : Pattern) : Same isWord (.seq (.seq r s) q) (.seq r (.seq s q)) := by
  intro prev t
  simp only [results, List.flatMap_assoc, List.map_flatMap, List.flatMap_map, List.map_map,
    before_before, List.drop_drop]
  refine congrArg (fun f => (results isWord r prev t).flatMap f) (funext fun n => ?_)
  refine congrArg (fun f => (results isWord s (before prev t n) (t.drop n)).flatMap f)
    (funext fun m => ?_)
  simp only [Function.comp_def, Nat.add_assoc]

variable (isWord) in
theorem same_alt_seq (r s q : Pattern) :
    Same isWord (.seq (.alt r s) q) (.alt (.seq r q) (.seq s q)) := by
  intro prev t
  simp only [results, List.flatMap_append]

variable (isWord) in
theorem same_empty_seq (r : Pattern) : Same isWord (.seq .empty r) r := by
  intro prev t
  simp [results, before]

variable (isWord) in
theorem same_seq_empty (r : Pattern) : Same isWord (.seq r .empty) r := by
  intro prev t
  simp [results]

theorem Same.symm (h : Same isWord r s) : Same isWord s r :=
  fun prev t => (h prev t).symm

variable (isWord) in
theorem same_one_alt (p : Char → Bool) (r s : Pattern) :
    Same isWord (.seq (.one p) (.alt r s)) (.alt (.seq (.one p) r) (.seq (.one p) s)) := by
  intro prev t
  by_cases hp : t.head?.any p = true
  · simp [results, hp]
  · simp [results, hp]

def word (f : Char → Char → Bool) (cs : List Char) : Pattern :=
  cs.foldr (fun c r => .seq (.one (f c)) r) .empty

variable (isWord) in
theorem same_word_alt (f : Char → Char → Bool) (cs : List Char) (r s : Pattern) :
    Same isWord (.seq (word f cs) (.alt r s)) (.alt (.seq (word f cs) r) (.seq (word f cs) s)) := by
  induction cs with
  | nil =>
      have hleft := same_empty_seq isWord (.alt r s)
      exact hleft.trans ((same_empty_seq isWord r).symm.alt (same_empty_seq isWord s).symm)
  | cons c cs ih =>
      have hassoc := fun q : Pattern => same_assoc isWord (.one (f c)) (word f cs) q
      have hinner := (Same.refl isWord (.one (f c))).seq ih
      have houter := same_one_alt isWord (f c) (.seq (word f cs) r)
        (.seq (word f cs) s)
      exact (hassoc _).trans (hinner.trans (houter.trans ((hassoc r).symm.alt (hassoc s).symm)))

theorem matchLength_same (h : Same isWord r s) (prev : Option Char) (t : List Char) :
    matchLength isWord r prev t = matchLength isWord s prev t := by
  rw [matchLength, matchLength, h prev t]

theorem matchLength_alt (r s : Pattern) (prev : Option Char) (t : List Char) :
    matchLength isWord (.alt r s) prev t =
      (matchLength isWord r prev t).or (matchLength isWord s prev t) :=
  List.head?_append

theorem matchLength_boundary (r : Pattern) (prev : Option Char) (t : List Char) :
    matchLength isWord (.seq .boundary r) prev t =
      if wordAt isWord prev = wordAt isWord t.head? then none else matchLength isWord r prev t := by
  simp only [matchLength, results]
  split
  · rfl
  · simp [before]

end Equivalence

section Items

inductive Item where
  | one (p : Char → Bool)
  | many (p : Char → Bool)

def Item.pattern : Item → Pattern
  | .one p => .one p
  | .many p => .star p

def ofItems (items : List Item) : Pattern :=
  items.foldr (fun item r => .seq item.pattern r) .empty

def letters (f : Char → Char → Bool) (cs : List Char) : List Item :=
  cs.map fun c => .one (f c)

def run : List Item → List Char → Option Nat
  | [], _ => some 0
  | .one p :: items, t =>
      match t with
      | [] => none
      | c :: t => if p c then (run items t).map (· + 1) else none
  | .many p :: items, t => (run items (t.dropWhile p)).map (· + (t.takeWhile p).length)

def Determinate : List Item → Prop
  | [] => True
  | .one _ :: items => Determinate items
  | [.many _] => True
  | .many p :: .one q :: items => (∀ c, p c = true → q c = false) ∧ Determinate (.one q :: items)
  | .many _ :: .many _ :: _ => False

variable {isWord : Char → Bool}

variable (isWord) in
theorem same_word_items (f : Char → Char → Bool) (cs : List Char) {r : Pattern}
    {items : List Item} (h : Same isWord r (ofItems items)) :
    Same isWord (.seq (word f cs) r) (ofItems (letters f cs ++ items)) := by
  induction cs with
  | nil => exact (same_empty_seq isWord r).trans h
  | cons c cs ih =>
      have hassoc := same_assoc isWord (.one (f c)) (word f cs) r
      exact hassoc.trans ((Same.refl isWord (.one (f c))).seq ih)

variable (isWord) in
theorem same_plus (p : Char → Bool) : Same isWord (.plus p) (ofItems [.one p, .many p]) :=
  (Same.refl isWord (.one p)).seq (same_seq_empty isWord (.star p)).symm

theorem determinate_letters (f : Char → Char → Bool) (cs : List Char) {items : List Item}
    (h : Determinate items) : Determinate (letters f cs ++ items) := by
  induction cs with
  | nil => exact h
  | cons c cs ih => exact ih

theorem results_one_seq {p : Char → Bool} {r : Pattern} {prev : Option Char} {c : Char}
    {t : List Char} (h : p c = true) :
    results isWord (.seq (.one p) r) prev (c :: t) =
      (results isWord r (some c) t).map fun n => 1 + n := by
  simp [results, h, before]

theorem results_one_seq_none {p : Char → Bool} {r : Pattern} {prev : Option Char} {t : List Char}
    (h : ∀ c ∈ t.head?, p c = false) : results isWord (.seq (.one p) r) prev t = [] := by
  have hnone : t.head?.any p = false := by
    cases t with
    | nil => rfl
    | cons c t => exact h c rfl
  simp [results, hnone]

theorem results_star_seq {p : Char → Bool} {r : Pattern} {prev : Option Char} {t : List Char} :
    results isWord (.seq (.star p) r) prev t =
      (List.range ((t.takeWhile p).length + 1)).reverse.flatMap fun n =>
        (results isWord r (before prev t n) (t.drop n)).map fun m => n + m := rfl

theorem drop_takeWhile (p : Char → Bool) (t : List Char) :
    t.drop (t.takeWhile p).length = t.dropWhile p := by
  induction t with
  | nil => rfl
  | cons c t ih =>
      by_cases hc : p c = true
      · simpa [hc] using ih
      · simp [hc]

theorem head_drop_lt {p : Char → Bool} {t : List Char} {n : Nat}
    (h : n < (t.takeWhile p).length) : ∀ c ∈ (t.drop n).head?, p c = true := by
  induction t generalizing n with
  | nil => cases h
  | cons c t ih =>
      by_cases hc : p c = true
      · cases n with
        | zero =>
            intro d hd
            obtain rfl := Option.some.inj hd
            exact hc
        | succ n =>
            rw [List.takeWhile_cons_of_pos hc, List.length_cons] at h
            exact ih (Nat.lt_of_succ_lt_succ h)
      · rw [List.takeWhile_cons_of_neg hc] at h
        cases h

theorem run_one_none {p : Char → Bool} {items : List Item} {t : List Char}
    (h : ∀ c ∈ t.head?, p c = false) : run (.one p :: items) t = none := by
  cases t with
  | nil => rfl
  | cons c t => simp [run, h c rfl]

theorem matchLength_star (p : Char → Bool) (prev : Option Char) (t : List Char) :
    matchLength isWord (.star p) prev t = some (t.takeWhile p).length := by
  simp only [matchLength, results, List.range_succ, List.reverse_append, List.reverse_singleton,
    List.singleton_append, List.head?_cons]

theorem matchLength_star_seq {p q : Char → Bool} {r : Pattern}
    (hdisjoint : ∀ c, p c = true → q c = false) (prev : Option Char) (t : List Char) :
    ∃ prev', matchLength isWord (.seq (.star p) (.seq (.one q) r)) prev t =
      (matchLength isWord (.seq (.one q) r) prev' (t.dropWhile p)).map
        (· + (t.takeWhile p).length) := by
  have hless : (List.range (t.takeWhile p).length).reverse.flatMap (fun n =>
      (results isWord (.seq (.one q) r) (before prev t n) (t.drop n)).map fun m => n + m) = [] := by
    rw [List.flatMap_eq_nil_iff]
    intro n hn
    have hlt : n < (t.takeWhile p).length := List.mem_range.mp (List.mem_reverse.mp hn)
    rw [results_one_seq_none fun c hc => hdisjoint c (head_drop_lt hlt c hc), List.map_nil]
  refine ⟨before prev t (t.takeWhile p).length, ?_⟩
  rw [matchLength, results_star_seq, List.range_succ, List.reverse_append,
    List.reverse_singleton, List.singleton_append, List.flatMap_cons, hless, List.append_nil,
    head?_map_add, drop_takeWhile]
  rfl

theorem matchLength_items {items : List Item} (h : Determinate items) (prev : Option Char)
    (t : List Char) : matchLength isWord (ofItems items) prev t = run items t := by
  induction items generalizing prev t with
  | nil => rfl
  | cons item items ih =>
      cases item with
      | one p =>
          cases t with
          | nil => rfl
          | cons c t =>
              by_cases hc : p c = true
              · have hresults : results isWord (ofItems (.one p :: items)) prev (c :: t) =
                    (results isWord (ofItems items) (some c) t).map fun n => 1 + n :=
                  results_one_seq hc
                have hrest := ih h (some c) t
                rw [matchLength] at hrest
                rw [matchLength, hresults, head?_map_add, hrest]
                simp only [run, if_pos hc]
              · have hnone : ∀ d ∈ (c :: t).head?, p d = false := by
                  intro d hd
                  obtain rfl := Option.some.inj hd
                  exact Bool.eq_false_iff.mpr hc
                have hresults : results isWord (ofItems (.one p :: items)) prev (c :: t) = [] :=
                  results_one_seq_none hnone
                rw [matchLength, hresults, run_one_none hnone]
                rfl
      | many p =>
          cases items with
          | nil =>
              have hsame : Same isWord (ofItems [.many p]) (.star p) := same_seq_empty isWord (.star p)
              rw [matchLength_same hsame, matchLength_star]
              simp only [run, Option.map_some, Nat.zero_add]
          | cons next items =>
              cases next with
              | one q =>
                  obtain ⟨hdisjoint, hrest⟩ := h
                  obtain ⟨prev', hstar⟩ :
                      ∃ prev', matchLength isWord (ofItems (.many p :: .one q :: items)) prev t =
                        (matchLength isWord (ofItems (.one q :: items)) prev'
                          (t.dropWhile p)).map (· + (t.takeWhile p).length) :=
                    matchLength_star_seq hdisjoint prev t
                  have hnext := ih hrest prev' (t.dropWhile p)
                  rw [run, ← hnext]
                  exact hstar
              | many q => exact h.elim

end Items

section Locality

variable {p q : Char → Bool} {items : List Item} {t u a b : List Char} {n : Nat}

theorem run_one_cons {c : Char} (h : p c = true) :
    run (.one p :: items) (c :: t) = (run items t).map (· + 1) := by
  simp only [run, if_pos h]

theorem of_run_one (h : run (.one p :: items) t = some n) :
    ∃ c t' n', t = c :: t' ∧ p c = true ∧ run items t' = some n' ∧ n = n' + 1 := by
  cases t with
  | nil => cases h
  | cons c t =>
      by_cases hc : p c = true
      · rw [run_one_cons hc] at h
        obtain ⟨n', hn', rfl⟩ := Option.map_eq_some_iff.mp h
        exact ⟨c, t, n', rfl, hc, hn', rfl⟩
      · simp [run, hc] at h

theorem of_run_many (h : run (.many p :: items) t = some n) :
    ∃ n', run items (t.dropWhile p) = some n' ∧ n = n' + (t.takeWhile p).length := by
  obtain ⟨n', hn', rfl⟩ := Option.map_eq_some_iff.mp h
  exact ⟨n', hn', rfl⟩

theorem while_append (h : ∀ c ∈ a.head?, q c = false) :
    (u ++ a).dropWhile q = u.dropWhile q ++ a ∧ (u ++ a).takeWhile q = u.takeWhile q := by
  induction u with
  | nil =>
      cases a with
      | nil => exact ⟨rfl, rfl⟩
      | cons c a => simp [h c rfl]
  | cons c u ih =>
      by_cases hc : q c = true
      · simpa [hc] using ih
      · simp [hc]

theorem run_plus_next (h : run (items ++ [.one p, .many p]) t = some n) :
    ∀ y, t[n]? = some y → p y = false := by
  induction items generalizing t n with
  | nil =>
      obtain ⟨c, t', n', rfl, _, hrest, rfl⟩ := of_run_one h
      obtain ⟨k, hk, rfl⟩ := of_run_many hrest
      obtain rfl : 0 = k := Option.some.inj hk
      intro y hy
      rw [List.getElem?_cons_succ, Nat.zero_add] at hy
      have hdrop : (t'.dropWhile p).head? = some y := by
        rw [← drop_takeWhile, List.head?_drop]
        exact hy
      have hnot := List.head?_dropWhile_not p t'
      rw [hdrop] at hnot
      simpa using hnot
  | cons item items ih =>
      cases item with
      | one q =>
          obtain ⟨c, t', n', rfl, _, hrest, rfl⟩ := of_run_one h
          have hnext := ih hrest
          exact hnext
      | many q =>
          obtain ⟨k, hk, rfl⟩ := of_run_many h
          intro y hy
          refine ih hk y ?_
          rw [← drop_takeWhile, List.getElem?_drop, Nat.add_comm]
          exact hy

def Meets (opens : Char → Prop) (w : Char) (a b : List Char) : Prop :=
  (a = [] ∧ b = []) ∨ (∃ x, a.head? = some x ∧ opens x) ∧ b.head? = some w

def Item.Stops (opens : Char → Prop) (w : Char) : Item → Prop
  | .one q => q w = false
  | .many q => q w = false ∧ ∀ x, opens x → q x = false

variable {opens : Char → Prop} {w : Char}

theorem Meets.left (h : Meets opens w a b) (hq : ∀ x, opens x → q x = false) :
    ∀ c ∈ a.head?, q c = false := by
  rintro c hc
  rcases h with ⟨rfl, _⟩ | ⟨⟨x, hx, hopens⟩, _⟩
  · cases hc
  · rw [hx] at hc
    obtain rfl := Option.some.inj hc
    exact hq x hopens

theorem Meets.right (h : Meets opens w a b) (hq : q w = false) :
    ∀ c ∈ b.head?, q c = false := by
  rintro c hc
  rcases h with ⟨_, rfl⟩ | ⟨_, hw⟩
  · cases hc
  · rw [hw] at hc
    obtain rfl := Option.some.inj hc
    exact hq

def Item.Refuses (w : Char) : Item → Prop
  | .one q => q w = false
  | .many q => q w = false

theorem run_append (hitems : ∀ item ∈ items, item.Refuses w) (hb : b.head? = some w ∨ b = []) :
    run items (u ++ b) = run items u := by
  have hrefuses : ∀ {q : Char → Bool}, q w = false → ∀ c ∈ b.head?, q c = false := by
    rintro q hq c hc
    rcases hb with hb | rfl
    · rw [hb] at hc
      obtain rfl := Option.some.inj hc
      exact hq
    · cases hc
  induction items generalizing u with
  | nil => rfl
  | cons item items ih =>
      have hitem := hitems item List.mem_cons_self
      have hothers : ∀ {u}, run items (u ++ b) = run items u :=
        ih fun item hitem => hitems item (List.mem_cons_of_mem _ hitem)
      cases item with
      | one q =>
          cases u with
          | nil => exact run_one_none (hrefuses hitem)
          | cons c u =>
              by_cases hc : q c = true
              · rw [List.cons_append, run_one_cons hc, run_one_cons hc, hothers]
              · simp [run, hc]
      | many q =>
          obtain ⟨hdrop, htake⟩ := while_append (u := u) (hrefuses hitem)
          rw [run, run, hdrop, htake, hothers]

def Reads : List Item → List Char → Prop
  | [], s => s = []
  | .one q :: items, s => ∃ c s', s = c :: s' ∧ q c = true ∧ Reads items s'
  | .many q :: items, s => ∃ l s', s = l ++ s' ∧ (∀ c ∈ l, q c = true) ∧ Reads items s'

theorem while_append_of_all {l : List Char} (hl : ∀ c ∈ l, q c = true)
    (h : ∀ c ∈ a.head?, q c = false) :
    (l ++ a).dropWhile q = a ∧ (l ++ a).takeWhile q = l := by
  obtain ⟨hdrop, htake⟩ := while_append (u := l) h
  rw [hdrop, htake, List.dropWhile_eq_nil_iff.mpr hl, List.takeWhile_eq_self_iff.mpr hl]
  exact ⟨rfl, rfl⟩

theorem run_last {y z : List Char} (hy : y ≠ []) (hall : ∀ c ∈ y, p c = true)
    (hz : ∀ c ∈ z.head?, p c = false) : run [.one p, .many p] (y ++ z) = some y.length := by
  obtain ⟨c, y, rfl⟩ := List.exists_cons_of_ne_nil hy
  obtain ⟨hc, hrest⟩ := List.forall_mem_cons.mp hall
  rw [List.cons_append, run_one_cons hc, run, (while_append_of_all hrest hz).2]
  simp only [run, Option.map_some, Nat.zero_add, List.length_cons]

theorem run_split (hdisjoint : ∀ q, Item.many q ∈ items → ∀ c, p c = true → q c = false)
    (h : run (items ++ [.one p, .many p]) t = some n) :
    ∃ s y z, t = s ++ (y ++ z) ∧ Reads items s ∧ y ≠ [] ∧ (∀ c ∈ y, p c = true) ∧
      (∀ c ∈ z.head?, p c = false) ∧ n = s.length + y.length ∧
      ∀ y' z', y' ≠ [] → (∀ c ∈ y', p c = true) → (∀ c ∈ z'.head?, p c = false) →
        run (items ++ [.one p, .many p]) (s ++ (y' ++ z')) = some (s.length + y'.length) := by
  induction items generalizing t n with
  | nil =>
      obtain ⟨c, t', n', rfl, hc, hrest, rfl⟩ := of_run_one h
      obtain ⟨k, hk, rfl⟩ := of_run_many hrest
      obtain rfl : 0 = k := Option.some.inj hk
      refine ⟨[], c :: t'.takeWhile p, t'.dropWhile p, ?_, rfl, List.cons_ne_nil _ _, ?_, ?_, ?_, ?_⟩
      · rw [List.nil_append, List.cons_append, List.takeWhile_append_dropWhile]
      · exact List.forall_mem_cons.mpr ⟨hc, fun d hd => List.mem_takeWhile_imp hd⟩
      · intro d hd
        have hnot := List.head?_dropWhile_not p t'
        rw [hd] at hnot
        simpa using hnot
      · rw [List.length_cons, List.length_nil]
        omega
      · intro y' z' hy' hall hz'
        rw [List.length_nil, Nat.zero_add]
        exact run_last hy' hall hz'
  | cons item items ih =>
      have hothers : ∀ q, Item.many q ∈ items → ∀ c, p c = true → q c = false := fun q hq =>
        hdisjoint q (List.mem_cons_of_mem _ hq)
      cases item with
      | one q =>
          obtain ⟨c, t', n', rfl, hc, hrest, rfl⟩ := of_run_one h
          obtain ⟨s, y, z, rfl, hs, hy, hall, hz, rfl, hagain⟩ := ih hothers hrest
          refine ⟨c :: s, y, z, rfl, ⟨c, s, rfl, hc, hs⟩, hy, hall, hz, ?_, ?_⟩
          · rw [List.length_cons, Nat.add_right_comm]
          · intro y' z' hy' hall' hz'
            rw [List.cons_append, List.cons_append, run_one_cons hc, hagain y' z' hy' hall' hz',
              Option.map_some, List.length_cons, Nat.add_right_comm]
      | many q =>
          obtain ⟨k, hk, rfl⟩ := of_run_many h
          obtain ⟨s, y, z, hrest, hs, hy, hall, hz, rfl, hagain⟩ := ih hothers hk
          have hwhile : ∀ c ∈ t.takeWhile q, q c = true := fun c hc => List.mem_takeWhile_imp hc
          refine ⟨t.takeWhile q ++ s, y, z, ?_, ⟨_, s, rfl, hwhile, hs⟩, hy, hall, hz, ?_, ?_⟩
          · rw [List.append_assoc, ← hrest, List.takeWhile_append_dropWhile]
          · rw [List.length_append]
            omega
          · intro y' z' hy' hall' hz'
            have hhead : ∀ c ∈ (s ++ (y' ++ z')).head?, q c = false := by
              intro c hc
              cases s with
              | nil =>
                  obtain ⟨d, y', rfl⟩ := List.exists_cons_of_ne_nil hy'
                  obtain rfl : d = c := Option.some.inj hc
                  exact hdisjoint q List.mem_cons_self d (hall' d List.mem_cons_self)
              | cons d s =>
                  obtain rfl : d = c := Option.some.inj hc
                  have hnot := List.head?_dropWhile_not q t
                  rw [hrest] at hnot
                  simpa using hnot
            obtain ⟨hdrop, htake⟩ := while_append_of_all hwhile hhead
            rw [List.append_assoc, List.cons_append, run, hdrop, htake,
              hagain y' z' hy' hall' hz', Option.map_some, List.length_append]
            congr 1
            omega

def Guarded (isWord : Char → Bool) (a : Char) : Prop → List Item → Prop
  | _, [] => True
  | behindWord, .one q :: items =>
      (q a = false ∨ behindWord) ∧ Guarded isWord a (∀ c, q c = true → isWord c = true) items
  | _, .many q :: items => q a = false ∧ Guarded isWord a False items

theorem Reads.guarded {isWord : Char → Bool} {c : Char} {behindWord : Prop} {s : List Char}
    (h : Reads items s) (hguarded : Guarded isWord c behindWord items) (prev : Option Char) {i : Nat}
    (hprev : behindWord → i = 0 → wordAt isWord prev = true) (hi : s[i]? = some c) :
    wordAt isWord (before prev s i) = true := by
  induction items generalizing behindWord s prev i with
  | nil =>
      obtain rfl : s = [] := h
      cases hi
  | cons item items ih =>
      cases item with
      | one q =>
          obtain ⟨d, s', rfl, hd, hs'⟩ := h
          obtain ⟨hhere, hlater⟩ := hguarded
          cases i with
          | zero =>
              obtain rfl : d = c := Option.some.inj hi
              rcases hhere with hhere | hhere
              · rw [hd] at hhere
                cases hhere
              · exact hprev hhere rfl
          | succ i =>
              have hrest := ih hs' hlater (some d) (fun hword _ => hword d hd) hi
              rwa [before_cons prev] at hrest
      | many q =>
          obtain ⟨l, s', rfl, hl, hs'⟩ := h
          obtain ⟨hhere, hlater⟩ := hguarded
          rcases Nat.lt_or_ge i l.length with hlt | hle
          · rw [List.getElem?_append_left hlt] at hi
            rw [hl c (List.mem_of_getElem? hi)] at hhere
            cases hhere
          · rw [List.getElem?_append_right hle] at hi
            have hrest := ih hs' hlater (before prev (l ++ s') l.length) False.elim hi
            have hbefore := before_before prev (l ++ s') l.length (i - l.length)
            rw [List.drop_left, Nat.add_sub_cancel' hle] at hbefore
            rwa [hbefore] at hrest

theorem run_back (hitems : ∀ item ∈ items, item.Stops opens w)
    (hp : ∀ x, opens x → p x = true) (hmeets : Meets opens w a b)
    (h : run (items ++ [.one p, .many p]) (u ++ b) = some n) :
    ∃ n', run (items ++ [.one p, .many p]) (u ++ a) = some n' := by
  induction items generalizing u n with
  | nil =>
      obtain ⟨c, t', n', ht, hc, _, _⟩ := of_run_one h
      cases u with
      | nil =>
          rcases hmeets with ⟨_, rfl⟩ | ⟨⟨x, hx, hopens⟩, _⟩
          · cases ht
          · obtain ⟨y, a, rfl⟩ := List.exists_cons_of_ne_nil (fun ha : a = [] => by simp [ha] at hx)
            obtain rfl : y = x := Option.some.inj hx
            exact ⟨_, run_one_cons (hp y hopens)⟩
      | cons d u =>
          obtain ⟨rfl, rfl⟩ := List.cons.inj ht
          exact ⟨_, run_one_cons hc⟩
  | cons item items ih =>
      have hstops := hitems item List.mem_cons_self
      have hothers : ∀ item ∈ items, item.Stops opens w := fun item hitem =>
        hitems item (List.mem_cons_of_mem _ hitem)
      cases item with
      | one q =>
          obtain ⟨c, t', n', ht, hc, hrest, _⟩ := of_run_one h
          cases u with
          | nil =>
              have hnot := hmeets.right (q := q) hstops c (by rw [← List.nil_append b, ht]; rfl)
              rw [hnot] at hc
              cases hc
          | cons d u =>
              obtain ⟨rfl, rfl⟩ := List.cons.inj ht
              obtain ⟨k, hk⟩ := ih hothers hrest
              refine ⟨k + 1, ?_⟩
              rw [List.cons_append, List.cons_append, run_one_cons hc, hk, Option.map_some]
      | many q =>
          obtain ⟨k, hk, _⟩ := of_run_many h
          obtain ⟨hdrop, _⟩ := while_append (u := u) (hmeets.left hstops.2)
          obtain ⟨hdrop', _⟩ := while_append (u := u) (hmeets.right hstops.1)
          rw [hdrop'] at hk
          obtain ⟨l, hl⟩ := ih hothers hk
          refine ⟨l + ((u ++ a).takeWhile q).length, ?_⟩
          rw [List.cons_append, run, hdrop, hl, Option.map_some]

end Locality

end Regex
