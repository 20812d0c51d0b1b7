import AiSoc.Library.Passes
import AiSoc.Library.Recognition
import AiSoc.Library.RegexItems
import Mathlib.Data.Nat.Find

namespace Regex

section Alternatives

def ofAlternatives (items : List Item) : List (List Item) → Pattern
  | [] => ofItems items
  | next :: rest => .alt (ofItems items) (ofAlternatives next rest)

def firstRun (alternatives : List (List Item)) (t : List Char) : Option Nat :=
  alternatives.findSome? fun items => run items t

variable {isWord : Char → Bool}

theorem firstRun_cons (items : List Item) (rest : List (List Item)) (t : List Char) :
    firstRun (items :: rest) t = (run items t).or (firstRun rest t) := by
  rw [firstRun, List.findSome?_cons]
  cases run items t <;> rfl

theorem matchLength_alternatives {items : List Item} {rest : List (List Item)}
    (h : ∀ other ∈ items :: rest, Determinate other) (prev : Option Char) (t : List Char) :
    matchLength isWord (ofAlternatives items rest) prev t = firstRun (items :: rest) t := by
  induction rest generalizing items with
  | nil =>
      rw [ofAlternatives, matchLength_items (h items List.mem_cons_self), firstRun_cons]
      exact Option.or_none.symm
  | cons next rest ih =>
      have hrest := ih fun other hother => h other (List.mem_cons_of_mem _ hother)
      rw [ofAlternatives, matchLength_alt, matchLength_items (h items List.mem_cons_self), hrest,
        firstRun_cons items]

theorem firstRun_congr {alternatives : List (List Item)} {a b : List Char}
    (h : ∀ items ∈ alternatives, run items a = run items b) :
    firstRun alternatives a = firstRun alternatives b := by
  induction alternatives with
  | nil => rfl
  | cons items rest ih =>
      rw [firstRun_cons, firstRun_cons, h items List.mem_cons_self,
        ih fun other hother => h other (List.mem_cons_of_mem _ hother)]

theorem firstRun_mem {alternatives : List (List Item)} {t : List Char} {n : Nat}
    (h : firstRun alternatives t = some n) : ∃ items ∈ alternatives, run items t = some n :=
  List.exists_of_findSome?_eq_some h

theorem firstRun_over {alternatives : List (List Item)} {a b : List Char} {n n' : Nat}
    (hback : ∀ items ∈ alternatives, ∀ k, run items b = some k → ∃ k', run items a = some k')
    (hover : ∀ items ∈ alternatives, run items a = some n → run items b = some n')
    (h : firstRun alternatives a = some n) : firstRun alternatives b = some n' := by
  induction alternatives with
  | nil => cases h
  | cons items rest ih =>
      rw [firstRun_cons] at h ⊢
      cases hleft : run items a with
      | some k =>
          rw [hleft, Option.some_or] at h
          rw [hover items List.mem_cons_self (by rw [hleft, h]), Option.some_or]
      | none =>
          rw [hleft, Option.none_or] at h
          have hright : run items b = none := by
            cases hb : run items b with
            | none => rfl
            | some k =>
                obtain ⟨k', hk'⟩ := hback items List.mem_cons_self k hb
                rw [hleft] at hk'
                cases hk'
          rw [hright, Option.none_or]
          exact ih (fun other hother => hback other (List.mem_cons_of_mem _ hother))
            (fun other hother => hover other (List.mem_cons_of_mem _ hother)) h

theorem firstRun_back {alternatives : List (List Item)} {a b : List Char} {n : Nat}
    (hback : ∀ items ∈ alternatives, ∀ k, run items b = some k → ∃ k', run items a = some k')
    (h : firstRun alternatives b = some n) : ∃ n', firstRun alternatives a = some n' := by
  obtain ⟨items, hitems, hb⟩ := firstRun_mem h
  obtain ⟨k, hk⟩ := hback items hitems n hb
  have hsome : firstRun alternatives a ≠ none := by
    intro hnone
    rw [List.findSome?_eq_none_iff.mp hnone items hitems] at hk
    cases hk
  exact Option.ne_none_iff_exists'.mp hsome

structure Opened (closes : Char → Prop) (items : List Item) : Prop where
  determinate : Determinate items
  first : ∃ q core, items = .one q :: core ∧ ∀ c, closes c → q c = false

variable {opens closes : Char → Prop} {w : Char} {p : Char → Bool} {items : List Item}
  {u a b t : List Char} {n : Nat}

theorem Opened.head (h : Opened closes items) (hrun : run items t = some n) :
    ∃ c t', t = c :: t' ∧ ¬ closes c ∧ 0 < n := by
  obtain ⟨q, core, rfl, hcloses⟩ := h.first
  obtain ⟨c, t', n', rfl, hc, _, rfl⟩ := of_run_one hrun
  refine ⟨c, t', rfl, fun hclosed => ?_, Nat.succ_pos n'⟩
  rw [hcloses c hclosed] at hc
  cases hc

theorem firstRun_head {alternatives : List (List Item)}
    (h : ∀ items ∈ alternatives, Opened closes items) (hrun : firstRun alternatives t = some n) :
    ∃ c t', t = c :: t' ∧ ¬ closes c ∧ 0 < n := by
  obtain ⟨items, hitems, hitem⟩ := firstRun_mem hrun
  exact (h items hitems).head hitem

structure Valued (opens : Char → Prop) (w : Char) (p : Char → Bool) (items : List Item) :
    Prop where
  shape : ∃ core, items = core ++ [.one p, .many p] ∧ (∀ item ∈ core, item.Stops opens w) ∧
    ∀ q, Item.many q ∈ core → ∀ c, p c = true → q c = false
  opens : ∀ x, opens x → p x = true

theorem Valued.back (h : Valued opens w p items) (hmeets : Meets opens w a b)
    (hrun : run items (u ++ b) = some n) : ∃ n', run items (u ++ a) = some n' := by
  obtain ⟨core, rfl, hstops, _⟩ := h.shape
  exact run_back hstops h.opens hmeets hrun

theorem Valued.over (h : Valued opens w p items) {marker : List Char} {m : Marks}
    (hmarker : ∀ c ∈ marker, p c = true) (hne : marker ≠ [])
    (hvalue : ∀ core s, items = core ++ [.one p, .many p] → Reads core s → s <+: t →
      ∀ i < s.length, m i = none)
    (hends : ∀ i < n, ∀ l, m i = some l → i + l < n)
    (hopens : ∀ l, m n = some l → ∃ x, t[n]? = some x ∧ opens x)
    (hrun : run items t = some n) :
    run items (blank marker 0 m t) = some (blank marker 0 m (t.take n)).length := by
  obtain ⟨core, rfl, _, hdisjoint⟩ := h.shape
  obtain ⟨s, y, z, rfl, hs, hy, hall, hz, rfl, hagain⟩ := run_split hdisjoint hrun
  have hclear := hvalue core s rfl hs (List.prefix_append s _)
  have htake : (s ++ (y ++ z)).take (s.length + y.length) = s ++ y := by
    rw [← List.append_assoc, ← List.length_append, List.take_left]
  have hdrop : (s ++ (y ++ z)).drop (s.length + y.length) = z := by
    rw [← List.append_assoc, ← List.length_append, List.drop_left]
  have hsplit : blank marker 0 m (s ++ y) = s ++ blank marker 0 (m.shift s.length) y := by
    rw [blank_of_start (List.prefix_append s y) hclear, List.drop_left]
  have hwhole : blank marker 0 m (s ++ (y ++ z)) = s ++ (blank marker 0 (m.shift s.length) y ++
      blank marker 0 (m.shift (s.length + y.length)) z) := by
    rw [blank_take_drop (s ++ (y ++ z)) (Nat.zero_le (s.length + y.length))
      fun i l _ hi hl => hends i hi l hl, htake, hdrop, hsplit, List.append_assoc]
  have hrest : ∀ c ∈ (blank marker 0 (m.shift (s.length + y.length)) z).head?, p c = false := by
    intro c hc
    cases z with
    | nil =>
        rw [blank_nil] at hc
        cases hc
    | cons d z =>
        have hd : p d = false := hz d rfl
        have hzero : m.shift (s.length + y.length) 0 = none := by
          rw [Marks.shift_apply_zero]
          cases hm : m (s.length + y.length) with
          | none => rfl
          | some l =>
              obtain ⟨x, hx, hopen⟩ := hopens l hm
              rw [← List.head?_drop, hdrop] at hx
              obtain rfl : d = x := Option.some.inj hx
              rw [h.opens d hopen] at hd
              cases hd
        rw [blank_kept hzero] at hc
        obtain rfl : d = c := Option.some.inj hc
        exact hd
  have hread := hagain (blank marker 0 (m.shift s.length) y) _ (blank_ne_nil hne hy)
    (fun c hc => (mem_blank hc).elim (hmarker c) (hall c)) hrest
  rw [hwhole, hread, htake, hsplit, List.length_append]

end Alternatives

section Agreement

variable {isWord : Char → Bool} {opens closes : Char → Prop} {w : Char} {marker : List Char}
  {m : Marks} {t : List Char}

theorem meets_of_opens (hopens : ∀ k n, m k = some n → ∃ x, t[k]? = some x ∧ opens x)
    (hmarker : marker.head? = some w) :
    ∃ u a b, t = u ++ a ∧ blank marker 0 m t = u ++ b ∧ Meets opens w a b := by
  obtain ⟨a, b, ht, hblank, hend⟩ := gap_split marker m t
  refine ⟨gap m t, a, b, ht, hblank, ?_⟩
  rcases hend with ⟨ha, hb⟩ | ⟨x, a', b', ha, hb, hmark⟩
  · exact .inl ⟨ha, hb⟩
  · obtain ⟨n, hn⟩ := Option.isSome_iff_exists.mp hmark
    obtain ⟨y, hy, hopen⟩ := hopens _ n hn
    have hx : t[(gap m t).length]? = some x := by
      refine (congrArg (fun l : List Char => l[(gap m t).length]?) ht).trans ?_
      rw [ha, List.getElem?_append_right (Nat.le_refl _), Nat.sub_self, List.getElem?_cons_zero]
    rw [hx] at hy
    obtain rfl := Option.some.inj hy
    refine .inr ⟨⟨x, by rw [ha]; rfl, hopen⟩, ?_⟩
    rw [hb, List.head?_append, hmarker]
    rfl

def blocked : List Item → List Char → Bool
  | .one p :: items, c :: t => !p c || blocked items t
  | _, _ => false

theorem run_blocked {items : List Item} {left : List Char} (h : blocked items left = true)
    (rest : List Char) : run items (left ++ rest) = none := by
  induction items generalizing left with
  | nil => cases h
  | cons item items ih =>
      cases item with
      | many p => cases h
      | one p =>
          cases left with
          | nil => cases h
          | cons c left =>
              by_cases hc : p c = true
              · have hrest : blocked items left = true := by simpa [blocked, hc] using h
                rw [List.cons_append, run_one_cons hc, ih hrest, Option.map_none]
              · simp [run, hc]

theorem inert_alternatives {items : List Item} {rest : List (List Item)}
    (hdeterminate : ∀ other ∈ items :: rest, Determinate other)
    (h : ∀ left ∈ marker.tails, left ≠ [] → ∀ other ∈ items :: rest, blocked other left = true) :
    Inert isWord (.seq .boundary (ofAlternatives items rest)) marker := by
  rintro read c left rfl prev after ⟨n, hn⟩
  rw [matchLength_boundary, matchLength_alternatives hdeterminate] at hn
  have htail : c :: left ∈ (read ++ c :: left).tails :=
    (List.mem_tails _ _).mpr (List.suffix_append read (c :: left))
  have hnone : firstRun (items :: rest) (c :: (left ++ after)) = none := by
    rw [firstRun, List.findSome?_eq_none_iff]
    intro other hother
    exact run_blocked (h _ htail (List.cons_ne_nil c left) other hother) after
  rw [hnone] at hn
  split at hn
  · cases hn
  · cases hn

theorem Inert.of_same {r s : Pattern} (h : Inert isWord s marker) (hsame : Same isWord r s) :
    Inert isWord r marker := by
  rintro read c left hread prev rest ⟨n, hn⟩
  rw [matchLength_same hsame] at hn
  exact h read c left hread prev rest ⟨n, hn⟩

theorem matchLength_boundary_alternatives {items : List Item} {rest : List (List Item)}
    (h : ∀ other ∈ items :: rest, Determinate other) (prev : Option Char) (t : List Char) :
    matchLength isWord (.seq .boundary (ofAlternatives items rest)) prev t =
      if wordAt isWord prev = wordAt isWord t.head? then none
      else firstRun (items :: rest) t := by
  rw [matchLength_boundary, matchLength_alternatives h]

theorem prev_of_starts {items : List Item} {rest : List (List Item)}
    (hopened : ∀ other ∈ items :: rest, Opened closes other) {prev prev' : Option Char} {k : Nat}
    {left : List Char} {n : Nat} (hhead : left.head? = t[k]?)
    (hlinked : prev = prev' ∨ ∀ y, t[k]? = some y → closes y)
    (h : firstRun (items :: rest) left = some n) : prev = prev' := by
  obtain ⟨c, t', rfl, hc, _⟩ := firstRun_head hopened h
  exact hlinked.resolve_right fun hcloses => hc (hcloses c hhead.symm)

variable {r : Pattern} {items : List Item} {rest : List (List Item)} {p : Char → Bool}

theorem head_blankFrom {k : Nat} (hlt : k < t.length) (h : m k = none) :
    (blankFrom marker m t k).head? = t[k]? := by
  have hc : t[k]? = some t[k] := List.getElem?_eq_getElem hlt
  rw [blankFrom_kept hc h, List.head?_cons, hc]

theorem follows_values
    (hsame : Same isWord r (.seq .boundary (ofAlternatives items rest)))
    (hdeterminate : ∀ other ∈ items :: rest, Determinate other)
    (hopened : ∀ other ∈ items :: rest, Opened closes other)
    (hvalued : ∀ other ∈ items :: rest, Valued opens w p other)
    (hmarker : marker.head? = some w) (hvalues : ∀ c ∈ marker, p c = true)
    (hinert : Inert isWord r marker) (hnested : m.Nested (marksOf isWord r t))
    (hopens : ∀ k n, m k = some n → ∃ x, t[k]? = some x ∧ opens x)
    (hcloses : ∀ k n, marksOf isWord r t k = some n → ∀ y, t[k + n + 1]? = some y → closes y)
    (hvalue : ∀ k n, marksOf isWord r t k = some n → ∀ other ∈ items :: rest, ∀ core s,
      other = core ++ [.one p, .many p] → Reads core s → s <+: t.drop k →
        ∀ i < s.length, m (k + i) = none) :
    Follows isWord r marker closes m (marksOf isWord r t) t := by
  have hback : ∀ k, ∀ other ∈ items :: rest, ∀ n, run other (blankFrom marker m t k) = some n →
      ∃ n', run other (t.drop k) = some n' := by
    intro k other hother n hrun
    have hopens' : ∀ i n, m.shift k i = some n → ∃ x, (t.drop k)[i]? = some x ∧ opens x := by
      intro i n hi
      obtain ⟨x, hx, hopen⟩ := hopens (i + k) n hi
      exact ⟨x, by rw [List.getElem?_drop, Nat.add_comm, hx], hopen⟩
    obtain ⟨u, a, b, ht, hblank, hmeets⟩ := meets_of_opens hopens' hmarker
    rw [blankFrom, hblank] at hrun
    rw [ht]
    exact (hvalued other hother).back hmeets hrun
  refine ⟨hinert, hnested, ?_, fun k n _ _ hk => .inr (hcloses k n hk), ?_⟩
  · intro k n prev hlt _ _ hk hlinked
    have hmatch := match_of_mark hk
    have hm := hnested.eq_none hk
    rw [matchLength_same hsame, matchLength_boundary_alternatives hdeterminate] at hmatch ⊢
    rw [head_blankFrom hlt hm]
    rw [List.head?_drop] at hmatch
    split at hmatch
    · cases hmatch
    · rename_i hboundary
      obtain rfl : before none t k = prev :=
        prev_of_starts hopened List.head?_drop (hlinked.imp_left Eq.symm) hmatch
      rw [if_neg hboundary]
      refine firstRun_over (hback k) (fun other hother hrun => ?_) hmatch
      refine (hvalued other hother).over hvalues ?_ ?_ ?_ ?_ hrun
      · rintro rfl
        cases hmarker
      · intro core s hcore hs hstart i hi
        rw [Marks.shift, Nat.add_comm]
        exact hvalue k n hk other hother core s hcore hs hstart i hi
      · intro i hi l hl
        have hreach := hnested.ends k n hk i (Nat.le_of_lt_succ hi) l (by rw [Nat.add_comm]; exact hl)
        omega
      · intro l hl
        obtain ⟨x, hx, hopen⟩ := hopens _ l hl
        exact ⟨x, by rw [List.getElem?_drop, Nat.add_comm, hx], hopen⟩
  · rintro k prev hlt _ hfree' hm hk hlinked ⟨n, hstarts⟩
    have hnot := not_starts_of_mark hlt hfree' hk
    rw [matchLength_same hsame, matchLength_boundary_alternatives hdeterminate,
      head_blankFrom hlt hm] at hstarts
    split at hstarts
    · cases hstarts
    · rename_i hboundary
      obtain rfl : before none t k = prev :=
        prev_of_starts hopened (head_blankFrom hlt hm) (hlinked.imp_left Eq.symm) hstarts
      obtain ⟨n', hn'⟩ := firstRun_back (hback k) hstarts
      obtain ⟨_, _, _, _, hpos⟩ := firstRun_head hopened hn'
      refine hnot ⟨n' - 1, ?_⟩
      rw [matchLength_same hsame, matchLength_boundary_alternatives hdeterminate,
        List.head?_drop, if_neg hboundary, hn', Nat.sub_add_cancel hpos]

theorem follows_gaps
    (hsame : Same isWord r (.seq .boundary (ofAlternatives items rest)))
    (hdeterminate : ∀ other ∈ items :: rest, Determinate other)
    (hopened : ∀ other ∈ items :: rest, Opened closes other)
    (hrefuses : ∀ other ∈ items :: rest, ∀ item ∈ other, item.Refuses w)
    (hmarker : marker.head? = some w) (hinert : Inert isWord r marker) (hm : m.Laminar) :
    Follows isWord r marker closes m (marksLeft isWord r m t) t := by
  have hrun : ∀ k, firstRun (items :: rest) (blankFrom marker m t k) =
      firstRun (items :: rest) (gap (m.shift k) (t.drop k)) := by
    intro k
    obtain ⟨a, b, _, hblank, hend⟩ := gap_split marker (m.shift k) (t.drop k)
    rw [blankFrom, hblank]
    exact firstRun_congr fun other hother =>
      run_append (hrefuses other hother) (head_of_gap hmarker hend)
  have hmatch : ∀ k prev, k < t.length → m k = none → Linked closes t k prev → ∀ n,
      (matchLength isWord r prev (blankFrom marker m t k) = some (n + 1) ↔
        matchLength isWord r (before none t k) (gap (m.shift k) (t.drop k)) = some (n + 1)) := by
    intro k prev hlt hk hlinked n
    have hhead : (gap (m.shift k) (t.drop k)).head? = t[k]? := by
      have hzero : m.shift k 0 = none := by rw [Marks.shift_apply_zero, hk]
      rw [List.drop_eq_getElem_cons hlt, gap_kept hzero, List.head?_cons,
        List.getElem?_eq_getElem hlt]
    rw [matchLength_same hsame, matchLength_same hsame,
      matchLength_boundary_alternatives hdeterminate,
      matchLength_boundary_alternatives hdeterminate, head_blankFrom hlt hk, hhead, hrun]
    constructor
    · intro h
      split at h
      · cases h
      · rename_i hboundary
        obtain rfl : before none t k = prev :=
          prev_of_starts hopened hhead (hlinked.imp_left Eq.symm) h
        rw [if_neg hboundary, h]
    · intro h
      split at h
      · cases h
      · rename_i hboundary
        obtain rfl : before none t k = prev :=
          prev_of_starts hopened hhead (hlinked.imp_left Eq.symm) h
        rw [if_neg hboundary, h]
  have hlength : ∀ k n, marksLeft isWord r m t k = some n →
      (blank marker 0 (m.shift k) ((t.drop k).take (n + 1))).length = n + 1 ∧
        n + 1 ≤ (gap (m.shift k) (t.drop k)).length := by
    intro k n hk
    have hle := matchLength_le (match_of_markWithin hk).2
    have hgap := (gap_starts marker (m.shift k) (t.drop k)).1.length_le
    have htake : ((t.drop k).take (n + 1)).length = n + 1 := by
      rw [List.length_take]
      omega
    rw [blank_of_none fun i hi => none_of_lt_gap (t := t.drop k) (by omega)]
    exact ⟨htake, hle⟩
  refine ⟨hinert, nested_marksLeft hm, ?_, ?_, ?_⟩
  · intro k n prev hlt _ _ hk hlinked
    obtain ⟨hnone, hfound⟩ := match_of_markWithin hk
    rw [(hmatch k prev hlt hnone hlinked n).mpr hfound, (hlength k n hk).1]
  · intro k n prev _ hk
    obtain ⟨hfull, hle⟩ := hlength k n hk
    obtain ⟨a, b, ht, hblank, _⟩ := gap_split marker (m.shift k) (t.drop k)
    refine .inl ?_
    rw [hfull, blankFrom, hblank, before, List.getElem?_append_left hle,
      ← List.getElem?_append_left hle, ← ht, List.getElem?_drop]
    rfl
  · rintro k prev hlt hfree hfree' hnone hk hlinked ⟨n, hstarts⟩
    exact not_starts_of_markWithin (Nat.zero_le k) hlt hfree hnone hfree' hk
      ⟨n, (hmatch k prev hlt hnone hlinked n).mp hstarts⟩

end Agreement

section Blocks

variable {isWord : Char → Bool} {r q : Pattern}

theorem findSome?_range {α : Type} {f : Nat → Option α} {n : Nat} {a : α} :
    (List.range n).findSome? f = some a ↔ ∃ d < n, f d = some a ∧ ∀ d' < d, f d' = none := by
  induction n with
  | zero => exact iff_of_false nofun fun ⟨d, hd, _⟩ => absurd hd (Nat.not_lt_zero d)
  | succ n ih =>
      rw [List.range_succ, List.findSome?_append, Option.or_eq_some_iff, ih,
        List.findSome?_eq_none_iff]
      constructor
      · rintro (⟨d, hd, hfirst⟩ | ⟨hnone, hlast⟩)
        · exact ⟨d, Nat.lt_succ_of_lt hd, hfirst⟩
        · refine ⟨n, Nat.lt_succ_self n, ?_, fun d' hd' => hnone d' (List.mem_range.mpr hd')⟩
          simpa using hlast
      · rintro ⟨d, hd, hsome, hnone⟩
        rcases Nat.lt_succ_iff_lt_or_eq.mp hd with hlt | rfl
        · exact .inl ⟨d, hlt, hsome, hnone⟩
        · refine .inr ⟨fun d' hd' => hnone d' (List.mem_range.mp hd'), ?_⟩
          simpa using hsome

theorem matchLength_lazy (q : Pattern) (prev : Option Char) (t : List Char) :
    matchLength isWord (.seq (.lazy fun _ => true) q) prev t =
      (List.range (t.length + 1)).findSome? fun d =>
        (matchLength isWord q (before prev t d) (t.drop d)).map (· + d) := by
  have hall : t.takeWhile (fun _ => true) = t := List.takeWhile_eq_self_iff.mpr fun _ _ => rfl
  rw [matchLength_seq, results, hall]

variable {language language' : List Char → Prop}

structure Block (language language' : List Char → Prop) (t : List Char) (n : Nat) : Prop where
  parts : ∃ s s' d, language s ∧ s <+: t ∧ language' s' ∧ s' <+: t.drop (s.length + d) ∧
    s.length + d ≤ t.length ∧
    (∀ d' < d, ∀ s'', language' s'' → ¬ s'' <+: t.drop (s.length + d')) ∧
    n = s.length + d + s'.length

theorem matchLength_block_iff (h : Spells isWord r language) (h' : Spells isWord q language')
    {prev : Option Char} {t : List Char} {n : Nat} :
    matchLength isWord (.seq r (.seq (.lazy fun _ => true) q)) prev t = some n ↔
      Block language language' t n := by
  rw [h.matchLength_seq_iff]
  constructor
  · rintro ⟨s, k, hs, hstart, hk, rfl⟩
    rw [matchLength_lazy, findSome?_range] at hk
    obtain ⟨d, hd, hsome, hnone⟩ := hk
    obtain ⟨m, hm, rfl⟩ := Option.map_eq_some_iff.mp hsome
    obtain ⟨s', hs', hstart', rfl⟩ := h'.matchLength_iff.mp hm
    rw [List.drop_drop] at hstart'
    rw [List.length_drop] at hd
    have hle := hstart.length_le
    refine ⟨s, s', d, hs, hstart, hs', hstart', by omega, ?_, by omega⟩
    intro d' hd' s'' hs'' hstart''
    rw [← List.drop_drop] at hstart''
    have hmatch : matchLength isWord q (before (before prev t s.length) (t.drop s.length) d')
        ((t.drop s.length).drop d') = some s''.length :=
      h'.matchLength_iff.mpr ⟨s'', hs'', hstart'', rfl⟩
    have hd'' := hnone d' hd'
    rw [hmatch] at hd''
    cases hd''
  · rintro ⟨s, s', d, hs, hstart, hs', hstart', hle, hfirst, rfl⟩
    refine ⟨s, d + s'.length, hs, hstart, ?_, by omega⟩
    rw [matchLength_lazy, findSome?_range]
    refine ⟨d, by rw [List.length_drop]; omega, ?_, ?_⟩
    · rw [← List.drop_drop] at hstart'
      rw [h'.matchLength_iff.mpr ⟨s', hs', hstart', rfl⟩, Option.map_some, Nat.add_comm]
    · intro d' hd'
      rw [Option.map_eq_none_iff]
      cases hmatch : matchLength isWord q (before (before prev t s.length) (t.drop s.length) d')
          ((t.drop s.length).drop d') with
      | none => rfl
      | some k =>
          obtain ⟨s'', hs'', hstart'', _⟩ := h'.matchLength_iff.mp hmatch
          rw [List.drop_drop] at hstart''
          exact absurd hstart'' (hfirst d' hd' s'' hs'')

structure Plain (marker : List Char) (w : Char) (language : List Char → Prop) : Prop where
  free : ∀ s, language s → w ∉ s
  starts : ∀ s, language s → ∃ c s', s = c :: s' ∧ c ∉ marker

theorem Plain.ne_nil {marker : List Char} {w : Char} (h : Plain marker w language) {s : List Char}
    (hs : language s) : s ≠ [] := by
  obtain ⟨c, s', rfl, _⟩ := h.starts s hs
  exact List.cons_ne_nil c s'

theorem Plain.head {marker : List Char} {w : Char} (h : Plain marker w language) {s : List Char}
    (hs : language s) : ∀ c ∈ s.head?, c ∉ marker := by
  obtain ⟨c, s', rfl, hc⟩ := h.starts s hs
  intro d hd
  obtain rfl := Option.some.inj hd
  exact hc

theorem starts_of_inside (h : Spells isWord r language) (h' : Spells isWord q language')
    (hne : ∀ s, language' s → s ≠ []) {prev : Option Char} {s s' t : List Char} (hs : language s)
    (hstart : s <+: t) (hs' : language' s') (hinside : s' <:+: t.drop s.length) :
    Starts isWord (.seq r (.seq (.lazy fun _ => true) q)) prev t := by
  classical
  obtain ⟨l, l', hl⟩ := hinside
  have hreached : ∃ d, s.length + d ≤ t.length ∧
      ∃ s', language' s' ∧ s' <+: t.drop (s.length + d) := by
    refine ⟨l.length, ?_, s', hs', l', ?_⟩
    · have hlength := congrArg List.length hl
      simp only [List.length_append, List.length_drop] at hlength
      have hpos := List.length_pos_iff.mpr (hne s' hs')
      omega
    · rw [← List.drop_drop, ← hl, List.append_assoc, List.drop_left]
  obtain ⟨hle, s'', hs'', hstart''⟩ := Nat.find_spec hreached
  have hpos := List.length_pos_iff.mpr (hne s'' hs'')
  refine ⟨s.length + Nat.find hreached + s''.length - 1, ?_⟩
  rw [matchLength_block_iff h h']
  refine ⟨s, s'', Nat.find hreached, hs, hstart, hs'', hstart'', hle, ?_, by omega⟩
  intro d' hd' other hother hstart'
  exact Nat.find_min hreached hd' ⟨by omega, other, hother, hstart'⟩

theorem prefix_of_drop_blank {marker : List Char} {w : Char} {s t : List Char} {skip d l : Nat}
    {m : Marks} (hw : w ∉ s) (hmarker : marker.head? = some w) (hne : s ≠ [])
    (hhead : ∀ c ∈ s.head?, c ∉ marker) (hs : s <+: (blank marker skip m t).drop l)
    (hl : l < (blank marker skip m (t.take d)).length) : ∃ d' < d, s <+: t.drop d' := by
  induction t generalizing skip d l m with
  | nil =>
      rw [List.take_nil, blank_nil] at hl
      cases hl
  | cons c t ih =>
      cases d with
      | zero =>
          rw [List.take_zero, blank_nil] at hl
          cases hl
      | succ d =>
          rw [List.take_succ_cons] at hl
          have hlater : ∀ {skip' l'}, s <+: (blank marker skip' (m.shift 1) t).drop l' →
              l' < (blank marker skip' (m.shift 1) (t.take d)).length →
                ∃ d' < d + 1, s <+: (c :: t).drop d' := by
            intro skip' l' hs' hl'
            obtain ⟨d', hd', hstart⟩ := ih hs' hl'
            exact ⟨d' + 1, Nat.succ_lt_succ hd', hstart⟩
          cases skip with
          | succ skip => exact hlater hs hl
          | zero =>
              cases hm : m 0 with
              | some n =>
                  rw [blank_marked hm] at hs hl
                  rcases Nat.lt_or_ge l marker.length with hlt | hle
                  · rw [List.drop_append_of_le_length (Nat.le_of_lt hlt)] at hs
                    obtain ⟨e, s, rfl⟩ := List.exists_cons_of_ne_nil hne
                    rw [List.drop_eq_getElem_cons hlt, List.cons_append] at hs
                    obtain ⟨rfl, _⟩ := List.cons_prefix_cons.mp hs
                    exact absurd (List.getElem_mem hlt) (hhead _ rfl)
                  · obtain ⟨l', rfl⟩ := Nat.exists_eq_add_of_le hle
                    rw [← List.drop_drop, List.drop_left] at hs
                    rw [List.length_append] at hl
                    exact hlater hs (by omega)
              | none =>
                  cases l with
                  | zero => exact ⟨0, Nat.succ_pos d, prefix_of_blank hw hmarker hs⟩
                  | succ l =>
                      rw [blank_kept hm] at hs hl
                      exact hlater hs (Nat.lt_of_succ_lt_succ hl)

def Clear (language language' : List Char → Prop) (m : Marks) (t : List Char) (k n : Nat) : Prop :=
  ∀ s s' d, language s → s <+: t.drop k → language' s' → s' <+: t.drop (k + s.length + d) →
    n = s.length + d + s'.length →
      (∀ i < s.length, m.Outside (k + i)) ∧ ∀ i < s'.length, m.Outside (k + s.length + d + i)

theorem block_over {marker : List Char} {w : Char} (hplain' : Plain marker w language')
    (hmarker : marker.head? = some w) {m : Marks} {t : List Char} {k n : Nat}
    (hclear : Clear language language' m t k n)
    (hblock : Block language language' (t.drop k) n) :
    Block language language' (blankFrom marker m t k)
      (blank marker 0 (m.shift k) ((t.drop k).take n)).length := by
  obtain ⟨s, s', d, hs, hstart, hs', hstart', hle, hfirst, rfl⟩ := hblock
  have hne := hplain'.ne_nil hs'
  have hinside : s' <+: ((t.drop k).drop s.length).drop d := by rwa [List.drop_drop]
  rw [List.drop_drop, ← Nat.add_assoc] at hstart'
  obtain ⟨hbegin, hend⟩ := hclear s s' d hs hstart hs' hstart' rfl
  have hnone : ∀ i < s.length, m.shift k i = none := by
    intro i hi
    rw [Marks.shift, Nat.add_comm]
    exact (hbegin i hi).eq_none
  have hnone' : ∀ i < s'.length, m.shift (s.length + d + k) i = none := by
    intro i hi
    have houtside := (hend i hi).eq_none
    rw [Marks.shift, ← houtside]
    congr 1
    omega
  have hbody : ∀ i l, 0 ≤ i → i < d → (m.shift k).shift s.length i = some l → i + l < d := by
    intro i l _ hi hl
    have hreach := hend 0 (List.length_pos_iff.mpr hne) (i + s.length + k) l hl (by omega)
    omega
  have hwhole : ∀ t', s <+: t' → s' <+: (t'.drop s.length).drop d →
      blank marker 0 (m.shift k) t' = s ++
        (blank marker 0 ((m.shift k).shift s.length) ((t'.drop s.length).take d) ++
          (s' ++ blank marker 0 ((m.shift (s.length + d + k)).shift s'.length)
            (((t'.drop s.length).drop d).drop s'.length))) := by
    intro t' ht ht'
    have hshift : ((m.shift k).shift s.length).shift d = m.shift (s.length + d + k) := by
      rw [Marks.shift_shift, Marks.shift_shift]
      congr 1
      omega
    rw [blank_of_start ht hnone, blank_take_drop (t'.drop s.length) (Nat.zero_le d) hbody, hshift,
      blank_of_start ht' hnone']
  have hfirst' : (((t.drop k).take (s.length + d + s'.length)).drop s.length).take d =
      ((t.drop k).drop s.length).take d := by
    rw [List.drop_take, List.take_take]
    congr 1
    omega
  have hlast : (((t.drop k).take (s.length + d + s'.length)).drop s.length).drop d = s' := by
    obtain ⟨left, hleft⟩ := hinside
    rw [List.drop_take, List.drop_take, ← hleft]
    have hlength : s.length + d + s'.length - s.length - d = s'.length := by omega
    rw [hlength, List.take_left]
  have hblank := hwhole (t.drop k) hstart hinside
  have hlength : (blank marker 0 (m.shift k) ((t.drop k).take (s.length + d + s'.length))).length =
      s.length + (blank marker 0 ((m.shift k).shift s.length)
        (((t.drop k).drop s.length).take d)).length + s'.length := by
    rw [hwhole _ (List.prefix_take_iff.mpr ⟨hstart, by omega⟩) (by rw [hlast]), hfirst', hlast,
      List.drop_length, blank_nil, List.append_nil, List.length_append, List.length_append,
      Nat.add_assoc]
  refine ⟨s, s', (blank marker 0 ((m.shift k).shift s.length)
    (((t.drop k).drop s.length).take d)).length, hs, ?_, hs', ?_, ?_, ?_, hlength⟩
  · rw [blankFrom, hblank]
    exact List.prefix_append s _
  · rw [blankFrom, hblank, ← List.drop_drop, List.drop_left, List.drop_left]
    exact List.prefix_append s' _
  · rw [blankFrom, hblank, List.length_append, List.length_append]
    omega
  · intro l hl s'' hs'' hstart''
    rw [blankFrom, blank_of_start hstart hnone, ← List.drop_drop, List.drop_left] at hstart''
    obtain ⟨d', hd', hearlier⟩ := prefix_of_drop_blank (hplain'.free s'' hs'') hmarker
      (hplain'.ne_nil hs'') (hplain'.head hs'') hstart'' hl
    rw [List.drop_drop] at hearlier
    exact hfirst d' hd' s'' hs'' hearlier

theorem follows_block {marker : List Char} {w : Char} (h : Spells isWord r language)
    (h' : Spells isWord q language') (hplain : Plain marker w language)
    (hplain' : Plain marker w language') (hmarker : marker.head? = some w) {m : Marks}
    {t : List Char}
    (hclear : ∀ k n, marksOf isWord (.seq r (.seq (.lazy fun _ => true) q)) t k = some n →
      Clear language language' m t k (n + 1)) :
    Follows isWord (.seq r (.seq (.lazy fun _ => true) q)) marker (fun _ => True) m
      (marksOf isWord (.seq r (.seq (.lazy fun _ => true) q)) t) t := by
  refine ⟨?_, ⟨?_, ?_⟩, ?_, fun _ _ _ _ _ => .inr fun _ _ => trivial, ?_⟩
  · rintro read c left rfl prev rest ⟨n, hn⟩
    obtain ⟨s, _, _, hs, hstart, _⟩ := (matchLength_block_iff h h').mp hn
    obtain ⟨d, s', rfl, hd⟩ := hplain.starts s hs
    obtain ⟨rfl, _⟩ := List.cons_prefix_cons.mp hstart
    exact hd (List.mem_append_right _ List.mem_cons_self)
  · intro k n hk i hi l hl
    obtain ⟨s, s', d, hs, hstart, hs', hstart', _, _, hn⟩ :=
      (matchLength_block_iff h h').mp (match_of_mark hk)
    rw [List.drop_drop, ← Nat.add_assoc] at hstart'
    obtain ⟨hbegin, hend⟩ := hclear k n hk s s' d hs hstart hs' hstart' hn
    have hpos := List.length_pos_iff.mpr (hplain'.ne_nil hs')
    rcases Nat.lt_or_ge i s.length with hlt | hle
    · rw [(hbegin i hlt).eq_none] at hl
      cases hl
    · rcases Nat.lt_or_ge i (s.length + d) with hlt | hle'
      · have hreach := hend 0 hpos (k + i) l hl (by omega)
        omega
      · obtain ⟨j, rfl⟩ := Nat.exists_eq_add_of_le hle'
        have hnone := (hend j (by omega)).eq_none
        rw [← Nat.add_assoc, ← Nat.add_assoc, hnone] at hl
        cases hl
  · intro k n hk i hi
    refine Option.eq_none_iff_forall_ne_some.mpr fun l hl => ?_
    obtain ⟨s, s', d, hs, hstart, hs', hstart', _, _, hn⟩ :=
      (matchLength_block_iff h h').mp (match_of_mark hl)
    rw [List.drop_drop, ← Nat.add_assoc] at hstart'
    obtain ⟨hbegin, _⟩ := hclear (k + i) l hl s s' d hs hstart hs' hstart' hn
    have hreach := hbegin 0 (List.length_pos_iff.mpr (hplain.ne_nil hs)) k n hk (by omega)
    omega
  · intro k n prev _ _ _ hk _
    rw [matchLength_block_iff h h']
    exact block_over hplain' hmarker (hclear k n hk)
      ((matchLength_block_iff h h').mp (match_of_mark hk))
  · rintro k prev hlt _ hfree' _ hk _ ⟨n, hn⟩
    obtain ⟨s, s', d, hs, hstart, hs', hstart', _, _, _⟩ := (matchLength_block_iff h h').mp hn
    have hgap := prefix_gap_of_blank (hplain.free s hs) hmarker hstart
    have hstands := hgap.trans (gap_starts marker (m.shift k) (t.drop k)).1
    have hnone : ∀ i < s.length, m.shift k i = none := fun i hi =>
      none_of_lt_gap (Nat.lt_of_lt_of_le hi hgap.length_le)
    have hne := hplain'.ne_nil hs'
    have hinside : s' <:+: blank marker 0 ((m.shift k).shift s.length) ((t.drop k).drop s.length) := by
      rw [blankFrom, blank_of_start hstands hnone, ← List.drop_drop, List.drop_left] at hstart'
      exact hstart'.isInfix.trans (List.drop_suffix d _).isInfix
    refine not_starts_of_mark hlt hfree' hk (starts_of_inside h h' (fun _ => hplain'.ne_nil) hs
      hstands hs' (infix_of_blank (hplain'.free s' hs') hmarker hne (hplain'.head hs') hinside))

end Blocks

end Regex
