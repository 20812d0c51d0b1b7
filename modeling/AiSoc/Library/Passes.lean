import AiSoc.Library.Replacement

namespace Regex

section Passes

variable {isWord : Char → Bool} {r : Pattern} {marker : List Char}

def Starts (isWord : Char → Bool) (r : Pattern) (prev : Option Char) (t : List Char) : Prop :=
  ∃ n, matchLength isWord r prev t = some (n + 1)

theorem subFrom_match {n : Nat} {prev : Option Char} {c : Char} {t : List Char}
    (h : matchLength isWord r prev (c :: t) = some (n + 1)) :
    subFrom isWord r marker 0 prev (c :: t) = marker ++ subFrom isWord r marker n (some c) t := by
  simp only [subFrom, h]

theorem subFrom_no_match {prev : Option Char} {c : Char} {t : List Char}
    (h : ¬ Starts isWord r prev (c :: t)) :
    subFrom isWord r marker 0 prev (c :: t) = c :: subFrom isWord r marker 0 (some c) t := by
  simp only [subFrom]
  split
  · rename_i n hmatch
    exact absurd ⟨n, hmatch⟩ h
  · rfl

theorem subFrom_skip {skip : Nat} {prev : Option Char} {t : List Char} :
    subFrom isWord r marker skip prev t =
      subFrom isWord r marker 0 (before prev t skip) (t.drop skip) := by
  induction t generalizing skip prev with
  | nil =>
      rw [List.drop_nil]
      simp only [subFrom]
  | cons c t ih =>
      cases skip with
      | zero => rfl
      | succ skip =>
          rw [List.drop_succ_cons, ← before_cons prev c t skip, ← ih]
          simp only [subFrom]

theorem subFrom_found {prev : Option Char} {found left : List Char} (hne : found ≠ [])
    (h : matchLength isWord r prev (found ++ left) = some found.length) :
    subFrom isWord r marker 0 prev (found ++ left) =
      marker ++ subFrom isWord r marker 0 (before prev (found ++ left) found.length) left := by
  obtain ⟨c, found, rfl⟩ := List.exists_cons_of_ne_nil hne
  rw [List.length_cons, List.cons_append] at h ⊢
  rw [subFrom_match h, subFrom_skip, List.drop_left, before_cons prev]

def Inert (isWord : Char → Bool) (r : Pattern) (marker : List Char) : Prop :=
  ∀ read c left, marker = read ++ c :: left →
    ∀ prev rest, ¬ Starts isWord r prev (c :: (left ++ rest))

theorem subFrom_inert (read : List Char) {left : List Char} (hinert : Inert isWord r (read ++ left))
    (prev : Option Char) (rest : List Char) :
    subFrom isWord r marker 0 prev (left ++ rest) =
      left ++ subFrom isWord r marker 0 (left.getLast?.or prev) rest := by
  induction left generalizing prev read with
  | nil => rfl
  | cons c left ih =>
      have hnone := hinert read c left rfl prev rest
      have hread : read ++ c :: left = (read ++ [c]) ++ left := by
        rw [List.append_assoc, List.singleton_append]
      rw [hread] at hinert
      rw [List.cons_append, subFrom_no_match hnone, ih _ hinert (some c), List.getLast?_cons]
      cases left.getLast? <;> rfl

def Linked (closes : Char → Prop) (t : List Char) (k : Nat) (prev : Option Char) : Prop :=
  prev = before none t k ∨ ∀ y, t[k]? = some y → closes y

structure Follows (isWord : Char → Bool) (r : Pattern) (marker : List Char)
    (closes : Char → Prop) (m j : Marks) (t : List Char) : Prop where
  inert : Inert isWord r marker
  nested : m.Nested j
  found : ∀ k n prev, k < t.length → m.Free k → j.Free k → j k = some n → Linked closes t k prev →
    matchLength isWord r prev (blankFrom marker m t k) =
      some (blank marker 0 (m.shift k) ((t.drop k).take (n + 1))).length
  linked : ∀ k n prev, k < t.length → j k = some n → Linked closes t (k + n + 1)
    (before prev (blankFrom marker m t k)
      (blank marker 0 (m.shift k) ((t.drop k).take (n + 1))).length)
  none : ∀ k prev, k < t.length → m.Free k → j.Free k → m k = none → j k = none →
    Linked closes t k prev → ¬ Starts isWord r prev (blankFrom marker m t k)

theorem subFrom_blankFrom {closes : Char → Prop} {m j : Marks} {t : List Char}
    (h : Follows isWord r marker closes m j t) (hm : m.Laminar) (hj : j.Laminar)
    (hcloses : ∀ k n, m k = some n → ∀ y, t[k + n + 1]? = some y → closes y)
    {left k : Nat} {prev : Option Char} (hleft : t.length - k ≤ left) (hfree : m.Free k)
    (hfree' : j.Free k) (hlinked : Linked closes t k prev) :
    subFrom isWord r marker 0 prev (blankFrom marker m t k) = blankFrom marker (m.union j) t k := by
  induction left generalizing k prev with
  | zero =>
      have hle : t.length ≤ k := by omega
      rw [blankFrom_end hle, blankFrom_end hle]
      simp only [subFrom]
  | succ left ih =>
      by_cases hlt : k < t.length
      · cases hmark : m k with
        | some n =>
            have hnone := h.nested.starts k n hmark
            rw [blankFrom_marked hlt hmark, blankFrom_marked hlt (Marks.union_left hmark),
              subFrom_inert [] h.inert]
            refine congrArg (marker ++ ·) (ih (by omega) (hfree.after (hm k n hmark))
              (hfree'.after_none hnone) (.inr ?_))
            exact hcloses k n hmark
        | none =>
            cases hfound : j k with
            | some n =>
                have hmatch := h.found k n prev hlt hfree hfree' hfound hlinked
                have hlinked' := h.linked k n prev hlt hfound
                have hends := h.nested.ends k n hfound
                have hne : blank marker 0 (m.shift k) ((t.drop k).take (n + 1)) ≠ [] := by
                  have hzero : m.shift k 0 = none := by rw [Marks.shift_apply_zero, hmark]
                  rw [List.drop_eq_getElem_cons hlt, List.take_succ_cons, blank_kept hzero]
                  exact List.cons_ne_nil _ _
                rw [blankFrom_split t hends] at hmatch hlinked' ⊢
                rw [subFrom_found hne hmatch,
                  blankFrom_marked hlt (Marks.union_right hmark hfound)]
                exact congrArg (marker ++ ·) (ih (by omega) (hfree.after hends)
                  (hfree'.after (hj k n hfound)) hlinked')
            | none =>
                have hnot := h.none k prev hlt hfree hfree' hmark hfound hlinked
                have hc : t[k]? = some t[k] := List.getElem?_eq_getElem hlt
                rw [blankFrom_kept hc hmark] at hnot ⊢
                rw [subFrom_no_match hnot, blankFrom_kept hc (Marks.union_none hmark hfound)]
                refine congrArg (t[k] :: ·) (ih (by omega) (hfree.succ hmark)
                  (hfree'.succ hfound) (.inl ?_))
                exact hc.symm
      · have hle : t.length ≤ k := Nat.le_of_not_lt hlt
        rw [blankFrom_end hle, blankFrom_end hle]
        simp only [subFrom]

theorem sub_blank {closes : Char → Prop} {m j : Marks} {t : List Char}
    (h : Follows isWord r marker closes m j t) (hm : m.Laminar) (hj : j.Laminar)
    (hcloses : ∀ k n, m k = some n → ∀ y, t[k + n + 1]? = some y → closes y) :
    sub isWord r marker (blank marker 0 m t) = blank marker 0 (m.union j) t :=
  subFrom_blankFrom h hm hj hcloses (Nat.le_refl _) (.zero m) (.zero j) (.inl rfl)

end Passes

section Matches

variable (isWord : Char → Bool)

def marksWithin (r : Pattern) : Nat → Marks → Option Char → List Char → List (Option Nat)
  | _, _, _, [] => []
  | skip + 1, m, _, c :: t => none :: marksWithin r skip (m.shift 1) (some c) t
  | 0, m, prev, c :: t =>
      match m 0 with
      | some n => none :: marksWithin r n (m.shift 1) (some c) t
      | none =>
          match matchLength isWord r prev (gap m (c :: t)) with
          | some (n + 1) => some n :: marksWithin r n (m.shift 1) (some c) t
          | _ => none :: marksWithin r 0 (m.shift 1) (some c) t

def marksOf (r : Pattern) (t : List Char) : Marks :=
  .ofList (marks isWord r t)

def marksLeft (r : Pattern) (m : Marks) (t : List Char) : Marks :=
  .ofList (marksWithin isWord r 0 m none t)

variable {isWord} {r : Pattern} {m : Marks} {prev : Option Char} {c : Char} {t : List Char}

theorem marksWithin_marked {n : Nat} (h : m 0 = some n) :
    marksWithin isWord r 0 m prev (c :: t) =
      none :: marksWithin isWord r n (m.shift 1) (some c) t := by
  simp only [marksWithin, h]

theorem marksWithin_match {n : Nat} (h : m 0 = none)
    (hmatch : matchLength isWord r prev (gap m (c :: t)) = some (n + 1)) :
    marksWithin isWord r 0 m prev (c :: t) =
      some n :: marksWithin isWord r n (m.shift 1) (some c) t := by
  simp only [marksWithin, h, hmatch]

theorem marksWithin_no_match (h : m 0 = none) (hnone : ¬ Starts isWord r prev (gap m (c :: t))) :
    marksWithin isWord r 0 m prev (c :: t) =
      none :: marksWithin isWord r 0 (m.shift 1) (some c) t := by
  simp only [marksWithin, h]
  split
  · rename_i n hmatch
    exact absurd ⟨n, hmatch⟩ hnone
  · rfl

theorem marksFrom_match {n : Nat} (h : matchLength isWord r prev (c :: t) = some (n + 1)) :
    marksFrom isWord r 0 prev (c :: t) = some n :: marksFrom isWord r n (some c) t := by
  simp only [marksFrom, h]

theorem marksFrom_no_match (h : ¬ Starts isWord r prev (c :: t)) :
    marksFrom isWord r 0 prev (c :: t) = none :: marksFrom isWord r 0 (some c) t := by
  simp only [marksFrom]
  split
  · rename_i n hmatch
    exact absurd ⟨n, hmatch⟩ h
  · rfl

theorem marksFrom_eq (skip : Nat) (prev : Option Char) (t : List Char) (h : ∀ i, m i = none) :
    marksFrom isWord r skip prev t = marksWithin isWord r skip m prev t := by
  induction t generalizing skip prev m with
  | nil => simp only [marksFrom, marksWithin]
  | cons c t ih =>
      have hrest : ∀ i, m.shift 1 i = none := fun i => h (i + 1)
      cases skip with
      | succ skip =>
          simp only [marksFrom, marksWithin]
          rw [ih skip (some c) hrest]
      | zero =>
          have hgap : gap m (c :: t) = c :: t := gap_of_none h
          by_cases hstarts : Starts isWord r prev (c :: t)
          · obtain ⟨n, hn⟩ := hstarts
            rw [marksFrom_match hn, marksWithin_match (h 0) (by rw [hgap, hn]),
              ih n (some c) hrest]
          · rw [marksFrom_no_match hstarts,
              marksWithin_no_match (h 0) (by rw [hgap]; exact hstarts), ih 0 (some c) hrest]

theorem marksOf_eq (r : Pattern) (t : List Char) :
    marksOf isWord r t = marksLeft isWord r (fun _ => none) t :=
  congrArg Marks.ofList (marksFrom_eq 0 none t fun _ => rfl)

theorem marksWithin_skip {skip : Nat} :
    ∀ i < skip, Marks.ofList (marksWithin isWord r skip m prev t) i = none := by
  induction t generalizing skip prev m with
  | nil =>
      intro i _
      simp [Marks.ofList, marksWithin]
  | cons c t ih =>
      cases skip with
      | zero => exact fun i hi => absurd hi (Nat.not_lt_zero i)
      | succ skip =>
          intro i hi
          cases i with
          | zero => rfl
          | succ i => exact ih i (Nat.lt_of_succ_lt_succ hi)

theorem match_of_markWithin {skip k n : Nat}
    (h : Marks.ofList (marksWithin isWord r skip m prev t) k = some n) :
    m k = none ∧
      matchLength isWord r (before prev t k) (gap (m.shift k) (t.drop k)) = some (n + 1) := by
  induction t generalizing skip prev m k with
  | nil =>
      have hnone : Marks.ofList (marksWithin isWord r skip m prev []) k = none := by
        simp [Marks.ofList, marksWithin]
      rw [hnone] at h
      cases h
  | cons c t ih =>
      have hlater : ∀ {skip' k'}, Marks.ofList (marksWithin isWord r skip' (m.shift 1) (some c) t) k' =
          some n → m (k' + 1) = none ∧ matchLength isWord r (before prev (c :: t) (k' + 1))
            (gap (m.shift (k' + 1)) ((c :: t).drop (k' + 1))) = some (n + 1) := by
        intro skip' k' hk
        obtain ⟨hnone, hmatch⟩ := ih hk
        rw [Marks.shift_shift, before_cons prev] at hmatch
        exact ⟨hnone, hmatch⟩
      cases skip with
      | succ skip =>
          cases k with
          | zero => cases h
          | succ k => exact hlater h
      | zero =>
          cases hm : m 0 with
          | some l =>
              rw [marksWithin_marked hm] at h
              cases k with
              | zero => cases h
              | succ k => exact hlater h
          | none =>
              by_cases hstarts : Starts isWord r prev (gap m (c :: t))
              · obtain ⟨l, hl⟩ := hstarts
                rw [marksWithin_match hm hl] at h
                cases k with
                | zero =>
                    rw [Marks.ofList_cons_zero] at h
                    obtain rfl := Option.some.inj h
                    exact ⟨hm, hl⟩
                | succ k => exact hlater h
              · rw [marksWithin_no_match hm hstarts] at h
                cases k with
                | zero => cases h
                | succ k => exact hlater h

theorem not_starts_of_markWithin {skip k : Nat} (hskip : skip ≤ k) (hlt : k < t.length)
    (hfree : m.Free k) (hm : m k = none)
    (hfree' : (Marks.ofList (marksWithin isWord r skip m prev t)).Free k)
    (hnone : Marks.ofList (marksWithin isWord r skip m prev t) k = none) :
    ¬ Starts isWord r (before prev t k) (gap (m.shift k) (t.drop k)) := by
  induction t generalizing skip prev m k with
  | nil => cases hlt
  | cons c t ih =>
      have hlater : ∀ {skip' k'} {mark : Option Nat}, k = k' + 1 → skip' ≤ k' →
          marksWithin isWord r skip m prev (c :: t) =
            mark :: marksWithin isWord r skip' (m.shift 1) (some c) t →
          ¬ Starts isWord r (before prev (c :: t) k) (gap (m.shift k) ((c :: t).drop k)) := by
        rintro skip' k' mark rfl hle heq
        rw [heq] at hfree' hnone
        have hrest := ih hle (Nat.lt_of_succ_lt_succ hlt) hfree.shift hm
          (Marks.Free.shift (k := 1) hfree') hnone
        rw [Marks.shift_shift, before_cons prev] at hrest
        exact hrest
      cases skip with
      | succ skip =>
          obtain ⟨k', rfl⟩ := Nat.exists_eq_add_of_lt (Nat.lt_of_lt_of_le (Nat.succ_pos skip) hskip)
          exact @hlater skip k' _ (by omega) (by omega) rfl
      | zero =>
          cases hzero : m 0 with
          | some l =>
              cases k with
              | zero =>
                  rw [hm] at hzero
                  cases hzero
              | succ k =>
                  have hreach := hfree 0 l hzero (Nat.succ_pos k)
                  exact hlater rfl (by omega) (marksWithin_marked hzero)
          | none =>
              by_cases hstarts : Starts isWord r prev (gap m (c :: t))
              · obtain ⟨l, hl⟩ := hstarts
                have heq := marksWithin_match (t := t) hzero hl
                cases k with
                | zero =>
                    rw [heq, Marks.ofList_cons_zero] at hnone
                    cases hnone
                | succ k =>
                    have hmark : Marks.ofList (marksWithin isWord r 0 m prev (c :: t)) 0 = some l := by
                      rw [heq, Marks.ofList_cons_zero]
                    have hreach := hfree' 0 l hmark (Nat.succ_pos k)
                    exact hlater rfl (by omega) heq
              · cases k with
                | zero => exact hstarts
                | succ k => exact hlater rfl (Nat.zero_le k) (marksWithin_no_match hzero hstarts)

theorem unnested_marksWithin (skip : Nat) (m : Marks) (prev : Option Char) :
    (Marks.ofList (marksWithin isWord r skip m prev t)).Unnested := by
  induction t generalizing skip prev m with
  | nil =>
      intro k n hk
      simp [Marks.ofList, marksWithin] at hk
  | cons c t ih =>
      have hlater : ∀ {mark found}, (Marks.ofList found).Unnested →
          (∀ n, mark = some n → ∀ i < n, Marks.ofList found i = none) →
            (Marks.ofList (mark :: found)).Unnested := by
        intro mark found hfound hfirst k n hk i hi hin
        cases k with
        | zero =>
            rw [Marks.ofList_cons_zero] at hk
            cases i with
            | zero => cases hi
            | succ i =>
                rw [Nat.zero_add]
                exact hfirst n hk i hin
        | succ k =>
            rw [Nat.add_right_comm]
            exact hfound k n hk i hi hin
      cases skip with
      | succ skip => exact hlater (ih skip (m.shift 1) (some c)) fun n hn => by cases hn
      | zero =>
          cases hzero : m 0 with
          | some l =>
              rw [marksWithin_marked hzero]
              exact hlater (ih l (m.shift 1) (some c)) fun n hn => by cases hn
          | none =>
              by_cases hstarts : Starts isWord r prev (gap m (c :: t))
              · obtain ⟨n, hn⟩ := hstarts
                rw [marksWithin_match hzero hn]
                refine hlater (ih n (m.shift 1) (some c)) fun l hl => ?_
                obtain rfl := Option.some.inj hl
                exact marksWithin_skip
              · rw [marksWithin_no_match hzero hstarts]
                exact hlater (ih 0 (m.shift 1) (some c)) fun n hn => by cases hn

theorem markWithin_of_stretch {skip : Nat} (hm : m.Laminar)
    (hreach : ∀ k < skip, ∀ n, m k = some n → k + n < skip) {k n : Nat} (hk : m k = some n) :
    ∀ i ≤ n, Marks.ofList (marksWithin isWord r skip m prev t) (k + i) = none := by
  induction t generalizing skip prev m k with
  | nil =>
      intro i _
      simp [Marks.ofList, marksWithin]
  | cons c t ih =>
      have hlater : ∀ {skip'}, (∀ k < skip', ∀ n, m.shift 1 k = some n → k + n < skip') →
          (∀ n, m 0 = some n → n ≤ skip') → ∀ {mark}, (m 0 = none ∨ mark = none) → ∀ i ≤ n,
            Marks.ofList (mark :: marksWithin isWord r skip' (m.shift 1) (some c) t) (k + i) = none := by
        intro skip' hreach' hfirst mark hmark i hi
        cases k with
        | zero =>
            have hn := hfirst n hk
            obtain rfl : mark = none := hmark.resolve_left fun hnone => by
              rw [hnone] at hk
              cases hk
            rw [Nat.zero_add]
            cases i with
            | zero => rfl
            | succ i => exact marksWithin_skip i (Nat.lt_of_lt_of_le hi hn)
        | succ k =>
            rw [Nat.add_right_comm]
            exact ih (hm.shift 1) hreach' hk i hi
      cases skip with
      | succ skip =>
          refine @hlater skip (fun k hk n hn => ?_) (fun n hn => ?_) none (.inr rfl)
          · have hend := hreach (k + 1) (Nat.succ_lt_succ hk) n hn
            omega
          · have hend := hreach 0 (Nat.succ_pos skip) n hn
            omega
      | zero =>
          cases hzero : m 0 with
          | some l =>
              rw [marksWithin_marked hzero]
              refine hlater (fun k hk n hn => ?_) (fun n hn => ?_) (.inr rfl)
              · have hend := hm 0 l hzero (k + 1) hk n (by rw [Nat.zero_add]; exact hn)
                omega
              · rw [hzero] at hn
                exact Nat.le_of_eq (Option.some.inj hn).symm
          | none =>
              have hnot : ∀ {n skip'}, m 0 = some n → n ≤ skip' := by
                intro n skip' hn
                rw [hzero] at hn
                cases hn
              by_cases hstarts : Starts isWord r prev (gap m (c :: t))
              · obtain ⟨l, hl⟩ := hstarts
                rw [marksWithin_match hzero hl]
                refine hlater (fun k hk n hn => ?_) (fun n hn => hnot hn) (.inl hzero)
                have hclear := none_of_lt_gap (i := k + 1)
                  (Nat.lt_of_lt_of_le (Nat.succ_lt_succ hk) (matchLength_le hl))
                rw [Marks.shift, hclear] at hn
                cases hn
              · rw [marksWithin_no_match hzero hstarts]
                exact hlater (fun k hk => absurd hk (Nat.not_lt_zero k)) (fun n hn => hnot hn)
                  (.inl hzero)

theorem match_of_mark {k n : Nat} (h : marksOf isWord r t k = some n) :
    matchLength isWord r (before none t k) (t.drop k) = some (n + 1) := by
  rw [marksOf_eq] at h
  have hmatch := (match_of_markWithin h).2
  have hgap : gap (Marks.shift (fun _ => none) k) (t.drop k) = t.drop k := gap_of_none fun _ => rfl
  rwa [hgap] at hmatch

theorem not_starts_of_mark {k : Nat} (hlt : k < t.length) (hfree : (marksOf isWord r t).Free k)
    (h : marksOf isWord r t k = none) : ¬ Starts isWord r (before none t k) (t.drop k) := by
  rw [marksOf_eq] at hfree h
  have hnot := not_starts_of_markWithin (Nat.zero_le k) hlt
    (fun _ _ hi => by cases hi) rfl hfree h
  have hgap : gap (Marks.shift (fun _ => none) k) (t.drop k) = t.drop k := gap_of_none fun _ => rfl
  rwa [hgap] at hnot

variable (isWord r t) in
theorem unnested_marksOf : (marksOf isWord r t).Unnested := by
  rw [marksOf_eq]
  exact unnested_marksWithin 0 _ none

variable (isWord r m t) in
theorem unnested_marksLeft : (marksLeft isWord r m t).Unnested :=
  unnested_marksWithin 0 m none

theorem nested_marksLeft (hm : m.Laminar) : m.Nested (marksLeft isWord r m t) where
  ends k n hk i hi l hl := by
    obtain ⟨_, hmatch⟩ := match_of_markWithin hk
    have hclear := none_of_lt_gap (i := i) (Nat.lt_of_lt_of_le (Nat.lt_succ_of_le hi)
      (matchLength_le hmatch))
    rw [Marks.shift, Nat.add_comm i k, hl] at hclear
    cases hclear
  starts k n hk :=
    markWithin_of_stretch hm (fun k hk => absurd hk (Nat.not_lt_zero k)) hk

structure Fits (opens closes : Char → Prop) (m : Marks) (t : List Char) : Prop where
  first : ∀ k n, m k = some n → ∃ x, t[k]? = some x ∧ opens x
  next : ∀ k n, m k = some n → ∀ y, t[k + n + 1]? = some y → closes y

theorem fits_marksOf {opens closes : Char → Prop} {t : List Char}
    (hfirst : ∀ prev c t n, matchLength isWord r prev (c :: t) = some n → opens c)
    (hnext : ∀ prev t n, matchLength isWord r prev t = some n → ∀ y, t[n]? = some y → closes y) :
    Fits opens closes (marksOf isWord r t) t where
  first k n hk := by
    have hmatch := match_of_mark hk
    cases hdrop : t.drop k with
    | nil =>
        have hle := matchLength_le hmatch
        rw [hdrop] at hle
        cases hle
    | cons c t' =>
        rw [hdrop] at hmatch
        refine ⟨c, ?_, hfirst _ c t' _ hmatch⟩
        rw [← List.head?_drop, hdrop, List.head?_cons]
  next k n hk y hy := by
    refine hnext _ _ _ (match_of_mark hk) y ?_
    rw [List.getElem?_drop, ← Nat.add_assoc]
    exact hy

theorem subFrom_eq_blank (skip : Nat) (prev : Option Char) (t marker : List Char) :
    subFrom isWord r marker skip prev t =
      blank marker skip (.ofList (marksFrom isWord r skip prev t)) t := by
  induction t generalizing skip prev with
  | nil => simp only [subFrom, blank]
  | cons c t ih =>
      cases skip with
      | succ skip => exact ih skip (some c)
      | zero =>
          by_cases hstarts : Starts isWord r prev (c :: t)
          · obtain ⟨n, hn⟩ := hstarts
            rw [subFrom_match hn, marksFrom_match hn, blank_marked (Marks.ofList_cons_zero _ _)]
            exact congrArg (marker ++ ·) (ih n (some c))
          · rw [subFrom_no_match hstarts, marksFrom_no_match hstarts,
              blank_kept (Marks.ofList_cons_zero _ _)]
            exact congrArg (c :: ·) (ih 0 (some c))

theorem sub_eq_blank (r : Pattern) (marker t : List Char) :
    sub isWord r marker t = blank marker 0 (marksOf isWord r t) t :=
  subFrom_eq_blank 0 none t marker

end Matches

end Regex
