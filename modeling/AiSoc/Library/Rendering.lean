import AiSoc.Library.Passes

namespace Regex

section Pieces

variable {marker : List Char}

def pieces : Nat → Marks → List Char → List (Option Char)
  | _, _, [] => []
  | skip + 1, m, _ :: t => pieces skip (m.shift 1) t
  | 0, m, c :: t =>
      match m 0 with
      | some n => none :: pieces n (m.shift 1) t
      | none => some c :: pieces 0 (m.shift 1) t

def render (marker : List Char) (found : List (Option Char)) : List Char :=
  found.flatMap fun piece => piece.elim marker fun c => [c]

theorem pieces_kept {m : Marks} {c : Char} {t : List Char} (h : m 0 = none) :
    pieces 0 m (c :: t) = some c :: pieces 0 (m.shift 1) t := by
  simp only [pieces, h]

theorem pieces_marked {m : Marks} {n : Nat} {c : Char} {t : List Char} (h : m 0 = some n) :
    pieces 0 m (c :: t) = none :: pieces n (m.shift 1) t := by
  simp only [pieces, h]

theorem render_pieces (skip : Nat) (m : Marks) (t : List Char) :
    render marker (pieces skip m t) = blank marker skip m t := by
  induction t generalizing skip m with
  | nil => simp only [pieces, blank, render, List.flatMap_nil]
  | cons c t ih =>
      cases skip with
      | succ skip => exact ih skip (m.shift 1)
      | zero =>
          cases hm : m 0 with
          | some n =>
              rw [pieces_marked hm, blank_marked hm, ← ih n (m.shift 1)]
              rfl
          | none =>
              rw [pieces_kept hm, blank_kept hm, ← ih 0 (m.shift 1)]
              rfl

theorem kept_of_prefix {m : Marks} {s t : List Char} (h : s.map some <+: pieces 0 m t) :
    s <+: t ∧ ∀ i < s.length, m i = none := by
  induction s generalizing m t with
  | nil => exact ⟨List.nil_prefix, nofun⟩
  | cons c s ih =>
      cases t with
      | nil =>
          simp only [pieces, List.map_cons] at h
          cases List.prefix_nil.mp h
      | cons d t =>
          cases hm : m 0 with
          | some n =>
              rw [pieces_marked hm] at h
              obtain ⟨hsome, _⟩ := List.cons_prefix_cons.mp h
              cases hsome
          | none =>
              rw [pieces_kept hm] at h
              obtain ⟨hc, hrest⟩ := List.cons_prefix_cons.mp h
              obtain rfl := Option.some.inj hc
              obtain ⟨hstart, hnone⟩ := ih hrest
              refine ⟨List.cons_prefix_cons.mpr ⟨rfl, hstart⟩, fun i hi => ?_⟩
              cases i with
              | zero => exact hm
              | succ i => exact hnone i (Nat.lt_of_succ_lt_succ hi)

theorem kept_of_infix {m : Marks} {skip : Nat} {s t : List Char} (hs : s ≠ []) (hm : m.Laminar)
    (hskip : ∀ i < skip, ∀ n, m i = some n → i + n < skip)
    (h : s.map some <:+: pieces skip m t) :
    ∃ i, skip ≤ i ∧ s <+: t.drop i ∧ ∀ j < s.length, m.Outside (i + j) := by
  have hmap : s.map some ≠ [] := fun hnil => hs (List.map_eq_nil_iff.mp hnil)
  induction t generalizing m skip with
  | nil =>
      simp only [pieces] at h
      exact absurd (List.infix_nil.mp h) hmap
  | cons c t ih =>
      have hlater : ∀ {skip'}, s.map some <:+: pieces skip' (m.shift 1) t → skip ≤ skip' + 1 →
          (∀ i < skip', ∀ n, m.shift 1 i = some n → i + n < skip') →
          (∀ n, m 0 = some n → n ≤ skip') →
          ∃ i, skip ≤ i ∧ s <+: (c :: t).drop i ∧ ∀ j < s.length, m.Outside (i + j) := by
        intro skip' hinside hle hskip' hzero
        obtain ⟨i, hi, hstart, hout⟩ := ih (hm.shift 1) hskip' hinside
        refine ⟨i + 1, by omega, hstart, fun j hj k n hk hkj => ?_⟩
        cases k with
        | zero =>
            have hn := hzero n hk
            omega
        | succ k =>
            have hbefore := hout j hj k n hk (by omega)
            omega
      cases skip with
      | succ skip =>
          refine hlater h (Nat.le_refl _) (fun i hi n hn => ?_) (fun n hn => ?_)
          · have hend := hskip (i + 1) (Nat.succ_lt_succ hi) n hn
            omega
          · have hend := hskip 0 (Nat.succ_pos skip) n hn
            omega
      | zero =>
          cases hzero : m 0 with
          | some n =>
              rw [pieces_marked hzero] at h
              rcases List.infix_cons_iff.mp h with hstart | hinside
              · obtain ⟨d, s, rfl⟩ := List.exists_cons_of_ne_nil hs
                obtain ⟨hsome, _⟩ := List.cons_prefix_cons.mp hstart
                cases hsome
              · refine hlater hinside (Nat.zero_le _) (fun i hi l hl => ?_) (fun l hl => ?_)
                · have hend := hm 0 n hzero (i + 1) hi l (by rw [Nat.zero_add]; exact hl)
                  omega
                · rw [hzero] at hl
                  exact Nat.le_of_eq (Option.some.inj hl).symm
          | none =>
              have hkept := pieces_kept (t := t) (c := c) hzero
              rw [hkept] at h
              rcases List.infix_cons_iff.mp h with hstart | hinside
              · rw [← hkept] at hstart
                obtain ⟨hstands, hnone⟩ := kept_of_prefix hstart
                refine ⟨0, Nat.le_refl 0, hstands, fun j hj k n hk hkj => ?_⟩
                rw [hnone k (by omega)] at hk
                cases hk
              · refine hlater hinside (Nat.zero_le _) (fun i hi => absurd hi (Nat.not_lt_zero i))
                  fun n hn => ?_
                rw [hzero] at hn
                cases hn

theorem infix_blank_of_outside {m : Marks} {i : Nat} {s t : List Char} (h : s <+: t.drop i)
    (hout : ∀ j < s.length, m.Outside (i + j)) : s <:+: blank marker 0 m t := by
  cases s with
  | nil => exact List.nil_infix
  | cons c s =>
      have hfree := (hout 0 (Nat.succ_pos _)).free
      rw [blank_take_drop t (Nat.zero_le i) fun k n _ hk hn => hfree k n hn hk]
      have hclear : ∀ j < (c :: s).length, m.shift i j = none := by
        intro j hj
        rw [Marks.shift, Nat.add_comm]
        exact (hout j hj).eq_none
      rw [blank_of_start h hclear]
      exact List.infix_append_of_infix_right (List.prefix_append _ _).isInfix

end Pieces

section Touching

variable {marker : List Char}

def Touches (marker s : List Char) : Prop :=
  (s <:+: marker ∨ marker <:+: s) ∨
    (∃ part ∈ s.tails, part ≠ [] ∧ part <+: marker) ∨ ∃ part ∈ s.inits, part ≠ [] ∧ part <:+ marker

instance (marker s : List Char) : Decidable (Touches marker s) :=
  inferInstanceAs (Decidable (_ ∨ _))

theorem kept_or_touches_start {s : List Char} {found : List (Option Char)}
    (h : s <+: render marker found) :
    s.map some <+: found ∨ marker <:+: s ∨ ∃ part ∈ s.tails, part ≠ [] ∧ part <+: marker := by
  induction found generalizing s with
  | nil =>
      obtain rfl := List.prefix_nil.mp h
      exact .inl List.nil_prefix
  | cons piece found ih =>
      cases s with
      | nil => exact .inl List.nil_prefix
      | cons c s =>
          cases piece with
          | some d =>
              obtain ⟨rfl, hrest⟩ := List.cons_prefix_cons.mp h
              rcases ih hrest with hkept | hinside | ⟨part, hpart, hne, hstart⟩
              · exact .inl (List.cons_prefix_cons.mpr ⟨rfl, hkept⟩)
              · exact .inr (.inl (List.infix_cons hinside))
              · refine .inr (.inr ⟨part, ?_, hne, hstart⟩)
                rw [List.mem_tails] at hpart ⊢
                exact hpart.trans (List.suffix_cons c s)
          | none =>
              have hwhole : c :: s <+: marker ++ render marker found := h
              rcases List.prefix_or_prefix_of_prefix hwhole (List.prefix_append marker _) with
                hstart | hstart
              · refine .inr (.inr ⟨c :: s, ?_, List.cons_ne_nil c s, hstart⟩)
                rw [List.mem_tails]
              · exact .inr (.inl hstart.isInfix)

theorem kept_or_touches {s : List Char} {found : List (Option Char)}
    (h : s <:+: render marker found) : s.map some <:+: found ∨ Touches marker s := by
  induction found with
  | nil =>
      obtain rfl := List.infix_nil.mp h
      exact .inl List.nil_infix
  | cons piece found ih =>
      cases piece with
      | some d =>
          have hwhole : s <:+: d :: render marker found := h
          rcases List.infix_cons_iff.mp hwhole with hstart | hinside
          · have hstart' : s <+: render marker (some d :: found) := hstart
            rcases kept_or_touches_start hstart' with hkept | hinside | htail
            · exact .inl hkept.isInfix
            · exact .inr (.inl (.inr hinside))
            · exact .inr (.inr (.inl htail))
          · exact (ih hinside).imp_left List.infix_cons
      | none =>
          have hwhole : s <:+: marker ++ render marker found := h
          rcases List.infix_append_iff_ne_nil.mp hwhole with hin | hin | hover
          · exact .inr (.inl (.inl hin))
          · exact (ih hin).imp_left List.infix_cons
          · obtain ⟨part, left, hpart, _, rfl, hend, _⟩ := hover
            refine .inr (.inr (.inr ⟨part, ?_, hpart, hend⟩))
            rw [List.mem_inits]
            exact List.prefix_append part left

theorem outside_of_infix {m : Marks} {s t : List Char} (hm : m.Laminar)
    (htouches : ¬ Touches marker s) (h : s <:+: blank marker 0 m t) :
    ∃ i, s <+: t.drop i ∧ ∀ j < s.length, m.Outside (i + j) := by
  cases s with
  | nil => exact ⟨0, List.nil_prefix, nofun⟩
  | cons c s =>
      rw [← render_pieces] at h
      have hkept := (kept_or_touches h).resolve_right htouches
      obtain ⟨i, _, hstart, hout⟩ := kept_of_infix (List.cons_ne_nil c s) hm
        (fun i hi => absurd hi (Nat.not_lt_zero i)) hkept
      exact ⟨i, hstart, hout⟩

end Touching

section Growth

variable {marker : List Char}

def stretches : Nat → Marks → List Char → List Nat
  | _, _, [] => []
  | skip + 1, m, _ :: t => stretches skip (m.shift 1) t
  | 0, m, _ :: t =>
      match m 0 with
      | some n => (n + 1) :: stretches n (m.shift 1) t
      | none => stretches 0 (m.shift 1) t

theorem length_blank {skip : Nat} {m : Marks} {t : List Char} (hskip : skip ≤ t.length)
    (hm : ∀ k n, m k = some n → k < t.length → k + n < t.length) :
    ((blank marker skip m t).length : Int) =
      t.length - skip + growth marker.length (stretches skip m t) := by
  induction t generalizing skip m with
  | nil =>
      obtain rfl : skip = 0 := Nat.le_zero.mp hskip
      simp only [blank, stretches]
      rfl
  | cons c t ih =>
      have hrest : ∀ k n, m.shift 1 k = some n → k < t.length → k + n < t.length := by
        intro k n hk hlt
        have hreach := hm (k + 1) n hk (Nat.succ_lt_succ hlt)
        rw [List.length_cons] at hreach
        omega
      cases skip with
      | succ skip =>
          have hlater := ih (Nat.le_of_succ_le_succ hskip) hrest
          simp only [blank, stretches, List.length_cons] at hlater ⊢
          omega
      | zero =>
          cases hzero : m 0 with
          | some n =>
              have hn := hm 0 n hzero (Nat.succ_pos _)
              rw [List.length_cons] at hn
              have hle : n ≤ t.length := by omega
              have hlater := ih hle hrest
              simp only [blank, stretches, hzero, growth, List.map_cons, List.sum_cons,
                List.length_append, List.length_cons] at hlater ⊢
              omega
          | none =>
              have hlater := ih (Nat.zero_le _) hrest
              simp only [blank, stretches, hzero, List.length_cons] at hlater ⊢
              omega

end Growth

section Alteration

variable {isWord : Char → Bool} {r : Pattern} {marker : List Char} {w : Char} {t out : List Char}

def Altered (w : Char) (t out : List Char) : Prop :=
  ∃ u x a b, t = u ++ x :: a ∧ out = u ++ w :: b ∧ x ≠ w

theorem Altered.ne (h : Altered w t out) : out ≠ t := by
  obtain ⟨u, x, a, b, rfl, rfl, hne⟩ := h
  intro heq
  obtain ⟨hw, _⟩ := List.cons.inj (List.append_cancel_left heq)
  exact hne hw.symm

theorem sub_of_no_mark (h : ∀ i, marksOf isWord r t i = none) : sub isWord r marker t = t := by
  rw [sub_eq_blank, blank_of_none fun i _ => h i]

theorem sub_altered (hmarker : marker.head? = some w)
    (hw : ∀ prev t, ¬ Starts isWord r prev (w :: t)) {k n : Nat}
    (h : marksOf isWord r t k = some n) : Altered w t (sub isWord r marker t) := by
  rw [sub_eq_blank]
  obtain ⟨a, b, hu, hblank, hend⟩ := gap_split marker (marksOf isWord r t) t
  rcases hend with ⟨rfl, _⟩ | ⟨x, a', b', rfl, rfl, hmark⟩
  · have hle := matchLength_le (match_of_mark h)
    rw [List.append_nil] at hu
    rw [List.length_drop] at hle
    have hlt : k < (gap (marksOf isWord r t) t).length := by
      rw [← hu]
      omega
    rw [none_of_lt_gap hlt] at h
    cases h
  · obtain ⟨l, hl⟩ := Option.isSome_iff_exists.mp hmark
    have hmatch := match_of_mark hl
    have hdrop : t.drop (gap (marksOf isWord r t) t).length = x :: a' := by
      refine (congrArg (List.drop (gap (marksOf isWord r t) t).length) hu).trans ?_
      rw [List.drop_left]
    rw [hdrop] at hmatch
    obtain ⟨d, marker', rfl⟩ := List.exists_cons_of_ne_nil
      (fun hnil : marker = [] => by simp [hnil] at hmarker)
    obtain rfl : d = w := Option.some.inj hmarker
    refine ⟨_, x, a', marker' ++ b', hu, hblank, ?_⟩
    rintro rfl
    exact hw _ a' ⟨l, hmatch⟩

theorem subFrom_altered (hmarker : marker.head? = some w)
    (hw : ∀ prev t, ¬ Starts isWord r prev (w :: t)) (prev : Option Char) (u b : List Char) :
    (∃ b', subFrom isWord r marker 0 prev (u ++ w :: b) = u ++ w :: b') ∨
      ∃ u' y u'' b', u = u' ++ y :: u'' ∧ y ≠ w ∧
        subFrom isWord r marker 0 prev (u ++ w :: b) = u' ++ w :: b' := by
  induction u generalizing prev with
  | nil =>
      exact .inl ⟨subFrom isWord r marker 0 (some w) b, subFrom_no_match (hw prev b)⟩
  | cons c u ih =>
      by_cases hstarts : Starts isWord r prev (c :: (u ++ w :: b))
      · obtain ⟨n, hn⟩ := hstarts
        obtain ⟨d, marker', rfl⟩ := List.exists_cons_of_ne_nil
          (fun hnil : marker = [] => by simp [hnil] at hmarker)
        obtain rfl : d = w := Option.some.inj hmarker
        refine .inr ⟨[], c, u, _, rfl, ?_, subFrom_match hn⟩
        rintro rfl
        exact hw prev _ ⟨n, hn⟩
      · rw [List.cons_append, subFrom_no_match hstarts]
        rcases ih (some c) with ⟨b', hb⟩ | ⟨u', y, u'', b', rfl, hne, hb⟩
        · exact .inl ⟨b', by rw [hb, List.cons_append]⟩
        · exact .inr ⟨c :: u', y, u'', b', rfl, hne, by rw [hb, List.cons_append]⟩

theorem Altered.sub (h : Altered w t out) (hmarker : marker.head? = some w)
    (hw : ∀ prev t, ¬ Starts isWord r prev (w :: t)) :
    Altered w t (Regex.sub isWord r marker out) := by
  obtain ⟨u, x, a, b, rfl, rfl, hne⟩ := h
  rcases subFrom_altered hmarker hw none u b with ⟨b', hb⟩ | ⟨u', y, u'', b', rfl, hy, hb⟩
  · exact ⟨u, x, a, b', rfl, hb, hne⟩
  · refine ⟨u', y, u'' ++ x :: a, b', ?_, hb, hy⟩
    rw [List.append_assoc, List.cons_append]

end Alteration

end Regex
