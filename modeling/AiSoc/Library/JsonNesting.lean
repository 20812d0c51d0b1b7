import AiSoc.Library.JsonCode

namespace PyJson

open PyStr (hexDigit)

section Nested

inductive Nested : List Char → Prop
  | nil : Nested []
  | plain (c : Char) (h : c ∉ ['"', '\\', '\x7b', '\x7d']) : Nested [c]
  | quoted (s : String) : Nested (strText s)
  | braces {cs : List Char} (h : Nested cs) : Nested ('\x7b' :: cs ++ ['\x7d'])
  | append {xs ys : List Char} (hx : Nested xs) (hy : Nested ys) : Nested (xs ++ ys)

theorem Nested.cons {c : Char} {cs : List Char} (hc : c ∉ ['"', '\\', '\x7b', '\x7d'])
    (h : Nested cs) : Nested (c :: cs) :=
  .append (.plain c hc) h

theorem nested_of_scalarChars {cs : List Char} (h : ∀ c ∈ cs, isScalarChar c) : Nested cs := by
  induction cs with
  | nil => exact .nil
  | cons c cs ih =>
      have hc : c ∉ ['"', '\\', '\x7b', '\x7d'] := by
        have hscalar := h c List.mem_cons_self
        intro hmem
        simp only [List.mem_cons, List.not_mem_nil, or_false] at hmem
        rcases hmem with rfl | rfl | rfl | rfl
        · exact absurd hscalar (by decide)
        · exact absurd hscalar (by decide)
        · exact absurd hscalar (by decide)
        · exact absurd hscalar (by decide)
      exact .cons hc (ih fun a ha => h a (List.mem_cons_of_mem _ ha))

theorem nested_itemsText {items : List Json} (h : ∀ item ∈ items, Nested (text item)) :
    Nested (itemsText items) := by
  induction items with
  | nil => exact .plain _ (by decide)
  | cons item items ih =>
      rw [itemsText_cons]
      refine .append (h item List.mem_cons_self) ?_
      have hrest := ih fun i hi => h i (List.mem_cons_of_mem _ hi)
      cases items with
      | nil => exact hrest
      | cons next items => exact .cons (by decide) hrest

theorem nested_fieldsText {fields : Obj} (h : ∀ p ∈ fields, Nested (text p.2)) :
    ∃ body, fieldsText fields = body ++ ['\x7d'] ∧ Nested body := by
  induction fields with
  | nil => exact ⟨[], rfl, .nil⟩
  | cons p fields ih =>
      obtain ⟨key, value⟩ := p
      obtain ⟨body, hbody, hnested⟩ := ih fun q hq => h q (List.mem_cons_of_mem _ hq)
      have hvalue : Nested (text value) := h (key, value) List.mem_cons_self
      have hfirst : Nested (strText key ++ ':' :: text value) :=
        .append (.quoted key) (.cons (by decide) hvalue)
      rw [fieldsText_cons]
      cases fields with
      | nil => exact ⟨_, by simp [fieldsRest], hfirst⟩
      | cons q fields =>
          refine ⟨(strText key ++ ':' :: text value) ++ ',' :: body, ?_,
            .append hfirst (.cons (by decide) hnested)⟩
          simp [fieldsRest, hbody]

theorem nested_text (value : Json) : Nested (text value) := by
  induction value using Json.induction with
  | null => exact nested_of_scalarChars (scalar_chars trivial)
  | bool b => exact nested_of_scalarChars (scalar_chars trivial)
  | int n => exact nested_of_scalarChars (scalar_chars trivial)
  | float x => exact nested_of_scalarChars (scalar_chars trivial)
  | infinity neg => exact nested_of_scalarChars (scalar_chars trivial)
  | nan => exact nested_of_scalarChars (scalar_chars trivial)
  | str s => exact .quoted s
  | arr items ih => exact .cons (by decide) (nested_itemsText ih)
  | obj fields ih =>
      obtain ⟨body, hbody, hnested⟩ := nested_fieldsText ih
      have htext : text (.obj fields) = '\x7b' :: body ++ ['\x7d'] := by
        simp [text, hbody]
      rw [htext]
      exact .braces hnested

theorem text_obj (fields : Obj) :
    ∃ body, text (.obj fields) = '\x7b' :: body ++ ['\x7d'] ∧ Nested body := by
  have hvalues : ∀ p ∈ fields, Nested (text p.2) := fun p _ => nested_text p.2
  obtain ⟨body, hbody, hnested⟩ := nested_fieldsText hvalues
  exact ⟨body, by simp [text, hbody], hnested⟩

end Nested

section Lexer

inductive Lexer where
  | out (depth : Int)
  | str (depth : Int)
  | esc (depth : Int)
  | dead
  deriving DecidableEq

namespace Lexer

def next : Lexer → Char → Lexer
  | out d, c =>
      if c = '"' then str d
      else if c = '\\' then dead
      else if c = '\x7b' then out (d + 1)
      else if c = '\x7d' then out (d - 1)
      else out d
  | str d, c => if c = '"' then out d else if c = '\\' then esc d else str d
  | esc d, _ => str d
  | dead, _ => dead

def scan (q : Lexer) (cs : List Char) : Lexer :=
  cs.foldl next q

theorem scan_append (q : Lexer) (xs ys : List Char) : scan q (xs ++ ys) = scan (scan q xs) ys :=
  List.foldl_append

theorem scan_cons (q : Lexer) (c : Char) (cs : List Char) : scan q (c :: cs) = scan (next q c) cs :=
  rfl

theorem scan_nil (q : Lexer) : scan q [] = q :=
  rfl

theorem scan_dead (cs : List Char) : scan dead cs = dead := by
  induction cs with
  | nil => rfl
  | cons c cs ih => exact ih

theorem next_out_plain {c : Char} (h : c ∉ ['"', '\\', '\x7b', '\x7d']) (d : Int) :
    next (out d) c = out d := by
  simp only [List.mem_cons, List.not_mem_nil, or_false, not_or] at h
  simp [next, h]

theorem next_str_plain {c : Char} (hquote : c ≠ '"') (hslash : c ≠ '\\') (d : Int) :
    next (str d) c = str d := by
  simp [next, hquote, hslash]

theorem hexDigit_plain {d : Nat} (h : d < 16) : hexDigit d ≠ '"' ∧ hexDigit d ≠ '\\' := by
  interval_cases d <;> exact ⟨by decide, by decide⟩

theorem scan_hex4 (n : Nat) (d : Int) : scan (str d) (hex4 n) = str d := by
  have hdigit : ∀ m, next (str d) (hexDigit (m % 16)) = str d := by
    intro m
    obtain ⟨hquote, hslash⟩ := hexDigit_plain (Nat.mod_lt m (by omega : 0 < 16))
    exact next_str_plain hquote hslash d
  simp only [hex4, scan_cons, hdigit, scan_nil]

theorem scan_unicode (n : Nat) (d : Int) : scan (str d) ('\\' :: 'u' :: hex4 n) = str d := by
  simp only [scan_cons, next]
  exact scan_hex4 n d

theorem scan_escapeChar (c : Char) (d : Int) : scan (str d) (escapeChar c) = str d := by
  simp only [escapeChar]
  iterate 7
    split
    · rfl
  split
  · rename_i hslash hquote _ _ _ _ _
    have hquote' : c ≠ '"' := by
      rintro rfl
      simp_all
    have hslash' : c ≠ '\\' := by
      rintro rfl
      simp_all
    exact next_str_plain hquote' hslash' d
  split
  · exact scan_unicode _ d
  · rw [scan_append, scan_unicode, scan_unicode]

theorem scan_escape (cs : List Char) (d : Int) : scan (str d) (escape cs) = str d := by
  induction cs with
  | nil => rfl
  | cons c cs ih =>
      simp only [escape, List.flatMap_cons, scan_append, scan_escapeChar]
      exact ih

theorem scan_strText (s : String) (d : Int) : scan (out d) (strText s) = out d := by
  have hopen : next (out d) '"' = str d := rfl
  have hclose : scan (str d) ['"'] = out d := rfl
  rw [strText, List.cons_append, scan_cons, hopen, scan_append, scan_escape, hclose]

theorem scan_nested {cs : List Char} (h : Nested cs) (d : Int) : scan (out d) cs = out d := by
  induction h generalizing d with
  | nil => rfl
  | plain c hc => exact next_out_plain hc d
  | quoted s => exact scan_strText s d
  | @braces cs h ih =>
      have hclose : next (out (d + 1)) '\x7d' = out d := by
        simp [next]
      rw [List.cons_append, scan_cons, scan_append]
      have hopen : next (out d) '\x7b' = out (d + 1) := rfl
      rw [hopen, ih, scan_cons, hclose, scan_nil]
  | append hx hy ihx ihy => rw [scan_append, ihx, ihy]

def Above (d : Int) : Lexer → Prop
  | out e | str e | esc e => d ≤ e
  | dead => False

theorem Above.mono {d e : Int} (h : d ≤ e) {q : Lexer} (hq : Above e q) : Above d q := by
  cases q with
  | dead => exact hq
  | _ => exact le_trans h hq

theorem prefix_append_cases {p xs ys : List Char} (h : p <+: xs ++ ys) :
    p <+: xs ∨ ∃ t, p = xs ++ t ∧ t <+: ys := by
  rcases List.prefix_or_prefix_of_prefix h (List.prefix_append xs ys) with hp | ⟨t, rfl⟩
  · exact .inl hp
  · exact .inr ⟨t, rfl, (List.prefix_append_right_inj xs).mp h⟩

theorem above_noQuote {p : List Char} (h : '"' ∉ p) {d : Int} {q : Lexer}
    (hq : q = str d ∨ q = esc d) : scan q p = str d ∨ scan q p = esc d := by
  induction p generalizing q with
  | nil => exact hq
  | cons c p ih =>
      have hc : c ≠ '"' := fun heq => h (heq ▸ List.mem_cons_self)
      have hp : '"' ∉ p := fun hmem => h (List.mem_cons_of_mem _ hmem)
      refine ih hp ?_
      rcases hq with rfl | rfl
      · by_cases hslash : c = '\\'
        · exact .inr (by simp [next, hslash])
        · exact .inl (next_str_plain hc hslash d)
      · exact .inl rfl

theorem hex4_noQuote (n : Nat) : '"' ∉ hex4 n := by
  have hdigit : ∀ m, '"' ≠ hexDigit (m % 16) := fun m =>
    (hexDigit_plain (Nat.mod_lt m (by omega : 0 < 16))).1.symm
  simp [hex4, hdigit]

theorem escapeChar_quote (c : Char) : escapeChar c = ['\\', '"'] ∨ '"' ∉ escapeChar c := by
  simp only [escapeChar]
  split
  · exact .inl rfl
  iterate 6
    split
    · exact .inr (by decide)
  split
  · rename_i hquote _ _ _ _ _ _ _
    right
    intro hmem
    obtain rfl := List.mem_singleton.mp hmem
    exact hquote rfl
  split
  · exact .inr (by simp [hex4_noQuote])
  · exact .inr (by simp [hex4_noQuote])

theorem above_escape {cs p : List Char} (h : p <+: escape cs) (d : Int) :
    scan (str d) p = str d ∨ scan (str d) p = esc d := by
  induction cs generalizing p with
  | nil =>
      obtain rfl := List.prefix_nil.mp h
      exact .inl rfl
  | cons c cs ih =>
      simp only [escape, List.flatMap_cons] at h
      rcases prefix_append_cases h with hp | ⟨t, rfl, ht⟩
      · rcases escapeChar_quote c with hquote | hquote
        · rw [hquote] at hp
          simp only [List.prefix_cons_iff, List.prefix_nil] at hp
          rcases hp with rfl | ⟨_, rfl, rfl | ⟨_, rfl, rfl⟩⟩
          · exact .inl rfl
          · exact .inr rfl
          · exact .inl rfl
        · exact above_noQuote (fun hmem => hquote (hp.subset hmem)) (.inl rfl)
      · rw [scan_append, scan_escapeChar]
        exact ih ht

theorem above_prefix {cs p : List Char} (h : Nested cs) (hp : p <+: cs) (d : Int) :
    Above d (scan (out d) p) := by
  induction h generalizing p d with
  | nil =>
      obtain rfl := List.prefix_nil.mp hp
      exact le_refl d
  | plain c hc =>
      have hcases : p = [] ∨ p = [c] := by
        simpa [List.prefix_cons_iff] using hp
      rcases hcases with rfl | rfl
      · exact le_refl d
      · rw [scan_cons, next_out_plain hc]
        exact le_refl d
  | quoted s =>
      rcases List.prefix_cons_iff.mp hp with rfl | ⟨t, rfl, ht⟩
      · exact le_refl d
      · have hopen : next (out d) '"' = str d := rfl
        rw [scan_cons, hopen]
        rcases prefix_append_cases ht with ht | ⟨u, rfl, hu⟩
        · rcases above_escape ht d with heq | heq
          · rw [heq]
            exact le_refl d
          · rw [heq]
            exact le_refl d
        · have hcases : u = [] ∨ u = ['"'] := by
            simpa [List.prefix_cons_iff] using hu
          rw [scan_append, scan_escape]
          rcases hcases with rfl | rfl
          · exact le_refl d
          · exact le_refl d
  | @braces cs h ih =>
      rcases List.prefix_cons_iff.mp hp with rfl | ⟨t, rfl, ht⟩
      · exact le_refl d
      · have hopen : next (out d) '\x7b' = out (d + 1) := rfl
        have hclose : next (out (d + 1)) '\x7d' = out d := by
          simp [next]
        rw [scan_cons, hopen]
        rcases prefix_append_cases ht with ht | ⟨u, rfl, hu⟩
        · exact (ih ht (d + 1)).mono (by omega)
        · have hcases : u = [] ∨ u = ['\x7d'] := by
            simpa [List.prefix_cons_iff] using hu
          rw [scan_append, scan_nested h]
          rcases hcases with rfl | rfl
          · exact show d ≤ d + 1 by omega
          · rw [scan_cons, hclose]
            exact le_refl d
  | append hx hy ihx ihy =>
      rcases prefix_append_cases hp with hp | ⟨t, rfl, ht⟩
      · exact ihx hp d
      · rw [scan_append, scan_nested hx]
        exact ihy ht d

def Inside (q : Lexer) : Prop :=
  (∃ d, q = str d) ∨ q = dead

theorem scan_out_escape (cs : List Char) (d : Int) :
    (∃ e, scan (out d) (escape cs) = out e) ∨ scan (out d) (escape cs) = dead := by
  induction cs generalizing d with
  | nil => exact .inl ⟨d, rfl⟩
  | cons c cs ih =>
      simp only [escape, List.flatMap_cons, scan_append]
      rcases escapeChar_cases c with ⟨hself, hquote, hslash⟩ | ⟨a, tail, htext⟩
      · have hnext : ∃ e, next (out d) c = out e := by
          simp only [next, if_neg hquote, if_neg hslash]
          split
          · exact ⟨_, rfl⟩
          · split
            · exact ⟨_, rfl⟩
            · exact ⟨_, rfl⟩
        obtain ⟨e, he⟩ := hnext
        rw [hself, scan_cons, he, scan_nil]
        exact ih e
      · have hdead : next (out d) '\\' = dead := rfl
        rw [htext, scan_cons, hdead, scan_dead, scan_dead]
        exact .inr rfl

theorem inside_strText (s : String) (d : Int) : Inside (scan (str d) (strText s)) := by
  have hopen : next (str d) '"' = out d := rfl
  rw [strText, List.cons_append, scan_cons, hopen, scan_append]
  rcases scan_out_escape s.toList d with ⟨e, he⟩ | hdead
  · rw [he]
    exact .inl ⟨e, rfl⟩
  · rw [hdead]
    exact .inr rfl

theorem inside_nested {cs : List Char} (h : Nested cs) {q : Lexer} (hq : Inside q) :
    Inside (scan q cs) := by
  rcases hq with ⟨d, rfl⟩ | rfl
  · induction h generalizing d with
    | nil => exact .inl ⟨d, rfl⟩
    | plain c hc =>
        simp only [List.mem_cons, List.not_mem_nil, or_false, not_or] at hc
        rw [scan_cons, next_str_plain hc.1 hc.2.1]
        exact .inl ⟨d, rfl⟩
    | quoted s => exact inside_strText s d
    | @braces cs h ih =>
        have hopen : next (str d) '\x7b' = str d := rfl
        rw [List.cons_append, scan_cons, hopen, scan_append]
        rcases ih d with ⟨e, he⟩ | hdead
        · rw [he]
          exact .inl ⟨e, rfl⟩
        · rw [hdead]
          exact .inr rfl
    | append hx hy ihx ihy =>
        rw [scan_append]
        rcases ihx d with ⟨e, he⟩ | hdead
        · rw [he]
          exact ihy e
        · rw [hdead, scan_dead]
          exact .inr rfl
  · rw [scan_dead]
    exact .inr rfl

end Lexer

end Lexer

section Suffix

open Lexer

theorem text_obj_suffix {fields fields' : Obj} {p : List Char}
    (h : text (.obj fields) = p ++ text (.obj fields')) : p = [] := by
  obtain ⟨body, hbody, hnested⟩ := text_obj fields
  obtain ⟨body', hbody', hnested'⟩ := text_obj fields'
  have hclosed : scan (scan (out 0) p) (text (.obj fields')) = out 0 := by
    rw [← scan_append, ← h]
    exact scan_nested (nested_text _) 0
  cases p with
  | nil => rfl
  | cons c t =>
      have hopen : next (out 0) '\x7b' = out 1 := rfl
      simp only [hbody, List.cons_append, List.cons.injEq] at h
      obtain ⟨rfl, htail⟩ := h
      have hstart : t <+: body := by
        have hlength := congrArg List.length htail
        rw [hbody'] at hlength
        simp only [List.length_append, List.length_cons, List.length_nil] at hlength
        have hwhole : t <+: body ++ ['\x7d'] := ⟨_, htail.symm⟩
        exact List.prefix_of_prefix_length_le hwhole (List.prefix_append _ _) (by omega)
      have habove : Above 1 (scan (out 0) ('\x7b' :: t)) := by
        rw [scan_cons, hopen]
        exact above_prefix hnested hstart 1
      have hinside : ∀ d, Inside (scan (str d) (text (.obj fields'))) := fun d =>
        inside_nested (nested_text _) (.inl ⟨d, rfl⟩)
      cases hq : scan (out 0) ('\x7b' :: t) with
      | out d =>
          rw [hq] at hclosed habove
          rw [scan_nested (nested_text _)] at hclosed
          have hd : d = 0 := Lexer.out.inj hclosed
          have hle : 1 ≤ d := habove
          omega
      | str d =>
          rw [hq] at hclosed
          rcases hinside d with ⟨e, he⟩ | hdead
          · rw [he] at hclosed
            cases hclosed
          · rw [hdead] at hclosed
            cases hclosed
      | esc d =>
          have hsame : scan (esc d) (text (.obj fields')) = scan (str d) (text (.obj fields')) := by
            rw [hbody']
            rfl
          rw [hq, hsame] at hclosed
          rcases hinside d with ⟨e, he⟩ | hdead
          · rw [he] at hclosed
            cases hclosed
          · rw [hdead] at hclosed
            cases hclosed
      | dead =>
          rw [hq] at habove
          exact habove.elim

theorem append_text_obj_inj {fields fields' : Obj} {p p' : List Char}
    (h : p ++ text (.obj fields) = p' ++ text (.obj fields')) : p = p' ∧ fields = fields' := by
  rcases List.append_eq_append_iff.mp h with ⟨as, rfl, htext⟩ | ⟨as, rfl, htext⟩
  · obtain rfl := text_obj_suffix htext
    exact ⟨by simp, Json.obj.inj (text_injective htext)⟩
  · obtain rfl := text_obj_suffix htext
    exact ⟨by simp, (Json.obj.inj (text_injective htext)).symm⟩

end Suffix

end PyJson
