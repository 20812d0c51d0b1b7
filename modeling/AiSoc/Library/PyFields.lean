import AiSoc.Library.PyStr
import Mathlib.Tactic.Ring

namespace PyStr

section Removing

theorem removeFrom_of_not_mem {c : Char} {pat cs : List Char} (h : c ∉ cs) :
    removeFrom (c :: pat) 0 cs = cs := by
  induction cs with
  | nil => rfl
  | cons d cs ih =>
      obtain ⟨hne, hrest⟩ := not_or.mp (List.mem_cons.not.mp h)
      have hmatch : (c :: pat).isPrefixOf (d :: cs) = false := by
        rw [List.isPrefixOf_cons_cons, beq_false_of_ne hne, Bool.false_and]
      rw [removeFrom, if_neg (by rw [hmatch]; exact Bool.false_ne_true), ih hrest]

theorem removeFrom_singleton (c : Char) (cs : List Char) :
    removeFrom [c] 0 cs = cs.filter fun d => d ≠ c := by
  induction cs with
  | nil => rfl
  | cons d cs ih =>
      by_cases h : d = c
      · subst h
        rw [removeFrom, if_pos (by simp), List.filter_cons_of_neg (by simp)]
        exact ih
      · have hmatch : [c].isPrefixOf (d :: cs) = false := by
          rw [List.isPrefixOf_cons_cons, beq_false_of_ne (Ne.symm h), Bool.false_and]
        rw [removeFrom, if_neg (by rw [hmatch]; exact Bool.false_ne_true),
          List.filter_cons_of_pos (by simpa using h), ih]

theorem removeAll_of_not_mem {pat s : String} {c : Char} {cs : List Char}
    (hpat : pat.toList = c :: cs) (h : c ∉ s.toList) : removeAll pat s = s := by
  rw [removeAll, hpat, removeFrom_of_not_mem h, String.ofList_toList]

theorem stripIf_of_forall {p : Char → Bool} {s : String} (h : ∀ c ∈ s.toList, p c = false) :
    stripIf p s = s := by
  have hleft : s.toList.dropWhile p = s.toList := by
    cases hs : s.toList with
    | nil => rfl
    | cons c cs =>
        rw [List.dropWhile_cons_of_neg]
        rw [h c (by rw [hs]; exact List.mem_cons_self)]
        exact Bool.false_ne_true
  have hright : s.toList.rdropWhile p = s.toList := by
    apply List.rdropWhile_eq_self_iff.mpr
    intro hne
    rw [h _ (List.getLast_mem hne)]
    exact Bool.false_ne_true
  rw [stripIf, hleft, hright, String.ofList_toList]

end Removing

section Digits

theorem hexValue_hexDigit {d : Nat} (hd : d < 16) : hexValue (hexDigit d) = some d := by
  have hall : ∀ d < 16, hexValue (hexDigit d) = some d := by decide
  exact hall d hd

theorem hexDigit_not_mem {d : Nat} (hd : d < 16) :
    hexDigit d ∉ ['u', '\x7b', '\x7d', '+', '_', 'x', 'X', '.', ':'] := by
  have hall : ∀ d < 16, hexDigit d ∉ ['u', '\x7b', '\x7d', '+', '_', 'x', 'X', '.', ':'] := by
    decide
  exact hall d hd

theorem isIntSpace_hexDigit {d : Nat} (hd : d < 16) : isIntSpace (hexDigit d) = false := by
  have hall : ∀ d < 16, isIntSpace (hexDigit d) = false := by decide
  exact hall d hd

theorem not_mem_hexText {c : Char}
    (hc : c ∈ ['u', '\x7b', '\x7d', '+', '_', 'x', 'X', '.', ':']) (width n : Nat) :
    c ∉ hexText width n := by
  intro h
  obtain ⟨d, hd, rfl⟩ := mem_hexText h
  exact hexDigit_not_mem hd hc

theorem not_mem_uuidText {c : Char}
    (hc : c ∈ ['u', '\x7b', '\x7d', '+', '_', 'x', 'X', '.', ':']) (n : Nat) :
    c ∉ (uuidText n).toList := by
  intro h
  rcases mem_uuidText h with rfl | ⟨d, hd, rfl⟩
  · exact absurd hc (by decide)
  · exact hexDigit_not_mem hd hc

theorem hexDigits_cons {c : Char} (h : c ≠ '_') (acc : Nat) (cs : List Char) :
    hexDigits acc (c :: cs) = (hexValue c).bind fun d => hexDigits (acc * 16 + d) cs := by
  rw [hexDigits]
  · rintro rfl
    exact absurd rfl h
  · rintro d ds rfl
    exact absurd rfl h

theorem hexDigits_append {xs : List Char} (h : '_' ∉ xs) (acc : Nat) (ys : List Char) :
    hexDigits acc (xs ++ ys) = (hexDigits acc xs).bind fun acc => hexDigits acc ys := by
  induction xs generalizing acc with
  | nil => rw [List.nil_append, hexDigits, Option.bind_some]
  | cons x xs ih =>
      obtain ⟨hne, hrest⟩ := not_or.mp (List.mem_cons.not.mp h)
      rw [List.cons_append, hexDigits_cons (Ne.symm hne), hexDigits_cons (Ne.symm hne)]
      cases hexValue x with
      | none => rfl
      | some d => exact ih hrest (acc * 16 + d)

theorem hexDigits_hexText (width acc n : Nat) :
    hexDigits acc (hexText width n) = some (acc * 16 ^ width + n % 16 ^ width) := by
  induction width generalizing n with
  | zero => simp [hexText, hexDigits, Nat.mod_one]
  | succ width ih =>
      have hdigit : n % 16 < 16 := Nat.mod_lt n (by decide)
      have hne : hexDigit (n % 16) ≠ '_' := by
        intro heq
        have hnot := hexDigit_not_mem hdigit
        rw [heq] at hnot
        exact absurd hnot (by decide)
      have hmod : n % 16 ^ (width + 1) = 16 * (n / 16 % 16 ^ width) + n % 16 := by
        rw [Nat.pow_succ', Nat.mod_mul]
        omega
      rw [hexText, hexDigits_append (not_mem_hexText (by decide) width (n / 16)), ih,
        Option.bind_some, hexDigits_cons hne, hexValue_hexDigit hdigit, Option.bind_some, hexDigits,
        hmod, Nat.pow_succ']
      congr 1
      ring

end Digits

section Splitting

-- s.split(sep, maxsplit)
def split (sep : Char) : Nat → List Char → List (List Char)
  | 0, cs => [cs]
  | maxsplit + 1, cs =>
      match cs.dropWhile (· ≠ sep) with
      | [] => [cs]
      | _ :: rest => cs.takeWhile (· ≠ sep) :: split sep maxsplit rest

theorem split_append {sep : Char} {field : List Char} (h : sep ∉ field) (maxsplit : Nat)
    (rest : List Char) :
    split sep (maxsplit + 1) (field ++ sep :: rest) = field :: split sep maxsplit rest := by
  have hfield : ∀ c ∈ field, decide (c ≠ sep) = true := by
    intro c hc
    exact decide_eq_true fun heq => h (heq ▸ hc)
  have hdrop : (field ++ sep :: rest).dropWhile (· ≠ sep) = sep :: rest := by
    rw [List.dropWhile_append_of_pos hfield, List.dropWhile_cons_of_neg (by simp)]
  have htake : (field ++ sep :: rest).takeWhile (· ≠ sep) = field := by
    rw [List.takeWhile_append_of_pos hfield, List.takeWhile_cons_of_neg (by simp),
      List.append_nil]
  rw [split, hdrop, htake]

end Splitting

section RoundTrip

theorem hexPrefixed_of_not_mem {cs : List Char} (h : 'x' ∉ cs) (h' : 'X' ∉ cs) :
    hexPrefixed cs = hexMagnitude cs := by
  rw [hexPrefixed]
  · rintro ds rfl
    exact h (by simp)
  · rintro ds rfl
    exact h' (by simp)
  · rintro ds rfl
    exact h (by simp)
  · rintro ds rfl
    exact h' (by simp)

theorem hexMagnitude_hexText (width n : Nat) :
    hexMagnitude (hexText (width + 1) n) = some (n % 16 ^ (width + 1)) := by
  have hparse := hexDigits_hexText (width + 1) 0 n
  have hnot : '_' ∉ hexText (width + 1) n := not_mem_hexText (by decide) _ _
  have hlength := length_hexText (width + 1) n
  rw [Nat.zero_mul, Nat.zero_add] at hparse
  cases hcs : hexText (width + 1) n with
  | nil =>
      rw [hcs] at hlength
      cases hlength
  | cons c cs =>
      rw [hcs] at hparse hnot
      rw [hexMagnitude, hparse]
      · exact List.cons_ne_nil c cs
      · intro ds heq
        rw [heq] at hnot
        exact hnot List.mem_cons_self

theorem intOfHex_hexText (width n : Nat) :
    intOfHex (String.ofList (hexText (width + 1) n)) = some (Int.ofNat (n % 16 ^ (width + 1))) := by
  have hstrip : stripIf isIntSpace (String.ofList (hexText (width + 1) n)) =
      String.ofList (hexText (width + 1) n) := by
    apply stripIf_of_forall
    intro c hc
    rw [String.toList_ofList] at hc
    obtain ⟨d, hd, rfl⟩ := mem_hexText hc
    exact isIntSpace_hexDigit hd
  have hplus : '+' ∉ hexText (width + 1) n := not_mem_hexText (by decide) _ _
  have hdash : '-' ∉ hexText (width + 1) n := by
    intro h
    obtain ⟨d, hd, heq⟩ := mem_hexText h
    exact hexDigit_ne_dash hd heq.symm
  have hparse : hexPrefixed (hexText (width + 1) n) = some (n % 16 ^ (width + 1)) := by
    rw [hexPrefixed_of_not_mem (not_mem_hexText (by decide) _ _)
      (not_mem_hexText (by decide) _ _)]
    exact hexMagnitude_hexText width n
  rw [intOfHex, hstrip, String.toList_ofList]
  split
  · rename_i ds heq
    exact absurd (heq ▸ List.mem_cons_self) hplus
  · rename_i ds heq
    exact absurd (heq ▸ List.mem_cons_self) hdash
  · rw [hparse]
    rfl

theorem uuid_uuidText {n : Nat} (h : n < 2 ^ 128) : uuid (uuidText n) = some n := by
  have hu : 'u' ∉ (uuidText n).toList := not_mem_uuidText (by decide) n
  have hbraces : stripIf (fun c => c == '\x7b' || c == '\x7d') (uuidText n) = uuidText n := by
    apply stripIf_of_forall
    intro c hc
    have hopen : c ≠ '\x7b' := fun heq => not_mem_uuidText (by decide) n (heq ▸ hc)
    have hclose : c ≠ '\x7d' := fun heq => not_mem_uuidText (by decide) n (heq ▸ hc)
    rw [beq_false_of_ne hopen, beq_false_of_ne hclose, Bool.or_false]
  have hdash : removeAll "-" (uuidText n) = String.ofList (hexText 32 n) := by
    have hpat : ("-" : String).toList = ['-'] := by decide
    rw [removeAll, hpat, removeFrom_singleton, digits_uuidText]
  have hurnList : ("urn:" : String).toList = 'u' :: ['r', 'n', ':'] := by decide
  have huuidList : ("uuid:" : String).toList = 'u' :: ['u', 'i', 'd', ':'] := by decide
  have hurn : removeAll "urn:" (uuidText n) = uuidText n := removeAll_of_not_mem hurnList hu
  have huuid : removeAll "uuid:" (uuidText n) = uuidText n := removeAll_of_not_mem huuidList hu
  have hlength : (String.ofList (hexText 32 n)).length = 32 := by
    rw [String.length_ofList, length_hexText]
  have hmod : n % 16 ^ (31 + 1) = n := Nat.mod_eq_of_lt (by omega)
  rw [uuid, hurn, huuid, hbraces, hdash, if_pos hlength, intOfHex_hexText 31 n, hmod]
  exact if_pos h

end RoundTrip

end PyStr
