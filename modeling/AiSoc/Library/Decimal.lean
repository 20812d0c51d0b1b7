import AiSoc.Library.Json
import Mathlib.Data.List.TakeWhile
import Mathlib.Tactic.IntervalCases
import Mathlib.Tactic.Positivity
import Mathlib.Tactic.Ring

namespace PyJson

section Split

variable {α : Type} {p : α → Prop}

def Stops (p : α → Prop) (rest : List α) : Prop :=
  ∀ a ∈ rest.head?, ¬ p a

theorem append_inj_of_stops {xs ys rest rest' : List α} (hxs : ∀ a ∈ xs, p a)
    (hys : ∀ a ∈ ys, p a) (hrest : Stops p rest) (hrest' : Stops p rest')
    (h : xs ++ rest = ys ++ rest') : xs = ys ∧ rest = rest' := by
  induction xs generalizing ys with
  | nil =>
      cases ys with
      | nil => exact ⟨rfl, h⟩
      | cons y ys =>
          simp only [List.nil_append] at h
          subst h
          exact absurd (hys y (by simp)) (hrest y (by simp))
  | cons x xs ih =>
      cases ys with
      | nil =>
          simp only [List.nil_append] at h
          subst h
          exact absurd (hxs x (by simp)) (hrest' x (by simp))
      | cons y ys =>
          simp only [List.cons_append, List.cons.injEq] at h
          obtain ⟨rfl, h⟩ := h
          obtain ⟨rfl, hrest⟩ := ih (fun a ha => hxs a (by simp [ha]))
            (fun a ha => hys a (by simp [ha])) h
          exact ⟨rfl, hrest⟩

theorem split_inj {sep : α} {xs ys rest rest' : List α} (hxs : sep ∉ xs)
    (hys : sep ∉ ys) (h : xs ++ sep :: rest = ys ++ sep :: rest') : xs = ys ∧ rest = rest' := by
  have hstops : ∀ tail : List α, Stops (· ≠ sep) (sep :: tail) := by
    intro tail a ha
    obtain rfl : sep = a := by simpa using ha
    simp
  have hxs' : ∀ a ∈ xs, a ≠ sep := fun a ha heq => hxs (heq ▸ ha)
  have hys' : ∀ a ∈ ys, a ≠ sep := fun a ha heq => hys (heq ▸ ha)
  have hboth := append_inj_of_stops hxs' hys' (hstops rest) (hstops rest') h
  exact ⟨hboth.1, (List.cons.inj hboth.2).2⟩

end Split

section Digits

def isDecimal (c : Char) : Prop :=
  48 ≤ c.toNat ∧ c.toNat ≤ 57

instance (c : Char) : Decidable (isDecimal c) :=
  inferInstanceAs (Decidable (48 ≤ c.toNat ∧ c.toNat ≤ 57))

def digitValue (c : Char) : Nat :=
  c.toNat - 48

def natValue (cs : List Char) : Nat :=
  Nat.ofDigits 10 (cs.reverse.map digitValue)

theorem digitChar_toNat {d : Nat} (h : d < 10) : (digitChar d).toNat = 48 + d := by
  interval_cases d <;> rfl

theorem natText_digits (n : Nat) : ∀ c ∈ natText n, isDecimal c := by
  intro c hc
  simp only [natText] at hc
  split at hc
  · obtain rfl : c = '0' := by simpa using hc
    exact ⟨by decide, by decide⟩
  · simp only [List.mem_map, List.mem_reverse] at hc
    obtain ⟨d, hd, rfl⟩ := hc
    have hlt : d < 10 := Nat.digits_lt_base (by omega) hd
    have hnat := digitChar_toNat hlt
    exact ⟨by omega, by omega⟩

theorem natText_ne_nil (n : Nat) : natText n ≠ [] := by
  simp only [natText]
  split
  · simp
  · rename_i hn
    simpa using Nat.digits_ne_nil_iff_ne_zero.mpr hn

theorem natValue_natText (n : Nat) : natValue (natText n) = n := by
  simp only [natText]
  split
  · rename_i hn
    rw [hn]
    rfl
  · have hmap : (Nat.digits 10 n).map (digitValue ∘ digitChar) = Nat.digits 10 n := by
      conv_rhs => rw [← List.map_id (Nat.digits 10 n)]
      apply List.map_congr_left
      intro d hd
      have hlt : d < 10 := Nat.digits_lt_base (by omega) hd
      simp only [Function.comp_apply, digitValue, digitChar_toNat hlt, id_eq]
      omega
    simp only [natValue, List.map_reverse, List.reverse_reverse, List.map_map, hmap]
    exact Nat.ofDigits_digits 10 n

theorem natValue_append (xs ys : List Char) :
    natValue (xs ++ ys) = natValue xs * 10 ^ ys.length + natValue ys := by
  simp only [natValue, List.reverse_append, List.map_append, Nat.ofDigits_append, List.length_map,
    List.length_reverse]
  ring

theorem natValue_zeros (n : Nat) : natValue (zeros n) = 0 := by
  induction n with
  | zero => rfl
  | succ n ih =>
      have hcons : zeros (n + 1) = ['0'] ++ zeros n := rfl
      rw [hcons, natValue_append, ih]
      simp [natValue, digitValue]

theorem natText_injective : Function.Injective natText := by
  intro m n h
  have hvalue := congrArg natValue h
  rwa [natValue_natText, natValue_natText] at hvalue

-- a text behind its length and a colon, which no other split of the same text matches
def lengthPrefixed (cs : List Char) : List Char :=
  natText cs.length ++ ':' :: cs

theorem lengthPrefixed_append_inj {cs ds rest rest' : List Char}
    (h : lengthPrefixed cs ++ rest = lengthPrefixed ds ++ rest') : cs = ds ∧ rest = rest' := by
  have hcolon : ∀ n : Nat, ':' ∉ natText n := by
    intro n hmem
    exact absurd (natText_digits n ':' hmem) (by decide)
  simp only [lengthPrefixed, List.append_assoc, List.cons_append] at h
  obtain ⟨hlen, htail⟩ := split_inj (hcolon _) (hcolon _) h
  exact List.append_inj htail (natText_injective hlen)

theorem intText_injective : Function.Injective intText := by
  intro m n h
  have hminus : ∀ k l : Nat, natText k ≠ '-' :: natText l := by
    intro k l heq
    have hdigit := natText_digits k '-' (heq ▸ List.mem_cons_self)
    exact absurd hdigit.1 (by decide)
  cases m with
  | ofNat k =>
      cases n with
      | ofNat l => rw [natText_injective h]
      | negSucc l => exact absurd h (hminus k (l + 1))
  | negSucc k =>
      cases n with
      | ofNat l => exact absurd h.symm (hminus l (k + 1))
      | negSucc l =>
          have heq := natText_injective (List.cons.inj h).2
          rw [Nat.succ.inj heq]

end Digits

section Floats

theorem exponentText_injective : Function.Injective exponentText := by
  intro e f h
  simp only [exponentText, List.cons.injEq] at h
  obtain ⟨hsign, htext⟩ := h
  have hvalue : ∀ k : Int, natValue (if (natText k.natAbs).length < 2
      then '0' :: natText k.natAbs else natText k.natAbs) = k.natAbs := by
    intro k
    split
    · have hcons : '0' :: natText k.natAbs = ['0'] ++ natText k.natAbs := rfl
      rw [hcons, natValue_append, natValue_natText]
      simp [natValue, digitValue]
    · exact natValue_natText _
  have habs : e.natAbs = f.natAbs := by
    have heq := congrArg natValue htext
    rwa [hvalue, hvalue] at heq
  have hneg : e < 0 ↔ f < 0 := by
    by_cases he : e < 0
    · by_cases hf : f < 0
      · simp [he, hf]
      · rw [if_pos he, if_neg hf] at hsign
        exact absurd hsign (by decide)
    · by_cases hf : f < 0
      · rw [if_neg he, if_pos hf] at hsign
        exact absurd hsign (by decide)
      · simp [he, hf]
  omega

def unsignedText (x : PyFloat) : List Char :=
  let ds := natText x.digits
  if x.digits = 0 then ['0', '.', '0'] else positiveText ds (ds.length + x.exponent)

def Positional (x : PyFloat) (text : List Char) : Prop :=
  ∃ (whole fraction : List Char) (k : Nat), text = whole ++ '.' :: fraction ∧
    (∀ c ∈ whole, isDecimal c) ∧ (∀ c ∈ fraction, isDecimal c) ∧
    natValue (whole ++ fraction) = x.digits * 10 ^ k ∧ (k : Int) = x.exponent + fraction.length

def Scientific (x : PyFloat) (text : List Char) : Prop :=
  x.digits ≠ 0 ∧ text = (natText x.digits).take 1 ++
    (if (natText x.digits).length ≤ 1 then [] else '.' :: (natText x.digits).drop 1) ++
      'e' :: exponentText ((natText x.digits).length + x.exponent - 1)

theorem zeros_digits (n : Nat) : ∀ c ∈ zeros n, isDecimal c := by
  intro c hc
  obtain rfl : c = '0' := (List.mem_replicate.mp hc).2
  exact ⟨by decide, by decide⟩

theorem positional_or_scientific (x : PyFloat) :
    Positional x (unsignedText x) ∨ Scientific x (unsignedText x) := by
  simp only [unsignedText]
  split
  · rename_i hzero
    have hexponent : x.exponent = 0 := by
      rcases x.normal with h | h
      · simp [hzero] at h
      · exact h.2
    refine .inl ⟨['0'], ['0'], 1, rfl, ?_, ?_, ?_, by simp [hexponent]⟩
    · exact zeros_digits 1
    · exact zeros_digits 1
    · rw [hzero]
      have hzeros : natValue ['0', '0'] = 0 := natValue_zeros 2
      simpa using hzeros
  · rename_i hnonzero
    set ds := natText x.digits with hds
    have hdigits : ∀ c ∈ ds, isDecimal c := natText_digits _
    have hvalue : natValue ds = x.digits := natValue_natText _
    simp only [positiveText]
    split
    · rename_i hrange
      left
      split
      · rename_i hpoint
        refine ⟨['0'], zeros (-(ds.length + x.exponent)).toNat ++ ds, 0, rfl, zeros_digits 1, ?_, ?_,
          ?_⟩
        · intro c hc
          rcases List.mem_append.mp hc with hc | hc
          · exact zeros_digits _ c hc
          · exact hdigits c hc
        · rw [natValue_append, natValue_append, natValue_zeros, hvalue]
          simp [natValue, digitValue]
        · simp only [List.length_append, zeros, List.length_replicate]
          omega
      · split
        · rename_i hpoint hlt
          refine ⟨ds.take (ds.length + x.exponent).toNat, ds.drop (ds.length + x.exponent).toNat, 0,
            rfl, fun c hc => hdigits c (List.mem_of_mem_take hc),
            fun c hc => hdigits c (List.mem_of_mem_drop hc), ?_, ?_⟩
          · rw [List.take_append_drop, hvalue]
            simp
          · simp only [List.length_drop]
            omega
        · rename_i hpoint hge
          refine ⟨ds ++ zeros ((ds.length + x.exponent).toNat - ds.length), ['0'],
            (ds.length + x.exponent).toNat - ds.length + 1, by simp, ?_, zeros_digits 1, ?_, ?_⟩
          · intro c hc
            rcases List.mem_append.mp hc with hc | hc
            · exact hdigits c hc
            · exact zeros_digits _ c hc
          · have hzero : natValue ['0'] = 0 := natValue_zeros 1
            rw [natValue_append, natValue_append, natValue_zeros, hvalue, hzero]
            simp only [zeros, List.length_replicate, List.length_cons, List.length_nil]
            ring
          · simp only [List.length_cons, List.length_nil]
            omega
    · exact .inr ⟨hnonzero, rfl⟩

def mantissa (x : PyFloat) : List Char :=
  (natText x.digits).take 1 ++
    if (natText x.digits).length ≤ 1 then [] else '.' :: (natText x.digits).drop 1

theorem not_mem_of_digits {cs : List Char} (h : ∀ c ∈ cs, isDecimal c) {c : Char}
    (hc : ¬ isDecimal c) : c ∉ cs :=
  fun hmem => hc (h c hmem)

theorem mantissa_filter (x : PyFloat) :
    (mantissa x).filter (fun c => c ≠ '.') = natText x.digits := by
  have hself : ∀ cs : List Char, (∀ c ∈ cs, isDecimal c) → cs.filter (fun c => c ≠ '.') = cs := by
    intro cs hcs
    refine List.filter_eq_self.mpr ?_
    intro c hc
    have hne : c ≠ '.' := by
      rintro rfl
      exact absurd (hcs '.' hc).1 (by decide)
    simpa using hne
  have hdigits := natText_digits x.digits
  have htake := hself ((natText x.digits).take 1) fun c hc => hdigits c (List.mem_of_mem_take hc)
  have hdrop := hself ((natText x.digits).drop 1) fun c hc => hdigits c (List.mem_of_mem_drop hc)
  simp only [mantissa, List.filter_append]
  split
  · rename_i hshort
    rw [htake, List.take_of_length_le hshort]
    simp
  · have hpoint : ('.' :: (natText x.digits).drop 1).filter (fun c => c ≠ '.') =
        (natText x.digits).drop 1 := by
      rw [List.filter_cons_of_neg (by simp)]
      exact hdrop
    rw [htake, hpoint, List.take_append_drop]

theorem not_mem_mantissa (x : PyFloat) : 'e' ∉ mantissa x := by
  have hnot := not_mem_of_digits (natText_digits x.digits) (by decide : ¬ isDecimal 'e')
  intro hmem
  rcases List.mem_append.mp hmem with hmem | hmem
  · exact hnot (List.mem_of_mem_take hmem)
  · split at hmem
    · cases hmem
    · rcases List.mem_cons.mp hmem with hmem | hmem
      · exact absurd hmem (by decide)
      · exact hnot (List.mem_of_mem_drop hmem)

theorem Positional.not_mem {x : PyFloat} {text : List Char} (h : Positional x text) :
    'e' ∉ text := by
  obtain ⟨whole, fraction, k, rfl, hwhole, hfraction, _, _⟩ := h
  have hnot : ¬ isDecimal 'e' := by decide
  simp [not_mem_of_digits hwhole hnot, not_mem_of_digits hfraction hnot]

theorem eq_of_mul_pow_eq {m n i j : Nat} (hm : m % 10 ≠ 0) (hn : n % 10 ≠ 0)
    (h : m * 10 ^ i = n * 10 ^ j) : m = n ∧ i = j := by
  rcases Nat.lt_trichotomy i j with hlt | heq | hgt
  · obtain ⟨d, rfl⟩ := Nat.exists_eq_add_of_lt hlt
    have hpow : 0 < 10 ^ i := Nat.pow_pos (by omega)
    have hmul : m * 10 ^ i = 10 * (n * 10 ^ d) * 10 ^ i := by
      rw [h]
      ring
    have := Nat.eq_of_mul_eq_mul_right hpow hmul
    omega
  · subst heq
    have hpow : 0 < 10 ^ i := Nat.pow_pos (by omega)
    exact ⟨Nat.eq_of_mul_eq_mul_right hpow h, rfl⟩
  · obtain ⟨d, rfl⟩ := Nat.exists_eq_add_of_lt hgt
    have hpow : 0 < 10 ^ j := Nat.pow_pos (by omega)
    have hmul : n * 10 ^ j = 10 * (m * 10 ^ d) * 10 ^ j := by
      rw [← h]
      ring
    have := Nat.eq_of_mul_eq_mul_right hpow hmul
    omega

theorem positional_inj {x y : PyFloat} {text : List Char} (hx : Positional x text)
    (hy : Positional y text) : x.digits = y.digits ∧ x.exponent = y.exponent := by
  obtain ⟨whole, fraction, k, rfl, hwhole, _, hvalue, hk⟩ := hx
  obtain ⟨whole', fraction', k', htext, hwhole', _, hvalue', hk'⟩ := hy
  have hdot : ¬ isDecimal '.' := by decide
  obtain ⟨rfl, rfl⟩ := split_inj (not_mem_of_digits hwhole hdot) (not_mem_of_digits hwhole' hdot)
    htext
  have heq : x.digits * 10 ^ k = y.digits * 10 ^ k' := hvalue.symm.trans hvalue'
  have hpos : ∀ n, 10 ^ n ≠ 0 := fun n => by positivity
  rcases x.normal with hxn | ⟨hx0, hxe⟩
  · rcases y.normal with hyn | ⟨hy0, _⟩
    · obtain ⟨hdigits, hk''⟩ := eq_of_mul_pow_eq hxn hyn heq
      exact ⟨hdigits, by omega⟩
    · rw [hy0, Nat.zero_mul] at heq
      have hzero : x.digits = 0 := by simpa using heq
      simp [hzero] at hxn
  · rcases y.normal with hyn | ⟨hy0, hye⟩
    · rw [hx0, Nat.zero_mul] at heq
      have hzero : y.digits = 0 := by simpa using heq.symm
      simp [hzero] at hyn
    · exact ⟨by rw [hx0, hy0], by rw [hxe, hye]⟩

theorem scientific_inj {x y : PyFloat} {text : List Char} (hx : Scientific x text)
    (hy : Scientific y text) : x.digits = y.digits ∧ x.exponent = y.exponent := by
  have heq : mantissa x ++ 'e' :: exponentText ((natText x.digits).length + x.exponent - 1) =
      mantissa y ++ 'e' :: exponentText ((natText y.digits).length + y.exponent - 1) :=
    hx.2.symm.trans hy.2
  obtain ⟨hmantissa, hexponent⟩ := split_inj (not_mem_mantissa x) (not_mem_mantissa y) heq
  have hdigits : natText x.digits = natText y.digits := by
    rw [← mantissa_filter x, ← mantissa_filter y, hmantissa]
  have hplace := exponentText_injective hexponent
  rw [hdigits] at hplace
  exact ⟨natText_injective hdigits, by omega⟩

theorem unsignedText_inj {x y : PyFloat} (h : unsignedText x = unsignedText y) :
    x.digits = y.digits ∧ x.exponent = y.exponent := by
  have hmem : ∀ {z : PyFloat} {text : List Char}, Scientific z text → 'e' ∈ text := by
    intro z text hz
    rw [hz.2]
    simp
  rcases positional_or_scientific x with hx | hx
  · rcases positional_or_scientific y with hy | hy
    · exact positional_inj hx (h ▸ hy)
    · exact absurd (h ▸ hmem hy) hx.not_mem
  · rcases positional_or_scientific y with hy | hy
    · exact absurd (h ▸ hmem hx) hy.not_mem
    · exact scientific_inj hx (h ▸ hy)

theorem unsignedText_head (x : PyFloat) (rest : List Char) : unsignedText x ≠ '-' :: rest := by
  have hminus : ¬ isDecimal '-' := by decide
  intro heq
  rcases positional_or_scientific x with h | h
  · rw [heq] at h
    obtain ⟨whole, fraction, k, htext, hwhole, _, _, _⟩ := h
    cases whole with
    | nil => exact absurd (List.cons.inj htext).1 (by decide)
    | cons c whole =>
        obtain rfl := (List.cons.inj htext).1
        exact hminus (hwhole _ List.mem_cons_self)
  · rw [heq] at h
    obtain ⟨c, cs, hds⟩ := List.exists_cons_of_ne_nil (natText_ne_nil x.digits)
    have htext := h.2
    rw [hds] at htext
    obtain rfl := (List.cons.inj htext).1
    exact hminus (natText_digits x.digits _ (hds ▸ List.mem_cons_self))

theorem floatText_injective : Function.Injective floatText := by
  intro x y h
  have hsigned : ∀ z : PyFloat, floatText z = if z.neg then '-' :: unsignedText z else unsignedText z :=
    fun _ => rfl
  rw [hsigned, hsigned] at h
  have hboth : x.neg = y.neg ∧ unsignedText x = unsignedText y := by
    cases hx : x.neg with
    | false =>
        cases hy : y.neg with
        | false => exact ⟨rfl, by simpa [hx, hy] using h⟩
        | true => exact absurd (by simpa [hx, hy] using h) (unsignedText_head x _)
    | true =>
        cases hy : y.neg with
        | false => exact absurd (by simpa [hx, hy] using h.symm) (unsignedText_head y _)
        | true => exact ⟨rfl, by simpa [hx, hy] using h⟩
  obtain ⟨hdigits, hexponent⟩ := unsignedText_inj hboth.2
  cases x
  cases y
  simp_all

end Floats

end PyJson
