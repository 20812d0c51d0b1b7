import AiSoc.Library.PyDatetime
import Mathlib.Algebra.Group.Int.Defs
import Mathlib.Data.String.Basic

namespace PyDatetime

section Calendar

-- the year within its era of 400 years, which begins in March
def yearOfEra (doe : Int) : Int :=
  (doe - doe / 1460 + doe / 36524 - doe / 146096) / 365

def yearStart (yoe : Int) : Int :=
  365 * yoe + yoe / 4 - yoe / 100

theorem yearOfEra_bounds {doe : Int} (hlow : 0 ≤ doe) (hhigh : doe < 146097) :
    0 ≤ yearOfEra doe ∧ yearOfEra doe ≤ 399 := by
  unfold yearOfEra
  omega

theorem yearOfEra_mono {doe doe' : Int} (hle : doe ≤ doe') : yearOfEra doe ≤ yearOfEra doe' := by
  have hdays : doe - doe / 1460 + doe / 36524 - doe / 146096 ≤
      doe' - doe' / 1460 + doe' / 36524 - doe' / 146096 := by
    omega
  exact Int.ediv_le_ediv (by decide) hdays

theorem yearOfEra_ends (n : Nat) (h : n < 400) : yearOfEra (yearStart n) = n ∧
    (n = 0 ∨ yearOfEra (yearStart n - 1) < n) := by
  obtain ⟨a, b, c, hn, ha, hb, hc⟩ : ∃ a b c : Nat,
      n = 100 * a + 4 * b + c ∧ a < 4 ∧ b < 25 ∧ c < 4 :=
    ⟨n / 100, n % 100 / 4, n % 4, by omega, by omega, by omega, by omega⟩
  have hstart : yearStart n = 36524 * a + 1461 * b + 365 * c := by
    unfold yearStart
    omega
  rw [hstart]
  constructor
  · have hquads : (36524 * a + 1461 * b + 365 * c : Int) / 1460 = 25 * a + b := by omega
    have hcenturies : (36524 * a + 1461 * b + 365 * c : Int) / 36524 = a := by omega
    have hera : (36524 * a + 1461 * b + 365 * c : Int) / 146096 = 0 := by omega
    rw [yearOfEra, hquads, hcenturies, hera]
    omega
  · by_cases hzero : n = 0
    · exact .inl hzero
    · have hquads : (36524 * a + 1461 * b + 365 * c - 1 : Int) / 1460 = 25 * a + b := by omega
      have hcenturies : (36524 * a + 1461 * b + 365 * c - 1 : Int) / 36524 ≤ a := by omega
      have hera : (36524 * a + 1461 * b + 365 * c - 1 : Int) / 146096 = 0 := by omega
      refine .inr ?_
      rw [yearOfEra, hquads, hera]
      omega

theorem yearStart_bounds {doe : Int} (hlow : 0 ≤ doe) (hhigh : doe < 146097) :
    yearStart (yearOfEra doe) ≤ doe ∧
      (yearOfEra doe < 399 → doe < yearStart (yearOfEra doe + 1)) := by
  obtain ⟨hzero, hlast⟩ := yearOfEra_bounds hlow hhigh
  obtain ⟨n, hn⟩ := Int.eq_ofNat_of_zero_le hzero
  rw [hn] at hlast ⊢
  constructor
  · by_contra hlt
    have hle : doe ≤ yearStart n - 1 := by omega
    have hmono := yearOfEra_mono hle
    rcases (yearOfEra_ends n (by omega)).2 with hfirst | hend
    · rw [hfirst, yearStart] at hlt
      omega
    · omega
  · intro hnext
    by_contra hge
    have hle : yearStart (n + 1 : Nat) ≤ doe := by
      push_cast
      omega
    have hmono := yearOfEra_mono hle
    have hend := (yearOfEra_ends (n + 1) (by omega)).1
    omega

def eraOf (days : Int) : Int := (days + 719468) / 146097

def dayOfEra (days : Int) : Int := days + 719468 - eraOf days * 146097

def yearOf (days : Int) : Int := yearOfEra (dayOfEra days)

def dayOfYear (days : Int) : Int := dayOfEra days - yearStart (yearOf days)

def monthIndex (days : Int) : Int := (5 * dayOfYear days + 2) / 153

def dayOfMonth (days : Int) : Int := dayOfYear days - (153 * monthIndex days + 2) / 5 + 1

theorem civil_eq (days : Int) :
    civil days =
      (yearOf days + eraOf days * 400 +
        (if (if monthIndex days < 10 then monthIndex days + 3 else monthIndex days - 9) ≤ 2
          then 1 else 0),
        if monthIndex days < 10 then monthIndex days + 3 else monthIndex days - 9,
        dayOfMonth days) := rfl

theorem dayOfEra_bounds (days : Int) : 0 ≤ dayOfEra days ∧ dayOfEra days < 146097 := by
  unfold dayOfEra eraOf
  omega

theorem yearOf_bounds (days : Int) : 0 ≤ yearOf days ∧ yearOf days ≤ 399 :=
  yearOfEra_bounds (dayOfEra_bounds days).1 (dayOfEra_bounds days).2

theorem dayOfYear_bounds (days : Int) : 0 ≤ dayOfYear days ∧ dayOfYear days ≤ 365 := by
  obtain ⟨hlow, hhigh⟩ := dayOfEra_bounds days
  obtain ⟨hstart, hnext⟩ := yearStart_bounds hlow hhigh
  obtain ⟨hzero, hlast⟩ := yearOf_bounds days
  unfold dayOfYear
  unfold yearOf at *
  unfold yearStart at *
  by_cases hyear : yearOfEra (dayOfEra days) < 399
  · have hlt := hnext hyear
    omega
  · omega

theorem monthIndex_bounds (days : Int) : 0 ≤ monthIndex days ∧ monthIndex days ≤ 11 := by
  obtain ⟨hlow, hhigh⟩ := dayOfYear_bounds days
  unfold monthIndex
  omega

theorem dayOfMonth_bounds (days : Int) : 1 ≤ dayOfMonth days ∧ dayOfMonth days ≤ 31 := by
  obtain ⟨hlow, hhigh⟩ := dayOfYear_bounds days
  unfold dayOfMonth monthIndex
  omega

def DateLess (date date' : Int × Int × Int) : Prop :=
  date.1 < date'.1 ∨ date.1 = date'.1 ∧
    (date.2.1 < date'.2.1 ∨ date.2.1 = date'.2.1 ∧ date.2.2 < date'.2.2)

theorem dateLess_of_march {days days' : Int}
    (h : 12 * (yearOf days + eraOf days * 400) + monthIndex days <
        12 * (yearOf days' + eraOf days' * 400) + monthIndex days' ∨
      12 * (yearOf days + eraOf days * 400) + monthIndex days =
        12 * (yearOf days' + eraOf days' * 400) + monthIndex days' ∧
          dayOfMonth days < dayOfMonth days') :
    DateLess (civil days) (civil days') := by
  obtain ⟨hlow, hhigh⟩ := monthIndex_bounds days
  obtain ⟨hlow', hhigh'⟩ := monthIndex_bounds days'
  rw [civil_eq, civil_eq, DateLess]
  simp only
  omega

theorem civil_strictMono {days days' : Int} (h : days < days') :
    DateLess (civil days) (civil days') := by
  obtain ⟨hzero, hlast⟩ := yearOf_bounds days
  obtain ⟨hzero', hlast'⟩ := yearOf_bounds days'
  obtain ⟨hmonth, hmonth11⟩ := monthIndex_bounds days
  obtain ⟨hmonth', hmonth11'⟩ := monthIndex_bounds days'
  obtain ⟨hdoe, hdoe'⟩ := dayOfEra_bounds days'
  refine dateLess_of_march ?_
  have hera : eraOf days ≤ eraOf days' := by
    unfold eraOf
    omega
  rcases Int.lt_or_eq_of_le hera with hless | hsame
  · omega
  · have hday : dayOfEra days < dayOfEra days' := by
      unfold dayOfEra
      omega
    have hyear : yearOf days ≤ yearOf days' := yearOfEra_mono (Int.le_of_lt hday)
    rcases Int.lt_or_eq_of_le hyear with hless | hsameYear
    · omega
    · have hdoy : dayOfYear days < dayOfYear days' := by
        unfold dayOfYear
        rw [hsameYear]
        omega
      have hmonths : monthIndex days ≤ monthIndex days' := by
        unfold monthIndex
        omega
      rcases Int.lt_or_eq_of_le hmonths with hless | hsameMonth
      · omega
      · have hdays : dayOfMonth days < dayOfMonth days' := by
          unfold dayOfMonth
          rw [hsameMonth]
          omega
        omega

end Calendar

section Digits

def fixedDigits : Nat → Nat → List Char
  | 0, _ => []
  | width + 1, n => fixedDigits width (n / 10) ++ [Nat.digitChar (n % 10)]

theorem length_fixedDigits (width n : Nat) : (fixedDigits width n).length = width := by
  induction width generalizing n with
  | zero => rfl
  | succ width ih => rw [fixedDigits, List.length_append, ih, List.length_singleton]

theorem fixedDigits_zero (width : Nat) : fixedDigits width 0 = List.replicate width '0' := by
  induction width with
  | zero => rfl
  | succ width ih =>
      rw [fixedDigits, Nat.zero_div, ih, List.replicate_succ']
      rfl

theorem fixedDigits_eq {width n : Nat} (h : n < 10 ^ (width + 1)) :
    List.replicate (width + 1 - (Nat.toDigits 10 n).length) '0' ++ Nat.toDigits 10 n =
      fixedDigits (width + 1) n := by
  induction width generalizing n with
  | zero =>
      have hdigit : n < 10 := h
      rw [Nat.toDigits_of_lt_base hdigit, fixedDigits, fixedDigits, Nat.mod_eq_of_lt hdigit]
      rfl
  | succ width ih =>
      by_cases hsmall : n < 10
      · rw [Nat.toDigits_of_lt_base hsmall, fixedDigits, Nat.div_eq_of_lt hsmall,
          fixedDigits_zero, Nat.mod_eq_of_lt hsmall]
        rfl
      · have hrest : n / 10 < 10 ^ (width + 1) := by
          rw [Nat.div_lt_iff_lt_mul (by decide), ← Nat.pow_succ]
          exact h
        rw [Nat.toDigits_of_base_le (by decide) (Nat.not_lt.mp hsmall), fixedDigits, ← ih hrest,
          List.length_append, List.length_singleton, List.append_assoc, Nat.add_sub_add_right]

theorem digitChar_lt {m n : Nat} (h : m < n) (hn : n < 10) : Nat.digitChar m < Nat.digitChar n := by
  have hall : ∀ n < 10, ∀ m < n, Nat.digitChar m < Nat.digitChar n := by decide
  exact hall n hn m h

theorem append_lt_of_lt {l l' : List Char} (hlength : l.length = l'.length) (h : l < l')
    (r r' : List Char) : l ++ r < l' ++ r' := by
  induction l generalizing l' with
  | nil =>
      rw [List.eq_nil_of_length_eq_zero hlength.symm] at h
      cases h
  | cons a l ih =>
      cases l' with
      | nil => cases hlength
      | cons a' l' =>
          rw [List.cons_lt_cons_iff] at h
          simp only [List.cons_append, List.cons_lt_cons_iff]
          exact h.imp_right fun hrest => ⟨hrest.1, ih (Nat.succ.inj hlength) hrest.2⟩

theorem fixedDigits_lt {width m n : Nat} (h : m < n) (hn : n < 10 ^ width) :
    fixedDigits width m < fixedDigits width n := by
  induction width generalizing m n with
  | zero =>
      rw [Nat.pow_zero] at hn
      omega
  | succ width ih =>
      have hrest : n / 10 < 10 ^ width := by
        rw [Nat.div_lt_iff_lt_mul (by decide), ← Nat.pow_succ]
        exact hn
      rw [fixedDigits, fixedDigits]
      have hle : m / 10 ≤ n / 10 := Nat.div_le_div_right (Nat.le_of_lt h)
      rcases Nat.lt_or_eq_of_le hle with hless | hsame
      · refine append_lt_of_lt ?_ (ih hless hrest) _ _
        rw [length_fixedDigits, length_fixedDigits]
      · rw [hsame]
        refine List.append_left_lt (List.cons_lt_cons_iff.mpr (.inl ?_))
        exact digitChar_lt (by omega) (Nat.mod_lt _ (by decide))

theorem toList_pad {width : Nat} {n : Int} (h : n < 10 ^ (width + 1)) :
    (pad (width + 1) n).toList = fixedDigits (width + 1) n.toNat := by
  have hn : n.toNat < 10 ^ (width + 1) := by
    have hcast : n < ((10 ^ (width + 1) : Nat) : Int) := by
      push_cast
      exact h
    have hpos : 0 < 10 ^ (width + 1) := Nat.pow_pos (by decide)
    omega
  rw [← fixedDigits_eq hn, pad, String.toList_append, String.toList_ofList,
    ← String.length_toList, Nat.toString_eq_repr, Nat.toList_repr]

theorem field_lt {width : Nat} {m n : Int} (hm : 0 ≤ m) (hn : 0 ≤ n)
    (hm' : m < 10 ^ (width + 1)) (hn' : n < 10 ^ (width + 1)) (sep : List Char)
    {r r' : List Char} (h : m < n ∨ m = n ∧ r < r') :
    (pad (width + 1) m).toList ++ (sep ++ r) < (pad (width + 1) n).toList ++ (sep ++ r') := by
  rcases h with hless | ⟨hsame, hrest⟩
  · rw [toList_pad hm', toList_pad hn']
    have hnat : n.toNat < 10 ^ (width + 1) := by
      have hcast : n < ((10 ^ (width + 1) : Nat) : Int) := by
        push_cast
        exact hn'
      omega
    refine append_lt_of_lt ?_ (fixedDigits_lt (by omega) hnat) _ _
    rw [length_fixedDigits, length_fixedDigits]
  · rw [hsame]
    exact List.append_left_lt (List.append_left_lt hrest)

end Digits

section Texts

def fraction (micros : Int) : String :=
  (if micros = 0 then "" else "." ++ pad 6 micros) ++ "+00:00"

theorem fraction_lt {m n : Int} (hm : 0 ≤ m) (h : m < n) (hn : n < 1000000) :
    (fraction m).toList < (fraction n).toList := by
  have hpos : n ≠ 0 := by omega
  simp only [fraction, if_neg hpos]
  by_cases hzero : m = 0
  · rw [if_pos hzero]
    simp only [String.toList_append]
    exact List.cons_lt_cons_iff.mpr (.inl (by decide))
  · rw [if_neg hzero]
    simp only [String.toList_append, List.append_assoc]
    refine List.append_left_lt ?_
    exact field_lt hm (by omega) (by omega) (by omega) [] (.inl h)

theorem isoformat_eq (t : Int) :
    isoformat t =
      pad 4 (civil (t / microsecondsPerDay)).1 ++ "-" ++
        pad 2 (civil (t / microsecondsPerDay)).2.1 ++ "-" ++
        pad 2 (civil (t / microsecondsPerDay)).2.2 ++ "T" ++
        pad 2 (t % microsecondsPerDay / 1000000 / 3600) ++ ":" ++
        pad 2 (t % microsecondsPerDay / 1000000 / 60 % 60) ++ ":" ++
        pad 2 (t % microsecondsPerDay / 1000000 % 60) ++
        fraction (t % microsecondsPerDay % 1000000) := by
  simp only [isoformat, fraction, String.append_assoc]

theorem year_bounds {t : Int} (hmin : minimum ≤ t) (hmax : t ≤ maximum) :
    0 ≤ (civil (t / microsecondsPerDay)).1 ∧ (civil (t / microsecondsPerDay)).1 < 10000 := by
  have hfirst : civil (-719162) = (1, 1, 1) := by decide
  have hlast : civil 2932896 = (9999, 12, 31) := by decide
  unfold minimum at hmin
  unfold maximum at hmax
  have hlow : -719162 ≤ t / microsecondsPerDay := by
    unfold microsecondsPerDay
    omega
  have hhigh : t / microsecondsPerDay ≤ 2932896 := by
    unfold microsecondsPerDay
    omega
  generalize t / microsecondsPerDay = days at *
  constructor
  · rcases Int.lt_or_eq_of_le hlow with hless | hsame
    · have hdate := civil_strictMono hless
      rw [hfirst, DateLess] at hdate
      simp only at hdate
      omega
    · rw [← hsame, hfirst]
      decide
  · rcases Int.lt_or_eq_of_le hhigh with hless | hsame
    · have hdate := civil_strictMono hless
      rw [hlast, DateLess] at hdate
      simp only at hdate
      omega
    · rw [hsame, hlast]
      decide

theorem date_bounds (days : Int) : 0 ≤ (civil days).2.1 ∧ (civil days).2.1 < 100 ∧
    0 ≤ (civil days).2.2 ∧ (civil days).2.2 < 100 := by
  obtain ⟨hlow, hhigh⟩ := monthIndex_bounds days
  obtain ⟨hlow', hhigh'⟩ := dayOfMonth_bounds days
  rw [civil_eq]
  simp only
  omega

def TimeLess (t u : Int) : Prop :=
  t % microsecondsPerDay / 1000000 / 3600 < u % microsecondsPerDay / 1000000 / 3600 ∨
    t % microsecondsPerDay / 1000000 / 3600 = u % microsecondsPerDay / 1000000 / 3600 ∧
      (t % microsecondsPerDay / 1000000 / 60 % 60 < u % microsecondsPerDay / 1000000 / 60 % 60 ∨
        t % microsecondsPerDay / 1000000 / 60 % 60 = u % microsecondsPerDay / 1000000 / 60 % 60 ∧
          (t % microsecondsPerDay / 1000000 % 60 < u % microsecondsPerDay / 1000000 % 60 ∨
            t % microsecondsPerDay / 1000000 % 60 = u % microsecondsPerDay / 1000000 % 60 ∧
              t % microsecondsPerDay % 1000000 < u % microsecondsPerDay % 1000000))

theorem timeLess_of_sameDay {t u : Int} (h : t < u)
    (hday : t / microsecondsPerDay = u / microsecondsPerDay) : TimeLess t u := by
  have hrest : t % microsecondsPerDay < u % microsecondsPerDay := by
    have ht := Int.mul_ediv_add_emod t microsecondsPerDay
    have hu := Int.mul_ediv_add_emod u microsecondsPerDay
    rw [hday] at ht
    omega
  unfold TimeLess
  omega

theorem time_bounds (t : Int) :
    (0 ≤ t % microsecondsPerDay / 1000000 / 3600 ∧
      t % microsecondsPerDay / 1000000 / 3600 < 100) ∧
    (0 ≤ t % microsecondsPerDay / 1000000 / 60 % 60 ∧
      t % microsecondsPerDay / 1000000 / 60 % 60 < 100) ∧
    (0 ≤ t % microsecondsPerDay / 1000000 % 60 ∧
      t % microsecondsPerDay / 1000000 % 60 < 100) ∧
    0 ≤ t % microsecondsPerDay % 1000000 ∧ t % microsecondsPerDay % 1000000 < 1000000 := by
  unfold microsecondsPerDay
  omega

theorem clock_lt {t u : Int} (h : TimeLess t u) :
    (pad 2 (t % microsecondsPerDay / 1000000 / 3600)).toList ++ (":".toList ++
      ((pad 2 (t % microsecondsPerDay / 1000000 / 60 % 60)).toList ++ (":".toList ++
        ((pad 2 (t % microsecondsPerDay / 1000000 % 60)).toList ++
          (fraction (t % microsecondsPerDay % 1000000)).toList)))) <
    (pad 2 (u % microsecondsPerDay / 1000000 / 3600)).toList ++ (":".toList ++
      ((pad 2 (u % microsecondsPerDay / 1000000 / 60 % 60)).toList ++ (":".toList ++
        ((pad 2 (u % microsecondsPerDay / 1000000 % 60)).toList ++
          (fraction (u % microsecondsPerDay % 1000000)).toList)))) := by
  obtain ⟨⟨hhour, hhour'⟩, ⟨hminute, hminute'⟩, ⟨hsecond, hsecond'⟩, hmicro, _⟩ := time_bounds t
  obtain ⟨⟨hhour2, hhour2'⟩, ⟨hminute2, hminute2'⟩, ⟨hsecond2, hsecond2'⟩, _, hmicro2'⟩ :=
    time_bounds u
  refine field_lt hhour hhour2 hhour' hhour2' _ ?_
  refine h.imp_right fun hrest => ⟨hrest.1, ?_⟩
  refine field_lt hminute hminute2 hminute' hminute2' _ ?_
  refine hrest.2.imp_right fun hrest => ⟨hrest.1, ?_⟩
  refine field_lt hsecond hsecond2 hsecond' hsecond2' [] ?_
  exact hrest.2.imp_right fun hrest => ⟨hrest.1, fraction_lt hmicro hrest.2 hmicro2'⟩

theorem isoformat_strictMono {t u : Int} (hmin : minimum ≤ t) (hmax : u ≤ maximum) (h : t < u) :
    (isoformat t).toList < (isoformat u).toList := by
  obtain ⟨hyear, hyear'⟩ := year_bounds hmin (by omega)
  obtain ⟨hyear2, hyear2'⟩ := year_bounds (Int.le_trans hmin (Int.le_of_lt h)) hmax
  obtain ⟨hmonth, hmonth', hday, hday'⟩ := date_bounds (t / microsecondsPerDay)
  obtain ⟨hmonth2, hmonth2', hday2, hday2'⟩ := date_bounds (u / microsecondsPerDay)
  have hdays : t / microsecondsPerDay ≤ u / microsecondsPerDay :=
    Int.ediv_le_ediv (by decide) (Int.le_of_lt h)
  rw [isoformat_eq, isoformat_eq]
  simp only [String.toList_append, List.append_assoc]
  rcases Int.lt_or_eq_of_le hdays with hless | hsame
  · have hdate := civil_strictMono hless
    refine field_lt hyear hyear2 hyear' hyear2' _ ?_
    refine hdate.imp_right fun hrest => ⟨hrest.1, ?_⟩
    refine field_lt hmonth hmonth2 hmonth' hmonth2' _ ?_
    refine hrest.2.imp_right fun hrest => ⟨hrest.1, ?_⟩
    exact field_lt hday hday2 hday' hday2' _ (.inl hrest.2)
  · rw [hsame]
    refine List.append_left_lt (List.append_left_lt (List.append_left_lt (List.append_left_lt ?_)))
    exact List.append_left_lt (List.append_left_lt (clock_lt (timeLess_of_sameDay h hsame)))

theorem isoformat_lt_iff {t u : Int} (ht : minimum ≤ t ∧ t ≤ maximum)
    (hu : minimum ≤ u ∧ u ≤ maximum) : isoformat t < isoformat u ↔ t < u := by
  rw [String.lt_iff_toList_lt]
  constructor
  · intro htexts
    by_contra hle
    rcases Int.lt_or_eq_of_le (Int.not_lt.mp hle) with hless | hsame
    · exact absurd (isoformat_strictMono hu.1 ht.2 hless) (List.lt_asymm htexts)
    · rw [hsame] at htexts
      exact absurd htexts (List.lt_irrefl _)
  · intro hless
    exact isoformat_strictMono ht.1 hu.2 hless

theorem isoformat_inj {t u : Int} (ht : minimum ≤ t ∧ t ≤ maximum)
    (hu : minimum ≤ u ∧ u ≤ maximum) (h : isoformat t = isoformat u) : t = u := by
  rcases lt_trichotomy t u with hless | hsame | hless
  · have htexts := (isoformat_lt_iff ht hu).mpr hless
    rw [h] at htexts
    exact absurd htexts (lt_irrefl _)
  · exact hsame
  · have htexts := (isoformat_lt_iff hu ht).mpr hless
    rw [h] at htexts
    exact absurd htexts (lt_irrefl _)

end Texts

end PyDatetime
