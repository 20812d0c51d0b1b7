import AiSoc.Evidence.Patterns
import AiSoc.Library.Rendering

namespace Evidence

open Regex

section Names

variable {isWord : Char → Bool}

theorem guarded_letters {P : Prop} {letter : Char} {cs : List Char} {core : List Item}
    (classes : CharClasses) (hfirst : ignoreCase letter 'A' = false ∨ P)
    (hchain : List.IsChain (fun b a => ignoreCase a 'A' = false ∨ b ∈ initials) (letter :: cs))
    (hcore : ∀ P, Guarded classes.isWord 'A' P core) :
    Guarded classes.isWord 'A' P (letters ignoreCase (letter :: cs) ++ core) := by
  induction cs generalizing P letter with
  | nil => exact ⟨hfirst, hcore _⟩
  | cons a cs ih =>
      obtain ⟨hnext, hrest⟩ := List.isChain_cons_cons.mp hchain
      refine ⟨hfirst, ih (hnext.imp_right fun hinitial c hc => ?_) hrest⟩
      exact initial_isWord classes hinitial hc

theorem guarded_spaced (classes : CharClasses) (P : Prop) :
    Guarded classes.isWord 'A' P spaced :=
  ⟨by decide, ⟨.inl (by decide), by decide, trivial⟩⟩

theorem guarded_cores (classes : CharClasses) :
    ∀ core ∈ keyedCores, Guarded classes.isWord 'A' True core := by
  have hspaced := guarded_spaced classes
  have hkey : ∀ P, Guarded classes.isWord 'A' P (.one isDash :: nameCore ['k', 'e', 'y']) :=
    fun P => ⟨.inl (by decide), guarded_letters classes (.inl (by decide)) (by decide) hspaced⟩
  simp only [keyedCores, List.forall_mem_cons]
  exact ⟨guarded_letters classes (.inr trivial) (by decide) hspaced,
    guarded_letters classes (.inr trivial) (by decide) hspaced,
    guarded_letters classes (.inr trivial) (by decide) hspaced,
    guarded_letters classes (.inr trivial) (by decide) hkey,
    guarded_letters classes (.inr trivial) (by decide) hspaced, List.forall_mem_nil _⟩

theorem before_of_start {prev : Option Char} {s t : List Char} {i : Nat} (h : s <+: t)
    (hi : i ≤ s.length) : before prev s i = before prev t i := by
  obtain ⟨r, rfl⟩ := h
  cases i with
  | zero => rfl
  | succ i => exact (List.getElem?_append_left hi).symm

end Names

section Nesting

variable (classes : CharClasses) (t : List Char)

theorem keyed_not_at_accessKey {prev : Option Char} {c : Char} {rest : List Char}
    (hc : c ∈ ['K', 'S']) :
    ¬ Starts classes.isWord keyedSecret prev ('A' :: c :: rest) := by
  rintro ⟨n, hn⟩
  obtain ⟨items, hitems, hrun⟩ := matchLength_keyedSecret hn
  have hblocked : ∀ c ∈ ['K', 'S'],
      ∀ items ∈ nameItems ['p', 'a', 's', 's', 'w', 'o', 'r', 'd'] :: keyedAlternatives,
        blocked items ['A', c] = true := by
    simp only [← List.all_eq_true]
    decide
  have hnone : run items (['A', c] ++ rest) = none := run_blocked (hblocked c hc items hitems) rest
  rw [List.cons_append, List.cons_append, List.nil_append, hrun] at hnone
  cases hnone

theorem accessKey_not_in_name {k n : Nat} {core : List Item} {s : List Char}
    (hk : marksOf classes.isWord keyedSecret t k = some n) (hcore : core ∈ keyedCores)
    (hs : Reads core s) (hstart : s <+: t.drop k) :
    ∀ i < s.length, marksOf classes.isWord accessKeyId t (k + i) = none := by
  intro i hi
  refine Option.eq_none_iff_forall_ne_some.mpr fun l hl => ?_
  obtain ⟨⟨c, hc, rest, hdrop⟩, hprev, _⟩ := accessKeyId_mark hl
  cases i with
  | zero =>
      have hmatch := match_of_mark hk
      rw [Nat.add_zero] at hdrop
      rw [hdrop] at hmatch
      exact keyed_not_at_accessKey classes hc ⟨n, hmatch⟩
  | succ i =>
      have hfirst : s[i + 1]? = some 'A' := by
        obtain ⟨r, hr⟩ := hstart
        rw [← List.getElem?_append_left hi, hr, List.getElem?_drop, ← List.head?_drop,
          hdrop, List.head?_cons]
      have hword := hs.guarded (guarded_cores classes core hcore) (before none t k)
        (fun _ hzero => by cases hzero) hfirst
      rw [before_of_start hstart (Nat.le_of_lt hi), before_before, hprev] at hword
      cases hword

theorem nested_accessKey : (marksOf classes.isWord accessKeyId t).Nested
    (marksOf classes.isWord keyedSecret t) where
  ends k n hk i hi l hl := by
    refine Nat.le_of_not_lt fun hlt => ?_
    obtain ⟨c, hc, hupper⟩ := (accessKeyId_mark hl).2.2 (n + 1 - i) (by omega)
    have hsum : k + i + (n + 1 - i) = k + (n + 1) := by omega
    rw [hsum, ← List.getElem?_drop] at hc
    have hvalue := next_keyedSecret (match_of_mark hk) c hc
    rw [isValue_of_isToken (isToken_of_isUpperOrDigit hupper)] at hvalue
    cases hvalue
  starts k n hk i hi := by
    refine Option.eq_none_iff_forall_ne_some.mpr fun l hl => ?_
    obtain ⟨⟨c, hc, rest, hdrop⟩, _, hall⟩ := accessKeyId_mark hk
    have hmatch := match_of_mark hl
    cases i with
    | zero =>
        rw [Nat.add_zero, hdrop] at hmatch
        exact keyed_not_at_accessKey classes hc ⟨l, hmatch⟩
    | succ i =>
        obtain ⟨d, hd, hupper⟩ := hall i (Nat.le_of_succ_le hi)
        have hprev := prev_keyedSecret hmatch
        rw [← Nat.add_assoc, before, hd, wordAt, Option.any_some,
          isWord_of_isUpperOrDigit classes hupper] at hprev
        cases hprev

end Nesting

section Passes

variable (classes : CharClasses) (t : List Char)

def keyMarks : Marks :=
  (marksOf classes.isWord accessKeyId t).union (marksOf classes.isWord keyedSecret t)

def bearerMarks : Marks :=
  marksLeft classes.isWord bearerToken (keyMarks classes t) t

def tokenMarks : Marks :=
  (keyMarks classes t).union (bearerMarks classes t)

theorem laminar_keyMarks : (keyMarks classes t).Laminar :=
  (unnested_marksOf _ _ _).laminar.union (unnested_marksOf _ _ _).laminar (nested_accessKey classes t)

theorem laminar_tokenMarks : (tokenMarks classes t).Laminar :=
  (laminar_keyMarks classes t).union (unnested_marksLeft _ _ _ _).laminar
    (nested_marksLeft (laminar_keyMarks classes t))

theorem keyed_pass :
    sub classes.isWord keyedSecret redactionMark
        (sub classes.isWord accessKeyId redactionMark t) =
      blank redactionMark 0 (keyMarks classes t) t := by
  have hvalues : ∀ c ∈ redactionMark, isValue c = true := List.all_eq_true.mp (by decide)
  have hfits := fits_accessKeyId classes t
  rw [sub_eq_blank accessKeyId]
  refine sub_blank (follows_values (same_keyedSecret _)
    (fun items hitems => (opened_keyed classes items hitems).determinate) (opened_keyed classes)
    valued_keyed rfl hvalues (inert_keyedSecret classes) (nested_accessKey classes t) hfits.first
    (closes_keyedSecret classes t) ?_) (unnested_marksOf _ _ _).laminar
    (unnested_marksOf _ _ _).laminar hfits.next
  intro k n hk items hitems core s hcore hs hstart
  obtain ⟨core', hmem, hcore'⟩ := ends_with_value items hitems
  obtain rfl := List.append_cancel_right (hcore.symm.trans hcore')
  exact accessKey_not_in_name classes t hk hmem hs hstart

theorem closes_keyMarks (k n : Nat) (hk : keyMarks classes t k = some n) :
    ∀ y, t[k + n + 1]? = some y → Closes classes y := by
  rcases Option.or_eq_some_iff.mp hk with hk | ⟨_, hk⟩
  · exact (fits_accessKeyId classes t).next k n hk
  · exact closes_keyedSecret classes t k n hk

theorem bearer_pass :
    sub classes.isWord bearerToken redactionMark (sub classes.isWord keyedSecret redactionMark
        (sub classes.isWord accessKeyId redactionMark t)) =
      blank redactionMark 0 (tokenMarks classes t) t := by
  rw [keyed_pass]
  exact sub_blank (follows_gaps (same_bearerToken _)
    (fun items hitems => (opened_bearer classes items hitems).determinate) (opened_bearer classes)
    refuses_bearer rfl (inert_bearerToken classes) (laminar_keyMarks classes t))
    (laminar_keyMarks classes t) (unnested_marksLeft _ _ _ _).laminar (closes_keyMarks classes t)

def ArmorClear : Prop :=
  ∀ k n, marksOf classes.isWord privateKeyBlock t k = some n →
    Clear (ArmorText ['B', 'E', 'G', 'I', 'N']) (ArmorText ['E', 'N', 'D'])
      (tokenMarks classes t) t k (n + 1)

theorem clear_of_no_block {classes : CharClasses} {value : List Char}
    (h : ∀ mark ∈ marks classes.isWord privateKeyBlock value, mark = none) :
    ArmorClear classes value := by
  intro k n hk
  have hmem := List.mem_of_getElem? (Option.join_eq_some_iff.mp hk)
  cases h _ hmem

def secretMarks : Marks :=
  (tokenMarks classes t).union (marksOf classes.isWord privateKeyBlock t)

variable {classes t}

theorem follows_privateKeyBlock (h : ArmorClear classes t) :
    Follows classes.isWord privateKeyBlock redactionMark (fun _ => True) (tokenMarks classes t)
      (marksOf classes.isWord privateKeyBlock t) t :=
  follows_block (spells_armorLine (by decide)) (spells_armorLine (by decide))
    (plain_armorLine (by decide)) (plain_armorLine (by decide)) rfl h

theorem laminar_secretMarks (h : ArmorClear classes t) : (secretMarks classes t).Laminar :=
  (laminar_tokenMarks classes t).union (unnested_marksOf _ _ _).laminar
    (follows_privateKeyBlock h).nested

theorem block_pass (h : ArmorClear classes t) :
    redactWith classes secretPatterns t = blank redactionMark 0 (secretMarks classes t) t := by
  change sub _ _ _ (sub _ _ _ (sub _ _ _ (sub _ _ _ t))) = _
  rw [bearer_pass]
  exact sub_blank (follows_privateKeyBlock h) (laminar_tokenMarks classes t)
    (unnested_marksOf _ _ _).laminar fun _ _ _ _ _ => trivial

end Passes

end Evidence
