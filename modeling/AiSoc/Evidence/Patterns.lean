import AiSoc.Evidence.Redaction
import AiSoc.Library.Rewriting

namespace Evidence

open Regex

section CharacterClasses

theorem mem_of_caseVariant {letter c : Char} (h : ignoreCase letter c = true) :
    c ∈ caseVariants letter :=
  List.contains_iff_mem.mp h

def initials : List Char := ['p', 's', 't', 'a', 'b']

theorem initial_isToken {letter c : Char} (hletter : letter ∈ initials)
    (h : ignoreCase letter c = true) : isToken c = true := by
  have hall : (initials.all fun letter => (caseVariants letter).all isToken) = true := by
    decide
  exact List.all_eq_true.mp (List.all_eq_true.mp hall letter hletter) c (mem_of_caseVariant h)

theorem initial_isValue {letter c : Char} (hletter : letter ∈ initials)
    (h : ignoreCase letter c = true) : isValue c = true := by
  have hall : (initials.all fun letter => (caseVariants letter).all isValue) = true := by
    decide
  exact List.all_eq_true.mp (List.all_eq_true.mp hall letter hletter) c (mem_of_caseVariant h)

theorem initial_isWord (classes : CharClasses) {letter c : Char} (hletter : letter ∈ initials)
    (h : ignoreCase letter c = true) : classes.isWord c = true := by
  have hall : (initials.all fun letter => (caseVariants letter).all fun c =>
      c = Char.ofNat 0x17f ∨ (c.toNat < 128 ∧ (c.isAlphanum || c == '_') = true)) = true := by
    decide
  have hvariant := List.all_eq_true.mp (List.all_eq_true.mp hall letter hletter) c
    (mem_of_caseVariant h)
  rcases of_decide_eq_true hvariant with rfl | ⟨hascii, halphanum⟩
  · exact classes.longS
  · rw [classes.ascii c hascii, halphanum]

theorem isSpace_of_separator {c : Char} (h : PyStr.isSpace c = true) : isSeparator c = false := by
  cases hc : isSeparator c with
  | false => rfl
  | true =>
      rcases Bool.or_eq_true_iff.mp hc with hc | hc
      · rw [eq_of_beq hc] at h
        revert h
        decide
      · rw [eq_of_beq hc] at h
        revert h
        decide

theorem not_isValue_of_isSpace {c : Char} (h : PyStr.isSpace c = true) : isValue c = false := by
  rw [isValue, h]
  rfl

theorem not_isToken_of_isSpace {c : Char} (h : PyStr.isSpace c = true) : isToken c = false := by
  have hall : ∀ n ∈ PyStr.whitespace, isToken (Char.ofNat n) = false := by
    decide
  have hmem := hall c.toNat (List.contains_iff_mem.mp h)
  rwa [Char.ofNat_toNat] at hmem

theorem isValue_of_isToken {c : Char} (h : isToken c = true) : isValue c = true := by
  cases hspace : PyStr.isSpace c with
  | true =>
      rw [not_isToken_of_isSpace hspace] at h
      cases h
  | false =>
      have hcomma : (c == ',') = false := by
        rw [beq_eq_false_iff_ne]
        rintro rfl
        revert h
        decide
      have hsemicolon : (c == ';') = false := by
        rw [beq_eq_false_iff_ne]
        rintro rfl
        revert h
        decide
      rw [isValue, hspace, hcomma, hsemicolon]
      rfl

theorem isUpperOrDigit_toNat {c : Char} (h : isUpperOrDigit c = true) : c.toNat < 128 := by
  simp only [isUpperOrDigit, isUpper, Bool.or_eq_true, Bool.and_eq_true, decide_eq_true_eq,
    Char.le_def, UInt32.le_iff_toNat_le] at h
  rcases h with ⟨_, h⟩ | ⟨_, h⟩
  · exact Nat.lt_of_le_of_lt h (by decide)
  · exact Nat.lt_of_le_of_lt h (by decide)

theorem isAlphanum_of_isUpperOrDigit {c : Char} (h : isUpperOrDigit c = true) :
    c.isAlphanum = true := by
  simp only [isUpperOrDigit, isUpper, Bool.or_eq_true, Bool.and_eq_true, decide_eq_true_eq,
    Char.le_def] at h
  rcases h with ⟨hlow, hhigh⟩ | ⟨hlow, hhigh⟩
  · have hupper : c.isUpper = true := decide_eq_true ⟨hlow, hhigh⟩
    exact Bool.or_eq_true_iff.mpr (.inl (Bool.or_eq_true_iff.mpr (.inl hupper)))
  · have hdigit : c.isDigit = true :=
      Bool.and_eq_true_iff.mpr ⟨decide_eq_true hlow, decide_eq_true hhigh⟩
    exact Bool.or_eq_true_iff.mpr (.inr hdigit)

theorem isToken_of_isUpperOrDigit {c : Char} (h : isUpperOrDigit c = true) :
    isToken c = true := by
  rw [isToken, isAlphanum_of_isUpperOrDigit h]
  rfl

theorem isWord_of_isUpperOrDigit (classes : CharClasses) {c : Char}
    (h : isUpperOrDigit c = true) : classes.isWord c = true := by
  rw [classes.ascii c (isUpperOrDigit_toNat h), isAlphanum_of_isUpperOrDigit h]
  rfl

end CharacterClasses

section Normal

variable {isWord : Char → Bool}

def spaced : List Item :=
  [.many PyStr.isSpace, .one isSeparator, .many PyStr.isSpace]

def nameItems (cs : List Char) : List Item :=
  letters ignoreCase cs ++ (spaced ++ [.one isValue, .many isValue])

def bearerItems : List Item :=
  letters ignoreCase ['b', 'e', 'a', 'r', 'e', 'r'] ++
    ([.one PyStr.isSpace, .many PyStr.isSpace] ++ [.one isToken, .many isToken])

def isDash (c : Char) : Bool :=
  c == '_' || c == '-'

def dashedItems : List Item :=
  letters ignoreCase ['a', 'p', 'i'] ++ (.one isDash :: nameItems ['k', 'e', 'y'])

def keyedAlternatives : List (List Item) :=
  [nameItems ['s', 'e', 'c', 'r', 'e', 't'], nameItems ['t', 'o', 'k', 'e', 'n'], dashedItems,
    nameItems ['a', 'p', 'i', 'k', 'e', 'y']]

def valuePattern : Pattern :=
  .seq (.star PyStr.isSpace) (.seq (.one isSeparator) (.seq (.star PyStr.isSpace) (.plus isValue)))

variable (isWord) in
theorem same_value : Same isWord valuePattern
    (ofItems (spaced ++ [.one isValue, .many isValue])) :=
  (Same.refl isWord _).seq ((Same.refl isWord _).seq ((Same.refl isWord _).seq (same_plus isWord isValue)))

variable (isWord) in
theorem same_name (cs : List Char) :
    Same isWord (.seq (litIgnoreCase cs) valuePattern) (ofItems (nameItems cs)) :=
  same_word_items isWord ignoreCase cs (same_value isWord)

variable (isWord) in
theorem same_apiKey : Same isWord (.seq apiKey valuePattern)
    (.alt (ofItems dashedItems) (ofItems (nameItems ['a', 'p', 'i', 'k', 'e', 'y']))) := by
  have hkey : Same isWord
      (.seq (.seq (.opt isDash) (litIgnoreCase ['k', 'e', 'y'])) valuePattern)
      (.alt (ofItems (.one isDash :: nameItems ['k', 'e', 'y']))
        (ofItems (nameItems ['k', 'e', 'y']))) := by
    have hname := same_name isWord ['k', 'e', 'y']
    have hchoice := same_alt_seq isWord (.one isDash) .empty
      (.seq (litIgnoreCase ['k', 'e', 'y']) valuePattern)
    have hempty := same_empty_seq isWord
      (.seq (litIgnoreCase ['k', 'e', 'y']) valuePattern)
    have hone := (Same.refl isWord (.one isDash)).seq hname
    exact (same_assoc _ _ _ _).trans (hchoice.trans (hone.alt (hempty.trans hname)))
  have hassoc := same_assoc isWord (litIgnoreCase ['a', 'p', 'i'])
    (.seq (.opt isDash) (litIgnoreCase ['k', 'e', 'y'])) valuePattern
  have hword := (Same.refl isWord (litIgnoreCase ['a', 'p', 'i'])).seq hkey
  have halt := same_word_alt isWord ignoreCase ['a', 'p', 'i']
    (ofItems (.one isDash :: nameItems ['k', 'e', 'y'])) (ofItems (nameItems ['k', 'e', 'y']))
  have hdashed := same_word_items isWord ignoreCase ['a', 'p', 'i']
    (Same.refl isWord (ofItems (.one isDash :: nameItems ['k', 'e', 'y'])))
  have hplain := same_word_items isWord ignoreCase ['a', 'p', 'i']
    (Same.refl isWord (ofItems (nameItems ['k', 'e', 'y'])))
  exact hassoc.trans (hword.trans (halt.trans (hdashed.alt hplain)))

variable (isWord) in
theorem same_keyedSecret : Same isWord keyedSecret
    (.seq .boundary
      (ofAlternatives (nameItems ['p', 'a', 's', 's', 'w', 'o', 'r', 'd']) keyedAlternatives)) := by
  have hname := same_name isWord
  have hchoice := same_alt_seq isWord
  refine (Same.refl isWord .boundary).seq ?_
  refine (hchoice _ _ valuePattern).trans ((hname _).alt ?_)
  refine (hchoice _ _ valuePattern).trans ((hname _).alt ?_)
  exact (hchoice _ _ valuePattern).trans ((hname _).alt (same_apiKey isWord))

variable (isWord) in
theorem same_bearerToken :
    Same isWord bearerToken (.seq .boundary (ofAlternatives bearerItems [])) := by
  have hspaces : Same isWord (.seq (.plus PyStr.isSpace) (.plus isToken))
      (ofItems ([.one PyStr.isSpace, .many PyStr.isSpace] ++ [.one isToken, .many isToken])) :=
    (same_assoc _ _ _ _).trans
      ((Same.refl isWord _).seq ((Same.refl isWord _).seq (same_plus isWord isToken)))
  exact (Same.refl isWord .boundary).seq (same_word_items isWord ignoreCase _ hspaces)

end Normal

section Passes

variable (classes : CharClasses)

def Opens (c : Char) : Prop :=
  isToken c = true

def Closes (c : Char) : Prop :=
  classes.isWord c = false ∨ isValue c = false

def firstOfMark : Char := '['

variable {classes}

theorem initial_closes {letter c : Char} (hletter : letter ∈ initials)
    (hc : Closes classes c) : ignoreCase letter c = false := by
  cases h : ignoreCase letter c with
  | false => rfl
  | true =>
      rcases hc with hc | hc
      · rw [initial_isWord classes hletter h] at hc
        cases hc
      · rw [initial_isValue hletter h] at hc
        cases hc

theorem letters_stops {cs : List Char}
    (hmark : (cs.all fun letter => !ignoreCase letter firstOfMark) = true) :
    ∀ item ∈ letters ignoreCase cs, item.Stops Opens firstOfMark := by
  intro item hitem
  obtain ⟨letter, hletter, rfl⟩ := List.mem_map.mp hitem
  have hfalse : ignoreCase letter firstOfMark = false := by
    simpa only [Bool.not_eq_true'] using List.all_eq_true.mp hmark letter hletter
  exact hfalse

theorem space_stops : (Item.many PyStr.isSpace).Stops Opens firstOfMark := by
  refine ⟨by decide, fun x hx => ?_⟩
  cases hspace : PyStr.isSpace x with
  | false => rfl
  | true =>
      rw [Opens, not_isToken_of_isSpace hspace] at hx
      cases hx

theorem determinate_value : Determinate (spaced ++ [.one isValue, .many isValue]) :=
  ⟨fun _ => isSpace_of_separator, fun _ => not_isValue_of_isSpace, trivial⟩

theorem determinate_token : Determinate
    ([.one PyStr.isSpace, .many PyStr.isSpace] ++ [.one isToken, .many isToken]) :=
  ⟨fun _ => not_isToken_of_isSpace, trivial⟩

theorem opened_of_letter {letter : Char} {cs : List Char} {core : List Item}
    (hletter : letter ∈ initials) (hcore : Determinate core) :
    Opened (Closes classes) (letters ignoreCase (letter :: cs) ++ core) :=
  ⟨determinate_letters ignoreCase (letter :: cs) hcore, _, _, rfl, fun _ => initial_closes hletter⟩

variable (classes) in
theorem opened_keyed : ∀ items ∈ nameItems ['p', 'a', 's', 's', 'w', 'o', 'r', 'd'] ::
    keyedAlternatives, Opened (Closes classes) items := by
  have hdashed : Determinate (.one isDash :: nameItems ['k', 'e', 'y']) :=
    determinate_letters ignoreCase ['k', 'e', 'y'] determinate_value
  simp only [keyedAlternatives, List.forall_mem_cons]
  exact ⟨opened_of_letter (by decide) determinate_value,
    opened_of_letter (by decide) determinate_value,
    opened_of_letter (by decide) determinate_value, opened_of_letter (by decide) hdashed,
    opened_of_letter (by decide) determinate_value, nofun⟩

variable (classes) in
theorem opened_bearer : ∀ items ∈ [bearerItems], Opened (Closes classes) items :=
  List.forall_mem_cons.mpr ⟨opened_of_letter (by decide) determinate_token, nofun⟩

theorem spaced_stops : ∀ item ∈ spaced, item.Stops Opens firstOfMark := by
  have hseparator : (Item.one isSeparator).Stops Opens firstOfMark := by
    change isSeparator '[' = false
    decide
  simp only [spaced, List.forall_mem_cons]
  exact ⟨space_stops, hseparator, space_stops, nofun⟩

theorem valued_of_core {core : List Item} (hstops : ∀ item ∈ core, item.Stops Opens firstOfMark)
    (hmany : ∀ q, Item.many q ∈ core → q = PyStr.isSpace) :
    Valued Opens firstOfMark isValue (core ++ [.one isValue, .many isValue]) := by
  refine ⟨⟨core, rfl, hstops, fun q hq c hc => ?_⟩, fun _ => isValue_of_isToken⟩
  obtain rfl := hmany q hq
  cases hspace : PyStr.isSpace c with
  | false => rfl
  | true =>
      rw [not_isValue_of_isSpace hspace] at hc
      cases hc

theorem many_of_spaced {q : Char → Bool} (h : Item.many q ∈ spaced) : q = PyStr.isSpace := by
  simpa [spaced] using h

theorem many_of_letters {q : Char → Bool} {cs : List Char} {core : List Item}
    (h : Item.many q ∈ letters ignoreCase cs ++ core) : Item.many q ∈ core := by
  rcases List.mem_append.mp h with h | h
  · obtain ⟨_, _, hone⟩ := List.mem_map.mp h
    cases hone
  · exact h

def nameCore (cs : List Char) : List Item :=
  letters ignoreCase cs ++ spaced

def dashedCore : List Item :=
  letters ignoreCase ['a', 'p', 'i'] ++ (.one isDash :: nameCore ['k', 'e', 'y'])

theorem nameItems_eq (cs : List Char) :
    nameItems cs = nameCore cs ++ [.one isValue, .many isValue] :=
  (List.append_assoc _ _ _).symm

theorem dashedItems_eq : dashedItems = dashedCore ++ [.one isValue, .many isValue] := by
  rw [dashedItems, nameItems_eq, dashedCore, List.append_assoc]
  rfl

def keyedCores : List (List Item) :=
  [nameCore ['p', 'a', 's', 's', 'w', 'o', 'r', 'd'], nameCore ['s', 'e', 'c', 'r', 'e', 't'],
    nameCore ['t', 'o', 'k', 'e', 'n'], dashedCore, nameCore ['a', 'p', 'i', 'k', 'e', 'y']]

theorem ends_with_value :
    ∀ items ∈ nameItems ['p', 'a', 's', 's', 'w', 'o', 'r', 'd'] :: keyedAlternatives,
      ∃ core ∈ keyedCores, items = core ++ [.one isValue, .many isValue] := by
  simp only [keyedAlternatives, keyedCores, List.forall_mem_cons, nameItems_eq, dashedItems_eq]
  simp only [List.mem_cons]
  exact ⟨⟨_, .inl rfl, rfl⟩, ⟨_, .inr (.inl rfl), rfl⟩, ⟨_, .inr (.inr (.inl rfl)), rfl⟩,
    ⟨_, .inr (.inr (.inr (.inl rfl))), rfl⟩, ⟨_, .inr (.inr (.inr (.inr (.inl rfl)))), rfl⟩, nofun⟩

theorem valued_keyed :
    ∀ items ∈ nameItems ['p', 'a', 's', 's', 'w', 'o', 'r', 'd'] :: keyedAlternatives,
      Valued Opens firstOfMark isValue items := by
  have hname : ∀ cs, (cs.all fun letter => !ignoreCase letter firstOfMark) = true →
      Valued Opens firstOfMark isValue (nameItems cs) := by
    intro cs hmark
    rw [nameItems_eq]
    refine valued_of_core (fun item hitem => ?_) fun q hq => many_of_spaced (many_of_letters hq)
    rcases List.mem_append.mp hitem with hitem | hitem
    · exact letters_stops hmark item hitem
    · exact spaced_stops item hitem
  have hdash : (Item.one isDash).Stops Opens firstOfMark := by
    change isDash '[' = false
    decide
  have hdashed : Valued Opens firstOfMark isValue dashedItems := by
    rw [dashedItems_eq]
    refine valued_of_core (fun item hitem => ?_) fun q hq => ?_
    · rcases List.mem_append.mp hitem with hitem | hitem
      · exact letters_stops (by decide) item hitem
      · rcases List.mem_cons.mp hitem with rfl | hitem
        · exact hdash
        · rcases List.mem_append.mp hitem with hitem | hitem
          · exact letters_stops (by decide) item hitem
          · exact spaced_stops item hitem
    · rcases List.mem_cons.mp (many_of_letters hq) with hone | hq
      · cases hone
      · exact many_of_spaced (many_of_letters hq)
  simp only [keyedAlternatives, List.forall_mem_cons]
  exact ⟨hname _ (by decide), hname _ (by decide), hname _ (by decide), hdashed,
    hname _ (by decide), nofun⟩

theorem refuses_bearer : ∀ items ∈ [bearerItems], ∀ item ∈ items, item.Refuses firstOfMark := by
  have hspace : PyStr.isSpace '[' = false := by decide
  have htoken : isToken '[' = false := by decide
  simp only [List.forall_mem_cons, bearerItems, List.forall_mem_append]
  refine ⟨⟨fun item hitem => ?_, ⟨hspace, hspace, nofun⟩, htoken, htoken, nofun⟩, nofun⟩
  obtain ⟨letter, hletter, rfl⟩ := List.mem_map.mp hitem
  have hall : (['b', 'e', 'a', 'r', 'e', 'r'].all fun letter => !ignoreCase letter '[') = true := by
    decide
  have hfalse : ignoreCase letter '[' = false := by
    simpa only [Bool.not_eq_true'] using List.all_eq_true.mp hall letter hletter
  exact hfalse

variable (classes) in
theorem inert_keyedSecret : Inert classes.isWord keyedSecret redactionMark := by
  have hblocked : ∀ left ∈ redactionMark.tails, left ≠ [] →
      ∀ items ∈ nameItems ['p', 'a', 's', 's', 'w', 'o', 'r', 'd'] :: keyedAlternatives,
        blocked items left = true := by
    decide
  exact (inert_alternatives (fun items hitems => (opened_keyed classes items hitems).determinate)
    hblocked).of_same (same_keyedSecret _)

variable (classes) in
theorem inert_bearerToken : Inert classes.isWord bearerToken redactionMark := by
  have hblocked : ∀ left ∈ redactionMark.tails, left ≠ [] →
      ∀ items ∈ [bearerItems], blocked items left = true := by
    decide
  exact (inert_alternatives (fun items hitems => (opened_bearer classes items hitems).determinate)
    hblocked).of_same (same_bearerToken _)

theorem matchLength_keyedSecret {prev : Option Char} {t : List Char} {n : Nat}
    (h : matchLength classes.isWord keyedSecret prev t = some n) :
    ∃ items ∈ nameItems ['p', 'a', 's', 's', 'w', 'o', 'r', 'd'] :: keyedAlternatives,
      run items t = some n := by
  have hdeterminate : ∀ items ∈
      nameItems ['p', 'a', 's', 's', 'w', 'o', 'r', 'd'] :: keyedAlternatives, Determinate items :=
    fun items hitems => (opened_keyed classes items hitems).determinate
  rw [matchLength_same (same_keyedSecret _), matchLength_boundary,
    matchLength_alternatives hdeterminate] at h
  split at h
  · cases h
  · exact firstRun_mem h

theorem matchLength_bearerToken {prev : Option Char} {t : List Char} {n : Nat}
    (h : matchLength classes.isWord bearerToken prev t = some n) :
    run bearerItems t = some n := by
  have hdeterminate : ∀ items ∈ [bearerItems], Determinate items := fun items hitems =>
    (opened_bearer classes items hitems).determinate
  rw [matchLength_same (same_bearerToken _), matchLength_boundary,
    matchLength_alternatives hdeterminate] at h
  split at h
  · cases h
  · obtain ⟨items, hitems, hrun⟩ := firstRun_mem h
    obtain rfl := List.mem_singleton.mp hitems
    exact hrun

theorem starts_with_initial :
    ∀ items ∈ nameItems ['p', 'a', 's', 's', 'w', 'o', 'r', 'd'] :: keyedAlternatives,
      ∃ letter ∈ initials, ∃ rest, items = .one (ignoreCase letter) :: rest := by
  simp only [keyedAlternatives, List.forall_mem_cons]
  exact ⟨⟨'p', by decide, _, rfl⟩, ⟨'s', by decide, _, rfl⟩, ⟨'t', by decide, _, rfl⟩,
    ⟨'a', by decide, _, rfl⟩, ⟨'a', by decide, _, rfl⟩, nofun⟩

theorem next_keyedSecret {prev : Option Char} {t : List Char} {n : Nat}
    (h : matchLength classes.isWord keyedSecret prev t = some n) :
    ∀ y, t[n]? = some y → isValue y = false := by
  obtain ⟨items, hitems, hrun⟩ := matchLength_keyedSecret h
  obtain ⟨core, _, rfl⟩ := ends_with_value items hitems
  exact run_plus_next hrun

theorem prev_keyedSecret {prev : Option Char} {t : List Char} {n : Nat}
    (h : matchLength classes.isWord keyedSecret prev t = some n) :
    wordAt classes.isWord prev = false := by
  obtain ⟨items, hitems, hrun⟩ := matchLength_keyedSecret h
  obtain ⟨letter, hletter, rest, rfl⟩ := starts_with_initial items hitems
  obtain ⟨c, t', _, rfl, hc, _, _⟩ := of_run_one hrun
  have hword := initial_isWord classes hletter hc
  rw [keyedSecret, matchLength_boundary] at h
  split at h
  · cases h
  · rename_i hboundary
    simpa [wordAt, hword] using hboundary

variable (classes) in
theorem closes_keyedSecret (t : List Char) (k n : Nat)
    (hk : marksOf classes.isWord keyedSecret t k = some n) :
    ∀ y, t[k + n + 1]? = some y → Closes classes y := by
  intro y hy
  refine .inr (next_keyedSecret (match_of_mark hk) y ?_)
  rw [List.getElem?_drop, ← Nat.add_assoc]
  exact hy

end Passes

section AccessKeys

variable {classes : CharClasses}

def AccessKeyText (s : List Char) : Prop :=
  (∃ c ∈ ['K', 'S'], ∃ rest, s = 'A' :: c :: rest) ∧ ∀ c ∈ s, isUpperOrDigit c = true

theorem recognises_accessKey (isWord : Char → Bool) : ∃ language, Recognises isWord
    (.seq (.alt (.lit ['A', 'K', 'I', 'A']) (.lit ['A', 'S', 'I', 'A']))
      (.times isUpperOrDigit 16)) language ∧ ∀ s, language s → AccessKeyText s := by
  refine ⟨_, ((recognises_lit _).alt (recognises_lit _)).seq (recognises_times _ 16), ?_⟩
  rintro s ⟨key, rest, hkey, ⟨_, hrest⟩, rfl⟩
  rcases hkey with rfl | rfl
  · have hkey : (['A', 'K', 'I', 'A'].all isUpperOrDigit) = true := by decide
    exact ⟨⟨'K', by decide, _, rfl⟩,
      List.forall_mem_append.mpr ⟨List.all_eq_true.mp hkey, hrest⟩⟩
  · have hkey : (['A', 'S', 'I', 'A'].all isUpperOrDigit) = true := by decide
    exact ⟨⟨'S', by decide, _, rfl⟩,
      List.forall_mem_append.mpr ⟨List.all_eq_true.mp hkey, hrest⟩⟩

theorem AccessKeyText.last {s : List Char} (h : AccessKeyText s) :
    ∃ l c, s = l ++ [c] ∧ classes.isWord c = true := by
  obtain ⟨⟨_, _, rest, hs⟩, hall⟩ := h
  have hne : s ≠ [] := hs ▸ List.cons_ne_nil _ _
  refine ⟨s.dropLast, s.getLast hne, (List.dropLast_concat_getLast hne).symm, ?_⟩
  exact isWord_of_isUpperOrDigit classes (hall _ (List.getLast_mem hne))

theorem matchLength_accessKeyId {prev : Option Char} {t : List Char} {n : Nat}
    (h : matchLength classes.isWord accessKeyId prev t = some n) :
    (∃ s, AccessKeyText s ∧ s <+: t ∧ n = s.length) ∧ wordAt classes.isWord prev = false ∧
      ∀ y, t[n]? = some y → classes.isWord y = false := by
  obtain ⟨language, hrecognises, htext⟩ := recognises_accessKey classes.isWord
  rw [accessKeyId, matchLength_boundary] at h
  split at h
  · cases h
  · rename_i hboundary
    rw [← matchLength_same (same_assoc _ _ _ _)] at h
    obtain ⟨⟨s, hs, hstart, hn⟩, hnext⟩ := mem_results_boundary hrecognises
      (fun s hs => (htext s hs).last) (matchLength_mem h)
    refine ⟨⟨s, htext s hs, hstart, hn⟩, ?_, hnext⟩
    obtain ⟨⟨_, _, rest, rfl⟩, hall⟩ := htext s hs
    obtain ⟨left, rfl⟩ := hstart
    have hword : classes.isWord 'A' = true := isWord_of_isUpperOrDigit classes (by decide)
    simpa [wordAt, hword] using hboundary

theorem accessKeyId_mark {t : List Char} {k n : Nat}
    (h : marksOf classes.isWord accessKeyId t k = some n) :
    (∃ c ∈ ['K', 'S'], ∃ rest, t.drop k = 'A' :: c :: rest) ∧
      wordAt classes.isWord (before none t k) = false ∧
        ∀ i ≤ n, ∃ c, t[k + i]? = some c ∧ isUpperOrDigit c = true := by
  obtain ⟨⟨s, ⟨⟨c, hc, rest, rfl⟩, hall⟩, ⟨left, hleft⟩, hn⟩, hprev, _⟩ :=
    matchLength_accessKeyId (match_of_mark h)
  refine ⟨⟨c, hc, rest ++ left, hleft.symm⟩, hprev, fun i hi => ?_⟩
  have hlt : i < ('A' :: c :: rest).length := by omega
  refine ⟨_, ?_, hall _ (List.getElem_mem hlt)⟩
  rw [← List.getElem?_drop, ← hleft, List.getElem?_append_left hlt, List.getElem?_eq_getElem hlt]

variable (classes) in
theorem fits_accessKeyId (t : List Char) :
    Fits Opens (Closes classes) (marksOf classes.isWord accessKeyId t) t := by
  refine fits_marksOf ?_ ?_
  · intro prev c t n hmatch
    obtain ⟨⟨s, ⟨⟨d, _, rest, rfl⟩, _⟩, hstart, _⟩, _⟩ := matchLength_accessKeyId hmatch
    obtain ⟨rfl, _⟩ := List.cons_prefix_cons.mp hstart
    change isToken 'A' = true
    decide
  · intro prev t n hmatch y hy
    exact .inl ((matchLength_accessKeyId hmatch).2.2 y hy)

end AccessKeys

section Armor

variable {isWord : Char → Bool}

def ArmorBody (kind body : List Char) : Prop :=
  ∃ label, (∀ c ∈ label, isLabel c = true) ∧
    body = kind ++ [' '] ++ label ++ ['P', 'R', 'I', 'V', 'A', 'T', 'E', ' ', 'K', 'E', 'Y']

def ArmorText (kind s : List Char) : Prop :=
  ∃ body, ArmorBody kind body ∧
    s = ['-', '-', '-', '-', '-'] ++ body ++ '-' :: ['-', '-', '-', '-']

theorem ArmorBody.not_mem {kind body : List Char} {c : Char} (h : ArmorBody kind body)
    (hkind : c ∉ kind) (hlabel : isLabel c = false)
    (hkey : c ∉ ['P', 'R', 'I', 'V', 'A', 'T', 'E', ' ', 'K', 'E', 'Y']) : c ∉ body := by
  obtain ⟨label, hall, rfl⟩ := h
  have hspace : c ∉ [' '] := by
    rintro hmem
    obtain rfl := List.mem_singleton.mp hmem
    revert hlabel
    decide
  have hnot : c ∉ label := by
    intro hmem
    rw [hall c hmem] at hlabel
    cases hlabel
  simp only [List.mem_append, not_or]
  exact ⟨⟨⟨hkind, hspace⟩, hnot⟩, hkey⟩

theorem ArmorBody.no_dash {kind body : List Char} (h : ArmorBody kind body)
    (hkind : '-' ∉ kind) : '-' ∉ body :=
  h.not_mem hkind (by decide) (by decide)

theorem spells_armorLine {kind : List Char} (hkind : '-' ∉ kind) :
    Spells isWord (armorLine kind) (ArmorText kind) := by
  refine ⟨?_, ?_⟩
  · refine ((recognises_lit _).seq ((recognises_star isLabel).seq (recognises_lit _))).of_iff ?_
    intro s
    constructor
    · rintro ⟨_, _, rfl, ⟨label, _, hlabel, rfl, rfl⟩, rfl⟩
      refine ⟨_, ⟨label, hlabel, rfl⟩, ?_⟩
      simp only [List.append_assoc, List.cons_append, List.nil_append]
    · rintro ⟨_, ⟨label, hlabel, rfl⟩, rfl⟩
      refine ⟨_, _, rfl, ⟨label, _, hlabel, rfl, rfl⟩, ?_⟩
      simp only [List.append_assoc, List.cons_append, List.nil_append]
  · rintro _ _ t ⟨body, hbody, rfl⟩ ⟨body', hbody', rfl⟩ hstart hstart'
    rw [delimited_unique (hbody.no_dash hkind) (hbody'.no_dash hkind) hstart hstart']

theorem plain_armorLine {kind : List Char} (hkind : '[' ∉ kind) :
    Plain redactionMark firstOfMark (ArmorText kind) := by
  refine ⟨?_, ?_⟩
  · rintro _ ⟨body, hbody, rfl⟩ hmem
    rcases List.mem_append.mp hmem with hmem | hmem
    · rcases List.mem_append.mp hmem with hmem | hmem
      · revert hmem
        decide
      · exact hbody.not_mem hkind (by decide) (by decide) hmem
    · revert hmem
      decide
  · rintro _ ⟨body, _, rfl⟩
    exact ⟨'-', _, rfl, by decide⟩

theorem matchLength_privateKeyBlock {prev : Option Char} {t : List Char} {n : Nat}
    (h : matchLength isWord privateKeyBlock prev t = some n) : ∃ rest, t = '-' :: rest := by
  have hblock := (matchLength_block_iff (spells_armorLine (by decide))
    (spells_armorLine (by decide))).mp h
  obtain ⟨s, _, _, ⟨body, _, rfl⟩, ⟨rest, rfl⟩, _⟩ := hblock
  exact ⟨_, rfl⟩

end Armor

end Evidence
