import AiSoc.Library.Decimal

namespace PyJson

open PyStr (hexDigit)

section Strings

def hexDigitValue (c : Char) : Nat :=
  if c.toNat < 58 then c.toNat - 48 else c.toNat - 87

def hex4Value (a b c d : Char) : Nat :=
  hexDigitValue a * 4096 + hexDigitValue b * 256 + hexDigitValue c * 16 + hexDigitValue d

def isHighSurrogate (n : Nat) : Bool :=
  55296 ≤ n && n < 56320

def unescapeChar : List Char → Option (Char × List Char)
  | [] => none
  | '\\' :: 'u' :: a :: b :: c :: d :: rest =>
      let high := hex4Value a b c d
      if isHighSurrogate high then
        match rest with
        | '\\' :: 'u' :: a :: b :: c :: d :: rest =>
            some (Char.ofNat (65536 + (high - 55296) * 1024 + (hex4Value a b c d - 56320)), rest)
        | _ => none
      else some (Char.ofNat high, rest)
  | '\\' :: '"' :: rest => some ('"', rest)
  | '\\' :: '\\' :: rest => some ('\\', rest)
  | '\\' :: 'n' :: rest => some ('\n', rest)
  | '\\' :: 'r' :: rest => some ('\r', rest)
  | '\\' :: 't' :: rest => some ('\t', rest)
  | '\\' :: 'f' :: rest => some (Char.ofNat 12, rest)
  | '\\' :: 'b' :: rest => some (Char.ofNat 8, rest)
  | '\\' :: _ => none
  | c :: rest => some (c, rest)

theorem hexDigitValue_hexDigit {d : Nat} (h : d < 16) : hexDigitValue (hexDigit d) = d := by
  interval_cases d <;> rfl

theorem hex4Value_hex4 {n : Nat} (h : n < 65536) :
    hex4Value (hexDigit (n / 4096 % 16)) (hexDigit (n / 256 % 16)) (hexDigit (n / 16 % 16))
      (hexDigit (n % 16)) = n := by
  simp only [hex4Value, hexDigitValue_hexDigit (Nat.mod_lt _ (by omega : 0 < 16))]
  omega

theorem char_eq_of_toNat {c : Char} {n : Nat} (h : c.toNat = n) : c = Char.ofNat n := by
  rw [← h, Char.ofNat_toNat]

theorem toNat_not_surrogate (c : Char) : c.toNat < 55296 ∨ 57344 ≤ c.toNat ∧ c.toNat < 1114112 := by
  rcases c.valid with h | h
  · exact .inl h
  · exact .inr ⟨h.1, h.2⟩

theorem unescapeChar_unicode {n : Nat} (h : n < 65536) (hsurrogate : isHighSurrogate n = false)
    (rest : List Char) : unescapeChar ('\\' :: 'u' :: hex4 n ++ rest) = some (Char.ofNat n, rest) := by
  simp [hex4, unescapeChar, hex4Value_hex4 h, hsurrogate]

theorem unescapeChar_pair {high low : Nat} (hhigh : isHighSurrogate high = true)
    (hlow : low < 65536) (rest : List Char) :
    unescapeChar ('\\' :: 'u' :: hex4 high ++ '\\' :: 'u' :: hex4 low ++ rest) =
      some (Char.ofNat (65536 + (high - 55296) * 1024 + (low - 56320)), rest) := by
  have hbound : high < 65536 := by
    simp only [isHighSurrogate, Bool.and_eq_true, decide_eq_true_eq] at hhigh
    omega
  simp [hex4, unescapeChar, hex4Value_hex4 hbound, hhigh, hex4Value_hex4 hlow]

theorem unescapeChar_plain {c : Char} (h : c ≠ '\\') (rest : List Char) :
    unescapeChar (c :: rest) = some (c, rest) := by
  rw [unescapeChar.eq_def]
  split <;> simp_all

theorem unescapeChar_escapeChar (c : Char) (rest : List Char) :
    unescapeChar (escapeChar c ++ rest) = some (c, rest) := by
  simp only [escapeChar]
  iterate 7
    split
    · rename_i h
      rw [char_eq_of_toNat h]
      rfl
  split
  · rename_i hslash _ _ _ _ _ _
    refine unescapeChar_plain ?_ rest
    rintro rfl
    exact hslash rfl
  have hvalid := toNat_not_surrogate c
  split
  · rename_i hbound
    have hsurrogate : isHighSurrogate c.toNat = false := by
      simp only [isHighSurrogate, Bool.and_eq_false_iff, decide_eq_false_iff_not]
      omega
    rw [unescapeChar_unicode hbound hsurrogate, Char.ofNat_toNat]
  · have hhigh : isHighSurrogate (55296 + (c.toNat - 65536) / 1024) = true := by
      simp only [isHighSurrogate, Bool.and_eq_true, decide_eq_true_eq]
      omega
    have hvalue : 65536 + (55296 + (c.toNat - 65536) / 1024 - 55296) * 1024 +
        (56320 + (c.toNat - 65536) % 1024 - 56320) = c.toNat := by
      omega
    rw [unescapeChar_pair hhigh (by omega), hvalue, Char.ofNat_toNat]

theorem escapeChar_inj {c d : Char} {rest rest' : List Char}
    (h : escapeChar c ++ rest = escapeChar d ++ rest') : c = d ∧ rest = rest' := by
  have hread := congrArg unescapeChar h
  rw [unescapeChar_escapeChar, unescapeChar_escapeChar] at hread
  exact Prod.mk.inj (Option.some.inj hread)

theorem escapeChar_cases (c : Char) :
    (escapeChar c = [c] ∧ c ≠ '"' ∧ c ≠ '\\') ∨ ∃ d tail, escapeChar c = '\\' :: d :: tail := by
  simp only [escapeChar]
  iterate 7
    split
    · exact .inr ⟨_, _, rfl⟩
  split
  · rename_i hslash hquote _ _ _ _ _
    left
    refine ⟨rfl, ?_, ?_⟩
    · rintro rfl
      simp_all
    · rintro rfl
      simp_all
  split
  · exact .inr ⟨_, _, rfl⟩
  · exact .inr ⟨_, _, rfl⟩

theorem escapeChar_head (c : Char) (rest rest' : List Char) :
    escapeChar c ++ rest ≠ '"' :: rest' := by
  rcases escapeChar_cases c with ⟨h, hquote, _⟩ | ⟨d, tail, h⟩
  · rw [h]
    intro heq
    exact hquote (List.cons.inj heq).1
  · rw [h]
    intro heq
    exact absurd (List.cons.inj heq).1 (by decide)

theorem escape_inj {cs ds rest rest' : List Char}
    (h : escape cs ++ '"' :: rest = escape ds ++ '"' :: rest') : cs = ds ∧ rest = rest' := by
  induction cs generalizing ds with
  | nil =>
      cases ds with
      | nil => exact ⟨rfl, (List.cons.inj h).2⟩
      | cons d ds =>
          simp only [escape, List.flatMap_nil, List.nil_append, List.flatMap_cons,
            List.append_assoc] at h
          exact absurd h.symm (escapeChar_head d _ _)
  | cons c cs ih =>
      cases ds with
      | nil =>
          simp only [escape, List.flatMap_nil, List.nil_append, List.flatMap_cons,
            List.append_assoc] at h
          exact absurd h (escapeChar_head c _ _)
      | cons d ds =>
          simp only [escape, List.flatMap_cons, List.append_assoc] at h
          obtain ⟨hchar, htail⟩ := escapeChar_inj h
          have hnext : escape cs ++ '"' :: rest = escape ds ++ '"' :: rest' := htail
          obtain ⟨hcs, hrest⟩ := ih hnext
          exact ⟨by rw [hchar, hcs], hrest⟩

theorem strText_inj {s t : String} {rest rest' : List Char}
    (h : strText s ++ rest = strText t ++ rest') : s = t ∧ rest = rest' := by
  simp only [strText, List.cons_append, List.append_assoc, List.cons.injEq, true_and] at h
  obtain ⟨hlist, hrest⟩ := escape_inj h
  exact ⟨String.toList_inj.mp hlist, hrest⟩

end Strings

section Scalars

def isNumeric (c : Char) : Prop :=
  isDecimal c ∨ c ∈ ['-', '+', '.', 'e']

def isScalarChar (c : Char) : Prop :=
  isNumeric c ∨ c ∈ ['n', 'u', 'l', 't', 'r', 'f', 'a', 's', 'I', 'i', 'y', 'N']

instance (c : Char) : Decidable (isNumeric c) :=
  inferInstanceAs (Decidable (_ ∨ _))

instance (c : Char) : Decidable (isScalarChar c) :=
  inferInstanceAs (Decidable (_ ∨ _))

theorem intText_numeric (n : Int) : ∀ c ∈ intText n, isNumeric c := by
  intro c hc
  cases n with
  | ofNat k => exact .inl (natText_digits k c hc)
  | negSucc k =>
      rcases List.mem_cons.mp hc with rfl | hc
      · exact .inr (by decide)
      · exact .inl (natText_digits _ c hc)

theorem exponentText_numeric (e : Int) : ∀ c ∈ exponentText e, isNumeric c := by
  intro c hc
  simp only [exponentText] at hc
  rcases List.mem_cons.mp hc with rfl | hc
  · split
    · exact .inr (by decide)
    · exact .inr (by decide)
  · split at hc
    · rcases List.mem_cons.mp hc with rfl | hc
      · exact .inl (by decide)
      · exact .inl (natText_digits _ c hc)
    · exact .inl (natText_digits _ c hc)

theorem mantissa_numeric (x : PyFloat) : ∀ c ∈ mantissa x, isNumeric c := by
  intro c hc
  rcases List.mem_append.mp hc with hc | hc
  · exact .inl (natText_digits _ c (List.mem_of_mem_take hc))
  · split at hc
    · cases hc
    · rcases List.mem_cons.mp hc with rfl | hc
      · exact .inr (by decide)
      · exact .inl (natText_digits _ c (List.mem_of_mem_drop hc))

theorem unsignedText_numeric (x : PyFloat) : ∀ c ∈ unsignedText x, isNumeric c := by
  intro c hc
  rcases positional_or_scientific x with ⟨whole, fraction, k, h, hwhole, hfraction, _, _⟩ | h
  · rw [h] at hc
    rcases List.mem_append.mp hc with hc | hc
    · exact .inl (hwhole c hc)
    · rcases List.mem_cons.mp hc with rfl | hc
      · exact .inr (by decide)
      · exact .inl (hfraction c hc)
  · have htext : unsignedText x = mantissa x ++
        'e' :: exponentText ((natText x.digits).length + x.exponent - 1) := h.2
    rw [htext] at hc
    rcases List.mem_append.mp hc with hc | hc
    · exact mantissa_numeric x c hc
    · rcases List.mem_cons.mp hc with rfl | hc
      · exact .inr (by decide)
      · exact exponentText_numeric _ c hc

theorem floatText_numeric (x : PyFloat) : ∀ c ∈ floatText x, isNumeric c := by
  intro c hc
  have hsigned : floatText x = if x.neg then '-' :: unsignedText x else unsignedText x := rfl
  rw [hsigned] at hc
  split at hc
  · rcases List.mem_cons.mp hc with rfl | hc
    · exact .inr (by decide)
    · exact unsignedText_numeric x c hc
  · exact unsignedText_numeric x c hc

theorem floatText_mark (x : PyFloat) : '.' ∈ floatText x ∨ 'e' ∈ floatText x := by
  have hmark : '.' ∈ unsignedText x ∨ 'e' ∈ unsignedText x := by
    rcases positional_or_scientific x with ⟨whole, fraction, k, h, _, _, _, _⟩ | h
    · left
      rw [h]
      simp
    · right
      rw [h.2]
      simp
  have hsigned : floatText x = if x.neg then '-' :: unsignedText x else unsignedText x := rfl
  rw [hsigned]
  split
  · rcases hmark with h | h
    · exact .inl (List.mem_cons_of_mem _ h)
    · exact .inr (List.mem_cons_of_mem _ h)
  · exact hmark

theorem intText_ne_floatText (n : Int) (x : PyFloat) : intText n ≠ floatText x := by
  intro h
  have hint : ∀ c ∈ intText n, isDecimal c ∨ c = '-' := by
    intro c hc
    cases n with
    | ofNat k => exact .inl (natText_digits k c hc)
    | negSucc k =>
        rcases List.mem_cons.mp hc with rfl | hc
        · exact .inr rfl
        · exact .inl (natText_digits _ c hc)
  rcases floatText_mark x with hmem | hmem
  · exact absurd (hint '.' (h ▸ hmem)) (by decide)
  · exact absurd (hint 'e' (h ▸ hmem)) (by decide)

def isNumber : Json → Prop
  | .int _ | .float _ => True
  | _ => False

def isScalar : Json → Prop
  | .str _ | .arr _ | .obj _ => False
  | _ => True

theorem number_numeric {value : Json} (h : isNumber value) : ∀ c ∈ text value, isNumeric c := by
  cases value with
  | int n => exact intText_numeric n
  | float x => exact floatText_numeric x
  | _ => exact h.elim

theorem number_inj {value value' : Json} (h : isNumber value) (h' : isNumber value')
    (heq : text value = text value') : value = value' := by
  cases value with
  | int n =>
      cases value' with
      | int m => rw [intText_injective heq]
      | float y => exact absurd heq (intText_ne_floatText n y)
      | _ => exact h'.elim
  | float x =>
      cases value' with
      | int m => exact absurd heq.symm (intText_ne_floatText m x)
      | float y => rw [floatText_injective heq]
      | _ => exact h'.elim
  | _ => exact h.elim

theorem constant_letter {value : Json} (h : isScalar value) (hn : ¬ isNumber value) :
    ∃ c ∈ text value, ¬ isNumeric c := by
  cases value with
  | null => exact ⟨'n', by decide, by decide⟩
  | bool b =>
      cases b with
      | false => exact ⟨'f', by decide, by decide⟩
      | true => exact ⟨'t', by decide, by decide⟩
  | infinity neg =>
      cases neg with
      | false => exact ⟨'I', by decide, by decide⟩
      | true => exact ⟨'I', by decide, by decide⟩
  | nan => exact ⟨'N', by decide, by decide⟩
  | int n => exact (hn trivial).elim
  | float x => exact (hn trivial).elim
  | _ => exact h.elim

def constants : List Json :=
  [.null, .bool true, .bool false, .infinity true, .infinity false, .nan]

theorem mem_constants {value : Json} (h : isScalar value) (hn : ¬ isNumber value) :
    value ∈ constants := by
  cases value with
  | bool b => cases b <;> simp [constants]
  | infinity neg => cases neg <;> simp [constants]
  | null => simp [constants]
  | nan => simp [constants]
  | int n => exact (hn trivial).elim
  | float x => exact (hn trivial).elim
  | _ => exact h.elim

theorem constants_inj : ∀ value ∈ constants, ∀ value' ∈ constants,
    text value = text value' → value = value' := by
  simp [constants, text]

theorem scalar_inj {value value' : Json} (h : isScalar value) (h' : isScalar value')
    (heq : text value = text value') : value = value' := by
  by_cases hn : isNumber value
  · by_cases hn' : isNumber value'
    · exact number_inj hn hn' heq
    · obtain ⟨c, hc, hletter⟩ := constant_letter h' hn'
      exact absurd (number_numeric hn c (heq ▸ hc)) hletter
  · by_cases hn' : isNumber value'
    · obtain ⟨c, hc, hletter⟩ := constant_letter h hn
      exact absurd (number_numeric hn' c (heq ▸ hc)) hletter
    · exact constants_inj value (mem_constants h hn) value' (mem_constants h' hn') heq

theorem scalar_chars {value : Json} (h : isScalar value) : ∀ c ∈ text value, isScalarChar c := by
  by_cases hn : isNumber value
  · intro c hc
    exact .inl (number_numeric hn c hc)
  · have hall : ∀ constant ∈ constants, ∀ c ∈ text constant, isScalarChar c := by
      simp only [constants, List.forall_mem_cons, List.not_mem_nil, false_implies, implies_true,
        and_true, text]
      decide
    exact hall value (mem_constants h hn)

end Scalars

section Values

theorem Json.induction {motive : Json → Prop} (null : motive .null)
    (bool : ∀ b, motive (.bool b)) (int : ∀ n, motive (.int n)) (float : ∀ x, motive (.float x))
    (infinity : ∀ neg, motive (.infinity neg)) (nan : motive .nan) (str : ∀ s, motive (.str s))
    (arr : ∀ items, (∀ item ∈ items, motive item) → motive (.arr items))
    (obj : ∀ fields : Obj, (∀ p ∈ fields, motive p.2) → motive (.obj fields)) (value : Json) :
    motive value := by
  refine @Json.rec motive (fun items => ∀ item ∈ items, motive item)
    (fun fields => ∀ p ∈ fields, motive p.2) (fun p => motive p.2)
    null bool int float infinity nan str arr obj ?_ ?_ ?_ ?_ ?_ value
  · intro item hitem
    cases hitem
  · intro item items hitem hitems other hother
    rcases List.mem_cons.mp hother with rfl | hother
    · exact hitem
    · exact hitems other hother
  · intro p hp
    cases hp
  · intro p fields hp hfields other hother
    rcases List.mem_cons.mp hother with rfl | hother
    · exact hp
    · exact hfields other hother
  · intro key value hvalue
    exact hvalue

def opening (c : Char) : Nat :=
  if c = '"' then 1 else if c = '[' then 2 else if c = '\x7b' then 3 else 0

def sort : Json → Nat
  | .str _ => 1
  | .arr _ => 2
  | .obj _ => 3
  | _ => 0

theorem scalar_of_sort {value : Json} (h : sort value = 0) : isScalar value := by
  cases value <;> simp_all [sort, isScalar]

theorem text_ne_nil (value : Json) : text value ≠ [] := by
  cases value with
  | bool b => cases b <;> simp [text]
  | infinity neg => cases neg <;> simp [text]
  | int n =>
      cases n with
      | ofNat k => exact natText_ne_nil k
      | negSucc k => simp [text, intText]
  | float x =>
      rcases floatText_mark x with hmem | hmem
      · exact List.ne_nil_of_mem hmem
      · exact List.ne_nil_of_mem hmem
  | _ => simp [text, strText]

theorem text_opening (value : Json) : ∃ c cs, text value = c :: cs ∧ opening c = sort value := by
  by_cases hsort : sort value = 0
  · obtain ⟨c, cs, htext⟩ := List.exists_cons_of_ne_nil (text_ne_nil value)
    have hscalar := scalar_chars (scalar_of_sort hsort) c (htext ▸ List.mem_cons_self)
    refine ⟨c, cs, htext, ?_⟩
    rw [hsort]
    have hquote : c ≠ '"' := by
      rintro rfl
      exact absurd hscalar (by decide)
    have hbracket : c ≠ '[' := by
      rintro rfl
      exact absurd hscalar (by decide)
    have hbrace : c ≠ '\x7b' := by
      rintro rfl
      exact absurd hscalar (by decide)
    simp [opening, hquote, hbracket, hbrace]
  · cases value with
    | str s => exact ⟨'"', _, rfl, rfl⟩
    | arr items => exact ⟨'[', _, rfl, rfl⟩
    | obj fields => exact ⟨'\x7b', _, rfl, rfl⟩
    | _ => exact (hsort rfl).elim

theorem sort_eq {value value' : Json} {rest rest' : List Char}
    (h : text value ++ rest = text value' ++ rest') : sort value = sort value' := by
  obtain ⟨c, cs, htext, hsort⟩ := text_opening value
  obtain ⟨c', cs', htext', hsort'⟩ := text_opening value'
  rw [htext, htext'] at h
  have hc : c = c' := (List.cons.inj h).1
  rw [← hsort, ← hsort', hc]

theorem text_head {value : Json} {c : Char} {rest cs : List Char}
    (h : text value ++ rest = c :: cs) : c ≠ ']' := by
  obtain ⟨c', cs', htext, hsort⟩ := text_opening value
  rw [htext] at h
  obtain rfl : c' = c := (List.cons.inj h).1
  rintro rfl
  have hzero : sort value = 0 := hsort.symm
  have hmem := scalar_chars (scalar_of_sort hzero) ']' (htext ▸ List.mem_cons_self)
  exact absurd hmem (by decide)

abbrev Ends (rest : List Char) : Prop :=
  Stops isScalarChar rest

def Reads (value : Json) : Prop :=
  ∀ value' rest rest', Ends rest → Ends rest' → text value ++ rest = text value' ++ rest' →
    value = value' ∧ rest = rest'

theorem ends_cons {c : Char} (h : ¬ isScalarChar c) (rest : List Char) : Ends (c :: rest) := by
  intro a ha
  obtain rfl : c = a := by simpa using ha
  exact h

theorem reads_scalar {value : Json} (h : isScalar value) : Reads value := by
  intro value' rest rest' hrest hrest' heq
  have hsort : sort value = 0 := by
    cases value <;> simp_all [sort, isScalar]
  have h' : isScalar value' := scalar_of_sort ((sort_eq heq).symm.trans hsort)
  obtain ⟨htext, hrests⟩ :=
    append_inj_of_stops (scalar_chars h) (scalar_chars h') hrest hrest' heq
  exact ⟨scalar_inj h h' htext, hrests⟩

theorem reads_str (s : String) : Reads (.str s) := by
  intro value' rest rest' _ _ heq
  have hsort : 1 = sort value' := sort_eq heq
  cases value' with
  | str t =>
      obtain ⟨rfl, hrests⟩ := strText_inj heq
      exact ⟨rfl, hrests⟩
  | _ => simp [sort] at hsort

def itemsRest : List Json → List Char
  | [] => [']']
  | items => ',' :: itemsText items

def fieldsRest : Obj → List Char
  | [] => ['\x7d']
  | fields => ',' :: fieldsText fields

theorem itemsText_cons (item : Json) (items : List Json) :
    itemsText (item :: items) = text item ++ itemsRest items := by
  cases items <;> simp [itemsText, itemsRest]

theorem fieldsText_cons (key : String) (value : Json) (fields : Obj) :
    fieldsText ((key, value) :: fields) =
      strText key ++ ':' :: (text value ++ fieldsRest fields) := by
  cases fields <;> simp [fieldsText, fieldsRest]

theorem ends_itemsRest (items : List Json) (rest : List Char) : Ends (itemsRest items ++ rest) := by
  cases items with
  | nil => exact ends_cons (by decide) _
  | cons item items => exact ends_cons (by decide) _

theorem ends_fieldsRest (fields : Obj) (rest : List Char) : Ends (fieldsRest fields ++ rest) := by
  cases fields with
  | nil => exact ends_cons (by decide) _
  | cons p fields => exact ends_cons (by decide) _

theorem itemsRest_inj {items items' : List Json} {rest rest' : List Char}
    (h : itemsRest items ++ rest = itemsRest items' ++ rest') :
    (items = [] ∧ items' = [] ∧ rest = rest') ∨
      itemsText items ++ rest = itemsText items' ++ rest' := by
  cases items with
  | nil =>
      cases items' with
      | nil => exact .inl ⟨rfl, rfl, (List.cons.inj h).2⟩
      | cons item' items' => exact absurd (List.cons.inj h).1 (by decide)
  | cons item items =>
      cases items' with
      | nil => exact absurd (List.cons.inj h).1 (by decide)
      | cons item' items' => exact .inr (List.cons.inj h).2

theorem fieldsRest_inj {fields fields' : Obj} {rest rest' : List Char}
    (h : fieldsRest fields ++ rest = fieldsRest fields' ++ rest') :
    (fields = [] ∧ fields' = [] ∧ rest = rest') ∨
      fieldsText fields ++ rest = fieldsText fields' ++ rest' := by
  cases fields with
  | nil =>
      cases fields' with
      | nil => exact .inl ⟨rfl, rfl, (List.cons.inj h).2⟩
      | cons p' fields' => exact absurd (List.cons.inj h).1 (by decide)
  | cons p fields =>
      cases fields' with
      | nil => exact absurd (List.cons.inj h).1 (by decide)
      | cons p' fields' => exact .inr (List.cons.inj h).2

theorem itemsText_inj {items : List Json} (hitems : ∀ item ∈ items, Reads item)
    {items' : List Json} {rest rest' : List Char}
    (h : itemsText items ++ rest = itemsText items' ++ rest') : items = items' ∧ rest = rest' := by
  induction items generalizing items' with
  | nil =>
      cases items' with
      | nil => exact ⟨rfl, (List.cons.inj h).2⟩
      | cons item' items' =>
          rw [itemsText_cons, List.append_assoc] at h
          exact absurd rfl (text_head h.symm)
  | cons item items ih =>
      rw [itemsText_cons, List.append_assoc] at h
      cases items' with
      | nil => exact absurd rfl (text_head h)
      | cons item' items' =>
          rw [itemsText_cons, List.append_assoc] at h
          obtain ⟨rfl, htail⟩ := hitems item List.mem_cons_self item' _ _
            (ends_itemsRest items rest) (ends_itemsRest items' rest') h
          rcases itemsRest_inj htail with ⟨rfl, rfl, hrest⟩ | htexts
          · exact ⟨rfl, hrest⟩
          · obtain ⟨rfl, hrest⟩ := ih (fun i hi => hitems i (List.mem_cons_of_mem _ hi)) htexts
            exact ⟨rfl, hrest⟩

theorem fieldsText_inj {fields : Obj} (hfields : ∀ p ∈ fields, Reads p.2) {fields' : Obj}
    {rest rest' : List Char} (h : fieldsText fields ++ rest = fieldsText fields' ++ rest') :
    fields = fields' ∧ rest = rest' := by
  induction fields generalizing fields' with
  | nil =>
      cases fields' with
      | nil => exact ⟨rfl, (List.cons.inj h).2⟩
      | cons p' fields' =>
          obtain ⟨key', value'⟩ := p'
          rw [fieldsText_cons] at h
          exact absurd (List.cons.inj h).1 (by decide)
  | cons p fields ih =>
      obtain ⟨key, value⟩ := p
      rw [fieldsText_cons] at h
      cases fields' with
      | nil => exact absurd (List.cons.inj h).1 (by decide)
      | cons p' fields' =>
          obtain ⟨key', value'⟩ := p'
          rw [fieldsText_cons, List.append_assoc, List.append_assoc] at h
          obtain ⟨rfl, hafter⟩ := strText_inj h
          simp only [List.cons_append, List.cons.injEq, true_and, List.append_assoc] at hafter
          obtain ⟨rfl, htail⟩ := hfields (key, value) List.mem_cons_self value' _ _
            (ends_fieldsRest fields rest) (ends_fieldsRest fields' rest') hafter
          rcases fieldsRest_inj htail with ⟨rfl, rfl, hrest⟩ | htexts
          · exact ⟨rfl, hrest⟩
          · obtain ⟨rfl, hrest⟩ := ih (fun q hq => hfields q (List.mem_cons_of_mem _ hq)) htexts
            exact ⟨rfl, hrest⟩

theorem reads (value : Json) : Reads value := by
  induction value using Json.induction with
  | null => exact reads_scalar trivial
  | bool b => exact reads_scalar trivial
  | int n => exact reads_scalar trivial
  | float x => exact reads_scalar trivial
  | infinity neg => exact reads_scalar trivial
  | nan => exact reads_scalar trivial
  | str s => exact reads_str s
  | arr items ih =>
      intro value' rest rest' _ _ heq
      have hsort : 2 = sort value' := sort_eq heq
      cases value' with
      | arr items' =>
          obtain ⟨rfl, hrests⟩ := itemsText_inj ih (List.cons.inj heq).2
          exact ⟨rfl, hrests⟩
      | _ => simp [sort] at hsort
  | obj fields ih =>
      intro value' rest rest' _ _ heq
      have hsort : 3 = sort value' := sort_eq heq
      cases value' with
      | obj fields' =>
          obtain ⟨rfl, hrests⟩ := fieldsText_inj ih (List.cons.inj heq).2
          exact ⟨rfl, hrests⟩
      | _ => simp [sort] at hsort

theorem text_injective : Function.Injective text := by
  intro value value' h
  have hends : Ends [] := by
    intro a ha
    cases ha
  have happend : text value ++ [] = text value' ++ [] := by
    rw [h]
  exact (reads value value' [] [] hends hends happend).1

instance : DecidableEq Json :=
  fun value value' => decidable_of_iff (text value = text value') text_injective.eq_iff

end Values

end PyJson
