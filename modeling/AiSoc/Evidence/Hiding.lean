import AiSoc.Evidence.Overlaps

namespace Evidence

open Regex

section Credentials

variable (classes : CharClasses)

def matchTexts (pattern : Pattern) (value : List Char) : List (List Char) :=
  (List.range value.length).filterMap fun k =>
    (marksOf classes.isWord pattern value k).map fun n => (value.drop k).take (n + 1)

def valueText (found : List Char) : List Char :=
  ((found.dropWhile fun c => !isSeparator c).drop 1).dropWhile PyStr.isSpace

def tokenText (found : List Char) : List Char :=
  (found.drop 6).dropWhile PyStr.isSpace

def credentials (value : List Char) : List (List Char) :=
  matchTexts classes accessKeyId value ++
    (matchTexts classes keyedSecret value).map valueText ++
    (matchTexts classes bearerToken value).map tokenText ++
    matchTexts classes privateKeyBlock value

def OutsideAll (value : List Char) (k : Nat) : Prop :=
  ∀ pattern ∈ secretPatterns, (marksOf classes.isWord pattern value).Outside k

def OccursOutside (secret value : List Char) : Prop :=
  ∃ i, secret <+: value.drop i ∧ ∀ j < secret.length, OutsideAll classes value (i + j)

def Hides (value : String) : Prop :=
  ∀ secret ∈ credentials classes value.toList,
    secret <:+: (redactSecrets classes value).1.toList → OccursOutside classes secret value.toList

def Uncovered (value : List Char) (k : Nat) : Prop :=
  (tokenMarks classes value).Outside k ∧
    (ArmorClear classes value → (marksOf classes.isWord privateKeyBlock value).Outside k)

def Exposed (secret value : List Char) : Prop :=
  Touches redactionMark secret ∨
    ∃ i, secret <+: value.drop i ∧ ∀ j < secret.length, Uncovered classes value (i + j)

end Credentials

section Exposure

variable {classes : CharClasses} {value secret : List Char}

theorem exposed_of_left (h : secret <:+: redactWith classes secretPatterns value) :
    Exposed classes secret value := by
  by_cases htouches : Touches redactionMark secret
  · exact .inl htouches
  · refine .inr ?_
    by_cases hclear : ArmorClear classes value
    · rw [block_pass hclear] at h
      obtain ⟨i, hstart, hout⟩ := outside_of_infix (laminar_secretMarks hclear) htouches h
      refine ⟨i, hstart, fun j hj => ?_⟩
      obtain ⟨htokens, hblocks⟩ := (hout j hj).of_union (follows_privateKeyBlock hclear).nested
      exact ⟨htokens, fun _ => hblocks⟩
    · have hlast : secret <:+: sub classes.isWord privateKeyBlock redactionMark
          (blank redactionMark 0 (tokenMarks classes value) value) := by
        rw [← bearer_pass]
        exact h
      rw [sub_eq_blank] at hlast
      obtain ⟨k, hkept, _⟩ := outside_of_infix (unnested_marksOf _ _ _).laminar htouches hlast
      obtain ⟨i, hstart, hout⟩ := outside_of_infix (laminar_tokenMarks classes value) htouches
        (hkept.isInfix.trans (List.drop_suffix k _).isInfix)
      exact ⟨i, hstart, fun j hj => ⟨hout j hj, fun h => absurd h hclear⟩⟩

theorem left_of_exposed (hclear : ArmorClear classes value)
    (htouches : ¬ Touches redactionMark secret) (h : Exposed classes secret value) :
    secret <:+: redactWith classes secretPatterns value := by
  obtain ⟨i, hstart, hout⟩ := h.resolve_left htouches
  rw [block_pass hclear]
  exact infix_blank_of_outside hstart fun j hj => (hout j hj).1.union ((hout j hj).2 hclear)

theorem occursOutside_of_uncut (hclear : ArmorClear classes value)
    (huncut : bearerMarks classes value = marksOf classes.isWord bearerToken value)
    (htouches : ¬ Touches redactionMark secret) (h : Exposed classes secret value) :
    OccursOutside classes secret value := by
  obtain ⟨i, hstart, hout⟩ := h.resolve_left htouches
  refine ⟨i, hstart, fun j hj => ?_⟩
  obtain ⟨htokens, hblocks⟩ := hout j hj
  obtain ⟨hkeys, hbearer⟩ := htokens.of_union (nested_marksLeft (laminar_keyMarks classes value))
  obtain ⟨haccess, hkeyed⟩ := hkeys.of_union (nested_accessKey classes value)
  have hbearer' : (bearerMarks classes value).Outside (i + j) := hbearer
  rw [huncut] at hbearer'
  simp only [OutsideAll, secretPatterns, List.forall_mem_cons]
  exact ⟨haccess, hkeyed, hbearer', hblocks hclear, nofun⟩

end Exposure

section Flag

variable {classes : CharClasses}

variable (classes) in
theorem no_match_at_mark : ∀ pattern ∈ secretPatterns,
    ∀ prev t, ¬ Starts classes.isWord pattern prev (firstOfMark :: t) := by
  simp only [secretPatterns, List.forall_mem_cons]
  refine ⟨?_, ?_, ?_, ?_, nofun⟩
  · rintro prev t ⟨n, hn⟩
    obtain ⟨⟨s, ⟨⟨_, _, rest, rfl⟩, _⟩, hstart, _⟩, _⟩ := matchLength_accessKeyId hn
    obtain ⟨hmark, _⟩ := List.cons_prefix_cons.mp hstart
    revert hmark
    decide
  · rintro prev t ⟨n, hn⟩
    obtain ⟨items, hitems, hrun⟩ := matchLength_keyedSecret hn
    obtain ⟨letter, hletter, rest, rfl⟩ := starts_with_initial items hitems
    obtain ⟨d, t', _, ht, hc, _, _⟩ := of_run_one hrun
    obtain ⟨rfl, rfl⟩ := List.cons.inj ht
    have htoken := initial_isToken hletter hc
    revert htoken
    decide
  · rintro prev t ⟨n, hn⟩
    obtain ⟨d, t', _, ht, hc, _, _⟩ := of_run_one (matchLength_bearerToken hn)
    obtain ⟨rfl, rfl⟩ := List.cons.inj ht
    revert hc
    decide
  · rintro prev t ⟨n, hn⟩
    obtain ⟨rest, hrest⟩ := matchLength_privateKeyBlock hn
    obtain ⟨hmark, _⟩ := List.cons.inj hrest
    revert hmark
    decide

theorem redactWith_altered {patterns : List Pattern} (hpatterns : patterns ⊆ secretPatterns)
    {value out : List Char} (h : Altered firstOfMark value out) :
    Altered firstOfMark value (redactWith classes patterns out) := by
  induction patterns generalizing out with
  | nil => exact h
  | cons pattern patterns ih =>
      have hhere := hpatterns List.mem_cons_self
      exact ih (fun p hp => hpatterns (List.mem_cons_of_mem _ hp))
        (h.sub rfl (no_match_at_mark classes pattern hhere))

theorem redactWith_ne_iff {patterns : List Pattern} (hpatterns : patterns ⊆ secretPatterns)
    (value : List Char) : redactWith classes patterns value ≠ value ↔
      ∃ pattern ∈ patterns, ∃ k n, marksOf classes.isWord pattern value k = some n := by
  induction patterns with
  | nil =>
      refine iff_of_false (fun h => h rfl) ?_
      rintro ⟨_, hmem, _⟩
      cases hmem
  | cons pattern patterns ih =>
      have hrest : patterns ⊆ secretPatterns := fun p hp => hpatterns (List.mem_cons_of_mem _ hp)
      by_cases hfound : ∃ k n, marksOf classes.isWord pattern value k = some n
      · have hhere := no_match_at_mark classes pattern
          (hpatterns List.mem_cons_self)
        obtain ⟨k, n, hk⟩ := hfound
        have haltered : Altered firstOfMark value (redactWith classes (pattern :: patterns) value) :=
          redactWith_altered hrest (sub_altered rfl hhere hk)
        exact iff_of_true haltered.ne ⟨pattern, List.mem_cons_self, k, n, hk⟩
      · have hnone : ∀ k, marksOf classes.isWord pattern value k = none := fun k =>
          Option.eq_none_iff_forall_ne_some.mpr fun n hn => hfound ⟨k, n, hn⟩
        have hsame : redactWith classes (pattern :: patterns) value =
            redactWith classes patterns value :=
          congrArg (redactWith classes patterns) (sub_of_no_mark hnone)
        rw [hsame, ih hrest]
        constructor
        · rintro ⟨p, hp, hmarks⟩
          exact ⟨p, List.mem_cons_of_mem _ hp, hmarks⟩
        · rintro ⟨p, hp, hmarks⟩
          rcases List.mem_cons.mp hp with rfl | hp
          · exact absurd hmarks hfound
          · exact ⟨p, hp, hmarks⟩

end Flag

section Claim

def nestedSecrets : List Char :=
  ['a', 'p', 'i', '_', 'k', 'e', 'y', ':', ' ', 'A', 'K', 'I', 'A', '1', '2', '3', '4', '5', '6',
    '7', '8', '9', '0', '1', '2', '3', '4', '5', '6', ' ', 'B', 'e', 'a', 'r', 'e', 'r', ' ', 'b']

theorem uncut_nestedSecrets : bearerMarks asciiClasses nestedSecrets =
    marksOf asciiClasses.isWord bearerToken nestedSecrets := by
  have hbearer : marksWithin asciiClasses.isWord bearerToken 0
      (keyMarks asciiClasses nestedSecrets) none nestedSecrets =
        marks asciiClasses.isWord bearerToken nestedSecrets := by
    decide
  exact congrArg Marks.ofList hbearer

end Claim

section Overlap

def keyedBearer : List Char :=
  ['p', 'a', 's', 's', 'w', 'o', 'r', 'd', ':', ' ', 'B', 'e', 'a', 'r', 'e', 'r', ' ',
    'a', 'b', 'c']

def markerPart : List Char :=
  ['p', 'a', 's', 's', 'w', 'o', 'r', 'd', '=', 'R', 'E', 'D']

end Overlap

end Evidence
