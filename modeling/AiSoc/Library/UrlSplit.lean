import Mathlib.Data.List.TakeWhile
import Mathlib.Tactic.Common

namespace UrlSplit

section Splitting

structure SplitResult where
  scheme : List Char
  netloc : List Char
  path : List Char
  query : List Char
  fragment : List Char
  deriving DecidableEq, Repr

-- C0 control characters and the space
def isControlOrSpace (c : Char) : Bool :=
  c.toNat ≤ 0x20

def isUnsafe (c : Char) : Bool :=
  c = '\t' || c = '\r' || c = '\n'

def isSchemeChar (c : Char) : Bool :=
  c.isAlphanum || c = '+' || c = '-' || c = '.'

-- s.split(sep, 1), with nothing after it where sep does not occur
def cut (sep : Char) (cs : List Char) : List Char × List Char :=
  (cs.takeWhile (· ≠ sep), (cs.dropWhile (· ≠ sep)).drop 1)

def cleaned (url : String) : List Char :=
  (url.toList.dropWhile isControlOrSpace).filter fun c => !isUnsafe c

def splitScheme (url : List Char) : List Char × List Char :=
  let before := (cut ':' url).1
  if ':' ∈ url ∧ url.head?.any Char.isAlpha ∧ before.all isSchemeChar then
    (before.map Char.toLower, (cut ':' url).2)
  else ([], url)

def isDelimiter (c : Char) : Bool :=
  c = '/' || c = '?' || c = '#'

def splitNetloc (url : List Char) : List Char × List Char :=
  match url with
  | '/' :: '/' :: rest =>
      (rest.takeWhile fun c => !isDelimiter c, rest.dropWhile fun c => !isDelimiter c)
  | _ => ([], url)

-- urllib.parse.urlsplit; refusal is what the checks of a bracketed host and of the Unicode
-- normal form of a host have against it
def urlsplit (refusal : List Char → Option String) (url : String) : Except String SplitResult :=
  let (scheme, rest) := splitScheme (cleaned url)
  let (netloc, rest) := splitNetloc rest
  if ('[' ∈ netloc ∧ ']' ∉ netloc) ∨ (']' ∈ netloc ∧ '[' ∉ netloc) then .error "Invalid IPv6 URL"
  else
    match refusal netloc with
    | some error => .error error
    | none =>
        let (rest, fragment) := cut '#' rest
        let (path, query) := cut '?' rest
        .ok ⟨scheme, netloc, path, query, fragment⟩

end Splitting

section Parts

theorem dropWhile_cases (p : Char → Bool) (cs : List Char) :
    cs.dropWhile p = [] ∨ ∃ c rest, cs.dropWhile p = c :: rest ∧ p c = false := by
  induction cs with
  | nil => exact .inl rfl
  | cons c cs ih =>
      cases hc : p c with
      | true =>
          rw [List.dropWhile_cons_of_pos hc]
          exact ih
      | false =>
          rw [List.dropWhile_cons_of_neg (by rw [hc]; exact Bool.false_ne_true)]
          exact .inr ⟨c, cs, rfl, hc⟩

theorem cut_cases (sep : Char) (cs : List Char) :
    sep ∉ (cut sep cs).1 ∧ ((cs = (cut sep cs).1 ∧ (cut sep cs).2 = []) ∨
      cs = (cut sep cs).1 ++ sep :: (cut sep cs).2) := by
  refine ⟨fun hmem => by simpa using List.mem_takeWhile_imp hmem, ?_⟩
  have happend : (cut sep cs).1 ++ cs.dropWhile (· ≠ sep) = cs := List.takeWhile_append_dropWhile
  rcases dropWhile_cases (· ≠ sep) cs with hrest | ⟨c, rest, hrest, hc⟩
  · rw [hrest, List.append_nil] at happend
    have hafter : (cut sep cs).2 = [] := by rw [cut, hrest, List.drop_nil]
    exact .inl ⟨happend.symm, hafter⟩
  · obtain rfl : c = sep := by simpa using hc
    have hafter : (cut c cs).2 = rest := by rw [cut, hrest, List.drop_one, List.tail_cons]
    rw [hrest] at happend
    rw [hafter]
    exact .inr happend.symm

theorem cut_of_append {sep : Char} {before after : List Char} (h : sep ∉ before) :
    cut sep (before ++ sep :: after) = (before, after) := by
  have hbefore : ∀ c ∈ before, decide (c ≠ sep) = true := by
    intro c hc
    exact decide_eq_true fun heq => h (heq ▸ hc)
  rw [cut, List.takeWhile_append_of_pos hbefore, List.dropWhile_append_of_pos hbefore]
  simp

structure Parts (url : String) (result : SplitResult) (before tail : List Char) : Prop where
  text : cleaned url = before ++ ':' :: '/' :: '/' :: result.netloc ++ result.path ++ tail
  scheme : before.map Char.toLower = result.scheme
  beforeColon : ':' ∉ before
  netloc : ∀ c ∈ result.netloc, isDelimiter c = false
  path : '?' ∉ result.path ∧ '#' ∉ result.path
  rooted : result.path = [] ∨ ∃ rest, result.path = '/' :: rest
  tail : tail = [] ∨ '?' ∈ tail ∨ '#' ∈ tail

theorem splitNetloc_cases {url netloc rest : List Char} (h : splitNetloc url = (netloc, rest))
    (hne : netloc ≠ []) : url = '/' :: '/' :: netloc ++ rest ∧
      (∀ c ∈ netloc, isDelimiter c = false) ∧
      (rest = [] ∨ ∃ c after, rest = c :: after ∧ isDelimiter c = true) := by
  unfold splitNetloc at h
  split at h
  · rename_i after
    obtain ⟨rfl, rfl⟩ := Prod.mk.inj h
    refine ⟨by simp, fun c hc => by simpa using List.mem_takeWhile_imp hc, ?_⟩
    rcases dropWhile_cases (fun c => !isDelimiter c) after with hrest | ⟨c, rest, hrest, hc⟩
    · exact .inl hrest
    · exact .inr ⟨c, rest, hrest, by simpa using hc⟩
  · obtain ⟨rfl, _⟩ := Prod.mk.inj h
    exact absurd rfl hne

theorem splitScheme_cases {url scheme rest : List Char} (h : splitScheme url = (scheme, rest))
    (hne : scheme ≠ []) : ∃ before, url = before ++ ':' :: rest ∧ ':' ∉ before ∧
      before.map Char.toLower = scheme := by
  simp only [splitScheme] at h
  split at h
  · rename_i hscheme
    obtain ⟨rfl, rfl⟩ := Prod.mk.inj h
    obtain ⟨hbefore, ⟨heq, _⟩ | heq⟩ := cut_cases ':' url
    · rw [heq] at hscheme
      exact absurd hscheme.1 hbefore
    · exact ⟨(cut ':' url).1, heq, hbefore, rfl⟩
  · obtain ⟨rfl, _⟩ := Prod.mk.inj h
    exact absurd rfl hne

theorem urlsplit_ok {refusal : List Char → Option String} {url : String} {result : SplitResult}
    (h : urlsplit refusal url = .ok result) : ∃ rest after,
      splitScheme (cleaned url) = (result.scheme, rest) ∧
      splitNetloc rest = (result.netloc, after) ∧
      result.fragment = (cut '#' after).2 ∧
      (result.path, result.query) = cut '?' (cut '#' after).1 := by
  simp only [urlsplit] at h
  split at h
  · cases h
  · split at h
    · cases h
    · cases h
      exact ⟨_, _, rfl, rfl, rfl, rfl⟩

theorem urlsplit_parts {refusal : List Char → Option String} {url : String} {result : SplitResult}
    (h : urlsplit refusal url = .ok result) (hscheme : result.scheme ≠ [])
    (hnetloc : result.netloc ≠ []) : ∃ before tail, Parts url result before tail := by
  obtain ⟨rest, after, hsplit, hhost, _, hpath⟩ := urlsplit_ok h
  obtain ⟨before, htext, hbefore, hlower⟩ := splitScheme_cases hsplit hscheme
  obtain ⟨hrest, hdelimiters, hafter⟩ := splitNetloc_cases hhost hnetloc
  obtain ⟨hhash, hfragment⟩ := cut_cases '#' after
  obtain ⟨hmark, hquery⟩ := cut_cases '?' (cut '#' after).1
  rw [← hpath] at hmark hquery
  have hquery : ∃ query, (cut '#' after).1 = result.path ++ query ∧ (query = [] ∨ '?' ∈ query) := by
    rcases hquery with ⟨heq, _⟩ | heq
    · exact ⟨[], by rw [List.append_nil]; exact heq, .inl rfl⟩
    · exact ⟨'?' :: result.query, heq, .inr List.mem_cons_self⟩
  obtain ⟨query, hbeforeHash, hquery⟩ := hquery
  have htail : ∃ tail, after = result.path ++ tail ∧ (tail = [] ∨ '?' ∈ tail ∨ '#' ∈ tail) := by
    rw [hbeforeHash] at hfragment
    rcases hfragment with ⟨heq, _⟩ | heq
    · exact ⟨query, heq, hquery.imp_right .inl⟩
    · refine ⟨query ++ '#' :: (cut '#' after).2, by rw [← List.append_assoc]; exact heq, ?_⟩
      exact .inr (.inr (List.mem_append_right _ List.mem_cons_self))
  obtain ⟨tail, htailText, htail⟩ := htail
  have hpathHash : '#' ∉ result.path := by
    intro hmem
    rw [hbeforeHash] at hhash
    exact hhash (List.mem_append_left _ hmem)
  refine ⟨before, tail, ?_, hlower, hbefore, hdelimiters, ⟨hmark, hpathHash⟩, ?_, htail⟩
  · rw [htext, hrest, htailText]
    simp
  · cases hroot : result.path with
    | nil => exact .inl rfl
    | cons c path =>
        rw [hroot] at htailText hmark hpathHash
        rcases hafter with hnone | ⟨first, others, heq, hdelimiter⟩
        · rw [hnone] at htailText
          cases htailText
        · have hfirst : first = c := by
            rw [heq] at htailText
            exact (List.cons.inj htailText).1
          have hslash : c = '/' := by
            simp only [isDelimiter, hfirst, Bool.or_eq_true, decide_eq_true_eq] at hdelimiter
            rcases hdelimiter with (hslash | rfl) | rfl
            · exact hslash
            · exact absurd List.mem_cons_self hmark
            · exact absurd List.mem_cons_self hpathHash
          exact .inr ⟨path, by rw [hslash]⟩

end Parts

end UrlSplit
