import Mathlib.Algebra.Group.Nat.Defs
import Mathlib.Data.List.DropRight
import Mathlib.Data.List.Dedup
import Mathlib.Data.List.Sort

namespace PyStr

def whitespace : List Nat :=
  [0x09, 0x0a, 0x0b, 0x0c, 0x0d, 0x1c, 0x1d, 0x1e, 0x1f, 0x20, 0x85, 0xa0, 0x1680,
    0x2000, 0x2001, 0x2002, 0x2003, 0x2004, 0x2005, 0x2006, 0x2007, 0x2008, 0x2009,
    0x200a, 0x2028, 0x2029, 0x202f, 0x205f, 0x3000]

def isSpace (c : Char) : Bool :=
  whitespace.contains c.toNat

def stripIf (p : Char → Bool) (s : String) : String :=
  String.ofList ((s.toList.dropWhile p).rdropWhile p)

def strip (s : String) : String :=
  stripIf isSpace s

def slice (n : Nat) (s : String) : String :=
  String.ofList (s.toList.take n)

-- str.replace(pat, "") for a nonempty pat: the counter skips the rest of an occurrence
def removeFrom (pat : List Char) : Nat → List Char → List Char
  | _, [] => []
  | n + 1, _ :: cs => removeFrom pat n cs
  | 0, c :: cs =>
      if pat.isPrefixOf (c :: cs) then removeFrom pat (pat.length - 1) cs
      else c :: removeFrom pat 0 cs

def removeAll (pat : String) (s : String) : String :=
  String.ofList (removeFrom pat.toList 0 s.toList)

-- code points of the decimal digit zero of every script
def decimalZeros : List Nat :=
  [48, 1632, 1776, 1984, 2406, 2534, 2662, 2790, 2918, 3046, 3174, 3302, 3430, 3558, 3664,
    3792, 3872, 4160, 4240, 6112, 6160, 6470, 6608, 6784, 6800, 6992, 7088, 7232, 7248,
    42528, 43216, 43264, 43472, 43504, 43600, 44016, 65296, 66720, 68912, 69734, 69872,
    69942, 70096, 70384, 70736, 70864, 71248, 71360, 71472, 71904, 72016, 72784, 73040,
    73120, 73552, 92768, 92864, 93008, 120782, 120792, 120802, 120812, 120822, 123200,
    123632, 124144, 125264, 130032]

def decimalValue (c : Char) : Option Nat :=
  (decimalZeros.find? fun z => z ≤ c.toNat && c.toNat < z + 10).map fun z => c.toNat - z

def asciiHexValue (c : Char) : Option Nat :=
  let n := c.toNat
  if 48 ≤ n ∧ n ≤ 57 then some (n - 48)
  else if 97 ≤ n ∧ n ≤ 102 then some (n - 87)
  else if 65 ≤ n ∧ n ≤ 70 then some (n - 55)
  else none

def hexValue (c : Char) : Option Nat :=
  (asciiHexValue c).or (decimalValue c)

-- int() skips ASCII blanks and the wider Unicode ones, but not the separators 0x1c to 0x1f
def isIntSpace (c : Char) : Bool :=
  isSpace c && !(0x1c ≤ c.toNat && c.toNat ≤ 0x1f)

-- single underscores may separate the digits
def hexDigits : Nat → List Char → Option Nat
  | acc, [] => some acc
  | _, ['_'] => none
  | acc, '_' :: c :: cs => (hexValue c).bind fun d => hexDigits (acc * 16 + d) cs
  | acc, c :: cs => (hexValue c).bind fun d => hexDigits (acc * 16 + d) cs

def hexMagnitude : List Char → Option Nat
  | [] => none
  | '_' :: _ => none
  | cs => hexDigits 0 cs

def hexPrefixed : List Char → Option Nat
  | '0' :: 'x' :: '_' :: cs => hexMagnitude cs
  | '0' :: 'X' :: '_' :: cs => hexMagnitude cs
  | '0' :: 'x' :: cs => hexMagnitude cs
  | '0' :: 'X' :: cs => hexMagnitude cs
  | cs => hexMagnitude cs

-- int(s, 16)
def intOfHex (s : String) : Option Int :=
  match (stripIf isIntSpace s).toList with
  | '+' :: cs => (hexPrefixed cs).map Int.ofNat
  | '-' :: cs => (hexPrefixed cs).map fun n => -Int.ofNat n
  | cs => (hexPrefixed cs).map Int.ofNat

-- uuid.UUID(s).int
def uuid (s : String) : Option Nat :=
  let hex := removeAll "-" (stripIf (fun c => c == '{' || c == '}') (removeAll "uuid:" (removeAll "urn:" s)))
  if hex.length = 32 then
    match intOfHex hex with
    | some (.ofNat n) => if n < 2 ^ 128 then some n else none
    | _ => none
  else none

def hexDigit (d : Nat) : Char :=
  if d < 10 then Char.ofNat (48 + d) else Char.ofNat (87 + d)

-- the low digits of n in base 16, most significant first
def hexText : Nat → Nat → List Char
  | 0, _ => []
  | width + 1, n => hexText width (n / 16) ++ [hexDigit (n % 16)]

-- str(uuid.UUID(int=n))
def uuidText (n : Nat) : String :=
  let hex := hexText 32 n
  String.ofList (hex.take 8 ++ '-' :: (hex.drop 8).take 4 ++ '-' :: (hex.drop 12).take 4 ++
    '-' :: (hex.drop 16).take 4 ++ '-' :: hex.drop 20)

theorem length_slice (n : Nat) (s : String) : (slice n s).length = min n s.length := by
  rw [slice, String.length_ofList, List.length_take, String.length_toList]

theorem length_hexText (width n : Nat) : (hexText width n).length = width := by
  induction width generalizing n with
  | zero => rfl
  | succ width ih => rw [hexText, List.length_append, ih, List.length_singleton]

theorem length_uuidText (n : Nat) : (uuidText n).length = 36 := by
  have hhex := length_hexText 32 n
  simp only [uuidText, String.length_ofList, List.length_append, List.length_cons,
    List.length_take, List.length_drop, hhex]
  omega

theorem uuidText_ne_empty (n : Nat) : uuidText n ≠ "" := by
  intro h
  have hlength := length_uuidText n
  rw [h] at hlength
  cases hlength

theorem mem_hexText {width n : Nat} {c : Char} (h : c ∈ hexText width n) :
    ∃ d < 16, c = hexDigit d := by
  induction width generalizing n with
  | zero => cases h
  | succ width ih =>
      rcases List.mem_append.1 h with h | h
      · exact ih h
      · exact ⟨n % 16, Nat.mod_lt n (by decide), List.mem_singleton.1 h⟩

theorem mem_uuidText {n : Nat} {c : Char} (h : c ∈ (uuidText n).toList) :
    c = '-' ∨ ∃ d < 16, c = hexDigit d := by
  simp only [uuidText, String.toList_ofList, List.mem_append, List.mem_cons] at h
  rcases h with (((h | h | h) | h | h) | h | h) | h | h
  · exact .inr (mem_hexText (List.mem_of_mem_take h))
  · exact .inl h
  · exact .inr (mem_hexText (List.mem_of_mem_drop (List.mem_of_mem_take h)))
  · exact .inl h
  · exact .inr (mem_hexText (List.mem_of_mem_drop (List.mem_of_mem_take h)))
  · exact .inl h
  · exact .inr (mem_hexText (List.mem_of_mem_drop (List.mem_of_mem_take h)))
  · exact .inl h
  · exact .inr (mem_hexText (List.mem_of_mem_drop h))

theorem hexDigit_inj {d e : Nat} (hd : d < 16) (he : e < 16) (h : hexDigit d = hexDigit e) :
    d = e := by
  have hall : ∀ d < 16, ∀ e < 16, hexDigit d = hexDigit e → d = e := by decide
  exact hall d hd e he h

theorem hexText_inj {width m n : Nat} (hm : m < 16 ^ width) (hn : n < 16 ^ width)
    (h : hexText width m = hexText width n) : m = n := by
  induction width generalizing m n with
  | zero => omega
  | succ width ih =>
      obtain ⟨hhigh, hlow⟩ := List.append_inj' h rfl
      have hdigit : m % 16 = n % 16 :=
        hexDigit_inj (Nat.mod_lt m (by decide)) (Nat.mod_lt n (by decide)) (List.singleton_inj.mp hlow)
      have hquotient : m / 16 = n / 16 := by
        refine ih ?_ ?_ hhigh
        · rw [Nat.pow_succ] at hm
          omega
        · rw [Nat.pow_succ] at hn
          omega
      omega

theorem hexDigit_ne_dash {d : Nat} (hd : d < 16) : hexDigit d ≠ '-' := by
  have hall : ∀ d < 16, hexDigit d ≠ '-' := by decide
  exact hall d hd

theorem digits_uuidText (n : Nat) :
    (uuidText n).toList.filter (fun c => c ≠ '-') = hexText 32 n := by
  have hall : ∀ cs : List Char, cs ⊆ hexText 32 n → cs.filter (fun c => c ≠ '-') = cs := by
    intro cs hcs
    rw [List.filter_eq_self]
    intro c hc
    obtain ⟨d, hd, rfl⟩ := mem_hexText (hcs hc)
    exact decide_eq_true (hexDigit_ne_dash hd)
  have hdash : ∀ cs : List Char, ('-' :: cs).filter (fun c => c ≠ '-') =
      cs.filter fun c => c ≠ '-' := fun cs => List.filter_cons_of_neg (by decide)
  have hpart : ∀ i k, ((hexText 32 n).drop i).take k ⊆ hexText 32 n := fun i k =>
    List.Subset.trans (List.take_subset _ _) (List.drop_subset _ _)
  have htake := hall _ (List.take_subset 8 (hexText 32 n))
  have hdrop := hall _ (List.drop_subset 20 (hexText 32 n))
  simp only [uuidText, String.toList_ofList, List.filter_append, hdash, htake, hdrop,
    hall _ (hpart 8 4), hall _ (hpart 12 4), hall _ (hpart 16 4), List.append_assoc]
  have hjoin : ∀ i k, ((hexText 32 n).drop i).take k ++ (hexText 32 n).drop (i + k) =
      (hexText 32 n).drop i := by
    intro i k
    rw [← List.drop_drop]
    exact List.take_append_drop k _
  rw [hjoin 16 4, hjoin 12 4, hjoin 8 4]
  exact List.take_append_drop 8 _

theorem uuidText_inj {m n : Nat} (hm : m < 2 ^ 128) (hn : n < 2 ^ 128)
    (h : uuidText m = uuidText n) : m = n := by
  have hm' : m < 16 ^ 32 := by omega
  have hn' : n < 16 ^ 32 := by omega
  refine hexText_inj hm' hn' ?_
  rw [← digits_uuidText, ← digits_uuidText, h]

-- sorted(set(items))
def sortedSet (items : List String) : List String :=
  items.dedup.insertionSort (· ≤ ·)

theorem mem_sortedSet {items : List String} {s : String} : s ∈ sortedSet items ↔ s ∈ items := by
  simp only [sortedSet, List.mem_insertionSort, List.mem_dedup]

theorem head_of_dropWhile {p : Char → Bool} {c : Char} {cs xs : List Char}
    (h : xs.dropWhile p = c :: cs) : p c = false := by
  induction xs with
  | nil => cases h
  | cons x xs ih =>
      rw [List.dropWhile_cons] at h
      split at h
      · exact ih h
      · rename_i hx
        rw [← (List.cons.inj h).1]
        simpa using hx

theorem strip_strip (s : String) : strip (strip s) = strip s := by
  unfold strip stripIf
  rw [String.toList_ofList]
  cases hstripped : (s.toList.dropWhile isSpace).rdropWhile isSpace with
  | nil => rfl
  | cons c cs =>
      obtain ⟨rest, hrest⟩ := List.rdropWhile_prefix isSpace (s.toList.dropWhile isSpace)
      rw [hstripped, List.cons_append] at hrest
      have hc := head_of_dropWhile hrest.symm
      rw [List.dropWhile_cons_of_neg (by simp [hc]), ← hstripped, List.rdropWhile_idempotent]

end PyStr
