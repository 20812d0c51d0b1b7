import AiSoc.Library.PyFloat
import AiSoc.Library.PyStr
import Mathlib.Data.List.Sort

namespace PyJson

open PyStr (hexDigit)

-- a Python value that json can encode
inductive Json where
  | null
  | bool (b : Bool)
  | int (n : Int)
  | float (x : PyFloat)
  | infinity (neg : Bool)
  | nan
  | str (s : String)
  | arr (items : List Json)
  | obj (fields : List (String × Json))
  deriving Repr

-- a dict, in insertion order
abbrev Obj := List (String × Json)

def Obj.get (fields : Obj) (key : String) : Option Json :=
  fields.lookup key

def Obj.set (key : String) (value : Json) : Obj → Obj
  | [] => [(key, value)]
  | (k, v) :: fields => if k = key then (k, value) :: fields else (k, v) :: Obj.set key value fields

def Obj.ofPairs (pairs : List (String × Json)) : Obj :=
  pairs.foldl (fun fields p => fields.set p.1 p.2) []

def Obj.remove (keys : List String) (fields : Obj) : Obj :=
  fields.filter fun p => !keys.contains p.1

-- bool(value)
def truthy : Json → Bool
  | .null => false
  | .bool b => b
  | .int n => n ≠ 0
  | .float x => x.digits ≠ 0
  | .infinity _ => true
  | .nan => true
  | .str s => s ≠ ""
  | .arr items => !items.isEmpty
  | .obj fields => !fields.isEmpty

section Text

def digitChar (d : Nat) : Char :=
  Char.ofNat (48 + d)

def natText (n : Nat) : List Char :=
  if n = 0 then ['0'] else (Nat.digits 10 n).reverse.map digitChar

def intText : Int → List Char
  | .ofNat n => natText n
  | .negSucc n => '-' :: natText (n + 1)

def zeros (n : Nat) : List Char :=
  List.replicate n '0'

def exponentText (e : Int) : List Char :=
  let ds := natText e.natAbs
  (if e < 0 then '-' else '+') :: (if ds.length < 2 then '0' :: ds else ds)

-- float.__repr__ of a positive value; point is the position of the decimal point
def positiveText (ds : List Char) (point : Int) : List Char :=
  if -4 < point ∧ point ≤ 16 then
    if point ≤ 0 then '0' :: '.' :: (zeros (-point).toNat ++ ds)
    else if point.toNat < ds.length then
      ds.take point.toNat ++ '.' :: ds.drop point.toNat
    else ds ++ zeros (point.toNat - ds.length) ++ ['.', '0']
  else
    ds.take 1 ++ (if ds.length ≤ 1 then [] else '.' :: ds.drop 1) ++ 'e' :: exponentText (point - 1)

def floatText (x : PyFloat) : List Char :=
  let ds := natText x.digits
  let text := if x.digits = 0 then ['0', '.', '0'] else positiveText ds (ds.length + x.exponent)
  if x.neg then '-' :: text else text

def hex4 (n : Nat) : List Char :=
  [hexDigit (n / 4096 % 16), hexDigit (n / 256 % 16), hexDigit (n / 16 % 16), hexDigit (n % 16)]

def escapeChar (c : Char) : List Char :=
  let n := c.toNat
  if n = 34 then ['\\', '"']
  else if n = 92 then ['\\', '\\']
  else if n = 10 then ['\\', 'n']
  else if n = 13 then ['\\', 'r']
  else if n = 9 then ['\\', 't']
  else if n = 12 then ['\\', 'f']
  else if n = 8 then ['\\', 'b']
  else if 32 ≤ n ∧ n ≤ 126 then [c]
  else if n < 65536 then '\\' :: 'u' :: hex4 n
  else
    let m := n - 65536
    '\\' :: 'u' :: hex4 (55296 + m / 1024) ++ '\\' :: 'u' :: hex4 (56320 + m % 1024)

def escape (cs : List Char) : List Char :=
  cs.flatMap escapeChar

def strText (s : String) : List Char :=
  '"' :: escape s.toList ++ ['"']

end Text

mutual

-- json.dumps(value, separators=(",", ":"))
def text : Json → List Char
  | .null => ['n', 'u', 'l', 'l']
  | .bool true => ['t', 'r', 'u', 'e']
  | .bool false => ['f', 'a', 'l', 's', 'e']
  | .int n => intText n
  | .float x => floatText x
  | .infinity true => ['-', 'I', 'n', 'f', 'i', 'n', 'i', 't', 'y']
  | .infinity false => ['I', 'n', 'f', 'i', 'n', 'i', 't', 'y']
  | .nan => ['N', 'a', 'N']
  | .str s => strText s
  | .arr items => '[' :: itemsText items
  | .obj fields => '{' :: fieldsText fields

def itemsText : List Json → List Char
  | [] => [']']
  | [item] => text item ++ [']']
  | item :: items => text item ++ ',' :: itemsText items

def fieldsText : List (String × Json) → List Char
  | [] => ['}']
  | [(key, value)] => strText key ++ ':' :: text value ++ ['}']
  | (key, value) :: fields => strText key ++ ':' :: text value ++ ',' :: fieldsText fields

end

def dumps (value : Json) : String :=
  String.ofList (text value)

mutual

def sortKeys : Json → Json
  | .arr items => .arr (sortItems items)
  | .obj fields => .obj ((sortFields fields).insertionSort fun p q => p.1 ≤ q.1)
  | value => value

def sortItems : List Json → List Json
  | [] => []
  | item :: items => sortKeys item :: sortItems items

def sortFields : List (String × Json) → List (String × Json)
  | [] => []
  | (key, value) :: fields => (key, sortKeys value) :: sortFields fields

end

section Objects

theorem Obj.get_cons (key k : String) (value : Json) (fields : Obj) :
    Obj.get ((k, value) :: fields) key = if key = k then some value else Obj.get fields key := by
  by_cases h : key = k
  · simp [Obj.get, h]
  · have hbeq : (key == k) = false := by simpa using h
    simp [Obj.get, List.lookup_cons, h, hbeq]

theorem Obj.get_set_self (fields : Obj) (key : String) (value : Json) :
    (fields.set key value).get key = some value := by
  induction fields with
  | nil => simp [Obj.set, Obj.get_cons]
  | cons p fields ih =>
      obtain ⟨k, v⟩ := p
      by_cases h : k = key
      · simp [Obj.set, Obj.get_cons, h]
      · simp [Obj.set, Obj.get_cons, h, Ne.symm h, ih]

theorem Obj.get_set_of_ne (fields : Obj) {key other : String} (value : Json) (h : other ≠ key) :
    (fields.set key value).get other = fields.get other := by
  induction fields with
  | nil => simp [Obj.set, h, Obj.get]
  | cons p fields ih =>
      obtain ⟨k, v⟩ := p
      by_cases hk : k = key
      · simp [Obj.set, Obj.get_cons, hk, h]
      · simp [Obj.set, Obj.get_cons, hk, ih]

theorem Obj.set_of_get_eq_none {fields : Obj} {key : String} (value : Json)
    (h : fields.get key = none) : fields.set key value = fields ++ [(key, value)] := by
  induction fields with
  | nil => rfl
  | cons p fields ih =>
      obtain ⟨k, v⟩ := p
      rw [Obj.get_cons] at h
      split at h
      · cases h
      · rename_i hne
        simp [Obj.set, Ne.symm hne, ih h]

theorem Obj.get_remove {keys : List String} {key : String} (h : key ∉ keys) (fields : Obj) :
    (fields.remove keys).get key = fields.get key := by
  induction fields with
  | nil => rfl
  | cons p fields ih =>
      obtain ⟨k, v⟩ := p
      by_cases hk : k ∈ keys
      · have hne : key ≠ k := fun heq => h (heq ▸ hk)
        have hdrop : Obj.remove keys ((k, v) :: fields) = Obj.remove keys fields := by
          simp [Obj.remove, hk]
        rw [hdrop, ih, Obj.get_cons, if_neg hne]
      · have hkeep : Obj.remove keys ((k, v) :: fields) = (k, v) :: Obj.remove keys fields := by
          simp [Obj.remove, hk]
        rw [hkeep, Obj.get_cons, Obj.get_cons, ih]

theorem Obj.remove_of_get_eq_none {keys : List String} {fields : Obj}
    (h : ∀ key ∈ keys, fields.get key = none) : fields.remove keys = fields := by
  induction fields with
  | nil => rfl
  | cons p fields ih =>
      obtain ⟨k, v⟩ := p
      have hk : k ∉ keys := by
        intro hmem
        have hnone := h k hmem
        simp [Obj.get_cons] at hnone
      have htail : ∀ key ∈ keys, Obj.get fields key = none := by
        intro key hkey
        have hnone := h key hkey
        rw [Obj.get_cons] at hnone
        split at hnone
        · cases hnone
        · exact hnone
      have hkeep : Obj.remove keys ((k, v) :: fields) = (k, v) :: Obj.remove keys fields := by
        simp [Obj.remove, hk]
      rw [hkeep, ih htail]

theorem Obj.get_orderedInsert (p : String × Json) (fields : Obj) (key : String) :
    Obj.get (fields.orderedInsert (fun p q => p.1 ≤ q.1) p) key = Obj.get (p :: fields) key := by
  induction fields with
  | nil => rfl
  | cons q fields ih =>
      rw [List.orderedInsert_cons]
      split
      · rfl
      · rename_i hle
        obtain ⟨k, v⟩ := p
        obtain ⟨l, w⟩ := q
        have hne : k ≠ l := fun heq => hle (heq ▸ String.le_refl k)
        simp only [Obj.get_cons] at ih ⊢
        rw [ih]
        by_cases hl : key = l
        · have hk : key ≠ k := fun heq => hne (heq.symm.trans hl)
          simp [hl, Ne.symm hne]
        · simp [hl]

def sortedFields (fields : Obj) : Obj :=
  (sortFields fields).insertionSort fun p q => p.1 ≤ q.1

theorem sortKeys_obj (fields : Obj) : sortKeys (.obj fields) = .obj (sortedFields fields) := by
  simp [sortKeys, sortedFields]

theorem Obj.get_sortedFields (fields : Obj) (key : String) :
    (sortedFields fields).get key = (fields.get key).map sortKeys := by
  have hsort : ∀ fields : Obj,
      Obj.get (fields.insertionSort fun p q => p.1 ≤ q.1) key = fields.get key := by
    intro fields
    induction fields with
    | nil => rfl
    | cons p fields ih =>
        obtain ⟨k, v⟩ := p
        rw [List.insertionSort_cons, Obj.get_orderedInsert, Obj.get_cons, Obj.get_cons, ih]
  rw [sortedFields, hsort]
  induction fields with
  | nil => rfl
  | cons p fields ih =>
      obtain ⟨k, v⟩ := p
      simp only [sortFields, Obj.get_cons, ih]
      split
      · rfl
      · rfl

end Objects

end PyJson
