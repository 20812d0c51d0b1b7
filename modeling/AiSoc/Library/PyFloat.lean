import Mathlib.Algebra.Order.Ring.Rat
import Mathlib.Data.Nat.Digits.Lemmas

-- a finite float, given by the shortest decimal that rounds to it: ± digits · 10 ^ exponent
structure PyFloat where
  neg : Bool
  digits : Nat
  exponent : Int
  normal : digits % 10 ≠ 0 ∨ (digits = 0 ∧ exponent = 0)
  deriving DecidableEq, Repr

namespace PyFloat

theorem normal_point_five : 5 % 10 ≠ 0 ∨ (5 = 0 ∧ (-1 : Int) = 0) := .inl (by decide)

theorem normal_point_eight : 8 % 10 ≠ 0 ∨ (8 = 0 ∧ (-1 : Int) = 0) := .inl (by decide)

theorem normal_point_nine : 9 % 10 ≠ 0 ∨ (9 = 0 ∧ (-1 : Int) = 0) := .inl (by decide)

def pow10 (m : Nat) : Int → Rat
  | .ofNat k => (m * 10 ^ k : Nat)
  | .negSucc k => mkRat m (10 ^ (k + 1))

def magnitude (x : PyFloat) : Rat :=
  pow10 x.digits x.exponent

def toRat (x : PyFloat) : Rat :=
  if x.neg then -x.magnitude else x.magnitude

-- min() keeps its first argument unless the second is smaller
def min (x y : PyFloat) : PyFloat :=
  if y.toRat < x.toRat then y else x

theorem min_le_right (x y : PyFloat) : (min x y).toRat ≤ y.toRat := by
  simp only [min]
  split
  · exact le_refl _
  · exact not_lt.mp ‹_›

theorem min_cases (x y : PyFloat) : min x y = x ∨ min x y = y := by
  simp only [min]
  split
  · exact .inr rfl
  · exact .inl rfl

section Format

def roundHalfEven (n d : Nat) : Nat :=
  let q := n / d
  let r := n % d
  if 2 * r < d ∨ (2 * r = d ∧ q % 2 = 0) then q else q + 1

-- n / d · 2 ^ (-k)
def scaleNum (n : Nat) (k : Int) : Nat := if k ≤ 0 then n * 2 ^ (-k).toNat else n
def scaleDen (d : Nat) (k : Int) : Nat := if 0 < k then d * 2 ^ k.toNat else d

-- the binary64 significand and exponent nearest to n / d
def nearestBinary (n d : Nat) : Nat × Int :=
  if n = 0 then (0, 0)
  else
    let k : Int := (n.log2 : Int) - d.log2 - 52
    let k := if scaleNum n k < 2 ^ 52 * scaleDen d k then k - 1 else k
    let k := if k < -1074 then -1074 else k
    (roundHalfEven (scaleNum n k) (scaleDen d k), k)

-- f"{x:.2f}", which rounds the exact binary value
def fixed2 (x : PyFloat) : String :=
  let (m, k) := nearestBinary x.magnitude.num.natAbs x.magnitude.den
  let cents := roundHalfEven (100 * m * 2 ^ k.toNat) (2 ^ (-k).toNat)
  let frac := cents % 100
  (if x.neg then "-" else "") ++ toString (cents / 100) ++ "." ++
    (if frac < 10 then "0" else "") ++ toString frac

end Format

end PyFloat
