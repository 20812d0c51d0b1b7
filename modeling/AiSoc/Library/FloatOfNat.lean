import AiSoc.Library.PyFloat

namespace PyFloat

def binaryValue (m : Nat) (k : Int) : Rat :=
  mkRat (m * 2 ^ k.toNat : Nat) (2 ^ (-k).toNat)

def floatLimit : Nat :=
  2 ^ 1024

theorem two_pow_lt_floatLimit {k : Nat} (h : k < 1024) : 2 ^ k < floatLimit := by
  unfold floatLimit
  apply Nat.pow_lt_pow_right
  · exact Nat.one_lt_two
  · exact h

-- float(n) of an int that is not negative; none is the OverflowError
def ofNat (n : Nat) : Option Rat :=
  let (m, k) := nearestBinary n 1
  let value := binaryValue m k
  if (floatLimit : Rat) ≤ value then none else some value

theorem roundHalfEven_one (n : Nat) : roundHalfEven n 1 = n := by
  simp [roundHalfEven, Nat.mod_one]

theorem nearestBinary_small {n : Nat} (hpos : n ≠ 0) (h : n < 2 ^ 53) :
    nearestBinary n 1 = (n * 2 ^ (52 - n.log2), (n.log2 : Int) - 52) := by
  have hlog : n.log2 < 53 := (Nat.log2_lt hpos).mpr h
  have hk : (n.log2 : Int) - (1 : Nat).log2 - 52 = (n.log2 : Int) - 52 := by
    have hone : (1 : Nat).log2 = 0 := by decide
    rw [hone]
    omega
  have hle : (n.log2 : Int) - 52 ≤ 0 := by omega
  have hneg : (-((n.log2 : Int) - 52)).toNat = 52 - n.log2 := by omega
  have hnum : scaleNum n ((n.log2 : Int) - 52) = n * 2 ^ (52 - n.log2) := by
    rw [scaleNum, if_pos hle, hneg]
  have hden : scaleDen 1 ((n.log2 : Int) - 52) = 1 := by
    rw [scaleDen, if_neg (by omega)]
  have hlarge : ¬ n * 2 ^ (52 - n.log2) < 2 ^ 52 * 1 := by
    have hself : 2 ^ n.log2 ≤ n := Nat.log2_self_le hpos
    have hsplit : 2 ^ 52 = 2 ^ n.log2 * 2 ^ (52 - n.log2) := by
      rw [← Nat.pow_add]
      congr 1
      omega
    rw [Nat.mul_one, hsplit]
    exact Nat.not_lt.mpr (Nat.mul_le_mul_right _ hself)
  have hrange : ¬ (n.log2 : Int) - 52 < -1074 := by omega
  simp only [nearestBinary, if_neg hpos, hk, hnum, hden, if_neg hlarge, if_neg hrange,
    roundHalfEven_one]

theorem binaryValue_small {n : Nat} (h : n.log2 < 53) :
    binaryValue (n * 2 ^ (52 - n.log2)) ((n.log2 : Int) - 52) = n := by
  have hup : ((n.log2 : Int) - 52).toNat = 0 := by omega
  have hdown : (-((n.log2 : Int) - 52)).toNat = 52 - n.log2 := by omega
  have hne : 2 ^ (52 - n.log2) ≠ 0 := Nat.pos_iff_ne_zero.mp (Nat.two_pow_pos _)
  have hcancel := Rat.mkRat_mul_right (n := n) (d := 1) hne
  rw [Nat.one_mul] at hcancel
  rw [binaryValue, hup, hdown, Nat.pow_zero, Nat.mul_one, Nat.cast_mul, hcancel, Rat.mkRat_one]
  rfl

theorem ofNat_zero : ofNat 0 = some ((0 : Nat) : Rat) := by
  have hlimit : ¬ (floatLimit : Rat) ≤ (0 : Nat) := by
    rw [Nat.cast_le]
    exact Nat.not_le.mpr (Nat.zero_lt_of_lt (two_pow_lt_floatLimit (k := 0) (by decide)))
  have hvalue : binaryValue 0 0 = (0 : Nat) := by
    rw [binaryValue, Nat.zero_mul]
    exact Rat.zero_mkRat _
  simp only [ofNat, nearestBinary, if_pos, hvalue, if_neg hlimit]

theorem ofNat_exact {n : Nat} (h : n < 2 ^ 53) : ofNat n = some (n : Rat) := by
  by_cases hpos : n = 0
  · rw [hpos]
    exact ofNat_zero
  · have hlog : n.log2 < 53 := (Nat.log2_lt hpos).mpr h
    have hlimit : n < floatLimit := Nat.lt_trans h (two_pow_lt_floatLimit (by decide))
    have hsmall : ¬ (floatLimit : Rat) ≤ n := by
      rw [Nat.cast_le]
      exact Nat.not_le.mpr hlimit
    simp only [ofNat, nearestBinary_small hpos h, binaryValue_small hlog, if_neg hsmall]

end PyFloat
