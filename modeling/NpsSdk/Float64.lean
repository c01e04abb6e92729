import Mathlib

/-! Floating point numbers of the binary64 and binary32 formats, by their bits: which of them are finite,
the number nearest to an integer, and the integer that is left when the fraction is dropped. Integers
below `2 ^ 53` are numbers of the format and come back as they are. -/

namespace NpsSdk

open Nat

abbrev F32 := UInt32

abbrev F64 := UInt64

def F32.isFinite (x : F32) : Bool := x.toNat / 2 ^ 23 % 2 ^ 8 ≠ 255

namespace F64

variable (x : F64)

def exponent : Nat := x.toNat / 2 ^ 52 % 2 ^ 11

def fraction : Nat := x.toNat % 2 ^ 52

def isNegative : Bool := 2 ^ 63 ≤ x.toNat

def isFinite : Bool := x.exponent ≠ 2047

/-- The whole part of the magnitude. -/
def truncAbs : Nat :=
  if x.exponent < 1023 then 0
  else if x.exponent ≤ 1075 then (2 ^ 52 + x.fraction) / 2 ^ (1075 - x.exponent)
  else (2 ^ 52 + x.fraction) * 2 ^ (x.exponent - 1075)

def trunc : Int := if x.isNegative then -(x.truncAbs : Int) else x.truncAbs

def isZero : Bool := x.exponent = 0 && x.fraction = 0

def isWhole : Bool :=
  if x.exponent < 1023 then x.isZero
  else x.isFinite && (1075 ≤ x.exponent || (2 ^ 52 + x.fraction) % 2 ^ (1075 - x.exponent) = 0)

def isNaN : Bool := x.exponent = 2047 && x.fraction ≠ 0

/-- The numbers in their order, both zeros at the same place. -/
def position : Int := if x.isNegative then -((x.toNat - 2 ^ 63 : Nat) : Int) else x.toNat

def equals (x y : F64) : Bool := !x.isNaN && !y.isNaN && x.position = y.position

/-- No order with NaN. -/
def less (x y : F64) : Bool := !x.isNaN && !y.isNaN && x.position < y.position

def min (x y : F64) : F64 :=
  if x.isNaN then x
  else if y.isNaN then y
  else if x.less y then x
  else if y.less x then y
  else if x.isNegative then x
  else y

/-- The bits of the number nearest to a natural number, the even one of two. The leading bit of the
significand is part of what is added to the exponent. -/
def bitsOfNat (n : Nat) : Nat :=
  let k := log2 n
  if n = 0 then 0
  else if k ≤ 52 then (1022 + k) * 2 ^ 52 + n * 2 ^ (52 - k)
  else
    let q := n / 2 ^ (k - 52)
    let r := n % 2 ^ (k - 52)
    let half := 2 ^ (k - 53)
    (1022 + k) * 2 ^ 52 + if half < r ∨ (r = half ∧ q % 2 = 1) then q + 1 else q

def ofInt (n : Int) : F64 :=
  if n < 0 then UInt64.ofNat (2 ^ 63 + bitsOfNat n.natAbs) else UInt64.ofNat (bitsOfNat n.natAbs)

/-- The significand of a number that needs no rounding. -/
theorem significand_bounds {n k : Nat} (hn : n ≠ 0) (hk : k = log2 n) (hle : k ≤ 52) :
    2 ^ 52 ≤ n * 2 ^ (52 - k) ∧ n * 2 ^ (52 - k) < 2 ^ 53 := by
  have hlow : 2 ^ k ≤ n := hk ▸ log2_self_le hn
  have hhigh : n < 2 ^ (k + 1) := hk ▸ Nat.lt_log2_self
  constructor
  · calc 2 ^ 52 = 2 ^ k * 2 ^ (52 - k) := by rw [← pow_add, Nat.add_sub_cancel' hle]
      _ ≤ n * 2 ^ (52 - k) := Nat.mul_le_mul_right _ hlow
  · calc n * 2 ^ (52 - k) < 2 ^ (k + 1) * 2 ^ (52 - k) :=
          Nat.mul_lt_mul_of_pos_right hhigh (Nat.two_pow_pos _)
      _ = 2 ^ 53 := by rw [← pow_add]; congr 1; omega

variable {n : Nat} {x : F64}

section

variable (hn : n ≠ 0) (h : n < 2 ^ 53)
include hn h

theorem log2_le_of_lt : log2 n ≤ 52 :=
  le_of_lt_succ ((log2_lt hn).mpr h)

theorem bitsOfNat_parts :
    bitsOfNat n < 2 ^ 63 ∧ bitsOfNat n / 2 ^ 52 = 1023 + log2 n ∧
      2 ^ 52 + bitsOfNat n % 2 ^ 52 = n * 2 ^ (52 - log2 n) := by
  have hle := log2_le_of_lt hn h
  obtain ⟨hlow, hhigh⟩ := significand_bounds hn rfl hle
  have hbits : bitsOfNat n = (1022 + log2 n) * 2 ^ 52 + n * 2 ^ (52 - log2 n) := by
    rw [bitsOfNat]
    simp only [hn, hle, if_true, if_false]
  omega

section

variable (hx : x.toNat % 2 ^ 63 = bitsOfNat n)
include hx

theorem exponent_of_bits :
    x.exponent = 1023 + log2 n ∧ 2 ^ 52 + x.fraction = n * 2 ^ (52 - log2 n) := by
  obtain ⟨hlt, hexp, hfrac⟩ := bitsOfNat_parts hn h
  rw [exponent, fraction]
  omega

theorem truncAbs_of_bits : x.truncAbs = n := by
  obtain ⟨hexponent, hfraction⟩ := exponent_of_bits hn h hx
  have hle := log2_le_of_lt hn h
  have hshift : 1075 - (1023 + Nat.log2 n) = 52 - Nat.log2 n := by omega
  rw [truncAbs, hexponent, if_neg (by omega), if_pos (by omega), hfraction, hshift,
    Nat.mul_div_cancel _ (Nat.two_pow_pos _)]

theorem isWhole_of_bits : x.isWhole = true := by
  obtain ⟨hexponent, hfraction⟩ := exponent_of_bits hn h hx
  have hle := log2_le_of_lt hn h
  have hshift : 1075 - (1023 + log2 n) = 52 - log2 n := by omega
  have hfinite : x.isFinite = true := by
    rw [isFinite, decide_eq_true_iff]
    omega
  rw [isWhole, hexponent, if_neg (by omega), hfinite, hfraction, hshift, mul_mod_left]
  simp only [decide_true, Bool.or_true, Bool.and_true]

end

end

theorem bits_ofInt {n : Int} (hne : n.natAbs ≠ 0) (h : n.natAbs < 2 ^ 53) :
    (ofInt n).isNegative = decide (n < 0) ∧ (ofInt n).toNat % 2 ^ 63 = bitsOfNat n.natAbs := by
  obtain ⟨hlt, -, -⟩ := bitsOfNat_parts hne h
  have hof : ∀ m < 2 ^ 64, (UInt64.ofNat m).toNat = m := fun m hm => by
    rw [UInt64.toNat_ofNat', mod_eq_of_lt hm]
  rw [isNegative, ofInt]
  split_ifs with hneg
  · rw [hof _ (by omega), decide_eq_decide]
    omega
  · rw [hof _ (by omega), decide_eq_decide]
    omega

theorem trunc_ofInt {n : Int} (h : n.natAbs < 2 ^ 53) : (ofInt n).trunc = n := by
  by_cases hzero : n = 0
  · subst hzero
    decide
  have hne : n.natAbs ≠ 0 := Int.natAbs_ne_zero.mpr hzero
  obtain ⟨hsign, hbits⟩ := bits_ofInt hne h
  rw [trunc, hsign, truncAbs_of_bits hne h hbits]
  simp only [decide_eq_true_eq]
  omega

theorem isFinite_ofInt {n : Int} (h : n.natAbs < 2 ^ 53) : (ofInt n).isFinite = true := by
  by_cases hzero : n = 0
  · subst hzero
    decide
  have hne : n.natAbs ≠ 0 := Int.natAbs_ne_zero.mpr hzero
  have hle := log2_le_of_lt hne h
  rw [isFinite, decide_eq_true_iff, (exponent_of_bits hne h (bits_ofInt hne h).2).1]
  omega

theorem isWhole_ofInt {n : Int} (h : n.natAbs < 2 ^ 53) : (ofInt n).isWhole = true := by
  by_cases hzero : n = 0
  · subst hzero
    decide
  have hne : n.natAbs ≠ 0 := Int.natAbs_ne_zero.mpr hzero
  exact isWhole_of_bits hne h (bits_ofInt hne h).2

theorem isWhole_of_le_truncAbs (hfinite : x.isFinite = true) (h : 2 ^ 53 ≤ x.truncAbs) : x.isWhole = true := by
  have hfraction : x.fraction < 2 ^ 52 := Nat.mod_lt _ (Nat.two_pow_pos 52)
  have hlarge : 1075 ≤ x.exponent := by
    rw [truncAbs] at h
    split_ifs at h
    · omega
    · have hdiv := div_le_self (2 ^ 52 + x.fraction) (2 ^ (1075 - x.exponent))
      omega
    · omega
  rw [isWhole, if_neg (by omega), hfinite]
  simp only [hlarge, decide_true, Bool.true_or, Bool.and_true]

theorem isWhole_of_isZero (h : x.isZero = true) : x.isWhole = true := by
  have hexponent : x.exponent = 0 := by
    rw [isZero, Bool.and_eq_true, decide_eq_true_iff] at h
    exact h.1
  rw [isWhole, if_pos (by omega), h]

theorem natAbs_trunc (x : F64) : x.trunc.natAbs = x.truncAbs := by
  rw [trunc]
  split_ifs <;> omega

end F64

end NpsSdk
