import Mathlib

/-! Numbers as bytes of a fixed width, lowest byte first or highest byte first. Writing keeps the low
bytes of a number that does not fit; reading takes all bytes given. -/

namespace NpsSdk.ByteOrder

open List

/-- The low bytes of a number, lowest first. -/
def putLE : Nat → Nat → List UInt8
  | 0, _ => []
  | width + 1, n => UInt8.ofNat n :: putLE width (n / 256)

def getLE : List UInt8 → Nat
  | [] => 0
  | b :: bs => b.toNat + 256 * getLE bs

/-- The low bytes of a number, highest first. -/
def putBE (width n : Nat) : List UInt8 := (putLE width n).reverse

def getBE (bs : List UInt8) : Nat := getLE bs.reverse

@[simp]
theorem length_putLE (width n : Nat) : (putLE width n).length = width := by
  induction width generalizing n with
  | zero => rfl
  | succ width ih => rw [putLE, length_cons, ih]

/-- What does not fit the width is lost. -/
theorem getLE_putLE (width n : Nat) : getLE (putLE width n) = n % 256 ^ width := by
  induction width generalizing n with
  | zero => rw [putLE, getLE, pow_zero, Nat.mod_one]
  | succ width ih =>
    have hbyte : (UInt8.ofNat n).toNat = n % 256 := UInt8.toNat_ofNat'
    rw [putLE, getLE, ih, hbyte, pow_succ', Nat.mod_mul]

theorem getLE_lt (bs : List UInt8) : getLE bs < 256 ^ bs.length := by
  induction bs with
  | nil => exact Nat.one_pos
  | cons b bs ih =>
    have hbyte : b.toNat < 256 := b.toNat_lt
    rw [getLE, length_cons]
    omega

/-- Bytes are what is written for the number they are read as. -/
theorem putLE_getLE (bs : List UInt8) : putLE bs.length (getLE bs) = bs := by
  induction bs with
  | nil => rfl
  | cons b bs ih =>
    have hbyte : b.toNat < 256 := b.toNat_lt
    have hdiv : (b.toNat + 256 * getLE bs) / 256 = getLE bs := by omega
    have hhead : UInt8.ofNat (b.toNat + 256 * getLE bs) = b := by
      apply UInt8.toNat_inj.mp
      rw [UInt8.toNat_ofNat']
      omega
    rw [length_cons, getLE, putLE, hdiv, ih, hhead]

@[simp]
theorem length_putBE (width n : Nat) : (putBE width n).length = width := by
  rw [putBE, length_reverse, length_putLE]

theorem getBE_putBE (width n : Nat) : getBE (putBE width n) = n % 256 ^ width := by
  rw [getBE, putBE, reverse_reverse, getLE_putLE]

theorem getBE_lt (bs : List UInt8) : getBE bs < 256 ^ bs.length := by
  rw [← length_reverse]
  exact getLE_lt _

theorem putBE_getBE (bs : List UInt8) : putBE bs.length (getBE bs) = bs := by
  rw [putBE, getBE, ← length_reverse, putLE_getLE, reverse_reverse]

end NpsSdk.ByteOrder
