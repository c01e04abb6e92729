import Mathlib

/-! Go strings as a `range` loop and the JSON encoder read them: the characters of UTF-8 text, and every
byte that is part of no character. -/

namespace NpsSdk

open List UInt8

inductive GoRune where
  | char (c : Char)
  | byte (b : UInt8)
  deriving DecidableEq

abbrev GoString := List GoRune

namespace GoString

instance : LawfulBEq GoString := inferInstance

variable (cs : List Char)

def ofChars : GoString := cs.map .char

def ofString (s : String) : GoString := ofChars s.toList

instance : Coe String GoString := ⟨ofString⟩

def replacement : Char := '\uFFFD'

/-- The replacement character stands for a stray byte. -/
def toChar : GoRune → Char
  | .char c => c
  | .byte _ => replacement

/-- The text that is left once every stray byte is replaced. -/
def toChars (s : GoString) : List Char := s.map toChar

def Valid (s : GoString) : Prop := ∀ r ∈ s, ∀ b, r ≠ .byte b

def bytes (s : GoString) : List UInt8 :=
  s.flatMap fun
    | .char c => String.utf8EncodeChar c
    | .byte b => [b]

@[simp]
theorem toChars_ofChars : toChars (ofChars cs) = cs := by
  rw [toChars, ofChars, map_map]
  exact map_id cs

theorem ofChars_injective {cs cs' : List Char} (h : ofChars cs = ofChars cs') : cs = cs' := by
  rw [← toChars_ofChars cs, h, toChars_ofChars]

theorem valid_ofChars : Valid (ofChars cs) := by
  intro r hr b
  obtain ⟨c, -, rfl⟩ := mem_map.mp hr
  exact GoRune.noConfusion

/-- Replacing the stray bytes changes nothing exactly if there are none. -/
theorem ofChars_toChars_eq_iff (s : GoString) : ofChars (toChars s) = s ↔ Valid s := by
  refine ⟨fun h => h ▸ valid_ofChars _, ?_⟩
  intro hvalid
  induction s with
  | nil => rfl
  | cons r s ih =>
    have htail := ih fun r' hr' => hvalid r' (mem_cons_of_mem _ hr')
    cases r with
    | char c => exact congrArg (GoRune.char c :: ·) htail
    | byte b => exact absurd rfl (hvalid _ mem_cons_self b)

/-! ### Bytes -/

theorem bytes_ofChars : bytes (ofChars cs) = cs.flatMap String.utf8EncodeChar := by
  rw [bytes, ofChars, flatMap_map]

theorem bytes_ofChars_injective {cs cs' : List Char} (h : bytes (ofChars cs) = bytes (ofChars cs')) : cs = cs' := by
  rw [bytes_ofChars, bytes_ofChars] at h
  have hencoded : (String.ofList cs).toByteArray = (String.ofList cs').toByteArray := by
    rw [String.toByteArray_ofList, String.toByteArray_ofList, List.utf8Encode, List.utf8Encode, h]
  exact String.ofList_injective (String.toByteArray_inj.mp hencoded)

/-- The number of bytes of a character whose first byte is given; none starts with the bytes left
out. -/
def runeLength (b : UInt8) : Nat :=
  if b < 0x80 then 1
  else if 0xc2 ≤ b ∧ b < 0xe0 then 2
  else if 0xe0 ≤ b ∧ b < 0xf0 then 3
  else if 0xf0 ≤ b ∧ b < 0xf5 then 4
  else 0

def codePoint : List UInt8 → Nat
  | [a] => a.toNat
  | [a, b] => a.toNat % 32 * 64 + b.toNat % 64
  | [a, b, c] => (a.toNat % 16 * 64 + b.toNat % 64) * 64 + c.toNat % 64
  | [a, b, c, d] => ((a.toNat % 8 * 64 + b.toNat % 64) * 64 + c.toNat % 64) * 64 + d.toNat % 64
  | _ => 0

/-- The character some bytes start with, if they start with one that is encoded as it should be. -/
def firstChar : List UInt8 → Option Char
  | [] => none
  | b :: bs =>
    let part := (b :: bs).take (runeLength b)
    let c := Char.ofNat (codePoint part)
    if String.utf8EncodeChar c = part then some c else none

def ofBytesFrom : Nat → List UInt8 → GoString
  | 0, _ => []
  | _ + 1, [] => []
  | fuel + 1, b :: bs =>
    match firstChar (b :: bs) with
    | some c => .char c :: ofBytesFrom fuel ((b :: bs).drop (String.utf8EncodeChar c).length)
    | none => .byte b :: ofBytesFrom fuel bs

def ofBytes (bs : List UInt8) : GoString := ofBytesFrom bs.length bs

def ofAscii (bs : List UInt8) : GoString := ofChars (bs.map fun b => Char.ofNat b.toNat)

theorem utf8EncodeChar_ascii : ∀ n < 128, String.utf8EncodeChar (Char.ofNat n) = [ofNat n] := by
  decide

theorem bytes_ofAscii {bs : List UInt8} (h : ∀ b ∈ bs, b < 128) : bytes (ofAscii bs) = bs := by
  rw [ofAscii, bytes_ofChars, flatMap_map]
  induction bs with
  | nil => rfl
  | cons b bs ih =>
    have hb : b.toNat < 128 := UInt8.lt_iff_toNat_lt.mp (h b mem_cons_self)
    rw [flatMap_cons, utf8EncodeChar_ascii _ hb, UInt8.ofNat_toNat,
      ih fun b' hb' => h b' (mem_cons_of_mem _ hb'), singleton_append]

/-! ### Text from bytes -/

theorem runeLength_ofNat {n : Nat} (h : n < 256) : runeLength (ofNat n) =
      if n < 0x80 then 1 else if 0xc2 ≤ n ∧ n < 0xe0 then 2 else if 0xe0 ≤ n ∧ n < 0xf0 then 3
      else if 0xf0 ≤ n ∧ n < 0xf5 then 4 else 0 := by
  have hn : (ofNat n).toNat = n := by rw [toNat_ofNat', Nat.mod_eq_of_lt h]
  simp only [runeLength, lt_iff_toNat_lt, le_iff_toNat_le, hn]
  rfl

/-- The first byte of an encoded character tells its length, and the bytes its code point. -/
theorem utf8EncodeChar_spec (c : Char) : ∃ b bs, String.utf8EncodeChar c = b :: bs ∧ runeLength b = (b :: bs).length ∧
      codePoint (b :: bs) = c.toNat := by
  have hmod : ∀ n < 256, (ofNat n).toNat = n := fun n h => by
    rw [toNat_ofNat', Nat.mod_eq_of_lt h]
  have hmax : c.val.toNat < 0x110000 := by
    rcases c.valid with h | h
    · exact Nat.lt_trans h (by decide)
    · exact h.2
  have hval : c.toNat = c.val.toNat := rfl
  unfold String.utf8EncodeChar
  rw [hval]
  generalize c.val.toNat = v at hmax
  dsimp only
  split_ifs with h₁ h₂ h₃
  · refine ⟨_, _, rfl, ?_, ?_⟩
    · rw [runeLength_ofNat (by omega), if_pos (by omega)]
      rfl
    · rw [codePoint, hmod v (by omega)]
  · refine ⟨_, _, rfl, ?_, ?_⟩
    · rw [runeLength_ofNat (by omega), if_neg (by omega), if_pos (by omega)]
      rfl
    · rw [codePoint, hmod _ (by omega), hmod _ (by omega)]
      omega
  · refine ⟨_, _, rfl, ?_, ?_⟩
    · rw [runeLength_ofNat (by omega), if_neg (by omega), if_neg (by omega), if_pos (by omega)]
      rfl
    · rw [codePoint, hmod _ (by omega), hmod _ (by omega), hmod _ (by omega)]
      omega
  · refine ⟨_, _, rfl, ?_, ?_⟩
    · rw [runeLength_ofNat (by omega), if_neg (by omega), if_neg (by omega), if_neg (by omega), if_pos (by omega)]
      rfl
    · rw [codePoint, hmod _ (by omega), hmod _ (by omega), hmod _ (by omega), hmod _ (by omega)]
      omega

theorem firstChar_utf8EncodeChar (c : Char) (bs : List UInt8) : firstChar (String.utf8EncodeChar c ++ bs) = some c := by
  obtain ⟨b, tail, hc, hlength, hpoint⟩ := utf8EncodeChar_spec c
  have htake : (b :: (tail ++ bs)).take (runeLength b) = b :: tail := by
    rw [hlength, ← cons_append, take_left]
  rw [hc, cons_append, firstChar]
  simp only [htake, hpoint, Char.ofNat_toNat, hc, if_true]

theorem ofBytesFrom_bytes {fuel : Nat} (h : (bytes (ofChars cs)).length ≤ fuel) :
    ofBytesFrom fuel (bytes (ofChars cs)) = ofChars cs := by
  rw [bytes_ofChars] at h ⊢
  induction cs generalizing fuel with
  | nil => cases fuel <;> rfl
  | cons c cs ih =>
    obtain ⟨b, tail, hc, -, -⟩ := utf8EncodeChar_spec c
    rw [flatMap_cons, length_append, hc, length_cons] at h
    obtain ⟨fuel, rfl⟩ := Nat.exists_eq_succ_of_ne_zero (n := fuel) (by omega)
    have hfirst := firstChar_utf8EncodeChar c (cs.flatMap String.utf8EncodeChar)
    have hdrop : (String.utf8EncodeChar c ++ cs.flatMap String.utf8EncodeChar).drop
        (String.utf8EncodeChar c).length = cs.flatMap String.utf8EncodeChar := drop_left
    rw [hc, cons_append] at hfirst hdrop
    rw [flatMap_cons, hc, cons_append, ofBytesFrom, hfirst]
    dsimp only
    rw [hc, hdrop, ih (by omega)]
    rfl

theorem ofBytes_bytes : ofBytes (bytes (ofChars cs)) = ofChars cs :=
  ofBytesFrom_bytes cs (Nat.le_refl _)

/-! ### Trimming -/

def isSpace : GoRune → Bool
  | .char c =>
    let n := c.toNat
    n = 0x20 || (9 ≤ n && n ≤ 13) || n = 0x85 || n = 0xa0 || n = 0x1680 ||
      (0x2000 ≤ n && n ≤ 0x200a) || n = 0x2028 || n = 0x2029 || n = 0x202f || n = 0x205f || n = 0x3000
  | .byte _ => false

def trimRight (p : GoRune → Bool) (s : GoString) : GoString := (s.reverse.dropWhile p).reverse

def trimSpace (s : GoString) : GoString := trimRight isSpace (s.dropWhile isSpace)

def join (separator : GoString) : List GoString → GoString
  | [] => []
  | [s] => s
  | s :: rest => s ++ separator ++ join separator rest

/-! ### Sorting -/

/-- The order of Go strings is that of their bytes. -/
def LexLe (a b : GoString) : Prop := (bytes a).map toNat ≤ (bytes b).map toNat

instance : DecidableRel LexLe := fun _ _ => inferInstanceAs (Decidable (_ ≤ _))

instance : Std.Total LexLe := ⟨fun a b => le_total ((bytes a).map toNat) ((bytes b).map toNat)⟩

instance : IsTrans GoString LexLe := ⟨fun _ _ _ hab hbc => le_trans hab hbc⟩

def sort (ss : List GoString) : List GoString := ss.insertionSort LexLe

theorem sort_perm (ss : List GoString) : (sort ss).Perm ss := perm_insertionSort _ ss

/-- What is sorted does not depend on the order it had. -/
theorem map_bytes_sort_congr {ss ss' : List GoString} (h : ss.Perm ss') :
    (sort ss).map bytes = (sort ss').map bytes := by
  have hsorted : ∀ ts : List GoString, ((sort ts).map bytes).Pairwise
      fun a b => a.map toNat ≤ b.map toNat := fun ts =>
    pairwise_map.mpr (pairwise_insertionSort LexLe ts)
  have hinjective : Function.Injective (List.map toNat) :=
    map_injective_iff.mpr fun _ _ => toNat.inj
  refine List.Perm.eq_of_pairwise (fun a b _ _ hab hba => hinjective (le_antisymm hab hba)) (hsorted ss)
    (hsorted ss') (List.Perm.map _ ?_)
  exact ((sort_perm ss).trans h).trans (sort_perm ss').symm

end GoString

end NpsSdk
