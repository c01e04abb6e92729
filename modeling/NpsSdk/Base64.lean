import Mathlib

/-! Base64 as in Go's `encoding/base64`, and hexadecimal. In decoding line breaks are skipped, bits left
over in the last quantum are dropped, and an encoding either demands its padding character or knows
none. -/

open List

namespace NpsSdk.Base64

structure Encoding where
  decodeMap : UInt8 → Option UInt8
  /-- `none` for an encoding without padding. -/
  padChar : Option UInt8

def letterOrDigit (c : UInt8) : Option UInt8 :=
  if 65 ≤ c ∧ c ≤ 90 then some (c - 65)
  else if 97 ≤ c ∧ c ≤ 122 then some (c - 71)
  else if 48 ≤ c ∧ c ≤ 57 then some (c + 4)
  else none

/-- An alphabet that ends in the two given characters. -/
def alphabet (c62 c63 c : UInt8) : Option UInt8 :=
  if c = c62 then some 62 else if c = c63 then some 63 else letterOrDigit c

/-- The padding character `=`. -/
def stdPadding : UInt8 := 61

/-- Letters, digits, `+` and `/`. -/
def stdEncoding : Encoding := { decodeMap := alphabet 43 47, padChar := some stdPadding }

/-- Letters, digits, `-` and `_`. -/
def urlEncoding : Encoding := { decodeMap := alphabet 45 95, padChar := some stdPadding }

def rawURLEncoding : Encoding := { urlEncoding with padChar := none }

def rawStdEncoding : Encoding := { stdEncoding with padChar := none }

def isNewline (c : UInt8) : Bool := c = 10 || c = 13

def skipNewlines (src : List UInt8) : List UInt8 := src.dropWhile isNewline

/-- The bytes of a quantum of two, three or four values of six bits. -/
def quantumBytes : List UInt8 → List UInt8
  | [a, b] => [a <<< 2 ||| b >>> 4]
  | [a, b, c] => [a <<< 2 ||| b >>> 4, b <<< 4 ||| c >>> 2]
  | [a, b, c, d] => [a <<< 2 ||| b >>> 4, b <<< 4 ||| c >>> 2, c <<< 6 ||| d]
  | _ => []

/-- What may follow the first padding character. -/
def endPadding (enc : Encoding) (quantum src : List UInt8) : Option (List UInt8) :=
  if quantum.length = 2 then
    match skipNewlines src with
    | c :: rest =>
      if enc.padChar = some c ∧ skipNewlines rest = [] then some (quantumBytes quantum) else none
    | [] => none
  else if quantum.length = 3 ∧ skipNewlines src = [] then some (quantumBytes quantum)
  else none

/-- Decoding with the values of an open quantum. -/
def decodeFrom (enc : Encoding) : List UInt8 → List UInt8 → Option (List UInt8)
  | quantum, [] =>
    if quantum = [] then some []
    else if quantum.length = 1 ∨ enc.padChar.isSome then none
    else some (quantumBytes quantum)
  | quantum, c :: src =>
    match enc.decodeMap c with
    | some v =>
      if quantum.length = 3 then
        (decodeFrom enc [] src).map fun out => quantumBytes (quantum ++ [v]) ++ out
      else decodeFrom enc (quantum ++ [v]) src
    | none =>
      if isNewline c then decodeFrom enc quantum src
      else if enc.padChar = some c then endPadding enc quantum src
      else none

def decodeString (enc : Encoding) (src : List UInt8) : Option (List UInt8) := decodeFrom enc [] src

theorem length_quantumBytes {quantum : List UInt8} (h : quantum.length = 3) (v : UInt8) :
    (quantumBytes (quantum ++ [v])).length = 3 := by
  match quantum, h with
  | [a, b, c], _ => rfl

variable {enc : Encoding} {quantum src out : List UInt8} {v : UInt8}

/-- A source without the padding character fills its quanta. -/
theorem length_mod_three_of_not_mem {pad : UInt8} (hpad : enc.padChar = some pad) (hsrc : pad ∉ src)
    (h : decodeFrom enc quantum src = some out) : out.length % 3 = 0 := by
  induction src generalizing quantum out with
  | nil =>
    rw [decodeFrom, hpad] at h
    split_ifs at h with hempty hopen
    · cases h
      rfl
    · exact absurd (Or.inr rfl) hopen
  | cons c src ih =>
    rw [mem_cons, not_or] at hsrc
    rw [decodeFrom] at h
    split at h
    · split_ifs at h with hfull
      · obtain ⟨rest, hrest, rfl⟩ := Option.map_eq_some_iff.mp h
        rw [length_append, length_quantumBytes hfull, Nat.add_mod_left]
        exact ih hsrc.2 hrest
      · exact ih hsrc.2 h
    · split_ifs at h with hnewline hchar
      · exact ih hsrc.2 h
      · rw [hpad] at hchar
        exact absurd (Option.some.inj hchar) hsrc.1

/-- Without padding nothing outside the alphabet is accepted but line breaks. -/
theorem not_mem_of_decodeFrom (hpad : enc.padChar = none) {bad : UInt8} (hbad : enc.decodeMap bad = none)
    (hnewline : isNewline bad = false) (h : decodeFrom enc quantum src = some out) : bad ∉ src := by
  induction src generalizing quantum out with
  | nil => exact not_mem_nil
  | cons c src ih =>
    rw [decodeFrom] at h
    rw [mem_cons, not_or]
    split at h
    · rename_i v hv
      refine ⟨fun heq => ?_, ?_⟩
      · rw [← heq, hbad] at hv
        cases hv
      · split_ifs at h
        · obtain ⟨rest, hrest, -⟩ := Option.map_eq_some_iff.mp h
          exact ih hrest
        · exact ih h
    · split_ifs at h with hskip hchar
      · refine ⟨fun heq => ?_, ih h⟩
        rw [← heq, hnewline] at hskip
        cases hskip
      · rw [hpad] at hchar
        cases hchar

/-- Characters of the alphabet that fill their quanta give three bytes for four of them. -/
theorem length_of_decodeMap {src : List UInt8} {count : Nat} (hsrc : ∀ c ∈ src, (enc.decodeMap c).isSome = true)
    (hlength : src.length = 4 * count) : ∃ out, decodeString enc src = some out ∧ out.length = 3 * count := by
  induction count generalizing src with
  | zero =>
    rw [length_eq_zero_iff.mp hlength]
    exact ⟨[], rfl, rfl⟩
  | succ count ih =>
    match src, hlength with
    | a :: b :: c :: d :: rest, hlength =>
      simp only [forall_mem_cons, Option.isSome_iff_exists] at hsrc
      obtain ⟨⟨u, hu⟩, ⟨v, hv⟩, ⟨w, hw⟩, ⟨x, hx⟩, hrest⟩ := hsrc
      have hcount : rest.length = 4 * count := by
        simp only [length_cons] at hlength
        omega
      obtain ⟨out, hout, hlen⟩ := ih (fun e he => Option.isSome_iff_exists.mpr (hrest e he)) hcount
      rw [decodeString] at hout
      refine ⟨quantumBytes [u, v, w, x] ++ out, ?_, ?_⟩
      · simp [decodeString, decodeFrom, hu, hv, hw, hx, hout]
      · rw [length_append]
        simp only [quantumBytes, length_cons, length_nil]
        omega

/-! ### Encoding -/

/-- The character of a value of six bits in the alphabet of `urlEncoding`. -/
def encodeURLChar (v : UInt8) : UInt8 :=
  if v < 26 then v + 65 else if v < 52 then v + 71 else if v < 62 then v - 4
  else if v = 62 then 45 else 95

def encodeRawURL : List UInt8 → List UInt8
  | a :: b :: c :: rest =>
    encodeURLChar (a >>> 2) :: encodeURLChar ((a <<< 4 ||| b >>> 4) &&& 63) ::
      encodeURLChar ((b <<< 2 ||| c >>> 6) &&& 63) :: encodeURLChar (c &&& 63) :: encodeRawURL rest
  | [a, b] =>
    [encodeURLChar (a >>> 2), encodeURLChar ((a <<< 4 ||| b >>> 4) &&& 63), encodeURLChar (b <<< 2 &&& 63)]
  | [a] => [encodeURLChar (a >>> 2), encodeURLChar (a <<< 4 &&& 63)]
  | [] => []

/-- The character of a value of six bits in the alphabet of `stdEncoding`. -/
def encodeStdChar (v : UInt8) : UInt8 :=
  if v < 62 then encodeURLChar v else if v = 62 then 43 else 47

def encodeStd : List UInt8 → List UInt8
  | a :: b :: c :: rest =>
    encodeStdChar (a >>> 2) :: encodeStdChar ((a <<< 4 ||| b >>> 4) &&& 63) ::
      encodeStdChar ((b <<< 2 ||| c >>> 6) &&& 63) :: encodeStdChar (c &&& 63) :: encodeStd rest
  | [a, b] =>
    [encodeStdChar (a >>> 2), encodeStdChar ((a <<< 4 ||| b >>> 4) &&& 63),
      encodeStdChar (b <<< 2 &&& 63), stdPadding]
  | [a] => [encodeStdChar (a >>> 2), encodeStdChar (a <<< 4 &&& 63), stdPadding, stdPadding]
  | [] => []

/-- Bytes that do not fill their quanta are padded. -/
theorem stdPadding_mem_encodeStd {bs : List UInt8} (h : bs.length % 3 ≠ 0) : stdPadding ∈ encodeStd bs := by
  induction bs using encodeStd.induct with
  | case1 a b c rest ih =>
    rw [encodeStd]
    have hrest : rest.length % 3 ≠ 0 := by
      simp only [length_cons] at h
      omega
    simp only [mem_cons]
    exact Or.inr (Or.inr (Or.inr (Or.inr (ih hrest))))
  | case2 | case3 => simp [encodeStd]
  | case4 => exact absurd rfl h

theorem forall_lt_64 {P : UInt8 → Prop} (h : ∀ n < 64, P (UInt8.ofNat n)) (hv : v < 64) : P v := by
  have hn := h v.toNat (UInt8.lt_iff_toNat_lt.mp hv)
  rwa [UInt8.ofNat_toNat] at hn

theorem encodeStdChar_lt (hv : v < 64) : encodeStdChar v < 128 :=
  forall_lt_64 (P := fun v => encodeStdChar v < 128) (by decide) hv

theorem encodeURLChar_lt (hv : v < 64) : encodeURLChar v < 128 :=
  forall_lt_64 (P := fun v => encodeURLChar v < 128) (by decide) hv

theorem decodeMap_encodeURLChar (hv : v < 64) : rawURLEncoding.decodeMap (encodeURLChar v) = some v :=
  forall_lt_64 (P := fun v => rawURLEncoding.decodeMap (encodeURLChar v) = some v) (by decide) hv

theorem and_63_lt (v : UInt8) : v &&& 63 < 64 := by
  exact Nat.and_lt_two_pow _ (n := 6) (by decide)

theorem shiftRight_2_lt (v : UInt8) : v >>> 2 < 64 := by
  have hv : v.toNat < 256 := v.toNat_lt
  have hshift : (v >>> 2).toNat = v.toNat / 4 := by
    exact Nat.shiftRight_eq_div_pow v.toNat 2
  rw [UInt8.lt_iff_toNat_lt, hshift]
  exact Nat.div_lt_of_lt_mul hv

theorem first_byte (a b : UInt8) : (a >>> 2) <<< 2 ||| ((a <<< 4 ||| b >>> 4) &&& 63) >>> 4 = a := by
  apply UInt8.eq_of_toBitVec_eq
  apply BitVec.eq_of_getLsbD_eq
  intro i hi
  interval_cases i <;> simp

theorem second_byte (a b c : UInt8) :
    ((a <<< 4 ||| b >>> 4) &&& 63) <<< 4 ||| ((b <<< 2 ||| c >>> 6) &&& 63) >>> 2 = b := by
  apply UInt8.eq_of_toBitVec_eq
  apply BitVec.eq_of_getLsbD_eq
  intro i hi
  simp
  interval_cases i <;> simp

theorem third_byte (b c : UInt8) : ((b <<< 2 ||| c >>> 6) &&& 63) <<< 6 ||| (c &&& 63) = c := by
  apply UInt8.eq_of_toBitVec_eq
  apply BitVec.eq_of_getLsbD_eq
  intro i hi
  simp
  interval_cases i <;> simp

theorem decodeFrom_encodeURLChar (hv : v < 64) (quantum src : List UInt8) :
    decodeFrom rawURLEncoding quantum (encodeURLChar v :: src) = if quantum.length = 3 then
        (decodeFrom rawURLEncoding [] src).map fun out => quantumBytes (quantum ++ [v]) ++ out
      else decodeFrom rawURLEncoding (quantum ++ [v]) src := by
  rw [decodeFrom, decodeMap_encodeURLChar hv]

theorem decodeString_encodeRawURL (bs : List UInt8) : decodeString rawURLEncoding (encodeRawURL bs) = some bs := by
  rw [decodeString]
  induction bs using encodeRawURL.induct with
  | case1 a b c rest ih =>
    rw [encodeRawURL, decodeFrom_encodeURLChar (shiftRight_2_lt a),
      if_neg (by decide), decodeFrom_encodeURLChar (and_63_lt _), if_neg (by simp),
      decodeFrom_encodeURLChar (and_63_lt _), if_neg (by simp),
      decodeFrom_encodeURLChar (and_63_lt _), if_pos (by simp), ih]
    simp [quantumBytes, first_byte, second_byte, third_byte]
  | case2 a b =>
    rw [encodeRawURL, decodeFrom_encodeURLChar (shiftRight_2_lt a),
      if_neg (by decide), decodeFrom_encodeURLChar (and_63_lt _), if_neg (by simp),
      decodeFrom_encodeURLChar (and_63_lt _), if_neg (by simp), decodeFrom]
    have hsecond := second_byte a b 0
    simp only [UInt8.zero_shiftRight, UInt8.or_zero] at hsecond
    simp [quantumBytes, first_byte, hsecond, rawURLEncoding]
  | case3 a =>
    rw [encodeRawURL, decodeFrom_encodeURLChar (shiftRight_2_lt a),
      if_neg (by decide), decodeFrom_encodeURLChar (and_63_lt _), if_neg (by simp), decodeFrom]
    have hfirst := first_byte a 0
    simp only [UInt8.zero_shiftRight, UInt8.or_zero] at hfirst
    simp [quantumBytes, hfirst, rawURLEncoding]
  | case4 => rfl

theorem encodeRawURL_ascii (bs : List UInt8) : ∀ b ∈ encodeRawURL bs, b < 128 := by
  fun_induction encodeRawURL bs with
  | case1 a b c rest ih =>
    simp only [forall_mem_cons]
    exact ⟨encodeURLChar_lt (shiftRight_2_lt a), encodeURLChar_lt (and_63_lt _),
      encodeURLChar_lt (and_63_lt _), encodeURLChar_lt (and_63_lt _), ih⟩
  | case2 a b =>
    simp only [forall_mem_cons]
    exact ⟨encodeURLChar_lt (shiftRight_2_lt a), encodeURLChar_lt (and_63_lt _),
      encodeURLChar_lt (and_63_lt _), forall_mem_nil _⟩
  | case3 a =>
    simp only [forall_mem_cons]
    exact ⟨encodeURLChar_lt (shiftRight_2_lt a), encodeURLChar_lt (and_63_lt _), forall_mem_nil _⟩
  | case4 => exact forall_mem_nil _

theorem encodeStd_ascii (bs : List UInt8) : ∀ b ∈ encodeStd bs, b < 128 := by
  fun_induction encodeStd bs with
  | case1 a b c rest ih =>
    simp only [forall_mem_cons]
    exact ⟨encodeStdChar_lt (shiftRight_2_lt a), encodeStdChar_lt (and_63_lt _),
      encodeStdChar_lt (and_63_lt _), encodeStdChar_lt (and_63_lt _), ih⟩
  | case2 a b =>
    simp only [forall_mem_cons]
    exact ⟨encodeStdChar_lt (shiftRight_2_lt a), encodeStdChar_lt (and_63_lt _),
      encodeStdChar_lt (and_63_lt _), by decide, forall_mem_nil _⟩
  | case3 a =>
    simp only [forall_mem_cons]
    exact ⟨encodeStdChar_lt (shiftRight_2_lt a), encodeStdChar_lt (and_63_lt _), by decide, by decide,
      forall_mem_nil _⟩
  | case4 => exact forall_mem_nil _

/-- Text with padding is nothing to an encoding that knows none. -/
theorem decodeString_encodeStd {bs : List UInt8} (h : bs.length % 3 ≠ 0) :
    decodeString rawURLEncoding (encodeStd bs) = none := by
  cases hdecoded : decodeString rawURLEncoding (encodeStd bs) with
  | none => rfl
  | some out =>
    exact absurd (stdPadding_mem_encodeStd h) (not_mem_of_decodeFrom rfl (by decide) (by decide) hdecoded)

end NpsSdk.Base64

namespace NpsSdk.Hex

/-! ### Hexadecimal -/

def digit (n : Nat) : UInt8 := if n < 10 then UInt8.ofNat (48 + n) else UInt8.ofNat (87 + n)

def encode (bs : List UInt8) : List UInt8 := bs.flatMap fun b => [digit (b.toNat / 16), digit (b.toNat % 16)]

/-- Hexadecimal digits are letters and digits of base64url as well. -/
theorem digit_alphabet : ∀ d < 16, digit d < 128 ∧ (Base64.rawURLEncoding.decodeMap (digit d)).isSome = true := by
  decide

theorem encode_alphabet {bs : List UInt8} {c : UInt8} (h : c ∈ encode bs) :
    c < 128 ∧ (Base64.rawURLEncoding.decodeMap c).isSome = true := by
  obtain ⟨b, -, hc⟩ := mem_flatMap.mp h
  have hb : b.toNat < 256 := b.toNat_lt
  simp only [mem_cons, not_mem_nil, or_false] at hc
  rcases hc with rfl | rfl <;> exact digit_alphabet _ (by omega)

theorem length_encode (bs : List UInt8) : (encode bs).length = 2 * bs.length := by
  induction bs with
  | nil => rfl
  | cons b bs ih =>
    rw [encode] at ih ⊢
    rw [flatMap_cons, length_append, length_cons, length_cons, length_cons, length_nil]
    omega

end NpsSdk.Hex
