import NpsSdk.GoString

/-! Which lists of characters and stray bytes are read off a string of bytes: those in which no stray byte
starts a character. Such a list keeps this when a part of it is replaced by what starts a new character. -/

namespace NpsSdk.GoString

open List UInt8

/-- The list is what a string is read as. -/
def Canonical (s : GoString) : Prop := ofBytes (bytes s) = s

theorem bytes_cons (r : GoRune) (s : GoString) : bytes (r :: s) = bytes [r] ++ bytes s := by
  rw [bytes, bytes, bytes, flatMap_cons, flatMap_cons, flatMap_nil, append_nil]

theorem bytes_append (s t : GoString) : bytes (s ++ t) = bytes s ++ bytes t := by
  rw [bytes, bytes, bytes, flatMap_append]

theorem bytes_char (c : Char) : bytes [.char c] = String.utf8EncodeChar c := by
  rw [bytes, flatMap_cons, flatMap_nil, append_nil]

/-! ### The character in front -/

variable {bs : List UInt8} {b : UInt8} {s : GoString}

/-- The character in front is given by its bytes. -/
theorem firstChar_eq_some_iff {c : Char} : firstChar bs = some c ↔ String.utf8EncodeChar c <+: bs := by
  constructor
  · intro h
    cases bs with
    | nil => cases h
    | cons b bs =>
      rw [firstChar] at h
      split at h
      case isTrue hpart =>
        cases h
        rw [hpart]
        exact take_prefix _ _
      case isFalse => cases h
  · rintro ⟨rest, rfl⟩
    exact firstChar_utf8EncodeChar c rest

theorem firstChar_eq_none_iff : firstChar bs = none ↔ ∀ c, ¬ String.utf8EncodeChar c <+: bs := by
  rw [Option.eq_none_iff_forall_ne_some]
  exact forall_congr' fun c => not_congr firstChar_eq_some_iff

/-! ### Canonical lists -/

/-- More steps than bytes change nothing. -/
theorem ofBytesFrom_congr {fuel fuel' : Nat} (h : bs.length ≤ fuel) (h' : bs.length ≤ fuel') :
    ofBytesFrom fuel bs = ofBytesFrom fuel' bs := by
  induction fuel generalizing bs fuel' with
  | zero =>
    rw [length_eq_zero_iff.mp (Nat.le_zero.mp h)]
    cases fuel' <;> rfl
  | succ fuel ih =>
    cases bs with
    | nil => cases fuel' <;> rfl
    | cons b bs =>
      obtain ⟨fuel', rfl⟩ := Nat.exists_eq_succ_of_ne_zero (by rw [length_cons] at h'; omega : fuel' ≠ 0)
      rw [length_cons] at h h'
      rw [ofBytesFrom, ofBytesFrom]
      cases hfirst : firstChar (b :: bs) with
      | none => exact congrArg _ (ih (by omega) (by omega))
      | some c =>
        obtain ⟨b', tail, hc, -, -⟩ := utf8EncodeChar_spec c
        have hlength : ((b :: bs).drop (String.utf8EncodeChar c).length).length ≤ bs.length := by
          rw [hc, length_drop, length_cons, length_cons]
          omega
        exact congrArg _ (ih (by omega) (by omega))

theorem ofBytes_char (c : Char) (bs : List UInt8) :
    ofBytes (String.utf8EncodeChar c ++ bs) = .char c :: ofBytes bs := by
  obtain ⟨b, tail, hc, -, -⟩ := utf8EncodeChar_spec c
  have hfirst := firstChar_utf8EncodeChar c bs
  have hdrop : (String.utf8EncodeChar c ++ bs).drop (String.utf8EncodeChar c).length = bs := drop_left
  rw [hc, cons_append] at hfirst hdrop
  rw [ofBytes, hc, cons_append, length_cons, ofBytesFrom, hfirst]
  dsimp only
  rw [hc, hdrop, ofBytes, ofBytesFrom_congr (by rw [length_append]; omega) (Nat.le_refl _)]

theorem ofBytes_byte (h : firstChar (b :: bs) = none) : ofBytes (b :: bs) = .byte b :: ofBytes bs := by
  rw [ofBytes, length_cons, ofBytesFrom, h]
  rfl

theorem bytes_ofBytes (bs : List UInt8) : bytes (ofBytes bs) = bs := by
  induction hlen : bs.length using Nat.strong_induction_on generalizing bs with
  | _ n ih =>
    cases bs with
    | nil => rfl
    | cons b bs =>
      cases hfirst : firstChar (b :: bs) with
      | none =>
        rw [ofBytes_byte hfirst, bytes_cons, ih bs.length (by rw [← hlen, length_cons]; omega) bs rfl]
        rfl
      | some c =>
        obtain ⟨b', tail, hc, -, -⟩ := utf8EncodeChar_spec c
        obtain ⟨rest, hrest⟩ := firstChar_eq_some_iff.mp hfirst
        have hlength : rest.length < n := by
          rw [← hlen, ← hrest, hc, length_append, length_cons]
          omega
        rw [← hrest, ofBytes_char, bytes_cons, bytes_char, ih rest.length hlength rest rfl]

theorem canonical_ofBytes (bs : List UInt8) : Canonical (ofBytes bs) := congrArg ofBytes (bytes_ofBytes bs)

theorem canonical_char_iff {c : Char} : Canonical (.char c :: s) ↔ Canonical s := by
  rw [Canonical, Canonical, bytes_cons, bytes_char, ofBytes_char, cons_inj_right]

theorem canonical_byte_iff : Canonical (.byte b :: s) ↔ firstChar (b :: bytes s) = none ∧ Canonical s := by
  have hbytes : bytes (.byte b :: s) = b :: bytes s := rfl
  rw [Canonical, hbytes]
  cases hfirst : firstChar (b :: bytes s) with
  | none => simp [ofBytes_byte hfirst, Canonical]
  | some c =>
    obtain ⟨rest, hrest⟩ := firstChar_eq_some_iff.mp hfirst
    rw [← hrest, ofBytes_char]
    simp only [List.cons.injEq, reduceCtorEq, false_and]

theorem Canonical.right {front rest : GoString} (h : Canonical (front ++ rest)) : Canonical rest := by
  induction front with
  | nil => exact h
  | cons r front ih =>
    cases r with
    | char c => exact ih (canonical_char_iff.mp h)
    | byte b => exact ih (canonical_byte_iff.mp h).2

theorem canonical_nil : Canonical [] := rfl

/-- A stray byte is no ASCII character. -/
theorem Canonical.le_of_byte_mem (h : Canonical s) (hb : .byte b ∈ s) : 128 ≤ b := by
  obtain ⟨front, rest, rfl⟩ := append_of_mem hb
  have hfirst := (canonical_byte_iff.mp h.right).1
  by_contra hlow
  have hlt : b.toNat < 128 := UInt8.lt_iff_toNat_lt.mp (UInt8.not_le.mp hlow)
  refine firstChar_eq_none_iff.mp hfirst (Char.ofNat b.toNat) ?_
  rw [utf8EncodeChar_ascii _ hlt, UInt8.ofNat_toNat]
  exact ⟨bytes rest, rfl⟩

end NpsSdk.GoString
