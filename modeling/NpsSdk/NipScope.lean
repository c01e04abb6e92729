import NpsSdk.GoStringBytes
import NpsSdk.NipVerifier

/-! What a scope pattern covers, and when `NwpPathMatches` finds it. The prefix of a pattern is compared in
lower case, but the boundary behind it is looked up at the length the prefix has in the pattern, which may not be the
length it has in the path. -/

namespace NpsSdk.Nip

open GoString List

section Scope

variable {N : Type} (pf : Platform N)

/-- The paths a pattern stands for: all of them, a path and everything below it, or one path. -/
def Covers (pattern path : GoString) : Prop :=
  pattern = "*" ∨ pattern ≠ "*" ∧
    match patternPrefix pattern with
    | some stem => toLower pf path = toLower pf stem ∨ toLower pf stem ++ ['/'] <+: toLower pf path
    | none => equalFold pf pattern path = true

/-- The match does not panic and finds what the pattern covers. -/
structure MatchesRight (pattern path : GoString) : Prop where
  inRange : nwpPathMatches pf pattern path ≠ .indexOutOfRange
  matched_iff : nwpPathMatches pf pattern path = .matched ↔ Covers pf pattern path

/-! ### The boundary -/

/-- The path ends at a position, or a component of it does. -/
def endsAt (path : Bytes) (position : Nat) : PathMatch :=
  if path.length = position then .matched
  else
    match path[position]? with
    | some b => if b = 47 then .matched else .unmatched
    | none => .indexOutOfRange

/-- A position at which the path ends or a component of it does. -/
def Boundary (path : Bytes) (position : Nat) : Prop := path.length = position ∨ path[position]? = some 47

theorem endsAt_eq_matched_iff {path : Bytes} {position : Nat} :
    endsAt path position = .matched ↔ Boundary path position := by
  unfold endsAt Boundary
  split_ifs with hend
  · exact iff_of_true rfl (.inl hend)
  rw [or_iff_right hend]
  cases path[position]? with
  | none => exact ⟨nofun, nofun⟩
  | some b =>
    dsimp only
    rw [Option.some.injEq]
    split_ifs with hslash
    · exact iff_of_true rfl hslash
    · exact iff_of_false nofun hslash

theorem endsAt_ne_indexOutOfRange_iff {path : Bytes} {position : Nat} :
    endsAt path position ≠ .indexOutOfRange ↔ position ≤ path.length := by
  unfold endsAt
  split_ifs with hend
  · exact iff_of_true nofun hend.ge
  rcases Nat.lt_or_ge position path.length with hlt | hge
  · rw [getElem?_eq_getElem hlt]
    dsimp only
    refine iff_of_true ?_ hlt.le
    split_ifs <;> exact nofun
  · rw [getElem?_eq_none hge]
    exact iff_of_false (fun h => h rfl) (by omega)

/-- A character whose first byte is a slash is one. -/
theorem head_utf8EncodeChar {c : Char} : (String.utf8EncodeChar c).head? = some 47 ↔ c = '/' := by
  constructor
  · intro h
    obtain ⟨b, tail, hc, hlength, hpoint⟩ := utf8EncodeChar_spec c
    rw [hc] at h
    cases h
    have htail : tail = [] := by
      exact length_eq_zero_iff.mp (Nat.succ.inj hlength).symm
    rw [htail] at hpoint
    rw [← Char.ofNat_toNat c, ← hpoint]
    rfl
  · rintro rfl
    rfl

variable {s : GoString}

theorem head_bytes (h : Canonical s) : (bytes s).head? = some 47 ↔ s.head? = some (.char '/') := by
  cases s with
  | nil => exact ⟨nofun, nofun⟩
  | cons r s =>
    cases r with
    | char c =>
      obtain ⟨b, tail, hc, -, -⟩ := utf8EncodeChar_spec c
      rw [bytes_cons, bytes_char, head?_append, hc, head?_cons, Option.some_or, head?_cons,
        Option.some.injEq, Option.some.injEq, GoRune.char.injEq, ← head_utf8EncodeChar, hc, head?_cons,
        Option.some.injEq]
    | byte b =>
      have hb := h.le_of_byte_mem mem_cons_self
      constructor
      · intro hhead
        cases hhead
        exact absurd hb (by decide)
      · intro hhead
        cases hhead

theorem bytes_eq_nil_iff : bytes s = [] ↔ s = [] := by
  cases s with
  | nil => exact ⟨fun _ => rfl, fun _ => rfl⟩
  | cons r s =>
    constructor
    · intro h
      rw [bytes_cons] at h
      have hr := (append_eq_nil_iff.mp h).1
      cases r with
      | char c =>
        obtain ⟨b, tail, hc, -, -⟩ := utf8EncodeChar_spec c
        rw [bytes_char, hc] at hr
        cases hr
      | byte b => cases hr
    · intro h
      cases h

theorem boundary_append {front rest : GoString} (h : Canonical (front ++ rest)) :
    Boundary (bytes (front ++ rest)) (bytes front).length ↔ rest = [] ∨ rest.head? = some (.char '/') := by
  rw [Boundary, bytes_append, getElem?_append_right (Nat.le_refl _), Nat.sub_self, ← head?_eq_getElem?,
    head_bytes h.right, length_append, Nat.add_eq_left, length_eq_zero_iff, bytes_eq_nil_iff]

/-! ### Patterns with a prefix -/

variable {pf} {pattern stem path front rest : GoString}

theorem ne_star_of_patternPrefix (h : patternPrefix pattern = some stem) : pattern ≠ "*" := by
  rintro rfl
  cases h

theorem patternPrefix_eq_some_iff : patternPrefix pattern = some stem ↔ pattern = stem ++ "/*" := by
  rw [patternPrefix]
  constructor
  · intro h
    split at h
    case isTrue hsuffix =>
      obtain ⟨stem', rfl⟩ := isSuffixOf_iff_suffix.mp hsuffix
      cases h
      rw [length_append]
      exact congrArg (· ++ ofString "/*") (take_left' rfl).symm
    case isFalse => cases h
  · rintro rfl
    rw [if_pos (isSuffixOf_iff_suffix.mpr ⟨stem, rfl⟩), length_append]
    exact congrArg some (take_left' rfl)

theorem toLower_append (s t : GoString) : toLower pf (s ++ t) = toLower pf s ++ toLower pf t := by
  rw [toLower, toLower, toLower, toChars, toChars, toChars, map_append, map_append]

theorem length_toLower (s : GoString) : (toLower pf s).length = s.length := by
  rw [toLower, toChars, length_map, length_map]

/-- What starts with the prefix in lower case has as many characters that equal it in lower case. -/
theorem toLower_take (h : toLower pf stem <+: toLower pf path) :
    toLower pf (path.take stem.length) = toLower pf stem := by
  have htake := prefix_iff_eq_take.mp h
  rw [length_toLower] at htake
  rw [htake, toLower, toLower, toChars, toChars, map_take, map_take]

section

variable (hpattern : patternPrefix pattern = some stem)
include hpattern

theorem nwpPathMatches_of_other
    (h : ¬ toLower pf stem <+: toLower pf path) : nwpPathMatches pf pattern path = .unmatched := by
  rw [nwpPathMatches, if_neg (ne_star_of_patternPrefix hpattern), hpattern]
  exact if_neg fun hlower => h ( isPrefixOf_iff_prefix.mp hlower)

theorem nwpPathMatches_of_prefix (h : toLower pf stem <+: toLower pf path) :
    nwpPathMatches pf pattern path = endsAt (bytes path) (bytes stem).length := by
  rw [nwpPathMatches, if_neg (ne_star_of_patternPrefix hpattern), hpattern]
  exact if_pos ( isPrefixOf_iff_prefix.mpr h)

theorem covers_iff_of_patternPrefix : Covers pf pattern path ↔
      toLower pf path = toLower pf stem ∨ toLower pf stem ++ ['/'] <+: toLower pf path := by
  have hstar := ne_star_of_patternPrefix hpattern
  rw [Covers, hpattern]
  constructor
  · rintro (h | ⟨-, h⟩)
    · exact absurd h hstar
    · exact h
  · exact fun h => .inr ⟨hstar, h⟩

end

theorem toChar_eq_slash_iff {r : GoRune} : toChar r = '/' ↔ r = .char '/' := by
  cases r with
  | char c => exact (GoRune.char.injEq c '/').symm ▸ Iff.rfl
  | byte b =>
    constructor
    · intro h
      exact absurd h (by decide : replacement ≠ '/')
    · intro h
      cases h

theorem MatchesRight.of_matched (hmatch : nwpPathMatches pf pattern path = .matched)
    (hcovers : Covers pf pattern path) : MatchesRight pf pattern path := by
  refine ⟨?_, iff_of_true hmatch hcovers⟩
  rw [hmatch]
  decide

theorem MatchesRight.of_unmatched (hmatch : nwpPathMatches pf pattern path = .unmatched)
    (hcovers : ¬ Covers pf pattern path) : MatchesRight pf pattern path := by
  refine ⟨?_, iff_of_false ?_ hcovers⟩ <;> rw [hmatch] <;> decide

theorem matchesRight_of_no_patternPrefix (hpattern : patternPrefix pattern = none) (path : GoString) :
    MatchesRight pf pattern path := by
  by_cases hstar : pattern = "*"
  · exact .of_matched (if_pos hstar) (.inl hstar)
  have hmatch : nwpPathMatches pf pattern path = if equalFold pf pattern path then .matched else .unmatched := by
    rw [nwpPathMatches, if_neg hstar, hpattern]
  have hcovers : Covers pf pattern path ↔ equalFold pf pattern path = true := by
    rw [Covers, hpattern]
    exact ⟨fun h => (h.resolve_left hstar).2, fun h => .inr ⟨hstar, h⟩⟩
  by_cases hfold : equalFold pf pattern path = true
  · rw [if_pos hfold] at hmatch
    exact .of_matched hmatch (hcovers.mpr hfold)
  · rw [if_neg hfold] at hmatch
    exact .of_unmatched hmatch fun h => hfold (hcovers.mp h)

variable (hslash : ∀ c, pf.toLower c = '/' ↔ c = '/')
include hslash

section

variable (hpattern : patternPrefix pattern = some stem)
include hpattern

theorem covers_front_iff (hfront : toLower pf front = toLower pf stem) :
    Covers pf pattern (front ++ rest) ↔ rest = [] ∨ rest.head? = some (.char '/') := by
  rw [covers_iff_of_patternPrefix hpattern, toLower_append, hfront, append_right_eq_self, prefix_append_right_inj]
  cases rest with
  | nil => exact iff_of_true (.inl rfl) (.inl rfl)
  | cons r rest =>
    have hlower : toLower pf (r :: rest) = pf.toLower (toChar r) :: toLower pf rest := rfl
    rw [hlower, cons_prefix_cons, head?_cons, Option.some.injEq, ← toChar_eq_slash_iff, ← hslash]
    constructor
    · rintro (h | ⟨h, -⟩)
      · cases h
      · exact .inr h.symm
    · rintro (h | h)
      · cases h
      · exact .inr ⟨h.symm, nil_prefix⟩

end

/-- Where the match looks for the end of the prefix, at the length it has in the pattern, a component of the path ends
exactly if one ends behind the characters that equal the prefix. -/
def FindsBoundary (stem path : GoString) : Prop :=
  (bytes stem).length ≤ (bytes path).length ∧ (Boundary (bytes path) (bytes stem).length ↔
    Boundary (bytes path) (bytes (path.take stem.length)).length)

theorem matchesRight_iff (hpath : Canonical path) : MatchesRight pf pattern path ↔
    ∀ stem, patternPrefix pattern = some stem → toLower pf stem <+: toLower pf path → FindsBoundary stem path := by
  cases hpattern : patternPrefix pattern with
  | none => exact iff_of_true (matchesRight_of_no_patternPrefix hpattern path) nofun
  | some stem =>
    simp only [Option.some.injEq, forall_eq']
    by_cases hlower : toLower pf stem <+: toLower pf path
    · have hmatch := nwpPathMatches_of_prefix hpattern hlower
      have hcovers := @covers_front_iff N pf pattern stem _ (path.drop stem.length) hslash hpattern
        (toLower_take hlower)
      have hboundary := @boundary_append (path.take stem.length) (path.drop stem.length)
      rw [take_append_drop] at hcovers hboundary
      rw [forall_prop_of_true hlower, FindsBoundary, hboundary hpath, ← hcovers, ← endsAt_ne_indexOutOfRange_iff,
        ← endsAt_eq_matched_iff, ← hmatch]
      exact ⟨fun h => ⟨h.inRange, h.matched_iff⟩, fun h => ⟨h.1, h.2⟩⟩
    · refine iff_of_true (.of_unmatched (nwpPathMatches_of_other hpattern hlower) fun h => hlower ?_) fun h =>
        absurd h hlower
      rcases (covers_iff_of_patternPrefix hpattern).mp h with h | h
      · rw [h]
      · exact (prefix_append _ _).trans h

/-- The match is right for a pattern and a path, any strings of bytes, exactly if it finds the boundary: always unless
the path starts with the prefix of the pattern in lower case. -/
theorem nwpPathMatches_right_iff (pattern path : Bytes) : MatchesRight pf (ofBytes pattern) (ofBytes path) ↔
    ∀ stem, patternPrefix (ofBytes pattern) = some stem → toLower pf stem <+: toLower pf (ofBytes path) →
      FindsBoundary stem (ofBytes path) :=
  matchesRight_iff hslash (canonical_ofBytes path)

end Scope

/-! ### The Kelvin sign -/

/-- The lower case of the ASCII letters and of the Kelvin sign, U+212A, which is three bytes long. -/
def kelvinToLower (c : Char) : Char := if c = '\u212a' then 'k' else c.toLower

def kelvinPlatform : Platform JsonNumber :=
  { plainPlatform anySignature with toLower := kelvinToLower, simpleFold := kelvinToLower }

/-- An upper case letter is 32 before its lower case. -/
theorem toLower_cases (c : Char) : c.toLower = c ∨ 65 ≤ c.toNat ∧ c.toNat ≤ 90 ∧ c.toLower.toNat = c.toNat + 32 := by
  unfold Char.toLower
  split
  next hupper =>
    obtain ⟨hlow, hhigh⟩ := hupper
    have hZ : ('Z' : Char).val.toNat = 90 := rfl
    have hshift : (('a' : Char).val - ('A' : Char).val).toNat = 32 := rfl
    have hval : c.toNat = c.val.toNat := rfl
    rw [UInt32.le_iff_toNat_le] at hhigh
    refine .inr ⟨hlow, hhigh, ?_⟩
    rw [Char.toNat, UInt32.toNat_add]
    omega
  next => exact .inl rfl

/-- A character whose lower case is neither a letter `k` nor any other letter is its own lower case. -/
theorem kelvinToLower_cases {c d : Char} (h : kelvinToLower c = d) (hk : d ≠ 'k') :
    c = d ∨ d.toNat = c.toNat + 32 ∧ 65 ≤ c.toNat ∧ c.toNat ≤ 90 := by
  rw [kelvinToLower] at h
  split at h
  · exact absurd h.symm hk
  subst h
  rcases toLower_cases c with hsame | ⟨hlow, hhigh, hshift⟩
  · exact .inl hsame.symm
  · exact .inr ⟨hshift, hlow, hhigh⟩

theorem kelvinToLower_eq_slash (c : Char) : kelvinToLower c = '/' ↔ c = '/' := by
  constructor
  · intro h
    rcases kelvinToLower_cases h (by decide) with hsame | ⟨hshift, hlow, -⟩
    · exact hsame
    · have hnat : ('/' : Char).toNat = 47 := rfl
      omega
  · rintro rfl
    decide

/-- A path in other letters, and one in which the fourth byte happens to be a boundary too. -/
theorem kelvin_paths_matched :
    MatchesRight kelvinPlatform (ofBytes (bytes "k/a/*")) (ofBytes (bytes "K/A/x")) ∧
    MatchesRight kelvinPlatform (ofBytes (bytes "\u212a/*")) (ofBytes (bytes "k/x/y")) ∧
    nwpPathMatches kelvinPlatform "k/a/*" "K/A/x" = .matched := by
  have hright := @nwpPathMatches_right_iff _ kelvinPlatform kelvinToLower_eq_slash
  have hread : ∀ text : String, ofBytes (bytes text) = (text : GoString) := fun _ => ofBytes_bytes _
  refine ⟨(hright _ _).mpr ?_, (hright _ _).mpr ?_, by decide⟩ <;> rw [hread, hread] <;> rintro stem ⟨⟩ -
  · exact ⟨by decide, Iff.rfl⟩
  · exact ⟨by decide, iff_of_true (.inr rfl) (.inr rfl)⟩

/-- A prefix of two Kelvin signs is six bytes long and is in lower case the prefix of a path of four bytes; one
Kelvin sign covers a path in which the fourth byte is a slash. -/
theorem kelvin_pattern_mismatches : nwpPathMatches kelvinPlatform "\u212a\u212a/*" "kkkk" = .indexOutOfRange ∧
      nwpPathMatches kelvinPlatform "\u212a/*" "kab/x" = .matched ∧
      ¬ Covers kelvinPlatform "\u212a/*" "kab/x" := by
  have hstem : patternPrefix ("\u212a/*" : GoString) = some "\u212a" := by decide
  rw [covers_iff_of_patternPrefix hstem]
  decide

end NpsSdk.Nip
