import NpsSdk.GoMap
import NpsSdk.GoString

/-! JSON text as Go's `encoding/json` writes and reads it: `marshal` lists the entries of an object in the
order given, which for a map is that of its keys, escapes what HTML would misread and writes the
replacement character for a byte that is no text; `unmarshal` skips white space, keeps the last of two entries of one
name and gives up beyond a nesting depth. How a number is written stays open. -/

namespace NpsSdk

open List GoString Option Nat

/-- A value that is marshalled or has been read. A map is the object that lists its entries by key. -/
inductive JsonValue (N : Type) where
  | null
  | bool (b : Bool)
  | number (n : N)
  | string (s : GoString)
  | array (items : List (JsonValue N))
  | object (fields : List (String × JsonValue N))

def isNumberChar (c : Char) : Bool := c.isDigit || c = '-' || c = '+' || c = '.' || c = 'e' || c = 'E'

structure NumberFormat (N : Type) where
  format : N → List Char
  parse : List Char → Option N
  parse_format : ∀ n, parse (format n) = some n
  format_ne_nil : ∀ n, format n ≠ []
  isNumberChar_of_mem : ∀ n, ∀ c ∈ format n, isNumberChar c = true
  parse_nat : ∀ n < 2 ^ 64, (parse (toDigits 10 n)).isSome = true

/-- A number kept as it was written. -/
abbrev JsonNumber := { text : List Char // text ≠ [] ∧ ∀ c ∈ text, isNumberChar c = true }

def jsonNumber : NumberFormat JsonNumber where
  format n := n.1
  parse text := if h : text ≠ [] ∧ ∀ c ∈ text, isNumberChar c = true then some ⟨text, h⟩ else none
  parse_format n := dif_pos n.2
  format_ne_nil n := n.2.1
  isNumberChar_of_mem n := n.2.2
  parse_nat n _ := by
    have hdigits : ∀ c ∈ toDigits 10 n, isNumberChar c = true := fun c hc => by
      rw [isNumberChar, isDigit_of_mem_toDigits (by decide) (by decide) hc]
      rfl
    rw [dif_pos ⟨toDigits_ne_nil, hdigits⟩]
    rfl

namespace JsonValue

variable {N : Type}

/-- The entries of an object; a later entry of the same name replaces an earlier one. -/
def toMap (fields : List (String × JsonValue N)) : GoMap (JsonValue N) :=
  fields.foldl (fun m field => m.insert field.1 field.2) ∅

def ofMap (m : GoMap (JsonValue N)) : JsonValue N := .object m.toList

/-! ### Writing -/

def hexDigit (n : Nat) : Char := if n < 10 then Char.ofNat (48 + n) else Char.ofNat (87 + n)

def unicodeEscape (n : Nat) : List Char :=
  ['\\', 'u', hexDigit (n / 4096 % 16), hexDigit (n / 256 % 16), hexDigit (n / 16 % 16), hexDigit (n % 16)]

/-- The characters that have a short escape, with the letter of it. -/
def shortEscape (c : Char) : Option Char :=
  if c = '"' then some '"'
  else if c = '\\' then some '\\'
  else if c = '\x08' then some 'b'
  else if c = '\x0c' then some 'f'
  else if c = '\n' then some 'n'
  else if c = '\r' then some 'r'
  else if c = '\t' then some 't'
  else none

/-- Control characters, what HTML treats as markup, and the two line separators of JavaScript. -/
def isEscaped (c : Char) : Bool :=
  c.toNat < 32 || c = '<' || c = '>' || c = '&' || c.toNat = 0x2028 || c.toNat = 0x2029

def escapeChar (c : Char) : List Char :=
  match shortEscape c with
  | some letter => ['\\', letter]
  | none => if isEscaped c then unicodeEscape c.toNat else [c]

def escapeRune : GoRune → List Char
  | .char c => escapeChar c
  | .byte _ => unicodeEscape 0xfffd

def quoteTail (s : GoString) : List Char := s.flatMap escapeRune ++ ['"']

section

variable (fmt : NumberFormat N)

mutual

def marshal : JsonValue N → List Char
  | .null => ['n', 'u', 'l', 'l']
  | .bool true => ['t', 'r', 'u', 'e']
  | .bool false => ['f', 'a', 'l', 's', 'e']
  | .number n => fmt.format n
  | .string s => '"' :: quoteTail s
  | .array [] => ['[', ']']
  | .array (v :: items) => '[' :: (marshal v ++ marshalItems items)
  | .object [] => ['{', '}']
  | .object ((key, v) :: fields) =>
    '{' :: '"' :: (quoteTail (ofString key) ++ ':' :: (marshal v ++ marshalFields fields))

/-- The items after the first, up to the closing bracket. -/
def marshalItems : List (JsonValue N) → List Char
  | [] => [']']
  | v :: items => ',' :: (marshal v ++ marshalItems items)

/-- The entries after the first, up to the closing brace. -/
def marshalFields : List (String × JsonValue N) → List Char
  | [] => ['}']
  | (key, v) :: fields =>
    ',' :: '"' :: (quoteTail (ofString key) ++ ':' :: (marshal v ++ marshalFields fields))

end

end

/-! ### Reading -/

def isSpace (c : Char) : Bool := c = ' ' || c = '\t' || c = '\r' || c = '\n'

def skipSpace (text : List Char) : List Char := text.dropWhile isSpace

def hexValue (c : Char) : Option Nat :=
  if c.isDigit then some (c.toNat - 48)
  else if 97 ≤ c.toNat ∧ c.toNat ≤ 102 then some (c.toNat - 87)
  else if 65 ≤ c.toNat ∧ c.toNat ≤ 70 then some (c.toNat - 55)
  else none

def hexValue4 (a b c d : Char) : Option Nat := do
  return ((← hexValue a) * 16 + (← hexValue b)) * 256 + (← hexValue c) * 16 + (← hexValue d)

def unescapeLetter (c : Char) : Option Char :=
  if c = '"' then some '"'
  else if c = '\\' then some '\\'
  else if c = '/' then some '/'
  else if c = 'b' then some '\x08'
  else if c = 'f' then some '\x0c'
  else if c = 'n' then some '\n'
  else if c = 'r' then some '\r'
  else if c = 't' then some '\t'
  else none

def isHighSurrogate (n : Nat) : Bool := 0xd800 ≤ n && n < 0xdc00

def isLowSurrogate (n : Nat) : Bool := 0xdc00 ≤ n && n < 0xe000

/-- What stands for one code unit in a string: a character or a numbered escape. -/
inductive StringUnit where
  | char (c : Char)
  | escape (n : Nat)

/-- The units of a string up to its closing quote, and what follows. -/
def parseUnits : List Char → Option (List StringUnit × List Char)
  | [] => none
  | '"' :: rest => some ([], rest)
  | '\\' :: 'u' :: a :: b :: c :: d :: rest =>
    match hexValue4 a b c d with
    | none => none
    | some n => (parseUnits rest).map fun p => (.escape n :: p.1, p.2)
  | '\\' :: e :: rest =>
    match unescapeLetter e with
    | none => none
    | some c => (parseUnits rest).map fun p => (.char c :: p.1, p.2)
  | c :: rest => if c.toNat < 32 then none else (parseUnits rest).map fun p => (.char c :: p.1, p.2)

def loneEscape (n : Nat) : Char := if isLowSurrogate n then replacement else Char.ofNat n

def joinSurrogates (high low : Nat) : Char :=
  Char.ofNat (0x10000 + (high - 0xd800) * 1024 + (low - 0xdc00))

/-- The text of the units, with a high surrogate that waits for its partner. One that is not part of a
pair is replaced. -/
def joinUnits : Option Nat → List StringUnit → List Char
  | none, [] => []
  | some _, [] => [replacement]
  | none, .char c :: units => c :: joinUnits none units
  | some _, .char c :: units => replacement :: c :: joinUnits none units
  | none, .escape n :: units =>
    if isHighSurrogate n then joinUnits (some n) units else loneEscape n :: joinUnits none units
  | some high, .escape n :: units =>
    if isLowSurrogate n then joinSurrogates high n :: joinUnits none units
    else if isHighSurrogate n then replacement :: joinUnits (some n) units
    else replacement :: loneEscape n :: joinUnits none units

def parseString (text : List Char) : Option (List Char × List Char) :=
  (parseUnits text).map fun p => (joinUnits none p.1, p.2)

def parseName (text : List Char) : Option (List Char × List Char) :=
  match skipSpace text with
  | '"' :: rest =>
    match parseString rest with
    | some (name, rest) =>
      match skipSpace rest with
      | ':' :: rest => some (name, rest)
      | _ => none
    | none => none
  | _ => none

section

variable (fmt : NumberFormat N)

def parseNumber (text : List Char) : Option (JsonValue N × List Char) :=
  (fmt.parse (text.takeWhile isNumberChar)).map fun n => (.number n, text.dropWhile isNumberChar)

def parseLiteral : List Char → Option (JsonValue N × List Char)
  | 'n' :: 'u' :: 'l' :: 'l' :: rest => some (.null, rest)
  | 't' :: 'r' :: 'u' :: 'e' :: rest => some (.bool true, rest)
  | 'f' :: 'a' :: 'l' :: 's' :: 'e' :: rest => some (.bool false, rest)
  | _ => none

mutual

/-- A value and what follows it. The first number bounds the work, the second the nesting. -/
def parseValue : Nat → Nat → List Char → Option (JsonValue N × List Char)
  | 0, _, _ => none
  | fuel + 1, depth, text =>
    match skipSpace text with
    | [] => none
    | c :: rest =>
      if c = '"' then
        (parseString rest).map fun p => (.string (ofChars p.1), p.2)
      else if c = '[' then
        match depth with
        | 0 => none
        | depth + 1 =>
          match skipSpace rest with
          | ']' :: rest => some (.array [], rest)
          | rest =>
            match parseValue fuel depth rest with
            | none => none
            | some (v, rest) =>
              (parseItems fuel depth rest).map fun p => (.array (v :: p.1), p.2)
      else if c = '{' then
        match depth with
        | 0 => none
        | depth + 1 =>
          match skipSpace rest with
          | '}' :: rest => some (.object [], rest)
          | rest =>
            match parseName rest with
            | none => none
            | some (name, rest) =>
              match parseValue fuel depth rest with
              | none => none
              | some (v, rest) =>
                (parseFields fuel depth rest).map fun p =>
                  (ofMap (toMap ((String.ofList name, v) :: p.1)), p.2)
      else if isNumberChar c then parseNumber fmt (c :: rest)
      else parseLiteral (c :: rest)

/-- The items after the first and what follows the closing bracket. -/
def parseItems : Nat → Nat → List Char → Option (List (JsonValue N) × List Char)
  | 0, _, _ => none
  | fuel + 1, depth, text =>
    match skipSpace text with
    | ']' :: rest => some ([], rest)
    | ',' :: rest =>
      match parseValue fuel depth rest with
      | none => none
      | some (v, rest) => (parseItems fuel depth rest).map fun p => (v :: p.1, p.2)
    | _ => none

/-- The entries after the first and what follows the closing brace. -/
def parseFields : Nat → Nat → List Char → Option (List (String × JsonValue N) × List Char)
  | 0, _, _ => none
  | fuel + 1, depth, text =>
    match skipSpace text with
    | '}' :: rest => some ([], rest)
    | ',' :: rest =>
      match parseName rest with
      | none => none
      | some (name, rest) =>
        match parseValue fuel depth rest with
        | none => none
        | some (v, rest) =>
          (parseFields fuel depth rest).map fun p => ((String.ofList name, v) :: p.1, p.2)
    | _ => none

end

/-- A document that is one value, nested no deeper than given. -/
def parseDocument (maxDepth : Nat) (text : List Char) : Option (JsonValue N) :=
  match parseValue fmt (text.length + 1) maxDepth text with
  | some (v, rest) => if skipSpace rest = [] then some v else none
  | none => none

def maxNestingDepth : Nat := 10000

def unmarshal (text : GoString) : Option (JsonValue N) :=
  parseDocument fmt maxNestingDepth (toChars text)

end

/-! ### What is read back -/

mutual

/-- A value as it comes back: stray bytes are replaced and objects list their entries by key. -/
def normal : JsonValue N → JsonValue N
  | .string s => .string (ofChars (toChars s))
  | .array items => .array (normalItems items)
  | .object fields => ofMap (toMap (normalFields fields))
  | .null => .null
  | .bool b => .bool b
  | .number n => .number n

def normalItems : List (JsonValue N) → List (JsonValue N)
  | [] => []
  | v :: items => normal v :: normalItems items

def normalFields : List (String × JsonValue N) → List (String × JsonValue N)
  | [] => []
  | (key, v) :: fields => (key, normal v) :: normalFields fields

end

mutual

def depth : JsonValue N → Nat
  | .array items => depthItems items + 1
  | .object fields => depthFields fields + 1
  | _ => 0

def depthItems : List (JsonValue N) → Nat
  | [] => 0
  | v :: items => max (depth v) (depthItems items)

def depthFields : List (String × JsonValue N) → Nat
  | [] => 0
  | (_, v) :: fields => max (depth v) (depthFields fields)

end

/-! ### Strings round trip -/

theorem hexValue_hexDigit : ∀ d < 16, hexValue (hexDigit d) = some d := by decide

def unitOf : GoRune → StringUnit
  | .char c => if shortEscape c = none ∧ isEscaped c then .escape c.toNat else .char c
  | .byte _ => .escape 0xfffd

theorem parseUnits_unicodeEscape {n : Nat} (hn : n < 65536) (text : List Char) : parseUnits (unicodeEscape n ++ text) =
      (parseUnits text).map fun p => (.escape n :: p.1, p.2) := by
  have hvalue : hexValue4 (hexDigit (n / 4096 % 16)) (hexDigit (n / 256 % 16))
      (hexDigit (n / 16 % 16)) (hexDigit (n % 16)) = some n := by
    have hmod : ∀ m, hexValue (hexDigit (m % 16)) = some (m % 16) :=
      fun m => hexValue_hexDigit _ (Nat.mod_lt _ (by decide))
    simp only [hexValue4, hmod, Option.pure_def, Option.bind_eq_bind, Option.bind_some, Option.some.injEq]
    omega
  simp [unicodeEscape, parseUnits, hvalue]

theorem parseUnits_shortEscape {c letter : Char} (h : shortEscape c = some letter) (text : List Char) :
    parseUnits ('\\' :: letter :: text) = (parseUnits text).map fun p => (.char c :: p.1, p.2) := by
  unfold shortEscape at h
  split_ifs at h with h₁ h₂ h₃ h₄ h₅ h₆ h₇ <;> cases h <;> subst_vars <;> rfl

theorem parseUnits_plain {c : Char} (hshort : shortEscape c = none) (hescaped : isEscaped c = false)
    (text : List Char) : parseUnits (c :: text) = (parseUnits text).map fun p => (.char c :: p.1, p.2) := by
  have hquote : c ≠ '"' := by
    rintro rfl
    cases hshort
  have hslash : c ≠ '\\' := by
    rintro rfl
    cases hshort
  have hcontrol : ¬ c.toNat < 32 := by
    intro hlt
    rw [isEscaped, decide_eq_true hlt] at hescaped
    cases hescaped
  rw [parseUnits.eq_def]
  split
  · simp_all
  · simp_all
  · simp_all
  · simp_all
  rename_i heq
  cases heq
  rw [if_neg hcontrol]

theorem isEscaped_lt {c : Char} (h : isEscaped c = true) : c.toNat < 65536 := by
  simp only [isEscaped, Bool.or_eq_true, decide_eq_true_eq] at h
  rcases h with ((((h | rfl) | rfl) | rfl) | h) | h
  · omega
  · decide
  · decide
  · decide
  · omega
  · omega

theorem parseUnits_escapeRune (r : GoRune) (text : List Char) : parseUnits (escapeRune r ++ text) =
      (parseUnits text).map fun p => (unitOf r :: p.1, p.2) := by
  cases r with
  | byte b => exact parseUnits_unicodeEscape (by decide) text
  | char c =>
    cases hshort : shortEscape c with
    | some =>
      simp only [escapeRune, escapeChar, hshort, unitOf]
      exact parseUnits_shortEscape hshort text
    | none =>
      cases hescaped : isEscaped c with
      | true =>
        simp only [escapeRune, escapeChar, hshort, hescaped, unitOf]
        exact parseUnits_unicodeEscape (isEscaped_lt hescaped) text
      | false =>
        simp only [escapeRune, escapeChar, hshort, hescaped, unitOf]
        exact parseUnits_plain hshort hescaped text

theorem parseUnits_quoteTail (s : GoString) (rest : List Char) :
    parseUnits (quoteTail s ++ rest) = some (s.map unitOf, rest) := by
  rw [quoteTail, append_assoc]
  induction s with
  | nil => rfl
  | cons r s ih => rw [flatMap_cons, append_assoc, parseUnits_escapeRune, ih]; rfl

theorem not_surrogate_of_isEscaped {c : Char} (h : isEscaped c = true) :
    isHighSurrogate c.toNat = false ∧ isLowSurrogate c.toNat = false := by
  simp only [isEscaped, Bool.or_eq_true, decide_eq_true_eq] at h
  simp only [isHighSurrogate, isLowSurrogate, Bool.and_eq_false_iff, decide_eq_false_iff_not]
  rcases h with ((((h | rfl) | rfl) | rfl) | h) | h
  · omega
  · decide
  · decide
  · decide
  · omega
  · omega

theorem joinUnits_unitOf (s : GoString) : joinUnits none (s.map unitOf) = toChars s := by
  induction s with
  | nil => rfl
  | cons r s ih =>
    cases r with
    | byte b => exact congrArg (replacement :: ·) ih
    | char c =>
      rw [map_cons, unitOf]
      split_ifs with h
      · obtain ⟨hhigh, hlow⟩ := not_surrogate_of_isEscaped h.2
        rw [joinUnits, hhigh, loneEscape, hlow, ih]
        exact congrArg (· :: _) (Char.ofNat_toNat c)
      · exact congrArg (c :: ·) ih

theorem parseString_quoteTail (s : GoString) (rest : List Char) :
    parseString (quoteTail s ++ rest) = some (toChars s, rest) := by
  rw [parseString, parseUnits_quoteTail, map_some, joinUnits_unitOf]

/-! ### Values round trip -/

section Format

variable (fmt : NumberFormat N)

/-- Text that does not go on with the characters of a number. -/
def EndsNumber (rest : List Char) : Prop := ∀ c ∈ rest.head?, isNumberChar c = false

/-- No value starts with white space or with a closing bracket. -/
theorem marshal_head (v : JsonValue N) : ∃ c text, marshal fmt v = c :: text ∧ isSpace c = false ∧ c ≠ ']' := by
  cases v with
  | null | string => exact ⟨_, _, rfl, by decide, by decide⟩
  | bool b => cases b <;> exact ⟨_, _, rfl, by decide, by decide⟩
  | array items => cases items <;> exact ⟨_, _, by rw [marshal], by decide, by decide⟩
  | object fields => cases fields <;> exact ⟨_, _, by rw [marshal], by decide, by decide⟩
  | number n =>
    obtain ⟨c, text, htext⟩ := exists_cons_of_ne_nil (fmt.format_ne_nil n)
    have hc := fmt.isNumberChar_of_mem n c (by rw [htext]; exact mem_cons_self)
    refine ⟨c, text, by rw [marshal, htext], ?_, ?_⟩
    · by_contra hspace
      rw [Bool.not_eq_false] at hspace
      simp only [isSpace, Bool.or_eq_true, decide_eq_true_eq] at hspace
      rcases hspace with ((rfl | rfl) | rfl) | rfl <;> cases hc
    · rintro rfl
      cases hc

theorem skipSpace_marshal (v : JsonValue N) (rest : List Char) :
    skipSpace (marshal fmt v ++ rest) = marshal fmt v ++ rest := by
  obtain ⟨c, text, htext, hspace, -⟩ := marshal_head fmt v
  rw [htext, cons_append, skipSpace, dropWhile_cons_of_neg (by rw [hspace]; decide)]

theorem length_marshal_pos (v : JsonValue N) : 0 < (marshal fmt v).length := by
  obtain ⟨c, text, htext, -, -⟩ := marshal_head fmt v
  rw [htext]
  exact succ_pos _

theorem parseNumber_format (n : N) {rest : List Char} (hrest : EndsNumber rest) :
    parseNumber fmt (fmt.format n ++ rest) = some (.number n, rest) := by
  have hall : ∀ c ∈ fmt.format n, isNumberChar c = true := fmt.isNumberChar_of_mem n
  have htake : rest.takeWhile isNumberChar = [] := by
    cases rest with
    | nil => rfl
    | cons c rest => exact takeWhile_cons_of_neg (by rw [hrest c rfl]; decide)
  have hdrop : rest.dropWhile isNumberChar = rest := by
    cases rest with
    | nil => rfl
    | cons c rest => exact dropWhile_cons_of_neg (by rw [hrest c rfl]; decide)
  rw [parseNumber, takeWhile_append_of_pos hall, dropWhile_append_of_pos hall, htake,
    hdrop, append_nil, fmt.parse_format]
  rfl

variable {fuel limit : Nat} {text rest rest' : List Char} {v : JsonValue N} {items : List (JsonValue N)}
  {fields : List (String × JsonValue N)}

theorem parseValue_number (n : N) {rest : List Char} (hrest : EndsNumber rest) :
    parseValue fmt (fuel + 1) limit (fmt.format n ++ rest) = some (.number n, rest) := by
  obtain ⟨c, text, htext⟩ := exists_cons_of_ne_nil (fmt.format_ne_nil n)
  have hc := fmt.isNumberChar_of_mem n c (by rw [htext]; exact mem_cons_self)
  have hskip := skipSpace_marshal fmt (.number n) rest
  rw [marshal, htext, cons_append] at hskip
  have hparse := parseNumber_format fmt n hrest
  rw [htext] at hparse
  have hne : c ≠ '"' ∧ c ≠ '[' ∧ c ≠ '{' := by
    refine ⟨?_, ?_, ?_⟩
    all_goals
      rintro rfl
      cases hc
  rw [htext, cons_append, parseValue, hskip]
  simp only [hne.1, hne.2.1, hne.2.2, hc]
  exact hparse

theorem parseName_quoteTail (key : String) (rest : List Char) :
    parseName ('"' :: (quoteTail (ofString key) ++ ':' :: rest)) = some (key.toList, rest) := by
  have hskip : skipSpace (':' :: rest) = ':' :: rest := rfl
  have hquote : ∀ text, skipSpace ('"' :: text) = '"' :: text := fun _ => rfl
  simp [parseName, hquote, parseString_quoteTail, hskip, ofString]

theorem endsNumber_marshalItems (items : List (JsonValue N)) (rest : List Char) :
    EndsNumber (marshalItems fmt items ++ rest) := by
  cases items <;>
  · intro c hc
    cases hc
    rfl

theorem endsNumber_marshalFields (fields : List (String × JsonValue N)) (rest : List Char) :
    EndsNumber (marshalFields fmt fields ++ rest) := by
  cases fields with
  | nil | cons =>
    intro c hc
    cases hc
    rfl

theorem parseValue_items (hskip : skipSpace text = text) (hhead : ']' ∉ text.head?)
    (hv : parseValue fmt fuel limit text = some (v, rest))
    (hitems : parseItems fmt fuel limit rest = some (items, rest')) :
    parseValue fmt (fuel + 1) (limit + 1) ('[' :: text) = some (.array (v :: items), rest') := by
  have hbracket : skipSpace ('[' :: text) = '[' :: text := rfl
  simp only [parseValue, hbracket, hskip, Char.reduceEq, if_true, if_false]
  split
  · exact absurd rfl hhead
  rw [hv]
  dsimp only
  rw [hitems, map_some]

section

variable (hv : parseValue fmt fuel limit text = some (v, rest))
include hv

theorem parseValue_fields {key : String}
    (hfields : parseFields fmt fuel limit rest = some (fields, rest')) : parseValue fmt (fuel + 1) (limit + 1)
        ('{' :: '"' :: (quoteTail (ofString key) ++ ':' :: text)) =
      some (ofMap (toMap ((key, v) :: fields)), rest') := by
  have hskip : ∀ text, skipSpace ('{' :: text) = '{' :: text := fun _ => rfl
  have hquote : ∀ text, skipSpace ('"' :: text) = '"' :: text := fun _ => rfl
  simp only [parseValue, hskip, hquote, Char.reduceEq, if_true]
  split
  · rename_i hclose
    cases hclose
  · simp [parseName_quoteTail, hv, hfields]

theorem parseItems_cons
    (hitems : parseItems fmt fuel limit rest = some (items, rest')) :
    parseItems fmt (fuel + 1) limit (',' :: text) = some (v :: items, rest') := by
  have hskip : ∀ text, skipSpace (',' :: text) = ',' :: text := fun _ => rfl
  simp only [parseItems, hskip, hv, hitems, Option.map_some]

theorem parseFields_cons {key : String}
    (hfields : parseFields fmt fuel limit rest = some (fields, rest')) : parseFields fmt (fuel + 1) limit
        (',' :: '"' :: (quoteTail (ofString key) ++ ':' :: text)) = some ((key, v) :: fields, rest') := by
  have hskip : ∀ text, skipSpace (',' :: text) = ',' :: text := fun _ => rfl
  simp [parseFields, hskip, parseName_quoteTail, hv, hfields]

end

mutual

/-- A marshalled value is read back, whatever follows it. -/
theorem parseValue_marshal : ∀ (v : JsonValue N) (fuel limit : Nat) (rest : List Char),
    (marshal fmt v).length ≤ fuel → depth v ≤ limit → EndsNumber rest →
    parseValue fmt fuel limit (marshal fmt v ++ rest) = some (normal v, rest)
  | v, 0, _, _, hfuel, _, _ => absurd (length_marshal_pos fmt v) (by omega)
  | .null, fuel + 1, _, _, _, _, _ => by rw [marshal, normal, parseValue]; rfl
  | .bool true, fuel + 1, _, _, _, _, _ => by rw [marshal, normal, parseValue]; rfl
  | .bool false, fuel + 1, _, _, _, _, _ => by rw [marshal, normal, parseValue]; rfl
  | .number n, fuel + 1, _, _, _, _, hrest => by
      rw [marshal, normal]
      exact parseValue_number fmt n hrest
  | .string s, fuel + 1, _, rest, _, _, _ => by
      have hskip : ∀ text, skipSpace ('"' :: text) = '"' :: text := fun _ => rfl
      rw [marshal, normal, cons_append, parseValue, hskip]
      simp only [if_true, parseString_quoteTail, map_some]
  | .array items, fuel + 1, 0, _, _, hdepth, _ => by simp [depth] at hdepth
  | .object fields, fuel + 1, 0, _, _, hdepth, _ => by simp [depth] at hdepth
  | .array [], fuel + 1, limit + 1, _, _, _, _ => by rw [marshal, normal, parseValue]; rfl
  | .object [], fuel + 1, limit + 1, _, _, _, _ => by rw [marshal, normal, parseValue]; rfl
  | .array (v :: items), fuel + 1, limit + 1, rest, hfuel, hdepth, _ => by
      rw [marshal, length_cons, length_append] at hfuel
      rw [depth, depthItems] at hdepth
      rw [marshal, normal, cons_append, append_assoc, normalItems]
      have hskip := skipSpace_marshal fmt v (marshalItems fmt items ++ rest)
      have hhead : ']' ∉ (marshal fmt v ++ (marshalItems fmt items ++ rest)).head? := by
        obtain ⟨c, text, htext, -, hc⟩ := marshal_head fmt v
        rw [htext]
        rintro ⟨⟩
        exact hc rfl
      exact parseValue_items fmt hskip hhead
        (parseValue_marshal v fuel limit _ (by omega) (by omega) (endsNumber_marshalItems fmt items rest))
        (parseItems_marshal items fuel limit rest (by omega) (by omega))
  | .object ((key, v) :: fields), fuel + 1, limit + 1, rest, hfuel, hdepth, _ => by
      simp only [marshal, length_cons, length_append] at hfuel
      rw [depth, depthFields] at hdepth
      simp only [marshal, cons_append, append_assoc]
      exact parseValue_fields fmt (parseValue_marshal v fuel limit _ (by omega) (by omega)
          (endsNumber_marshalFields fmt fields rest))
        (parseFields_marshal fields fuel limit rest (by omega) (by omega))

theorem parseItems_marshal : ∀ (items : List (JsonValue N)) (fuel limit : Nat) (rest : List Char),
    (marshalItems fmt items).length ≤ fuel → depthItems items ≤ limit →
    parseItems fmt fuel limit (marshalItems fmt items ++ rest) = some (normalItems items, rest)
  | [], 0, _, _, hfuel, _ => by simp [marshalItems] at hfuel
  | v :: items, 0, _, _, hfuel, _ => by simp [marshalItems] at hfuel
  | [], fuel + 1, _, _, _, _ => by rw [marshalItems, normalItems, parseItems]; rfl
  | v :: items, fuel + 1, limit, rest, hfuel, hdepth => by
      rw [marshalItems, length_cons, length_append] at hfuel
      rw [depthItems] at hdepth
      rw [marshalItems, cons_append, append_assoc]
      exact parseItems_cons fmt
        (parseValue_marshal v fuel limit _ (by omega) (by omega) (endsNumber_marshalItems fmt items rest))
        (parseItems_marshal items fuel limit rest (by omega) (by omega))

theorem parseFields_marshal : ∀ (fields : List (String × JsonValue N)) (fuel limit : Nat)
    (rest : List Char), (marshalFields fmt fields).length ≤ fuel → depthFields fields ≤ limit →
    parseFields fmt fuel limit (marshalFields fmt fields ++ rest) = some (normalFields fields, rest)
  | [], 0, _, _, hfuel, _ => by simp [marshalFields] at hfuel
  | (key, v) :: fields, 0, _, _, hfuel, _ => by simp [marshalFields] at hfuel
  | [], fuel + 1, _, _, _, _ => by rw [marshalFields, normalFields, parseFields]; rfl
  | (key, v) :: fields, fuel + 1, limit, rest, hfuel, hdepth => by
      simp only [marshalFields, length_cons, length_append] at hfuel
      rw [depthFields] at hdepth
      simp only [marshalFields, cons_append, append_assoc]
      exact parseFields_cons fmt (parseValue_marshal v fuel limit _ (by omega) (by omega)
          (endsNumber_marshalFields fmt fields rest))
        (parseFields_marshal fields fuel limit rest (by omega) (by omega))

end

/-- A marshalled document is read back up to normal form, if the nesting is allowed. -/
theorem parseDocument_marshal (v : JsonValue N) {limit : Nat} (hdepth : depth v ≤ limit) :
    parseDocument fmt limit (marshal fmt v) = some (normal v) := by
  have hparse := parseValue_marshal fmt v ((marshal fmt v).length + 1) limit [] (le_succ _) hdepth
    fun c hc => absurd hc (not_mem_none c)
  rw [append_nil] at hparse
  rw [parseDocument, hparse]
  rfl

theorem unmarshal_marshal (v : JsonValue N) (hdepth : depth v ≤ maxNestingDepth) :
    unmarshal fmt (ofChars (marshal fmt v)) = some (normal v) := by
  rw [unmarshal, toChars_ofChars, parseDocument_marshal fmt v hdepth]

/-- Values with the same text have the same normal form. -/
theorem normal_eq_of_marshal_eq {v w : JsonValue N} (h : marshal fmt v = marshal fmt w) : normal v = normal w := by
  have hv := parseDocument_marshal fmt v (le_max_left (depth v) (depth w))
  have hw := parseDocument_marshal fmt w (le_max_right (depth v) (depth w))
  rw [h, hw] at hv
  exact (some.inj hv).symm

/-- What is read within a bound on the nesting is read within a larger one. -/
theorem parse_mono (fuel : Nat) : (∀ {limit limit' : Nat} {text : List Char} {r}, limit ≤ limit' →
      parseValue fmt fuel limit text = some r → parseValue fmt fuel limit' text = some r) ∧
    (∀ {limit limit' : Nat} {text : List Char} {r}, limit ≤ limit' →
      parseItems fmt fuel limit text = some r → parseItems fmt fuel limit' text = some r) ∧
    (∀ {limit limit' : Nat} {text : List Char} {r}, limit ≤ limit' →
      parseFields fmt fuel limit text = some r → parseFields fmt fuel limit' text = some r) := by
  induction fuel with
  | zero => exact ⟨fun _ h => (by cases h), fun _ h => (by cases h), fun _ h => (by cases h)⟩
  | succ fuel ih =>
    obtain ⟨hvalue, hitems, hfields⟩ := ih
    refine ⟨?_, ?_, ?_⟩
    · intro limit limit' text r hle h
      rw [parseValue] at h ⊢
      split at h
      · cases h
      split_ifs at h ⊢ with hquote hbracket hbrace hnumber
      · exact h
      · cases limit with
        | zero => cases h
        | succ limit =>
          obtain ⟨limit', rfl⟩ := Nat.exists_eq_add_of_le' (Nat.le_trans (Nat.succ_pos limit) hle)
          have hle' : limit ≤ limit' := Nat.le_of_succ_le_succ hle
          dsimp only at h ⊢
          split at h
          · exact h
          split at h
          · cases h
          rename_i v rest' hv
          obtain ⟨p, hp, rfl⟩ := map_eq_some_iff.mp h
          rw [hvalue hle' hv]
          dsimp only
          rw [hitems hle' hp]
          rfl
      · cases limit with
        | zero => cases h
        | succ limit =>
          obtain ⟨limit', rfl⟩ := Nat.exists_eq_add_of_le' (Nat.le_trans (Nat.succ_pos limit) hle)
          have hle' : limit ≤ limit' := Nat.le_of_succ_le_succ hle
          dsimp only at h ⊢
          split at h
          · exact h
          split at h
          · cases h
          split at h
          · cases h
          rename_i v rest'' hv
          obtain ⟨p, hp, rfl⟩ := map_eq_some_iff.mp h
          rw [hvalue hle' hv]
          dsimp only
          rw [hfields hle' hp]
          rfl
      · exact h
      · exact h
    · intro limit limit' text r hle h
      rw [parseItems] at h ⊢
      split at h
      · exact h
      · split at h
        · cases h
        rename_i v rest' hv
        rw [hvalue hle hv]
        obtain ⟨p, hp, rfl⟩ := map_eq_some_iff.mp h
        dsimp only
        rw [hitems hle hp]
        rfl
      · cases h
    · intro limit limit' text r hle h
      rw [parseFields] at h ⊢
      split at h
      · exact h
      · split at h
        · cases h
        split at h
        · cases h
        rename_i v rest'' hv
        rw [hvalue hle hv]
        obtain ⟨p, hp, rfl⟩ := map_eq_some_iff.mp h
        dsimp only
        rw [hfields hle hp]
        rfl
      · cases h

/-- Whatever is read from a marshalled value is its normal form. -/
theorem eq_normal_of_unmarshal {v w : JsonValue N}
    (h : unmarshal fmt (ofChars (marshal fmt v)) = some w) : w = normal v := by
  have hmarshal := parseDocument_marshal fmt v (le_max_right maxNestingDepth (depth v))
  rw [unmarshal, toChars_ofChars, parseDocument] at h
  rw [parseDocument] at hmarshal
  split at h
  · rename_i x rest hparse
    rw [(parse_mono fmt _).1 (le_max_left _ _) hparse] at hmarshal
    dsimp only at hmarshal
    rw [hmarshal] at h
    exact (some.inj h).symm
  · cases h

end Format

/-! ### Maps -/

theorem toMap_toList (m : GoMap (JsonValue N)) : toMap m.toList = m := GoMap.ofList_toList m

theorem normalFields_eq_map (fields : List (String × JsonValue N)) :
    normalFields fields = fields.map fun field => (field.1, normal field.2) :=
  eq_map_of_cons rfl (fun _ _ => rfl) fields

theorem normalItems_eq_map (items : List (JsonValue N)) : normalItems items = items.map normal :=
  eq_map_of_cons rfl (fun _ _ => rfl) items

theorem normal_ofMap (m : GoMap (JsonValue N)) : normal (ofMap m) = ofMap (m.map fun _ v => normal v) := by
  rw [ofMap, normal, normalFields_eq_map, ← Std.ExtTreeMap.toList_map (f := fun _ v => normal v), toMap_toList]

variable {m m' : GoMap (JsonValue N)}

theorem ofMap_injective (h : ofMap m = ofMap m') : m = m' :=
  Std.ExtTreeMap.toList_inj.mp (JsonValue.object.inj h)

/-- Maps with the same text have the same entries up to normal form. -/
theorem map_normal_eq_of_marshal_eq (fmt : NumberFormat N) (h : marshal fmt (ofMap m) = marshal fmt (ofMap m'))
    (key : String) : m[key]?.map normal = m'[key]?.map normal := by
  have hnormal := normal_eq_of_marshal_eq fmt h
  rw [normal_ofMap, normal_ofMap] at hnormal
  have hkey := congrArg (·[key]?) (ofMap_injective hnormal)
  simpa only [Std.ExtTreeMap.getElem?_map] using hkey

end JsonValue

end NpsSdk
