import NpsSdk.GoEncoding

/-! The canonical text an anchor id is computed over, and what RFC 8785 prescribes for it. The code writes
strings with `encoding/json` and means to undo the escapes that are for HTML, but the replacer that is to do so
replaces three characters by themselves. -/

namespace NpsSdk.Core

open JsonValue List GoDict

section

variable {T : Type}

/-! ### The text of a schema -/

def jcsStr : GoAny T → GoString
  | .string s => s
  | _ => []

def unescapeHTML (text : List Char) : List Char :=
  text.map fun c => if c = '<' then '<' else if c = '>' then '>' else if c = '&' then '&' else c

def writeJCSString (s : GoString) : List Char := unescapeHTML ('"' :: quoteTail s)

def isNullable (fm : GoDict T) : Bool :=
  match GoDict.get fm "nullable" with
  | .bool b => b
  | _ => false

/-- A field, with strings written as given. -/
def fieldText (write : GoString → List Char) (fm : GoDict T) : List Char :=
  "\x7b\"name\":".toList ++ (write (jcsStr (get fm "name")) ++
    (",\"nullable\":".toList ++ ((if isNullable fm then "true".toList else "false".toList) ++
      ((if jcsStr (get fm "semantic") = [] then []
        else ",\"semantic\":".toList ++ write (jcsStr (get fm "semantic"))) ++
          (",\"type\":".toList ++ (write (jcsStr (get fm "type")) ++ "\x7d".toList))))))

def schemaText (write : GoString → List Char) (fields : List (GoDict T)) : List Char :=
  "\x7b\"fields\":[".toList ++ ([','].intercalate (fields.map (fieldText write)) ++ "]\x7d".toList)

def fieldMaps (schema : FrameDict T) : Option (List (GoDict T)) :=
  match schema["fields"]? with
  | some (.slice items) => items.mapM GoAny.asMap
  | some (.maps items) => items.mapM GoAny.asMap
  | some (.nilOf .slice) => some []
  | some (.nilOf .maps) => some []
  | _ => none

def canonicalFrameSchemaJSON (schema : FrameDict T) : Option (List Char) :=
  (fieldMaps schema).map (schemaText writeJCSString)

/-! ### RFC 8785 -/

/-- A character of a string: the short escapes, `\u00xx` for other control characters, and else itself. -/
def jcsEscape (c : Char) : List Char :=
  match shortEscape c with
  | some letter => ['\\', letter]
  | none => if c.toNat < 32 then unicodeEscape c.toNat else [c]

def jcsString (s : GoString) : List Char := '"' :: ((GoString.toChars s).flatMap jcsEscape ++ ['"'])

/-- The UTF-16 code units of a name, by which members are sorted. -/
def utf16 (s : String) : List Nat :=
  s.toList.flatMap fun c =>
    if c.toNat < 0x10000 then [c.toNat]
    else [0xd800 + (c.toNat - 0x10000) / 1024, 0xdc00 + (c.toNat - 0x10000) % 1024]

def jcsObject (members : List (String × List Char)) : List Char :=
  '{' :: ([','].intercalate ((members.insertionSort fun a b => utf16 a.1 ≤ utf16 b.1).map fun m =>
    jcsString m.1 ++ ':' :: m.2) ++ ['}'])

def jcsField (fm : GoDict T) : List Char :=
  jcsObject ([("name", jcsString (jcsStr (get fm "name"))), ("type", jcsString (jcsStr (get fm "type"))),
    ("nullable", if isNullable fm then "true".toList else "false".toList)] ++
      (if jcsStr (get fm "semantic") = [] then []
        else [("semantic", jcsString (jcsStr (get fm "semantic")))]))

def jcsSchema (fields : List (GoDict T)) : List Char :=
  jcsObject [("fields", '[' :: ([','].intercalate (fields.map jcsField) ++ [']']))]

theorem sorted_members (name type nullable : List Char) (semantic : List (String × List Char))
    (hsemantic : semantic = [] ∨ ∃ text, semantic = [("semantic", text)]) :
    ([("name", name), ("type", type), ("nullable", nullable)] ++ semantic).insertionSort
        (fun a b => utf16 a.1 ≤ utf16 b.1) =
      [("name", name), ("nullable", nullable)] ++ semantic ++ [("type", type)] := by
  have h₁ : utf16 "type" ≤ utf16 "nullable" ↔ False := by decide
  have h₂ : utf16 "name" ≤ utf16 "nullable" ↔ True := by decide
  have h₃ : utf16 "nullable" ≤ utf16 "semantic" ↔ True := by decide
  have h₄ : utf16 "type" ≤ utf16 "semantic" ↔ False := by decide
  rcases hsemantic with rfl | ⟨text, rfl⟩ <;>
    simp [h₁, h₂, h₃, h₄]

theorem jcsField_eq (fm : GoDict T) : jcsField fm = fieldText jcsString fm := by
  have hname : "\x7b\"name\":".toList = '{' :: (jcsString "name" ++ [':']) := by decide
  have hnullable : ",\"nullable\":".toList = ',' :: (jcsString "nullable" ++ [':']) := by decide
  have hsemantic : ",\"semantic\":".toList = ',' :: (jcsString "semantic" ++ [':']) := by decide
  have htype : ",\"type\":".toList = ',' :: (jcsString "type" ++ [':']) := by decide
  unfold jcsField fieldText jcsObject
  rw [hname, hnullable, hsemantic, htype]
  by_cases hempty : jcsStr (get fm "semantic") = []
  · rw [if_pos hempty, if_pos hempty, sorted_members _ _ _ _ (.inl rfl)]
    simp [List.intercalate]
  · rw [if_neg hempty, if_neg hempty, sorted_members _ _ _ _ (.inr ⟨_, rfl⟩)]
    simp [List.intercalate]

theorem jcsSchema_eq (fields : List (GoDict T)) : jcsSchema fields = schemaText jcsString fields := by
  have hfields : "\x7b\"fields\":[".toList = '{' :: (jcsString "fields" ++ [':', '[']) := by decide
  have hmap : fields.map jcsField = fields.map (fieldText jcsString) := map_congr_left fun fm _ => jcsField_eq fm
  unfold jcsSchema schemaText jcsObject
  rw [hfields, hmap]
  simp [List.intercalate]

/-! ### Where the code departs from it -/

/-- The characters that `encoding/json` escapes and RFC 8785 does not. -/
def isHtmlEscaped (c : Char) : Bool := c = '<' || c = '>' || c = '&' || c = '\u2028' || c = '\u2029'

def PlainForHtml (s : GoString) : Prop := ∀ c, .char c ∈ s → isHtmlEscaped c = false

/-- The second text is the first if something holds, and else it is longer. -/
def Exceeds (holds : Prop) (a b : List Char) : Prop := holds ∧ a = b ∨ ¬ holds ∧ a.length < b.length

theorem Exceeds.eq_iff {holds : Prop} {a b : List Char} (h : Exceeds holds a b) : b = a ↔ holds := by
  rcases h with ⟨hholds, heq⟩ | ⟨hnot, hlt⟩
  · exact iff_of_true heq.symm hholds
  · exact iff_of_false (fun heq => absurd hlt (by rw [heq]; exact Nat.lt_irrefl _)) hnot

theorem Exceeds.congr {holds holds' : Prop} {a b : List Char} (h : Exceeds holds a b) (hiff : holds ↔ holds') :
    Exceeds holds' a b := by
  rwa [← hiff]

theorem exceeds_self (a : List Char) : Exceeds True a a := .inl ⟨trivial, rfl⟩

theorem Exceeds.append {holds holds' : Prop} {a b c d : List Char} (h : Exceeds holds a b) (h' : Exceeds holds' c d) :
    Exceeds (holds ∧ holds') (a ++ c) (b ++ d) := by
  rcases h with ⟨hholds, rfl⟩ | ⟨hnot, hlt⟩
  · rcases h' with ⟨hholds', rfl⟩ | ⟨hnot', hlt'⟩
    · exact .inl ⟨⟨hholds, hholds'⟩, rfl⟩
    · exact .inr ⟨fun h => hnot' h.2, by rw [length_append, length_append]; omega⟩
  · have hle : c.length ≤ d.length := by
      rcases h' with ⟨-, rfl⟩ | ⟨-, hlt'⟩
      · exact Nat.le_refl _
      · exact Nat.le_of_lt hlt'
    exact .inr ⟨fun h => hnot h.1, by rw [length_append, length_append]; omega⟩

theorem exceeds_escape (c : Char) : Exceeds (isHtmlEscaped c = false) (jcsEscape c) (escapeChar c) := by
  cases hhtml : isHtmlEscaped c with
  | false =>
    refine .inl ⟨rfl, ?_⟩
    simp only [isHtmlEscaped, Bool.or_eq_false_iff, decide_eq_false_iff_not] at hhtml
    obtain ⟨⟨⟨⟨hlt, hgt⟩, hand⟩, hline⟩, hparagraph⟩ := hhtml
    have hline' : c.toNat ≠ 0x2028 := fun h => hline (Char.toNat_inj.mp h)
    have hparagraph' : c.toNat ≠ 0x2029 := fun h => hparagraph (Char.toNat_inj.mp h)
    have hescaped : isEscaped c = decide (c.toNat < 32) := by
      simp [isEscaped, hlt, hgt, hand, hline', hparagraph']
    rw [jcsEscape, escapeChar, hescaped]
    cases shortEscape c with
    | some => rfl
    | none => simp only [decide_eq_true_eq]
  | true =>
    refine .inr ⟨by decide, ?_⟩
    simp only [isHtmlEscaped, Bool.or_eq_true, decide_eq_true_eq] at hhtml
    rcases hhtml with (((rfl | rfl) | rfl) | rfl) | rfl <;> decide

theorem unescapeHTML_eq (text : List Char) : unescapeHTML text = text := by
  have hself : ∀ c : Char, (if c = '<' then '<' else if c = '>' then '>' else if c = '&' then '&' else c) = c := by
    intro c
    split_ifs <;> simp_all
  rw [unescapeHTML]
  simp only [hself, map_id']

theorem exceeds_string {s : GoString} (hvalid : s.Valid) :
    Exceeds (PlainForHtml s) (jcsString s) (writeJCSString s) := by
  have hchars : Exceeds (PlainForHtml s) ((GoString.toChars s).flatMap jcsEscape) (s.flatMap escapeRune) := by
    induction s with
    | nil => exact (exceeds_self []).congr ⟨nofun, fun _ => trivial⟩
    | cons r s ih =>
      have htail := ih fun r' hr' => hvalid r' (mem_cons_of_mem _ hr')
      cases r with
      | byte b => exact absurd rfl (hvalid _ mem_cons_self b)
      | char c =>
        refine ((exceeds_escape c).append htail).congr ?_
        constructor
        · rintro ⟨hc, hrest⟩ c' hc'
          rcases mem_cons.mp hc' with heq | hc'
          · cases heq
            exact hc
          · exact hrest c' hc'
        · exact fun h => ⟨h c mem_cons_self, fun c' hc' => h c' (mem_cons_of_mem _ hc')⟩
  rw [writeJCSString, unescapeHTML_eq]
  refine (((exceeds_self ['"']).append hchars).append (exceeds_self ['"'])).congr ?_
  rw [true_and, and_true]

def fieldStrings (fm : GoDict T) : List GoString :=
  [jcsStr (get fm "name"), jcsStr (get fm "semantic"), jcsStr (get fm "type")]

theorem exceeds_field {fm : GoDict T} (hvalid : ∀ s ∈ fieldStrings fm, s.Valid) :
    Exceeds (∀ s ∈ fieldStrings fm, PlainForHtml s) (fieldText jcsString fm) (fieldText writeJCSString fm) := by
  simp only [fieldStrings, forall_mem_cons, not_mem_nil, false_implies, implies_true, and_true] at hvalid ⊢
  obtain ⟨hname, hsemantic, htype⟩ := hvalid
  have hmiddle : Exceeds (PlainForHtml (jcsStr (get fm "semantic")))
      (if jcsStr (get fm "semantic") = [] then []
        else ",\"semantic\":".toList ++ jcsString (jcsStr (get fm "semantic")))
      (if jcsStr (get fm "semantic") = [] then []
        else ",\"semantic\":".toList ++ writeJCSString (jcsStr (get fm "semantic"))) := by
    split_ifs with hempty
    · rw [hempty]
      exact (exceeds_self []).congr ⟨nofun, fun _ => trivial⟩
    · exact ((exceeds_self _).append (exceeds_string hsemantic)).congr (iff_of_eq (true_and _))
  refine ((exceeds_self _).append ((exceeds_string hname).append ((exceeds_self _).append ((exceeds_self _).append
    (hmiddle.append ((exceeds_self _).append ((exceeds_string htype).append (exceeds_self _)))))))).congr ?_
  simp only [true_and, and_true]

theorem exceeds_intercalate {fields : List (GoDict T)} (hvalid : ∀ fm ∈ fields, ∀ s ∈ fieldStrings fm, s.Valid) :
    Exceeds (∀ fm ∈ fields, ∀ s ∈ fieldStrings fm, PlainForHtml s)
      ([','].intercalate (fields.map (fieldText jcsString)))
      ([','].intercalate (fields.map (fieldText writeJCSString))) := by
  induction fields with
  | nil => exact (exceeds_self []).congr ⟨nofun, fun _ => trivial⟩
  | cons fm fields ih =>
    have hfirst := exceeds_field (hvalid fm mem_cons_self)
    have hrest := ih fun fm hfm => hvalid fm (mem_cons_of_mem _ hfm)
    cases fields with
    | nil => simpa [List.intercalate] using hfirst
    | cons fm' fields =>
      have hboth := (hfirst.append (exceeds_self [','])).append hrest
      simpa [List.intercalate] using hboth

theorem exceeds_schema {fields : List (GoDict T)} (hvalid : ∀ fm ∈ fields, ∀ s ∈ fieldStrings fm, s.Valid) :
    Exceeds (∀ fm ∈ fields, ∀ s ∈ fieldStrings fm, PlainForHtml s) (jcsSchema fields)
      (schemaText writeJCSString fields) := by
  rw [jcsSchema_eq]
  refine ((exceeds_self _).append ((exceeds_intercalate hvalid).append (exceeds_self _))).congr ?_
  rw [true_and, and_true]

/-- The text of a schema whose strings are text is the one RFC 8785 prescribes exactly if no string of it has a
character that is escaped for HTML. -/
theorem canonicalFrameSchemaJSON_eq_iff {schema : FrameDict T} {fields : List (GoDict T)}
    (hfields : fieldMaps schema = some fields) (hvalid : ∀ fm ∈ fields, ∀ s ∈ fieldStrings fm, s.Valid) :
    canonicalFrameSchemaJSON schema = some (jcsSchema fields) ↔
      ∀ fm ∈ fields, ∀ s ∈ fieldStrings fm, PlainForHtml s := by
  rw [canonicalFrameSchemaJSON, hfields, Option.map_some, Option.some.injEq]
  exact (exceeds_schema hvalid).eq_iff

end

/-! ### Schemas of one field -/

variable (name : GoString)

def oneField : GoDict Empty := (∅ : GoDict Empty).insert "name" (.string name)

def oneFieldSchema : FrameDict Empty :=
  (∅ : FrameDict Empty).insert "fields" (.slice [.ofMap (oneField name)])

theorem fieldMaps_oneFieldSchema : fieldMaps (oneFieldSchema name) = some [oneField name] := by
  simp [fieldMaps, oneFieldSchema]

theorem fieldStrings_oneField : fieldStrings (oneField name) = [name, [], []] := by
  simp [fieldStrings, oneField, GoDict.get, jcsStr]

theorem forall_fieldStrings_oneField {P : GoString → Prop} {name : GoString} (hname : P name) (hnil : P []) :
    ∀ fm ∈ [oneField name], ∀ s ∈ fieldStrings fm, P s := by
  simp only [forall_mem_cons, not_mem_nil, false_implies, implies_true, and_true, fieldStrings_oneField]
  exact ⟨hname, hnil, hnil⟩

theorem plain_name_canonical : canonicalFrameSchemaJSON (oneFieldSchema "a") = some (jcsSchema [oneField "a"]) := by
  refine (canonicalFrameSchemaJSON_eq_iff (fieldMaps_oneFieldSchema "a") ?_).mpr ?_
  · exact forall_fieldStrings_oneField (GoString.valid_ofChars _) (GoString.valid_ofChars [])
  · refine forall_fieldStrings_oneField ?_ nofun
    intro c hc
    cases mem_singleton.mp hc
    rfl

/-- The name `<` is written as an escape. -/
theorem markup_name_not_canonical :
    canonicalFrameSchemaJSON (oneFieldSchema "<") ≠ some (jcsSchema [oneField "<"]) := by
  have hexceeds := exceeds_schema
    (@forall_fieldStrings_oneField GoString.Valid "<" (GoString.valid_ofChars _) (GoString.valid_ofChars []))
  rw [canonicalFrameSchemaJSON, fieldMaps_oneFieldSchema, Option.map_some, ne_eq, Option.some.injEq, hexceeds.eq_iff]
  intro hplain
  have hname := hplain _ mem_cons_self "<" (by rw [fieldStrings_oneField]; exact mem_cons_self) '<'
  cases hname mem_cons_self

end NpsSdk.Core
