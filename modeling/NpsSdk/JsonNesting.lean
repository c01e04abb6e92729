import NpsSdk.JsonText

/-! How deep documents are nested, entry by entry, and what a decoder reads within its limit: documents
that are nested no deeper and have the form they would come back in. -/

namespace NpsSdk.JsonValue

variable {N : Type} {n : Nat} {items : List (JsonValue N)} {fields : List (String × JsonValue N)}

theorem depthItems_le : depthItems items ≤ n ↔ ∀ v ∈ items, depth v ≤ n := by
  induction items with
  | nil => simp [depthItems]
  | cons v items ih => simp [depthItems, ih]

theorem depthFields_le : depthFields fields ≤ n ↔ ∀ field ∈ fields, depth field.2 ≤ n := by
  induction fields with
  | nil => simp [depthFields]
  | cons field fields ih => simp [depthFields, ih]

theorem depth_array_le : depth (.array items) ≤ n + 1 ↔ ∀ v ∈ items, depth v ≤ n := by
  rw [depth, Nat.add_le_add_iff_right, depthItems_le]

theorem depth_object_le : depth (.object fields) ≤ n + 1 ↔ ∀ field ∈ fields, depth field.2 ≤ n := by
  rw [depth, Nat.add_le_add_iff_right, depthFields_le]

theorem depth_ofMap_le {m : GoMap (JsonValue N)} :
    depth (.ofMap m) ≤ n + 1 ↔ ∀ (key : String) (v : JsonValue N), m[key]? = some v → depth v ≤ n := by
  rw [ofMap, depth_object_le]
  constructor
  · intro h key v hv
    exact h (key, v) (Std.ExtTreeMap.mem_toList_iff_getElem?_eq_some.mpr hv)
  · intro h field hfield
    exact h field.1 field.2 (Std.ExtTreeMap.mem_toList_iff_getElem?_eq_some.mp hfield)

/-- What a decoder makes of text, nested within a bound. -/
inductive Read : Nat → JsonValue N → Prop
  | null {limit : Nat} : Read limit .null
  | bool {limit : Nat} (b : Bool) : Read limit (.bool b)
  | number {limit : Nat} (n : N) : Read limit (.number n)
  | string {limit : Nat} (cs : List Char) : Read limit (.string (GoString.ofChars cs))
  | array {limit : Nat} {items : List (JsonValue N)} (h : ∀ v ∈ items, Read limit v) : Read (limit + 1) (.array items)
  | object {limit : Nat} {fields : List (String × JsonValue N)} (h : ∀ field ∈ fields, Read limit field.2) :
      Read (limit + 1) (.ofMap (toMap fields))

namespace Read

theorem depth_le {limit : Nat} {v : JsonValue N} (h : Read limit v) : depth v ≤ limit := by
  induction h with
  | null | bool | number | string => exact Nat.zero_le _
  | array _ ih => exact depth_array_le.mpr ih
  | object _ ih => exact depth_ofMap_le.mpr fun key v hv => ih (key, v) (GoMap.mem_of_getElem?_ofList hv)

end Read

section

variable (fmt : NumberFormat N) {v : JsonValue N}

theorem read_of_parseLiteral {text rest : List Char} (limit : Nat) (h : parseLiteral text = some (v, rest)) :
    Read limit v := by
  unfold parseLiteral at h
  split at h
  · cases h
    exact .null
  · cases h
    exact .bool true
  · cases h
    exact .bool false
  · cases h

theorem read_of_parse (fuel : Nat) : (∀ {limit : Nat} {text rest : List Char} {v : JsonValue N},
      parseValue fmt fuel limit text = some (v, rest) → Read limit v) ∧
    (∀ {limit : Nat} {text rest : List Char} {items : List (JsonValue N)},
      parseItems fmt fuel limit text = some (items, rest) → ∀ v ∈ items, Read limit v) ∧
    (∀ {limit : Nat} {text rest : List Char} {fields : List (String × JsonValue N)},
      parseFields fmt fuel limit text = some (fields, rest) → ∀ field ∈ fields, Read limit field.2) := by
  induction fuel with
  | zero => exact ⟨fun h => (by cases h), fun h => (by cases h), fun h => (by cases h)⟩
  | succ fuel ih =>
    obtain ⟨hvalue, hitems, hfields⟩ := ih
    refine ⟨?_, ?_, ?_⟩
    · intro limit text rest v h
      rw [parseValue] at h
      split at h
      · cases h
      split_ifs at h with hquote hbracket hbrace hnumber
      · obtain ⟨p, -, heq⟩ := Option.map_eq_some_iff.mp h
        cases heq
        exact .string p.1
      · cases limit with
        | zero => cases h
        | succ limit =>
          dsimp only at h
          split at h
          · cases h
            exact .array (List.forall_mem_nil _)
          split at h
          · cases h
          rename_i w rest' hw
          obtain ⟨p, hp, heq⟩ := Option.map_eq_some_iff.mp h
          cases heq
          exact .array (List.forall_mem_cons.mpr ⟨hvalue hw, hitems hp⟩)
      · cases limit with
        | zero => cases h
        | succ limit =>
          dsimp only at h
          split at h
          · cases h
            exact .object (List.forall_mem_nil _)
          split at h
          · cases h
          split at h
          · cases h
          rename_i w rest' hw
          obtain ⟨p, hp, heq⟩ := Option.map_eq_some_iff.mp h
          cases heq
          exact .object (List.forall_mem_cons.mpr ⟨hvalue hw, hfields hp⟩)
      · obtain ⟨n, -, heq⟩ := Option.map_eq_some_iff.mp h
        cases heq
        exact .number n
      · exact read_of_parseLiteral limit h
    · intro limit text rest items h
      rw [parseItems] at h
      split at h
      · cases h
        exact List.forall_mem_nil _
      · split at h
        · cases h
        rename_i w rest' hw
        obtain ⟨p, hp, heq⟩ := Option.map_eq_some_iff.mp h
        cases heq
        exact List.forall_mem_cons.mpr ⟨hvalue hw, hitems hp⟩
      · cases h
    · intro limit text rest fields h
      rw [parseFields] at h
      split at h
      · cases h
        exact List.forall_mem_nil _
      · split at h
        · cases h
        split at h
        · cases h
        rename_i w rest' hw
        obtain ⟨p, hp, heq⟩ := Option.map_eq_some_iff.mp h
        cases heq
        exact List.forall_mem_cons.mpr ⟨hvalue hw, hfields hp⟩
      · cases h

theorem read_of_unmarshal {text : GoString} (h : unmarshal fmt text = some v) : Read maxNestingDepth v := by
  rw [unmarshal, parseDocument] at h
  split at h
  · rename_i w rest hparse
    split_ifs at h
    cases h
    exact (read_of_parse fmt _).1 hparse
  · cases h

end

end NpsSdk.JsonValue
