import NpsSdk.Float64
import NpsSdk.GoMap
import NpsSdk.GoString

/-! Go values held in an `any`, with the Go type a type switch sees. The decoders give back only some of
these types; a program may put any of them into a frame. Values of types that no modelled function looks
into are left open. -/

namespace NpsSdk

inductive IntKind where
  | int | int8 | int16 | int32 | int64
  | uint | uint8 | uint16 | uint32 | uint64
  deriving DecidableEq

namespace IntKind

def lower : IntKind → Int
  | .int | .int64 => -2 ^ 63
  | .int8 => -2 ^ 7
  | .int16 => -2 ^ 15
  | .int32 => -2 ^ 31
  | .uint | .uint8 | .uint16 | .uint32 | .uint64 => 0

def upper : IntKind → Int
  | .int | .int64 => 2 ^ 63 - 1
  | .int8 => 2 ^ 7 - 1
  | .int16 => 2 ^ 15 - 1
  | .int32 => 2 ^ 31 - 1
  | .uint | .uint64 => 2 ^ 64 - 1
  | .uint8 => 2 ^ 8 - 1
  | .uint16 => 2 ^ 16 - 1
  | .uint32 => 2 ^ 32 - 1

def Holds (kind : IntKind) (n : Int) : Prop := kind.lower ≤ n ∧ n ≤ kind.upper

instance (kind : IntKind) (n : Int) : Decidable (kind.Holds n) := inferInstanceAs (Decidable (_ ∧ _))

abbrev Value (kind : IntKind) := { n : Int // kind.Holds n }

theorem holds_int_toInt (n : Int64) : IntKind.int.Holds n.toInt :=
  ⟨n.le_toInt, Int.le_of_lt_add_one (by
    have h := n.toInt_lt
    simp only [upper]
    omega)⟩

end IntKind

/-- The container types that have a nil value of their own. -/
inductive Container where
  | strings | floats32 | floats64 | slice | maps | map
  deriving DecidableEq

/-- A value of type `any`. The fields of a map are its entries; the list is only how the value is written
down. -/
inductive GoAny (T : Type) where
  | nil
  | nilOf (kind : Container)
  | bool (b : Bool)
  | string (s : GoString)
  | int (kind : IntKind) (n : kind.Value)
  | float32 (x : F32)
  | float64 (x : F64)
  /-- `json.Number` -/
  | number (text : GoString)
  /-- `[]string` -/
  | strings (items : List GoString)
  | floats32 (items : List F32)
  /-- `[]float64` -/
  | floats64 (items : List F64)
  | slice (items : List (GoAny T))
  /-- `[]map[string]any`; the items are maps. -/
  | maps (items : List (GoAny T))
  | map (fields : List (String × GoAny T))
  | other (t : T)

abbrev GoDict (T : Type) := GoMap (GoAny T)

namespace GoAny

variable {T : Type}

def ofMap (m : GoDict T) : GoAny T := .map m.toList

theorem toMap_ofMap (m : GoDict T) : GoMap.ofList m.toList = m := GoMap.ofList_toList m

def uint64 (n : UInt64) : GoAny T :=
  .int .uint64 ⟨n.toNat, Int.natCast_nonneg _, Int.le_of_lt_add_one (by
    have h := n.toNat_lt
    simp only [IntKind.upper]
    omega)⟩

def uint32 (n : UInt32) : GoAny T :=
  .int .uint32 ⟨n.toNat, Int.natCast_nonneg _, Int.le_of_lt_add_one (by
    have h := n.toNat_lt
    simp only [IntKind.upper]
    omega)⟩

def int64 (n : Int64) : GoAny T :=
  .int .int64 ⟨n.toInt, n.le_toInt, Int.le_of_lt_add_one (by
    have h := n.toInt_lt
    simp only [IntKind.upper]
    omega)⟩

def ofStrings : Option (List GoString) → GoAny T
  | some items => .strings items
  | none => .nilOf .strings

def ofDict : Option (GoDict T) → GoAny T
  | some m => ofMap m
  | none => .nilOf .map

def ofDicts : Option (List (Option (GoDict T))) → GoAny T
  | some items => .maps (items.map ofDict)
  | none => .nilOf .maps

def asMap : GoAny T → Option (GoDict T)
  | .map fields => some (GoMap.ofList fields)
  | .nilOf .map => some ∅
  | _ => none

@[simp]
theorem asMap_ofMap (m : GoDict T) : (ofMap m).asMap = some m := congrArg some (toMap_ofMap m)

/-- A map, or nil for a nil map and for anything else. -/
def toMap : GoAny T → Option (GoDict T)
  | .map fields => some (GoMap.ofList fields)
  | _ => none

def asString : GoAny T → Option GoString
  | .string s => some s
  | _ => none

def asBool : GoAny T → Option Bool
  | .bool b => some b
  | _ => none

/-- A slice of strings, or the strings among the items of a slice; nil for anything else. -/
def stringSlice : GoAny T → Option (List GoString)
  | .strings items => some items
  | .slice items => some (items.filterMap asString)
  | .nilOf .slice => some []
  | _ => none

/-- The values a value is made of. -/
def parts : GoAny T → List (GoAny T)
  | .slice items => items
  | .maps items => items
  | .map fields => fields.map (·.2)
  | _ => []

theorem sizeOf_lt_of_mem_parts {v w : GoAny T} (h : w ∈ v.parts) : sizeOf w < sizeOf v := by
  cases v with
  | slice items =>
    rw [parts] at h
    have hlt := List.sizeOf_lt_of_mem h
    simp only [slice.sizeOf_spec]
    omega
  | maps items =>
    rw [parts] at h
    have hlt := List.sizeOf_lt_of_mem h
    simp only [maps.sizeOf_spec]
    omega
  | map =>
    obtain ⟨field, hfield, rfl⟩ := List.mem_map.mp h
    have hlt := List.sizeOf_lt_of_mem hfield
    have hfield : sizeOf field = 1 + sizeOf field.1 + sizeOf field.2 := rfl
    simp only [map.sizeOf_spec]
    omega
  | _ => cases h

/-- What holds of a value whenever it holds of its parts holds of every value. -/
@[elab_as_elim]
theorem induction_parts {motive : GoAny T → Prop} (value : ∀ v, (∀ w ∈ v.parts, motive w) → motive v)
    (v : GoAny T) : motive v :=
  value v fun w _ => induction_parts value w
decreasing_by
  apply sizeOf_lt_of_mem_parts
  assumption

end GoAny

/-- A value of type `any` that is written unless it is nil. -/
def nonNil {T : Type} : GoAny T → Option (GoAny T)
  | .nil => none
  | v => some v

/-! ### Reading the members of a frame -/

namespace GoDict

variable {T : Type} (d : GoDict T) (key : String)

/-- `d[key]`, which is nil where there is no entry. -/
def get : GoAny T := d[key]?.getD .nil

def optStr : Option GoString := (get d key).asString

def str : GoString := (optStr d key).getD []

def optBool : Option Bool := (get d key).asBool

/-- `d[key] = value` where there is a value. -/
def setIf (value : Option (GoAny T)) : GoDict T :=
  match value with
  | some v => d.insert key v
  | none => d

theorem getElem?_setIf (key other : String) (value : Option (GoAny T)) :
    (setIf d key value)[other]? = if key = other then value.or d[other]? else d[other]? := by
  cases value with
  | none => simp only [setIf, Option.none_or, ite_self]
  | some v => rw [setIf, GoMap.getElem?_insert, Option.some_or]

end GoDict

end NpsSdk
