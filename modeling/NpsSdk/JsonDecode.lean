import NpsSdk.JsonText

/-! JSON values read into Go's own types. A member goes to the field of its name, whatever the case of
its letters; `null` leaves a field as it is, members without a field are skipped, and a value of another
kind than its field makes the whole document unreadable. An object has been read with its members in the
order of their names, and in that order they are taken. -/

namespace NpsSdk

namespace JsonValue

variable {N S : Type}

/-- The letters that count as the same letter of a field's name. -/
def foldChar (c : Char) : Char :=
  if 65 ≤ c.toNat ∧ c.toNat ≤ 90 then Char.ofNat (c.toNat + 32)
  else if c = 'ſ' then 's'
  else if c = 'K' then 'k'
  else c

def isField (name key : String) : Bool := key.toList.map foldChar = name.toList.map foldChar

def decodeStruct (field : S → String → JsonValue N → Option S) (zero : S) : JsonValue N → Option S
  | .object fields => fields.foldlM (fun s member => field s member.1 member.2) zero
  | .null => some zero
  | _ => none

def decodeString (current : GoString) : JsonValue N → Option GoString
  | .string s => some s
  | .null => some current
  | _ => none

def decodeBool (current : Bool) : JsonValue N → Option Bool
  | .bool b => some b
  | .null => some current
  | _ => none

/-- A slice of strings; `null` is the nil slice. -/
def decodeStrings : JsonValue N → Option (Option (List GoString))
  | .array items => (items.mapM (decodeString [])).map some
  | .null => some none
  | _ => none

/-- A map; `null` is the nil map. -/
def decodeMap : JsonValue N → Option (Option (GoMap (JsonValue N)))
  | .object fields => some (some (toMap fields))
  | .null => some none
  | _ => none

end JsonValue

end NpsSdk
