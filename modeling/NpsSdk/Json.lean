import NpsSdk.GoMap

/-! Decoded JSON values, as Go holds them in `any`. What a number is stays open: the decoder makes a
`float64` of it or a `json.Number`, and a program may write an `int` itself. -/

namespace NpsSdk

/-- A value of type `any`. The fields of an object are the entries of a map; the list is only how the
value is written down. -/
inductive Json (N : Type) where
  | null
  | bool (b : Bool)
  | number (n : N)
  | string (s : String)
  | array (items : List (Json N))
  | object (fields : List (String × Json N))

namespace Json

variable {N : Type}

/-- The entries of an object; a later entry of the same name replaces an earlier one. -/
def toMap (fields : List (String × Json N)) : GoMap (Json N) :=
  fields.foldl (fun m field => m.insert field.1 field.2) ∅

def ofMap (m : GoMap (Json N)) : Json N := .object m.toList

end Json

end NpsSdk
