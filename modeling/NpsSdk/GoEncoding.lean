import NpsSdk.CoreFrames
import NpsSdk.GoAny
import NpsSdk.JsonText

/-! The encodings of a payload. JSON is `encoding/json` on a map: what is written for each Go type, and the
Go types a document is read into. MessagePack is a parameter: it gives back what it was given, in the Go
types its wire codes stand for, and no part of a document is a document. -/

namespace NpsSdk.Core

open GoMap GoString Nat Option List
open JsonValue

abbrev FrameDict (T : Type) := GoDict T

/-! ### Numbers -/

def intText (n : Int) : List Char :=
  if n < 0 then '-' :: toDigits 10 n.natAbs else toDigits 10 n.natAbs

theorem isNumberChar_of_mem_toDigits {n : Nat} {c : Char} (h : c ∈ toDigits 10 n) : isNumberChar c = true := by
  rw [isNumberChar, isDigit_of_mem_toDigits (by decide) (by decide) h]
  rfl

theorem intText_spec (n : Int) : intText n ≠ [] ∧ ∀ c ∈ intText n, isNumberChar c = true := by
  rw [intText]
  split_ifs with hneg
  · refine ⟨cons_ne_nil _ _, fun c hc => ?_⟩
    rcases mem_cons.mp hc with rfl | hc
    · rfl
    · exact isNumberChar_of_mem_toDigits hc
  · exact ⟨toDigits_ne_nil, fun c hc => isNumberChar_of_mem_toDigits hc⟩

def intNumber (n : Int) : JsonNumber := ⟨intText n, intText_spec n⟩

def parseUint (s : GoString) : Option UInt64 :=
  let chars := toChars s
  if s = [] ∨ ¬ chars.all Char.isDigit then none
  else
    let n := chars.foldl (fun n c => 10 * n + (c.toNat - 48)) 0
    if n < 2 ^ 64 then some (UInt64.ofNat n) else none

def parseInt (s : GoString) : Option Int64 :=
  let negative := s.head? = some (.char '-')
  let digits := toChars (if negative ∨ s.head? = some (.char '+') then s.tail else s)
  if digits = [] ∨ ¬ digits.all Char.isDigit then none
  else
    let n : Nat := digits.foldl (fun n c => 10 * n + (c.toNat - 48)) 0
    if negative then if n ≤ 2 ^ 63 then some (Int64.ofInt (-n)) else none
    else if n < 2 ^ 63 then some (Int64.ofInt n) else none

def isValidNumber (text : List Char) : Bool :=
  let digits : List Char → List Char := dropWhile Char.isDigit
  let unsigned := if text.head? = some '-' then text.tail else text
  let afterInt : Option (List Char) :=
    match unsigned with
    | '0' :: rest => some rest
    | c :: rest => if c.isDigit then some (digits rest) else none
    | [] => none
  match afterInt with
  | none => false
  | some rest =>
    let afterFraction :=
      match rest with
      | '.' :: d :: more => if d.isDigit then digits more else rest
      | _ => rest
    match afterFraction with
    | [] => true
    | e :: s :: more =>
      (e = 'e' || e = 'E') &&
        if s = '+' || s = '-' then more ≠ [] && digits more = [] else digits (s :: more) = []
    | _ => false

/-- What the language and its library leave open: conversions to `float32` and of numbers an integer type
does not hold, how a `float64` is written and read, and what becomes of Go values of other types. -/
structure Platform (T : Type) where
  toFloat32 : F64 → F32
  toFloat64 : F32 → F64
  uint64Beyond : F64 → UInt64
  uint32Beyond : F64 → UInt32
  int64Beyond : F64 → Int64
  formatFloat64 : F64 → JsonNumber
  formatFloat32 : F32 → JsonNumber
  /-- The nearest number; none if the text is no number of JSON or out of range. -/
  parseFloat : JsonNumber → Option F64
  jsonOther : T → Option (JsonValue JsonNumber)
  jsonMarshalError : FrameDict T → GoString
  jsonError : Bytes → GoString
  parseFloat_int : ∀ n : Int, n.natAbs < 2 ^ 64 → parseFloat (intNumber n) = some (F64.ofInt n)
  parseFloat_float64 : ∀ x, x.isFinite = true → parseFloat (formatFloat64 x) = some x
  formatFloat64_int : ∀ n : Int, n.natAbs < 2 ^ 53 → formatFloat64 (F64.ofInt n) = intNumber n

/-- Numbers that are integers of at most 53 bits as the library writes them, and others by their bits. -/
def plainFormat (x : F64) : JsonNumber :=
  if F64.ofInt x.trunc = x ∧ x.trunc.natAbs < 2 ^ 53 then intNumber x.trunc
  else ⟨'e' :: toDigits 10 x.toNat, cons_ne_nil _ _, fun c hc => by
    rcases mem_cons.mp hc with rfl | hc
    · rfl
    · exact isNumberChar_of_mem_toDigits hc⟩

def plainValue : List Char → F64
  | 'e' :: digits => UInt64.ofNat (ofDigitChars 10 digits 0)
  | '-' :: digits => F64.ofInt (-(ofDigitChars 10 digits 0))
  | digits => F64.ofInt (ofDigitChars 10 digits 0)

theorem plainValue_intText (n : Int) : plainValue (intText n) = F64.ofInt n := by
  have hdigits : ∀ c digits, toDigits 10 n.natAbs = c :: digits → c.isDigit = true := by
    intro c digits h
    apply isDigit_of_mem_toDigits (b := 10) (n := n.natAbs) (by decide) (by decide)
    rw [h]
    exact mem_cons_self
  rw [intText]
  split_ifs with hneg
  · rw [plainValue, ofDigitChars_ten_toDigits]
    congr 1
    omega
  · rw [plainValue.eq_def]
    split
    · rename_i digits h
      cases hdigits _ _ h
    · rename_i digits h
      cases hdigits _ _ h
    rw [ofDigitChars_ten_toDigits]
    congr 1
    omega

theorem plainValue_plainFormat (x : F64) : plainValue (plainFormat x).1 = x := by
  rw [plainFormat]
  split_ifs with hint
  · exact (plainValue_intText x.trunc).trans hint.1
  · rw [plainValue, ofDigitChars_ten_toDigits, UInt64.ofNat_toNat]

theorem plainFormat_ofInt {n : Int} (h : n.natAbs < 2 ^ 53) : plainFormat (F64.ofInt n) = intNumber n := by
  rw [plainFormat, F64.trunc_ofInt h, if_pos ⟨rfl, h⟩]

/-- A platform without values of other types, for frames that hold no fractions. -/
def plainPlatform : Platform Empty where
  toFloat32 _ := 0
  toFloat64 _ := 0
  uint64Beyond _ := 0
  uint32Beyond _ := 0
  int64Beyond _ := 0
  formatFloat64 := plainFormat
  formatFloat32 _ := intNumber 0
  parseFloat text := some (plainValue text.1)
  jsonOther t := t.elim
  jsonMarshalError _ := []
  jsonError _ := []
  parseFloat_int n _ := congrArg some (plainValue_intText n)
  parseFloat_float64 x _ := congrArg some (plainValue_plainFormat x)
  formatFloat64_int _ := plainFormat_ofInt

section

variable {T : Type} (P : Platform T)

def Platform.uint64OfFloat (x : F64) : UInt64 :=
  if x.isFinite ∧ 0 ≤ x.trunc ∧ x.trunc < 2 ^ 64 then UInt64.ofInt x.trunc else P.uint64Beyond x

def Platform.uint32OfFloat (x : F64) : UInt32 :=
  if x.isFinite ∧ 0 ≤ x.trunc ∧ x.trunc < 2 ^ 32 then UInt32.ofInt x.trunc else P.uint32Beyond x

def Platform.int64OfFloat (x : F64) : Int64 :=
  if x.isFinite ∧ -2 ^ 63 ≤ x.trunc ∧ x.trunc < 2 ^ 63 then Int64.ofInt x.trunc else P.int64Beyond x

/-! ### JSON -/

def jsonFloat32 (x : F32) : Option (JsonValue JsonNumber) :=
  if x.isFinite then some (.number (P.formatFloat32 x)) else none

def jsonFloat64 (x : F64) : Option (JsonValue JsonNumber) :=
  if x.isFinite then some (.number (P.formatFloat64 x)) else none

/-- A `json.Number` is written as it is if it is a number; the empty one is zero. -/
def jsonNumberText (text : GoString) : Option (JsonValue JsonNumber) :=
  let chars := if text = [] then ['0'] else toChars text
  if isValidNumber chars then (jsonNumber.parse chars).map .number else none

mutual

/-- The document of a value; none for what JSON does not have. -/
def toJson : GoAny T → Option (JsonValue JsonNumber)
  | .nil => some .null
  | .nilOf _ => some .null
  | .bool b => some (.bool b)
  | .string s => some (.string s)
  | .int _ n => some (.number (intNumber n.1))
  | .float32 x => jsonFloat32 P x
  | .float64 x => jsonFloat64 P x
  | .number text => jsonNumberText text
  | .strings items => some (.array (items.map .string))
  | .floats32 items => (items.mapM (jsonFloat32 P)).map .array
  | .floats64 items => (items.mapM (jsonFloat64 P)).map .array
  | .slice items => (toJsonItems items).map .array
  | .maps items => (toJsonItems items).map .array
  | .map fields => (toJsonFields fields).map fun fields => .ofMap (ofList fields)
  | .other t => P.jsonOther t

def toJsonItems : List (GoAny T) → Option (List (JsonValue JsonNumber))
  | [] => some []
  | v :: items => (toJson v).bind fun v => (toJsonItems items).map (v :: ·)

def toJsonFields : List (String × GoAny T) → Option (List (String × JsonValue JsonNumber))
  | [] => some []
  | (key, v) :: fields => (toJson v).bind fun v => (toJsonFields fields).map ((key, v) :: ·)

end

mutual

def ofJson : JsonValue JsonNumber → Option (GoAny T)
  | .null => some .nil
  | .bool b => some (.bool b)
  | .number n => (P.parseFloat n).map .float64
  | .string s => some (.string s)
  | .array items => (ofJsonItems items).map .slice
  | .object fields => (ofJsonFields fields).map fun fields => .ofMap (ofList fields)

def ofJsonItems : List (JsonValue JsonNumber) → Option (List (GoAny T))
  | [] => some []
  | v :: items => (ofJson v).bind fun v => (ofJsonItems items).map (v :: ·)

def ofJsonFields : List (String × JsonValue JsonNumber) → Option (List (String × GoAny T))
  | [] => some []
  | (key, v) :: fields => (ofJson v).bind fun v => (ofJsonFields fields).map ((key, v) :: ·)

end

def jsonMarshal (d : FrameDict T) : Except GoError Bytes :=
  match toJson P (.ofMap d) with
  | some v => .ok (bytes (ofChars (marshal jsonNumber v)))
  | none => .error (.encoder (P.jsonMarshalError d))

def jsonUnmarshal (payload : Bytes) : Except GoString (FrameDict T) :=
  match (unmarshal jsonNumber (ofBytes payload)).bind (ofJson P) with
  | some (.map fields) => .ok (ofList fields)
  | some .nil => .ok ∅
  | _ => .error (P.jsonError payload)

/-- What a value is read back as. -/
def jsonImage (v : GoAny T) : Option (GoAny T) := (toJson P v).bind fun v => ofJson P v.normal

theorem toJsonFields_eq_mapM (fields : List (String × GoAny T)) :
    toJsonFields P fields = fields.mapM fun field => (toJson P field.2).map (field.1, ·) := by
  refine eq_mapM_of_cons (f := toJsonFields P) rfl (fun field fields => ?_) fields
  rw [toJsonFields]
  cases toJson P field.2 <;> rfl

theorem ofJsonFields_eq_mapM (fields : List (String × JsonValue JsonNumber)) :
    ofJsonFields P fields = fields.mapM fun field => (ofJson P field.2).map (field.1, ·) := by
  refine eq_mapM_of_cons (f := ofJsonFields P) rfl (fun field fields => ?_) fields
  rw [ofJsonFields]
  cases ofJson P field.2 <;> rfl

/-- The document of a map is a map of documents. -/
theorem toJson_ofMap {d : FrameDict T} {v : JsonValue JsonNumber} (h : toJson P (.ofMap d) = some v) :
    ∃ j : GoMap (JsonValue JsonNumber), v = .ofMap j ∧ ∀ key : String, j[key]? = d[key]?.bind (toJson P) := by
  obtain ⟨fields, hfields, rfl⟩ := map_eq_some_iff.mp h
  refine ⟨_, rfl, fun key => ?_⟩
  rw [toJsonFields_eq_mapM] at hfields
  rw [getElem?_ofList_mapM hfields, ofList_toList]

theorem ofJson_ofMap {j : GoMap (JsonValue JsonNumber)} {v : GoAny T} (h : ofJson P (.ofMap j) = some v) :
    ∃ d : FrameDict T, v = .ofMap d ∧ ∀ key : String, d[key]? = j[key]?.bind (ofJson P) := by
  obtain ⟨fields, hfields, rfl⟩ := map_eq_some_iff.mp h
  refine ⟨_, rfl, fun key => ?_⟩
  rw [ofJsonFields_eq_mapM] at hfields
  rw [getElem?_ofList_mapM hfields, ofList_toList]

/-- A map that was written and could be read comes back entry by entry. -/
theorem json_round_trip {d d' : FrameDict T} {payload : Bytes} (hmarshal : jsonMarshal P d = .ok payload)
    (hunmarshal : jsonUnmarshal P payload = .ok d') (key : String) : d'[key]? = d[key]?.bind (jsonImage P) := by
  rw [jsonMarshal] at hmarshal
  split at hmarshal
  · rename_i v hv
    cases hmarshal
    obtain ⟨j, rfl, hj⟩ := toJson_ofMap P hv
    rw [jsonUnmarshal, ofBytes_bytes] at hunmarshal
    cases hread : unmarshal jsonNumber (ofChars (marshal jsonNumber (.ofMap j))) with
    | none =>
      rw [hread] at hunmarshal
      cases hunmarshal
    | some w =>
      rw [hread, eq_normal_of_unmarshal jsonNumber hread, normal_ofMap, bind_some] at hunmarshal
      cases hof : ofJson P (.ofMap (j.map fun _ v => v.normal)) with
      | none =>
        rw [hof] at hunmarshal
        cases hunmarshal
      | some u =>
        obtain ⟨e, rfl, he⟩ := ofJson_ofMap P hof
        rw [hof] at hunmarshal
        simp only [GoAny.ofMap, ofList_toList, Except.ok.injEq] at hunmarshal
        rw [← hunmarshal, he, Std.ExtTreeMap.getElem?_map, hj]
        cases d[key]? with
        | none => rfl
        | some v =>
          rw [bind_some, bind_some, jsonImage]
          cases toJson P v <;> rfl
  · cases hmarshal

end

mutual

theorem exists_ofJson_plain : ∀ v : JsonValue JsonNumber, ∃ w, ofJson plainPlatform v = some w
  | .null => ⟨_, rfl⟩
  | .bool _ => ⟨_, rfl⟩
  | .number _ => ⟨_, rfl⟩
  | .string _ => ⟨_, rfl⟩
  | .array items => by
      obtain ⟨ws, hws⟩ := exists_ofJsonItems_plain items
      exact ⟨.slice ws, by rw [ofJson, hws]; rfl⟩
  | .object fields => by
      obtain ⟨ws, hws⟩ := exists_ofJsonFields_plain fields
      exact ⟨.ofMap (ofList ws), by rw [ofJson, hws]; rfl⟩

theorem exists_ofJsonItems_plain :
    ∀ items : List (JsonValue JsonNumber), ∃ ws, ofJsonItems plainPlatform items = some ws
  | [] => ⟨_, rfl⟩
  | v :: items => by
      obtain ⟨w, hw⟩ := exists_ofJson_plain v
      obtain ⟨ws, hws⟩ := exists_ofJsonItems_plain items
      exact ⟨w :: ws, by rw [ofJsonItems, hw, bind_some, hws]; rfl⟩

theorem exists_ofJsonFields_plain :
    ∀ fields : List (String × JsonValue JsonNumber), ∃ ws, ofJsonFields plainPlatform fields = some ws
  | [] => ⟨_, rfl⟩
  | (key, v) :: fields => by
      obtain ⟨w, hw⟩ := exists_ofJson_plain v
      obtain ⟨ws, hws⟩ := exists_ofJsonFields_plain fields
      exact ⟨(key, w) :: ws, by rw [ofJsonFields, hw, bind_some, hws]; rfl⟩

end

/-- The plain platform decodes what it encodes. -/
theorem exists_jsonUnmarshal_plain {d : FrameDict Empty} {v : JsonValue JsonNumber} {payload : Bytes}
    (hjson : toJson plainPlatform (.ofMap d) = some v) (hdepth : v.depth ≤ maxNestingDepth)
    (hmarshal : jsonMarshal plainPlatform d = .ok payload) : ∃ d', jsonUnmarshal plainPlatform payload = .ok d' := by
  obtain ⟨j, rfl, -⟩ := toJson_ofMap plainPlatform hjson
  rw [jsonMarshal, hjson] at hmarshal
  cases hmarshal
  obtain ⟨w, hw⟩ := exists_ofJson_plain (ofMap j).normal
  rw [jsonUnmarshal, ofBytes_bytes, unmarshal_marshal jsonNumber _ hdepth, bind_some, hw]
  obtain ⟨d', rfl, -⟩ := ofJson_ofMap plainPlatform hw
  exact ⟨_, rfl⟩

/-! ### MessagePack -/

/-- The smallest wire code for an integer of unknown width: it holds every `int` and `uint`. -/
def compactKind (n : Int) : IntKind :=
  if 0 ≤ n then
    if n ≤ 127 then .int8
    else if n ≤ 255 then .uint8
    else if n ≤ 65535 then .uint16
    else if n ≤ 4294967295 then .uint32
    else .uint64
  else if -128 ≤ n then .int8
  else if -32768 ≤ n then .int16
  else if -2147483648 ≤ n then .int32
  else .int64

theorem compactKind_holds {n : Int} (hlow : -2 ^ 63 ≤ n) (hhigh : n ≤ 2 ^ 64 - 1) : (compactKind n).Holds n := by
  rw [compactKind]
  split_ifs <;> simp only [IntKind.Holds, IntKind.lower, IntKind.upper] <;> omega

/-- The integer a decoder gives back: of the Go type its wire code stands for. -/
def wireInt {T : Type} (kind : IntKind) (n : kind.Value) : GoAny T :=
  match kind, n with
  | .int, n =>
    .int (compactKind n.1) ⟨n.1, compactKind_holds n.2.1 (Int.le_trans n.2.2 (by decide))⟩
  | .uint, n =>
    .int (compactKind n.1) ⟨n.1, compactKind_holds (Int.le_trans (by decide) n.2.1) n.2.2⟩
  | kind, n => .int kind n

section

variable {T : Type} (other : T → GoAny T)

mutual

/-- What a value is read back as. -/
def msgpackImage : GoAny T → GoAny T
  | .nil => .nil
  | .nilOf _ => .nil
  | .bool b => .bool b
  | .string s => .string s
  | .int kind n => wireInt kind n
  | .float32 x => .float32 x
  | .float64 x => .float64 x
  | .number text => .string text
  | .strings items => .slice (items.map .string)
  | .floats32 items => .slice (items.map .float32)
  | .floats64 items => .slice (items.map .float64)
  | .slice items => .slice (msgpackItems items)
  | .maps items => .slice (msgpackItems items)
  | .map fields => .ofMap (ofList (msgpackFields fields))
  | .other t => other t

def msgpackItems : List (GoAny T) → List (GoAny T)
  | [] => []
  | v :: items => msgpackImage v :: msgpackItems items

def msgpackFields : List (String × GoAny T) → List (String × GoAny T)
  | [] => []
  | (key, v) :: fields => (key, msgpackImage v) :: msgpackFields fields

end

def msgpackDict (d : FrameDict T) : FrameDict T := d.map fun _ v => msgpackImage other v

theorem msgpackFields_eq_map (fields : List (String × GoAny T)) :
    msgpackFields other fields = fields.map fun field => (field.1, msgpackImage other field.2) :=
  eq_map_of_cons rfl (fun _ _ => rfl) fields

theorem msgpackImage_ofMap (d : FrameDict T) : msgpackImage other (.ofMap d) = .ofMap (msgpackDict other d) := by
  rw [GoAny.ofMap, msgpackImage, msgpackFields_eq_map, msgpackDict,
    ← Std.ExtTreeMap.toList_map (f := fun _ v => msgpackImage other v), ofList_toList]

@[simp]
theorem getElem?_msgpackDict (d : FrameDict T) (key : String) :
    (msgpackDict other d)[key]? = d[key]?.map (msgpackImage other) := Std.ExtTreeMap.getElem?_map

end

/-- The MessagePack package: what it writes it reads back. -/
structure MsgPack (T : Type) where
  marshal : FrameDict T → Except GoString Bytes
  unmarshal : Bytes → Except GoString (FrameDict T)
  other : T → GoAny T
  unmarshal_marshal : ∀ {d payload}, marshal d = .ok payload →
    unmarshal payload = .ok (msgpackDict other d)
  /-- The code of a value tells where it ends. -/
  unmarshal_part : ∀ {d payload part}, marshal d = .ok payload → part <+: payload → part ≠ payload →
    ∃ e, unmarshal part = .error e

open Classical in
noncomputable def MsgPack.oneDocument (d : FrameDict Empty) (document : Bytes) : MsgPack Empty where
  marshal d' := if d' = d then .ok document else .error []
  unmarshal payload := if payload = document then .ok (msgpackDict Empty.elim d) else .error []
  other := Empty.elim
  unmarshal_marshal {d' payload} h := by
    split_ifs at h with heq
    cases h
    rw [if_pos rfl, heq]
  unmarshal_part {d' payload part} h _ hne := by
    split_ifs at h
    cases h
    exact ⟨[], if_neg hne⟩

theorem MsgPack.marshal_oneDocument (d : FrameDict Empty) (document : Bytes) :
    (oneDocument d document).marshal d = .ok document := if_pos rfl

end NpsSdk.Core
