import NpsSdk.CoreCodec

/-! What a dictionary is after it was encoded at one end and decoded at the other, entry by entry, for the
two stable tiers. JSON replaces bytes that are no text and makes every number a `float64`; MessagePack
keeps both, and the width of an integer. -/

namespace NpsSdk.Core

open GoMap

section

variable {T : Type} {P : Platform T}

/-! ### Maps and their documents -/

theorem toJson_ofMap_congr {m m' : GoDict T} (h : ∀ key : String, m'[key]?.map (toJson P) = m[key]?.map (toJson P)) :
    toJson P (.ofMap m') = toJson P (.ofMap m) := by
  have hmaps : (m'.map fun _ v => toJson P v) = m.map fun _ v => toJson P v := by
    apply Std.ExtTreeMap.ext_getElem?
    intro key
    rw [Std.ExtTreeMap.getElem?_map, Std.ExtTreeMap.getElem?_map]
    exact h key
  have hlist : ∀ m : GoDict T, toJsonFields P m.toList =
      (m.map fun _ v => toJson P v).toList.mapM fun field => field.2.map (field.1, ·) := by
    intro m
    rw [toJsonFields_eq_mapM, Std.ExtTreeMap.toList_map]
    generalize m.toList = fields
    induction fields with
    | nil => rfl
    | cons field fields ih => rw [List.map_cons, List.mapM_cons, List.mapM_cons, ih]
  rw [GoAny.ofMap, GoAny.ofMap, toJson, toJson, hlist m', hlist m, hmaps]

variable {fields : List (String × GoAny T)}

theorem exists_toJson_map (h : ∀ field ∈ fields, ∃ w, toJson P field.2 = some w) :
    ∃ j : GoMap (JsonValue JsonNumber), toJson P (.map fields) = some (.ofMap j) ∧
      ∀ key : String, j[key]? = (ofList fields)[key]?.bind (toJson P) := by
  obtain ⟨out, hout⟩ := exists_mapM h
  refine ⟨ofList out, ?_, getElem?_ofList_mapM hout⟩
  rw [toJson, toJsonFields_eq_mapM, hout]
  rfl

theorem exists_ofJson_ofMap {j : GoMap (JsonValue JsonNumber)}
    (h : ∀ (key : String) (w), j[key]? = some w → ∃ v, ofJson P w = some v) :
    ∃ d : GoDict T, ofJson P (.ofMap j) = some (.ofMap d) ∧
      ∀ key : String, d[key]? = j[key]?.bind (ofJson P) := by
  have hfields : ∀ field ∈ j.toList, ∃ v, ofJson P field.2 = some v := fun field hfield =>
    h field.1 field.2 (Std.ExtTreeMap.mem_toList_iff_getElem?_eq_some.mp hfield)
  obtain ⟨out, hout⟩ := exists_mapM hfields
  refine ⟨ofList out, ?_, fun key => ?_⟩
  · rw [JsonValue.ofMap, ofJson, ofJsonFields_eq_mapM, hout]
    rfl
  · rw [getElem?_ofList_mapM hout, ofList_toList]

end

section

variable {T : Type} (P : Platform T) (M : MsgPack T)

def StableTier (tier : EncodingTier) : Prop := tier = encodingTierJSON ∨ tier = encodingTierMsgPack

/-- A value at the other end. -/
def carried (tier : EncodingTier) (v : GoAny T) : Option (GoAny T) :=
  if tier = encodingTierJSON then jsonImage P v else some (msgpackImage M.other v)

/-- JSON replaces bytes that are no UTF-8. -/
def carriedText (tier : EncodingTier) (s : GoString) : GoString :=
  if tier = encodingTierJSON then GoString.ofChars (GoString.toChars s) else s

theorem carriedText_of_valid {s : GoString} (h : GoString.Valid s) (tier : EncodingTier) : carriedText tier s = s := by
  rw [carriedText]
  split_ifs
  · exact (GoString.ofChars_toChars_eq_iff s).mpr h
  · rfl

theorem decoded_eq_carried {reg reg' : FrameRegistry} {d d' : FrameDict T} {tier : EncodingTier}
    {payload : Bytes} (htier : StableTier tier)
    (hencode : (newNpsFrameCodec P M reg).encodePayload d tier = .ok payload)
    (hdecode : (newNpsFrameCodec P M reg').decodePayload payload tier = .ok d') (key : String) :
    d'[key]? = d[key]?.bind (carried P M tier) := by
  rcases htier with rfl | rfl
  · have hread : jsonUnmarshal P payload = .ok d' := by
      change (jsonUnmarshal P payload).mapError GoError.codec = .ok d' at hdecode
      cases hresult : jsonUnmarshal P payload with
      | error e =>
        rw [hresult] at hdecode
        cases hdecode
      | ok d'' =>
        rw [hresult] at hdecode
        cases hdecode
        rfl
    exact json_round_trip P hencode hread key
  · change (M.marshal d).mapError GoError.encoder = .ok payload at hencode
    change (M.unmarshal payload).mapError GoError.codec = .ok d' at hdecode
    cases hmarshal : M.marshal d with
    | error e =>
      rw [hmarshal] at hencode
      cases hencode
    | ok bytes =>
      rw [hmarshal] at hencode
      cases hencode
      rw [M.unmarshal_marshal hmarshal] at hdecode
      cases hdecode
      rw [getElem?_msgpackDict]
      cases d[key]? <;> rfl

variable (tier : EncodingTier)

@[simp]
theorem carried_string (s : GoString) : carried P M tier (.string s) = some (.string (carriedText tier s)) := by
  rw [carried, carriedText]
  split_ifs <;> rfl

@[simp]
theorem carried_bool (b : Bool) : carried P M tier (.bool b) = some (.bool b) := by
  rw [carried]
  split_ifs <;> rfl

theorem ofJsonItems_strings (items : List GoString) : ofJsonItems P (JsonValue.normalItems (items.map .string)) =
      some (items.map fun s => .string (GoString.ofChars (GoString.toChars s))) := by
  induction items with
  | nil => rfl
  | cons s items ih =>
    rw [List.map_cons, JsonValue.normalItems, ofJsonItems, ih]
    rfl

@[simp]
theorem carried_ofStrings (items : Option (List GoString)) : carried P M tier (.ofStrings items) =
      some (match items with
        | some items => .slice (items.map fun s => .string (carriedText tier s))
        | none => .nil) := by
  rw [carried]
  cases items with
  | none =>
    split_ifs <;> rfl
  | some items =>
    split_ifs with htier
    · simp only [carriedText, if_pos htier]
      change (ofJson P (.array (JsonValue.normalItems (items.map .string)))) = _
      rw [ofJson, ofJsonItems_strings]
      rfl
    · simp only [carriedText, if_neg htier]
      rfl

/-- A `uint64` is a `float64` after JSON. -/
@[simp]
theorem carried_uint64 (n : UInt64) : carried P M tier (.uint64 n) =
      some (if tier = encodingTierJSON then .float64 (F64.ofInt n.toNat) else .uint64 n) := by
  rw [carried]
  split_ifs
  · have hparse := P.parseFloat_int n.toNat (by
      have hlt := n.toNat_lt
      omega)
    change (P.parseFloat (intNumber n.toNat)).map GoAny.float64 = _
    rw [hparse]
    rfl
  · rfl

theorem ofInt_toNat (n : UInt64) : UInt64.ofInt n.toNat = n := by
  have hlt : ((n.toNat : Nat) : Int) < 2 ^ 64 := by
    have h := n.toNat_lt
    omega
  rw [UInt64.ofInt, Int.emod_eq_of_lt (Int.natCast_nonneg _) hlt, Int.toNat_natCast, UInt64.ofNat_toNat]

theorem Platform.uint64OfFloat_ofInt {n : UInt64} (h : n.toNat < 2 ^ 53) : P.uint64OfFloat (F64.ofInt n.toNat) = n := by
  have habs : ((n.toNat : Nat) : Int).natAbs < 2 ^ 53 := h
  rw [uint64OfFloat, F64.trunc_ofInt habs, F64.isFinite_ofInt habs, if_pos ⟨rfl, by omega, by omega⟩]
  exact ofInt_toNat n

end

/-! ### Members at the other end -/

section

variable {T : Type} {P : Platform T} {M : MsgPack T} {tier : EncodingTier} {d d' : FrameDict T} {key : String}

/-- One dictionary is the other at the other end. -/
def CarriedDict (P : Platform T) (M : MsgPack T) (tier : EncodingTier) (d d' : FrameDict T) : Prop :=
  ∀ key : String, d'[key]? = d[key]?.bind (carried P M tier)

theorem StableTier.encodingTier_newFrameHeader (h : StableTier tier) (ft : FrameType) (isFinal : Bool)
    (n : Nat) : (newFrameHeader ft tier isFinal n).encodingTier = tier := by
  rw [Core.encodingTier_newFrameHeader]
  rcases h with rfl | rfl <;> decide

theorem decode_of_encode {reg : FrameRegistry} (reg' : FrameRegistry) {ft : FrameType} {isFinal : Bool} {wire : Bytes}
    (htier : StableTier tier) (hencode : (newNpsFrameCodec P M reg).encode ft d tier isFinal = .ok wire) :
    ∃ payload, (newNpsFrameCodec P M reg).encodePayload d tier = .ok payload ∧
      (newNpsFrameCodec P M reg').decode wire = if reg'.isRegistered ft then
          ((newNpsFrameCodec P M reg').decodePayload payload tier).map fun dict => (ft, dict)
        else .error (.frame ("unregistered frame type " ++ hexByte ft.code)) := by
  obtain ⟨payload, hpayload, hlt, rfl⟩ := newNpsFrameCodec_encode_ok hencode
  refine ⟨payload, hpayload, ?_⟩
  rw [NpsFrameCodec.decode_rebuilt _ (wellFormed_newFrameHeader ft tier isFinal hlt) rfl,
    htier.encodingTier_newFrameHeader]
  rfl

theorem carriedDict_of_decode {reg reg' : FrameRegistry} {ft : FrameType} {isFinal : Bool} {wire : Bytes}
    {frame : FrameType × FrameDict T} (htier : StableTier tier)
    (hencode : (newNpsFrameCodec P M reg).encode ft d tier isFinal = .ok wire)
    (hdecode : (newNpsFrameCodec P M reg').decode wire = .ok frame) : CarriedDict P M tier d frame.2 := by
  obtain ⟨payload, hpayload, heq⟩ := decode_of_encode reg' htier hencode
  rw [heq] at hdecode
  split_ifs at hdecode
  cases hbody : (newNpsFrameCodec P M reg').decodePayload payload tier with
  | error e =>
    rw [hbody] at hdecode
    cases hdecode
  | ok d' =>
    rw [hbody] at hdecode
    cases hdecode
    exact fun key => decoded_eq_carried P M htier hpayload hbody key

namespace CarriedDict

variable (h : CarriedDict P M tier d d')
include h

theorem none (hkey : d[key]? = none) : d'[key]? = none := by
  rw [h key, hkey]
  rfl

theorem string {s : GoString} (hkey : d[key]? = some (.string s)) : d'[key]? = some (.string (carriedText tier s)) := by
  rw [h key, hkey, Option.bind_some, carried_string]

theorem bool {b : Bool} (hkey : d[key]? = some (.bool b)) : d'[key]? = some (.bool b) := by
  rw [h key, hkey, Option.bind_some, carried_bool]

theorem uint64 {n : UInt64} (hkey : d[key]? = some (.uint64 n)) :
    d'[key]? = some (if tier = encodingTierJSON then .float64 (F64.ofInt n.toNat) else .uint64 n) := by
  rw [h key, hkey, Option.bind_some, carried_uint64]

theorem optStr {s : Option GoString} (hkey : d[key]? = s.map .string) :
    GoDict.optStr d' key = s.map (carriedText tier) := by
  rw [GoDict.optStr, GoDict.get]
  cases s with
  | none =>
    rw [h.none hkey]
    rfl
  | some s =>
    rw [h.string hkey]
    rfl

theorem stringSlice {items : Option (List GoString)} (hkey : d[key]? = some (.ofStrings items)) :
    ∃ v, d'[key]? = some v ∧ v.stringSlice = items.map (·.map (carriedText tier)) := by
  refine ⟨_, by rw [h key, hkey, Option.bind_some, carried_ofStrings], ?_⟩
  cases items with
  | none => rfl
  | some items =>
    change some ((items.map fun s => GoAny.string (carriedText tier s)).filterMap GoAny.asString) = _
    rw [List.filterMap_map]
    have hsome : GoAny.asString ∘ (fun s => (GoAny.string (carriedText tier s) : GoAny T)) =
        fun s => some (carriedText tier s) := rfl
    rw [hsome, List.filterMap_eq_map']
    rfl

theorem strings {items : List GoString} (hkey : d[key]? = some (.strings items)) :
    d'[key]?.bind GoAny.stringSlice = some (items.map (carriedText tier)) := by
  obtain ⟨v, hv, hread⟩ := h.stringSlice (show d[key]? = some (.ofStrings (some items)) from hkey)
  rw [hv, Option.bind_some, hread]
  rfl

end CarriedDict

end

end NpsSdk.Core
