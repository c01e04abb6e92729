import NpsSdk.CorePortable
import NpsSdk.NdpRegistry

/-! What a signature on an announcement that was read from JSON binds: the text that is signed tells two
announcements apart exactly if they differ in more than members that are null or not signed. -/

open NpsSdk.Core

namespace NpsSdk.Ndp

open Option

variable {T : Type}

/-- What a document of JSON is read as. -/
inductive JsonData : GoAny T → Prop where
  | nil : JsonData .nil
  | bool (b : Bool) : JsonData (.bool b)
  | string {s : GoString} (valid : GoString.Valid s) : JsonData (.string s)
  | float64 {x : F64} (finite : x.isFinite = true) : JsonData (.float64 x)
  | slice {items : List (GoAny T)} (each : ∀ v ∈ items, JsonData v) : JsonData (.slice items)
  | object {m : GoDict T} (each : ∀ (key : String) v, m[key]? = some v → JsonData v) : JsonData (.ofMap m)

def JsonObject (m : GoDict T) : Prop := ∀ (key : String) v, m[key]? = some v → JsonData v

def signedMembers (frame : FrameDict T) : FrameDict T :=
  (frame.filter fun key v => !unsignedMembers.contains key && !isNil v).map fun _ v => withoutNulls v

/-- With the interval that an announcement has if it names none. -/
def signedForm (frame : FrameDict T) : FrameDict T :=
  match (signedMembers frame)["heartbeat_interval_ms"]? with
  | some _ => signedMembers frame
  | none => (signedMembers frame).insert "heartbeat_interval_ms" (.float64 (F64.ofInt 60000))

theorem mem_withoutNullsItems {items : List (GoAny T)} {v : GoAny T} (h : v ∈ withoutNullsItems items) :
    ∃ w ∈ items, v = withoutNulls w := by
  rw [eq_map_of_cons (f := withoutNullsItems) rfl (fun _ _ => rfl)] at h
  obtain ⟨w, hw, rfl⟩ := List.mem_map.mp h
  exact ⟨w, hw, rfl⟩

theorem JsonData.withoutNulls {v : GoAny T} (h : JsonData v) : JsonData (withoutNulls v) := by
  induction h with
  | nil => exact .nil
  | bool b => exact .bool b
  | string valid => exact .string valid
  | float64 finite => exact .float64 finite
  | slice _ ih =>
    refine .slice fun v hv => ?_
    obtain ⟨w, hw, rfl⟩ := mem_withoutNullsItems hv
    exact ih w hw
  | object _ ih =>
    rw [withoutNulls_ofMap]
    refine .object fun key v hv => ?_
    rw [getElem?_strippedDict, filter_eq_some_iff] at hv
    obtain ⟨w, hw, rfl⟩ := map_eq_some_iff.mp hv.1
    exact ih key w hw

theorem JsonObject.insert {m : GoDict T} (h : JsonObject m) (key : String) {v : GoAny T} (hv : JsonData v) :
    JsonObject (m.insert key v) := by
  intro key' w hw
  rw [GoMap.getElem?_insert] at hw
  split_ifs at hw
  · cases hw
    exact hv
  · exact h key' w hw

theorem jsonObject_signedForm {frame : FrameDict T} (h : JsonObject frame) : JsonObject (signedForm frame) := by
  have hmembers : JsonObject (signedMembers frame) := by
    intro key v hv
    rw [signedMembers, Std.ExtTreeMap.getElem?_map, GoMap.getElem?_filter] at hv
    obtain ⟨w, hw, rfl⟩ := map_eq_some_iff.mp hv
    exact (h key w (filter_eq_some_iff.mp hw).1).withoutNulls
  rw [signedForm]
  split
  · exact hmembers
  · exact hmembers.insert _ (.float64 (F64.isFinite_ofInt (by decide)))

variable (P : Platform T)

/-- What is read from JSON is read back as it is. -/
theorem JsonData.jsonImage_eq {v : GoAny T} (h : JsonData v) : jsonImage P v = some v := by
  induction h with
  | nil | bool => rfl
  | string valid => rw [jsonImage_string, (GoString.ofChars_toChars_eq_iff _).mpr valid]
  | float64 finite =>
    rw [jsonImage, toJson, jsonFloat64, if_pos finite]
    exact congrArg (Option.map _) (P.parseFloat_float64 _ finite)
  | slice _ ih =>
    rw [jsonImage_slice, mapM_eq_some_iff.mpr (List.forall₂_same.mpr ih)]
    rfl
  | @object m _ ih =>
    have hwritten : ∀ field ∈ m.toList, ∃ w, toJson P field.2 = some w := by
      intro field hfield
      have hread := ih field.1 field.2 (Std.ExtTreeMap.mem_toList_iff_getElem?_eq_some.mp hfield)
      obtain ⟨w, hw, -⟩ := bind_eq_some_iff.mp hread
      exact ⟨w, hw⟩
    obtain ⟨j, hdoc, -⟩ := exists_toJson_map hwritten
    obtain ⟨w, himage⟩ := exists_jsonImage_map hdoc fun {key v} hv =>
      ⟨v, ih key v (by rwa [GoMap.ofList_toList] at hv)⟩
    obtain ⟨d, rfl, hentries, -⟩ := of_jsonImage_map himage
    have hsame : d = m := by
      apply Std.ExtTreeMap.ext_getElem?
      intro key
      rw [hentries, GoMap.ofList_toList]
      cases hv : m[key]? with
      | none => rfl
      | some v => exact ih key v hv
    exact hsame ▸ himage

/-- A small integer has the text of the `float64` that JSON reads it as. -/
theorem toJson_float64_ofInt (kind : IntKind) (n : kind.Value) (h : n.1.natAbs < 2 ^ 53) :
    toJson P (.float64 (F64.ofInt n.1)) = toJson P (.int kind n) := by
  rw [toJson, toJson, jsonFloat64, if_pos (F64.isFinite_ofInt h), P.formatFloat64_int _ h]

theorem canonicalAnnounceJSON_eq (frame : FrameDict T) :
    canonicalAnnounceJSON P frame = documentText P (signedForm frame) := by
  rw [canonicalAnnounceJSON, canonicalAnnounceRoot, signedForm, ← signedMembers]
  cases (signedMembers frame)["heartbeat_interval_ms"]? with
  | some _ => rfl
  | none =>
    refine congrArg (Option.map _) (toJson_ofMap_congr fun key => ?_)
    rw [GoMap.getElem?_insert, GoMap.getElem?_insert]
    split_ifs
    · exact congrArg some (toJson_float64_ofInt P .int ⟨60000, by decide⟩ (by decide)).symm
    · rfl

/-- Announcements read from JSON have the same signed text exactly if they have the same signed form. -/
theorem canonicalAnnounceJSON_eq_iff {f g : FrameDict T} (hf : JsonObject f) (hg : JsonObject g) :
    canonicalAnnounceJSON P f = canonicalAnnounceJSON P g ↔ signedForm f = signedForm g := by
  rw [canonicalAnnounceJSON_eq, canonicalAnnounceJSON_eq]
  refine ⟨fun htext => ?_, congrArg _⟩
  have himage := (JsonData.object (jsonObject_signedForm hf)).jsonImage_eq P
  have himage' := (JsonData.object (jsonObject_signedForm hg)).jsonImage_eq P
  obtain ⟨doc, hdoc, hread⟩ := bind_eq_some_iff.mp himage
  obtain ⟨doc', hdoc', hread'⟩ := bind_eq_some_iff.mp himage'
  rw [documentText, documentText, hdoc, hdoc'] at htext
  have hmarshal := GoString.bytes_ofChars_injective (some.inj htext)
  rw [JsonValue.normal_eq_of_marshal_eq jsonNumber hmarshal, hread'] at hread
  have hmaps := congrArg GoAny.asMap (some.inj hread)
  rw [GoAny.asMap_ofMap, GoAny.asMap_ofMap] at hmaps
  exact (some.inj hmaps).symm

def hostAddress : FrameDict Empty := (∅ : FrameDict Empty).insert "host" (.string "a.example")

def jsonAnnounce (nid : String) (health : Bool) (address : FrameDict Empty) : FrameDict Empty :=
  (((∅ : FrameDict Empty).insert "nid" (.string nid)).insert "health" (.bool health)).insert "addresses"
    (.slice [.ofMap address, .nil])

theorem jsonObject_empty : JsonObject (∅ : FrameDict Empty) := fun key v hv => by
  cases hv

theorem jsonObject_jsonAnnounce (nid : String) (health : Bool) {address : FrameDict Empty}
    (haddress : JsonObject address) : JsonObject (jsonAnnounce nid health address) := by
  have hnamed := (jsonObject_empty.insert "nid" (.string (GoString.valid_ofChars nid.toList))).insert "health"
    (.bool health)
  refine hnamed.insert "addresses" (.slice fun v hv => ?_)
  rcases List.mem_pair.mp hv with rfl | rfl
  · exact .object haddress
  · exact .nil

/-- The health and a null member of an address do not change the text; the name does. -/
theorem jsonAnnounce_signed :
    canonicalAnnounceJSON plainPlatform (jsonAnnounce "a" true (hostAddress.insert "port" .nil)) =
        canonicalAnnounceJSON plainPlatform (jsonAnnounce "a" false hostAddress) ∧
      canonicalAnnounceJSON plainPlatform (jsonAnnounce "a" false hostAddress) ≠
        canonicalAnnounceJSON plainPlatform (jsonAnnounce "b" false hostAddress) := by
  have hhost : JsonObject hostAddress := jsonObject_empty.insert "host" (.string (GoString.valid_ofChars _))
  have ha := jsonObject_jsonAnnounce "a" false hhost
  have hnull := jsonObject_jsonAnnounce "a" true (hhost.insert "port" .nil)
  have hsame : signedForm (jsonAnnounce "a" true (hostAddress.insert "port" .nil)) =
      signedForm (jsonAnnounce "a" false hostAddress) := by with_unfolding_all rfl
  have hname : (signedForm (jsonAnnounce "a" false hostAddress))["nid"]? = some (.string "a") := by
    with_unfolding_all rfl
  have hother : (signedForm (jsonAnnounce "b" false hostAddress))["nid"]? = some (.string "b") := by
    with_unfolding_all rfl
  refine ⟨(canonicalAnnounceJSON_eq_iff plainPlatform hnull ha).mpr hsame, fun htext => ?_⟩
  rw [(canonicalAnnounceJSON_eq_iff plainPlatform ha (jsonObject_jsonAnnounce "b" false hhost)).mp htext] at hname
  cases hname.symm.trans hother

end NpsSdk.Ndp
