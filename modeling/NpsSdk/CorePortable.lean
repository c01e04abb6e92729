import NpsSdk.CoreCarriage
import NpsSdk.JsonNesting

/-! Which values come back from the two stable tiers as they were, but for the types of numbers. JSON needs
texts that are UTF-8 and both tiers need containers that hold any value, since a decoder makes no others;
JSON bounds the nesting too. -/

namespace NpsSdk.Core

open GoMap GoAny GoString
open JsonValue List Option

theorem mapM_eq_some_iff {α β : Type} {f : α → Option β} {l : List α} {l' : List β} :
    l.mapM f = some l' ↔ List.Forall₂ (fun a b => f a = some b) l l' := by
  induction l generalizing l' with
  | nil => simp [eq_comm]
  | cons a l ih =>
    rw [mapM_cons, forall₂_cons_left_iff]
    constructor
    · intro h
      obtain ⟨b, hb, hrest⟩ := bind_eq_some_iff.mp h
      obtain ⟨bs, hbs, heq⟩ := bind_eq_some_iff.mp hrest
      cases heq
      exact ⟨b, bs, hb, ih.mp hbs, rfl⟩
    · rintro ⟨b, bs, hb, hbs, rfl⟩
      rw [hb, ih.mpr hbs]
      rfl

theorem exists_of_forall₂_left {α β : Type} {R : α → β → Prop} {l : List α} {l' : List β}
    (h : List.Forall₂ R l l') {a : α} (ha : a ∈ l) : ∃ b ∈ l', R a b := by
  induction h with
  | nil => cases ha
  | cons hab _ ih =>
    rcases mem_cons.mp ha with rfl | ha
    · exact ⟨_, mem_cons_self, hab⟩
    · obtain ⟨b, hb, hR⟩ := ih ha
      exact ⟨b, mem_cons_of_mem _ hb, hR⟩

theorem exists_forall₂ {α β : Type} {R : α → β → Prop} {l : List α} (h : ∀ a ∈ l, ∃ b, R a b) :
    ∃ l', List.Forall₂ R l l' := by
  induction l with
  | nil => exact ⟨[], .nil⟩
  | cons a l ih =>
    obtain ⟨b, hb⟩ := h a mem_cons_self
    obtain ⟨l', hl'⟩ := ih fun a' ha' => h a' (mem_cons_of_mem _ ha')
    exact ⟨b :: l', .cons hb hl'⟩

section Portable

variable {T : Type} (P : Platform T) (M : MsgPack T) (tier : EncodingTier)

/-! ### Values but for the types of numbers -/

def numberValue (text : GoString) : Option F64 :=
  match jsonNumberText text with
  | some (.number n) => P.parseFloat n
  | _ => none

/-- The value of a number in the number type of JSON. -/
def numeric : GoAny T → Option F64
  | .int _ n => some (F64.ofInt n.1)
  | .float32 x => some (P.toFloat64 x)
  | .float64 x => some x
  | .number text => numberValue P text
  | _ => none

/-- The same value, but for the types of numbers. -/
inductive SameButNumbers : GoAny T → GoAny T → Prop
  | same (v : GoAny T) : SameButNumbers v v
  | numbers {v w : GoAny T} {x : F64} : numeric P v = some x → numeric P w = some x → SameButNumbers v w
  | slice {items items' : List (GoAny T)} : items.length = items'.length →
      (∀ p ∈ items.zip items', SameButNumbers p.1 p.2) → SameButNumbers (.slice items) (.slice items')
  | map {fields fields' : List (String × GoAny T)} :
      (∀ key : String, (ofList fields)[key]?.isSome = (ofList fields')[key]?.isSome) →
      (∀ (key : String) (v w : GoAny T), (ofList fields)[key]? = some v →
        (ofList fields')[key]? = some w → SameButNumbers v w) →
      SameButNumbers (.map fields) (.map fields')

/-- The values that are the same at the other end, but for the types of numbers. -/
inductive Portable : GoAny T → Prop
  | nil : Portable .nil
  | bool (b : Bool) : Portable (.bool b)
  | string {s : GoString} : (tier = encodingTierJSON → GoString.Valid s) → Portable (.string s)
  | int (kind : IntKind) (n : kind.Value) : Portable (.int kind n)
  | float32 {x : F32} :
      (tier = encodingTierJSON → P.parseFloat (P.formatFloat32 x) = some (P.toFloat64 x)) →
      Portable (.float32 x)
  | float64 (x : F64) : Portable (.float64 x)
  | number {text : GoString} : tier = encodingTierJSON → (numberValue P text).isSome →
      Portable (.number text)
  | slice {items : List (GoAny T)} : (∀ v ∈ items, Portable v) → Portable (.slice items)
  | map {fields : List (String × GoAny T)} :
      (∀ (key : String) (v : GoAny T), (ofList fields)[key]? = some v → Portable v) →
      Portable (.map fields)
  | other {t : T} : tier ≠ encodingTierJSON → M.other t = .other t → Portable (.other t)

/-- Slices and maps are nested at most so deep. -/
def NestsWithin : Nat → GoAny T → Prop
  | 0, .slice _ => False
  | 0, .map _ => False
  | n + 1, .slice items => ∀ v ∈ items, NestsWithin n v
  | n + 1, .map fields => ∀ (key : String) (v : GoAny T), (ofList fields)[key]? = some v → NestsWithin n v
  | _, _ => True

variable {P M tier}

theorem SameButNumbers.string_inj {s s' : GoString} (h : SameButNumbers P (.string s) (.string s')) : s' = s := by
  cases h with
  | same => rfl
  | numbers h => cases h

def isContainer : GoAny T → Bool
  | .slice _ | .map _ => true
  | _ => false

/-- Nothing but itself is the same as a value that is neither a number nor a container of any values. -/
theorem SameButNumbers.eq_of_rigid {v w : GoAny T} (h : SameButNumbers P v w) (hnumber : numeric P v = none)
    (hcontainer : isContainer v = false) : w = v := by
  cases h with
  | same => rfl
  | numbers h =>
    rw [hnumber] at h
    cases h
  | slice | map => cases hcontainer

/-! ### JSON -/

theorem toJsonItems_eq_mapM (items : List (GoAny T)) : toJsonItems P items = items.mapM (toJson P) :=
  eq_mapM_of_cons (f := toJsonItems P) rfl (fun _ _ => rfl) items

theorem ofJsonItems_eq_mapM (items : List (JsonValue JsonNumber)) : ofJsonItems P items = items.mapM (ofJson P) :=
  eq_mapM_of_cons (f := ofJsonItems P) rfl (fun _ _ => rfl) items

theorem jsonImage_slice (items : List (GoAny T)) :
    jsonImage P (.slice items) = (items.mapM (jsonImage P)).map .slice := by
  have hitems : ((toJsonItems P items).bind fun js => ofJsonItems P (normalItems js)) =
      items.mapM (jsonImage P) := by
    induction items with
    | nil => rfl
    | cons v items ih =>
      rw [mapM_cons, ← ih, jsonImage, toJsonItems]
      cases toJson P v with
      | none => rfl
      | some j =>
        cases toJsonItems P items with
        | none =>
          simp
        | some js =>
          simp only [bind_some, map_some, normalItems, ofJsonItems]
          cases ofJson P j.normal with
          | none => rfl
          | some w => cases ofJsonItems P (normalItems js) <;> rfl
  rw [← hitems, jsonImage, toJson]
  cases toJsonItems P items with
  | none => rfl
  | some js => rfl

variable {doc : JsonValue JsonNumber} {fields : List (String × GoAny T)} {v : GoAny T} {payload : Bytes}

theorem of_toJson_map (h : toJson P (.map fields) = some doc) : ∃ j : GoMap (JsonValue JsonNumber), doc = .ofMap j ∧
      (∀ key : String, j[key]? = (ofList fields)[key]?.bind (toJson P)) ∧
      ∀ field ∈ fields, ∃ w, toJson P field.2 = some w := by
  obtain ⟨out, hout, rfl⟩ := map_eq_some_iff.mp h
  rw [toJsonFields_eq_mapM] at hout
  refine ⟨_, rfl, getElem?_ofList_mapM hout, fun field hfield => ?_⟩
  obtain ⟨entry, -, hentry⟩ := exists_of_forall₂_left (mapM_eq_some_iff.mp hout) hfield
  obtain ⟨w, hw, -⟩ := map_eq_some_iff.mp hentry
  exact ⟨w, hw⟩

theorem exists_of_ofJson_ofMap {j : GoMap (JsonValue JsonNumber)} {w : GoAny T}
    (h : ofJson P (.ofMap j) = some w) {key : String} {x : JsonValue JsonNumber} (hx : j[key]? = some x) :
    ∃ y, ofJson P x = some y := by
  obtain ⟨out, hout, -⟩ := map_eq_some_iff.mp h
  rw [ofJsonFields_eq_mapM] at hout
  obtain ⟨entry, -, hentry⟩ := exists_of_forall₂_left (mapM_eq_some_iff.mp hout)
    (Std.ExtTreeMap.mem_toList_iff_getElem?_eq_some.mpr hx)
  obtain ⟨y, hy, -⟩ := map_eq_some_iff.mp hentry
  exact ⟨y, hy⟩

theorem of_jsonImage_map {w : GoAny T} (h : jsonImage P (.map fields) = some w) : ∃ d : GoDict T, w = .ofMap d ∧
      (∀ key : String, d[key]? = (ofList fields)[key]?.bind (jsonImage P)) ∧
      ∀ {key : String} {v : GoAny T}, (ofList fields)[key]? = some v → ∃ w, jsonImage P v = some w := by
  obtain ⟨doc, hdoc, hread⟩ := bind_eq_some_iff.mp h
  obtain ⟨j, rfl, hj, htotal⟩ := of_toJson_map hdoc
  rw [normal_ofMap] at hread
  obtain ⟨d, rfl, hd⟩ := ofJson_ofMap P hread
  have himage : ∀ {key : String} {v : GoAny T}, (ofList fields)[key]? = some v →
      ∃ x, toJson P v = some x ∧ (j.map fun _ x => x.normal)[key]? = some x.normal := by
    intro key v hv
    obtain ⟨x, hx⟩ := htotal _ (mem_of_getElem?_ofList hv)
    have hx' : toJson P v = some x := hx
    refine ⟨x, hx', ?_⟩
    rw [Std.ExtTreeMap.getElem?_map, hj, hv, bind_some, hx']
    rfl
  refine ⟨d, rfl, fun key => ?_, fun {key v} hv => ?_⟩
  · rw [hd]
    cases hv : (ofList fields)[key]? with
    | none =>
      rw [Std.ExtTreeMap.getElem?_map, hj, hv]
      rfl
    | some v =>
      obtain ⟨x, hx, hentry⟩ := himage hv
      rw [hentry, bind_some, bind_some, jsonImage, hx]
      rfl
  · obtain ⟨x, hx, hentry⟩ := himage hv
    obtain ⟨y, hy⟩ := exists_of_ofJson_ofMap hread hentry
    exact ⟨y, by rw [jsonImage, hx]; exact hy⟩

theorem exists_jsonImage_map (hdoc : toJson P (.map fields) = some doc)
    (h : ∀ {key : String} {v : GoAny T}, (ofList fields)[key]? = some v → ∃ w, jsonImage P v = some w) :
    ∃ w, jsonImage P (.map fields) = some w := by
  obtain ⟨j, rfl, hj, -⟩ := of_toJson_map hdoc
  have hread : ∀ (key : String) (x : JsonValue JsonNumber), (j.map fun _ x => x.normal)[key]? = some x →
      ∃ y, ofJson P x = some y := by
    intro key x hx
    rw [Std.ExtTreeMap.getElem?_map, hj] at hx
    obtain ⟨x', hx', rfl⟩ := map_eq_some_iff.mp hx
    obtain ⟨v, hv, htoJson⟩ := bind_eq_some_iff.mp hx'
    obtain ⟨w, hw⟩ := h hv
    rw [jsonImage, htoJson] at hw
    exact ⟨w, hw⟩
  obtain ⟨d, hd, -⟩ := exists_ofJson_ofMap hread
  refine ⟨.ofMap d, ?_⟩
  rw [jsonImage, hdoc, bind_some, normal_ofMap]
  exact hd

theorem ofJson_ne_other {t : T} : ofJson P doc ≠ some (.other t) := by
  intro h
  cases doc with
  | null | bool | string => cases h
  | number | array | object =>
    obtain ⟨x, -, heq⟩ := map_eq_some_iff.mp h
    cases heq

theorem SameButNumbers.items {items items' : List (GoAny T)} (h : SameButNumbers P (.slice items) (.slice items')) :
    List.Forall₂ (SameButNumbers P) items items' := by
  cases h with
  | same => exact forall₂_same.mpr fun v _ => .same v
  | numbers h => cases h
  | slice hlength hzip => exact forall₂_iff_zip.mpr ⟨hlength, fun hp => hzip _ hp⟩

theorem SameButNumbers.entry {fields fields' : List (String × GoAny T)}
    (h : SameButNumbers P (.map fields) (.map fields')) {key : String} {v w : GoAny T}
    (hv : (ofList fields)[key]? = some v) (hw : (ofList fields')[key]? = some w) : SameButNumbers P v w := by
  cases h with
  | same =>
    rw [hv] at hw
    cases hw
    exact .same v
  | numbers h => cases h
  | map _ hentries => exact hentries key v w hv hw

theorem exists_slice_of_jsonImage {v w : GoAny T} (js : Option (List (JsonValue JsonNumber)))
    (hdoc : toJson P v = js.map .array) (h : jsonImage P v = some w) : ∃ items, w = .slice items := by
  rw [jsonImage, hdoc] at h
  obtain ⟨doc, hjs, hread⟩ := bind_eq_some_iff.mp h
  obtain ⟨items, -, rfl⟩ := map_eq_some_iff.mp hjs
  obtain ⟨items', -, rfl⟩ := map_eq_some_iff.mp hread
  exact ⟨items', rfl⟩

theorem jsonImage_string (s : GoString) :
    jsonImage P (.string s) = some (.string (ofChars (toChars s))) := rfl

theorem jsonImage_int (kind : IntKind) (n : kind.Value) :
    jsonImage P (.int kind n) = some (.float64 (F64.ofInt n.1)) := by
  have hbound : n.1.natAbs < 2 ^ 64 := by
    obtain ⟨n, hlower, hupper⟩ := n
    cases kind <;> simp only [IntKind.lower, IntKind.upper] at hlower hupper <;> dsimp only <;> omega
  change (P.parseFloat (intNumber n.1)).map float64 = _
  rw [P.parseFloat_int n.1 hbound]
  rfl

theorem eq_number_of_jsonNumberText {text : GoString} (h : jsonNumberText text = some doc) : ∃ n, doc = .number n := by
  unfold jsonNumberText at h
  generalize (if text = [] then ['0'] else toChars text) = chars at h
  dsimp only at h
  split_ifs at h
  obtain ⟨n, -, rfl⟩ := map_eq_some_iff.mp h
  exact ⟨n, rfl⟩

section

variable (htier : tier = encodingTierJSON)
include htier

theorem portable_of_jsonImage (v : GoAny T) {w : GoAny T} (himage : jsonImage P v = some w)
    (h : SameButNumbers P v w) : Portable P M tier v := by
  induction v using induction_parts generalizing w with | value v ih =>
  cases v with
  | nil => exact .nil
  | nilOf kind =>
    cases himage
    cases h.eq_of_rigid rfl rfl
  | bool b => exact .bool b
  | string s =>
    cases himage
    exact .string fun _ => (ofChars_toChars_eq_iff s).mp h.string_inj
  | int kind n => exact .int kind n
  | float32 x =>
    rw [jsonImage, toJson, jsonFloat32] at himage
    split_ifs at himage
    · obtain ⟨y, hy, rfl⟩ := map_eq_some_iff.mp himage
      refine .float32 fun _ => ?_
      cases h with
      | numbers hx hy' =>
        cases hx
        cases hy'
        exact hy
    · cases himage
  | float64 x => exact .float64 x
  | number text =>
    refine .number htier ?_
    obtain ⟨doc, hdoc, hread⟩ := bind_eq_some_iff.mp himage
    have hnumber : jsonNumberText text = some doc := hdoc
    obtain ⟨n, rfl⟩ := eq_number_of_jsonNumberText hnumber
    obtain ⟨x, hx, -⟩ := map_eq_some_iff.mp hread
    rw [numberValue, hnumber]
    exact isSome_iff_exists.mpr ⟨x, hx⟩
  | strings items =>
    obtain ⟨items', rfl⟩ := exists_slice_of_jsonImage (some (items.map .string)) rfl himage
    cases h.eq_of_rigid rfl rfl
  | floats32 items =>
    obtain ⟨items', rfl⟩ := exists_slice_of_jsonImage (items.mapM (jsonFloat32 P)) rfl himage
    cases h.eq_of_rigid rfl rfl
  | floats64 items =>
    obtain ⟨items', rfl⟩ := exists_slice_of_jsonImage (items.mapM (jsonFloat64 P)) rfl himage
    cases h.eq_of_rigid rfl rfl
  | slice items =>
    rw [jsonImage_slice] at himage
    obtain ⟨items', hitems', rfl⟩ := map_eq_some_iff.mp himage
    refine .slice fun v hv => ?_
    obtain ⟨w, -, hw, hsame⟩ :=
      exists_of_forall₂_left ((mapM_eq_some_iff.mp hitems').mp (fun _ _ => And.intro) h.items) hv
    exact ih v hv hw hsame
  | maps items =>
    obtain ⟨items', rfl⟩ := exists_slice_of_jsonImage (toJsonItems P items) rfl himage
    cases h.eq_of_rigid rfl rfl
  | map =>
    obtain ⟨d, rfl, hd, htotal⟩ := of_jsonImage_map himage
    refine .map fun key v hv => ?_
    obtain ⟨w, hw⟩ := htotal hv
    refine ih v (mem_map_of_mem (mem_of_getElem?_ofList hv)) hw (h.entry hv ?_)
    rw [toMap_ofMap, hd, hv]
    exact hw
  | other t =>
    have heq := h.eq_of_rigid rfl rfl
    obtain ⟨doc, -, hread⟩ := bind_eq_some_iff.mp himage
    rw [heq] at hread
    exact absurd hread ofJson_ne_other

theorem Portable.exists_jsonImage {v : GoAny T} (h : Portable P M tier v) {doc : JsonValue JsonNumber}
    (hdoc : toJson P v = some doc) : ∃ w, jsonImage P v = some w ∧ SameButNumbers P v w := by
  induction h generalizing doc with
  | nil => exact ⟨.nil, rfl, .same _⟩
  | bool b => exact ⟨.bool b, rfl, .same _⟩
  | @string s hvalid =>
    refine ⟨.string s, ?_, .same _⟩
    rw [jsonImage_string, (ofChars_toChars_eq_iff s).mpr (hvalid htier)]
  | int kind n => exact ⟨_, jsonImage_int kind n, .numbers rfl rfl⟩
  | @float32 x hx =>
    have hfinite : x.isFinite = true := by
      rw [toJson, jsonFloat32] at hdoc
      split_ifs at hdoc with hfinite
      exact hfinite
    refine ⟨.float64 (P.toFloat64 x), ?_, .numbers rfl rfl⟩
    rw [jsonImage, toJson, jsonFloat32, if_pos hfinite]
    exact congrArg (Option.map GoAny.float64) (hx htier)
  | float64 x =>
    have hfinite : x.isFinite = true := by
      rw [toJson, jsonFloat64] at hdoc
      split_ifs at hdoc with hfinite
      exact hfinite
    refine ⟨.float64 x, ?_, .same _⟩
    rw [jsonImage, toJson, jsonFloat64, if_pos hfinite]
    exact congrArg (Option.map GoAny.float64) (P.parseFloat_float64 x hfinite)
  | @number text _ hsome =>
    obtain ⟨x, hx⟩ := isSome_iff_exists.mp hsome
    refine ⟨.float64 x, ?_, .numbers hx rfl⟩
    have hnumber : jsonNumberText text = some doc := hdoc
    obtain ⟨n, rfl⟩ := eq_number_of_jsonNumberText hnumber
    rw [numberValue, hnumber] at hx
    rw [jsonImage, hdoc]
    exact congrArg (Option.map GoAny.float64) hx
  | @slice items _ ih =>
    rw [toJson, toJsonItems_eq_mapM] at hdoc
    obtain ⟨js, hjs, rfl⟩ := map_eq_some_iff.mp hdoc
    have hread : ∀ v ∈ items, ∃ w, jsonImage P v = some w ∧ SameButNumbers P v w := by
      intro v hv
      obtain ⟨j, -, hj⟩ := exists_of_forall₂_left (mapM_eq_some_iff.mp hjs) hv
      exact ih v hv hj
    obtain ⟨items', hitems'⟩ := exists_forall₂ hread
    refine ⟨.slice items', ?_, ?_⟩
    · rw [jsonImage_slice, mapM_eq_some_iff.mpr (hitems'.imp fun _ _ h => h.1)]
      rfl
    · have hsame := forall₂_iff_zip.mp (hitems'.imp fun _ _ h => h.2)
      exact .slice hsame.1 fun p hp => hsame.2 hp
  | @map fields _ ih =>
    obtain ⟨j, -, -, htotal⟩ := of_toJson_map hdoc
    have hread : ∀ {key : String} {v : GoAny T}, (ofList fields)[key]? = some v →
        ∃ w, jsonImage P v = some w ∧ SameButNumbers P v w := by
      intro key v hv
      obtain ⟨x, hx⟩ := htotal _ (mem_of_getElem?_ofList hv)
      exact ih key v hv hx
    obtain ⟨w, hw⟩ := exists_jsonImage_map hdoc fun {key v} hv => (hread hv).imp fun _ h => h.1
    obtain ⟨d, rfl, hd, -⟩ := of_jsonImage_map hw
    refine ⟨.ofMap d, hw, .map (fun key => ?_) fun key v w hv hw => ?_⟩
    · rw [toMap_ofMap, hd]
      cases hv : (ofList fields)[key]? with
      | none => rfl
      | some v =>
        obtain ⟨w, hw, -⟩ := hread hv
        rw [bind_some, hw]
        rfl
    · obtain ⟨w', hw', hsame⟩ := hread hv
      rw [toMap_ofMap, hd, hv, bind_some, hw'] at hw
      cases hw
      exact hsame
  | other hne => exact absurd htier hne

end

/-! ### MessagePack -/

theorem msgpackItems_eq_map (other : T → GoAny T) (items : List (GoAny T)) :
    msgpackItems other items = items.map (msgpackImage other) := eq_map_of_cons rfl (fun _ _ => rfl) items

section

variable (hne : tier ≠ encodingTierJSON)
include hne

theorem portable_of_msgpackImage (v : GoAny T) (h : SameButNumbers P v (msgpackImage M.other v)) :
    Portable P M tier v := by
  induction v using induction_parts with | value v ih =>
  cases v with
  | nil => exact .nil
  | bool b => exact .bool b
  | string s => exact .string fun htier => absurd htier hne
  | int kind n => exact .int kind n
  | float32 x => exact .float32 fun htier => absurd htier hne
  | float64 x => exact .float64 x
  | number text =>
    cases h with
    | numbers _ h => cases h
  | slice items =>
    rw [msgpackImage, msgpackItems_eq_map] at h
    have hitems := forall₂_same.mp (forall₂_map_right_iff.mp h.items)
    exact .slice fun v hv => ih v hv (hitems v hv)
  | map =>
    refine .map fun key v hv => ?_
    refine ih v (mem_map_of_mem (mem_of_getElem?_ofList hv)) (h.entry hv ?_)
    rw [toMap_ofMap, msgpackFields_eq_map, ofList_map, Std.ExtTreeMap.getElem?_map, hv]
    rfl
  | other t => exact .other hne (h.eq_of_rigid rfl rfl)
  | _ => cases h.eq_of_rigid rfl rfl

theorem Portable.msgpackImage {v : GoAny T} (h : Portable P M tier v) :
    SameButNumbers P v (Core.msgpackImage M.other v) := by
  induction h with
  | nil | bool | string _ | float32 _ | float64 => exact .same _
  | int kind n => cases kind <;> exact .numbers rfl rfl
  | number htier _ => exact absurd htier hne
  | @slice items _ ih =>
    rw [Core.msgpackImage, msgpackItems_eq_map]
    have hsame : List.Forall₂ (SameButNumbers P) items (items.map (Core.msgpackImage M.other)) :=
      forall₂_map_right_iff.mpr (forall₂_same.mpr ih)
    obtain ⟨hlength, hzip⟩ := forall₂_iff_zip.mp hsame
    exact .slice hlength fun p hp => hzip hp
  | @map fields _ ih =>
    refine .map (fun key => ?_) fun key v w hv hw => ?_
    · rw [toMap_ofMap, msgpackFields_eq_map, ofList_map, Std.ExtTreeMap.getElem?_map, isSome_map]
    · rw [toMap_ofMap, msgpackFields_eq_map, ofList_map, Std.ExtTreeMap.getElem?_map, hv] at hw
      cases hw
      exact ih key v hv
  | other _ hother =>
    rw [Core.msgpackImage, hother]
    exact .same _

end

/-- Exactly the portable values are the same at the other end, but for the types of numbers. -/
theorem portable_iff (hwritten : tier = encodingTierJSON → ∃ doc, toJson P v = some doc) :
    (∃ w, carried P M tier v = some w ∧ SameButNumbers P v w) ↔ Portable P M tier v := by
  rw [carried]
  split_ifs with htier
  · obtain ⟨doc, hdoc⟩ := hwritten htier
    constructor
    · rintro ⟨w, hw, hsame⟩
      exact portable_of_jsonImage htier v hw hsame
    · exact fun h => h.exists_jsonImage htier hdoc
  · constructor
    · rintro ⟨w, hw, hsame⟩
      cases hw
      exact portable_of_msgpackImage htier v hsame
    · exact fun h => ⟨_, rfl, h.msgpackImage htier⟩

/-! ### Nesting -/

theorem eq_number_of_jsonFloat32 {x : F32} (h : jsonFloat32 P x = some doc) : ∃ n, doc = .number n := by
  rw [jsonFloat32] at h
  split_ifs at h
  cases h
  exact ⟨_, rfl⟩

theorem eq_number_of_jsonFloat64 {x : F64} (h : jsonFloat64 P x = some doc) : ∃ n, doc = .number n := by
  rw [jsonFloat64] at h
  split_ifs at h
  cases h
  exact ⟨_, rfl⟩

/-- A portable value is a slice or a map, or its document nests nothing. -/
theorem Portable.flat_or_container (h : Portable P M encodingTierJSON v) (hdoc : toJson P v = some doc) :
    (doc.depth = 0 ∧ ∀ n, NestsWithin n v) ∨ (∃ items, v = .slice items) ∨ ∃ fields, v = .map fields := by
  cases h with
  | nil | bool | string | int kind n =>
    cases hdoc
    exact .inl ⟨rfl, fun n => by cases n <;> trivial⟩
  | float32 _ =>
    obtain ⟨n, rfl⟩ := eq_number_of_jsonFloat32 hdoc
    exact .inl ⟨rfl, fun n => by cases n <;> trivial⟩
  | float64 x =>
    obtain ⟨n, rfl⟩ := eq_number_of_jsonFloat64 hdoc
    exact .inl ⟨rfl, fun n => by cases n <;> trivial⟩
  | number _ _ =>
    obtain ⟨n, rfl⟩ := eq_number_of_jsonNumberText hdoc
    exact .inl ⟨rfl, fun n => by cases n <;> trivial⟩
  | slice _ => exact .inr (.inl ⟨_, rfl⟩)
  | map _ => exact .inr (.inr ⟨_, rfl⟩)
  | other hne _ => exact absurd rfl hne

theorem Portable.items {items : List (GoAny T)} (h : Portable P M tier (.slice items)) :
    ∀ v ∈ items, Portable P M tier v := by
  cases h with
  | slice hitems => exact hitems

theorem Portable.entries (h : Portable P M tier (.map fields)) :
    ∀ (key : String) (v : GoAny T), (ofList fields)[key]? = some v → Portable P M tier v := by
  cases h with
  | map hentries => exact hentries

section

variable (h : Portable P M encodingTierJSON v) (hdoc : toJson P v = some doc)
include h hdoc

theorem depth_le_of_nestsWithin {n : Nat}
    (hnests : NestsWithin n v) : doc.depth ≤ n := by
  induction n generalizing v doc with
  | zero =>
    rcases h.flat_or_container hdoc with ⟨hflat, -⟩ | ⟨items, rfl⟩ | ⟨fields, rfl⟩
    · exact hflat.le
    · exact hnests.elim
    · exact hnests.elim
  | succ n ih =>
    rcases h.flat_or_container hdoc with ⟨hflat, -⟩ | ⟨items, rfl⟩ | ⟨fields, rfl⟩
    · rw [hflat]
      exact Nat.zero_le _
    · rw [toJson, toJsonItems_eq_mapM] at hdoc
      obtain ⟨js, hjs, rfl⟩ := map_eq_some_iff.mp hdoc
      refine depth_array_le.mpr fun j hj => ?_
      obtain ⟨v, hv, htoJson⟩ := exists_of_forall₂_left (mapM_eq_some_iff.mp hjs).flip hj
      exact ih (h.items v hv) htoJson (hnests v hv)
    · obtain ⟨j, rfl, hentries, -⟩ := of_toJson_map hdoc
      refine depth_ofMap_le.mpr fun key x hx => ?_
      rw [hentries] at hx
      obtain ⟨v, hv, htoJson⟩ := bind_eq_some_iff.mp hx
      exact ih (h.entries key v hv) htoJson (hnests key v hv)

theorem nestsWithin_of_depth_normal {n : Nat}
    (hdepth : doc.normal.depth ≤ n) : NestsWithin n v := by
  induction n generalizing v doc with
  | zero =>
    rcases h.flat_or_container hdoc with ⟨-, hnests⟩ | ⟨items, rfl⟩ | ⟨fields, rfl⟩
    · exact hnests 0
    · obtain ⟨js, hjs, rfl⟩ := map_eq_some_iff.mp hdoc
      exact absurd hdepth (Nat.not_succ_le_zero _)
    · obtain ⟨j, rfl, -⟩ := of_toJson_map hdoc
      exact absurd hdepth (Nat.not_succ_le_zero _)
  | succ n ih =>
    rcases h.flat_or_container hdoc with ⟨-, hnests⟩ | ⟨items, rfl⟩ | ⟨fields, rfl⟩
    · exact hnests (n + 1)
    · rw [toJson, toJsonItems_eq_mapM] at hdoc
      obtain ⟨js, hjs, rfl⟩ := map_eq_some_iff.mp hdoc
      rw [normal, normalItems_eq_map, depth_array_le] at hdepth
      intro v hv
      obtain ⟨j, hj, htoJson⟩ := exists_of_forall₂_left (mapM_eq_some_iff.mp hjs) hv
      exact ih (h.items v hv) htoJson (hdepth _ (mem_map_of_mem hj))
    · obtain ⟨j, rfl, hentries, htotal⟩ := of_toJson_map hdoc
      rw [normal_ofMap, depth_ofMap_le] at hdepth
      intro key v hv
      obtain ⟨x, hx⟩ := htotal _ (mem_of_getElem?_ofList hv)
      have hx' : toJson P v = some x := hx
      refine ih (h.entries key v hv) hx' (hdepth key _ ?_)
      rw [Std.ExtTreeMap.getElem?_map, hentries, hv, bind_some, hx']
      rfl

end

theorem exists_toJson_of_jsonMarshal {d : FrameDict T} (h : jsonMarshal P d = .ok payload) :
    ∃ doc, toJson P (.ofMap d) = some doc ∧
      ∀ {key : String} {v : GoAny T}, d[key]? = some v → ∃ j, toJson P v = some j := by
  rw [jsonMarshal] at h
  split at h
  · rename_i doc hdoc
    obtain ⟨-, -, -, htotal⟩ := of_toJson_map hdoc
    refine ⟨doc, hdoc, fun {key v} hv => ?_⟩
    exact htotal (key, v) (Std.ExtTreeMap.mem_toList_iff_getElem?_eq_some.mpr hv)
  · cases h

/-- What can be read member by member, and is not nested too deep, can be read. -/
theorem exists_jsonUnmarshal {d : FrameDict T} (hdoc : toJson P (.ofMap d) = some doc)
    (hdepth : doc.depth ≤ maxNestingDepth)
    (hread : ∀ {key : String} {v : GoAny T}, d[key]? = some v → ∃ w, jsonImage P v = some w)
    (hmarshal : jsonMarshal P d = .ok payload) : ∃ d', jsonUnmarshal P payload = .ok d' := by
  obtain ⟨w, hw⟩ := exists_jsonImage_map hdoc fun {key v} hv => hread (by rwa [GoAny.toMap_ofMap] at hv)
  obtain ⟨d', rfl, -⟩ := of_jsonImage_map hw
  rw [jsonImage] at hw
  rw [GoAny.ofMap] at hdoc
  rw [hdoc, bind_some] at hw
  rw [jsonMarshal, GoAny.ofMap, hdoc] at hmarshal
  cases hmarshal
  rw [jsonUnmarshal, ofBytes_bytes, unmarshal_marshal jsonNumber _ hdepth, bind_some, hw]
  exact ⟨_, rfl⟩

theorem depth_of_jsonUnmarshal {d d' : FrameDict T} (hdoc : toJson P (.ofMap d) = some doc)
    (hmarshal : jsonMarshal P d = .ok payload) (h : jsonUnmarshal P payload = .ok d') :
    doc.normal.depth ≤ maxNestingDepth := by
  rw [jsonMarshal, hdoc] at hmarshal
  cases hmarshal
  rw [jsonUnmarshal, ofBytes_bytes] at h
  cases hread : unmarshal jsonNumber (ofChars (marshal jsonNumber doc)) with
  | none =>
    rw [hread] at h
    cases h
  | some w =>
    rw [← eq_normal_of_unmarshal jsonNumber hread]
    exact (read_of_unmarshal jsonNumber hread).depth_le

end Portable

end NpsSdk.Core
