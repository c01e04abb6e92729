import NpsSdk.GoEncoding

/-! The tier for vectors. The vector of a search is taken out of the frame and written as `float32` values
behind the rest, which is MessagePack and keeps a marker in its place. The decoder puts the vector back
where the marker stands. -/

namespace NpsSdk.Core

open ByteOrder GoMap List Option GoDict

section BinaryVector

variable {T : Type}

def binaryVectorVersion : UInt8 := 1
def binaryVectorPrefix : Nat := 16
def binaryVectorMarker : String := "$nps_binary_vector"
def binaryVectorMagic : Bytes := [0x4E, 0x50, 0x42, 0x56]

/-! ### Values -/

mutual

/-- A copy of the maps and slices of a value; the copy of a nil one is empty. -/
def cloneValue : GoAny T → GoAny T
  | .map fields => .map (cloneFields fields)
  | .slice items => .slice (cloneItems items)
  | .nilOf .map => .map []
  | .nilOf .slice => .slice []
  | v => v

def cloneItems : List (GoAny T) → List (GoAny T)
  | [] => []
  | v :: items => cloneValue v :: cloneItems items

def cloneFields : List (String × GoAny T) → List (String × GoAny T)
  | [] => []
  | (key, v) :: fields => (key, cloneValue v) :: cloneFields fields

end

def cloneDict (d : FrameDict T) : FrameDict T := d.map fun _ v => cloneValue v

theorem int_holds_bmod (n : Int) : IntKind.int.Holds (n.bmod (2 ^ 64)) := by
  have hlow := Int.le_bmod (x := n) (m := 2 ^ 64) (by decide)
  have hhigh := Int.bmod_lt (x := n) (m := 2 ^ 64) (by decide)
  simp only [IntKind.Holds, IntKind.lower, IntKind.upper]
  omega

def goInt (n : Int) : GoAny T := .int .int ⟨n.bmod (2 ^ 64), int_holds_bmod n⟩

def floatValue (P : Platform T) : GoAny T → Option F64
  | .float32 x => some (P.toFloat64 x)
  | .float64 x => some x
  | .int _ n => some (F64.ofInt n.1)
  | _ => none

def intValue : GoAny T → Option Int
  | .int _ n => some (n.1.bmod (2 ^ 64))
  | _ => none

/-- A component of a vector that is given as any numbers: these must be finite. -/
def readComponent (P : Platform T) (item : GoAny T) : Option F32 :=
  match floatValue P item with
  | some x => if x.isFinite then some (P.toFloat32 x) else none
  | none => none

def readFloatVector (P : Platform T) : GoAny T → Option (List F32)
  | .floats32 items => some items
  | .nilOf .floats32 => some []
  | .floats64 items => some (items.map P.toFloat32)
  | .nilOf .floats64 => some []
  | .slice items => items.mapM (readComponent P)
  | .nilOf .slice => some []
  | _ => none

/-! ### Encoding -/

def vectorMarker (index dim : Int) : FrameDict T :=
  (((∅ : FrameDict T).insert binaryVectorMarker (goInt index)).insert "dtype" (.string "float32")).insert
    "dim" (goInt dim)

/-- The frame with the marker in place of its vector, and the vectors taken out. -/
def extractVectorSearchVector (P : Platform T) (metadata : FrameDict T) : FrameDict T × List (List F32) :=
  match (get metadata "vector_search").asMap with
  | none => (metadata, [])
  | some vectorSearch =>
    match readFloatVector P (get vectorSearch "vector") with
    | none => (metadata, [])
    | some vector =>
      (metadata.insert "vector_search"
        (.ofMap (vectorSearch.insert "vector" (.ofMap (vectorMarker 0 vector.length)))), [vector])

def floatBytes (x : F32) : Bytes := putLE 4 x.toNat

def vectorSegment (vector : List F32) : Bytes :=
  putBE 4 vector.length ++ vector.flatMap floatBytes

def vectorPrefix (vectorCount metadataLen : Nat) : Bytes :=
  binaryVectorMagic ++ [binaryVectorVersion, 0] ++ putBE 2 vectorCount ++
    putBE 4 metadataLen ++ putBE 4 0

def encodeBinaryVector (P : Platform T) (M : MsgPack T) (dict : FrameDict T) : Except GoError Bytes := do
  let (metadata, vectors) := extractVectorSearchVector P (cloneDict dict)
  if vectors.length > 65535 then
    throw (.codec "binary vector supports at most 65535 vectors per frame")
  let metadataBytes ← (M.marshal metadata).mapError .codec
  return vectorPrefix vectors.length metadataBytes.length ++ metadataBytes ++ vectors.flatMap vectorSegment

/-! ### Decoding -/

def natText (n : Nat) : GoString := GoString.ofChars (Nat.toDigits 10 n)

def slice (bs : Bytes) (first last : Nat) : Bytes := (bs.drop first).take (last - first)

def decodePrefix (payload : Bytes) : Except GoError (Nat × Nat) := do
  if payload.length < binaryVectorPrefix then
    throw (.codec ("binary vector payload too short: " ++ natText payload.length ++ " bytes"))
  if payload.take 4 ≠ binaryVectorMagic then
    throw (.codec "binary vector payload magic mismatch")
  if payload.getD 4 0 ≠ binaryVectorVersion then
    throw (.codec ("unsupported binary vector version: " ++ natText (payload.getD 4 0).toNat))
  if payload.getD 5 0 ≠ 0 ∨ getBE (slice payload 12 16) ≠ 0 then
    throw (.codec "binary vector reserved fields must be zero")
  let vectorCount := getBE (slice payload 6 8)
  let metadataLen := getBE (slice payload 8 12)
  if metadataLen > payload.length - binaryVectorPrefix then
    throw (.codec "binary vector metadata length exceeds payload length")
  return (vectorCount, metadataLen)

def readFloats : Nat → Bytes → Except GoError (List F32 × Bytes)
  | 0, rest => .ok ([], rest)
  | dim + 1, rest => do
      let value : F32 := UInt32.ofNat (getLE (rest.take 4))
      if ¬ value.isFinite then
        throw (.codec "binary vector values must be finite float32")
      let (vector, rest) ← readFloats dim (rest.drop 4)
      return (value :: vector, rest)

def readVectors : Nat → Bytes → Except GoError (List (List F32) × Bytes)
  | 0, rest => .ok ([], rest)
  | count + 1, rest => do
      if rest.length < 4 then
        throw (.codec "binary vector segment missing dimension")
      let dim := getBE (rest.take 4)
      if dim > (2 ^ 63 - 1) / 4 then
        throw (.codec "binary vector dimension exceeds addressable payload size")
      let rest := rest.drop 4
      if rest.length < dim * 4 then
        throw (.codec "binary vector segment is truncated")
      let (vector, rest) ← readFloats dim rest
      let (vectors, rest) ← readVectors count rest
      return (vector :: vectors, rest)

def restoreVectorSearchVector (metadata : FrameDict T) (vectors : List (List F32)) :
    Except GoError (FrameDict T) :=
  match (get metadata "vector_search").asMap with
  | none => .ok metadata
  | some vectorSearch =>
    match vectorSearch["vector"]? with
    | none => .ok metadata
    | some markerValue =>
      match markerValue.asMap with
      | none => .error (.codec "binary vector marker must be an object")
      | some marker =>
        match intValue (get marker binaryVectorMarker) with
        | none => .error (.codec "binary vector marker missing vector index")
        | some index =>
          if index < 0 ∨ index ≥ vectors.length then
            .error (.codec ("binary vector marker references vector " ++
              GoString.ofChars (intText index) ++ ", but only " ++ natText vectors.length ++
              " vectors are present"))
          else if str marker "dtype" ≠ "float32" then
            .error (.codec "binary vector v1 only supports dtype=float32")
          else
            let vector := vectors.getD index.toNat []
            if intValue (get marker "dim") = some (vector.length : Int) then
              .ok (metadata.insert "vector_search"
                (.ofMap (vectorSearch.insert "vector" (.floats32 vector))))
            else
              .error (.codec "binary vector marker dimension does not match vector segment")

def decodeBody (M : MsgPack T) (vectorCount metadataLen : Nat) (body : Bytes) : Except GoError (FrameDict T) := do
  let metadata ← (M.unmarshal (body.take metadataLen)).mapError .codec
  let (vectors, rest) ← readVectors vectorCount (body.drop metadataLen)
  if rest ≠ [] then
    throw (.codec "binary vector payload has trailing bytes")
  restoreVectorSearchVector metadata vectors

def decodeBinaryVector (M : MsgPack T) (payload : Bytes) : Except GoError (FrameDict T) := do
  let (vectorCount, metadataLen) ← decodePrefix payload
  decodeBody M vectorCount metadataLen (payload.drop binaryVectorPrefix)

/-! ### Copies -/

theorem cloneFields_eq_map (fields : List (String × GoAny T)) :
    cloneFields fields = fields.map fun field => (field.1, cloneValue field.2) :=
  eq_map_of_cons rfl (fun _ _ => rfl) fields

theorem cloneItems_eq_map (items : List (GoAny T)) : cloneItems items = items.map cloneValue :=
  eq_map_of_cons rfl (fun _ _ => rfl) items

@[simp]
theorem getElem?_cloneDict (d : FrameDict T) (key : String) :
    (cloneDict d)[key]? = d[key]?.map cloneValue := Std.ExtTreeMap.getElem?_map

theorem get_cloneDict (d : FrameDict T) (key : String) :
    GoDict.get (cloneDict d) key = cloneValue (GoDict.get d key) := by
  rw [GoDict.get, GoDict.get, getElem?_cloneDict]
  cases d[key]? with
  | none => rfl
  | some v => rfl

/-- A copied map is the copy of the map. -/
theorem asMap_cloneValue (v : GoAny T) : (cloneValue v).asMap = v.asMap.map cloneDict := by
  cases v with
  | map =>
    rw [cloneValue, GoAny.asMap, cloneFields_eq_map, ofList_map]
    rfl
  | nilOf kind => cases kind <;> rfl
  | _ => rfl

theorem floatValue_cloneValue (P : Platform T) (v : GoAny T) : floatValue P (cloneValue v) = floatValue P v := by
  cases v with
  | nilOf kind => cases kind <;> rfl
  | _ => rfl

theorem readFloatVector_cloneValue (P : Platform T) (v : GoAny T) :
    readFloatVector P (cloneValue v) = readFloatVector P v := by
  cases v with
  | nilOf kind => cases kind <;> rfl
  | slice items =>
    have hitem : readComponent P ∘ cloneValue = readComponent P := by
      funext v
      rw [Function.comp_apply, readComponent, readComponent, floatValue_cloneValue]
    rw [cloneValue, readFloatVector, readFloatVector, cloneItems_eq_map, mapM_map, hitem]
  | _ => rfl

/-- What comes back for a copied map is a map, and what comes back for anything else is none, unless
another type decides it. -/
theorem asMap_msgpackImage_cloneValue (other : T → GoAny T) (v : GoAny T) (hother : ∀ t, v ≠ .other t) :
    (msgpackImage other (cloneValue v)).asMap = v.asMap.map fun m => msgpackDict other (cloneDict m) := by
  cases v with
  | map =>
    rw [cloneValue, msgpackImage, GoAny.asMap_ofMap, msgpackFields_eq_map, ofList_map,
      cloneFields_eq_map, ofList_map]
    rfl
  | nilOf kind => cases kind <;> rfl
  | slice items => rfl
  | other t => exact absurd rfl (hother t)
  | int kind n => cases kind <;> rfl
  | _ => rfl

/-! ### Segments -/

theorem float_of_floatBytes (x : F32) (rest : Bytes) : UInt32.ofNat (getLE ((floatBytes x ++ rest).take 4)) = x ∧
      (floatBytes x ++ rest).drop 4 = rest := by
  have hlength : (floatBytes x).length = 4 := length_putLE _ _
  have hvalue : x.toNat % 256 ^ 4 = x.toNat := Nat.mod_eq_of_lt x.toNat_lt
  constructor
  · rw [take_left' hlength, floatBytes, getLE_putLE, hvalue, UInt32.ofNat_toNat]
  · rw [drop_left' hlength]

theorem readFloats_succ (x : F32) (n : Nat) (rest : Bytes) : readFloats (n + 1) (floatBytes x ++ rest) =
      if x.isFinite then (readFloats n rest).map fun p => (x :: p.1, p.2)
      else .error (.codec "binary vector values must be finite float32") := by
  obtain ⟨hvalue, hdrop⟩ := float_of_floatBytes x rest
  rw [readFloats]
  rw [hvalue, hdrop]
  cases x.isFinite with
  | false => rfl
  | true => cases readFloats n rest <;> rfl

theorem readFloats_flatMap (xs : List F32) {n : Nat} (hn : n ≤ xs.length) : readFloats n (xs.flatMap floatBytes) =
      if (xs.take n).all (·.isFinite) then .ok (xs.take n, (xs.drop n).flatMap floatBytes)
      else .error (.codec "binary vector values must be finite float32") := by
  induction n generalizing xs with
  | zero => rfl
  | succ n ih =>
    obtain ⟨x, xs, rfl⟩ := exists_cons_of_length_pos (Nat.lt_of_lt_of_le (Nat.succ_pos n) hn)
    rw [flatMap_cons, readFloats_succ, ih xs (Nat.le_of_succ_le_succ hn), take_succ_cons, all_cons]
    cases x.isFinite with
    | false => rfl
    | true => cases (xs.take n).all (·.isFinite) <;> rfl

theorem length_flatMap_floatBytes (xs : List F32) : (xs.flatMap floatBytes).length = xs.length * 4 := by
  induction xs with
  | nil => rfl
  | cons x xs ih =>
    have hlength : (floatBytes x).length = 4 := length_putLE _ _
    rw [flatMap_cons, length_append, length_cons]
    omega

def FitsSegment (xs : List F32) : Prop := xs.length < 2 ^ 32 ∧ xs.all (·.isFinite) = true

theorem readVectors_segment_eq (xs : List F32) : readVectors 1 (vectorSegment xs) =
      (readFloats (xs.length % 2 ^ 32) (xs.flatMap floatBytes)).map fun p => ([p.1], p.2) := by
  have hput : (putBE 4 xs.length).length = 4 := length_putBE _ _
  have htake : (vectorSegment xs).take 4 = putBE 4 xs.length := take_left' hput
  have hdrop : (vectorSegment xs).drop 4 = xs.flatMap floatBytes := drop_left' hput
  have hdim : getBE (putBE 4 xs.length) = xs.length % 2 ^ 32 := by
    rw [getBE_putBE]
    norm_num
  have hbig : ¬ xs.length % 2 ^ 32 > (2 ^ 63 - 1) / 4 := by omega
  have hbody : ¬ (xs.flatMap floatBytes).length < xs.length % 2 ^ 32 * 4 := by
    rw [length_flatMap_floatBytes]
    omega
  rw [readVectors]
  simp only [htake, hdim, hbig, hdrop, hbody]
  cases readFloats (xs.length % 2 ^ 32) (xs.flatMap floatBytes) <;> rfl

variable {xs : List F32} {P : Platform T} {d : FrameDict T} {M : MsgPack T} {metadataBytes : Bytes}

theorem readVectors_segment (h : FitsSegment xs) : readVectors 1 (vectorSegment xs) = .ok ([xs], []) := by
  have hlength : xs.length % 2 ^ 32 = xs.length := Nat.mod_eq_of_lt h.1
  rw [readVectors_segment_eq, hlength, readFloats_flatMap xs (Nat.le_refl _), take_length, drop_length, if_pos h.2]
  rfl

/-- A vector that does not fit is not read back, or leaves bytes behind. -/
theorem readVectors_segment_ne (h : ¬ FitsSegment xs) (vectors : List (List F32)) :
    readVectors 1 (vectorSegment xs) ≠ .ok (vectors, []) := by
  intro hread
  rw [readVectors_segment_eq, readFloats_flatMap xs (Nat.mod_le _ _)] at hread
  split_ifs at hread with hfinite
  · have hrest : (xs.drop (xs.length % 2 ^ 32)).flatMap floatBytes = [] :=
      congrArg Prod.snd (Except.ok.inj hread)
    have hzero := congrArg List.length hrest
    rw [length_flatMap_floatBytes, length_drop, length_nil] at hzero
    have hlength : xs.length % 2 ^ 32 = xs.length := by omega
    rw [hlength, take_length] at hfinite
    exact h ⟨by omega, hfinite⟩
  · cases hread

/-! ### The prefix -/

theorem decodePrefix_vectorPrefix {count metadataLen : Nat} (hcount : count < 2 ^ 16) (body : Bytes)
    (hbody : metadataLen ≤ body.length) :
    decodePrefix (vectorPrefix count metadataLen ++ body) = .ok (count, metadataLen % 2 ^ 32) := by
  obtain ⟨c₁, c₀, hcountBytes⟩ : ∃ c₁ c₀, putBE 2 count = [c₁, c₀] := ⟨_, _, rfl⟩
  obtain ⟨m₃, m₂, m₁, m₀, hlenBytes⟩ : ∃ m₃ m₂ m₁ m₀, putBE 4 metadataLen = [m₃, m₂, m₁, m₀] :=
    ⟨_, _, _, _, rfl⟩
  have hc := getBE_putBE 2 count
  have hm := getBE_putBE 4 metadataLen
  rw [hcountBytes, Nat.mod_eq_of_lt (by omega)] at hc
  rw [hlenBytes] at hm
  have hpayload : vectorPrefix count metadataLen ++ body =
      0x4E :: 0x50 :: 0x42 :: 0x56 :: 1 :: 0 :: c₁ :: c₀ :: m₃ :: m₂ :: m₁ :: m₀ :: 0 :: 0 :: 0 :: 0 :: body := by
    rw [vectorPrefix, hcountBytes, hlenBytes]
    rfl
  have hshort : ¬ (vectorPrefix count metadataLen ++ body).length < binaryVectorPrefix := by
    rw [hpayload]
    simp only [length_cons, binaryVectorPrefix]
    omega
  have hlong : ¬ metadataLen % 2 ^ 32 > (vectorPrefix count metadataLen ++ body).length - binaryVectorPrefix := by
    rw [hpayload]
    simp only [length_cons, binaryVectorPrefix]
    omega
  have hreserved : ¬ ((vectorPrefix count metadataLen ++ body).getD 5 0 ≠ 0 ∨
      getBE (slice (vectorPrefix count metadataLen ++ body) 12 16) ≠ 0) := by
    rw [hpayload]
    rintro (h | h)
    · exact h rfl
    · exact h rfl
  have hcountSlice : getBE (slice (vectorPrefix count metadataLen ++ body) 6 8) = count := by
    rw [hpayload]
    exact hc
  have hlenSlice : getBE (slice (vectorPrefix count metadataLen ++ body) 8 12) = metadataLen % 2 ^ 32 := by
    rw [hpayload]
    exact hm.trans (by norm_num)
  rw [decodePrefix]
  simp only [hshort, hreserved, hcountSlice, hlenSlice, hlong]
  rfl

/-! ### Putting the vector back -/

theorem intValue_msgpackImage_goInt (other : T → GoAny T) {n : Nat} (h : n < 2 ^ 63) :
    intValue (msgpackImage other (goInt n)) = some (n : Int) := by
  have hbmod : (n : Int).bmod (2 ^ 64) = n := by
    rw [Int.bmod_def]
    omega
  rw [goInt, msgpackImage]
  simp only [wireInt, intValue, hbmod]

/-- Without vectors a marker, or anything else in the place of the vector, is refused. -/
theorem restore_nil (metadata : FrameDict T) :
    (∀ vectorSearch, (get metadata "vector_search").asMap = some vectorSearch →
        vectorSearch["vector"]? = none) ∧ restoreVectorSearchVector metadata [] = .ok metadata ∨
      (∃ vectorSearch v, (get metadata "vector_search").asMap = some vectorSearch ∧
        vectorSearch["vector"]? = some v) ∧ ∃ e, restoreVectorSearchVector metadata [] = .error e := by
  rw [restoreVectorSearchVector]
  cases hsearch : (get metadata "vector_search").asMap with
  | none => exact .inl ⟨nofun, rfl⟩
  | some vectorSearch =>
    dsimp only
    cases hvector : vectorSearch["vector"]? with
    | none =>
      refine .inl ⟨fun other hother => ?_, rfl⟩
      cases hother
      exact hvector
    | some v =>
      refine .inr ⟨⟨vectorSearch, v, rfl, hvector⟩, ?_⟩
      dsimp only
      cases v.asMap with
      | none => exact ⟨_, rfl⟩
      | some marker =>
        dsimp only
        cases intValue (get marker binaryVectorMarker) with
        | none => exact ⟨_, rfl⟩
        | some index =>
          have hindex : index < 0 ∨ index ≥ (([] : List (List F32)).length : Int) :=
            lt_or_ge index 0
          dsimp only
          rw [if_pos hindex]
          exact ⟨_, rfl⟩

/-- The marker is found and the vector takes its place. -/
theorem restore_marker (other : T → GoAny T) {metadata vectorSearch : FrameDict T}
    (hsearch : (get metadata "vector_search").asMap = some vectorSearch)
    (hmarker : vectorSearch["vector"]? = some (msgpackImage other (.ofMap (vectorMarker 0 xs.length))))
    (hxs : xs.length < 2 ^ 32) : restoreVectorSearchVector metadata [xs] =
      .ok (metadata.insert "vector_search" (.ofMap (vectorSearch.insert "vector" (.floats32 xs)))) := by
  have hget : ∀ key : String, get (msgpackDict other (vectorMarker 0 xs.length)) key =
      msgpackImage other (GoDict.get (vectorMarker 0 xs.length) key) := by
    intro key
    rw [GoDict.get, GoDict.get, getElem?_msgpackDict]
    cases (vectorMarker (T := T) 0 xs.length)[key]? <;> rfl
  have hindex : intValue (get (msgpackDict other (vectorMarker 0 xs.length)) binaryVectorMarker) =
      some 0 := by
    rw [hget]
    have hentry : GoDict.get (vectorMarker (T := T) 0 xs.length) binaryVectorMarker = goInt 0 := by
      simp only [GoDict.get, vectorMarker, getElem?_insert, binaryVectorMarker, String.reduceEq,
        if_true, if_false, getD_some]
    rw [hentry]
    exact intValue_msgpackImage_goInt other (n := 0) (by decide)
  have hdtype : GoDict.str (msgpackDict other (vectorMarker 0 xs.length)) "dtype" = "float32" := by
    rw [GoDict.str, GoDict.optStr, hget]
    have hentry : GoDict.get (vectorMarker (T := T) 0 xs.length) "dtype" = .string "float32" := by
      simp only [GoDict.get, vectorMarker, getElem?_insert, String.reduceEq, if_true, if_false, getD_some]
    rw [hentry]
    rfl
  have hdim : intValue (get (msgpackDict other (vectorMarker 0 xs.length)) "dim") =
      some (xs.length : Int) := by
    rw [hget]
    have hentry : GoDict.get (vectorMarker (T := T) 0 xs.length) "dim" = goInt xs.length := by
      simp [GoDict.get, vectorMarker]
    rw [hentry]
    exact intValue_msgpackImage_goInt other (by omega)
  have hmap : (msgpackImage other (.ofMap (vectorMarker 0 xs.length))).asMap =
      some (msgpackDict other (vectorMarker 0 xs.length)) := by
    rw [msgpackImage_ofMap, GoAny.asMap_ofMap]
  rw [restoreVectorSearchVector, hsearch]
  simp [hmarker, hmap, hindex, hdtype, hdim]

/-! ### The round trip -/

def vectorSearch (d : FrameDict T) : Option (FrameDict T) := (get d "vector_search").asMap

def searchVector (d : FrameDict T) : Option (GoAny T) := (vectorSearch d).bind (·["vector"]?)

def Representable (P : Platform T) (v : GoAny T) : Prop :=
  ∃ xs, readFloatVector P v = some xs ∧ xs.all (·.isFinite) = true

/-- The frame as MessagePack gives it back, its vector rounded to `float32`. -/
def rounded (P : Platform T) (other : T → GoAny T) (d : FrameDict T) : FrameDict T :=
  let image := msgpackDict other (cloneDict d)
  match vectorSearch d with
  | none => image
  | some search =>
    match readFloatVector P (get search "vector") with
    | none => image
    | some xs =>
      image.insert "vector_search"
        (.ofMap ((msgpackDict other (cloneDict search)).insert "vector" (.floats32 xs)))

/-- Encoding refuses a vector that cannot be written, and what it writes is read back. -/
structure RoundTrips (P : Platform T) (M : MsgPack T) (d : FrameDict T) : Prop where
  decodes : ∀ payload, encodeBinaryVector P M d = .ok payload →
    decodeBinaryVector M payload = .ok (rounded P M.other d)
  refuses : ∀ v, searchVector d = some v → ¬ Representable P v → ∃ e, encodeBinaryVector P M d = .error e

theorem extract_of_vector {d search : FrameDict T} (hsearch : vectorSearch d = some search)
    (hxs : readFloatVector P (get search "vector") = some xs) : extractVectorSearchVector P (cloneDict d) =
      ((cloneDict d).insert "vector_search"
        (.ofMap ((cloneDict search).insert "vector" (.ofMap (vectorMarker 0 xs.length)))), [xs]) := by
  have hclone : (get (cloneDict d) "vector_search").asMap = some (cloneDict search) := by
    rw [get_cloneDict, asMap_cloneValue, ← vectorSearch, hsearch, map_some]
  rw [extractVectorSearchVector, hclone]
  dsimp only
  rw [get_cloneDict, readFloatVector_cloneValue, hxs]

theorem extract_of_no_vector
    (h : ∀ search, vectorSearch d = some search → readFloatVector P (get search "vector") = none) :
    extractVectorSearchVector P (cloneDict d) = (cloneDict d, []) := by
  rw [extractVectorSearchVector, get_cloneDict, asMap_cloneValue]
  cases hsearch : (get d "vector_search").asMap with
  | none => rfl
  | some search =>
    rw [map_some]
    dsimp only
    rw [get_cloneDict, readFloatVector_cloneValue, h search hsearch]

theorem encodeBinaryVector_eq {d metadata : FrameDict T} {vectors : List (List F32)}
    (hextract : extractVectorSearchVector P (cloneDict d) = (metadata, vectors)) (hvectors : vectors.length ≤ 65535)
    (hmarshal : M.marshal metadata = .ok metadataBytes) : encodeBinaryVector P M d =
      .ok (vectorPrefix vectors.length metadataBytes.length ++ metadataBytes ++ vectors.flatMap vectorSegment) := by
  rw [encodeBinaryVector, hextract]
  dsimp only
  rw [if_neg (by omega), hmarshal]
  rfl

theorem decodeBinaryVector_eq_decodeBody (M : MsgPack T) {count : Nat} (hcount : count < 2 ^ 16)
    (metadataBytes segments : Bytes) :
    decodeBinaryVector M (vectorPrefix count metadataBytes.length ++ metadataBytes ++ segments) =
      decodeBody M count (metadataBytes.length % 2 ^ 32) (metadataBytes ++ segments) := by
  have hbody : metadataBytes.length ≤ (metadataBytes ++ segments).length := by
    rw [length_append]
    omega
  have hdecode := decodePrefix_vectorPrefix hcount (metadataBytes ++ segments) hbody
  rw [append_assoc, decodeBinaryVector, hdecode]
  rfl

section

variable {M : MsgPack T} {metadata : FrameDict T} {metadataBytes : Bytes}
  (hmarshal : M.marshal metadata = .ok metadataBytes)

include hmarshal

theorem decodeBody_no_vectors (hlength : metadataBytes.length < 2 ^ 32) :
    decodeBody M 0 (metadataBytes.length % 2 ^ 32) (metadataBytes ++ []) =
      restoreVectorSearchVector (msgpackDict M.other metadata) [] := by
  rw [Nat.mod_eq_of_lt hlength, decodeBody, take_left, drop_left, M.unmarshal_marshal hmarshal]
  rfl

theorem decodeBody_vector (hlength : metadataBytes.length < 2 ^ 32) {xs : List F32} (hxs : FitsSegment xs) :
    decodeBody M 1 (metadataBytes.length % 2 ^ 32) (metadataBytes ++ vectorSegment xs) =
      restoreVectorSearchVector (msgpackDict M.other metadata) [xs] := by
  rw [Nat.mod_eq_of_lt hlength, decodeBody, take_left, drop_left,
    M.unmarshal_marshal hmarshal, readVectors_segment hxs]
  rfl

omit hmarshal in
/-- A vector that does not fit its segment is not accepted. -/
theorem decodeBody_misfit (hlength : metadataBytes.length < 2 ^ 32) {xs : List F32}
    (hxs : ¬ FitsSegment xs) (d : FrameDict T) :
    decodeBody M 1 (metadataBytes.length % 2 ^ 32) (metadataBytes ++ vectorSegment xs) ≠ .ok d := by
  intro hdecode
  rw [Nat.mod_eq_of_lt hlength, decodeBody, drop_left] at hdecode
  obtain ⟨image, -, hvectors⟩ := bind_eq_ok_iff.mp hdecode
  obtain ⟨⟨vectors, rest⟩, hread, hrestore⟩ := bind_eq_ok_iff.mp hvectors
  dsimp only at hrestore
  split_ifs at hrestore with hrest
  · cases hrestore
  rw [not_not] at hrest
  rw [hrest] at hread
  exact readVectors_segment_ne hxs vectors hread

/-- Metadata whose length does not fit its field is cut and not read. -/
theorem decodeBody_cut (hlength : ¬ metadataBytes.length < 2 ^ 32) (count : Nat) (segments : Bytes) (d : FrameDict T) :
    decodeBody M count (metadataBytes.length % 2 ^ 32) (metadataBytes ++ segments) ≠ .ok d := by
  have hmod : metadataBytes.length % 2 ^ 32 < metadataBytes.length := by omega
  have hne : metadataBytes.take (metadataBytes.length % 2 ^ 32) ≠ metadataBytes := by
    intro heq
    have hcut := congrArg List.length heq
    rw [length_take_of_le (Nat.le_of_lt hmod)] at hcut
    omega
  obtain ⟨text, htext⟩ := M.unmarshal_part hmarshal ( take_prefix _ _) hne
  rw [decodeBody, take_append_of_le_length (Nat.le_of_lt hmod), htext]
  nofun

end

/-- The kind of frame the encoder and the decoder agree on. -/
structure Writable (P : Platform T) (M : MsgPack T) (d : FrameDict T) (metadataBytes : Bytes) : Prop where
  vector : ∀ v, searchVector d = some v → ∃ xs, readFloatVector P v = some xs ∧ FitsSegment xs
  metadata : metadataBytes.length < 2 ^ 32
  plain : ∀ t search, d["vector_search"]? = some (.other t) → (M.other t).asMap = some search →
    search["vector"]? = none

/-- The payload is read as the given frame under the condition, and refused without it. -/
def DecodesIf (M : MsgPack T) (payload : Bytes) (d : FrameDict T) (condition : Prop) : Prop :=
  (condition → decodeBinaryVector M payload = .ok d) ∧
    (¬ condition → ∀ d', decodeBinaryVector M payload ≠ .ok d')

/-- Writing a member over another one of the same name leaves that out. -/
theorem insert_msgpackDict_insert (other : T → GoAny T) (m : FrameDict T) (key : String) (v w : GoAny T) :
    (msgpackDict other (m.insert key v)).insert key w = (msgpackDict other m).insert key w := by
  apply Std.ExtTreeMap.ext_getElem?
  intro k
  simp only [getElem?_insert, getElem?_msgpackDict]
  split_ifs <;> rfl

theorem decodesIf_of_vector {d search : FrameDict T} (hsearch : vectorSearch d = some search)
    (hxs : readFloatVector P (get search "vector") = some xs)
    (hmarshal : M.marshal (extractVectorSearchVector P (cloneDict d)).1 = .ok metadataBytes) :
    ∃ payload, encodeBinaryVector P M d = .ok payload ∧
      DecodesIf M payload (rounded P M.other d) (FitsSegment xs ∧ metadataBytes.length < 2 ^ 32) := by
  have hextract := extract_of_vector hsearch hxs
  rw [hextract] at hmarshal
  have hencode := encodeBinaryVector_eq hextract (by rw [length_singleton]; decide) hmarshal
  have hsegments : [xs].flatMap vectorSegment = vectorSegment xs := by
    rw [flatMap_cons, flatMap_nil, append_nil]
  rw [hsegments, length_singleton] at hencode
  have hdecode := decodeBinaryVector_eq_decodeBody M (show 1 < 2 ^ 16 by decide) metadataBytes
  refine ⟨_, hencode, ?_, ?_⟩
  · rintro ⟨hfits, hlength⟩
    rw [hdecode, decodeBody_vector hmarshal hlength hfits]
    have himage : (get (msgpackDict M.other ((cloneDict d).insert "vector_search"
        (.ofMap ((cloneDict search).insert "vector" (.ofMap (vectorMarker 0 xs.length))))))
        "vector_search").asMap =
        some (msgpackDict M.other
          ((cloneDict search).insert "vector" (.ofMap (vectorMarker 0 xs.length)))) := by
      rw [GoDict.get, getElem?_msgpackDict, getElem?_insert, if_pos rfl, map_some,
        getD_some, msgpackImage_ofMap, GoAny.asMap_ofMap]
    have hmarker : (msgpackDict M.other ((cloneDict search).insert "vector"
        (.ofMap (vectorMarker 0 xs.length))))["vector"]? =
        some (msgpackImage M.other (.ofMap (vectorMarker 0 xs.length))) := by
      rw [getElem?_msgpackDict, getElem?_insert, if_pos rfl, map_some]
    rw [restore_marker M.other himage hmarker hfits.1]
    simp only [rounded, hsearch, hxs, insert_msgpackDict_insert]
  · intro hnot d' hok
    rw [hdecode] at hok
    by_cases hlength : metadataBytes.length < 2 ^ 32
    · exact decodeBody_misfit hlength (fun hfits => hnot ⟨hfits, hlength⟩) _ hok
    · exact decodeBody_cut hmarshal hlength 1 _ _ hok

/-- What stands in the place of the search once the frame was written and read. -/
theorem asMap_get_msgpackDict_cloneDict (other : T → GoAny T) (d : FrameDict T) :
    (GoDict.get (msgpackDict other (cloneDict d)) "vector_search").asMap = match d["vector_search"]? with
      | some (.other t) => (other t).asMap
      | _ => (vectorSearch d).map fun search => msgpackDict other (cloneDict search) := by
  have himage : GoDict.get (msgpackDict other (cloneDict d)) "vector_search" =
      msgpackImage other (cloneValue (GoDict.get d "vector_search")) := by
    rw [GoDict.get, GoDict.get, getElem?_msgpackDict, getElem?_cloneDict]
    cases d["vector_search"]? <;> rfl
  rw [himage, GoDict.get]
  split
  · rename_i t ht
    rw [ht]
    rfl
  · rename_i hother
    apply asMap_msgpackImage_cloneValue
    intro t ht
    cases hentry : d["vector_search"]? with
    | none =>
      rw [hentry] at ht
      cases ht
    | some v =>
      rw [hentry, getD_some] at ht
      exact hother t (by rw [hentry, ht])

theorem decodesIf_of_no_vector
    (hnone : ∀ search, vectorSearch d = some search → readFloatVector P (get search "vector") = none)
    (hmarshal : M.marshal (extractVectorSearchVector P (cloneDict d)).1 = .ok metadataBytes) :
    ∃ payload, encodeBinaryVector P M d = .ok payload ∧
      DecodesIf M payload (rounded P M.other d) (searchVector d = none ∧ metadataBytes.length < 2 ^ 32 ∧
        ∀ t search, d["vector_search"]? = some (.other t) → (M.other t).asMap = some search →
          search["vector"]? = none) := by
  have hextract := extract_of_no_vector hnone
  rw [hextract] at hmarshal
  have hencode := encodeBinaryVector_eq hextract (Nat.zero_le _) hmarshal
  rw [length_nil, flatMap_nil] at hencode
  have hdecode := decodeBinaryVector_eq_decodeBody M (show 0 < 2 ^ 16 by decide) metadataBytes []
  have hrounded : rounded P M.other d = msgpackDict M.other (cloneDict d) := by
    rw [rounded]
    cases hsearch : vectorSearch d with
    | none => rfl
    | some search => simp only [hnone search hsearch]
  have himage := asMap_get_msgpackDict_cloneDict M.other d
  refine ⟨_, hencode, ?_, ?_⟩
  · rintro ⟨hvector, hlength, hplain⟩
    rw [hdecode, decodeBody_no_vectors hmarshal hlength, hrounded]
    rcases restore_nil (msgpackDict M.other (cloneDict d)) with ⟨-, hrestore⟩ | ⟨⟨search, v, hsearch, hv⟩, -⟩
    · exact hrestore
    rw [himage] at hsearch
    split at hsearch
    · rename_i t ht
      rw [hplain t search ht hsearch] at hv
      cases hv
    · obtain ⟨inner, hinner, rfl⟩ := map_eq_some_iff.mp hsearch
      have habsent : inner["vector"]? = none := by
        rw [searchVector, hinner] at hvector
        exact hvector
      rw [getElem?_msgpackDict, getElem?_cloneDict, habsent] at hv
      cases hv
  · intro hnot d' hok
    rw [hdecode] at hok
    by_cases hlength : metadataBytes.length < 2 ^ 32
    · rw [decodeBody_no_vectors hmarshal hlength] at hok
      rcases restore_nil (msgpackDict M.other (cloneDict d)) with ⟨habsent, -⟩ | ⟨-, e, he⟩
      · rw [himage] at habsent
        refine hnot ⟨?_, hlength, ?_⟩
        · cases hsearch : vectorSearch d with
          | none => rw [searchVector, hsearch, bind_none]
          | some search =>
            rw [searchVector, hsearch]
            have hentry := habsent (msgpackDict M.other (cloneDict search)) (by
              rw [hsearch]
              split
              · rename_i t ht
                rw [vectorSearch, GoDict.get, ht] at hsearch
                cases hsearch
              · rfl)
            rw [getElem?_msgpackDict, getElem?_cloneDict, map_eq_none_iff, map_eq_none_iff] at hentry
            exact hentry
        · intro t search ht hsearch
          apply habsent search
          rw [ht]
          exact hsearch
      · rw [he] at hok
        cases hok
    · exact decodeBody_cut hmarshal hlength 0 _ _ hok

/-- The payload of every frame MessagePack can write is read back if the frame is writable, and refused
otherwise. -/
theorem decodesIf_writable (hmarshal : M.marshal (extractVectorSearchVector P (cloneDict d)).1 = .ok metadataBytes) :
    ∃ payload, encodeBinaryVector P M d = .ok payload ∧
      DecodesIf M payload (rounded P M.other d) (Writable P M d metadataBytes) := by
  by_cases hnone : ∀ search, vectorSearch d = some search →
      readFloatVector P (get search "vector") = none
  · obtain ⟨payload, hencode, hdecodes⟩ := decodesIf_of_no_vector hnone hmarshal
    refine ⟨payload, hencode, ?_⟩
    have hiff : Writable P M d metadataBytes ↔ searchVector d = none ∧ metadataBytes.length < 2 ^ 32 ∧
        ∀ t search, d["vector_search"]? = some (.other t) → (M.other t).asMap = some search →
          search["vector"]? = none := by
      constructor
      · rintro ⟨hvector, hlength, hplain⟩
        refine ⟨?_, hlength, hplain⟩
        cases hv : searchVector d with
        | none => rfl
        | some v =>
          obtain ⟨search, hsearch, hentry⟩ := bind_eq_some_iff.mp hv
          obtain ⟨xs, hxs, -⟩ := hvector v hv
          have hunread := hnone search hsearch
          rw [GoDict.get, hentry, getD_some, hxs] at hunread
          cases hunread
      · rintro ⟨hvector, hlength, hplain⟩
        refine ⟨fun v hv => ?_, hlength, hplain⟩
        rw [hvector] at hv
        cases hv
    rw [hiff]
    exact hdecodes
  · push Not at hnone
    obtain ⟨search, hsearch, hread⟩ := hnone
    obtain ⟨xs, hxs⟩ := ne_none_iff_exists'.mp hread
    obtain ⟨payload, hencode, hdecodes⟩ := decodesIf_of_vector hsearch hxs hmarshal
    refine ⟨payload, hencode, ?_⟩
    have hentry : searchVector d = some (GoDict.get search "vector") := by
      rw [searchVector, hsearch, bind_some, GoDict.get]
      cases hv : search["vector"]? with
      | none =>
        rw [GoDict.get, hv] at hxs
        cases hxs
      | some v => rfl
    have hiff : Writable P M d metadataBytes ↔ FitsSegment xs ∧ metadataBytes.length < 2 ^ 32 := by
      constructor
      · rintro ⟨hvector, hlength, -⟩
        obtain ⟨ys, hys, hfits⟩ := hvector _ hentry
        rw [hxs] at hys
        cases hys
        exact ⟨hfits, hlength⟩
      · rintro ⟨hfits, hlength⟩
        refine ⟨fun v hv => ?_, hlength, fun t inner ht _ => ?_⟩
        · rw [hentry] at hv
          cases hv
          exact ⟨xs, hxs, hfits⟩
        · rw [vectorSearch, GoDict.get, ht] at hsearch
          cases hsearch
    rw [hiff]
    exact hdecodes

/-- What a frame must be for its payload to be read, where the payload is short enough for the length
fields. -/
structure VectorReadable (P : Platform T) (M : MsgPack T) (d : FrameDict T) : Prop where
  vector : ∀ v, searchVector d = some v → Representable P v
  plain : ∀ t search, d["vector_search"]? = some (.other t) → (M.other t).asMap = some search →
    search["vector"]? = none

theorem length_le_length_vectorSegment (xs : List F32) : xs.length ≤ (vectorSegment xs).length := by
  have hbytes : xs.length ≤ (xs.flatMap floatBytes).length := by
    induction xs with
    | nil => exact Nat.le_refl _
    | cons =>
      rw [flatMap_cons, length_append, floatBytes, length_putLE, length_cons]
      omega
  rw [vectorSegment, length_append]
  omega

/-- The parts of a payload are no longer than the payload. -/
theorem encodeBinaryVector_ok {payload : Bytes} (hencode : encodeBinaryVector P M d = .ok payload) :
    ∃ metadataBytes, M.marshal (extractVectorSearchVector P (cloneDict d)).1 = .ok metadataBytes ∧
      metadataBytes.length ≤ payload.length ∧
      ∀ xs ∈ (extractVectorSearchVector P (cloneDict d)).2, xs.length ≤ payload.length := by
  rw [encodeBinaryVector] at hencode
  dsimp only at hencode
  split_ifs at hencode with hcount
  · cases hencode
  cases hmarshal : M.marshal (extractVectorSearchVector P (cloneDict d)).1 with
  | error e =>
    rw [hmarshal] at hencode
    cases hencode
  | ok metadataBytes =>
    rw [hmarshal] at hencode
    cases hencode
    refine ⟨metadataBytes, rfl, ?_, fun xs hxs => ?_⟩
    · simp only [length_append]
      omega
    · have hsegment := (sublist_flatten_of_mem (mem_map_of_mem (f := vectorSegment) hxs)).length_le
      rw [← flatMap_def] at hsegment
      have hvector := length_le_length_vectorSegment xs
      simp only [length_append]
      omega

theorem writable_iff_readable (hmetadata : metadataBytes.length < 2 ^ 32)
    (hvectors : ∀ xs ∈ (extractVectorSearchVector P (cloneDict d)).2, xs.length < 2 ^ 32) :
    Writable P M d metadataBytes ↔ VectorReadable P M d := by
  constructor
  · rintro ⟨hvector, -, hplain⟩
    refine ⟨fun v hv => ?_, hplain⟩
    obtain ⟨xs, hxs, hfits⟩ := hvector v hv
    exact ⟨xs, hxs, hfits.2⟩
  · rintro ⟨hvector, hplain⟩
    refine ⟨fun v hv => ?_, hmetadata, hplain⟩
    obtain ⟨xs, hxs, hfinite⟩ := hvector v hv
    obtain ⟨search, hsearch, hentry⟩ := bind_eq_some_iff.mp hv
    have hread : readFloatVector P (GoDict.get search "vector") = some xs := by
      rw [GoDict.get, hentry]
      exact hxs
    rw [extract_of_vector hsearch hread] at hvectors
    exact ⟨xs, hxs, hvectors xs (mem_singleton_self xs), hfinite⟩

theorem decodesIf_readable {payload : Bytes} (hencode : encodeBinaryVector P M d = .ok payload)
    (hlt : payload.length < 2 ^ 32) : DecodesIf M payload (rounded P M.other d) (VectorReadable P M d) := by
  obtain ⟨metadataBytes, hmarshal, hmetadata, hvectors⟩ := encodeBinaryVector_ok hencode
  obtain ⟨payload', hencode', hdecodes⟩ := decodesIf_writable hmarshal
  rw [hencode] at hencode'
  cases hencode'
  rwa [writable_iff_readable (hmetadata.trans_lt hlt)
    fun xs hxs => (hvectors xs hxs).trans_lt hlt] at hdecodes

/-- For every frame MessagePack can write, encoder and decoder agree exactly if the frame is writable. -/
theorem roundTrips_iff {P : Platform T} {M : MsgPack T} {d : FrameDict T} {metadataBytes : Bytes}
    (hmarshal : M.marshal (extractVectorSearchVector P (cloneDict d)).1 = .ok metadataBytes) :
    RoundTrips P M d ↔ Writable P M d metadataBytes := by
  obtain ⟨payload, hencode, hdecodes, hrefused⟩ := decodesIf_writable hmarshal
  constructor
  · intro hround
    by_contra hnot
    exact hrefused hnot _ (hround.decodes payload hencode)
  · intro hwritable
    refine ⟨fun payload' hpayload => ?_, fun v hv hnot => ?_⟩
    · rw [hencode] at hpayload
      cases hpayload
      exact hdecodes hwritable
    · obtain ⟨xs, hxs, hfits⟩ := hwritable.vector v hv
      exact absurd ⟨xs, hxs, hfits.2⟩ hnot

end BinaryVector

def unitVector : List F32 := [0x3F800000, 0]

def unitSearch : FrameDict Empty := (∅ : FrameDict Empty).insert "vector" (.floats32 unitVector)

def unitFrame : FrameDict Empty := (∅ : FrameDict Empty).insert "vector_search" (.ofMap unitSearch)

def unitMetadata : FrameDict Empty :=
  (cloneDict unitFrame).insert "vector_search"
    (.ofMap ((cloneDict unitSearch).insert "vector" (.ofMap (vectorMarker 0 unitVector.length))))

/-- The metadata of the unit frame: the marker stands where the vector stood. -/
def unitDocument : Bytes :=
  [0x81, 0xAD] ++ GoString.bytes "vector_search" ++ [0x81, 0xA6] ++ GoString.bytes "vector" ++
    [0x83, 0xB2] ++ GoString.bytes binaryVectorMarker ++ [0x00, 0xA5] ++ GoString.bytes "dtype" ++
    [0xA7] ++ GoString.bytes "float32" ++ [0xA3] ++ GoString.bytes "dim" ++ [0x02]

theorem vectorSearch_unitFrame : vectorSearch unitFrame = some unitSearch := by
  rw [vectorSearch, GoDict.get, unitFrame, getElem?_insert, if_pos rfl, getD_some, GoAny.asMap_ofMap]

theorem searchVector_unitFrame : searchVector unitFrame = some (.floats32 unitVector) := by
  rw [searchVector, vectorSearch_unitFrame, bind_some, unitSearch, getElem?_insert, if_pos rfl]

theorem extract_unitFrame :
    extractVectorSearchVector plainPlatform (cloneDict unitFrame) = (unitMetadata, [unitVector]) := by
  refine extract_of_vector vectorSearch_unitFrame ?_
  rw [GoDict.get, unitSearch, getElem?_insert, if_pos rfl]
  rfl

theorem encode_unitFrame : encodeBinaryVector plainPlatform (MsgPack.oneDocument unitMetadata unitDocument) unitFrame =
    .ok (vectorPrefix 1 unitDocument.length ++ unitDocument ++ vectorSegment unitVector) := by
  have hencode := encodeBinaryVector_eq extract_unitFrame (by decide)
    (MsgPack.marshal_oneDocument unitMetadata unitDocument)
  rwa [flatMap_singleton] at hencode

/-- A frame with a vector of two components is written with one segment and read back. -/
theorem unit_frame_round_trips :
    encodeBinaryVector plainPlatform (MsgPack.oneDocument unitMetadata unitDocument) unitFrame =
      .ok (vectorPrefix 1 unitDocument.length ++ unitDocument ++ vectorSegment unitVector) ∧
    RoundTrips plainPlatform (MsgPack.oneDocument unitMetadata unitDocument) unitFrame := by
  have hmarshal := MsgPack.marshal_oneDocument unitMetadata unitDocument
  refine ⟨encode_unitFrame, (roundTrips_iff (by rw [extract_unitFrame]; exact hmarshal)).mpr
    ⟨fun v hv => ?_, by decide, fun t => t.elim⟩⟩
  cases searchVector_unitFrame.symm.trans hv
  exact ⟨unitVector, rfl, by decide, by decide⟩

def textSearch : FrameDict Empty :=
  (∅ : FrameDict Empty).insert "vector_search"
    (.ofMap ((∅ : FrameDict Empty).insert "vector" (.string "x")))

def textSearchDocument : Bytes :=
  [0x81, 0xAD] ++ GoString.bytes "vector_search" ++ [0x81, 0xA6] ++ GoString.bytes "vector" ++
    [0xA1] ++ GoString.bytes "x"

/-- A text in the place of the vector is not refused, and the payload is not read back. -/
theorem text_search_not_refused :
    ¬ RoundTrips plainPlatform (MsgPack.oneDocument (cloneDict textSearch) textSearchDocument) textSearch := by
  have hsearch : vectorSearch textSearch = some ((∅ : FrameDict Empty).insert "vector" (.string "x")) := by
    rw [vectorSearch, GoDict.get, textSearch, getElem?_insert, if_pos rfl, getD_some, GoAny.asMap_ofMap]
  have hvector : searchVector textSearch = some (.string "x") := by
    rw [searchVector, hsearch, bind_some, getElem?_insert, if_pos rfl]
  have hnone : ∀ search, vectorSearch textSearch = some search →
      readFloatVector plainPlatform (get search "vector") = none := by
    intro search h
    rw [hsearch] at h
    cases h
    rw [GoDict.get, getElem?_insert]
    rfl
  intro hround
  obtain ⟨e, he⟩ := hround.refuses _ hvector fun ⟨xs, hxs, _⟩ => nomatch hxs
  obtain ⟨payload, hencode, -⟩ := decodesIf_of_no_vector
    (M := MsgPack.oneDocument (cloneDict textSearch) textSearchDocument) hnone (by
      rw [extract_of_no_vector hnone]
      exact MsgPack.marshal_oneDocument _ _)
  rw [hencode] at he
  cases he

end NpsSdk.Core
