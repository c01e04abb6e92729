import NpsSdk.CoreBinaryVector

/-! The decoder of the vector tier as the machine runs it: offsets are 64 bit numbers, and every index and every slice
expression may be out of range. -/

namespace NpsSdk.Core

open ByteOrder List

/-! ### Checked operations -/

inductive Fault where
  | indexOutOfRange
  | integerOverflow

def checkInt (n : Int) : Except Fault Int :=
  if -2 ^ 63 ≤ n ∧ n < 2 ^ 63 then .ok n else .error .integerOverflow

/-- `bs[low:high]`, within the length. -/
def sliceBytes (bs : Bytes) (low high : Int) : Except Fault Bytes :=
  if 0 ≤ low ∧ low ≤ high ∧ high ≤ bs.length then .ok (slice bs low.toNat high.toNat)
  else .error .indexOutOfRange

def checkIndex {α : Type} (items : List α) (i : Int) : Except Fault α :=
  if 0 ≤ i then
    match items[i.toNat]? with
    | some x => .ok x
    | none => .error .indexOutOfRange
  else .error .indexOutOfRange

theorem checkInt_natCast {n : Nat} (h : n < 2 ^ 63) : checkInt n = .ok (n : Int) :=
  if_pos ⟨by omega, by omega⟩

theorem sliceBytes_natCast {bs : Bytes} {low high : Nat} (hlow : low ≤ high) (hhigh : high ≤ bs.length) :
    sliceBytes bs low high = .ok (slice bs low high) :=
  if_pos ⟨Int.natCast_nonneg _, Int.ofNat_le.mpr hlow, Int.ofNat_le.mpr hhigh⟩

theorem checkIndex_natCast {α : Type} {items : List α} {i : Nat} {x : α} (h : items[i]? = some x) :
    checkIndex items i = .ok x := by
  rw [checkIndex, if_pos (Int.natCast_nonneg _), Int.toNat_natCast, h]

/-! ### The decoder -/

section Checked

variable {T : Type}

def checkedFloats (payload : Bytes) : Nat → Int → Except Fault (Except GoError (List F32 × Int))
  | 0, offset => .ok (.ok ([], offset))
  | dim + 1, offset => do
      let high ← checkInt (offset + 4)
      let bytes ← sliceBytes payload offset high
      let value : F32 := UInt32.ofNat (getLE bytes)
      if ¬ value.isFinite then
        return .error (.codec "binary vector values must be finite float32")
      let offset ← checkInt (offset + 4)
      let rest ← checkedFloats payload dim offset
      return rest.map fun r => (value :: r.1, r.2)

/-- The loop over the vectors, with the number of components that were allocated. -/
def checkedVectors (payload : Bytes) :
    Nat → Int → Nat → Except Fault (Nat × Except GoError (List (List F32) × Int))
  | 0, offset, allocated => .ok (allocated, .ok ([], offset))
  | count + 1, offset, allocated => do
      let left ← checkInt (payload.length - offset)
      if left < 4 then
        return (allocated, .error (.codec "binary vector segment missing dimension"))
      let high ← checkInt (offset + 4)
      let head ← sliceBytes payload offset high
      let dim := getBE head
      if dim > (2 ^ 63 - 1) / 4 then
        return (allocated, .error (.codec "binary vector dimension exceeds addressable payload size"))
      let offset ← checkInt (offset + 4)
      let byteLen ← checkInt (dim * 4 : Nat)
      let left ← checkInt (payload.length - offset)
      if left < byteLen then
        return (allocated, .error (.codec "binary vector segment is truncated"))
      match ← checkedFloats payload dim offset with
      | .error err => return (allocated + dim, .error err)
      | .ok (vector, offset) =>
        let (allocated, rest) ← checkedVectors payload count offset (allocated + dim)
        return (allocated, rest.map fun r => (vector :: r.1, r.2))

def checkedRestore (metadata : FrameDict T) (vectors : List (List F32)) :
    Except Fault (Except GoError (FrameDict T)) :=
  match (GoDict.get metadata "vector_search").asMap with
  | none => .ok (.ok metadata)
  | some vectorSearch =>
    match vectorSearch["vector"]? with
    | none => .ok (.ok metadata)
    | some markerValue =>
      match markerValue.asMap with
      | none => .ok (.error (.codec "binary vector marker must be an object"))
      | some marker =>
        match intValue (GoDict.get marker binaryVectorMarker) with
        | none => .ok (.error (.codec "binary vector marker missing vector index"))
        | some index =>
          if index < 0 ∨ index ≥ vectors.length then
            .ok (.error (.codec ("binary vector marker references vector " ++
              GoString.ofChars (intText index) ++ ", but only " ++ natText vectors.length ++
              " vectors are present")))
          else if GoDict.str marker "dtype" ≠ "float32" then
            .ok (.error (.codec "binary vector v1 only supports dtype=float32"))
          else do
            let vector ← checkIndex vectors index
            if intValue (GoDict.get marker "dim") = some (vector.length : Int) then
              return .ok (metadata.insert "vector_search"
                (.ofMap (vectorSearch.insert "vector" (.floats32 vector))))
            else
              return .error (.codec "binary vector marker dimension does not match vector segment")

def checkedPrefix (payload : Bytes) : Except Fault (Except GoError (Nat × Nat)) := do
  if payload.length < binaryVectorPrefix then
    return .error (.codec ("binary vector payload too short: " ++ natText payload.length ++ " bytes"))
  if (← sliceBytes payload 0 4) ≠ binaryVectorMagic then
    return .error (.codec "binary vector payload magic mismatch")
  let version ← checkIndex payload 4
  if version ≠ binaryVectorVersion then
    return .error (.codec ("unsupported binary vector version: " ++ natText version.toNat))
  let reserved ← checkIndex payload 5
  let tail ← sliceBytes payload 12 16
  if reserved ≠ 0 ∨ getBE tail ≠ 0 then
    return .error (.codec "binary vector reserved fields must be zero")
  let vectorCount := getBE (← sliceBytes payload 6 8)
  let metadataLen := getBE (← sliceBytes payload 8 12)
  let left ← checkInt (payload.length - binaryVectorPrefix)
  if left < metadataLen then
    return .error (.codec "binary vector metadata length exceeds payload length")
  return .ok (vectorCount, metadataLen)

def checkedDecode (M : MsgPack T) (payload : Bytes) : Except Fault (Nat × Except GoError (FrameDict T)) := do
  match ← checkedPrefix payload with
  | .error err => return (0, .error err)
  | .ok (vectorCount, metadataLen) =>
    let offset ← checkInt ((binaryVectorPrefix : Int) + metadataLen)
    match M.unmarshal (← sliceBytes payload binaryVectorPrefix offset) with
    | .error text => return (0, .error (.codec text))
    | .ok metadata =>
      match ← checkedVectors payload vectorCount offset 0 with
      | (allocated, .error err) => return (allocated, .error err)
      | (allocated, .ok (vectors, offset)) =>
        if offset ≠ payload.length then
          return (allocated, .error (.codec "binary vector payload has trailing bytes"))
        return (allocated, ← checkedRestore metadata vectors)

/-! ### No fault -/

variable {payload : Bytes}

theorem slice_eq_take_drop (bs : Bytes) (low width : Nat) : slice bs low (low + width) = (bs.drop low).take width := by
  rw [slice, Nat.add_sub_cancel_left]

theorem ok_bind {ε α β : Type} (a : α) (f : α → Except ε β) : (Except.ok a >>= f) = f a := rfl

theorem checkInt_add_four {offset : Nat} (h : offset + 4 < 2 ^ 63) :
    checkInt ((offset : Int) + 4) = .ok ((offset + 4 : Nat) : Int) :=
  checkInt_natCast h

theorem checkInt_sub {n offset : Nat} (hlen : n < 2 ^ 63) (h : offset ≤ n) :
    checkInt ((n : Int) - offset) = .ok ((n - offset : Nat) : Int) := by
  rw [Nat.cast_sub h]
  exact if_pos ⟨by omega, by omega⟩

theorem readFloats_step (dim : Nat) (rest : Bytes) : readFloats (dim + 1) rest =
      if F32.isFinite (UInt32.ofNat (getLE (rest.take 4))) then
        (readFloats dim (rest.drop 4)).map fun r => (UInt32.ofNat (getLE (rest.take 4)) :: r.1, r.2)
      else .error (.codec "binary vector values must be finite float32") := by
  rw [readFloats]
  split
  case isTrue => rfl
  case isFalse hfinite =>
    rw [if_pos (not_not.mp hfinite)]
    cases readFloats dim (rest.drop 4) <;> rfl

/-- The components at an offset are those of the rest of the payload. -/
theorem checkedFloats_eq (hlen : payload.length < 2 ^ 63) {dim offset : Nat} (h : offset + dim * 4 ≤ payload.length) :
    checkedFloats payload dim offset =
      .ok ((readFloats dim (payload.drop offset)).map fun r => (r.1, ((offset + dim * 4 : Nat) : Int))) := by
  induction dim generalizing offset with
  | zero =>
    rfl
  | succ dim ih =>
    have hhigh : checkInt ((offset : Int) + 4) = .ok ((offset + 4 : Nat) : Int) := checkInt_add_four (by omega)
    have hnext : offset + 4 + dim * 4 = offset + (dim + 1) * 4 := by omega
    have hrest := @ih (offset + 4) (by omega)
    rw [checkedFloats, hhigh, ok_bind, sliceBytes_natCast (by omega) (by omega), ok_bind, slice_eq_take_drop,
      readFloats_step, drop_drop]
    dsimp only
    split
    case isTrue => rfl
    case isFalse hfinite =>
      rw [if_pos (not_not.mp hfinite), ok_bind, hrest, hnext]
      cases readFloats dim (payload.drop (offset + 4)) <;> rfl

theorem readVectors_step (count : Nat) (rest : Bytes) : readVectors (count + 1) rest =
      if rest.length < 4 then .error (.codec "binary vector segment missing dimension")
      else if getBE (rest.take 4) > (2 ^ 63 - 1) / 4 then
        .error (.codec "binary vector dimension exceeds addressable payload size")
      else if (rest.drop 4).length < getBE (rest.take 4) * 4 then
        .error (.codec "binary vector segment is truncated") else
        match readFloats (getBE (rest.take 4)) (rest.drop 4) with
        | .error err => .error err
        | .ok (vector, rest) => (readVectors count rest).map fun r => (vector :: r.1, r.2) := by
  rw [readVectors]
  split
  case isTrue => rfl
  case isFalse =>
    dsimp only
    split
    case isTrue => rfl
    case isFalse =>
      split
      case isTrue => rfl
      case isFalse =>
        cases readFloats (getBE (rest.take 4)) (rest.drop 4) with
        | error => rfl
        | ok r => cases hrest : readVectors count r.2 <;> simp [bind, Except.bind, hrest] <;> rfl

theorem floatBytes_getLE {bs : Bytes} (h : bs.length = 4) : floatBytes (UInt32.ofNat (getLE bs)) = bs := by
  have hlt := getLE_lt bs
  rw [h] at hlt
  rw [floatBytes, UInt32.toNat_ofNat_of_lt' hlt, ← h, putLE_getLE]

theorem readFloats_cover {dim : Nat} {bs rest : Bytes} {vector : List F32} (hlen : dim * 4 ≤ bs.length)
    (h : readFloats dim bs = .ok (vector, rest)) : bs = vector.flatMap floatBytes ++ rest ∧ vector.length = dim := by
  induction dim generalizing bs vector with
  | zero =>
    cases h
    exact ⟨rfl, rfl⟩
  | succ dim ih =>
    rw [readFloats_step] at h
    split at h
    · cases hrest : readFloats dim (bs.drop 4) with
      | error err =>
        rw [hrest] at h
        cases h
      | ok r =>
        rw [hrest] at h
        cases h
        obtain ⟨hcover, hlength⟩ := ih (by rw [length_drop]; omega) hrest
        refine ⟨?_, congrArg (· + 1) hlength⟩
        rw [flatMap_cons, floatBytes_getLE (by rw [length_take]; omega), append_assoc, ← hcover, take_append_drop]
    · cases h

theorem drop_of_readFloats {dim : Nat} {bs rest : Bytes} {vector : List F32} (hlen : dim * 4 ≤ bs.length)
    (h : readFloats dim bs = .ok (vector, rest)) : rest = bs.drop (dim * 4) := by
  obtain ⟨hcover, hdim⟩ := readFloats_cover hlen h
  rw [hcover, drop_left' (by rw [length_flatMap_floatBytes, hdim])]

/-- The vectors at an offset are those of the rest of the payload, and the bytes that were there paid for what
was allocated. -/
theorem checkedVectors_eq (hlen : payload.length < 2 ^ 63) {count offset : Nat} (h : offset ≤ payload.length)
    (allocated : Nat) : ∃ total, checkedVectors payload count offset allocated =
        .ok (total, (readVectors count (payload.drop offset)).map fun r =>
          (r.1, ((payload.length - r.2.length : Nat) : Int))) ∧
      (total - allocated) * 4 ≤ payload.length - offset ∧ allocated ≤ total := by
  induction count generalizing offset allocated with
  | zero =>
    refine ⟨allocated, ?_, by omega, Nat.le_refl _⟩
    rw [checkedVectors, readVectors]
    have hoffset : payload.length - (payload.drop offset).length = offset := by
      rw [length_drop]
      omega
    simp only [Except.map, hoffset]
  | succ count ih =>
    have hlength : (payload.drop offset).length = payload.length - offset := length_drop
    rw [checkedVectors, checkInt_sub hlen h, ok_bind, readVectors_step, hlength]
    by_cases hhead : payload.length - offset < 4
    · refine ⟨allocated, ?_, by omega, Nat.le_refl _⟩
      rw [if_pos (by omega), if_pos hhead]
      rfl
    · have hhigh : checkInt ((offset : Int) + 4) = .ok ((offset + 4 : Nat) : Int) := checkInt_add_four (by omega)
      rw [if_neg (by omega), if_neg hhead, hhigh, ok_bind, sliceBytes_natCast (by omega) (by omega), ok_bind,
        slice_eq_take_drop]
      generalize getBE ((payload.drop offset).take 4) = dim
      by_cases hlarge : dim > (2 ^ 63 - 1) / 4
      · refine ⟨allocated, ?_, by omega, Nat.le_refl _⟩
        rw [if_pos hlarge, if_pos hlarge]
        rfl
      · rw [if_neg hlarge, if_neg hlarge, ok_bind, checkInt_natCast (by omega), ok_bind,
          checkInt_sub hlen (by omega), ok_bind, length_drop, hlength]
        by_cases hcut : payload.length - offset - 4 < dim * 4
        · refine ⟨allocated, ?_, by omega, Nat.le_refl _⟩
          rw [if_pos (by omega), if_pos hcut]
          rfl
        · rw [if_neg (by omega), if_neg hcut, checkedFloats_eq hlen (by omega), ok_bind, drop_drop]
          cases hfloats : readFloats dim (payload.drop (offset + 4)) with
          | error err => exact ⟨allocated + dim, rfl, by omega, by omega⟩
          | ok r =>
            obtain ⟨vector, rest⟩ := r
            obtain rfl := drop_of_readFloats (by rw [length_drop]; omega) hfloats
            obtain ⟨total, htotal, hpaid, hmore⟩ := @ih (offset + 4 + dim * 4) (by omega) (allocated + dim)
            refine ⟨total, ?_, by omega, by omega⟩
            simp only [Except.map]
            rw [htotal, drop_drop]
            cases readVectors count (payload.drop (offset + 4 + dim * 4)) <;> rfl

variable {bs : Bytes} {n width : Nat}

theorem checkIndex_getD {i : Nat} (h : i < bs.length) : checkIndex bs i = .ok (bs.getD i 0) :=
  checkIndex_natCast (by rw [getElem?_eq_getElem h, getD_eq_getElem _ _ h])

theorem checkedPrefix_eq (hlen : payload.length < 2 ^ 63) : checkedPrefix payload = .ok (decodePrefix payload) := by
  rw [checkedPrefix, decodePrefix]
  by_cases hshort : payload.length < binaryVectorPrefix
  · rw [if_pos hshort, if_pos hshort]
    rfl
  have hlong : 16 ≤ payload.length := Nat.le_of_not_lt hshort
  have hmagic : sliceBytes payload 0 4 = .ok (payload.take 4) := @sliceBytes_natCast payload 0 4 (by omega) (by omega)
  have hversion : checkIndex payload 4 = .ok (payload.getD 4 0) := @checkIndex_getD payload 4 (by omega)
  have hreserved : checkIndex payload 5 = .ok (payload.getD 5 0) := @checkIndex_getD payload 5 (by omega)
  have htail : sliceBytes payload 12 16 = .ok (slice payload 12 16) :=
    @sliceBytes_natCast payload 12 16 (by omega) (by omega)
  have hcount : sliceBytes payload 6 8 = .ok (slice payload 6 8) :=
    @sliceBytes_natCast payload 6 8 (by omega) (by omega)
  have hlength : sliceBytes payload 8 12 = .ok (slice payload 8 12) :=
    @sliceBytes_natCast payload 8 12 (by omega) (by omega)
  have hleft : checkInt (payload.length - binaryVectorPrefix) =
      .ok ((payload.length - binaryVectorPrefix : Nat) : Int) := checkInt_sub hlen hlong
  rw [if_neg hshort, if_neg hshort, hmagic, ok_bind]
  split
  case isTrue => rfl
  case isFalse =>
    rw [hversion, ok_bind]
    split
    case isTrue => rfl
    case isFalse =>
      rw [hreserved, ok_bind, htail, ok_bind]
      split
      case isTrue => rfl
      case isFalse =>
        rw [hcount, ok_bind, hlength, ok_bind, hleft, ok_bind]
        by_cases hcut : getBE (slice payload 8 12) > payload.length - binaryVectorPrefix
        · rw [if_pos (by omega), if_pos hcut]
          rfl
        · rw [if_neg (by omega), if_neg hcut]
          rfl

theorem checkedRestore_eq (metadata : FrameDict T) (vectors : List (List F32)) :
    checkedRestore metadata vectors = .ok (restoreVectorSearchVector metadata vectors) := by
  rw [checkedRestore, restoreVectorSearchVector]
  cases (GoDict.get metadata "vector_search").asMap with
  | none => rfl
  | some vectorSearch =>
    dsimp only
    cases vectorSearch["vector"]? with
    | none => rfl
    | some markerValue =>
      dsimp only
      cases markerValue.asMap with
      | none => rfl
      | some marker =>
        dsimp only
        cases intValue (GoDict.get marker binaryVectorMarker) with
        | none => rfl
        | some index =>
          dsimp only
          by_cases hindex : index < 0 ∨ index ≥ vectors.length
          · rw [if_pos hindex, if_pos hindex]
          obtain ⟨i, rfl⟩ := Int.eq_ofNat_of_zero_le (by omega : 0 ≤ index)
          have hi : i < vectors.length := by omega
          rw [if_neg hindex, checkIndex_natCast (getElem?_eq_getElem hi), ok_bind,
            Int.toNat_natCast, getD_eq_getElem _ _ hi]
          split_ifs <;> rfl

/-! ### What is accepted -/

theorem readVectors_cover {count : Nat} {bs rest : Bytes} {vectors : List (List F32)}
    (h : readVectors count bs = .ok (vectors, rest)) :
    bs = vectors.flatMap vectorSegment ++ rest ∧ vectors.length = count := by
  induction count generalizing bs vectors with
  | zero =>
    cases h
    exact ⟨rfl, rfl⟩
  | succ count ih =>
    rw [readVectors_step] at h
    split at h
    · cases h
    next hhead =>
      split at h
      · cases h
      split at h
      · cases h
      next hcut =>
        cases hfloats : readFloats (getBE (bs.take 4)) (bs.drop 4) with
        | error err =>
          rw [hfloats] at h
          cases h
        | ok r =>
          obtain ⟨hvector, hdim⟩ := readFloats_cover (Nat.le_of_not_lt hcut) hfloats
          cases hrest : readVectors count r.2 with
          | error err =>
            simp only [hfloats, hrest] at h
            cases h
          | ok s =>
            simp only [hfloats, hrest] at h
            cases h
            obtain ⟨hcover, hlength⟩ := ih hrest
            have hsegment : bs.take 4 ++ r.1.flatMap floatBytes = vectorSegment r.1 := by
              have htake : (bs.take 4).length = 4 := by
                rw [length_take]
                omega
              have hput := putBE_getBE (bs.take 4)
              rw [htake] at hput
              rw [vectorSegment, hdim, hput]
            refine ⟨?_, congrArg (· + 1) hlength⟩
            rw [flatMap_cons, ← hsegment, append_assoc, append_assoc, ← hcover, ← hvector, take_append_drop]

theorem drop_eq_slice_append (bs : Bytes) (n width : Nat) :
    bs.drop n = slice bs n (n + width) ++ bs.drop (n + width) := by
  rw [slice_eq_take_drop, ← drop_drop, take_append_drop]

theorem drop_eq_getD_cons {n : Nat} (h : n < bs.length) : bs.drop n = bs.getD n 0 :: bs.drop (n + 1) := by
  rw [drop_eq_getElem_cons h, getD_eq_getElem _ _ h]

section

variable (h : n + width ≤ bs.length)
include h

theorem length_slice : (slice bs n (n + width)).length = width := by
  rw [slice_eq_take_drop, length_take, length_drop]
  omega

theorem putBE_slice :
    putBE width (getBE (slice bs n (n + width))) = slice bs n (n + width) := by
  have hput := putBE_getBE (slice bs n (n + width))
  rwa [length_slice h] at hput

theorem getBE_slice_lt : getBE (slice bs n (n + width)) < 256 ^ width := by
  have hlt := getBE_lt (slice bs n (n + width))
  rwa [length_slice h] at hlt

end

/-- An accepted prefix is one that the encoder writes. -/
theorem decodePrefix_cover {vectorCount metadataLen : Nat} (h : decodePrefix payload = .ok (vectorCount, metadataLen)) :
    payload = vectorPrefix vectorCount metadataLen ++ payload.drop binaryVectorPrefix ∧
      metadataLen ≤ payload.length - binaryVectorPrefix ∧ vectorCount < 2 ^ 16 ∧ metadataLen < 2 ^ 32 ∧
      binaryVectorPrefix ≤ payload.length := by
  simp only [decodePrefix, throw, throwThe, MonadExceptOf.throw, bind, Except.bind] at h
  split_ifs at h with hshort hmagic hversion hreserved hcut
  cases h
  have hlong : 16 ≤ payload.length := Nat.le_of_not_lt hshort
  have hcount := @putBE_slice payload 6 2 (by omega)
  have hmeta := @putBE_slice payload 8 4 (by omega)
  have htail := @putBE_slice payload 12 4 (by omega)
  obtain ⟨hreserved, hzero⟩ := not_or.mp hreserved
  rw [not_not.mp hzero] at htail
  refine ⟨?_, Nat.le_of_not_lt hcut, ?_, ?_, hlong⟩
  · have hbody : payload.drop 4 = binaryVectorVersion :: 0 :: payload.drop 6 := by
      rw [drop_eq_getD_cons (by omega), drop_eq_getD_cons (by omega), not_not.mp hversion, not_not.mp hreserved]
    have hfields : payload.drop 6 = slice payload 6 8 ++ (slice payload 8 12 ++
        (slice payload 12 16 ++ payload.drop 16)) := by
      rw [drop_eq_slice_append payload 6 2, drop_eq_slice_append payload 8 4, drop_eq_slice_append payload 12 4]
    conv_lhs => rw [← take_append_drop 4 payload, not_not.mp hmagic, hbody, hfields]
    rw [vectorPrefix, hcount, hmeta, htail]
    simp [binaryVectorPrefix]
  · exact @getBE_slice_lt payload 6 2 (by omega)
  · exact @getBE_slice_lt payload 8 4 (by omega)

/-! ### Safety -/

/-- The decoder runs without a fault, and the payload has the bytes for every component it allocates. -/
theorem checkedDecode_eq (M : MsgPack T) (hlen : payload.length < 2 ^ 63) :
    ∃ allocated, checkedDecode M payload = .ok (allocated, decodeBinaryVector M payload) ∧
      allocated * 4 ≤ payload.length := by
  rw [checkedDecode, checkedPrefix_eq hlen, ok_bind, decodeBinaryVector]
  cases hstart : decodePrefix payload with
  | error err => exact ⟨0, rfl, by omega⟩
  | ok r =>
    obtain ⟨vectorCount, metadataLen⟩ := r
    obtain ⟨-, hmetadata, -, -, hlong⟩ := decodePrefix_cover hstart
    have hoffset : checkInt ((binaryVectorPrefix : Int) + metadataLen) =
        .ok ((binaryVectorPrefix + metadataLen : Nat) : Int) := checkInt_natCast (by omega)
    dsimp only
    rw [hoffset, ok_bind, sliceBytes_natCast (by omega) (by omega), ok_bind, slice_eq_take_drop, ok_bind, decodeBody,
      drop_drop]
    cases M.unmarshal ((payload.drop binaryVectorPrefix).take metadataLen) with
    | error text => exact ⟨0, rfl, by omega⟩
    | ok =>
      obtain ⟨total, htotal, hpaid, -⟩ :=
        @checkedVectors_eq payload hlen vectorCount (binaryVectorPrefix + metadataLen) (by omega) 0
      refine ⟨total, ?_, by omega⟩
      dsimp only
      rw [htotal, ok_bind]
      cases hvectors : readVectors vectorCount (payload.drop (binaryVectorPrefix + metadataLen)) with
      | error err => rfl
      | ok s =>
        obtain ⟨vectors, rest⟩ := s
        have hrest : rest.length ≤ payload.length := by
          have hlength := congrArg List.length (readVectors_cover hvectors).1
          rw [length_drop, length_append] at hlength
          omega
        simp only [Except.map]
        cases rest with
        | nil =>
          rw [if_neg (by simp), checkedRestore_eq]
          rfl
        | cons =>
          rw [if_pos (by simp at hrest ⊢; omega)]
          rfl

/-- A payload that is accepted is a prefix, the metadata and the vectors that the prefix declares, and
nothing else. -/
theorem decodeBinaryVector_cover {M : MsgPack T} {d : FrameDict T} (h : decodeBinaryVector M payload = .ok d) :
    ∃ (metadataBytes : Bytes) (vectors : List (List F32)),
      payload = vectorPrefix vectors.length metadataBytes.length ++ metadataBytes ++ vectors.flatMap vectorSegment ∧
        vectors.length < 2 ^ 16 ∧ metadataBytes.length < 2 ^ 32 := by
  rw [decodeBinaryVector] at h
  cases hstart : decodePrefix payload with
  | error err =>
    rw [hstart] at h
    cases h
  | ok r =>
    obtain ⟨vectorCount, metadataLen⟩ := r
    obtain ⟨hpayload, hmetadata, hcount, hmetadataLen, hlong⟩ := decodePrefix_cover hstart
    rw [hstart, ok_bind] at h
    dsimp only at h
    rw [decodeBody] at h
    cases hunmarshal : M.unmarshal ((payload.drop binaryVectorPrefix).take metadataLen) with
    | error text =>
      rw [hunmarshal] at h
      cases h
    | ok =>
      rw [hunmarshal] at h
      cases hvectors : readVectors vectorCount ((payload.drop binaryVectorPrefix).drop metadataLen) with
      | error err =>
        rw [hvectors] at h
        cases h
      | ok s =>
        obtain ⟨vectors, rest⟩ := s
        rw [hvectors] at h
        obtain ⟨hcover, hlength⟩ := readVectors_cover hvectors
        have hbytes : ((payload.drop binaryVectorPrefix).take metadataLen).length = metadataLen := by
          rw [length_take, length_drop]
          omega
        cases rest with
        | cons => cases h
        | nil =>
          rw [append_nil] at hcover
          refine ⟨(payload.drop binaryVectorPrefix).take metadataLen, vectors, ?_, hlength ▸ hcount,
            hbytes.symm ▸ hmetadataLen⟩
          rw [hbytes, hlength, append_assoc, ← hcover, take_append_drop]
          exact hpayload

/-- On no payload is an index out of range or a number too large, no more components are allocated than the
payload has bytes for, and what is accepted is covered by what it declares. -/
theorem decodeBinaryVector_safe (M : MsgPack T) (hlen : payload.length < 2 ^ 63) :
    (∃ allocated, checkedDecode M payload = .ok (allocated, decodeBinaryVector M payload) ∧
      allocated ≤ payload.length / 4) ∧ ∀ d, decodeBinaryVector M payload = .ok d →
      ∃ (metadataBytes : Bytes) (vectors : List (List F32)),
        payload = vectorPrefix vectors.length metadataBytes.length ++ metadataBytes ++ vectors.flatMap vectorSegment ∧
          vectors.length < 2 ^ 16 ∧ metadataBytes.length < 2 ^ 32 := by
  obtain ⟨allocated, hdecode, hpaid⟩ := checkedDecode_eq M hlen
  exact ⟨⟨allocated, hdecode, by omega⟩, fun d hd => decodeBinaryVector_cover hd⟩

/-- A payload with an empty map as metadata that announces a vector of 2^32 - 1 components and ends there. -/
def announcedPayload : Bytes := vectorPrefix 1 1 ++ [0x80] ++ putBE 4 (2 ^ 32 - 1)

theorem announced_vector_not_allocated : announcedPayload.length < 2 ^ 63 ∧ ∃ allocated,
    checkedDecode (MsgPack.oneDocument (cloneDict (∅ : FrameDict Empty)) [0x80]) announcedPayload =
      .ok (allocated, decodeBinaryVector (MsgPack.oneDocument (cloneDict (∅ : FrameDict Empty)) [0x80])
        announcedPayload) ∧ allocated ≤ 5 := by
  have hlen : announcedPayload.length < 2 ^ 63 := by decide
  obtain ⟨allocated, hdecode, hpaid⟩ := (decodeBinaryVector_safe (MsgPack.oneDocument (cloneDict ∅) [0x80]) hlen).1
  exact ⟨hlen, allocated, hdecode, hpaid⟩

end Checked

end NpsSdk.Core
