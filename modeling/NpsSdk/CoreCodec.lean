import NpsSdk.CoreBinaryVector

/-! The frame codec: a payload in one of three encodings behind a frame header. Encoding takes any frame
type; decoding takes the registered ones only. -/

namespace NpsSdk.Core

/-! ### Registry -/

abbrev FrameRegistry := List FrameType

namespace FrameRegistry

def register (r : FrameRegistry) (ft : FrameType) : FrameRegistry := ft :: r

def isRegistered (r : FrameRegistry) (ft : FrameType) : Bool := decide (ft ∈ r)

end FrameRegistry

def createDefaultRegistry : FrameRegistry :=
  [FrameType.anchor, .diff, .stream, .caps, .hello, .error].foldl FrameRegistry.register []

def createFullRegistry : FrameRegistry :=
  [FrameType.query, .action, .subscribe, .ident, .trust, .revoke, .announce, .resolve, .graph, .task,
    .delegate, .sync, .alignStream].foldl FrameRegistry.register createDefaultRegistry

theorem isRegistered_createFullRegistry (ft : FrameType) :
    FrameRegistry.isRegistered createFullRegistry ft = decide (ft ≠ .nop) := by
  cases ft <;> rfl

/-! ### Codec -/

def defaultMaxPayload : Nat := 10 * 1024 * 1024

structure NpsFrameCodec (T : Type) where
  platform : Platform T
  msgpack : MsgPack T
  registry : FrameRegistry
  maxPayload : Int

section

variable {T : Type}

def newNpsFrameCodec (P : Platform T) (M : MsgPack T) (reg : FrameRegistry) : NpsFrameCodec T :=
  { platform := P, msgpack := M, registry := reg, maxPayload := defaultMaxPayload }

namespace NpsFrameCodec

variable (c : NpsFrameCodec T)

def unknownTier (tier : EncodingTier) : GoError := .codec ("unknown encoding tier " ++ natText tier.toNat)

def encodePayload (dict : FrameDict T) (tier : EncodingTier) : Except GoError Bytes :=
  if tier = encodingTierJSON then jsonMarshal c.platform dict
  else if tier = encodingTierMsgPack then (c.msgpack.marshal dict).mapError .encoder
  else if tier = encodingTierBinaryVector then encodeBinaryVector c.platform c.msgpack dict
  else .error (unknownTier tier)

def decodePayload (payload : Bytes) (tier : EncodingTier) : Except GoError (FrameDict T) :=
  if tier = encodingTierJSON then (jsonUnmarshal c.platform payload).mapError .codec
  else if tier = encodingTierMsgPack then (c.msgpack.unmarshal payload).mapError .codec
  else if tier = encodingTierBinaryVector then decodeBinaryVector c.msgpack payload
  else .error (unknownTier tier)

def encode (ft : FrameType) (dict : FrameDict T) (tier : EncodingTier) (isFinal : Bool) :
    Except GoError Bytes := do
  let payload ← c.encodePayload dict tier
  if (payload.length : Int) > c.maxPayload then
    throw (.codec ("payload " ++ natText payload.length ++ " exceeds max " ++
      GoString.ofChars (intText c.maxPayload)))
  return (newFrameHeader ft tier isFinal payload.length).toBytes ++ payload

def decode (wire : Bytes) : Except GoError (FrameType × FrameDict T) := do
  let hdr ← parseFrameHeader wire
  if ¬ c.registry.isRegistered hdr.frameType then
    throw (.frame ("unregistered frame type " ++ hexByte hdr.frameType.code))
  if wire.length < hdr.headerSize + hdr.payloadLength then
    throw (.codec "wire too short for declared payload")
  let dict ← c.decodePayload (slice wire hdr.headerSize (hdr.headerSize + hdr.payloadLength))
    hdr.encodingTier
  return (hdr.frameType, dict)

theorem encode_ok {ft : FrameType} {dict : FrameDict T} {tier : EncodingTier} {isFinal : Bool}
    {wire : Bytes} (h : c.encode ft dict tier isFinal = .ok wire) :
    ∃ payload, c.encodePayload dict tier = .ok payload ∧ (payload.length : Int) ≤ c.maxPayload ∧
      wire = (newFrameHeader ft tier isFinal payload.length).toBytes ++ payload := by
  obtain ⟨payload, hpayload, hwire⟩ := bind_eq_ok_iff.mp h
  refine ⟨payload, hpayload, ?_⟩
  split_ifs at hwire with hmax
  · cases hwire
  · cases hwire
    exact ⟨Int.not_lt.mp hmax, rfl⟩

/-- A frame that was put together is decoded by its type and its payload. -/
theorem decode_rebuilt {header : FrameHeader} (hwell : header.WellFormed) {payload : Bytes}
    (hlength : payload.length = header.payloadLength) : c.decode (header.toBytes ++ payload) =
      if c.registry.isRegistered header.frameType then
        (c.decodePayload payload header.encodingTier).map fun dict => (header.frameType, dict)
      else .error (.frame ("unregistered frame type " ++ hexByte header.frameType.code)) := by
  have hsize : ¬ (header.toBytes ++ payload).length < header.headerSize + header.payloadLength := by
    rw [List.length_append, header.length_toBytes]
    omega
  have hslice : slice (header.toBytes ++ payload) header.headerSize
      (header.headerSize + header.payloadLength) = payload := by
    rw [slice, List.drop_left' header.length_toBytes, Nat.add_sub_cancel_left, ← hlength, List.take_length]
  rw [decode, parseFrameHeader_toBytes hwell]
  cases hregistered : c.registry.isRegistered header.frameType with
  | false => simp only [bind, Except.bind, hregistered]; rfl
  | true =>
    simp only [bind, Except.bind, hregistered, hsize, hslice]
    cases c.decodePayload payload header.encodingTier <;> rfl

/-- A tier that has an encoding is named by the two low bits of its byte. -/
theorem tier_of_encodePayload {dict : FrameDict T} {tier : EncodingTier} {payload : Bytes}
    (h : c.encodePayload dict tier = .ok payload) :
    tier = encodingTierJSON ∨ tier = encodingTierMsgPack ∨ tier = encodingTierBinaryVector := by
  rw [encodePayload] at h
  split_ifs at h with hjson hmsgpack hvector
  · exact .inl hjson
  · exact .inr (.inl hmsgpack)
  · exact .inr (.inr hvector)

end NpsFrameCodec

/-- The payload of a frame of the standard size has a length the header can say. -/
theorem newNpsFrameCodec_encode_ok {P : Platform T} {M : MsgPack T} {reg : FrameRegistry} {ft : FrameType}
    {dict : FrameDict T} {tier : EncodingTier} {isFinal : Bool} {wire : Bytes}
    (h : (newNpsFrameCodec P M reg).encode ft dict tier isFinal = .ok wire) :
    ∃ payload, (newNpsFrameCodec P M reg).encodePayload dict tier = .ok payload ∧
      payload.length < 2 ^ 32 ∧ wire = (newFrameHeader ft tier isFinal payload.length).toBytes ++ payload := by
  obtain ⟨payload, hpayload, hmax, hwire⟩ := NpsFrameCodec.encode_ok _ h
  refine ⟨payload, hpayload, ?_, hwire⟩
  change (payload.length : Int) ≤ ((10 * 1024 * 1024 : Nat) : Int) at hmax
  omega

end

end NpsSdk.Core
