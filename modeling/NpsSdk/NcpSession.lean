import NpsSdk.NcpFrameIo
import NpsSdk.NcpFrames

/-! Sessions: the encoding policy the handshake settled, and sending and receiving frames under it. Both
sides check the policy, but the sender's codec takes every frame type and the receiver's only the
registered ones, and a frame with vectors may be written in a form its own reader refuses. -/

open NpsSdk.Core

namespace NpsSdk.Ncp

/-! ### Encoding policy -/

def binaryVectorToken : GoString := "binary_vector.v1"

def encodingToken (tier : EncodingTier) : GoString :=
  if tier = encodingTierJSON then "json"
  else if tier = encodingTierMsgPack then "msgpack"
  else if tier = encodingTierBinaryVector then binaryVectorToken
  else "unknown:" ++ natText tier.toNat

structure NcpEncodingPolicy where
  defaultTier : EncodingTier
  binaryVectorEnabled : Bool
  deriving DecidableEq

namespace NcpEncodingPolicy

variable (p : NcpEncodingPolicy)

def enabledEncodings : List GoString :=
  if p.binaryVectorEnabled then [encodingToken p.defaultTier, binaryVectorToken]
  else [encodingToken p.defaultTier]

def isBinaryVectorFrame (ft : FrameType) : Bool := decide (ft = .query)

def allows (tier : EncodingTier) (ft : FrameType) : Bool :=
  decide (tier = p.defaultTier) ||
    (decide (tier = encodingTierBinaryVector) && p.binaryVectorEnabled && isBinaryVectorFrame ft)

def ensureAllows (header : FrameHeader) : Except GoError Unit :=
  if p.allows header.encodingTier header.frameType then .ok ()
  else .error (.codec ("frame type " ++ hexByte header.frameType.code ++ " used " ++
    encodingToken header.encodingTier ++ ", but the negotiated session policy allows " ++
    List.intercalate ", " p.enabledEncodings))

end NcpEncodingPolicy

def ncpEncodingPolicyFromEnabledEncodings (defaultTier : EncodingTier) (enabled : Option (List GoString)) :
    NcpEncodingPolicy :=
  { defaultTier, binaryVectorEnabled := decide (binaryVectorToken ∈ enabled.getD []) }

/-! ### Sessions -/

/-- A session; the connection is passed to the functions that read it. -/
structure NcpSession (T : Type) where
  codec : NpsFrameCodec T
  serverCaps : NcpHandshakeCapsFrame T
  encodingPolicy : NcpEncodingPolicy

namespace NcpSession

variable {T : Type} (s : NcpSession T)

def send (frame : Frame T) (tier : EncodingTier) (isFinal : Bool) : Except GoError Bytes := do
  s.encodingPolicy.ensureAllows (newFrameHeader frame.frameType tier isFinal 0)
  s.codec.encode frame.frameType frame.toDict tier isFinal

def receiveHeader (conn : Conn) : Except GoError (FrameHeader × Conn) := do
  let (header, conn) ← readFrameHeader conn
  s.encodingPolicy.ensureAllows header
  return (header, conn)

def receive (conn : Conn) : Except GoError ((FrameType × FrameDict T) × Conn) := do
  let (header, conn) ← s.receiveHeader conn
  let (payload, conn) ← readFull header.payloadLength conn
  let frame ← s.codec.decode (header.toBytes ++ payload)
  return (frame, conn)

theorem receiveHeader_ok_iff {conn rest : Conn} {header : FrameHeader} : s.receiveHeader conn = .ok (header, rest) ↔
      readFrameHeader conn = .ok (header, rest) ∧ s.encodingPolicy.ensureAllows header = .ok () := by
  constructor
  · intro h
    obtain ⟨⟨header', conn'⟩, hread, hallow⟩ := bind_eq_ok_iff.mp h
    obtain ⟨⟨⟩, hallows, hdone⟩ := bind_eq_ok_iff.mp hallow
    cases hdone
    exact ⟨hread, hallows⟩
  · rintro ⟨hread, hallows⟩
    exact bind_eq_ok_iff.mpr ⟨_, hread, bind_eq_ok_iff.mpr ⟨(), hallows, rfl⟩⟩

/-- A frame the policy allows is received as its payload is decoded. -/
theorem receive_wire {header : FrameHeader} (hwell : header.WellFormed) {payload : Bytes}
    (hlength : payload.length = header.payloadLength)
    (hallows : s.encodingPolicy.ensureAllows header = .ok ()) (rest : Conn) :
    s.receive (Stream.prepend (header.toBytes ++ payload) rest) =
      (s.codec.decode (header.toBytes ++ payload)).map fun frame => (frame, rest) := by
  have hheader : s.receiveHeader (Stream.prepend header.toBytes (Stream.prepend payload rest)) =
      .ok (header, Stream.prepend payload rest) :=
    s.receiveHeader_ok_iff.mpr
      ⟨readFrameHeader_ok_iff.mpr ⟨_, headerBytes_toBytes hwell, rfl⟩, hallows⟩
  have hbody : readFull header.payloadLength (Stream.prepend payload rest) = .ok (payload, rest) :=
    readFull_ok_iff.mpr ⟨hlength, rfl⟩
  rw [receive, Stream.prepend_append, hheader]
  simp only [bind, Except.bind, hbody]
  cases s.codec.decode (header.toBytes ++ payload) <;> rfl

end NcpSession

/-! ### What is sent and what is received -/

section

variable {T : Type} {P : Platform T} {M : MsgPack T}

/-- The payload of a sent frame is decoded unless it is one of vectors that cannot be read back. -/
theorem decodePayload_iff {reg : FrameRegistry} {d : FrameDict T} {tier : EncodingTier} {payload : Bytes}
    (hjson : tier = encodingTierJSON → ∀ bytes, jsonMarshal P d = .ok bytes →
      ∃ d', jsonUnmarshal P bytes = .ok d') (hencode : (newNpsFrameCodec P M reg).encodePayload d tier = .ok payload)
    (hlt : payload.length < 2 ^ 32) : (∃ d', (newNpsFrameCodec P M reg).decodePayload payload tier = .ok d') ↔
      (tier = encodingTierBinaryVector → VectorReadable P M d) := by
  obtain rfl | rfl | rfl := NpsFrameCodec.tier_of_encodePayload _ hencode
  · obtain ⟨d', hd'⟩ := hjson rfl payload hencode
    refine iff_of_true ⟨d', ?_⟩ (fun h => absurd h (by decide))
    change (jsonUnmarshal P payload).mapError GoError.codec = .ok d'
    rw [hd']
    rfl
  · cases hmarshal : M.marshal d with
    | error e =>
      change (M.marshal d).mapError GoError.encoder = .ok payload at hencode
      rw [hmarshal] at hencode
      cases hencode
    | ok bytes =>
      change (M.marshal d).mapError GoError.encoder = .ok payload at hencode
      rw [hmarshal] at hencode
      cases hencode
      refine iff_of_true ⟨msgpackDict M.other d, ?_⟩ (fun h => absurd h (by decide))
      change (M.unmarshal payload).mapError GoError.codec = .ok _
      rw [M.unmarshal_marshal hmarshal]
      rfl
  · obtain ⟨hreads, hrefused⟩ := decodesIf_readable (P := P) (M := M) hencode hlt
    constructor
    · rintro ⟨d', hd'⟩ -
      by_contra hnot
      exact hrefused hnot d' hd'
    · intro hreadable
      exact ⟨_, hreads (hreadable rfl)⟩

/-- A frame sent over one session is received over another of the same policy exactly if it is not the
keepalive frame, and not one of vectors that cannot be read back. -/
theorem sent_is_received_iff (policy : NcpEncodingPolicy) (caps caps' : NcpHandshakeCapsFrame T)
    (frame : Frame T) (tier : EncodingTier) (isFinal : Bool) (wire : Bytes) (rest : Conn)
    (hjson : tier = encodingTierJSON → ∀ bytes, jsonMarshal P frame.toDict = .ok bytes →
      ∃ d, jsonUnmarshal P bytes = .ok d)
    (hsend : NcpSession.send ⟨newNpsFrameCodec P M createFullRegistry, caps, policy⟩ frame tier isFinal = .ok wire) :
    (∃ dict, NcpSession.receive ⟨newNpsFrameCodec P M createFullRegistry, caps', policy⟩
        (Stream.prepend wire rest) = .ok ((frame.frameType, dict), rest)) ↔
      frame.frameType ≠ .nop ∧ (tier = encodingTierBinaryVector → VectorReadable P M frame.toDict) := by
  obtain ⟨⟨⟩, hallows, hencode⟩ := bind_eq_ok_iff.mp hsend
  obtain ⟨payload, hpayload, hlt, rfl⟩ := newNpsFrameCodec_encode_ok hencode
  have hwell := wellFormed_newFrameHeader frame.frameType tier isFinal hlt
  have htier : (newFrameHeader frame.frameType tier isFinal payload.length).encodingTier = tier := by
    rw [encodingTier_newFrameHeader]
    obtain rfl | rfl | rfl := NpsFrameCodec.tier_of_encodePayload _ hpayload <;> decide
  -- the policy sees only the type and the tier, which the length does not change
  have hallows' : policy.ensureAllows (newFrameHeader frame.frameType tier isFinal payload.length) = .ok () := by
    rw [← hallows]
    simp only [NcpEncodingPolicy.ensureAllows, encodingTier_newFrameHeader]
    rfl
  rw [NcpSession.receive_wire _ hwell rfl hallows', NpsFrameCodec.decode_rebuilt _ hwell rfl, htier,
    ← decodePayload_iff hjson hpayload hlt]
  change (∃ dict, Except.map _ (if FrameRegistry.isRegistered createFullRegistry frame.frameType then _
    else _) = _) ↔ _
  rw [isRegistered_createFullRegistry]
  by_cases hnop : frame.frameType = .nop
  · simp only [hnop, ne_eq, not_true, false_and, iff_false]
    rintro ⟨dict, hdict⟩
    cases hdict
  · simp only [ne_eq, hnop, not_false_eq_true, true_and]
    cases (newNpsFrameCodec P M createFullRegistry).decodePayload payload tier with
    | error e =>
      refine iff_of_false ?_ ?_
      · rintro ⟨d, hd⟩
        cases hd
      · rintro ⟨d, hd⟩
        cases hd
    | ok d => exact iff_of_true ⟨d, rfl⟩ ⟨d, rfl⟩

end

def emptyCapsFrame : CapsFrame Empty :=
  { nodeID := [], caps := none, anchorRef := none, count := 0, data := none, nextCursor := none,
    tokenEst := none, cached := none, tokenizerUsed := none, requestID := none, payload := .nil }

def silentCaps : NcpHandshakeCapsFrame Empty :=
  { nodeID := [], caps := none, negotiatedEncoding := none, enabledEncodings := none,
    sessionVersion := none, supportedProtocols := none, maxFramePayload := none, extSupport := none,
    maxConcurrentStreams := none, anchorRef := none, payload := .nil }

noncomputable def jsonSession : NcpSession Empty :=
  { codec := newNpsFrameCodec plainPlatform (MsgPack.oneDocument ∅ [0x80]) createFullRegistry
    serverCaps := silentCaps
    encodingPolicy := { defaultTier := encodingTierJSON, binaryVectorEnabled := false } }

theorem jsonMarshal_empty : jsonMarshal plainPlatform ∅ = .ok [0x7B, 0x7D] := by
  rfl

noncomputable def vectorSession : NcpSession Empty :=
  { codec := newNpsFrameCodec plainPlatform (MsgPack.oneDocument unitMetadata unitDocument) createFullRegistry
    serverCaps := silentCaps
    encodingPolicy := { defaultTier := encodingTierMsgPack, binaryVectorEnabled := true } }

/-- Capabilities as JSON, and a query with a vector in a frame that another follows. -/
theorem caps_and_vector_received :
    (∃ dict, jsonSession.receive (Stream.prepend [0x04, 0x04, 0x00, 0x02, 0x7B, 0x7D] ⟨[], .eof⟩) =
        .ok ((.caps, dict), ⟨[], .eof⟩)) ∧
      ∃ wire, vectorSession.send ⟨.query, unitFrame⟩ encodingTierBinaryVector true = .ok wire ∧
        ∃ dict, vectorSession.receive (Stream.prepend wire ⟨[0x07], .eof⟩) =
          .ok ((.query, dict), ⟨[0x07], .eof⟩) := by
  constructor
  · refine (sent_is_received_iff jsonSession.encodingPolicy silentCaps silentCaps
      ⟨.caps, emptyCapsFrame.toDict⟩ encodingTierJSON true _ ⟨[], .eof⟩ ?_ rfl).mpr ⟨by decide, ?_⟩
    · intro _ bytes hbytes
      cases jsonMarshal_empty.symm.trans hbytes
      exact ⟨∅, rfl⟩
    · intro h
      exact absurd h (by decide)
  · have hpayload : vectorSession.codec.encodePayload unitFrame encodingTierBinaryVector = .ok _ := encode_unitFrame
    obtain ⟨wire, hencode⟩ : ∃ wire,
        vectorSession.codec.encode .query unitFrame encodingTierBinaryVector true = .ok wire := by
      rw [NpsFrameCodec.encode, hpayload]
      exact ⟨_, rfl⟩
    have hsend : vectorSession.send ⟨.query, unitFrame⟩ encodingTierBinaryVector true = .ok wire :=
      bind_eq_ok_iff.mpr ⟨(), rfl, hencode⟩
    refine ⟨wire, hsend, (sent_is_received_iff vectorSession.encodingPolicy silentCaps silentCaps ⟨.query, unitFrame⟩
      encodingTierBinaryVector true _ ⟨[0x07], .eof⟩ ?_ hsend).mpr ⟨by decide, fun _ => ⟨fun v hv => ?_, ?_⟩⟩⟩
    · intro h
      exact absurd h (by decide)
    · cases searchVector_unitFrame.symm.trans hv
      exact ⟨unitVector, rfl, by decide⟩
    · exact fun t => t.elim

/-- The keepalive frame is sent, and refused by the receiver. -/
theorem nopFrame_not_received :
    jsonSession.send nopFrame encodingTierJSON true = .ok [0x07, 0x04, 0x00, 0x02, 0x7B, 0x7D] ∧
      jsonSession.receive (Stream.prepend [0x07, 0x04, 0x00, 0x02, 0x7B, 0x7D] ⟨[], .eof⟩) =
        .error (.frame "unregistered frame type 0x07") := by
  constructor <;> rfl

end NpsSdk.Ncp
