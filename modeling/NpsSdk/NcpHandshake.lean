import NpsSdk.NcpSession

/-! The native handshake. The client sends a preamble and a hello; the server negotiates the parameters of
the session from its own profile and answers with its capabilities, which the client takes as they come.
Neither side holds the session to the limits that were negotiated. -/

open NpsSdk.Core

namespace NpsSdk.Ncp

/-! ### Preamble -/

def preambleBytes : Bytes := GoString.bytes "NPS/1.0\n"

def preambleLength : Nat := 8

def preambleMatches (buf : Bytes) : Bool :=
  decide (preambleLength ≤ buf.length) && decide (buf.take preambleLength = preambleBytes)

def validatePreamble (buf : Bytes) : Except GoError Unit :=
  if buf.length < preambleLength then
    .error (.preamble ("short read (" ++ natText buf.length ++ "/" ++ natText preambleLength ++
      " bytes); peer is not speaking NCP"))
  else if preambleMatches buf then .ok ()
  else if buf.take 4 = GoString.bytes "NPS/" then
    .error (.preamble "future-major-version NPS preamble; close with NPS-PREAMBLE-UNSUPPORTED-VERSION diagnostic")
  else .error (.preamble "preamble mismatch; peer is not speaking NPS/1.x")

/-! ### Versions -/

structure ProtocolVersion where
  major : UInt64
  minor : UInt64
  deriving DecidableEq

def parseProtocolVersion (value : GoString) : Option ProtocolVersion :=
  match value.splitOn (.char '.') with
  | [major, minor] => do return ⟨← parseUint major, ← parseUint minor⟩
  | _ => none

namespace ProtocolVersion

def text (v : ProtocolVersion) : GoString := natText v.major.toNat ++ "." ++ natText v.minor.toNat

variable (left right : ProtocolVersion)

def compare : Int :=
  if left.major < right.major ∨ (left.major = right.major ∧ left.minor < right.minor) then -1
  else if left = right then 0
  else 1

def min : ProtocolVersion := if compare left right ≤ 0 then left else right

def max : ProtocolVersion := if compare left right ≥ 0 then left else right

end ProtocolVersion

/-! ### Negotiation -/

structure NcpHandshakeProfile where
  minVersion : GoString
  npsVersion : GoString
  supportedEncodings : List GoString
  supportedProtocols : List GoString
  maxFramePayload : UInt64
  extSupport : Bool
  maxConcurrentStreams : UInt64

def defaultNcpHandshakeProfile : NcpHandshakeProfile :=
  { minVersion := "0.1"
    npsVersion := "0.11"
    supportedEncodings := ["msgpack", "json", binaryVectorToken]
    supportedProtocols := ["ncp", "nwp", "nip", "ndp", "nop"]
    maxFramePayload := helloDefaultMaxFramePayload
    extSupport := false
    maxConcurrentStreams := helloDefaultMaxConcurrentStreams }

structure NcpHandshakeAcceptance where
  sessionVersion : GoString
  negotiatedEncoding : GoString
  enabledEncodings : List GoString
  supportedProtocols : List GoString
  maxFramePayload : UInt64
  extSupport : Bool
  maxConcurrentStreams : UInt64

inductive NcpHandshakeDecision where
  | accept (parameters : NcpHandshakeAcceptance)
  | errorClose (status error : GoString)

def ncpVersionError : NcpHandshakeDecision :=
  .errorClose "NPS-PROTO-VERSION-INCOMPATIBLE" "NCP-VERSION-INCOMPATIBLE"

def ncpEncodingError : NcpHandshakeDecision :=
  .errorClose "NPS-SERVER-ENCODING-UNSUPPORTED" "NCP-ENCODING-UNSUPPORTED"

variable (server : NcpHandshakeProfile) (client : HelloFrame)

def overlapMax : Option ProtocolVersion := do
  let serverMin ← parseProtocolVersion server.minVersion
  let serverMax ← parseProtocolVersion server.npsVersion
  let clientMin ← parseProtocolVersion (client.minVersion.getD client.npsVersion)
  let clientMax ← parseProtocolVersion client.npsVersion
  if serverMin.compare serverMax > 0 ∨ clientMin.compare clientMax > 0 then none
  else if (serverMin.max clientMin).compare (serverMax.min clientMax) > 0 then none
  else some (serverMax.min clientMax)

def stableEncoding : Option GoString :=
  (client.supportedEncodings.getD []).find? fun token =>
    (token = "msgpack" || token = "json") && decide (token ∈ server.supportedEncodings)

/-- The protocols of the client that the server has, each once and in the client's order. -/
def commonProtocols : List GoString :=
  (client.supportedProtocols.getD []).foldl
    (fun seen token => if token ∈ server.supportedProtocols ∧ token ∉ seen then seen ++ [token] else seen) []

/-- The stable encoding, and the one for vectors where both sides have it. -/
def enabledTokens (stable : GoString) : List GoString :=
  if binaryVectorToken ∈ server.supportedEncodings ∧ binaryVectorToken ∈ client.supportedEncodings.getD []
  then [stable, binaryVectorToken]
  else [stable]

def negotiateHandshake : NcpHandshakeDecision :=
  match overlapMax server client with
  | none => ncpVersionError
  | some version =>
    match stableEncoding server client with
    | none => ncpEncodingError
    | some stable =>
      let protocols := commonProtocols server client
      if ("ncp" : GoString) ∉ protocols ∨ client.maxFramePayload = 0 ∨ server.maxFramePayload = 0 ∨
          client.maxConcurrentStreams = 0 ∨ server.maxConcurrentStreams = 0 then ncpVersionError
      else
        .accept
          { sessionVersion := version.text
            negotiatedEncoding := stable
            enabledEncodings := enabledTokens server client stable
            supportedProtocols := protocols
            maxFramePayload := min client.maxFramePayload server.maxFramePayload
            extSupport := client.extSupport && server.extSupport
            maxConcurrentStreams := min client.maxConcurrentStreams server.maxConcurrentStreams }

/-! ### Server -/

structure NcpServerOptions where
  maxHelloPayload : UInt64
  handshakeProfile : NcpHandshakeProfile

/-- The first frame is checked before its payload is allocated. -/
def evaluateHelloHeader (header : FrameHeader) (maxHelloPayload : UInt64) : Except GoError Unit :=
  if header.frameType ≠ .hello ∨ header.encodingTier ≠ encodingTierJSON ∨ header.flags &&& 0x08 ≠ 0 ∨
      header.isExtended = true ∨ maxHelloPayload.toNat < header.payloadLength then
    .error (.frame "Invalid native NCP Hello header.")
  else .ok ()

section Handshake

variable {T : Type}

/-- A connection whose hello was read. -/
structure NcpServerConnection (T : Type) where
  codec : NpsFrameCodec T
  clientHello : HelloFrame
  profile : NcpHandshakeProfile

/-- The server's side up to the hello, over a connection that is already authenticated. A deadline that
passes ends the stream with its error. -/
def serverHandshake (codec : NpsFrameCodec T) (options : NcpServerOptions) (conn : Conn) :
    Except GoError (NcpServerConnection T × Conn) := do
  let (preambleBuf, conn) ← readFull preambleLength conn
  validatePreamble preambleBuf
  let (header, conn) ← readFrameHeader conn
  evaluateHelloHeader header options.maxHelloPayload
  let (payload, conn) ← readFull header.payloadLength conn
  let frame ← codec.decode (header.toBytes ++ payload)
  return ({ codec, clientHello := helloFrameFromDict codec.platform frame.2,
            profile := options.handshakeProfile }, conn)

namespace NcpServerConnection

variable (c : NcpServerConnection T)

def reject (errFrame : ErrorFrame T) : Bytes :=
  match c.codec.encode .error errFrame.toDict encodingTierJSON true with
  | .ok wire => wire
  | .error _ => []

def tierOfEncoding (token : GoString) : EncodingTier :=
  if token = "msgpack" then encodingTierMsgPack else encodingTierJSON

/-- The caps of the server with the negotiated parameters written over them. -/
def negotiatedCaps (serverCaps : NcpHandshakeCapsFrame T) (p : NcpHandshakeAcceptance) :
    NcpHandshakeCapsFrame T :=
  { serverCaps with
    negotiatedEncoding := some p.negotiatedEncoding
    enabledEncodings := some p.enabledEncodings
    sessionVersion := some p.sessionVersion
    supportedProtocols := some p.supportedProtocols
    maxFramePayload := some p.maxFramePayload
    extSupport := some p.extSupport
    maxConcurrentStreams := some p.maxConcurrentStreams }

def negotiatedPolicy (p : NcpHandshakeAcceptance) : NcpEncodingPolicy :=
  { defaultTier := tierOfEncoding p.negotiatedEncoding
    binaryVectorEnabled := decide (binaryVectorToken ∈ p.enabledEncodings) }

/-- The bytes written to the client, and the session. -/
def accept (serverCaps : NcpHandshakeCapsFrame T) : Bytes × Except GoError (NcpSession T) :=
  match negotiateHandshake c.profile c.clientHello with
  | .errorClose status errCode =>
    let errFrame : ErrorFrame T :=
      { errorCode := errCode, message := "Native NCP handshake negotiation failed."
        detail := .ofMap (GoMap.ofList [("status", .string status)]) }
    (c.reject errFrame,
      .error (.frame ("[" ++ errCode ++ "] Native NCP handshake negotiation failed.")))
  | .accept p =>
    let caps := negotiatedCaps serverCaps p
    let policy := negotiatedPolicy p
    match c.codec.encode .caps caps.toDict policy.defaultTier true with
    | .error e => ([], .error e)
    | .ok wire => (wire, .ok { codec := c.codec, serverCaps := caps, encodingPolicy := policy })

end NcpServerConnection

/-! ### Client -/

variable (codec : NpsFrameCodec T) (hello : HelloFrame)

def handshakeRequest : Except GoError Bytes := do
  let helloWire ← codec.encode .hello hello.toDict encodingTierJSON true
  return preambleBytes ++ helloWire

def errHandshakeUnexpectedFrame : GoString := "NCP-HANDSHAKE-UNEXPECTED-FRAME"

/-- The session a client makes of the caps it was answered. -/
def clientSession (header : FrameHeader) (dict : FrameDict T) : NcpSession T :=
  let caps := ncpHandshakeCapsFrameFromDict codec.platform dict
  { codec, serverCaps := caps,
    encodingPolicy := ncpEncodingPolicyFromEnabledEncodings header.encodingTier caps.enabledEncodings }

def handshakeAnswer (header : FrameHeader) (payload : Bytes) : Except GoError (NcpSession T) :=
  let wire := header.toBytes ++ payload
  if header.frameType = .error then
    match codec.decode wire with
    | .error e => .error e
    | .ok (_, dict) =>
      let errFrame := errorFrameFromDict dict
      .error (.handshake errFrame.errorCode errFrame.message)
  else if header.frameType ≠ .caps then
    .error (.handshake errHandshakeUnexpectedFrame
      ("Expected CapsFrame (" ++ hexByte FrameType.caps.code ++ "), got " ++
        hexByte header.frameType.code ++ "."))
  else (codec.decode wire).map fun frame => clientSession codec header frame.2

def handshake (conn : Conn) : Except GoError (NcpSession T × Conn) := do
  let _ ← handshakeRequest codec hello
  let (frame, conn) ← readFrame conn
  let session ← handshakeAnswer codec frame.1 frame.2
  return (session, conn)

/-! ### What was negotiated -/

variable {p : NcpHandshakeAcceptance} {serverCaps : NcpHandshakeCapsFrame T} {s : NcpSession T}
  {c : NcpServerConnection T} {codec : NpsFrameCodec T}

theorem negotiateHandshake_accept {server : NcpHandshakeProfile} {client : HelloFrame}
    (h : negotiateHandshake server client = .accept p) :
    (p.negotiatedEncoding = "msgpack" ∨ p.negotiatedEncoding = "json") ∧
      p.maxFramePayload = min client.maxFramePayload server.maxFramePayload ∧
      p.extSupport = (client.extSupport && server.extSupport) := by
  rw [negotiateHandshake] at h
  split at h
  · cases h
  split at h
  · cases h
  rename_i stable hstable
  dsimp only at h
  split_ifs at h
  · cases h
  cases h
  refine ⟨?_, rfl, rfl⟩
  have hfound := List.find?_some hstable
  simp only [Bool.and_eq_true, Bool.or_eq_true, decide_eq_true_eq] at hfound
  exact hfound.1

theorem NcpServerConnection.accept_ok {wire : Bytes} (h : c.accept serverCaps = (wire, .ok s)) :
    ∃ p, negotiateHandshake c.profile c.clientHello = .accept p ∧
      c.codec.encode .caps (negotiatedCaps serverCaps p).toDict (negotiatedPolicy p).defaultTier true = .ok wire ∧
      s = { codec := c.codec, serverCaps := negotiatedCaps serverCaps p,
            encodingPolicy := negotiatedPolicy p } := by
  rw [accept] at h
  split at h
  · cases h
  rename_i p hp
  dsimp only at h
  split at h
  · cases h
  rename_i wire' hwire
  cases h
  exact ⟨p, hp, hwire, rfl⟩

theorem NcpServerConnection.accept_of_encode {wire : Bytes}
    (hp : negotiateHandshake c.profile c.clientHello = .accept p)
    (hencode : c.codec.encode .caps (negotiatedCaps serverCaps p).toDict
      (negotiatedPolicy p).defaultTier true = .ok wire) :
    c.accept serverCaps = (wire, .ok ⟨c.codec, negotiatedCaps serverCaps p, negotiatedPolicy p⟩) := by
  rw [accept, hp]
  dsimp only
  rw [hencode]

/-! ### Limits -/

structure WithinLimits (m : UInt64) (e : Bool) (header : FrameHeader) : Prop where
  length : header.payloadLength ≤ m.toNat
  ext : header.isExtended = true → e = true

/-- What the session writes, and what it goes on to allocate a payload for, keeps to the limits in its
caps. -/
structure EnforcesLimits (s : NcpSession T) : Prop where
  sends : ∀ m e, s.serverCaps.maxFramePayload = some m → s.serverCaps.extSupport = some e →
    ∀ frame tier isFinal wire header, s.send frame tier isFinal = .ok wire →
      parseFrameHeader wire = .ok header → WithinLimits m e header
  receives : ∀ m e, s.serverCaps.maxFramePayload = some m → s.serverCaps.extSupport = some e →
    ∀ conn header rest, s.receiveHeader conn = .ok (header, rest) → WithinLimits m e header

/-- The limits hold back no frame that a header can announce. -/
structure Unlimited (profile : NcpHandshakeProfile) (hello : HelloFrame) : Prop where
  profile_payload : 2 ^ 32 - 1 ≤ profile.maxFramePayload.toNat
  hello_payload : 2 ^ 32 - 1 ≤ hello.maxFramePayload.toNat
  profile_ext : profile.extSupport = true
  hello_ext : hello.extSupport = true

def longestHeader (tier : EncodingTier) : FrameHeader := newFrameHeader .anchor tier true (2 ^ 32 - 1)

theorem receiveHeader_longest (s : NcpSession T) (htier : s.encodingPolicy.defaultTier = encodingTierJSON ∨
      s.encodingPolicy.defaultTier = encodingTierMsgPack) (rest : Conn) : s.receiveHeader
        (Stream.prepend (longestHeader s.encodingPolicy.defaultTier).toBytes rest) =
      .ok (longestHeader s.encodingPolicy.defaultTier, rest) := by
  have hwell : (longestHeader s.encodingPolicy.defaultTier).WellFormed :=
    wellFormed_newFrameHeader _ _ _ (by decide)
  have hsame : (longestHeader s.encodingPolicy.defaultTier).encodingTier = s.encodingPolicy.defaultTier := by
    rw [longestHeader, encodingTier_newFrameHeader]
    rcases htier with h | h
    · rw [h]
      decide
    · rw [h]
      decide
  refine s.receiveHeader_ok_iff.mpr ⟨readFrameHeader_ok_iff.mpr ⟨_, headerBytes_toBytes hwell, rfl⟩, ?_⟩
  rw [NcpEncodingPolicy.ensureAllows, NcpEncodingPolicy.allows, hsame, decide_eq_true rfl, Bool.true_or, if_pos rfl]

theorem withinLimits_of_parse {raw : Bytes} {header : FrameHeader} (h : parseFrameHeader raw = .ok header)
    {m : UInt64} (hm : 2 ^ 32 - 1 ≤ m.toNat) : WithinLimits m true header := by
  refine ⟨?_, fun _ => rfl⟩
  have hlt := (parseFrameHeader_ok h).1.length_lt
  split_ifs at hlt <;> omega

theorem le_toNat_min_iff (n : Nat) (a b : UInt64) : n ≤ (min a b).toNat ↔ n ≤ a.toNat ∧ n ≤ b.toNat := by
  change n ≤ (if a ≤ b then a else b).toNat ↔ _
  split_ifs with h
  · rw [UInt64.le_iff_toNat_le] at h
    omega
  · rw [UInt64.le_iff_toNat_le] at h
    omega

/-- A session holds to its limits exactly if they hold back no frame at all. -/
theorem limits_enforced_iff (c : NcpServerConnection T) (serverCaps : NcpHandshakeCapsFrame T)
    (wire : Bytes) (s : NcpSession T) (haccept : c.accept serverCaps = (wire, .ok s)) :
    EnforcesLimits s ↔ Unlimited c.profile c.clientHello := by
  obtain ⟨p, hp, -, rfl⟩ := NcpServerConnection.accept_ok haccept
  obtain ⟨hencoding, hpayload, hext⟩ := negotiateHandshake_accept hp
  constructor
  · intro henforces
    have htier : NcpServerConnection.tierOfEncoding p.negotiatedEncoding = encodingTierJSON ∨
        NcpServerConnection.tierOfEncoding p.negotiatedEncoding = encodingTierMsgPack := by
      rcases hencoding with h | h
      · exact .inr (by rw [h]; rfl)
      · exact .inl (by rw [h]; rfl)
    have hreceived := receiveHeader_longest
      ⟨c.codec, NcpServerConnection.negotiatedCaps serverCaps p, NcpServerConnection.negotiatedPolicy p⟩
      htier ⟨[], .eof⟩
    obtain ⟨hlength, hextended⟩ := henforces.receives _ _ rfl rfl _ _ _ hreceived
    have he := hextended rfl
    have hm : 2 ^ 32 - 1 ≤ p.maxFramePayload.toNat := hlength
    rw [hpayload, le_toNat_min_iff] at hm
    rw [hext, Bool.and_eq_true] at he
    exact ⟨hm.2, hm.1, he.2, he.1⟩
  · rintro ⟨hprofile, hhello, hprofileExt, hhelloExt⟩
    have hm : 2 ^ 32 - 1 ≤ p.maxFramePayload.toNat := by
      rw [hpayload, le_toNat_min_iff]
      exact ⟨hhello, hprofile⟩
    have he : p.extSupport = true := by rw [hext, hprofileExt, hhelloExt, Bool.and_self]
    constructor
    · rintro m e hcapsPayload hcapsExt frame tier isFinal wire' header - hparse
      cases hcapsPayload
      cases hcapsExt
      rw [he]
      exact withinLimits_of_parse hparse hm
    · rintro m e hcapsPayload hcapsExt conn header rest hreceive
      cases hcapsPayload
      cases hcapsExt
      rw [he]
      obtain ⟨hread, -⟩ := (NcpSession.receiveHeader_ok_iff _).mp hreceive
      obtain ⟨raw, hraw, -⟩ := readFrameHeader_ok_iff.mp hread
      exact withinLimits_of_parse hraw.1 hm

/-! ### What the client takes -/

theorem handshakeAnswer_ok_iff {header : FrameHeader} {payload : Bytes} : handshakeAnswer codec header payload = .ok s ↔
      header.frameType = .caps ∧ ∃ frame, codec.decode (header.toBytes ++ payload) = .ok frame ∧
        s = clientSession codec header frame.2 := by
  rw [handshakeAnswer]
  dsimp only
  split_ifs with herror hcaps
  · rw [herror]
    constructor
    · intro h
      split at h <;> cases h
    · rintro ⟨h, -⟩
      cases h
  · constructor
    · intro h
      cases h
    · rintro ⟨h, -⟩
      exact absurd h hcaps
  · cases codec.decode (header.toBytes ++ payload) with
    | error e =>
      constructor
      · intro h
        cases h
      · rintro ⟨-, frame, hframe, -⟩
        cases hframe
    | ok frame =>
      constructor
      · intro h
        cases h
        exact ⟨not_not.mp hcaps, frame, rfl, rfl⟩
      · rintro ⟨-, frame', hframe, rfl⟩
        cases hframe
        rfl

/-- The client ends with a session exactly if its hello can be sent and the answer is a caps frame that
its codec decodes. -/
theorem handshake_ok_iff {hello : HelloFrame} {conn rest : Conn} : handshake codec hello conn = .ok (s, rest) ↔
      ∃ request header payload frame, handshakeRequest codec hello = .ok request ∧
        readFrame conn = .ok ((header, payload), rest) ∧ header.frameType = .caps ∧
        codec.decode (header.toBytes ++ payload) = .ok frame ∧ s = clientSession codec header frame.2 := by
  constructor
  · intro h
    obtain ⟨request, hrequest, hanswer⟩ := bind_eq_ok_iff.mp h
    obtain ⟨⟨⟨header, payload⟩, conn'⟩, hread, hsession⟩ := bind_eq_ok_iff.mp hanswer
    obtain ⟨s', hs', hdone⟩ := bind_eq_ok_iff.mp hsession
    cases hdone
    obtain ⟨hcaps, frame, hframe, rfl⟩ := handshakeAnswer_ok_iff.mp hs'
    exact ⟨request, header, payload, frame, hrequest, hread, hcaps, hframe, rfl⟩
  · rintro ⟨request, header, payload, frame, hrequest, hread, hcaps, hframe, rfl⟩
    exact bind_eq_ok_iff.mpr ⟨request, hrequest, bind_eq_ok_iff.mpr ⟨_, hread,
      bind_eq_ok_iff.mpr ⟨_, handshakeAnswer_ok_iff.mpr ⟨hcaps, frame, hframe, rfl⟩, rfl⟩⟩⟩

def OfferedVersion (text : GoString) : Prop :=
  ∃ lowest version highest, parseProtocolVersion (hello.minVersion.getD hello.npsVersion) = some lowest ∧
    parseProtocolVersion text = some version ∧ parseProtocolVersion hello.npsVersion = some highest ∧
    lowest.compare version ≤ 0 ∧ version.compare highest ≤ 0

def OfferedTier (tier : EncodingTier) : Prop :=
  (tier = encodingTierJSON ∧ ("json" : GoString) ∈ hello.supportedEncodings.getD []) ∨
    (tier = encodingTierMsgPack ∧ ("msgpack" : GoString) ∈ hello.supportedEncodings.getD [])

/-- The session has nothing the client did not offer. -/
structure OfferedBy (hello : HelloFrame) (s : NcpSession T) : Prop where
  tier : OfferedTier hello s.encodingPolicy.defaultTier
  vectors : s.encodingPolicy.binaryVectorEnabled = true →
    binaryVectorToken ∈ hello.supportedEncodings.getD []
  version : ∀ text, s.serverCaps.sessionVersion = some text → OfferedVersion hello text
  payload : ∀ n, s.serverCaps.maxFramePayload = some n →
    n ≤ orDefault hello.maxFramePayload helloDefaultMaxFramePayload
  streams : ∀ n, s.serverCaps.maxConcurrentStreams = some n →
    n ≤ orDefault hello.maxConcurrentStreams helloDefaultMaxConcurrentStreams
  ext : s.serverCaps.extSupport = some true → hello.extSupport = true

/-- An honest answer: its header has a tier the client offered, and so have the entries of its payload. -/
structure HonestCaps (P : Platform T) (hello : HelloFrame) (header : FrameHeader) (d : FrameDict T) : Prop where
  tier : OfferedTier hello header.encodingTier
  enabledEncodings : binaryVectorToken ∈ (presentStrings d "enabled_encodings").getD [] →
    binaryVectorToken ∈ hello.supportedEncodings.getD []
  sessionVersion : ∀ text, GoDict.optStr d "session_version" = some text → OfferedVersion hello text
  maxFramePayload : ∀ n, optUint64Ptr P d "max_frame_payload" = some n →
    n ≤ orDefault hello.maxFramePayload helloDefaultMaxFramePayload
  maxConcurrentStreams : ∀ n, optUint64Ptr P d "max_concurrent_streams" = some n →
    n ≤ orDefault hello.maxConcurrentStreams helloDefaultMaxConcurrentStreams
  extSupport : GoDict.optBool d "ext_support" = some true → hello.extSupport = true

theorem offeredBy_clientSession_iff {hello : HelloFrame} {header : FrameHeader} {d : FrameDict T} :
    OfferedBy hello (clientSession codec header d) ↔ HonestCaps codec.platform hello header d :=
  ⟨fun h => ⟨h.tier, fun hmem => h.vectors (decide_eq_true hmem), h.version, h.payload, h.streams, h.ext⟩,
    fun h => ⟨h.tier, fun henabled => h.enabledEncodings (of_decide_eq_true henabled), h.sessionVersion,
      h.maxFramePayload, h.maxConcurrentStreams, h.extSupport⟩⟩

def strayVersionCaps : JsonValue JsonNumber := .object [("session_version", .string "x")]

def strayVersionPayload : Bytes :=
  GoString.bytes (GoString.ofChars (JsonValue.marshal jsonNumber strayVersionCaps))

def strayVersionAnswer : Conn :=
  Stream.prepend ((newFrameHeader .caps encodingTierJSON true strayVersionPayload.length).toBytes ++
    strayVersionPayload) ⟨[], .eof⟩

theorem jsonUnmarshal_strayVersion (P : Platform T) :
    jsonUnmarshal P strayVersionPayload = .ok (GoMap.ofList [("session_version", .string "x")]) := by
  have hread := JsonValue.unmarshal_marshal jsonNumber strayVersionCaps (by decide)
  rw [jsonUnmarshal, strayVersionPayload, GoString.ofBytes_bytes, hread]
  rfl

/-- The answer makes a session of that version with every client that can send its hello and decode caps. -/
theorem handshake_strayVersion {hello : HelloFrame} {request : Bytes}
    (hrequest : handshakeRequest codec hello = .ok request) (hregistered : codec.registry.isRegistered .caps = true) :
    ∃ s rest, handshake codec hello strayVersionAnswer = .ok (s, rest) ∧
      s.encodingPolicy.defaultTier = encodingTierJSON ∧ s.serverCaps.sessionVersion = some ("x" : GoString) := by
  have hwell := wellFormed_newFrameHeader .caps encodingTierJSON true
    (show strayVersionPayload.length < 2 ^ 32 by decide)
  have hread : readFrame strayVersionAnswer = .ok ((_, strayVersionPayload), ⟨[], .eof⟩) :=
    readFrame_ok_iff.mpr ⟨_, headerBytes_toBytes hwell, rfl, rfl⟩
  have hdecode := codec.decode_rebuilt hwell rfl
  have htype : (newFrameHeader .caps encodingTierJSON true strayVersionPayload.length).frameType = .caps :=
    rfl
  rw [htype, hregistered, if_pos rfl] at hdecode
  have hpayload : codec.decodePayload strayVersionPayload encodingTierJSON =
      .ok (GoMap.ofList [("session_version", .string "x")]) := by
    change (jsonUnmarshal codec.platform strayVersionPayload).mapError GoError.codec = _
    rw [jsonUnmarshal_strayVersion]
    rfl
  have htier : (newFrameHeader .caps encodingTierJSON true strayVersionPayload.length).encodingTier =
      encodingTierJSON := rfl
  rw [htier, hpayload] at hdecode
  have hversion : GoDict.optStr (GoMap.ofList [("session_version", (.string "x" : GoAny T))])
      "session_version" = some ("x" : GoString) := by
    rw [GoDict.optStr, GoDict.get, GoMap.ofList, List.foldl_cons, List.foldl_nil, GoMap.getElem?_insert, if_pos rfl]
    rfl
  exact ⟨_, _, handshake_ok_iff.mpr ⟨request, _, _, _, hrequest, hread, rfl, hdecode, rfl⟩, rfl, hversion⟩

/-- A client is safe from what a server sends exactly if that is no caps frame it can read, as an error frame is none,
or an honest one. -/
theorem downgrade_safe_iff (conn : Conn) :
    (∀ s rest, handshake codec hello conn = .ok (s, rest) → OfferedBy hello s) ↔
      ∀ request header payload rest frame, handshakeRequest codec hello = .ok request →
        readFrame conn = .ok ((header, payload), rest) → header.frameType = .caps →
        codec.decode (header.toBytes ++ payload) = .ok frame →
          HonestCaps codec.platform hello header frame.2 := by
  constructor
  · intro hsafe request header payload rest frame hrequest hread hcaps hframe
    rw [← offeredBy_clientSession_iff]
    exact hsafe _ rest (handshake_ok_iff.mpr ⟨request, header, payload, frame, hrequest, hread, hcaps, hframe, rfl⟩)
  · intro hhonest s rest hs
    obtain ⟨request, header, payload, frame, hrequest, hread, hcaps, hframe, rfl⟩ := handshake_ok_iff.mp hs
    exact offeredBy_clientSession_iff.mpr (hhonest request header payload rest frame hrequest hread hcaps hframe)

end Handshake

def jsonHello : HelloFrame :=
  { npsVersion := "0.11", supportedEncodings := some ["json"], supportedProtocols := some ["ncp"]
    minVersion := none, agentID := none, maxFramePayload := helloDefaultMaxFramePayload
    extSupport := false, maxConcurrentStreams := helloDefaultMaxConcurrentStreams
    e2eEncAlgorithms := none, pingIntervalMs := 0 }

noncomputable def jsonServer : NcpServerConnection Empty :=
  { codec := jsonSession.codec, clientHello := jsonHello, profile := defaultNcpHandshakeProfile }

noncomputable def openServer : NcpServerConnection Empty :=
  { codec := jsonSession.codec
    clientHello := { jsonHello with maxFramePayload := 0xFFFFFFFF, extSupport := true }
    profile := { defaultNcpHandshakeProfile with maxFramePayload := 0xFFFFFFFF, extSupport := true } }

set_option maxRecDepth 1000 in
theorem openServer_enforces : ∃ wire s, openServer.accept silentCaps = (wire, .ok s) ∧ EnforcesLimits s :=
  ⟨_, _, rfl, (limits_enforced_iff openServer silentCaps _ _ rfl).mpr
    ⟨by decide, by decide, rfl, rfl⟩⟩

set_option maxRecDepth 1000 in
/-- A session of frames up to 65535 bytes without extended headers goes on to read an extended frame of
65536 bytes. -/
theorem long_frame_allocated : ∃ wire s header rest, jsonServer.accept silentCaps = (wire, .ok s) ∧
      s.serverCaps.maxFramePayload = some 65535 ∧ s.serverCaps.extSupport = some false ∧
      s.receiveHeader ⟨[0x01, 0x84, 0x00, 0x00, 0x00, 0x01, 0x00, 0x00], .eof⟩ = .ok (header, rest) ∧
      header.payloadLength = 65536 ∧ header.isExtended = true :=
  ⟨_, _, _, _, rfl, rfl, rfl, rfl, rfl, rfl⟩

set_option maxRecDepth 1000 in
/-- A client that offers only MessagePack takes an answer in JSON for a session in JSON, of a version that
is none. -/
theorem downgrade_taken :
    ∃ s rest, handshake jsonSession.codec { jsonHello with supportedEncodings := some ["msgpack"] }
        strayVersionAnswer = .ok (s, rest) ∧
      s.encodingPolicy.defaultTier = encodingTierJSON ∧
      s.serverCaps.sessionVersion = some ("x" : GoString) ∧ parseProtocolVersion "x" = none := by
  have hrequest : ∃ request, handshakeRequest jsonSession.codec
      { jsonHello with supportedEncodings := some ["msgpack"] } = .ok request := ⟨_, rfl⟩
  obtain ⟨request, hrequest⟩ := hrequest
  obtain ⟨s, rest, hs, htier, hversion⟩ := handshake_strayVersion hrequest rfl
  exact ⟨s, rest, hs, htier, hversion, rfl⟩

end NpsSdk.Ncp
