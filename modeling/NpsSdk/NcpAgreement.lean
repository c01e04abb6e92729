import NpsSdk.CoreCarriage
import NpsSdk.NcpHandshake

/-! Both ends of a handshake. The server negotiates with the hello as it came over the wire, where limits of zero have
become defaults; the client reads the outcome out of the caps it is answered. -/

open NpsSdk.Core

namespace NpsSdk.Ncp

open GoDict List GoString
open NcpServerConnection

section Agreement

variable {T : Type} (P : Platform T) (M : MsgPack T)

/-- A hello as the server receives it: texts as JSON carries them, and defaults for limits of zero. -/
def HelloFrame.received (f : HelloFrame) : HelloFrame :=
  let text := carriedText encodingTierJSON
  { npsVersion := text f.npsVersion
    supportedEncodings := f.supportedEncodings.map (·.map text)
    supportedProtocols := f.supportedProtocols.map (·.map text)
    minVersion := f.minVersion.map text
    agentID := f.agentID.map text
    maxFramePayload := orDefault f.maxFramePayload helloDefaultMaxFramePayload
    extSupport := f.extSupport
    maxConcurrentStreams := orDefault f.maxConcurrentStreams helloDefaultMaxConcurrentStreams
    e2eEncAlgorithms := f.e2eEncAlgorithms.map (·.map text)
    pingIntervalMs := f.pingIntervalMs }

/-- The members of a hello that negotiation reads. -/
theorem HelloFrame.getElem?_toDict (f : HelloFrame) : let d : FrameDict T := f.toDict
    d["nps_version"]? = some (.string f.npsVersion) ∧
    d["supported_encodings"]? = some (.ofStrings f.supportedEncodings) ∧
    d["supported_protocols"]? = some (.ofStrings f.supportedProtocols) ∧
    d["min_version"]? = f.minVersion.map .string ∧
    d["max_frame_payload"]? =
      some (.uint64 (orDefault f.maxFramePayload helloDefaultMaxFramePayload)) ∧
    d["ext_support"]? = some (.bool f.extSupport) ∧
    d["max_concurrent_streams"]? =
      some (.uint64 (orDefault f.maxConcurrentStreams helloDefaultMaxConcurrentStreams)) := by
  simp only [HelloFrame.toDict, getElem?_setIf, GoMap.ofList, foldl_cons, foldl_nil,
    GoMap.getElem?_insert, String.reduceEq, if_true, if_false, Std.ExtTreeMap.getElem?_empty,
    Option.or_none, and_self]

theorem NcpHandshakeCapsFrame.getElem?_toDict (f : NcpHandshakeCapsFrame T) :
    f.toDict["enabled_encodings"]? = f.enabledEncodings.map .strings ∧
    f.toDict["session_version"]? = f.sessionVersion.map .string ∧
    f.toDict["supported_protocols"]? = f.supportedProtocols.map .strings ∧
    f.toDict["max_frame_payload"]? = f.maxFramePayload.map .uint64 ∧
    f.toDict["ext_support"]? = f.extSupport.map .bool ∧
    f.toDict["max_concurrent_streams"]? = f.maxConcurrentStreams.map .uint64 := by
  simp [NcpHandshakeCapsFrame.toDict, getElem?_setIf, GoMap.ofList]

variable {P M}

theorem toUint64_carried {d d' : FrameDict T} {tier : EncodingTier} (h : CarriedDict P M tier d d')
    {key : String} {n : UInt64} (hn : n.toNat < 2 ^ 53) (hkey : d[key]? = some (.uint64 n)) :
    ∃ v, d'[key]? = some v ∧ toUint64 P v = n := by
  refine ⟨_, h.uint64 hkey, ?_⟩
  split_ifs
  · exact P.uint64OfFloat_ofInt hn
  · exact ofInt_toNat n

/-! ### The server's end -/

theorem negotiateHandshake_congr (server : NcpHandshakeProfile) {client client' : HelloFrame}
    (hversion : client.npsVersion = client'.npsVersion) (hmin : client.minVersion = client'.minVersion)
    (hencodings : client.supportedEncodings = client'.supportedEncodings)
    (hprotocols : client.supportedProtocols = client'.supportedProtocols)
    (hpayload : client.maxFramePayload = client'.maxFramePayload) (hext : client.extSupport = client'.extSupport)
    (hstreams : client.maxConcurrentStreams = client'.maxConcurrentStreams) :
    negotiateHandshake server client = negotiateHandshake server client' := by
  cases client
  subst hversion hmin hencodings hprotocols hpayload hext hstreams
  rfl

theorem orDefault_lt {n default : UInt64} (hn : n.toNat < 2 ^ 53) (hdefault : default.toNat < 2 ^ 53) :
    (orDefault n default).toNat < 2 ^ 53 := by
  rw [orDefault]
  split_ifs
  · exact hdefault
  · exact hn

theorem orDefault_orDefault {n default : UInt64} : orDefault (orDefault n default) default = orDefault n default := by
  unfold orDefault
  split_ifs <;> rfl

/-- The limits of a hello are exact as `float64`. -/
structure HelloFrame.SmallLimits (f : HelloFrame) : Prop where
  payload : f.maxFramePayload.toNat < 2 ^ 53
  streams : f.maxConcurrentStreams.toNat < 2 ^ 53

variable {d : FrameDict T} {client : HelloFrame} {server : NcpHandshakeProfile} {p : NcpHandshakeAcceptance}

theorem negotiate_received (server : NcpHandshakeProfile) {hello : HelloFrame} (hsmall : hello.SmallLimits)
    (h : CarriedDict P M encodingTierJSON hello.toDict d) :
    negotiateHandshake server (helloFrameFromDict P d) = negotiateHandshake server hello.received := by
  obtain ⟨hversion, hencodings, hprotocols, hmin, hpayload, hext, hstreams⟩ :=
    HelloFrame.getElem?_toDict (T := T) hello
  obtain ⟨encodings, hencodings', hencodingsRead⟩ := h.stringSlice hencodings
  obtain ⟨protocols, hprotocols', hprotocolsRead⟩ := h.stringSlice hprotocols
  obtain ⟨payload, hpayload', hpayloadRead⟩ :=
    toUint64_carried h (orDefault_lt hsmall.payload (by decide)) hpayload
  obtain ⟨streams, hstreams', hstreamsRead⟩ :=
    toUint64_carried h (orDefault_lt hsmall.streams (by decide)) hstreams
  apply negotiateHandshake_congr
  · change str d "nps_version" = _
    rw [str, h.optStr (s := some hello.npsVersion) hversion]
    rfl
  · exact h.optStr hmin
  · change (GoDict.get d "supported_encodings").stringSlice = _
    rw [GoDict.get, hencodings']
    exact hencodingsRead
  · change (GoDict.get d "supported_protocols").stringSlice = _
    rw [GoDict.get, hprotocols']
    exact hprotocolsRead
  · change orDefault (toUint64 P (GoDict.get d "max_frame_payload")) _ = _
    rw [GoDict.get, hpayload', Option.getD_some, hpayloadRead]
    exact orDefault_orDefault
  · change (optBool d "ext_support").getD false = _
    rw [optBool, GoDict.get, h.bool hext]
    rfl
  · change orDefault (toUint64 P (GoDict.get d "max_concurrent_streams")) _ = _
    rw [GoDict.get, hstreams', Option.getD_some, hstreamsRead]
    exact orDefault_orDefault

/-! ### The client's end -/

theorem valid_natText (n : Nat) : GoString.Valid (natText n) := valid_ofChars _

theorem valid_append {s s' : GoString} (h : GoString.Valid s) (h' : GoString.Valid s') : GoString.Valid (s ++ s') := by
  intro r hr
  rcases mem_append.mp hr with hr | hr
  · exact h r hr
  · exact h' r hr

theorem mem_of_mem_commonProtocols {token : GoString} (h : token ∈ commonProtocols server client) :
    token ∈ client.supportedProtocols.getD [] := by
  have hfold : ∀ (tokens seen : List GoString), token ∈ tokens.foldl (fun seen token =>
      if token ∈ server.supportedProtocols ∧ token ∉ seen then seen ++ [token] else seen) seen →
      token ∈ seen ∨ token ∈ tokens := by
    intro tokens
    induction tokens with
    | nil => exact fun seen hseen => .inl hseen
    | cons first tokens ih =>
      intro seen hmem
      rw [foldl_cons] at hmem
      rcases ih _ hmem with hseen | htokens
      · split_ifs at hseen
        · rcases mem_append.mp hseen with hold | hnew
          · exact .inl hold
          · rw [mem_singleton.mp hnew]
            exact .inr mem_cons_self
        · exact .inl hseen
      · exact .inr (mem_cons_of_mem _ htokens)
  rcases hfold _ _ h with hnil | hmem
  · cases hnil
  · exact hmem

/-- What is agreed on is text, and its limits are no larger than the client's. -/
structure Plain (client : HelloFrame) (p : NcpHandshakeAcceptance) : Prop where
  version : GoString.Valid p.sessionVersion
  encodings : ∀ token ∈ p.enabledEncodings, GoString.Valid token
  protocols : ∀ token ∈ p.supportedProtocols, GoString.Valid token
  payload : p.maxFramePayload.toNat ≤ client.maxFramePayload.toNat
  streams : p.maxConcurrentStreams.toNat ≤ client.maxConcurrentStreams.toNat

theorem plain_of_accept (hprotocols : ∀ token ∈ client.supportedProtocols.getD [], GoString.Valid token)
    (h : negotiateHandshake server client = .accept p) : Plain client p := by
  have hencoding := (negotiateHandshake_accept h).1
  rw [negotiateHandshake] at h
  split at h
  · cases h
  split at h
  · cases h
  rename_i stable _
  dsimp only at h
  split_ifs at h
  · cases h
  cases h
  have hstable : GoString.Valid stable := by
    rcases hencoding with rfl | rfl
    · exact valid_ofChars _
    · exact valid_ofChars _
  refine ⟨valid_append (valid_append (valid_natText _) (valid_ofChars _)) (valid_natText _),
    fun token htoken => ?_, fun token htoken => hprotocols token (mem_of_mem_commonProtocols htoken),
    ((le_toNat_min_iff _ _ _).mp (Nat.le_refl _)).1, ((le_toNat_min_iff _ _ _).mp (Nat.le_refl _)).1⟩
  rw [enabledTokens] at htoken
  split_ifs at htoken
  · rcases mem_cons.mp htoken with rfl | htoken
    · exact hstable
    · rw [mem_singleton.mp htoken]
      exact valid_ofChars _
  · rw [mem_singleton.mp htoken]
    exact hstable

theorem map_carriedText {items : List GoString} (h : ∀ token ∈ items, GoString.Valid token)
    (tier : EncodingTier) : items.map (carriedText tier) = items := by
  rw [map_congr_left fun token htoken => carriedText_of_valid (h token htoken) tier, map_id']

/-- What the two ends of a session have to agree on. -/
structure SessionParameters where
  policy : NcpEncodingPolicy
  version : Option GoString
  protocols : Option (List GoString)
  maxFramePayload : Option UInt64
  extSupport : Option Bool
  maxConcurrentStreams : Option UInt64

def NcpSession.parameters (s : NcpSession T) : SessionParameters :=
  { policy := s.encodingPolicy
    version := s.serverCaps.sessionVersion
    protocols := s.serverCaps.supportedProtocols
    maxFramePayload := s.serverCaps.maxFramePayload
    extSupport := s.serverCaps.extSupport
    maxConcurrentStreams := s.serverCaps.maxConcurrentStreams }

def NcpHandshakeAcceptance.parameters (p : NcpHandshakeAcceptance) : SessionParameters :=
  { policy := negotiatedPolicy p
    version := some p.sessionVersion
    protocols := some p.supportedProtocols
    maxFramePayload := some p.maxFramePayload
    extSupport := some p.extSupport
    maxConcurrentStreams := some p.maxConcurrentStreams }

/-- The client reads the outcome out of the caps as it was negotiated. -/
theorem parameters_clientSession {codec : NpsFrameCodec T} (hplatform : codec.platform = P)
    (hplain : Plain client p) (hsmall : client.SmallLimits) {serverCaps : NcpHandshakeCapsFrame T}
    {header : FrameHeader} (htier : header.encodingTier = (negotiatedPolicy p).defaultTier)
    (h : CarriedDict P M header.encodingTier (negotiatedCaps serverCaps p).toDict d) :
    (clientSession codec header d).parameters = p.parameters := by
  subst hplatform
  obtain ⟨hencodings, hversion, hprotocols, hpayload, hext, hstreams⟩ :=
    NcpHandshakeCapsFrame.getElem?_toDict (negotiatedCaps serverCaps p)
  obtain ⟨payload, hpayload', hpayloadRead⟩ :=
    toUint64_carried h (hplain.payload.trans_lt hsmall.payload) hpayload
  obtain ⟨streams, hstreams', hstreamsRead⟩ :=
    toUint64_carried h (hplain.streams.trans_lt hsmall.streams) hstreams
  have hencodingsRead : presentStrings d "enabled_encodings" = some p.enabledEncodings :=
    (h.strings hencodings).trans (congrArg some (map_carriedText hplain.encodings _))
  have hprotocolsRead : presentStrings d "supported_protocols" = some p.supportedProtocols :=
    (h.strings hprotocols).trans (congrArg some (map_carriedText hplain.protocols _))
  have hversionRead : optStr d "session_version" = some p.sessionVersion :=
    (h.optStr hversion).trans (congrArg some (carriedText_of_valid hplain.version _))
  have hextRead : optBool d "ext_support" = some p.extSupport := by
    rw [optBool, GoDict.get, h.bool hext]
    rfl
  have hpayloadPtr : optUint64Ptr codec.platform d "max_frame_payload" = some p.maxFramePayload := by
    rw [optUint64Ptr, hpayload', Option.map_some, hpayloadRead]
  have hstreamsPtr : optUint64Ptr codec.platform d "max_concurrent_streams" = some p.maxConcurrentStreams := by
    rw [optUint64Ptr, hstreams', Option.map_some, hstreamsRead]
  simp only [clientSession, ncpHandshakeCapsFrameFromDict, hencodingsRead,
    hprotocolsRead, hversionRead, hextRead, hpayloadPtr, hstreamsPtr, htier]
  rfl

/-! ### Both ends -/

/-- What the frames of a handshake carry is what was encoded. -/
theorem carried_of_decode {reg reg' : FrameRegistry} {ft : FrameType} {tier : EncodingTier} {isFinal : Bool}
    {wire payload : Bytes} {conn rest : Conn} {header : FrameHeader} {frame : FrameType × FrameDict T}
    (htier : StableTier tier) (hencode : (newNpsFrameCodec P M reg).encode ft d tier isFinal = .ok wire)
    (hread : readFrame (Stream.prepend wire conn) = .ok ((header, payload), rest))
    (hdecode : (newNpsFrameCodec P M reg').decode (header.toBytes ++ payload) = .ok frame) :
    header.encodingTier = tier ∧ CarriedDict P M tier d frame.2 := by
  obtain ⟨payload', -, hlt, hwire⟩ := newNpsFrameCodec_encode_ok hencode
  have hread' : readFrame (Stream.prepend wire conn) =
      .ok ((newFrameHeader ft tier isFinal payload'.length, payload'), conn) := by
    rw [hwire]
    exact readFrame_ok_iff.mpr ⟨_, headerBytes_toBytes (wellFormed_newFrameHeader ft tier isFinal hlt), rfl, rfl⟩
  rw [hread'] at hread
  cases hread
  exact ⟨htier.encodingTier_newFrameHeader ft isFinal _, carriedDict_of_decode htier hencode (hwire ▸ hdecode)⟩

/-- The server has read the client's request, and taken its hello for what came over the wire. -/
theorem serverHandshake_request {reg reg' : FrameRegistry} {options : NcpServerOptions}
    {hello : HelloFrame} {request : Bytes} {conn rest : Conn} {c : NcpServerConnection T}
    (hrequest : handshakeRequest (newNpsFrameCodec P M reg) hello = .ok request)
    (hserver : serverHandshake (newNpsFrameCodec P M reg') options (Stream.prepend request conn) = .ok (c, rest)) :
    ∃ d, CarriedDict P M encodingTierJSON hello.toDict d ∧
      c = { codec := newNpsFrameCodec P M reg', clientHello := helloFrameFromDict P d,
            profile := options.handshakeProfile } := by
  obtain ⟨helloWire, hencode, hdone⟩ := bind_eq_ok_iff.mp hrequest
  cases hdone
  obtain ⟨⟨preamble, conn₁⟩, hpreamble, hserver⟩ := bind_eq_ok_iff.mp hserver
  obtain ⟨⟨⟩, -, hserver⟩ := bind_eq_ok_iff.mp hserver
  obtain ⟨⟨header, conn₂⟩, hheader, hserver⟩ := bind_eq_ok_iff.mp hserver
  obtain ⟨⟨⟩, -, hserver⟩ := bind_eq_ok_iff.mp hserver
  obtain ⟨⟨payload, conn₃⟩, hpayload, hserver⟩ := bind_eq_ok_iff.mp hserver
  obtain ⟨frame, hframe, hserver⟩ := bind_eq_ok_iff.mp hserver
  cases hserver
  cases hpreamble
  have hread : readFrame (Stream.prepend helloWire conn) = .ok ((header, payload), rest) :=
    bind_eq_ok_iff.mpr ⟨_, hheader, bind_eq_ok_iff.mpr ⟨_, hpayload, rfl⟩⟩
  exact ⟨frame.2, (carried_of_decode (.inl rfl) hencode hread hframe).2, rfl⟩

theorem received_protocols_valid (hello : HelloFrame) :
    ∀ token ∈ hello.received.supportedProtocols.getD [], GoString.Valid token := by
  intro token htoken
  rw [HelloFrame.received] at htoken
  cases hprotocols : hello.supportedProtocols with
  | none =>
    rw [hprotocols] at htoken
    cases htoken
  | some =>
    rw [hprotocols] at htoken
    obtain ⟨raw, -, rfl⟩ := mem_map.mp htoken
    exact valid_ofChars _

/-- When both ends of a handshake have a session, the sessions have the same parameters, and they are those
negotiated with the hello as the server receives it. -/
theorem sessions_agree (reg reg' : FrameRegistry) (options : NcpServerOptions) (hello : HelloFrame)
    (serverCaps : NcpHandshakeCapsFrame T) (request wire : Bytes) (conn conn' rest rest' : Conn)
    (c : NcpServerConnection T) (s s' : NcpSession T) (hsmall : hello.SmallLimits)
    (hrequest : handshakeRequest (newNpsFrameCodec P M reg) hello = .ok request)
    (hserver : serverHandshake (newNpsFrameCodec P M reg') options (Stream.prepend request conn) = .ok (c, rest))
    (haccept : c.accept serverCaps = (wire, .ok s))
    (hclient : handshake (newNpsFrameCodec P M reg) hello (Stream.prepend wire conn') = .ok (s', rest')) :
    ∃ p, negotiateHandshake options.handshakeProfile hello.received = .accept p ∧
      s.parameters = p.parameters ∧ s'.parameters = p.parameters := by
  obtain ⟨d, hd, rfl⟩ := serverHandshake_request hrequest hserver
  obtain ⟨p, hp, hcaps, rfl⟩ := accept_ok haccept
  rw [negotiate_received _ hsmall hd] at hp
  refine ⟨p, hp, rfl, ?_⟩
  obtain ⟨_, header, payload, frame, -, hread, -, hframe, rfl⟩ := handshake_ok_iff.mp hclient
  have hplain := plain_of_accept (received_protocols_valid hello) hp
  have hreceived : hello.received.SmallLimits :=
    ⟨orDefault_lt hsmall.payload (by decide), orDefault_lt hsmall.streams (by decide)⟩
  have hstable : StableTier (negotiatedPolicy p).defaultTier := by
    rcases (negotiateHandshake_accept hp).1 with h | h
    · exact .inr (by rw [negotiatedPolicy, h]; rfl)
    · exact .inl (by rw [negotiatedPolicy, h]; rfl)
  obtain ⟨htier, hcarried⟩ := carried_of_decode hstable hcaps hread hframe
  exact parameters_clientSession rfl hplain hreceived htier (htier ▸ hcarried)

end Agreement

/-! ### A handshake in JSON -/

/-- A dictionary with its JSON document, which is not nested too deep to be read. -/
structure JsonSent (d : FrameDict Empty) where
  document : JsonValue JsonNumber
  toJson_eq : toJson plainPlatform (.ofMap d) = some document
  depth_le : document.depth ≤ JsonValue.maxNestingDepth

theorem JsonSent.decodes {d : FrameDict Empty} (hsent : JsonSent d) {ft : FrameType} (hft : ft ≠ .nop)
    {wire : Bytes} (hencode : jsonSession.codec.encode ft d encodingTierJSON true = .ok wire) (conn : Conn) :
    ∃ payload frame, jsonMarshal plainPlatform d = .ok payload ∧ readFrame (Stream.prepend wire conn) =
        .ok ((newFrameHeader ft encodingTierJSON true payload.length, payload), conn) ∧ jsonSession.codec.decode
        ((newFrameHeader ft encodingTierJSON true payload.length).toBytes ++ payload) = .ok frame := by
  obtain ⟨payload, hpayload, hlt, rfl⟩ := newNpsFrameCodec_encode_ok hencode
  have hwell := wellFormed_newFrameHeader ft encodingTierJSON true hlt
  have hmarshal : jsonMarshal plainPlatform d = .ok payload := hpayload
  obtain ⟨d', hd'⟩ := exists_jsonUnmarshal_plain hsent.toJson_eq hsent.depth_le hmarshal
  refine ⟨payload, (ft, d'), hmarshal, readFrame_ok_iff.mpr ⟨_, headerBytes_toBytes hwell, rfl, rfl⟩, ?_⟩
  have hregistered : FrameRegistry.isRegistered jsonSession.codec.registry ft = true := by
    change FrameRegistry.isRegistered createFullRegistry ft = true
    rw [isRegistered_createFullRegistry, decide_eq_true hft]
  have htype : (newFrameHeader ft encodingTierJSON true payload.length).frameType = ft := rfl
  have htier : (newFrameHeader ft encodingTierJSON true payload.length).encodingTier = encodingTierJSON := by
    rw [encodingTier_newFrameHeader]
    decide
  rw [NpsFrameCodec.decode_rebuilt _ hwell rfl, htype, hregistered, htier]
  change ((jsonUnmarshal plainPlatform payload).mapError GoError.codec).map _ = _
  rw [hd']
  rfl

variable {hello : HelloFrame} {request : Bytes}

/-- The server takes a hello that is short enough. -/
theorem serverHandshake_completes (hsent : JsonSent hello.toDict)
    (hrequest : handshakeRequest jsonSession.codec hello = .ok request)
    (hshort : ∀ payload, jsonMarshal plainPlatform hello.toDict = .ok payload → payload.length ≤ 65535)
    (profile : NcpHandshakeProfile) (conn : Conn) :
    ∃ c, serverHandshake jsonSession.codec ⟨helloDefaultMaxFramePayload, profile⟩
      (Stream.prepend request conn) = .ok (c, conn) := by
  obtain ⟨helloWire, hencode, hdone⟩ := bind_eq_ok_iff.mp hrequest
  cases hdone
  obtain ⟨payload, frame, hmarshal, hread, hframe⟩ := hsent.decodes (by decide) hencode conn
  obtain ⟨⟨header, conn₁⟩, hheader, hread⟩ := bind_eq_ok_iff.mp hread
  obtain ⟨⟨payload', conn₂⟩, hpayload, hdone⟩ := bind_eq_ok_iff.mp hread
  cases hdone
  have hsplit : readFull preambleLength (Stream.prepend (preambleBytes ++ helloWire) conn) =
      .ok (preambleBytes, Stream.prepend helloWire conn) :=
    readFull_ok_iff.mpr ⟨by decide, Stream.prepend_append _ _ _⟩
  have hlength := hshort payload hmarshal
  have hext : decide (payload.length > 0xFFFF) = false := decide_eq_false (by omega)
  have htier : (newFrameHeader .hello encodingTierJSON true payload.length).encodingTier = encodingTierJSON := by
    rw [encodingTier_newFrameHeader]
    decide
  have hflags : (newFrameHeader .hello encodingTierJSON true payload.length).flags &&& 0x08 = 0 := by
    simp only [newFrameHeader, hext]
    decide
  have hadmitted : evaluateHelloHeader (newFrameHeader .hello encodingTierJSON true payload.length)
      helloDefaultMaxFramePayload = .ok () := by
    refine if_neg ?_
    rintro (h | h | h | h | h)
    · exact h rfl
    · exact h htier
    · exact h hflags
    · exact absurd h (Bool.eq_false_iff.mp hext)
    · exact absurd h (Nat.not_lt.mpr hlength)
  exact ⟨_, bind_eq_ok_iff.mpr ⟨_, hsplit, bind_eq_ok_iff.mpr ⟨(), rfl, bind_eq_ok_iff.mpr ⟨_, hheader,
    bind_eq_ok_iff.mpr ⟨(), hadmitted, bind_eq_ok_iff.mpr ⟨_, hpayload,
      bind_eq_ok_iff.mpr ⟨frame, hframe, rfl⟩⟩⟩⟩⟩⟩⟩

/-- The client takes the caps it is answered in JSON. -/
theorem handshake_completes (hrequest : handshakeRequest jsonSession.codec hello = .ok request)
    {d : FrameDict Empty} (hsent : JsonSent d) {wire : Bytes}
    (hencode : jsonSession.codec.encode .caps d encodingTierJSON true = .ok wire) (conn : Conn) :
    ∃ s, handshake jsonSession.codec hello (Stream.prepend wire conn) = .ok (s, conn) := by
  obtain ⟨payload, frame, -, hread, hframe⟩ := hsent.decodes (by decide) hencode conn
  exact ⟨_, handshake_ok_iff.mpr ⟨request, _, payload, frame, hrequest, hread, rfl, hframe, rfl⟩⟩

def jsonAcceptance : NcpHandshakeAcceptance :=
  { sessionVersion := "0.11", negotiatedEncoding := "json", enabledEncodings := ["json"]
    supportedProtocols := ["ncp"], maxFramePayload := helloDefaultMaxFramePayload
    extSupport := false, maxConcurrentStreams := helloDefaultMaxConcurrentStreams }

def jsonCaps_sent : JsonSent (negotiatedCaps silentCaps jsonAcceptance).toDict :=
  ⟨_, rfl, by decide⟩

set_option maxRecDepth 1000 in
theorem jsonCaps_encoded : ∃ wire, jsonSession.codec.encode .caps
    (negotiatedCaps silentCaps jsonAcceptance).toDict encodingTierJSON true = .ok wire := ⟨_, rfl⟩

theorem both_ends_complete (hsent : JsonSent hello.toDict)
    (hrequest : handshakeRequest jsonSession.codec hello = .ok request)
    (hshort : ∀ payload, jsonMarshal plainPlatform hello.toDict = .ok payload → payload.length ≤ 65535)
    (hsmall : hello.SmallLimits)
    (hp : negotiateHandshake defaultNcpHandshakeProfile hello.received = .accept jsonAcceptance) :
    ∃ wire c s s', serverHandshake jsonSession.codec ⟨helloDefaultMaxFramePayload, defaultNcpHandshakeProfile⟩
        (Stream.prepend request ⟨[], .eof⟩) = .ok (c, ⟨[], .eof⟩) ∧ c.accept silentCaps = (wire, .ok s) ∧
      s.serverCaps = negotiatedCaps silentCaps jsonAcceptance ∧
      handshake jsonSession.codec hello (Stream.prepend wire ⟨[], .eof⟩) = .ok (s', ⟨[], .eof⟩) := by
  obtain ⟨c, hserver⟩ := serverHandshake_completes hsent hrequest hshort defaultNcpHandshakeProfile ⟨[], .eof⟩
  obtain ⟨d, hd, rfl⟩ := serverHandshake_request hrequest hserver
  obtain ⟨wire, hwire⟩ := jsonCaps_encoded
  obtain ⟨s', hs'⟩ := handshake_completes hrequest jsonCaps_sent hwire ⟨[], .eof⟩
  rw [← negotiate_received defaultNcpHandshakeProfile hsmall hd] at hp
  exact ⟨wire, _, _, s', hserver, accept_of_encode hp hwire, rfl, hs'⟩

def jsonHello_sent : JsonSent jsonHello.toDict := ⟨_, rfl, by decide⟩

def zeroHello : HelloFrame := { jsonHello with maxFramePayload := 0 }

def zeroHello_sent : JsonSent zeroHello.toDict := ⟨_, rfl, by decide⟩

set_option maxRecDepth 1000 in
theorem jsonHello_short : (∃ request, handshakeRequest jsonSession.codec jsonHello = .ok request) ∧
    ∀ payload, jsonMarshal plainPlatform jsonHello.toDict = .ok payload → payload.length ≤ 65535 := by
  refine ⟨⟨_, rfl⟩, fun payload hpayload => ?_⟩
  cases hpayload
  decide

set_option maxRecDepth 1000 in
theorem zeroHello_short : (∃ request, handshakeRequest jsonSession.codec zeroHello = .ok request) ∧
    ∀ payload, jsonMarshal plainPlatform zeroHello.toDict = .ok payload → payload.length ≤ 65535 := by
  refine ⟨⟨_, rfl⟩, fun payload hpayload => ?_⟩
  cases hpayload
  decide

theorem jsonHello_agrees : ∃ request wire c s s', handshakeRequest jsonSession.codec jsonHello = .ok request ∧
    serverHandshake jsonSession.codec ⟨helloDefaultMaxFramePayload, defaultNcpHandshakeProfile⟩
      (Stream.prepend request ⟨[], .eof⟩) = .ok (c, ⟨[], .eof⟩) ∧ c.accept silentCaps = (wire, .ok s) ∧
    handshake jsonSession.codec jsonHello (Stream.prepend wire ⟨[], .eof⟩) = .ok (s', ⟨[], .eof⟩) ∧
    s.parameters = s'.parameters := by
  obtain ⟨⟨request, hrequest⟩, hshort⟩ := jsonHello_short
  have hsmall : jsonHello.SmallLimits := ⟨by decide, by decide⟩
  obtain ⟨wire, c, s, s', hserver, haccept, -, hclient⟩ :=
    both_ends_complete jsonHello_sent hrequest hshort hsmall rfl
  obtain ⟨p, -, hs, hs'⟩ := sessions_agree _ _ _ jsonHello silentCaps request wire _ _ _ _ c s s' hsmall
    hrequest hserver haccept hclient
  exact ⟨request, wire, c, s, s', hrequest, hserver, haccept, hclient, hs.trans hs'.symm⟩

/-- With a limit of zero in the hello both ends have a session with the default limit, where negotiation
with that very hello is refused. -/
theorem zeroHello_defaulted : ∃ request wire c s s', handshakeRequest jsonSession.codec zeroHello = .ok request ∧
    serverHandshake jsonSession.codec ⟨helloDefaultMaxFramePayload, defaultNcpHandshakeProfile⟩
      (Stream.prepend request ⟨[], .eof⟩) = .ok (c, ⟨[], .eof⟩) ∧ c.accept silentCaps = (wire, .ok s) ∧
    handshake jsonSession.codec zeroHello (Stream.prepend wire ⟨[], .eof⟩) = .ok (s', ⟨[], .eof⟩) ∧
    s.serverCaps.maxFramePayload = some helloDefaultMaxFramePayload ∧
    negotiateHandshake defaultNcpHandshakeProfile zeroHello = ncpVersionError := by
  obtain ⟨⟨request, hrequest⟩, hshort⟩ := zeroHello_short
  obtain ⟨wire, c, s, s', hserver, haccept, hcaps, hclient⟩ :=
    both_ends_complete zeroHello_sent hrequest hshort ⟨by decide, by decide⟩ rfl
  refine ⟨request, wire, c, s, s', hrequest, hserver, haccept, hclient, ?_, rfl⟩
  rw [hcaps]
  rfl

end NpsSdk.Ncp
