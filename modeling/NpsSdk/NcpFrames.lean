import NpsSdk.CoreCodec

/-! The frames of the control protocol and the dictionaries they travel as. A pointer or a slice that may
be nil is an option; a value of type `any` is nil where the source has nil. -/

open NpsSdk.Core

namespace NpsSdk.Ncp

open GoDict

/-- A frame as the codec takes it. -/
structure Frame (T : Type) where
  frameType : FrameType
  toDict : FrameDict T

section

variable {T : Type} (P : Platform T)

/-- What is not a number of these types is read as zero. -/
def toUint64 : GoAny T → UInt64
  | .int .int64 n => UInt64.ofInt n.1
  | .int .uint64 n => UInt64.ofInt n.1
  | .float64 x => P.uint64OfFloat x
  | .int .int n => UInt64.ofInt n.1
  | _ => 0

variable (d : FrameDict T)

def optUint64Ptr (key : String) : Option UInt64 := d[key]?.map (toUint64 P)

/-- A member that is read as a list of strings if it is there at all. -/
def presentStrings (key : String) : Option (List GoString) :=
  d[key]?.bind GoAny.stringSlice

/-- A single value is taken for a list of one. -/
def anySlice : GoAny T → Option (List (GoAny T))
  | .slice items => some items
  | .nilOf .slice => none
  | .nil => none
  | v => some [v]

/-- The capabilities of a caps frame: the strings of a slice are collected into a nil slice. -/
def capsStrings : GoAny T → Option (List GoString)
  | .strings items => some items
  | .slice items =>
    let names := items.filterMap GoAny.asString
    if names = [] then none else some names
  | _ => none

def ofSlice : Option (List (GoAny T)) → GoAny T
  | some items => .slice items
  | none => .nilOf .slice

/-! ### Frames of an established session -/

structure AnchorFrame (T : Type) where
  anchorID : GoString
  schema : Option (FrameDict T)
  namespace_ : Option GoString
  description : Option GoString
  nodeType : Option GoString
  ttl : UInt64

def AnchorFrame.toDict (f : AnchorFrame T) : FrameDict T :=
  let d := GoMap.ofList [("anchor_id", .string f.anchorID), ("schema", .ofDict f.schema),
    ("ttl", .uint64 f.ttl)]
  let d := setIf d "namespace" (f.namespace_.map .string)
  let d := setIf d "description" (f.description.map .string)
  setIf d "node_type" (f.nodeType.map .string)

/-- A lifetime of zero stands for an hour. -/
def anchorFrameFromDict : AnchorFrame T :=
  let ttl := toUint64 P (get d "ttl")
  { anchorID := str d "anchor_id"
    schema := (get d "schema").asMap
    ttl := if ttl = 0 then 3600 else ttl
    namespace_ := optStr d "namespace"
    description := optStr d "description"
    nodeType := optStr d "node_type" }

structure StreamFrame (T : Type) where
  anchorID : GoString
  seq : UInt64
  payload : GoAny T
  isLast : Bool

def StreamFrame.toDict (f : StreamFrame T) : FrameDict T :=
  GoMap.ofList [("anchor_id", .string f.anchorID), ("seq", .uint64 f.seq), ("payload", f.payload),
    ("is_last", .bool f.isLast)]

def streamFrameFromDict : StreamFrame T :=
  { anchorID := str d "anchor_id"
    seq := toUint64 P (get d "seq")
    payload := get d "payload"
    isLast := (optBool d "is_last").getD false }

structure CapsFrame (T : Type) where
  nodeID : GoString
  caps : Option (List GoString)
  anchorRef : Option GoString
  count : UInt64
  data : Option (List (GoAny T))
  nextCursor : Option GoString
  tokenEst : Option UInt64
  cached : Option Bool
  tokenizerUsed : Option GoString
  requestID : Option GoString
  payload : GoAny T

/-- Count and data are written together; a count of zero stands for the number of items. -/
def CapsFrame.toDict (f : CapsFrame T) : FrameDict T :=
  let d : FrameDict T := ∅
  let d := setIf d "node_id" (if f.nodeID = [] then none else some (.string f.nodeID))
  let d := setIf d "caps" (if f.caps.getD [] = [] then none else some (.ofStrings f.caps))
  let d := setIf d "anchor_ref" (f.anchorRef.map .string)
  let d := if f.data.isSome ∨ f.count ≠ 0 then
      (d.insert "count" (.uint64 (if f.count = 0 then .ofNat (f.data.getD []).length else f.count))).insert
        "data" (ofSlice f.data)
    else d
  let d := setIf d "next_cursor" (f.nextCursor.map .string)
  let d := setIf d "token_est" (f.tokenEst.map .uint64)
  let d := setIf d "cached" (f.cached.map .bool)
  let d := setIf d "tokenizer_used" (f.tokenizerUsed.map .string)
  let d := setIf d "request_id" (f.requestID.map .string)
  setIf d "payload" (nonNil f.payload)

def capsFrameFromDict : CapsFrame T :=
  { nodeID := str d "node_id"
    caps := capsStrings (get d "caps")
    anchorRef := optStr d "anchor_ref"
    count := toUint64 P (get d "count")
    data := anySlice (get d "data")
    nextCursor := optStr d "next_cursor"
    tokenEst := optUint64Ptr P d "token_est"
    cached := optBool d "cached"
    tokenizerUsed := optStr d "tokenizer_used"
    requestID := optStr d "request_id"
    payload := get d "payload" }

def nopFrame : Frame T := { frameType := .nop, toDict := ∅ }

/-! ### Frames of the handshake -/

structure HelloFrame where
  npsVersion : GoString
  supportedEncodings : Option (List GoString)
  supportedProtocols : Option (List GoString)
  minVersion : Option GoString
  agentID : Option GoString
  maxFramePayload : UInt64
  extSupport : Bool
  maxConcurrentStreams : UInt64
  e2eEncAlgorithms : Option (List GoString)
  pingIntervalMs : UInt64

def helloDefaultMaxFramePayload : UInt64 := 0xFFFF

def helloDefaultMaxConcurrentStreams : UInt64 := 32

def orDefault (n default : UInt64) : UInt64 := if n = 0 then default else n

def HelloFrame.toDict (f : HelloFrame) : FrameDict T :=
  let d := GoMap.ofList [("nps_version", .string f.npsVersion),
    ("supported_encodings", .ofStrings f.supportedEncodings),
    ("supported_protocols", .ofStrings f.supportedProtocols),
    ("max_frame_payload", .uint64 (orDefault f.maxFramePayload helloDefaultMaxFramePayload)),
    ("ext_support", .bool f.extSupport),
    ("max_concurrent_streams",
      .uint64 (orDefault f.maxConcurrentStreams helloDefaultMaxConcurrentStreams))]
  let d := setIf d "min_version" (f.minVersion.map .string)
  let d := setIf d "agent_id" (f.agentID.map .string)
  let d := setIf d "e2e_enc_algorithms" (f.e2eEncAlgorithms.map .strings)
  setIf d "ping_interval_ms" (if 0 < f.pingIntervalMs then some (.uint64 f.pingIntervalMs) else none)

def helloFrameFromDict : HelloFrame :=
  { npsVersion := str d "nps_version"
    supportedEncodings := (get d "supported_encodings").stringSlice
    supportedProtocols := (get d "supported_protocols").stringSlice
    minVersion := optStr d "min_version"
    agentID := optStr d "agent_id"
    extSupport := (optBool d "ext_support").getD false
    maxFramePayload := orDefault (toUint64 P (get d "max_frame_payload")) helloDefaultMaxFramePayload
    maxConcurrentStreams :=
      orDefault (toUint64 P (get d "max_concurrent_streams")) helloDefaultMaxConcurrentStreams
    e2eEncAlgorithms := presentStrings d "e2e_enc_algorithms"
    pingIntervalMs := toUint64 P (get d "ping_interval_ms") }

structure NcpHandshakeCapsFrame (T : Type) where
  nodeID : GoString
  caps : Option (List GoString)
  negotiatedEncoding : Option GoString
  enabledEncodings : Option (List GoString)
  sessionVersion : Option GoString
  supportedProtocols : Option (List GoString)
  maxFramePayload : Option UInt64
  extSupport : Option Bool
  maxConcurrentStreams : Option UInt64
  anchorRef : Option GoString
  payload : GoAny T

def NcpHandshakeCapsFrame.toDict (f : NcpHandshakeCapsFrame T) : FrameDict T :=
  let d := GoMap.ofList [("node_id", .string f.nodeID), ("caps", .ofStrings f.caps)]
  let d := setIf d "negotiated_encoding" (f.negotiatedEncoding.map .string)
  let d := setIf d "enabled_encodings" (f.enabledEncodings.map .strings)
  let d := setIf d "session_version" (f.sessionVersion.map .string)
  let d := setIf d "supported_protocols" (f.supportedProtocols.map .strings)
  let d := setIf d "max_frame_payload" (f.maxFramePayload.map .uint64)
  let d := setIf d "ext_support" (f.extSupport.map .bool)
  let d := setIf d "max_concurrent_streams" (f.maxConcurrentStreams.map .uint64)
  let d := setIf d "anchor_ref" (f.anchorRef.map .string)
  setIf d "payload" (nonNil f.payload)

def ncpHandshakeCapsFrameFromDict : NcpHandshakeCapsFrame T :=
  { nodeID := str d "node_id"
    caps := (get d "caps").stringSlice
    negotiatedEncoding := optStr d "negotiated_encoding"
    enabledEncodings := presentStrings d "enabled_encodings"
    sessionVersion := optStr d "session_version"
    supportedProtocols := presentStrings d "supported_protocols"
    maxFramePayload := optUint64Ptr P d "max_frame_payload"
    extSupport := optBool d "ext_support"
    maxConcurrentStreams := optUint64Ptr P d "max_concurrent_streams"
    anchorRef := optStr d "anchor_ref"
    payload := get d "payload" }

structure ErrorFrame (T : Type) where
  errorCode : GoString
  message : GoString
  detail : GoAny T

def ErrorFrame.toDict (f : ErrorFrame T) : FrameDict T :=
  setIf (GoMap.ofList [("error_code", .string f.errorCode), ("message", .string f.message)]) "detail"
    (nonNil f.detail)

def errorFrameFromDict : ErrorFrame T :=
  { errorCode := str d "error_code"
    message := str d "message"
    detail := get d "detail" }

end

end NpsSdk.Ncp
