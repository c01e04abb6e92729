import NpsSdk.CoreBinaryVector

/-! The frames of the discovery protocol that hold numbers. The nodes and edges of a topology are slices of
structs, Go types that only the encoders look into; what they are read from is a map for each. -/

open NpsSdk.Core

namespace NpsSdk.Ndp

open GoDict

section

variable {T : Type} (P : Platform T)

def toUint64 : GoAny T → UInt64
  | .int .int64 n => UInt64.ofInt n.1
  | .int .uint64 n => UInt64.ofInt n.1
  | .float64 x => P.uint64OfFloat x
  | .int .int n => UInt64.ofInt n.1
  | .number text => (parseUint text).getD 0
  | _ => 0

/-- `item.(map[string]any)`, which may be a nil map. -/
def mapItem : GoAny T → Option (Option (GoDict T))
  | .map fields => some (some (GoMap.ofList fields))
  | .nilOf .map => some none
  | _ => none

def toSliceMap : GoAny T → Option (List (Option (GoDict T)))
  | .slice items => some (items.filterMap mapItem)
  | .nilOf .slice => some []
  | _ => none

variable (d : FrameDict T)

def getAlias (key former : String) : GoAny T :=
  match get d key with
  | .nil => get d former
  | v => v

/-- A number that is there unless it is absent or nil. -/
def presentUint64 (key : String) : Option UInt64 :=
  match get d key with
  | .nil => none
  | v => some (toUint64 P v)

/-! ### Announcements -/

structure AnnounceFrame (T : Type) where
  nid : GoString
  addresses : Option (List (Option (GoDict T)))
  caps : Option (List GoString)
  ttl : UInt64
  timestamp : GoString
  signature : GoString
  nodeType : Option GoString
  nodeRoles : Option (List GoString)
  clusterAnchor : GoString
  spawnSpecRef : GoString
  bridgeProtocols : Option (List GoString)
  bridgeInboundProtocols : Option (List GoString)
  activationMode : GoString
  activationEndpoint : Option (GoDict T)
  heartbeatIntervalMs : UInt64
  clusterEpoch : Option UInt64
  health : GoString
  lastSeen : GoString
  graphSeq : Option UInt64

def nonEmpty (s : GoString) : Option (GoAny T) := if s = [] then none else some (.string s)

def nonEmptyStrings (items : Option (List GoString)) : Option (GoAny T) :=
  if items.getD [] = [] then none else some (.ofStrings items)

def sortedDict : FrameDict T := GoMap.ofList d.toList

@[simp]
theorem sortedDict_eq : sortedDict d = d := GoMap.ofList_toList d

namespace AnnounceFrame

/-- The members that are written only where they are set, which both dictionaries of a frame have. -/
def setOptional (f : AnnounceFrame T) (d : FrameDict T) : FrameDict T :=
  let d := setIf d "node_type" (f.nodeType.map .string)
  let d := setIf d "node_roles" (nonEmptyStrings f.nodeRoles)
  let d := setIf d "cluster_anchor" (nonEmpty f.clusterAnchor)
  let d := setIf d "spawn_spec_ref" (nonEmpty f.spawnSpecRef)
  let d := setIf d "bridge_protocols" (nonEmptyStrings f.bridgeProtocols)
  let d := setIf d "bridge_inbound_protocols" (nonEmptyStrings f.bridgeInboundProtocols)
  let d := setIf d "activation_mode" (nonEmpty f.activationMode)
  let d := setIf d "activation_endpoint" (f.activationEndpoint.map .ofMap)
  let d := setIf d "cluster_epoch" (f.clusterEpoch.map .uint64)
  setIf d "graph_seq" (f.graphSeq.map .uint64)

def unsignedDict (f : AnnounceFrame T) : FrameDict T :=
  sortedDict (f.setOptional (GoMap.ofList [("nid", .string f.nid), ("addresses", .ofDicts f.addresses),
    ("capabilities", .ofStrings f.caps), ("ttl", .uint64 f.ttl), ("timestamp", .string f.timestamp),
    ("heartbeat_interval_ms", .uint64 f.heartbeatIntervalMs)]))

def toDict (f : AnnounceFrame T) : FrameDict T :=
  let d := f.unsignedDict.insert "signature" (.string f.signature)
  let d := (f.setOptional d).insert "heartbeat_interval_ms" (.uint64 f.heartbeatIntervalMs)
  let d := setIf d "health" (nonEmpty f.health)
  setIf d "last_seen" (nonEmpty f.lastSeen)

end AnnounceFrame

def announceFrameFromDict (d : FrameDict T) : AnnounceFrame T :=
  let ttl := toUint64 P (get d "ttl")
  { nid := str d "nid"
    addresses := toSliceMap (get d "addresses")
    caps := (getAlias d "capabilities" "caps").stringSlice
    -- a time to live of zero, which asks for removal, is replaced too
    ttl := if ttl = 0 then 300 else ttl
    timestamp := str d "timestamp"
    signature := str d "signature"
    nodeType := optStr d "node_type"
    nodeRoles := (getAlias d "node_roles" "node_kind").stringSlice
    clusterAnchor := str d "cluster_anchor"
    spawnSpecRef := str d "spawn_spec_ref"
    bridgeProtocols := (get d "bridge_protocols").stringSlice
    bridgeInboundProtocols := (get d "bridge_inbound_protocols").stringSlice
    activationMode := str d "activation_mode"
    activationEndpoint := (get d "activation_endpoint").toMap
    heartbeatIntervalMs := (d["heartbeat_interval_ms"]?.map (toUint64 P)).getD 60000
    clusterEpoch := presentUint64 P d "cluster_epoch"
    health := str d "health"
    lastSeen := str d "last_seen"
    graphSeq := presentUint64 P d "graph_seq" }

/-! ### Topologies -/

structure GraphNode where
  nid : GoString
  clusterAnchor : GoString
  nodeRoles : Option (List GoString)

structure NdpGraphEdge where
  fromNID : GoString
  toNID : GoString
  latencyMs : Option Int64
  protocol : GoString

structure GraphFrame (T : Type) where
  graphID : GoString
  nodes : Option (List GraphNode)
  edges : Option (List NdpGraphEdge)
  ttl : Int64
  metadata : Option (GoDict T)

/-- The slices of structs are values of the two given Go types. -/
def GraphFrame.toDict (ofNodes : Option (List GraphNode) → T) (ofEdges : Option (List NdpGraphEdge) → T)
    (f : GraphFrame T) : FrameDict T :=
  let d := GoMap.ofList [("graph_id", .string f.graphID), ("nodes", .other (ofNodes f.nodes)),
    ("edges", .other (ofEdges f.edges)), ("ttl", goInt f.ttl.toInt)]
  setIf d "metadata" (f.metadata.map .ofMap)

def graphNodeFromMap (m : GoDict T) : GraphNode :=
  { nid := str m "nid"
    clusterAnchor := str m "cluster_anchor"
    nodeRoles := (get m "node_roles").stringSlice }

def intValue : GoAny T → Option Int64
  | .float64 x => some (P.int64OfFloat x)
  | .int .int n => some (Int64.ofInt n.1)
  | .int .int64 n => some (Int64.ofInt n.1)
  | _ => none

def ndpGraphEdgeFromMap (m : GoDict T) : NdpGraphEdge :=
  { fromNID := str m "from_nid"
    toNID := str m "to_nid"
    protocol := str m "protocol"
    latencyMs := intValue P (get m "latency_ms") }

/-- The maps among the items of a slice, read one by one into a nil slice. -/
def readItems {α : Type} (read : GoDict T → α) : GoAny T → Option (List α)
  | .slice items =>
    let read := (items.filterMap GoAny.asMap).map read
    if read.isEmpty then none else some read
  | _ => none

def graphFrameFromDict (d : FrameDict T) : GraphFrame T :=
  { graphID := str d "graph_id"
    nodes := readItems graphNodeFromMap (get d "nodes")
    edges := readItems (ndpGraphEdgeFromMap P) (get d "edges")
    ttl := (intValue P (get d "ttl")).getD 0
    metadata := (get d "metadata").toMap }

end

end NpsSdk.Ndp
