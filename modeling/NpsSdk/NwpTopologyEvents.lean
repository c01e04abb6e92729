import NpsSdk.GoEncoding

/-! The events of a topology stream that tell of its anchor. An event names its kind and carries the part that
belongs to the kind; raw JSON members are kept as the text they are. -/

open NpsSdk.Core

namespace NpsSdk.Nwp

structure AnchorStateEvent where
  field : GoString
  details : Option GoString
  deriving DecidableEq

/-- The state of the anchor is a pointer, which may be nil; the members of a topology are left out. -/
structure TopologyEvent where
  kind : GoString
  version : UInt64
  anchorState : Option AnchorStateEvent := none
  deriving DecidableEq

def eventAnchorState : GoString := "anchor_state"

def anchorStateFieldAnchorFailover : GoString := "anchor_failover"
def anchorStateFieldAnchorQuorumLost : GoString := "anchor_quorum_lost"

def anchorFailoverReasonPlanned : GoString := "planned"
def anchorFailoverReasonActiveLost : GoString := "active_lost"

/-- `json.Marshal` of a map, whose members it writes in the order of their names. -/
def marshalMap (fields : List (String × JsonValue JsonNumber)) : GoString :=
  GoString.ofChars (JsonValue.marshal jsonNumber (.ofMap (.ofList fields)))

def newAnchorFailoverEvent (successorNid : GoString) (clusterEpoch : UInt64) (reason : GoString)
    (version : UInt64) : TopologyEvent where
  kind := eventAnchorState
  version := version
  anchorState := some {
    field := anchorStateFieldAnchorFailover
    details := some (marshalMap [
      ("successor_nid", .string successorNid),
      ("cluster_epoch", .number (intNumber clusterEpoch.toNat)),
      ("reason", .string reason)]) }

def newAnchorQuorumLostEvent (quorumSize available : UInt32) (version : UInt64) : TopologyEvent where
  kind := eventAnchorState
  version := version
  anchorState := some {
    field := anchorStateFieldAnchorQuorumLost
    details := some (marshalMap [
      ("quorum_size", .number (intNumber quorumSize.toNat)),
      ("available", .number (intNumber available.toNat))]) }

def newAnchorQuorumLostEventDefaults (quorumSize available : UInt32) : TopologyEvent :=
  newAnchorQuorumLostEvent quorumSize available 0

end NpsSdk.Nwp
