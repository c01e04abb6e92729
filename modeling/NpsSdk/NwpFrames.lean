import NpsSdk.CoreCodec

/-! The frames of the access protocol. Members that are absent, or not of a type their reader names, are
nil. -/

open NpsSdk.Core

namespace NpsSdk.Nwp

open GoDict

section

variable {T : Type} (P : Platform T) (d : FrameDict T)

/-- A member of another type is taken for absent. -/
def optUint64 (key : String) : Option UInt64 :=
  match get d key with
  | .int .int64 n => some (UInt64.ofInt n.1)
  | .int .uint64 n => some (UInt64.ofInt n.1)
  | .float64 x => some (P.uint64OfFloat x)
  | _ => none

def optUint32 (key : String) : Option UInt32 :=
  match d[key]? with
  | some (.float64 x) => some (P.uint32OfFloat x)
  | some (.int .uint32 n) => some (UInt32.ofInt n.1)
  | _ => none

structure SubscribeFrame (T : Type) where
  subscriptionID : GoString
  filter : GoAny T
  heartbeatIntervalMs : Option UInt32
  maxEvents : Option UInt32
  cursor : Option GoString

def SubscribeFrame.toDict (f : SubscribeFrame T) : FrameDict T :=
  let d := GoMap.ofList [("subscription_id", .string f.subscriptionID)]
  let d := setIf d "filter" (nonNil f.filter)
  let d := setIf d "heartbeat_interval_ms" (f.heartbeatIntervalMs.map .uint32)
  let d := setIf d "max_events" (f.maxEvents.map .uint32)
  setIf d "cursor" (f.cursor.map .string)

def subscribeFrameFromDict : SubscribeFrame T :=
  { subscriptionID := str d "subscription_id"
    filter := get d "filter"
    heartbeatIntervalMs := optUint32 P d "heartbeat_interval_ms"
    maxEvents := optUint32 P d "max_events"
    cursor := optStr d "cursor" }

structure QueryFrame (T : Type) where
  anchorRef : GoString
  filter : GoAny T
  order : GoAny T
  fields : Option (List GoString)
  vectorSearch : GoAny T
  cursor : Option GoString
  tokenBudget : Option UInt64
  tokenizer : Option GoString
  requestID : Option GoString
  autoAnchor : Option Bool
  stream : Option Bool
  aggregate : GoAny T
  limit : Option UInt64
  offset : Option UInt64
  depth : Option UInt64

def QueryFrame.toDict (f : QueryFrame T) : FrameDict T :=
  let d := GoMap.ofList [("anchor_ref", .string f.anchorRef)]
  let d := setIf d "filter" (nonNil f.filter)
  let d := setIf d "order" (nonNil f.order)
  let d := setIf d "fields" (f.fields.map .strings)
  let d := setIf d "vector_search" (nonNil f.vectorSearch)
  let d := setIf d "cursor" (f.cursor.map .string)
  let d := setIf d "token_budget" (f.tokenBudget.map .uint64)
  let d := setIf d "tokenizer" (f.tokenizer.map .string)
  let d := setIf d "request_id" (f.requestID.map .string)
  let d := setIf d "auto_anchor" (f.autoAnchor.map .bool)
  let d := setIf d "stream" (f.stream.map .bool)
  let d := setIf d "aggregate" (nonNil f.aggregate)
  let d := setIf d "limit" (f.limit.map .uint64)
  let d := setIf d "offset" (f.offset.map .uint64)
  setIf d "depth" (f.depth.map .uint64)

/-- The other name of the member is read if the first is nil. -/
def orderValue : GoAny T :=
  match get d "order" with
  | .nil => get d "order_by"
  | v => v

def queryFrameFromDict : QueryFrame T :=
  { anchorRef := str d "anchor_ref"
    filter := get d "filter"
    order := orderValue d
    fields := (get d "fields").stringSlice
    vectorSearch := get d "vector_search"
    cursor := optStr d "cursor"
    tokenBudget := optUint64 P d "token_budget"
    tokenizer := optStr d "tokenizer"
    requestID := optStr d "request_id"
    autoAnchor := optBool d "auto_anchor"
    stream := optBool d "stream"
    aggregate := get d "aggregate"
    limit := optUint64 P d "limit"
    offset := optUint64 P d "offset"
    depth := optUint64 P d "depth" }

structure ActionFrame (T : Type) where
  action : GoString
  params : GoAny T
  anchorRef : Option GoString
  async : Bool
  idempotencyKey : Option GoString
  timeoutMs : Option UInt32
  requestID : Option GoString

/-- The action is written under both of its names. -/
def ActionFrame.toDict (f : ActionFrame T) : FrameDict T :=
  let d := GoMap.ofList [("action_id", .string f.action), ("action", .string f.action),
    ("async", .bool f.async)]
  let d := setIf d "params" (nonNil f.params)
  let d := setIf d "anchor_ref" (f.anchorRef.map .string)
  let d := setIf d "request_id" (f.requestID.map .string)
  let d := setIf d "idempotency_key" (f.idempotencyKey.map .string)
  setIf d "timeout_ms" (f.timeoutMs.map .uint32)

def actionFrameFromDict : ActionFrame T :=
  let action := str d "action_id"
  { action := if action = [] then str d "action" else action
    params := get d "params"
    anchorRef := optStr d "anchor_ref"
    async := (optBool d "async").getD false
    idempotencyKey := optStr d "idempotency_key"
    timeoutMs := optUint32 P d "timeout_ms"
    requestID := optStr d "request_id" }

end

end NpsSdk.Nwp
