import NpsSdk.CoreCodec

/-! The frames of the orchestration protocol that hold numbers. -/

open NpsSdk.Core

namespace NpsSdk.Nop

open GoDict

section

variable {T : Type} (P : Platform T)

/-- What is not a number of these types is read as zero. -/
def toUint64 : GoAny T → UInt64
  | .int .int64 n => UInt64.ofInt n.1
  | .int .uint64 n => UInt64.ofInt n.1
  | .float64 x => P.uint64OfFloat x
  | _ => 0

def toInt64 : GoAny T → Int64
  | .int .int64 n => Int64.ofInt n.1
  | .float64 x => P.int64OfFloat x
  | _ => 0

variable (d : FrameDict T)

/-- A member that is there is read even if it is no number. -/
def optUint64 (key : String) : Option UInt64 := d[key]?.map (toUint64 P)

def optInt64 (key : String) : Option Int64 := d[key]?.map (toInt64 P)

structure TaskFrame (T : Type) where
  taskID : GoString
  dag : GoAny T
  timeoutMs : Option UInt64
  callbackURL : Option GoString
  context : GoAny T
  priority : Option GoString
  depth : Option Int64
  compensationPolicy : GoString
  resultTtlSeconds : UInt64

def TaskFrame.toDict (f : TaskFrame T) : FrameDict T :=
  let d := GoMap.ofList [("task_id", .string f.taskID), ("dag", f.dag)]
  let d := setIf d "timeout_ms" (f.timeoutMs.map .uint64)
  let d := setIf d "callback_url" (f.callbackURL.map .string)
  let d := setIf d "context" (nonNil f.context)
  let d := setIf d "priority" (f.priority.map .string)
  let d := setIf d "depth" (f.depth.map .int64)
  let d := setIf d "compensation_policy"
    (if f.compensationPolicy = [] then none else some (.string f.compensationPolicy))
  d.insert "result_ttl_seconds" (.uint64 (if f.resultTtlSeconds = 0 then 3600 else f.resultTtlSeconds))

/-- A lifetime of zero stands for an hour. -/
def taskFrameFromDict : TaskFrame T :=
  let ttl := toUint64 P (get d "result_ttl_seconds")
  { taskID := str d "task_id"
    dag := get d "dag"
    timeoutMs := optUint64 P d "timeout_ms"
    callbackURL := optStr d "callback_url"
    context := get d "context"
    priority := optStr d "priority"
    depth := optInt64 P d "depth"
    compensationPolicy := str d "compensation_policy"
    resultTtlSeconds := if ttl = 0 then 3600 else ttl }

/-- A barrier: the subtasks it waits for, and how many of them are enough. -/
structure SyncFrame where
  taskID : GoString
  syncID : GoString
  subtaskIDs : Option (List GoString)
  minRequired : Int64
  aggregate : GoString
  timeoutMs : Option UInt64

def SyncFrame.toDict (f : SyncFrame) : FrameDict T :=
  let d := GoMap.ofList [("task_id", .string f.taskID), ("sync_id", .string f.syncID),
    ("wait_for", .ofStrings f.subtaskIDs), ("min_required", .int64 f.minRequired),
    ("aggregate", .string f.aggregate)]
  setIf d "timeout_ms" (f.timeoutMs.map .uint64)

def syncFrameFromDict : SyncFrame :=
  let aggregate := str d "aggregate"
  { taskID := str d "task_id"
    syncID := str d "sync_id"
    subtaskIDs := (get d "wait_for").stringSlice
    minRequired := toInt64 P (get d "min_required")
    aggregate := if aggregate = [] then "merge" else aggregate
    timeoutMs := optUint64 P d "timeout_ms" }

/-- A part of the result of a subtask, with its place in the stream. -/
structure AlignStreamFrame (T : Type) where
  syncID : GoString
  taskID : GoString
  subtaskID : GoString
  seq : UInt64
  isFinal : Bool
  sourceNID : Option GoString
  result : GoAny T
  error : Option (GoDict T)
  windowSize : Option UInt64
  ackSeq : Option UInt64
  nakSeq : Option UInt64

def AlignStreamFrame.toDict (f : AlignStreamFrame T) : FrameDict T :=
  let d := GoMap.ofList [("stream_id", .string f.syncID), ("task_id", .string f.taskID),
    ("subtask_id", .string f.subtaskID), ("seq", .uint64 f.seq), ("is_final", .bool f.isFinal)]
  let d := setIf d "sender_nid" (f.sourceNID.map .string)
  let d := setIf d "result" (nonNil f.result)
  let d := setIf d "error" (f.error.map .ofMap)
  let d := setIf d "window_size" (f.windowSize.map .uint64)
  let d := setIf d "ack_seq" (f.ackSeq.map .uint64)
  setIf d "nak_seq" (f.nakSeq.map .uint64)

def alignStreamFrameFromDict : AlignStreamFrame T :=
  { syncID := str d "stream_id"
    taskID := str d "task_id"
    subtaskID := str d "subtask_id"
    seq := toUint64 P (get d "seq")
    isFinal := (optBool d "is_final").getD false
    sourceNID := optStr d "sender_nid"
    result := get d "result"
    error := (get d "error").toMap
    windowSize := optUint64 P d "window_size"
    ackSeq := optUint64 P d "ack_seq"
    nakSeq := optUint64 P d "nak_seq" }

end

end NpsSdk.Nop
