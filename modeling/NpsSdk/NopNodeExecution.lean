import NpsSdk.NopModels

/-! Execution of one node: a single delegation to a worker and the retry loop around it. The
environment of an attempt is an input: what the worker streams, when a context is done, when the
pause before a retry is cut short. A call whose environment ends too early has not returned yet. -/

namespace NpsSdk.Nop

variable {Raw : Type}

structure MappingError where
  message : String
  errorCode : String

/-- The functions that look inside payloads and URLs, which the orchestrator calls. -/
structure Host (Raw : Type) where
  evaluateCondition : String → GoMap Raw → Except String Bool
  buildParams : GoMap Raw → GoMap Raw → Except MappingError Raw
  aggregate : String → List Raw → Int → Raw
  emptyObject : Raw
  validateCallbackURL : String → String

structure NodeOutcome (Raw : Type) where
  state : TaskState
  result : Option Raw
  errorCode : String
  errorMessage : String

def NodeOutcome.fail (errorCode errorMessage : String) : NodeOutcome Raw :=
  { state := .failed, result := none, errorCode, errorMessage }

structure StreamError where
  code : String
  message : String

structure WorkerStreamFrame (Raw : Type) where
  seq : UInt64
  data : Option Raw
  isFinal : Bool
  senderNID : String
  error : Option StreamError

inductive StreamEvent (Raw : Type) where
  | nodeCtxDone (parentDone : Bool)
  | closed
  | frame (f : WorkerStreamFrame Raw)

structure DelegateRequest (Raw : Type) where
  parentTaskID : String
  subtaskID : String
  nodeID : String
  targetAgentNID : String
  action : String
  params : Raw
  delegatedScope : Raw
  deadlineAt : String
  idempotencyKey : String
  priority : String
  delegateDepth : Int

/-- One attempt as the environment answers it: `ctx.Err()` before it, the error or the stream of
`Delegate`, and whether the context ends during the pause after it. -/
structure AttemptEnv (Raw : Type) where
  ctxErr : Bool
  deadlineAt : String
  answer : Except String (List (StreamEvent Raw))
  delayCancelled : Bool

section

variable (host : Host Raw) (opts : OrchestratorOptions) (task : OrchestratorTask Raw) (node : DagNode Raw)

def nodeTimeoutMs : UInt64 := min (node.timeoutMs.getD task.effectiveTimeoutMs) maxTimeoutMs

/-- The request a delegation sends; no request leaves when the parameters cannot be built. -/
def delegateRequest (subtaskID idempotencyKey deadlineAt : String) (context : GoMap Raw) :
    Option (DelegateRequest Raw) :=
  match host.buildParams node.inputMapping context with
  | .error _ => none
  | .ok params => some
      { parentTaskID := task.taskID, subtaskID, nodeID := node.id, targetAgentNID := node.agent,
        action := node.action, params, delegatedScope := host.emptyObject, deadlineAt,
        idempotencyKey, priority := task.effectivePriority, delegateDepth := task.delegateDepth + 1 }

/-- The receive loop. A final frame returns at once, so a closed stream has had none. -/
def streamLoop : UInt64 → List (StreamEvent Raw) → Option (NodeOutcome Raw)
  | _, [] => none
  | _, .nodeCtxDone parentDone :: _ =>
    if parentDone then some (.fail errTaskCancelled "")
    else some (.fail errDelegateTimeout ("Node '" ++ node.id ++ "' timed out after " ++
      toString (nodeTimeoutMs task node) ++ "ms."))
  | _, .closed :: _ => some (.fail errDelegateTimeout "Stream ended without final frame.")
  | lastSeq, .frame f :: rest =>
    if f.seq ≠ lastSeq ∧ f.seq ≠ 0 ∧ f.seq ≠ lastSeq + 1 then some (.fail errStreamSeqGap "")
    else if opts.validateSenderNID ∧ f.senderNID ≠ node.agent then
      some (.fail errStreamNidMismatch "")
    else if f.isFinal then
      match f.error with
      | some e => some (.fail e.code e.message)
      | none => some { state := .completed, result := f.data, errorCode := "", errorMessage := "" }
    else streamLoop f.seq rest

def executeNodeOnce (context : GoMap Raw) (env : AttemptEnv Raw) : Option (NodeOutcome Raw) :=
  match host.buildParams node.inputMapping context with
  | .error e =>
    some (.fail (if e.errorCode ≠ "" then e.errorCode else errInputMappingError) e.message)
  | .ok _ =>
    match env.answer with
    | .error message => some (.fail errDelegateRejected message)
    | .ok events => streamLoop opts task node 0 events

def shouldRetry (policy : Option RetryPolicy) (errorCode : String) (attempt maxRetries : Nat) : Bool :=
  if maxRetries < attempt then false
  else match policy with
  | some p => if p.retryOn ≠ [] ∧ errorCode ≠ "" then errorCode ∈ p.retryOn else true
  | none => true

def maxRetries : Nat :=
  match node.retryPolicy with
  | some p => p.maxRetries.toNat
  | none => task.maxRetries.toNat

def subtaskUpdate (subtaskID : String) (attempt : Nat) (outcome : NodeOutcome Raw) : SubtaskUpdate Raw :=
  { nodeID := node.id, subtaskID, state := outcome.state, result := outcome.result,
    errorCode := outcome.errorCode, errorMessage := outcome.errorMessage, attempt }

def conditionGate (context : GoMap Raw) (attempt : Nat) : Option (NodeOutcome Raw) :=
  if attempt = 1 ∧ node.condition ≠ "" then
    match host.evaluateCondition node.condition context with
    | .error message => some (.fail errConditionEvalError message)
    | .ok false => some { state := .skipped, result := none, errorCode := "", errorMessage := "" }
    | .ok true => none
  else none

def startedUpdate (subtaskID : String) (attempt : Nat) : SubtaskUpdate Raw :=
  { nodeID := node.id, subtaskID, state := .running, result := none, errorCode := "",
    errorMessage := "", attempt }

/-- The outcome and the write after the last attempt. -/
def exhausted (subtaskID : String) : NodeOutcome Raw × List (SubtaskUpdate Raw) :=
  (.fail errDelegateTimeout "",
    [subtaskUpdate node subtaskID 0 (.fail errDelegateTimeout ("Node '" ++ node.id ++
      "' exhausted " ++ toString (maxRetries task node) ++ " retries."))])

def retryLoop (subtaskID : String) (context : GoMap Raw) :
    Nat → List (AttemptEnv Raw) → Option (NodeOutcome Raw × List (SubtaskUpdate Raw))
  | attempt, [] =>
    if maxRetries task node + 1 < attempt then some (exhausted task node subtaskID) else none
  | attempt, env :: rest =>
    if maxRetries task node + 1 < attempt then some (exhausted task node subtaskID)
    else if env.ctxErr then some (.fail errTaskCancelled "", [])
    else match conditionGate host node context attempt with
    | some outcome => some (outcome, [subtaskUpdate node subtaskID attempt outcome])
    | none =>
    match executeNodeOnce host opts task node context env with
    | none => none
    | some outcome =>
      if outcome.state = .completed ∨
          ¬shouldRetry node.retryPolicy outcome.errorCode attempt (maxRetries task node) then
        some (outcome, [startedUpdate node subtaskID attempt, subtaskUpdate node subtaskID attempt outcome])
      else if env.delayCancelled then
        some (.fail errTaskCancelled "", [startedUpdate node subtaskID attempt])
      else (retryLoop subtaskID context (attempt + 1) rest).map fun r =>
        (r.1, startedUpdate node subtaskID attempt :: r.2)

def executeNodeWithRetry (subtaskID : String) (context : GoMap Raw)
    (envs : List (AttemptEnv Raw)) : Option (NodeOutcome Raw × List (SubtaskUpdate Raw)) :=
  retryLoop host opts task node subtaskID context 1 envs

end

def AttemptEnv.seesCancel (env : AttemptEnv Raw) : Bool :=
  env.ctxErr || env.delayCancelled ||
    match env.answer with
    | .error _ => false
    | .ok events => events.any fun
      | .nodeCtxDone parentDone => parentDone
      | _ => false

/-! ### The outcomes a node can have -/

def Settled (state : TaskState) : Prop := state = .completed ∨ state = .skipped ∨ state = .failed

instance (state : TaskState) : Decidable (Settled state) :=
  inferInstanceAs (Decidable (_ ∨ _ ∨ _))

section

variable {host : Host Raw} {opts : OrchestratorOptions} {task : OrchestratorTask Raw} {node : DagNode Raw}

theorem settled_fail (errorCode errorMessage : String) :
    Settled (NodeOutcome.fail errorCode errorMessage : NodeOutcome Raw).state := Or.inr (Or.inr rfl)

variable {outcome : NodeOutcome Raw} {context : GoMap Raw} {updates : List (SubtaskUpdate Raw)}
  {envs : List (AttemptEnv Raw)}

theorem streamLoop_settled {lastSeq : UInt64} {events : List (StreamEvent Raw)}
    (h : streamLoop opts task node lastSeq events = some outcome) : Settled outcome.state := by
  fun_induction streamLoop opts task node lastSeq events with
  | case1 => cases h
  | case2 | case3 | case4 | case5 | case6 | case7 =>
    cases h
    exact settled_fail _ _
  | case8 =>
    cases h
    exact Or.inl rfl
  | case9 _ _ _ _ _ _ ih => exact ih h

theorem executeNodeOnce_settled {env : AttemptEnv Raw}
    (h : executeNodeOnce host opts task node context env = some outcome) : Settled outcome.state := by
  unfold executeNodeOnce at h
  split at h
  · cases h
    exact settled_fail _ _
  split at h
  · cases h
    exact settled_fail _ _
  · exact streamLoop_settled h

theorem conditionGate_settled {attempt : Nat} (h : conditionGate host node context attempt = some outcome) :
    Settled outcome.state := by
  unfold conditionGate at h
  split_ifs at h
  split at h
  · cases h
    exact settled_fail _ _
  · cases h
    exact Or.inr (Or.inl rfl)
  · cases h

theorem retryLoop_settled {subtaskID : String} {attempt : Nat}
    (h : retryLoop host opts task node subtaskID context attempt envs = some (outcome, updates)) :
    Settled outcome.state := by
  fun_induction retryLoop host opts task node subtaskID context attempt envs generalizing updates with
  | case2 | case6 => cases h
  | case1 | case3 | case4 | case8 =>
    cases h
    exact settled_fail _ _
  | case5 =>
    rename_i hgate
    cases h
    exact conditionGate_settled hgate
  | case7 =>
    rename_i honce _
    cases h
    exact executeNodeOnce_settled honce
  | case9 =>
    rename_i ih
    obtain ⟨⟨o, us⟩, hrest, heq⟩ := Option.map_eq_some_iff.mp h
    cases heq
    exact ih hrest

end

end NpsSdk.Nop
