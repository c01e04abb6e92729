import NpsSdk.NopCompensation

/-! `Execute`, `Cancel` and `GetStatus` of one task on one orchestrator over the in-memory store. An event lets
`Execute` go on to its next operation on the store, delivers what it waits for, or is a part of a concurrent `Cancel`:
first the signal to the running context, later the write to the store. -/

namespace NpsSdk.Nop

variable {Raw : Type}

/-! ### Preflight -/

def preflightProbes : List String → List (DagNode Raw) → List (String × String)
  | _, [] => []
  | seen, n :: rest =>
    if n.agent ∈ seen then preflightProbes seen rest
    else (n.agent, n.action) :: preflightProbes (n.agent :: seen) rest

inductive PreflightReply where
  | error (message : String)
  /-- A nil result. -/
  | empty
  | result (agentNID : String) (available : Bool) (unavailableReason : String)

def PreflightReply.probeError : PreflightReply → Option String
  | .error message => some ("Preflight probe failed: " ++ message)
  | _ => none

def PreflightReply.unavailable : PreflightReply → Option String
  | .result agentNID false reason => some ("Agent '" ++ agentNID ++ "' is unavailable: " ++
      if reason = "" then "no reason given" else reason)
  | _ => none

/-- What is wrong according to the replies, in the order in which they arrive; empty if nothing is. -/
def runPreflight (replies : List PreflightReply) : String :=
  match replies.findSome? PreflightReply.probeError with
  | some message => message
  | none => (replies.findSome? PreflightReply.unavailable).getD ""

/-! ### The state of an execution -/

/-- A call of `Execute` with what its host answers; the order of a loop over a map is its own. -/
structure Execution (Raw : Type) where
  host : Host Raw
  opts : OrchestratorOptions
  task : OrchestratorTask Raw
  rangeOrder : List String → List String
  uuid : Nat → String
  normalized : opts.Normalized
  range_perm : ∀ keys, (rangeOrder keys).Perm keys

inductive Stage (Raw : Type) where
  | idle
  /-- The store had no record; the record is about to be saved. -/
  | checked
  /-- The record is saved; the cancel function is not registered yet. -/
  | saved
  | registered
  | preflight
  | preflightFailed (message : String)
  | starting
  | running
  | finished (result : NopTaskResult Raw)
  /-- The final state is about to be written; `callback` unless the exit is the timeout's. -/
  | finalizing (result : NopTaskResult Raw) (callback : Bool)
  | returned (result : NopTaskResult Raw)

def Stage.hasTimer : Stage Raw → Bool
  | .idle | .checked | .returned _ => false
  | _ => true

/-- The call, and what others see of it: the record in the store and the callbacks. -/
structure ExecState (Raw : Type) where
  stage : Stage Raw
  /-- The state in the stored record of the task, if there is one. -/
  store : Option TaskState
  dag : RunState Raw
  registered : Bool
  parentErr : Bool
  runCtxErr : Bool
  /-- The `Cancel` calls that have signalled and not yet written. -/
  pendingCancels : Nat
  /-- The results handed to `fireCallback`. -/
  fired : List (NopTaskResult Raw)

def ExecState.initial : ExecState Raw :=
  { stage := .idle, store := none, dag := .initial, registered := false, parentErr := false,
    runCtxErr := false, pendingCancels := 0, fired := [] }

inductive ExecEvent (Raw : Type) where
  | execute
  | advance
  | preflightReplies (replies : List PreflightReply)
  | dag (event : Event Raw)
  /-- `Execute` looks at the contexts and at the time since the start. -/
  | inspect (elapsed : Bool)
  | timer
  | parentCancel
  | cancelSignal
  | cancelWrite
  | getStatus
  | executeAgain

/-- `UpdateState` of the in-memory store: unconditional where a record exists. -/
def updateState (store : Option TaskState) (state : TaskState) : Option TaskState :=
  store.map fun _ => state

namespace Execution

variable (x : Execution Raw)

def dagRun? : Option (DagRun Raw) :=
  if h : (validateDag x.task.dag).isValid = true then
    some { host := x.host, opts := x.opts, task := x.task, rangeOrder := x.rangeOrder,
           uuid := x.uuid, valid := h, normalized := x.normalized, range_perm := x.range_perm }
  else none

/-- What is refused before the store is asked. -/
def precheck : Option (NopTaskResult Raw) :=
  if maxDelegateChainDepth ≤ x.task.delegateDepth then
    some (newFailureResult x.task.taskID errDelegateChainTooDeep
      ("Delegation chain depth " ++ toString x.task.delegateDepth ++ " exceeds the maximum of " ++
        toString maxDelegateChainDepth ++ ".") none)
  else if x.task.callbackURL ≠ "" ∧ x.host.validateCallbackURL x.task.callbackURL ≠ "" then
    some (newFailureResult x.task.taskID errTaskDagInvalid
      (x.host.validateCallbackURL x.task.callbackURL) none)
  else if (validateDag x.task.dag).isValid = true then none
  else some (newFailureResult x.task.taskID (validateDag x.task.dag).errorCode
    (validateDag x.task.dag).errorMessage none)

def alreadyExists (message : String) : NopTaskResult Raw :=
  newFailureResult x.task.taskID errTaskAlreadyCompleted message none

def timeoutMs : UInt64 := min x.task.effectiveTimeoutMs maxTimeoutMs

def timeoutResult : NopTaskResult Raw :=
  newFailureResult x.task.taskID errTaskTimeout
    ("Task exceeded timeout of " ++ toString x.timeoutMs ++ "ms.") none

variable (s : ExecState Raw)

/-- The deferred calls of `Execute` run when it returns. -/
def leave (result : NopTaskResult Raw) : ExecState Raw :=
  { s with stage := .returned result, registered := false, runCtxErr := true }

def begin : Option (ExecState Raw) :=
  match s.stage with
  | .idle =>
    match x.precheck with
    | some result => some { s with stage := .returned result }
    | none =>
      if s.store.isSome then
        some { s with
          stage := .returned (x.alreadyExists ("Task '" ++ x.task.taskID ++ "' already exists.")) }
      else some { s with stage := .checked }
  | _ => none

def startRunning : ExecState Raw :=
  { s with
    stage := .running
    store := updateState s.store .running
    dag := { RunState.initial with ctxErr := s.runCtxErr } }

def advance : Option (ExecState Raw) :=
  match s.stage with
  | .checked =>
    if s.store.isSome then
      some { s with
        stage := .returned (x.alreadyExists ("task already exists: " ++ x.task.taskID)) }
    else some { s with stage := .saved, store := some .pending }
  | .saved => some { s with stage := .registered, registered := true }
  | .registered =>
    if x.task.preflight then
      some { s with stage := .preflight, store := updateState s.store .preflight }
    else some (startRunning s)
  | .preflightFailed message =>
    some (leave { s with store := updateState s.store .failed }
      (newFailureResult x.task.taskID errResourceInsufficient message none))
  | .starting => some (startRunning s)
  | .finalizing result callback =>
    some (leave
      { s with
        store := updateState s.store result.finalState
        fired :=
          if callback ∧ x.opts.enableCallback ∧ x.task.callbackURL ≠ "" then s.fired ++ [result]
          else s.fired } result)
  | _ => none

def preflightStage (replies : List PreflightReply) : Stage Raw :=
  if runPreflight replies ≠ "" then .preflightFailed (runPreflight replies) else .starting

def onPreflight (replies : List PreflightReply) (s : ExecState Raw) : Option (ExecState Raw) :=
  match s.stage with
  | .preflight =>
    if replies.length = (preflightProbes [] x.task.dag.nodes).length then
      some { s with stage := preflightStage replies }
    else none
  | _ => none

def dagStage (phase : Phase Raw) : Stage Raw :=
  match phase with
  | .returned result => .finished result
  | _ => .running

/-- A step of `runDag`; what it writes to the store is written at once. -/
def dagStep (event : Event Raw) (s : ExecState Raw) : Option (ExecState Raw) :=
  match s.stage, x.dagRun? with
  | .running, some run =>
    if event.isCtxDone then none
    else (run.step s.dag event).map fun dag =>
      { s with
        stage := dagStage dag.phase
        dag := dag
        store := (dag.stateWrites.drop s.dag.stateWrites.length).foldl updateState s.store }
  | _, _ => none

/-- The exit is the timeout's. -/
def timedOut (elapsed : Bool) (result : NopTaskResult Raw) : Prop :=
  (s.runCtxErr = true ∨ elapsed = true) ∧ s.parentErr = false ∧ result.finalState ≠ .completed

instance (s : ExecState Raw) (elapsed : Bool) (result : NopTaskResult Raw) :
    Decidable (timedOut s elapsed result) := inferInstanceAs (Decidable (_ ∧ _ ∧ _))

def inspectStage (elapsed : Bool) (result : NopTaskResult Raw) : Stage Raw :=
  if timedOut s elapsed result then .finalizing x.timeoutResult false else .finalizing result true

def inspect (elapsed : Bool) (s : ExecState Raw) : Option (ExecState Raw) :=
  match s.stage with
  | .finished result => some { s with stage := x.inspectStage s elapsed result }
  | _ => none

def endContext : ExecState Raw :=
  { s with runCtxErr := true, dag := { s.dag with ctxErr := true } }

def step : ExecEvent Raw → Option (ExecState Raw)
  | .execute => x.begin s
  | .advance => x.advance s
  | .preflightReplies replies => x.onPreflight replies s
  | .dag event => x.dagStep event s
  | .inspect elapsed => x.inspect elapsed s
  | .timer => if s.stage.hasTimer then some (endContext s) else none
  | .parentCancel => some { endContext s with parentErr := true }
  | .cancelSignal =>
    some { (if s.registered then endContext s else s) with pendingCancels := s.pendingCancels + 1 }
  | .cancelWrite =>
    if 0 < s.pendingCancels then
      some { s with
        pendingCancels := s.pendingCancels - 1
        store := updateState s.store .cancelled }
    else none
  | .getStatus => some s
  | .executeAgain => if s.store.isSome then some s else none

/-! ### Steps -/

inductive Stepped (s : ExecState Raw) : ExecEvent Raw → ExecState Raw → Prop
  | rejected {e : ExecEvent Raw} {result : NopTaskResult Raw}
      (hstage : s.stage = .idle ∨ s.stage = .checked) :
      Stepped s e { s with stage := .returned result }
  | checked (hstage : s.stage = .idle) : Stepped s .execute { s with stage := .checked }
  | save (hstage : s.stage = .checked) (hstore : s.store = none) :
      Stepped s .advance { s with stage := .saved, store := some .pending }
  | register (hstage : s.stage = .saved) :
      Stepped s .advance { s with stage := .registered, registered := true }
  | preflight (hstage : s.stage = .registered) :
      Stepped s .advance { s with stage := .preflight, store := updateState s.store .preflight }
  | start (hstage : s.stage = .registered ∨ s.stage = .starting) :
      Stepped s .advance (startRunning s)
  | refuse {message : String} (hstage : s.stage = .preflightFailed message) :
      Stepped s .advance (leave { s with store := updateState s.store .failed }
        (newFailureResult x.task.taskID errResourceInsufficient message none))
  | verdict {replies : List PreflightReply} (hstage : s.stage = .preflight) :
      Stepped s (.preflightReplies replies)
        { s with stage := preflightStage replies }
  | dag {event : Event Raw} {run : DagRun Raw} {dag : RunState Raw} (hstage : s.stage = .running)
      (hrun : x.dagRun? = some run) (hstep : run.step s.dag event = some dag) :
      Stepped s (.dag event)
        { s with
          stage := dagStage dag.phase
          dag := dag
          store := (dag.stateWrites.drop s.dag.stateWrites.length).foldl updateState s.store }
  | inspect {elapsed : Bool} {result : NopTaskResult Raw} (hstage : s.stage = .finished result) :
      Stepped s (.inspect elapsed) { s with stage := x.inspectStage s elapsed result }
  | finalize {result : NopTaskResult Raw} {callback : Bool}
      (hstage : s.stage = .finalizing result callback) :
      Stepped s .advance
        (leave
          { s with
            store := updateState s.store result.finalState
            fired :=
              if callback ∧ x.opts.enableCallback ∧ x.task.callbackURL ≠ "" then s.fired ++ [result]
              else s.fired } result)
  | timer : Stepped s .timer (endContext s)
  | parentCancel : Stepped s .parentCancel { endContext s with parentErr := true }
  | cancelSignal :
      Stepped s .cancelSignal
        { (if s.registered then endContext s else s) with pendingCancels := s.pendingCancels + 1 }
  | cancelWrite :
      Stepped s .cancelWrite
        { s with
          pendingCancels := s.pendingCancels - 1
          store := updateState s.store .cancelled }
  | idle {e : ExecEvent Raw} : Stepped s e s

variable {x} {s s' : ExecState Raw} {e : ExecEvent Raw}

theorem begin_stepped (h : x.begin s = some s') : x.Stepped s .execute s' := by
  unfold begin at h
  split at h
  · rename_i hstage
    split at h
    · cases h
      exact .rejected (.inl hstage)
    split_ifs at h
    · cases h
      exact .rejected (.inl hstage)
    · cases h
      exact .checked hstage
  · cases h

theorem advance_stepped (h : x.advance s = some s') : x.Stepped s .advance s' := by
  unfold advance at h
  cases hstage : s.stage with
  | checked =>
    rw [hstage] at h
    dsimp only at h
    split_ifs at h with hstore
    · cases h
      exact .rejected (.inr hstage)
    cases h
    rw [Option.not_isSome_iff_eq_none] at hstore
    exact .save hstage hstore
  | saved =>
    rw [hstage] at h
    cases h
    exact .register hstage
  | registered =>
    rw [hstage] at h
    dsimp only at h
    split_ifs at h
    · cases h
      exact .preflight hstage
    · cases h
      exact .start (.inl hstage)
  | preflightFailed =>
    rw [hstage] at h
    cases h
    exact .refuse hstage
  | starting =>
    rw [hstage] at h
    cases h
    exact .start (.inr hstage)
  | finalizing =>
    rw [hstage] at h
    cases h
    exact .finalize hstage
  | idle | preflight | running | finished | returned => rw [hstage] at h; cases h

theorem dagStep_stepped {event : Event Raw} (h : x.dagStep event s = some s') : x.Stepped s (.dag event) s' := by
  unfold dagStep at h
  split at h
  · rename_i hstage hrun
    split_ifs at h
    obtain ⟨dag, hstep, rfl⟩ := Option.map_eq_some_iff.mp h
    exact .dag hstage hrun hstep
  · cases h

theorem step_cases (h : x.step s e = some s') : x.Stepped s e s' := by
  cases e with
  | execute => exact begin_stepped h
  | advance => exact advance_stepped h
  | preflightReplies replies =>
    simp only [step, onPreflight] at h
    split at h
    · rename_i hstage
      split_ifs at h
      cases h
      exact .verdict hstage
    · cases h
  | dag event => exact dagStep_stepped h
  | inspect elapsed =>
    simp only [step, inspect] at h
    split at h
    · rename_i hstage
      cases h
      exact .inspect hstage
    · cases h
  | timer =>
    simp only [step] at h
    split_ifs at h
    cases h
    exact .timer
  | parentCancel =>
    cases h
    exact .parentCancel
  | cancelSignal =>
    cases h
    exact .cancelSignal
  | cancelWrite =>
    simp only [step] at h
    split_ifs at h
    cases h
    exact .cancelWrite
  | getStatus =>
    cases h
    exact .idle
  | executeAgain =>
    simp only [step] at h
    split_ifs at h
    cases h
    exact .idle

end Execution

/-! ### Small executions -/

def plainExecution (dag : TaskDag Unit) (preflight : Bool) : Execution Unit :=
  { host := plainHost
    opts := { maxConcurrentNodes := 2, validateSenderNID := false, enableCallback := true,
              defaultAggregateStrategy := "merge" }
    task := { plainTask dag with callbackURL := "hook", preflight }
    rangeOrder := id
    uuid := toString
    normalized := OrchestratorOptions.normalized_iff.mpr ⟨by decide, by decide⟩
    range_perm := List.Perm.refl }

def oneNodeExecution : Execution Unit := plainExecution { nodes := [plainNode "a" []], edges := [] } false

def oneNodeRun : List (ExecEvent Unit) :=
  [.execute, .advance, .advance, .advance, .dag .loop, .dag (.nodeEnd "a" [plainAnswer true]),
    .dag (.receive "a"), .dag .loop, .inspect false, .advance]

end NpsSdk.Nop
