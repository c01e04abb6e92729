import NpsSdk.NopDagValidator
import NpsSdk.NopNodeExecution
import NpsSdk.Transition

/-! The scheduler `runDag` as a step function. One event lets the loop run from its head to the next
receive, one lets a worker goroutine finish, one delivers a finished goroutine's message to the loop
or to the drain, one answers the next compensation call. The schedule of a run therefore ranges over
every completion order, every worker behaviour and every moment at which the context ends.

The state holds the function's local variables and a record of the calls made. -/

namespace NpsSdk.Nop

variable {Raw : Type}

/-! ### The predicates on node states -/

variable (node : DagNode Raw)

/-- `K`, as the code computes it. -/
def DagNode.required : Int :=
  if 0 < node.minRequired then goInt node.minRequired else node.inputFrom.length

variable (states : GoMap TaskState)

def isIn (accepted : List TaskState) (d : String) : Bool :=
  match states[d]? with
  | some s => decide (s ∈ accepted)
  | none => false

def countDeps (deps : List String) (states : GoMap TaskState) (accepted : List TaskState) : Nat :=
  deps.countP (isIn states accepted)

def successDeps (deps : List String) (states : GoMap TaskState) : Nat :=
  countDeps deps states [.completed, .skipped]

def failedDeps (deps : List String) (states : GoMap TaskState) : Nat :=
  countDeps deps states [.failed]

def areDepsDone : Bool :=
  if node.inputFrom.length = 0 then true
  else if node.required ≤ successDeps node.inputFrom states then true
  else if (node.inputFrom.length : Int) - failedDeps node.inputFrom states < node.required then true
  else false

def kOfNFails : Bool :=
  decide (node.inputFrom.length ≠ 0 ∧
    (successDeps node.inputFrom states : Int) < node.required)

def canEndNodeStillSucceed : Bool :=
  if node.inputFrom.length = 0 then false
  else decide (node.required ≤ (node.inputFrom.length : Int) - failedDeps node.inputFrom states)

/-- The breadth-first loop; an edge is queued once, when its source is first visited. -/
def reachLoop (adjacency : String → List String) (target : String) : Nat → List String → List String → Bool
  | 0, _, _ => false
  | _ + 1, _, [] => false
  | fuel + 1, visited, current :: queue =>
    if current = target then true
    else if current ∈ visited then reachLoop adjacency target fuel visited queue
    else reachLoop adjacency target fuel (current :: visited) (queue ++ adjacency current)

def canReachEndNode (endNodeID failedNodeID : String) (dag : TaskDag Raw) : Bool :=
  reachLoop dag.adjacency endNodeID (dag.edges.length + 1) [] [failedNodeID]

def TaskDag.endNodes (dag : TaskDag Raw) : List (DagNode Raw) :=
  dag.nodes.filter fun n => ∀ e ∈ dag.edges, e.fromNode ≠ n.id

/-! ### The state of a run -/

/-- The parameters of one call: the task's DAG has passed the validator and the options are
normalized. `rangeOrder` is the order in which `range` meets the keys of a map; `uuid` is the sequence
of fresh ids. -/
structure DagRun (Raw : Type) where
  host : Host Raw
  opts : OrchestratorOptions
  task : OrchestratorTask Raw
  rangeOrder : List String → List String
  uuid : Nat → String
  valid : (validateDag task.dag).isValid = true
  normalized : opts.Normalized
  range_perm : ∀ keys, (rangeOrder keys).Perm keys

theorem DagRun.limit_pos (run : DagRun Raw) : 0 < run.opts.maxConcurrentNodes :=
  (OrchestratorOptions.normalized_iff.mp run.normalized).1

/-- How the call leaves once compensation is over. -/
inductive Exit (Raw : Type) where
  | success (aggregated : Raw)
  | abort (code message : String)

inductive Phase (Raw : Type) where
  | loop
  | wait
  | drain (code message : String)
  | compensate (todo : List String) (attempted succeeded : Nat) (failedIDs : List String)
      (exit : Exit Raw)
  | returned (result : NopTaskResult Raw)

/-- A node handed to `executeNodeWithRetry` with its context snapshot. -/
structure Dispatch (Raw : Type) where
  node : DagNode Raw
  context : GoMap Raw
  nodeStates : GoMap TaskState
  received : List (String × NodeOutcome Raw)

/-- A compensation node handed to `executeNodeOnce`, with the request that left, if any. -/
structure CompensationCall (Raw : Type) where
  nodeID : String
  request : Option (DelegateRequest Raw)

/-- The scheduler's books: its maps, and what was started, has ended and was taken in. -/
structure Board (Raw : Type) where
  nodeResults : GoMap Raw
  nodeStates : GoMap TaskState
  inFlight : GoMap Bool
  sending : List (String × NodeOutcome Raw)
  dispatches : List (Dispatch Raw)
  ended : List (String × NodeOutcome Raw)
  received : List (String × NodeOutcome Raw)

structure RunState (Raw : Type) extends Board Raw where
  phase : Phase Raw
  ctxErr : Bool
  uuids : Nat
  /-- The nodes in flight when the call decided to abort. -/
  abandoned : List String
  compensations : List (CompensationCall Raw)
  stateWrites : List TaskState
  subtaskWrites : List (SubtaskUpdate Raw)

def RunState.initial : RunState Raw :=
  { nodeResults := ∅, nodeStates := ∅, inFlight := ∅, sending := [], dispatches := [], ended := [],
    received := [], phase := .loop, ctxErr := false, uuids := 0, abandoned := [],
    compensations := [], stateWrites := [], subtaskWrites := [] }

inductive Event (Raw : Type) where
  | ctxDone
  /-- The loop runs from its head to the next receive or to a return. -/
  | loop
  | nodeEnd (id : String) (envs : List (AttemptEnv Raw))
  /-- A blocked goroutine's message is received. -/
  | receive (id : String)
  | compensate (env : AttemptEnv Raw)

def Event.isCtxDone : Event Raw → Bool
  | .ctxDone => true
  | _ => false

/-! ### Leaving the function -/

def compensationFailureErrorCode (task : OrchestratorTask Raw) (comp : Option SagaCompensationResult) : String :=
  match comp with
  | none => ""
  | some c =>
    if !compensationIsStrict task.effectiveCompensationPolicy || c.failed = 0 then ""
    else if c.attempted = 0 then errCompensationNotSupported
    else errCompensationFailed

namespace DagRun

variable (run : DagRun Raw)

def topoOrder : List String := (validateDag run.task.dag).topologicalOrder

def resultOf (exit : Exit Raw) (nodeResults : GoMap Raw) (comp : Option SagaCompensationResult) :
    NopTaskResult Raw :=
  match exit with
  | .success aggregated => newSuccessResult run.task.taskID aggregated nodeResults comp
  | .abort code message =>
    newFailureResult run.task.taskID
      (if compensationFailureErrorCode run.task comp = "" then code
        else compensationFailureErrorCode run.task comp) message comp

def conclude (exit : Exit Raw) (comp : Option SagaCompensationResult) (s : RunState Raw) : RunState Raw :=
  { s with phase := .returned (run.resultOf exit s.nodeResults comp) }

/-- The completed nodes in reverse topological order. -/
def completedNodes (states : GoMap TaskState) : List String :=
  run.topoOrder.reverse.filter fun id =>
    decide (states[id]? = some .completed) && (run.task.dag.node? id).isSome

def hasCompensation (id : String) : Bool :=
  match run.task.dag.node? id with
  | some n => decide (n.compensateAction ≠ "")
  | none => false

def missingCompensation (states : GoMap TaskState) : List String :=
  (run.completedNodes states).filter fun id => !run.hasCompensation id

def toCompensate (states : GoMap TaskState) : List String :=
  (run.completedNodes states).filter fun id => run.hasCompensation id

/-- `runSagaCompensation` up to its first call. -/
def startCompensation (exit : Exit Raw) (s : RunState Raw) : RunState Raw :=
  if compensationIsStrict run.task.effectiveCompensationPolicy ∧
      run.missingCompensation s.nodeStates ≠ [] then
    run.conclude exit (some ⟨0, 0, (run.missingCompensation s.nodeStates).length,
      run.missingCompensation s.nodeStates⟩) s
  else if run.toCompensate s.nodeStates = [] then
    run.conclude exit (some ⟨0, 0, 0, []⟩) s
  else
    { s with
      phase := .compensate (run.toCompensate s.nodeStates) (run.toCompensate s.nodeStates).length 0 []
        exit
      stateWrites := s.stateWrites ++ [.compensating] }

def buildAbortResult (code message : String) (s : RunState Raw) : RunState Raw :=
  if compensationRunsOnFailure run.task.effectiveCompensationPolicy then
    run.startCompensation (.abort code message) s
  else run.conclude (.abort code message) none s

def endNodeIDs : List String := run.task.dag.endNodes.map DagNode.id

def aggregateEndNodes (nodeResults : GoMap Raw) : Raw :=
  run.host.aggregate run.opts.defaultAggregateStrategy
    (run.endNodeIDs.filterMap fun id => nodeResults[id]?) 0

def joinStrings (ss : List String) : String := String.intercalate ", " ss

def finish (s : RunState Raw) : RunState Raw :=
  let failedNodes := (run.rangeOrder s.nodeStates.keys).filter fun id =>
    s.nodeStates[id]? = some .failed
  if failedNodes ≠ [] ∧ ∃ e ∈ run.endNodeIDs, s.nodeStates[e]? = some .failed then
    run.buildAbortResult errSyncDependencyFailed ("End node(s) failed: " ++ joinStrings failedNodes) s
  else if compensationRunsOnSuccess run.task.effectiveCompensationPolicy then
    run.startCompensation (.success (run.aggregateEndNodes s.nodeResults)) s
  else run.conclude (.success (run.aggregateEndNodes s.nodeResults)) none s

end DagRun

/-! ### The loop -/

/-- The K-of-N filter: the nodes that stay, the node states, and the nodes failed on the way. -/
def filterReady : List (DagNode Raw) → GoMap TaskState →
    List (DagNode Raw) × GoMap TaskState × List (DagNode Raw × Nat)
  | [], states => ([], states, [])
  | n :: rest, states =>
    if kOfNFails n states then
      let r := filterReady rest (states.insert n.id .failed)
      (r.1, r.2.1, (n, successDeps n.inputFrom states) :: r.2.2)
    else
      let r := filterReady rest states
      (n :: r.1, r.2.1, r.2.2)

namespace Board

variable (b : Board Raw)

def readyNodes (dag : TaskDag Raw) : List (DagNode Raw) :=
  dag.nodes.filter fun n =>
    b.nodeStates[n.id]?.isNone && !(b.inFlight.getD n.id false) && areDepsDone n b.nodeStates

def kept (dag : TaskDag Raw) : List (DagNode Raw) :=
  (filterReady (b.readyNodes dag) b.nodeStates).1

def marked (dag : TaskDag Raw) : Board Raw :=
  { b with nodeStates := (filterReady (b.readyNodes dag) b.nodeStates).2.1 }

def startedIDs : List String := b.dispatches.map fun d => d.node.id

/-- A node goes in flight with a snapshot of the results. -/
def start (n : DagNode Raw) : Board Raw :=
  { b with
    inFlight := b.inFlight.insert n.id true
    dispatches := b.dispatches ++
      [{ node := n, context := b.nodeResults, nodeStates := b.nodeStates, received := b.received }] }

def endGoroutine (id : String) (outcome : NodeOutcome Raw) : Board Raw :=
  { b with
    sending := b.sending ++ [(id, outcome)]
    ended := b.ended ++ [(id, outcome)] }

def takeMessage (id : String) : Board Raw :=
  { b with
    inFlight := b.inFlight.erase id
    sending := b.sending.filter fun m => m.1 ≠ id }

def record (id : String) (outcome : NodeOutcome Raw) : Board Raw :=
  { b with
    nodeStates := b.nodeStates.insert id outcome.state
    nodeResults :=
      match outcome.state, outcome.result with
      | .completed, some r => b.nodeResults.insert id r
      | _, _ => b.nodeResults
    received := b.received ++ [(id, outcome)] }

end Board

/-- Starts ready nodes up to the concurrency limit. -/
def launch (limit : Int) : List (DagNode Raw) → Board Raw → Board Raw
  | [], b => b
  | n :: rest, b => if limit ≤ b.inFlight.size then b else launch limit rest (b.start n)

namespace DagRun

variable (run : DagRun Raw)

/-- The scan for ready nodes, its K-of-N filter and the launches, on the books. -/
def passBoard (b : Board Raw) : Board Raw :=
  launch run.opts.maxConcurrentNodes (b.kept run.task.dag) (b.marked run.task.dag)

def kOfNUpdate (uuids : Nat) (index : Nat) (failed : DagNode Raw × Nat) : SubtaskUpdate Raw :=
  { nodeID := failed.1.id, subtaskID := run.uuid (uuids + index), state := .failed, result := none,
    errorCode := errSyncDependencyFailed,
    errorMessage := "Only " ++ toString failed.2 ++ "/" ++ toString failed.1.required ++
      " required dependencies succeeded.", attempt := 0 }

variable (s : RunState Raw)

/-- One pass of the loop body up to the receive. -/
def pass : RunState Raw :=
  let failed := (filterReady (s.readyNodes run.task.dag) s.nodeStates).2.2
  let s' := { s with
    toBoard := run.passBoard s.toBoard
    uuids := s.uuids + failed.length
    subtaskWrites := s.subtaskWrites ++ failed.mapIdx (run.kOfNUpdate s.uuids) }
  if s'.inFlight.size = 0 then run.finish s' else { s' with phase := .wait }

/-- The head of the loop. The ids of an accepted DAG are distinct, so `allNodes` has one entry for
each node. -/
def loopHead : RunState Raw :=
  if s.nodeStates.size < run.task.dag.nodes.length then
    if s.ctxErr then
      run.buildAbortResult errTaskCancelled "Task cancelled." { s with abandoned := s.inFlight.keys }
    else run.pass s
  else run.finish s

def mustAbort (failedID : String) (states : GoMap TaskState) : Bool :=
  run.task.dag.endNodes.any fun e =>
    canReachEndNode e.id failedID run.task.dag && !canEndNodeStillSucceed e states

def drained (code message : String) (s : RunState Raw) : RunState Raw :=
  if s.inFlight.size = 0 then run.buildAbortResult code message s
  else { s with phase := .drain code message }

def onMessage (id : String) (outcome : NodeOutcome Raw) (s : RunState Raw) : RunState Raw :=
  let s' := { s with toBoard := (s.takeMessage id).record id outcome }
  if outcome.state = .failed ∧ run.mustAbort id s'.nodeStates then
    run.drained errSyncDependencyFailed ("Node '" ++ id ++ "' failed: " ++ outcome.errorCode)
      { s' with abandoned := s'.inFlight.keys }
  else { s' with phase := .loop }

/-! ### Compensation calls -/

def compNode (n : DagNode Raw) : DagNode Raw :=
  { id := n.id, agent := n.agent, action := n.compensateAction,
    inputMapping := n.compensateParamsMapping, timeoutMs := n.timeoutMs, inputFrom := [],
    retryPolicy := none, condition := "", minRequired := 0, compensateAction := "",
    compensateParamsMapping := ∅ }

def compensationCall (n : DagNode Raw) (env : AttemptEnv Raw) (s : RunState Raw) : CompensationCall Raw :=
  { nodeID := n.id
    request := delegateRequest run.host run.task (compNode n) (run.uuid s.uuids)
      (run.uuid (s.uuids + 1)) env.deadlineAt s.nodeResults }

def afterCompensation (todo : List String) (attempted succeeded : Nat) (failedIDs : List String)
    (exit : Exit Raw) (s : RunState Raw) : RunState Raw :=
  match todo with
  | [] => run.conclude exit (some ⟨attempted, succeeded, failedIDs.length, failedIDs⟩) s
  | _ :: _ => { s with phase := .compensate todo attempted succeeded failedIDs exit }

def compensateNext (env : AttemptEnv Raw) (s : RunState Raw) : Option (RunState Raw) :=
  if env.seesCancel ∧ ¬s.ctxErr then none
  else match s.phase with
  | .compensate (id :: todo) attempted succeeded failedIDs exit =>
    match run.task.dag.node? id with
    | none => none
    | some n =>
      (executeNodeOnce run.host run.opts run.task (compNode n) s.nodeResults env).map fun outcome =>
        run.afterCompensation todo attempted
          (if outcome.state = .completed then succeeded + 1 else succeeded)
          (if outcome.state = .completed then failedIDs else failedIDs ++ [id]) exit
          { s with
            uuids := s.uuids + 2
            compensations := s.compensations ++ [run.compensationCall n env s] }
  | _ => none

/-! ### Steps -/

def hasReturned : Bool :=
  match s.phase with
  | .returned _ => true
  | _ => false

def endNode (id : String) (envs : List (AttemptEnv Raw)) (s : RunState Raw) : Option (RunState Raw) :=
  if hasReturned s ∨ id ∈ s.ended.map Prod.fst ∨ (envs.any AttemptEnv.seesCancel ∧ ¬s.ctxErr) then none
  else match s.dispatches.find? fun d => d.node.id = id with
  | none => none
  | some d =>
    (executeNodeWithRetry run.host run.opts run.task d.node (run.uuid s.uuids) d.context envs).map
      fun r => { s with
        toBoard := s.endGoroutine id r.1
        uuids := s.uuids + 2
        subtaskWrites := s.subtaskWrites ++ r.2 }

def receive (id : String) (s : RunState Raw) : Option (RunState Raw) :=
  match s.sending.find? fun m => m.1 = id with
  | none => none
  | some m =>
    match s.phase with
    | .wait => some (run.onMessage id m.2 s)
    | .drain code message => some (run.drained code message { s with toBoard := s.takeMessage id })
    | _ => none

def step : Event Raw → Option (RunState Raw)
  | .ctxDone => some { s with ctxErr := true }
  | .loop => match s.phase with
      | .loop => some (run.loopHead s)
      | _ => none
  | .nodeEnd id envs => run.endNode id envs s
  | .receive id => run.receive id s
  | .compensate env => run.compensateNext env s

end DagRun

/-! ### Small calls

Calls over the one-valued payload type, for the runs exhibited later: conditions hold, parameters can
always be built, and a worker answers with a single final frame. -/

def plainHost : Host Unit :=
  { evaluateCondition := fun _ _ => .ok true
    buildParams := fun _ _ => .ok ()
    aggregate := fun _ _ _ => ()
    emptyObject := ()
    validateCallbackURL := fun _ => "" }

def plainNode (id : String) (inputFrom : List String) : DagNode Unit :=
  { id, action := "run", agent := "agent", inputFrom, inputMapping := ∅, timeoutMs := none,
    retryPolicy := none, condition := "", minRequired := 0, compensateAction := "undo",
    compensateParamsMapping := ∅ }

def plainTask (dag : TaskDag Unit) : OrchestratorTask Unit :=
  { taskID := "task", dag, timeoutMs := 0, maxRetries := 0, priority := "", callbackURL := "",
    callbackSecret := "", preflight := false, delegateDepth := 0, compensationPolicy := "" }

def plainCall (dag : TaskDag Unit) (limit : Nat) (valid : (validateDag dag).isValid = true) : DagRun Unit :=
  { host := plainHost
    opts := { maxConcurrentNodes := limit + 1, validateSenderNID := false, enableCallback := true,
              defaultAggregateStrategy := "merge" }
    task := plainTask dag
    rangeOrder := id
    uuid := toString
    valid := valid
    normalized := by
      refine OrchestratorOptions.normalized_iff.mpr ⟨?_, show "merge" ≠ "" by decide⟩
      show (0 : Int) < limit + 1
      omega
    range_perm := List.Perm.refl }

/-- The worker ends its stream with a result, or with an error. -/
def plainFrame (ok : Bool) : WorkerStreamFrame Unit :=
  { seq := 0
    data := some ()
    isFinal := true
    senderNID := "agent"
    error := if ok then none else some { code := "E", message := "" } }

def plainAnswer (ok : Bool) : AttemptEnv Unit :=
  { ctxErr := false
    deadlineAt := ""
    answer := .ok [.frame (plainFrame ok)]
    delayCancelled := false }

def chainCall : DagRun Unit :=
  plainCall { nodes := [plainNode "a" [], plainNode "b" ["a"]], edges := [⟨"a", "b"⟩] } 1 (by decide)

end NpsSdk.Nop
