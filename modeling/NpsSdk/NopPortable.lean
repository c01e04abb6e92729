import Mathlib
import NpsSdk.Json
import NpsSdk.Kahn
import NpsSdk.NopModels
import NpsSdk.Reachability

/-! `EvaluateOrchestration`, the sequential orchestrator of the portable profile. It runs a scripted
task: every node lists the outcomes of its attempts. The task is a decoded JSON object; the condition
evaluator, the input mapper and the JSON codec are the functions of a `Runtime`. Every `range` loop
over a Go map visits the keys in an order that a `MapOrder` picks. -/

namespace NpsSdk.Nop.Portable

/-! ### Reading values -/

section

variable {N : Type}

def object : Option (Json N) → GoMap (Json N)
  | some (.object fields) => Json.toMap fields
  | _ => ∅

def anySlice : Option (Json N) → List (Json N)
  | some (.array items) => items
  | _ => []

def stringValue : Option (Json N) → String
  | some (.string s) => s
  | _ => ""

def boolValue : Option (Json N) → Bool
  | some (.bool b) => b
  | _ => false

def stringSlice (value : Option (Json N)) : List String :=
  (anySlice value).map fun item => stringValue (some item)

end

/-- The functions the profile calls. `none` stands for an error. -/
structure Runtime (N : Type) where
  intOf : N → Option Int
  marshal : Json N → Option (List UInt8)
  unmarshal : List UInt8 → Option (Json N)
  evaluateCondition : String → GoMap (List UInt8) → Option Bool
  resolvePath : String → GoMap (List UInt8) → Option (List UInt8)

/-- The `range` loops over maps. -/
inductive Site where
  | edges
  | ready
  | conditionContext (id : String)
  | inputMapping (id : String)
  | inputContext (id name : String)
  | hasOutgoing
  | mergedKeys (index : Nat)

/-- The order in which each loop meets the keys of its map. -/
structure MapOrder where
  keys : Site → List String → List String
  perm : ∀ site ids, (keys site ids).Perm ids

def sortStrings (ids : List String) : List String := ids.insertionSort (· ≤ ·)

section Profile

variable {N : Type} (rt : Runtime N) (ord : MapOrder)

def intValue (value : Option (Json N)) (fallback : Int) : Int :=
  match value with
  | some (.number n) => (rt.intOf n).getD fallback
  | _ => fallback

def deepCopy : Json N → Json N
  | .null => .null
  | value => ((rt.marshal value).bind rt.unmarshal).getD .null

def rawMessageContext (site : Site) (values : GoMap (Json N)) : GoMap (List UInt8) :=
  GoMap.collect (ord.keys site values.keys) fun key =>
    -- an encoding error is dropped and leaves no bytes
    (values[key]?.bind rt.marshal).getD []

/-! ### Results -/

inductive NodeState where
  | completed
  | skipped
  | failed
  | compensated
  | compensationFailed
  deriving DecidableEq, Repr

inductive TerminalState where
  | completed
  | failed
  | cancelled
  deriving DecidableEq, Repr

structure Result (N : Type) where
  events : List String
  terminalState : TerminalState
  errorCode : Option String
  aggregate : Json N
  nodeStates : GoMap NodeState
  attemptCounts : GoMap Int
  mappedParams : Json N
  compensationOrder : List String

/-- What the loop over the nodes has written so far. -/
structure Transcript (N : Type) where
  events : List String
  results : GoMap (Json N)
  states : GoMap NodeState
  attemptCounts : GoMap Int
  mappedParams : GoMap (Json N)

variable (tr : Transcript N)

def portableResult (state : TerminalState) (errorCode : String)
    (aggregate : Json N) (compensation : List String) : Result N where
  events := tr.events
  terminalState := state
  errorCode := if errorCode = "" then none else some errorCode
  aggregate := deepCopy rt aggregate
  nodeStates := tr.states
  attemptCounts := tr.attemptCounts
  mappedParams := deepCopy rt (Json.ofMap tr.mappedParams)
  compensationOrder := compensation

def Transcript.ofEvents (events : List String) : Transcript N :=
  { events, results := ∅, states := ∅, attemptCounts := ∅, mappedParams := ∅ }

def emptyPortableFailure (errorCode : String) : Result N :=
  portableResult rt (.ofEvents ["task:failed"]) .failed errorCode .null []

/-! ### The order of execution -/

abbrev Nodes (N : Type) := GoMap (GoMap (Json N))

variable (nodes : Nodes N) (id : String)

/-- `nodes[id]`; a missing key reads as a nil map. -/
def nodeOf : GoMap (Json N) := nodes[id]?.getD ∅

def dependsOn : List String :=
  stringSlice (nodeOf nodes id)["depends_on"]?

/-- The pairs of a dependency and its node, in the order in which the loop over `nodes` counts them. -/
def dependencyEdges (site : Site) (nodes : Nodes N) : List (String × String) :=
  (ord.keys site nodes.keys).flatMap fun id =>
    (dependsOn nodes id).map fun dependency => (dependency, id)

/-- `indegree[id]` and `outgoing[id]` after that loop. -/
def indegree : Int :=
  (dependencyEdges ord .edges nodes).countP fun e => e.2 = id

def outgoing : List String :=
  ((dependencyEdges ord .edges nodes).filter fun e => e.1 = id).map Prod.snd

def readyNodes : List String :=
  sortStrings ((ord.keys .ready nodes.keys).filter fun id => indegree ord nodes id = 0)

def portableOrder : List String :=
  Kahn.kahn (fun ready next => sortStrings (ready ++ [next]))
    (fun id => sortStrings (outgoing ord nodes id)) nodes.keys.length (indegree ord nodes)
    (readyNodes ord nodes)

/-- `none` where a dependency is unknown or the loop leaves a node out. -/
def stablePortableTopology : Option (List String) :=
  if (dependencyEdges ord .edges nodes).all fun e => nodes.contains e.1 then
    if (portableOrder ord nodes).length = nodes.size then some (portableOrder ord nodes) else none
  else none

/-! ### Compensation -/

structure Compensation where
  order : List String
  error : String
  states : GoMap NodeState
  events : List String

def hasAction : Bool :=
  (nodeOf nodes id).contains "compensate_action"

def compensationFails : Bool :=
  stringValue (nodeOf nodes id)["compensation_outcome"]? = "failure"

/-- The ids `collect` marks. It enters no id twice, so a depth above the number of nodes is never
reached. -/
def ancestors (failedID : String) : List String :=
  Reachability.collect (dependsOn nodes) (nodes.size + 1) failedID []

def compensationCandidates (failedID : String) (topology : List String) (nodes : Nodes N)
    (states : GoMap NodeState) : List String :=
  topology.reverse.filter fun id => id ∈ ancestors nodes failedID ∧ states[id]? = some .completed

def compensateLoop (strict : Bool) (nodes : Nodes N) : List String → Compensation → Compensation
  | [], done => done
  | id :: rest, done =>
    if ¬ hasAction nodes id then compensateLoop strict nodes rest done
    else if compensationFails nodes id then
      let done : Compensation :=
        { order := done.order ++ [id]
          error := if strict then errCompensationFailed else done.error
          states := done.states.insert id .compensationFailed
          events := done.events ++ [id ++ ":compensating", id ++ ":compensation_failed"] }
      if strict then done else compensateLoop strict nodes rest done
    else
      compensateLoop strict nodes rest
        { done with
          order := done.order ++ [id]
          states := done.states.insert id .compensated
          events := done.events ++ [id ++ ":compensating", id ++ ":compensated"] }

variable (task : GoMap (Json N))

def compensatePortable (failedID : String) (topology : List String)
    (nodes : Nodes N) (states : GoMap NodeState) (events : List String) : Compensation :=
  let policy := stringValue task["compensation_policy"]?
  let none : Compensation := { order := [], error := "", states, events }
  if policy ≠ "best_effort" ∧ policy ≠ "strict" then none
  else
    let candidates := compensationCandidates failedID topology nodes states
    if policy = "strict" ∧ ¬ candidates.all (hasAction nodes) then
      { none with error := errCompensationNotSupported }
    else compensateLoop (policy = "strict") nodes candidates none

/-! ### Aggregation -/

def hasOutgoing : Bool :=
  (dependencyEdges ord .hasOutgoing nodes).any fun e => e.1 = id

/-- One key of one value. `none` is the panic of the type assertion on the copy. -/
def mergeItem (aggregate : String) (merged : GoMap (Json N)) (key : String) (item : Json N) :
    Option (GoMap (Json N)) :=
  match decide (aggregate = "merge_all"), merged[key]?, item with
  | true, some (.array existing), .array incoming =>
    match deepCopy rt (.array incoming) with
    | .array copied => some (merged.insert key (.array (existing ++ copied)))
    | _ => none
  | _, _, item => some (merged.insert key (deepCopy rt item))

def mergeValue (aggregate : String) (merged : GoMap (Json N)) (value : Json N × Nat) : Option (GoMap (Json N)) :=
  match value with
  | (.object fields, index) =>
    let value := Json.toMap fields
    (sortStrings (ord.keys (.mergedKeys index) value.keys)).foldlM
      (fun merged key => mergeItem rt aggregate merged key (value[key]?.getD .null)) merged
  | _ => some merged

variable (topology : List String)

def aggregatePortable (nodes : Nodes N) (states : GoMap NodeState) (results : GoMap (Json N)) : Option (Json N) :=
  let values := topology.filterMap fun id =>
    if ¬ hasOutgoing ord nodes id ∧ states[id]? = some .completed then
      results[id]?.map (deepCopy rt)
    else none
  if values = [] then some .null
  else if stringValue task["aggregate"]? = "all" then some (.array values)
  else (values.zipIdx.foldlM (mergeValue rt ord (stringValue task["aggregate"]?)) ∅).map Json.ofMap

/-! ### One node -/

inductive AttemptEnding (N : Type) where
  | completed (result : Json N)
  | failed
  /-- No attempt is left and none has settled the node, so it gets no state. -/
  | unsettled

structure Attempts (N : Type) where
  count : Nat
  finalError : String
  events : List String
  ending : AttemptEnding N

def attemptError (outcome : GoMap (Json N)) : String :=
  if stringValue outcome["kind"]? = "timeout" then errDelegateTimeout
  else if stringValue outcome["error_code"]? = "" then errDelegateRejected
  else stringValue outcome["error_code"]?

def attemptResult (outcome : GoMap (Json N)) : Json N :=
  match outcome["result"]? with
  | none | some .null => .object []
  | some result => result

/-- The loop at attempt `index` of `total`; as many have run. -/
def attemptLoop (node : GoMap (Json N)) (id : String) (maxRetries : Int) (total : Nat) :
    Nat → String → List (Json N) → Attempts N
  | index, finalError, [] => { count := index, finalError, events := [], ending := .unsettled }
  | index, finalError, rawOutcome :: rest =>
    if maxRetries < index then
      { count := index, finalError, events := [], ending := .unsettled }
    else
      let outcome := object (some rawOutcome)
      let kind := stringValue outcome["kind"]?
      let started := id ++ ":attempt:" ++ toString (index + 1)
      if kind = "success" then
        { count := index + 1, finalError, events := [started, id ++ ":completed"]
          ending := .completed (deepCopy rt (attemptResult outcome)) }
      else
        let finalError := attemptError outcome
        let retryable := kind = "timeout" ∨ boolValue outcome["retryable"]?
        let selected := "retry_on" ∉ node ∨ finalError ∈ stringSlice node["retry_on"]?
        if retryable ∧ selected ∧ (index + 1 : Int) ≤ maxRetries ∧ index + 1 < total then
          let later := attemptLoop node id maxRetries total (index + 1) finalError rest
          { later with events := started :: (id ++ ":retrying") :: later.events }
        else
          { count := index + 1, finalError, events := [started, id ++ ":failed"]
            ending := .failed }

inductive Verdict where
  | run
  | skip
  | error

def conditionVerdict (node : GoMap (Json N)) (id : String) (results : GoMap (Json N)) : Verdict :=
  if "condition" ∈ node then
    match rt.evaluateCondition (stringValue node["condition"]?)
        (rawMessageContext rt ord (.conditionContext id) results) with
    | none => .error
    | some matched => if matched then .run else .skip
  else .run

def mapInput (mapping : GoMap (Json N)) (id : String) (results : GoMap (Json N)) (name : String) :
    Option (Json N) :=
  match rt.resolvePath (stringValue mapping[name]?)
      (rawMessageContext rt ord (.inputContext id name) results) with
  | none => none
  | some resolved => if resolved = [] then none else rt.unmarshal resolved

/-- The mapped parameters with those of a node added; `none` where an entry fails. -/
def mapInputs (node : GoMap (Json N)) (id : String) (tr : Transcript N) : Option (GoMap (Json N)) :=
  if "input_mapping" ∈ node then
    let mapping := object node["input_mapping"]?
    (GoMap.collectM (ord.keys (.inputMapping id) mapping.keys)
      (mapInput rt ord mapping id tr.results)).map fun params =>
        tr.mappedParams.insert id (Json.ofMap params)
  else some tr.mappedParams

def Transcript.failEarly (id : String) : Transcript N :=
  { tr with
    states := tr.states.insert id .failed
    attemptCounts := tr.attemptCounts.insert id 0
    events := tr.events ++ [id ++ ":failed", "task:failed"] }

def Transcript.skip (id : String) : Transcript N :=
  { tr with
    states := tr.states.insert id .skipped
    attemptCounts := tr.attemptCounts.insert id 0
    events := tr.events ++ [id ++ ":skipped"] }

def Transcript.settle (id : String) (attempts : Attempts N) : Transcript N :=
  { tr with
    events := tr.events ++ attempts.events
    attemptCounts := tr.attemptCounts.insert id attempts.count
    results := match attempts.ending with
      | .completed result => tr.results.insert id result
      | _ => tr.results
    states := match attempts.ending with
      | .completed _ => tr.states.insert id .completed
      | .failed => tr.states.insert id .failed
      | .unsettled => tr.states }

def failTask (nodes : Nodes N) (id : String) (finalError : String) (tr : Transcript N) : Result N :=
  let compensation := compensatePortable task id topology nodes tr.states tr.events
  let finalError := if compensation.error ≠ "" then compensation.error else finalError
  let finalError := if finalError = "" then errDelegateRejected else finalError
  portableResult rt
    { tr with states := compensation.states, events := compensation.events ++ ["task:failed"] }
    .failed finalError .null compensation.order

/-- The body of the loop over the topology. An exception is the result of an early return. -/
def runNode (nodes : Nodes N) (tr : Transcript N) (id : String) : Except (Result N) (Transcript N) :=
  let node := nodeOf nodes id
  if stringValue task["cancel_before"]? = id then
    .error (portableResult rt { tr with events := tr.events ++ ["task:cancelled"] } .cancelled
      errTaskCancelled .null [])
  else match conditionVerdict rt ord node id tr.results with
  | .error => .error (portableResult rt (tr.failEarly id) .failed errConditionEvalError .null [])
  | .skip => .ok (tr.skip id)
  | .run =>
    match mapInputs rt ord node id tr with
    | none => .error (portableResult rt (tr.failEarly id) .failed errInputMappingError .null [])
    | some mappedParams =>
      let maxRetries :=
        intValue rt node["max_retries"]? (intValue rt task["max_retries"]? 0)
      let scripted := anySlice node["attempts"]?
      let attempts := attemptLoop rt node id maxRetries scripted.length 0 "" scripted
      let tr := { tr with mappedParams }.settle id attempts
      match attempts.ending with
      | .completed _ => .ok tr
      | _ => .error (failTask rt task topology nodes id attempts.finalError tr)

/-! ### The task -/

def nodeID (raw : Json N) : String := stringValue (object (some raw))["id"]?

def addNode (raw : Json N) : Option (Nodes N) :=
  if nodeID raw ∈ nodes then none else some (nodes.insert (nodeID raw) (object (some raw)))

/-- The map of nodes; `none` where an id is repeated. -/
def collectNodes (items : List (Json N)) : Option (Nodes N) := items.foldlM addNode ∅

def preflightFails : Bool :=
  topology.any fun id =>
    (nodeOf nodes id).contains "preflight_available" &&
      !boolValue (nodeOf nodes id)["preflight_available"]?

def startEvents : List String :=
  if boolValue task["preflight"]? then ["task:preflight", "task:running"] else ["task:running"]

def runTask (nodes : Nodes N) : Option (Result N) :=
  match topology.foldlM (runNode rt ord task topology nodes) (.ofEvents (startEvents task)) with
  | .error result => some result
  | .ok tr =>
    (aggregatePortable rt ord task topology nodes tr.states tr.results).map fun aggregate =>
      portableResult rt { tr with events := tr.events ++ ["task:completed"] } .completed ""
        aggregate []

/-- `none` where the profile panics while it merges arrays. -/
def evaluateOrchestration : Option (Result N) :=
  match collectNodes (anySlice task["nodes"]?) with
  | none => some (emptyPortableFailure rt errTaskDagInvalid)
  | some nodes =>
    match stablePortableTopology ord nodes with
    | none => some (emptyPortableFailure rt errTaskDagCycle)
    | some topology =>
      if boolValue task["preflight"]? ∧ preflightFails nodes topology then
        some (portableResult rt (.ofEvents ["task:preflight", "task:failed"]) .failed
          errResourceInsufficient .null [])
      else runTask rt ord task topology nodes

end Profile

end NpsSdk.Nop.Portable
