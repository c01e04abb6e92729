import NpsSdk.GoMap

/-! Data of the NOP orchestrator: task states, DAGs, tasks, results and the error codes its
functions return. A JSON payload is an opaque value of the type `Raw`; the orchestrator stores,
forwards and snapshots payloads and never looks inside one. -/

namespace NpsSdk.Nop

open List

/-! ### Error codes -/

def errTaskTimeout : String := "NOP-TASK-TIMEOUT"
def errTaskDagInvalid : String := "NOP-TASK-DAG-INVALID"
def errTaskDagCycle : String := "NOP-TASK-DAG-CYCLE"
def errTaskDagTooLarge : String := "NOP-TASK-DAG-TOO-LARGE"
def errTaskAlreadyCompleted : String := "NOP-TASK-ALREADY-COMPLETED"
def errTaskCancelled : String := "NOP-TASK-CANCELLED"
def errDelegateRejected : String := "NOP-DELEGATE-REJECTED"
def errDelegateChainTooDeep : String := "NOP-DELEGATE-CHAIN-TOO-DEEP"
def errDelegateTimeout : String := "NOP-DELEGATE-TIMEOUT"
def errSyncDependencyFailed : String := "NOP-SYNC-DEPENDENCY-FAILED"
def errStreamSeqGap : String := "NOP-STREAM-SEQ-GAP"
def errStreamNidMismatch : String := "NOP-STREAM-NID-MISMATCH"
def errResourceInsufficient : String := "NOP-RESOURCE-INSUFFICIENT"
def errConditionEvalError : String := "NOP-CONDITION-EVAL-ERROR"
def errInputMappingError : String := "NOP-INPUT-MAPPING-ERROR"
def errCompensationFailed : String := "NOP-COMPENSATION-FAILED"
def errCompensationNotSupported : String := "NOP-COMPENSATION-NOT-SUPPORTED"
def errCallbackHmacMissing : String := "NOP-CALLBACK-HMAC-MISSING"
def errCallbackHmacInvalid : String := "NOP-CALLBACK-HMAC-INVALID"

/-! ### Limits -/

def maxDagNodes : Nat := 32
def maxDelegateChainDepth : Int := 3
def maxConditionLength : Nat := 512
def defaultTimeoutMs : UInt64 := 30000
def maxTimeoutMs : UInt64 := 3600000

/-! ### Task states and policies -/

inductive TaskState where
  | pending
  | preflight
  | running
  | waitingSync
  | completed
  | failed
  | cancelled
  | skipped
  | compensating
  | compensated
  deriving DecidableEq, Repr

def TaskState.isTerminal (state : TaskState) : Bool :=
  state = .completed || state = .failed || state = .cancelled

def compensationPolicyBestEffort : String := "best_effort"
def compensationPolicyStrict : String := "strict"
def compensationPolicyOnFailure : String := "on_failure"
def compensationPolicyAlways : String := "always"

/-- Policies are free text; a policy that is not listed never compensates. -/
def compensationRunsOnFailure (policy : String) : Bool :=
  policy ∈ [compensationPolicyBestEffort, compensationPolicyStrict, compensationPolicyOnFailure,
    compensationPolicyAlways]

def compensationRunsOnSuccess (policy : String) : Bool := policy = compensationPolicyAlways

def compensationIsStrict (policy : String) : Bool := policy = compensationPolicyStrict

/-! ### DAGs -/

def goInt (v : UInt64) : Int := v.toInt64.toInt

theorem goInt_of_lt {v : UInt64} (h : v.toNat < 2 ^ 63) : goInt v = v.toNat := by
  rw [goInt, ← Int64.toInt_toBitVec, UInt64.toBitVec_toInt64, BitVec.toInt_eq_toNat_cond]
  simp only [UInt64.toNat_toBitVec]
  split_ifs <;> omega

theorem goInt_of_le {v : UInt64} (h : 2 ^ 63 ≤ v.toNat) : goInt v < 0 := by
  have hv := v.toNat_lt
  rw [goInt, ← Int64.toInt_toBitVec, UInt64.toBitVec_toInt64, BitVec.toInt_eq_toNat_cond]
  simp only [UInt64.toNat_toBitVec]
  split_ifs <;> omega

/-- The backoff fields only set the length of the pause between attempts and are left out. -/
structure RetryPolicy where
  maxRetries : UInt32
  retryOn : List String

structure DagNode (Raw : Type) where
  id : String
  action : String
  agent : String
  inputFrom : List String
  inputMapping : GoMap Raw
  timeoutMs : Option UInt64
  retryPolicy : Option RetryPolicy
  condition : String
  minRequired : UInt64
  compensateAction : String
  compensateParamsMapping : GoMap Raw

structure DagEdge where
  fromNode : String
  toNode : String
  deriving DecidableEq, Repr

/-- A nil `Dag` is the DAG without nodes: the validator answers both the same way. -/
structure TaskDag (Raw : Type) where
  nodes : List (DagNode Raw)
  edges : List DagEdge

namespace TaskDag

variable {Raw : Type} (dag : TaskDag Raw)

def ids : List String := dag.nodes.map DagNode.id

def arcs : List (String × String) := dag.edges.map fun e => (e.fromNode, e.toNode)

def predecessors (id : String) : List String :=
  (dag.edges.filter fun e => e.toNode = id).map DagEdge.fromNode

/-- `allNodes[id]`. -/
def node? (id : String) : Option (DagNode Raw) := dag.nodes.find? fun n => n.id = id

theorem node?_eq_some (hnodup : dag.ids.Nodup) {n : DagNode Raw} (hn : n ∈ dag.nodes) : dag.node? n.id = some n := by
  rw [node?, find?_eq_some_iff_append]
  obtain ⟨before, after, hsplit⟩ := append_of_mem hn
  refine ⟨by simp, before, after, hsplit, ?_⟩
  intro m hm
  rw [ids, hsplit, map_append, nodup_append] at hnodup
  have hne := hnodup.2.2 m.id (mem_map_of_mem hm) n.id mem_cons_self
  simpa using hne

theorem mem_of_node? {id : String} {n : DagNode Raw} (h : dag.node? id = some n) : n ∈ dag.nodes ∧ n.id = id := by
  exact ⟨mem_of_find?_eq_some h, by simpa using find?_some h⟩

end TaskDag

/-! ### Tasks and results -/

structure OrchestratorTask (Raw : Type) where
  taskID : String
  dag : TaskDag Raw
  timeoutMs : UInt64
  maxRetries : UInt32
  priority : String
  callbackURL : String
  callbackSecret : String
  preflight : Bool
  delegateDepth : Int
  compensationPolicy : String

namespace OrchestratorTask

variable {Raw : Type} (task : OrchestratorTask Raw)

def effectiveTimeoutMs : UInt64 := if task.timeoutMs = 0 then defaultTimeoutMs else task.timeoutMs

def effectivePriority : String := if task.priority = "" then "normal" else task.priority

def effectiveCompensationPolicy : String :=
  if task.compensationPolicy = "" then compensationPolicyBestEffort else task.compensationPolicy

end OrchestratorTask

structure SagaCompensationResult where
  attempted : Nat
  succeeded : Nat
  failed : Nat
  failedNodeIDs : List String
  deriving DecidableEq, Repr

structure NopTaskResult (Raw : Type) where
  taskID : String
  finalState : TaskState
  aggregatedResult : Option Raw
  errorCode : String
  errorMessage : String
  nodeResults : GoMap Raw
  compensation : Option SagaCompensationResult

def newSuccessResult {Raw : Type} (taskID : String) (aggregated : Raw) (nodeResults : GoMap Raw)
    (comp : Option SagaCompensationResult) : NopTaskResult Raw :=
  { taskID, finalState := .completed, aggregatedResult := some aggregated, errorCode := "",
    errorMessage := "", nodeResults, compensation := comp }

def newFailureResult {Raw : Type} (taskID errorCode errorMessage : String)
    (comp : Option SagaCompensationResult) : NopTaskResult Raw :=
  { taskID, finalState := .failed, aggregatedResult := none, errorCode, errorMessage,
    nodeResults := ∅, compensation := comp }

structure SubtaskUpdate (Raw : Type) where
  nodeID : String
  subtaskID : String
  state : TaskState
  result : Option Raw
  errorCode : String
  errorMessage : String
  attempt : Nat

structure OrchestratorOptions where
  maxConcurrentNodes : Int
  validateSenderNID : Bool
  enableCallback : Bool
  defaultAggregateStrategy : String

/-- `normalized`; `gomaxprocs` is the answer of the runtime. -/
def OrchestratorOptions.normalized (opts : OrchestratorOptions) (gomaxprocs : Nat) : OrchestratorOptions :=
  { opts with
    maxConcurrentNodes :=
      if opts.maxConcurrentNodes ≤ 0 then gomaxprocs * 2 else opts.maxConcurrentNodes
    defaultAggregateStrategy :=
      if opts.defaultAggregateStrategy = "" then "merge" else opts.defaultAggregateStrategy }

/-- The options an orchestrator is built with. -/
def OrchestratorOptions.Normalized (opts : OrchestratorOptions) : Prop :=
  ∃ given gomaxprocs, 0 < gomaxprocs ∧ OrchestratorOptions.normalized given gomaxprocs = opts

theorem OrchestratorOptions.normalized_iff {opts : OrchestratorOptions} :
    opts.Normalized ↔ 0 < opts.maxConcurrentNodes ∧ opts.defaultAggregateStrategy ≠ "" := by
  constructor
  · rintro ⟨given, gomaxprocs, hpos, rfl⟩
    refine ⟨?_, ?_⟩ <;> unfold normalized <;> dsimp only <;> split_ifs with h
    · omega
    · omega
    · decide
    · exact h
  · rintro ⟨hlimit, hstrategy⟩
    refine ⟨opts, 1, Nat.one_pos, ?_⟩
    rw [normalized, if_neg (by omega), if_neg hstrategy]

/-! ### Back-off -/

/-- The declared constants, and any other value of the type. -/
inductive BackoffStrategy where
  | fixed
  | linear
  | exponential
  | other

def computeDelayMs (strategy : BackoffStrategy) (baseMs maxMs attempt : Int) : Int :=
  let raw : Int := match strategy with
    | .fixed => baseMs
    | .linear => (baseMs * (attempt + 1).bmod (2 ^ 64)).bmod (2 ^ 64)
    | .exponential => (baseMs * 2 ^ (attempt % 2 ^ 64).toNat).bmod (2 ^ 64)
    | .other => 0
  if raw > maxMs then maxMs else raw

namespace BackoffStrategy

variable (strategy : BackoffStrategy) {base max attempt : Int}

/-- What the base is multiplied by. -/
def factor (attempt : Int) : Int :=
  match strategy with
  | fixed => 1
  | linear => attempt + 1
  | exponential => 2 ^ attempt.toNat
  | other => 0

/-- The exact delay fits, or what it wraps to is cut off at the maximum as well. -/
def Fits (base max attempt : Int) : Prop :=
  base * strategy.factor attempt < 2 ^ 63 ∨ max ≤ (base * strategy.factor attempt).bmod (2 ^ 64)

theorem factor_nonneg (h : 0 ≤ attempt) : 0 ≤ strategy.factor attempt := by
  cases strategy with
  | linear => exact add_nonneg h zero_le_one
  | exponential => exact pow_nonneg zero_le_two _
  | fixed => exact zero_le_one
  | other => exact le_rfl

theorem factor_mono {later : Int} (h : attempt ≤ later) : strategy.factor attempt ≤ strategy.factor later := by
  cases strategy with
  | linear => exact Int.add_le_add_right h 1
  | exponential => exact pow_le_pow_right₀ one_le_two (Int.toNat_le_toNat h)
  | _ => exact le_rfl

theorem computeDelayMs_eq (hbase : 0 ≤ base ∧ base < 2 ^ 63) (hmax : max < 2 ^ 63)
    (hattempt : 0 ≤ attempt ∧ attempt < 2 ^ 63) :
    computeDelayMs strategy base max attempt = min (base * strategy.factor attempt) max ↔
      strategy.Fits base max attempt := by
  have hwrapped : computeDelayMs strategy base max attempt =
      min max ((base * strategy.factor attempt).bmod (2 ^ 64)) := by
    rw [min_def_lt]
    cases strategy with
    | fixed =>
      rw [factor, mul_one, Int.bmod_eq_of_le (by omega) (by omega)]
      rfl
    | linear =>
      rw [factor, ← Int.mul_bmod_bmod]
      rfl
    | exponential =>
      rw [computeDelayMs, Int.emod_eq_of_lt hattempt.1 (by omega)]
      rfl
    | other =>
      rw [factor, mul_zero, Int.zero_bmod]
      rfl
  have hexact : 0 ≤ base * strategy.factor attempt := mul_nonneg hbase.1 (strategy.factor_nonneg hattempt.1)
  rw [hwrapped, Fits]
  rcases lt_or_ge (base * strategy.factor attempt) (2 ^ 63) with hfits | hlarge
  · rw [Int.bmod_eq_of_le (by omega) (by omega), min_comm]
    exact iff_of_true rfl (.inl hfits)
  · rw [min_eq_right (hmax.le.trans hlarge), min_eq_left_iff]
    exact ⟨.inr, fun h => h.resolve_left hlarge.not_gt⟩

/-- The delay is exact where it fits, and only there; such delays are never negative and never fall. -/
theorem computeDelayMs_exact_iff (hbase : 0 ≤ base ∧ base < 2 ^ 63) (hmax : 0 ≤ max ∧ max < 2 ^ 63)
    (hattempt : 0 ≤ attempt ∧ attempt < 2 ^ 63) :
    (computeDelayMs strategy base max attempt = min (base * strategy.factor attempt) max ↔
      strategy.Fits base max attempt) ∧
    (strategy.Fits base max attempt → 0 ≤ computeDelayMs strategy base max attempt ∧
      ∀ later, attempt ≤ later → later < 2 ^ 63 → strategy.Fits base max later →
        computeDelayMs strategy base max attempt ≤ computeDelayMs strategy base max later) := by
  have hexact := strategy.computeDelayMs_eq hbase hmax.2 hattempt
  refine ⟨hexact, fun hfits => ?_⟩
  rw [hexact.mpr hfits]
  refine ⟨le_min (mul_nonneg hbase.1 (strategy.factor_nonneg hattempt.1)) hmax.1, ?_⟩
  intro later hle hlater hfits
  rw [(strategy.computeDelayMs_eq hbase hmax.2 ⟨hattempt.1.trans hle, hlater⟩).mpr hfits]
  exact min_le_min_right max (mul_le_mul_of_nonneg_left (strategy.factor_mono hle) hbase.1)

theorem fourth_delay_exact : computeDelayMs exponential 100 5000 3 = 800 :=
  (computeDelayMs_exact_iff exponential (by decide) (by decide) (by decide)).1.mpr (.inl (by decide))

/-- The pause of one attempt is negative, and from the next on there is none. -/
theorem delay_wraps : computeDelayMs exponential 1 1000 10 = 1000 ∧ computeDelayMs exponential 1 1000 63 = -2 ^ 63 ∧
    computeDelayMs exponential 1 1000 64 = 0 := by
  decide

end BackoffStrategy

end NpsSdk.Nop
