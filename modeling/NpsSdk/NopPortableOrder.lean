import NpsSdk.NopPortableEvents

/-! The result of `EvaluateOrchestration` does not depend on how the task is written down. Every loop over a map is
brought into a form that does not mention the order of its keys: what it writes is determined by the set of keys, or it
sorts what it collects. The nodes are taken in the least topological order of their dependencies. -/

namespace NpsSdk.Nop.Portable

open GoMap
open Std.ExtTreeMap

variable {N : Type}

theorem sortStrings_perm (ids : List String) : (sortStrings ids).Perm ids :=
  List.perm_insertionSort _ ids

theorem pairwise_sortStrings (ids : List String) : (sortStrings ids).Pairwise (· ≤ ·) :=
  List.pairwise_insertionSort _ ids

theorem sortStrings_congr {ids ids' : List String} (h : ids.Perm ids') : sortStrings ids = sortStrings ids' := by
  have hperm := ((sortStrings_perm ids).trans h).trans (sortStrings_perm ids').symm
  exact hperm.eq_of_pairwise' (pairwise_sortStrings ids) (pairwise_sortStrings ids')

/-! ### Reordered tasks -/

/-- The same node, up to the order of `depends_on`. -/
structure NodeReordered (node node' : GoMap (Json N)) : Prop where
  dependsOn : (stringSlice node["depends_on"]?).Perm (stringSlice node'["depends_on"]?)
  other : ∀ key, key ≠ "depends_on" → node[key]? = node'[key]?

/-- The same task, up to the order of `nodes` and of each `depends_on`. -/
structure TaskReordered (task task' : GoMap (Json N)) : Prop where
  nodes : ∃ items, (anySlice task["nodes"]?).Perm items ∧
    List.Forall₂ (fun raw raw' => NodeReordered (object (some raw)) (object (some raw'))) items
      (anySlice task'["nodes"]?)
  other : ∀ key, key ≠ "nodes" → task[key]? = task'[key]?

/-- The same map of nodes, up to the order of each `depends_on`. -/
def NodesReordered (nodes nodes' : Nodes N) : Prop :=
  ∀ id : String, Option.Rel NodeReordered nodes[id]? nodes'[id]?

theorem NodeReordered.refl (node : GoMap (Json N)) : NodeReordered node node :=
  ⟨List.Perm.refl _, fun _ _ => rfl⟩

theorem NodeReordered.mem_iff {node node' : GoMap (Json N)} (h : NodeReordered node node')
    {key : String} (hkey : key ≠ "depends_on") : key ∈ node ↔ key ∈ node' := by
  rw [mem_iff_exists, mem_iff_exists, h.other key hkey]

theorem isSome_eq_of_rel {α : Type} {R : α → α → Prop} {a b : Option α} (h : Option.Rel R a b) :
    a.isSome = b.isSome := by
  cases h <;> rfl

theorem getD_rel {α : Type} {R : α → α → Prop} {a b : Option α} (h : Option.Rel R a b) {d : α}
    (hd : R d d) : R (a.getD d) (b.getD d) := by
  cases h with
  | none => exact hd
  | some h => exact h

variable {nodes nodes' : Nodes N}

theorem NodesReordered.mem_iff (h : NodesReordered nodes nodes') (id : String) : id ∈ nodes ↔ id ∈ nodes' := by
  rw [mem_iff_isSome_getElem?, mem_iff_isSome_getElem?, isSome_eq_of_rel (h id)]

theorem addNode_comm (nodes : Nodes N) (x y : Json N) : ((addNode nodes x).bind fun nodes => addNode nodes y) =
      (addNode nodes y).bind fun nodes => addNode nodes x := by
  unfold addNode
  by_cases hab : nodeID x = nodeID y
  · by_cases hb : nodeID y ∈ nodes <;> simp [hab, hb]
  have hba : ¬ nodeID y = nodeID x := fun h => hab h.symm
  by_cases ha : nodeID x ∈ nodes <;> by_cases hb : nodeID y ∈ nodes
  iterate 3 simp [ha, hb]
  · simp only [ha, hb, if_false, Option.bind_some, mem_insert, hab, hba]
    refine congrArg some (ext_getElem? fun k => ?_)
    simp only [getElem?_insert]
    split_ifs with hbk hak
    · exact absurd (hak.trans hbk.symm) hab
    all_goals rfl

theorem addNode_reordered (h : NodesReordered nodes nodes') {raw raw' : Json N}
    (hraw : NodeReordered (object (some raw)) (object (some raw'))) :
    Option.Rel NodesReordered (addNode nodes raw) (addNode nodes' raw') := by
  have hid : nodeID raw' = nodeID raw := congrArg stringValue (hraw.other "id" (by decide)).symm
  unfold addNode
  rw [hid]
  by_cases hmem : nodeID raw ∈ nodes
  · rw [if_pos hmem, if_pos ((h.mem_iff _).mp hmem)]
    exact Option.Rel.none
  rw [if_neg hmem, if_neg (fun hmem' => hmem ((h.mem_iff _).mpr hmem'))]
  refine Option.Rel.some fun key => ?_
  rw [getElem?_insert, getElem?_insert]
  split_ifs
  · exact Option.Rel.some hraw
  · exact h key

theorem collectNodes_reordered {items items' : List (Json N)}
    (h : List.Forall₂ (fun raw raw' => NodeReordered (object (some raw)) (object (some raw'))) items items')
    (hnodes : NodesReordered nodes nodes') :
    Option.Rel NodesReordered (items.foldlM addNode nodes) (items'.foldlM addNode nodes') := by
  induction h generalizing nodes nodes' with
  | nil => exact Option.Rel.some hnodes
  | cons hraw _ ih =>
    rw [List.foldlM_cons, List.foldlM_cons]
    have hstep := addNode_reordered hnodes hraw
    revert hstep
    rcases addNode nodes _ with _ | next <;> rcases addNode nodes' _ with _ | next' <;> intro hstep
    · exact Option.Rel.none
    · cases hstep
    · cases hstep
    · cases hstep with
      | some hnext => exact ih hnext

theorem TaskReordered.collectNodes {task task' : GoMap (Json N)} (h : TaskReordered task task') :
    Option.Rel NodesReordered (collectNodes (anySlice task["nodes"]?)) (collectNodes (anySlice task'["nodes"]?)) := by
  obtain ⟨items, hperm, hitems⟩ := h.nodes
  have hcollect : Portable.collectNodes (anySlice task["nodes"]?) = items.foldlM addNode ∅ :=
    foldlM_perm addNode_comm hperm ∅
  rw [hcollect]
  exact collectNodes_reordered hitems fun id => by simp

/-! ### What a node's dependencies are -/

section

variable {nodes nodes' : Nodes N} (h : NodesReordered nodes nodes')
include h

theorem NodesReordered.keys_perm : nodes.keys.Perm nodes'.keys := by
  rw [List.perm_ext_iff_of_nodup nodup_keys nodup_keys]
  intro id
  rw [mem_keys, mem_keys]
  exact h.mem_iff id

theorem NodesReordered.nodeOf (id : String) : NodeReordered (nodeOf nodes id) (nodeOf nodes' id) :=
  getD_rel (h id) (NodeReordered.refl ∅)

theorem NodesReordered.mem_dependsOn (id dependency : String) :
    dependency ∈ dependsOn nodes id ↔ dependency ∈ dependsOn nodes' id :=
  (h.nodeOf id).dependsOn.mem_iff

end

def dependencyGraph (nodes : Nodes N) : List (String × String) :=
  nodes.keys.flatMap fun id => (dependsOn nodes id).map fun dependency => (dependency, id)

def KnownReferences (nodes : Nodes N) : Prop :=
  ∀ id, ∀ dependency ∈ dependsOn nodes id, dependency ∈ nodes

theorem mem_of_mem_dependsOn {nodes : Nodes N} {id dependency : String}
    (h : dependency ∈ dependsOn nodes id) : id ∈ nodes := by
  by_contra hid
  simp [dependsOn, nodeOf, hid, stringSlice, anySlice] at h

theorem mem_dependencyGraph {nodes : Nodes N} {e : String × String} :
    e ∈ dependencyGraph nodes ↔ e.1 ∈ dependsOn nodes e.2 := by
  simp only [dependencyGraph, List.mem_flatMap, mem_keys, List.mem_map]
  constructor
  · rintro ⟨id, _, dependency, hdependency, rfl⟩
    exact hdependency
  · intro he
    exact ⟨e.2, mem_of_mem_dependsOn he, e.1, he, rfl⟩

theorem dependencyEdges_perm (ord : MapOrder) (site : Site) (nodes : Nodes N) :
    (dependencyEdges ord site nodes).Perm (dependencyGraph nodes) :=
  (ord.perm site nodes.keys).flatMap_right _

/-! ### The order of execution -/

section

variable (ord : MapOrder) (nodes : Nodes N)

theorem inv_readyNodes : Kahn.Inv nodes.keys (dependencyEdges ord .edges nodes) [] (indegree ord nodes)
      (readyNodes ord nodes) := by
  apply Kahn.Inv.initial
  · rw [readyNodes, (sortStrings_perm _).nodup_iff]
    exact ((ord.perm _ _).nodup_iff.mpr nodup_keys).filter _
  · exact fun id => rfl
  · intro id
    rw [readyNodes, (sortStrings_perm _).mem_iff, List.mem_filter, (ord.perm _ _).mem_iff, decide_eq_true_eq]

theorem enqueue_perm (queue : List String) (id : String) : (sortStrings (queue ++ [id])).Perm (id :: queue) :=
  (sortStrings_perm _).trans (List.perm_append_singleton id queue)

theorem count_outgoing (u v : String) : (sortStrings (outgoing ord nodes u)).count v =
    (dependencyEdges ord .edges nodes).count (u, v) :=
  ((sortStrings_perm _).count_eq v).trans (Kahn.count_targets _ u v)

section

variable (hknown : KnownReferences nodes)
include hknown

theorem ends_known :
    ∀ e ∈ dependencyEdges ord .edges nodes, e.1 ∈ nodes.keys ∧ e.2 ∈ nodes.keys := by
  intro e he
  rw [(dependencyEdges_perm ord .edges nodes).mem_iff, mem_dependencyGraph] at he
  rw [mem_keys, mem_keys]
  exact ⟨hknown e.2 e.1 he, mem_of_mem_dependsOn he⟩

theorem portableOrder_eq_iff (order : List String) :
    (portableOrder ord nodes = order ∧ order.length = nodes.keys.length) ↔
      Kahn.IsLeastTopoOrder nodes.keys (dependencyGraph nodes) order := by
  rw [← Kahn.isLeastTopoOrder_congr (List.Perm.refl nodes.keys) fun e =>
    (dependencyEdges_perm ord .edges nodes).mem_iff]
  exact Kahn.kahn_eq_iff_least enqueue_perm (fun _ _ => pairwise_sortStrings _)
    (count_outgoing ord nodes) nodup_keys (ends_known ord nodes hknown)
    (inv_readyNodes ord nodes) (pairwise_sortStrings _) order

theorem portableOrder_length_iff :
    (portableOrder ord nodes).length = nodes.keys.length ↔ Kahn.Acyclic (dependencyGraph nodes) := by
  unfold Kahn.Acyclic
  simp only [← (dependencyEdges_perm ord .edges nodes).mem_iff]
  exact Kahn.kahn_length_iff_acyclic enqueue_perm (count_outgoing ord nodes)
    (ends_known ord nodes hknown) (inv_readyNodes ord nodes) nodup_keys

end

theorem dependencies_known_iff : ((dependencyEdges ord .edges nodes).all fun e => nodes.contains e.1) = true ↔
      KnownReferences nodes := by
  simp only [List.all_eq_true, (dependencyEdges_perm ord .edges nodes).mem_iff, mem_dependencyGraph]
  exact ⟨fun h id dependency hd => h (dependency, id) hd, fun h e he => h e.2 e.1 he⟩

theorem stablePortableTopology_eq_some_iff (order : List String) : stablePortableTopology ord nodes = some order ↔
      KnownReferences nodes ∧ Kahn.IsLeastTopoOrder nodes.keys (dependencyGraph nodes) order := by
  unfold stablePortableTopology
  by_cases hknown : KnownReferences nodes
  · rw [if_pos ((dependencies_known_iff ord nodes).mpr hknown), and_iff_right hknown,
      ← portableOrder_eq_iff ord nodes hknown, length_keys,
      Option.ite_none_right_eq_some, Option.some.injEq]
    constructor
    · rintro ⟨hlength, rfl⟩
      exact ⟨rfl, hlength⟩
    · rintro ⟨rfl, hlength⟩
      exact ⟨hlength, rfl⟩
  · rw [if_neg (fun h => hknown ((dependencies_known_iff ord nodes).mp h))]
    simp [hknown]

/-- There is an order of execution exactly when every reference is known and there is no cycle. -/
theorem stablePortableTopology_isSome_iff : (stablePortableTopology ord nodes).isSome ↔
      KnownReferences nodes ∧ Kahn.Acyclic (dependencyGraph nodes) := by
  unfold stablePortableTopology
  by_cases hknown : KnownReferences nodes
  · rw [if_pos ((dependencies_known_iff ord nodes).mpr hknown), and_iff_right hknown,
      ← portableOrder_length_iff ord nodes hknown]
    split_ifs with hlength <;> simp [hlength]
  · rw [if_neg (fun h => hknown ((dependencies_known_iff ord nodes).mp h))]
    simp [hknown]

end

theorem NodesReordered.topology (h : NodesReordered nodes nodes') (ord ord' : MapOrder) :
    stablePortableTopology ord nodes = stablePortableTopology ord' nodes' := by
  have hknown : KnownReferences nodes ↔ KnownReferences nodes' := by
    unfold KnownReferences
    simp only [h.mem_dependsOn, h.mem_iff]
  have hgraph : ∀ e, e ∈ dependencyGraph nodes ↔ e ∈ dependencyGraph nodes' := by
    intro e
    rw [mem_dependencyGraph, mem_dependencyGraph, h.mem_dependsOn]
  apply Option.ext
  intro order
  rw [stablePortableTopology_eq_some_iff, stablePortableTopology_eq_some_iff, hknown,
    Kahn.isLeastTopoOrder_congr h.keys_perm hgraph]

/-! ### One node -/

section

variable (rt : Runtime N) (ord ord' : MapOrder) {node node' : GoMap (Json N)}

theorem keys_congr (site site' : Site) (ids : List String) : (ord.keys site ids).Perm (ord'.keys site' ids) :=
  (ord.perm site ids).trans (ord'.perm site' ids).symm

theorem rawMessageContext_congr (site : Site) (values : GoMap (Json N)) :
    rawMessageContext rt ord site values = rawMessageContext rt ord' site values :=
  collect_perm (keys_congr ord ord' site site _) _

section

variable (h : NodeReordered node node') (id : String)
include h id

theorem conditionVerdict_congr (results : GoMap (Json N)) :
    conditionVerdict rt ord node id results = conditionVerdict rt ord' node' id results := by
  unfold conditionVerdict
  rw [h.other "condition" (by decide), rawMessageContext_congr rt ord ord']
  exact if_congr (h.mem_iff (by decide)) rfl rfl

theorem mapInputs_congr (tr : Transcript N) :
    mapInputs rt ord node id tr = mapInputs rt ord' node' id tr := by
  have hinput : ∀ mapping : GoMap (Json N),
      mapInput rt ord mapping id tr.results = mapInput rt ord' mapping id tr.results := by
    intro mapping
    funext name
    unfold mapInput
    rw [rawMessageContext_congr rt ord ord']
  unfold mapInputs
  rw [h.other "input_mapping" (by decide)]
  refine if_congr (h.mem_iff (by decide)) ?_ rfl
  dsimp only
  rw [hinput, collectM_perm (keys_congr ord ord' _ (.inputMapping id) _)]

theorem attemptLoop_congr (maxRetries : Int)
    (total index : Nat) (finalError : String) (outcomes : List (Json N)) :
    attemptLoop rt node id maxRetries total index finalError outcomes =
      attemptLoop rt node' id maxRetries total index finalError outcomes := by
  induction outcomes generalizing index finalError with
  | nil => rfl
  | cons rawOutcome rest ih =>
    have hkey : "retry_on" ≠ "depends_on" := by decide
    simp only [attemptLoop, h.other "retry_on" hkey, h.mem_iff hkey, ih]

end

end

/-! ### Compensation and aggregation -/

/-- The marks of `collect` are the nodes the failed one depends on, directly or through others. -/
theorem mem_ancestors {nodes : Nodes N} (hknown : KnownReferences nodes) (failedID id : String) :
    id ∈ ancestors nodes failedID ↔ Relation.TransGen (fun v w => w ∈ dependsOn nodes v) failedID id := by
  have hnext : ∀ v, ∀ w ∈ dependsOn nodes v, w ∈ nodes.keys := by
    intro v w hw
    rw [mem_keys]
    exact hknown v w hw
  apply Reachability.mem_collect_iff hnext
  rw [length_keys]
  exact Nat.lt_succ_self _

section

variable {nodes nodes' : Nodes N} (h : NodesReordered nodes nodes')
include h

theorem NodesReordered.hasAction (id : String) : hasAction nodes id = hasAction nodes' id := by
  rw [Bool.eq_iff_iff]
  exact (h.nodeOf id).mem_iff (by decide)

theorem NodesReordered.compensationFails (id : String) : compensationFails nodes id = compensationFails nodes' id := by
  unfold Portable.compensationFails
  rw [(h.nodeOf id).other "compensation_outcome" (by decide)]

theorem NodesReordered.compensateLoop (strict : Bool) (ids : List String) (done : Compensation) :
    compensateLoop strict nodes ids done = compensateLoop strict nodes' ids done := by
  induction ids generalizing done with
  | nil => rfl
  | cons id rest ih => simp only [Portable.compensateLoop, h.hasAction, h.compensationFails, ih]

theorem NodesReordered.candidates (hknown : KnownReferences nodes)
    (hknown' : KnownReferences nodes') (failedID : String) (topology : List String) (states : GoMap NodeState) :
    compensationCandidates failedID topology nodes states = compensationCandidates failedID topology nodes' states := by
  have hancestors : ∀ id, id ∈ ancestors nodes failedID ↔ id ∈ ancestors nodes' failedID := by
    intro id
    rw [mem_ancestors hknown, mem_ancestors hknown']
    simp only [h.mem_dependsOn]
  unfold compensationCandidates
  simp only [hancestors]

theorem NodesReordered.hasOutgoing (ord ord' : MapOrder) (id : String) :
    hasOutgoing ord nodes id = hasOutgoing ord' nodes' id := by
  unfold Portable.hasOutgoing
  rw [Bool.eq_iff_iff, List.any_eq_true, List.any_eq_true]
  simp only [(dependencyEdges_perm _ _ _).mem_iff, mem_dependencyGraph, h.mem_dependsOn]

theorem NodesReordered.preflightFails (topology : List String) :
    preflightFails nodes topology = preflightFails nodes' topology := by
  have hkey : "preflight_available" ≠ "depends_on" := by decide
  unfold Portable.preflightFails
  congr 1
  funext id
  rw [(h.nodeOf id).other _ hkey]
  congr 1
  rw [Bool.eq_iff_iff]
  exact (h.nodeOf id).mem_iff hkey

end

theorem mergeValue_congr (rt : Runtime N) (ord ord' : MapOrder) (aggregate : String)
    (merged : GoMap (Json N)) (value : Json N × Nat) :
    mergeValue rt ord aggregate merged value = mergeValue rt ord' aggregate merged value := by
  obtain ⟨value, index⟩ := value
  cases value with
  | object =>
    dsimp only [mergeValue]
    rw [sortStrings_congr (keys_congr ord ord' _ (.mergedKeys index) _)]
  | _ => rfl

section

variable (rt : Runtime N) (ord ord' : MapOrder) {task task' : GoMap (Json N)}
  (hother : ∀ key, key ≠ "nodes" → task[key]? = task'[key]?) {nodes nodes' : Nodes N}
  (h : NodesReordered nodes nodes')
include hother h

theorem aggregatePortable_congr (topology : List String) (states : GoMap NodeState) (results : GoMap (Json N)) :
    aggregatePortable rt ord task topology nodes states results =
      aggregatePortable rt ord' task' topology nodes' states results := by
  have hmerge : ∀ aggregate, mergeValue rt ord aggregate = mergeValue rt ord' aggregate :=
    fun aggregate => funext fun merged => funext (mergeValue_congr rt ord ord' aggregate merged)
  unfold aggregatePortable
  simp only [h.hasOutgoing ord ord', hother "aggregate" (by decide), hmerge]

variable (hknown : KnownReferences nodes) (hknown' : KnownReferences nodes')
include hknown hknown'

theorem compensatePortable_congr (failedID : String) (topology : List String)
    (states : GoMap NodeState) (events : List String) : compensatePortable task failedID topology nodes states events =
      compensatePortable task' failedID topology nodes' states events := by
  have hactions : hasAction nodes = hasAction nodes' := funext h.hasAction
  unfold compensatePortable
  simp [hother "compensation_policy" (by decide), h.candidates hknown hknown', hactions, h.compensateLoop]

theorem failTask_congr (topology : List String) (id finalError : String) (tr : Transcript N) :
    failTask rt task topology nodes id finalError tr = failTask rt task' topology nodes' id finalError tr := by
  unfold failTask
  rw [compensatePortable_congr hother h hknown hknown']

theorem runNode_congr (topology : List String) (tr : Transcript N) (id : String) :
    runNode rt ord task topology nodes tr id = runNode rt ord' task' topology nodes' tr id := by
  have hnode := h.nodeOf id
  have hmax := hnode.other "max_retries" (by decide)
  have hattempts := hnode.other "attempts" (by decide)
  unfold runNode
  dsimp only
  rw [hother "cancel_before" (by decide), hother "max_retries" (by decide), hmax, hattempts,
    conditionVerdict_congr rt ord ord' hnode, mapInputs_congr rt ord ord' hnode]
  simp only [attemptLoop_congr rt hnode, failTask_congr rt hother h hknown hknown']

theorem runTask_congr (topology : List String) :
    runTask rt ord task topology nodes = runTask rt ord' task' topology nodes' := by
  have hnode : runNode rt ord task topology nodes = runNode rt ord' task' topology nodes' := by
    funext tr id
    exact runNode_congr rt ord ord' hother h hknown hknown' topology tr id
  unfold runTask startEvents
  simp only [hnode, hother "preflight" (by decide), aggregatePortable_congr rt ord ord' hother h]

end

/-! ### The whole task -/

section

variable (rt : Runtime N) {task task' : GoMap (Json N)}

theorem evaluateOrchestration_congr (ord ord' : MapOrder) (h : TaskReordered task task') :
    evaluateOrchestration rt ord task = evaluateOrchestration rt ord' task' := by
  have hcollect := h.collectNodes
  unfold evaluateOrchestration
  revert hcollect
  rcases collectNodes (anySlice task["nodes"]?) with _ | nodes <;>
    rcases collectNodes (anySlice task'["nodes"]?) with _ | nodes' <;> intro hcollect
  · rfl
  · cases hcollect
  · cases hcollect
  · cases hcollect with
    | some hnodes =>
      have htopology := hnodes.topology ord ord'
      have hpreflight : boolValue task["preflight"]? = boolValue task'["preflight"]? := by
        rw [h.other "preflight" (by decide)]
      dsimp only
      rw [htopology]
      cases horder : stablePortableTopology ord' nodes' with
      | none => rfl
      | some order =>
        have hknown' := ((stablePortableTopology_eq_some_iff _ _ _).mp horder).1
        have hknown := ((stablePortableTopology_eq_some_iff _ _ _).mp (htopology.trans horder)).1
        dsimp only
        rw [hpreflight, hnodes.preflightFails, runTask_congr rt ord ord' h.other hnodes hknown hknown']

/-- With an order of execution the task fails in its preflight, or its nodes are taken in that order. -/
theorem evaluateOrchestration_runsIn {ord : MapOrder} {nodes : Nodes N} {order : List String} {r : Result N}
    (hnodes : collectNodes (anySlice task["nodes"]?) = some nodes)
    (horder : stablePortableTopology ord nodes = some order) (h : evaluateOrchestration rt ord task = some r) :
    r.events = ["task:preflight", "task:failed"] ∨ ∃ done, RunsIn task order done r := by
  unfold evaluateOrchestration at h
  rw [hnodes] at h
  dsimp only at h
  rw [horder] at h
  dsimp only at h
  split_ifs at h
  · cases h
    exact .inl rfl
  · exact .inr (runTask_runsIn h)

theorem evaluateOrchestration_cycle_iff (ord : MapOrder) {nodes : Nodes N}
    (hnodes : collectNodes (anySlice task["nodes"]?) = some nodes) :
    evaluateOrchestration rt ord task = some (emptyPortableFailure rt errTaskDagCycle) ↔
      ¬ (KnownReferences nodes ∧ Kahn.Acyclic (dependencyGraph nodes)) := by
  rw [← stablePortableTopology_isSome_iff ord nodes, Option.not_isSome_iff_eq_none]
  cases horder : stablePortableTopology ord nodes with
  | none =>
    refine iff_of_true ?_ rfl
    rw [evaluateOrchestration, hnodes]
    dsimp only
    rw [horder]
  | some order =>
    refine iff_of_false (fun h => ?_) nofun
    -- the failure of a cycle is the only result with a single event
    rcases evaluateOrchestration_runsIn rt hnodes horder h with hevents | ⟨done, hruns⟩
    · have hlength : 1 = 2 := congrArg List.length hevents
      omega
    · obtain ⟨logs, undoLogs, -, -, hevents⟩ := hruns.events
      have hlength := congrArg List.length hevents
      have hstart : 0 < (startEvents task).length := by
        unfold startEvents
        split_ifs <;> decide
      simp only [emptyPortableFailure, portableResult, Transcript.ofEvents, List.length_append,
        List.length_singleton] at hlength
      omega

/-- The result does not depend on the order of `nodes`, of any `depends_on` or of any loop over a map.
The nodes are taken in the least topological order of their dependencies, which exists exactly when
every reference is known and there is no cycle; without it the task fails with the error of a cycle. -/
theorem evaluateOrchestration_order_independent (ord ord' : MapOrder) (h : TaskReordered task task') :
    evaluateOrchestration rt ord task = evaluateOrchestration rt ord' task' ∧
      ∀ nodes, collectNodes (anySlice task["nodes"]?) = some nodes →
        (evaluateOrchestration rt ord task = some (emptyPortableFailure rt errTaskDagCycle) ↔
          ¬ (KnownReferences nodes ∧ Kahn.Acyclic (dependencyGraph nodes))) ∧
        (KnownReferences nodes ∧ Kahn.Acyclic (dependencyGraph nodes) → ∃ order,
          Kahn.IsLeastTopoOrder nodes.keys (dependencyGraph nodes) order ∧
          ∀ r, evaluateOrchestration rt ord task = some r →
            r.events = ["task:preflight", "task:failed"] ∨ ∃ done, RunsIn task order done r) := by
  refine ⟨evaluateOrchestration_congr rt ord ord' h, fun nodes hnodes =>
    ⟨evaluateOrchestration_cycle_iff rt ord hnodes, fun hgood => ?_⟩⟩
  obtain ⟨order, horder⟩ := Option.isSome_iff_exists.mp ((stablePortableTopology_isSome_iff ord nodes).mpr hgood)
  exact ⟨order, ((stablePortableTopology_eq_some_iff ord nodes order).mp horder).2,
    fun r => evaluateOrchestration_runsIn rt hnodes horder⟩

end

/-! ### A small task -/

/-- A codec without numbers that keeps no value, and no conditions or paths. -/
def plainRuntime : Runtime Empty where
  intOf n := nomatch n
  marshal _ := none
  unmarshal _ := none
  evaluateCondition _ _ := none
  resolvePath _ _ := none

def MapOrder.forward : MapOrder := ⟨fun _ ids => ids, fun _ ids => List.Perm.refl ids⟩

def MapOrder.backward : MapOrder := ⟨fun _ ids => ids.reverse, fun _ ids => List.reverse_perm ids⟩

def scriptedNode (id : String) (dependencies : List String) : Json Empty :=
  .object [("id", .string id), ("depends_on", .array (dependencies.map .string)),
    ("attempts", .array [.object [("kind", .string "success")]])]

def scriptedTask (nodes : List (Json Empty)) : GoMap (Json Empty) := Json.toMap [("nodes", .array nodes)]

theorem stringSlice_scriptedNode (id : String) (dependencies : List String) :
    stringSlice (object (some (scriptedNode id dependencies)))["depends_on"]? = dependencies := by
  have hentry : (object (some (scriptedNode id dependencies)))["depends_on"]? =
      some (.array (dependencies.map .string)) := by
    simp only [object, scriptedNode, Json.toMap, List.foldl, getElem?_insert]
    rfl
  rw [hentry]
  show (dependencies.map Json.string).map (fun item => stringValue (some item)) = dependencies
  rw [List.map_map]
  exact List.map_id dependencies

theorem scriptedNode_reordered {dependencies dependencies' : List String} (id : String)
    (h : dependencies.Perm dependencies') : NodeReordered (object (some (scriptedNode id dependencies)))
      (object (some (scriptedNode id dependencies'))) where
  dependsOn := by
    rw [stringSlice_scriptedNode, stringSlice_scriptedNode]
    exact h
  other key hkey := by
    simp [object, scriptedNode, Json.toMap, getElem?_insert, hkey.symm]

theorem scriptedTask_reordered {nodes items nodes' : List (Json Empty)} (hperm : nodes.Perm items)
    (hitems : List.Forall₂ (fun raw raw' => NodeReordered (object (some raw)) (object (some raw'))) items nodes') :
    TaskReordered (scriptedTask nodes) (scriptedTask nodes') where
  nodes := ⟨items, by simpa [scriptedTask, Json.toMap, anySlice] using hperm,
    by simpa [scriptedTask, Json.toMap, anySlice] using hitems⟩
  other key hkey := by
    simp [scriptedTask, Json.toMap, hkey.symm]

/-- A node `c` that joins `b` and `a`, written in two ways. -/
def joinTask : GoMap (Json Empty) :=
  scriptedTask [scriptedNode "c" ["b", "a"], scriptedNode "b" [], scriptedNode "a" []]

def joinTaskReordered : GoMap (Json Empty) :=
  scriptedTask [scriptedNode "b" [], scriptedNode "a" [], scriptedNode "c" ["a", "b"]]

theorem joinTask_reordered : TaskReordered joinTask joinTaskReordered :=
  scriptedTask_reordered (List.perm_append_singleton _ [_, _]).symm
    (.cons (scriptedNode_reordered "b" (.refl _)) (.cons (scriptedNode_reordered "a" (.refl _))
      (.cons (scriptedNode_reordered "c" (.swap _ _ _)) .nil)))

theorem joinTask_order_independent : TaskReordered joinTask joinTaskReordered ∧
    evaluateOrchestration plainRuntime .forward joinTask =
      evaluateOrchestration plainRuntime .backward joinTaskReordered ∧
    ∃ nodes order, collectNodes (anySlice joinTask["nodes"]?) = some nodes ∧
      Kahn.IsLeastTopoOrder nodes.keys (dependencyGraph nodes) order ∧
      ∀ r, evaluateOrchestration plainRuntime .forward joinTask = some r →
        r.events = ["task:preflight", "task:failed"] ∨ ∃ done, RunsIn joinTask order done r := by
  obtain ⟨hsame, horders⟩ :=
    evaluateOrchestration_order_independent plainRuntime .forward .backward joinTask_reordered
  obtain ⟨nodes, hnodes⟩ : ∃ nodes, collectNodes (anySlice joinTask["nodes"]?) = some nodes :=
    Option.isSome_iff_exists.mp (by decide +kernel)
  have horder : ((collectNodes (anySlice joinTask["nodes"]?)).bind (stablePortableTopology .forward)).isSome := by
    decide +kernel
  rw [hnodes] at horder
  obtain ⟨order, hleast, hruns⟩ :=
    (horders nodes hnodes).2 ((stablePortableTopology_isSome_iff .forward nodes).mp horder)
  exact ⟨joinTask_reordered, hsame, nodes, order, hnodes, hleast, hruns⟩

example : (evaluateOrchestration plainRuntime .backward joinTask).map Result.events =
    some ["task:running", "a:attempt:1", "a:completed", "b:attempt:1", "b:completed",
      "c:attempt:1", "c:completed", "task:completed"] := by
  decide +kernel

end NpsSdk.Nop.Portable
