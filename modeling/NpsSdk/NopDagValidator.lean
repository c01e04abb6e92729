import NpsSdk.NopModels
import NpsSdk.Kahn

/-! The DAG validator. It looks at the edges for cycles, start and end nodes, and at `input_from`
only for unknown ids; the order it returns is a topological order of the edges. -/

namespace NpsSdk.Nop

open List TaskDag

variable {Raw : Type}

structure DagValidationResult where
  isValid : Bool
  errorCode : String
  errorMessage : String
  topologicalOrder : List String
  deriving DecidableEq, Repr

def dagSuccess (order : List String) : DagValidationResult :=
  { isValid := true, errorCode := "", errorMessage := "", topologicalOrder := order }

def dagFailure (code message : String) : DagValidationResult :=
  { isValid := false, errorCode := code, errorMessage := message, topologicalOrder := [] }

/-- The first id that occurred before. -/
def firstDuplicate : List String → List String → Option String
  | _, [] => none
  | seen, id :: rest => if id ∈ seen then some id else firstDuplicate (id :: seen) rest

def unknownEdgeEnd (ids : List String) : List DagEdge → Option String
  | [] => none
  | edge :: rest =>
    if edge.fromNode ∉ ids then
      some ("Edge references unknown source node: '" ++ edge.fromNode ++ "'.")
    else if edge.toNode ∉ ids then
      some ("Edge references unknown target node: '" ++ edge.toNode ++ "'.")
    else unknownEdgeEnd ids rest

def unknownUpstream (ids : List String) : List (DagNode Raw) → Option String
  | [] => none
  | node :: rest =>
    match node.inputFrom.find? fun upstream => upstream ∉ ids with
    | some upstream =>
      some ("Node '" ++ node.id ++ "' references unknown upstream node '" ++ upstream ++
        "' in input_from.")
    | none => unknownUpstream ids rest

namespace TaskDag

variable (dag : TaskDag Raw)

def adjacency (id : String) : List String :=
  (dag.edges.filter fun e => e.fromNode = id).map DagEdge.toNode

def inDegree (id : String) : Int := dag.edges.countP fun e => e.toNode = id

def startSeeds : List String := dag.ids.filter fun id => dag.inDegree id = 0

def sorted : List String :=
  Kahn.kahn (fun queue id => queue ++ [id]) dag.adjacency dag.ids.length dag.inDegree dag.startSeeds

end TaskDag

variable (dag : TaskDag Raw)

/-- The checks in the order in which they are made; a failed one gives its code and message. -/
def dagChecks : List (Option (String × String)) :=
  [ if dag.nodes.length = 0 then some (errTaskDagInvalid, "DAG must contain at least one node.")
    else none,
    if maxDagNodes < dag.nodes.length then
      some (errTaskDagTooLarge, "DAG contains " ++ toString dag.nodes.length ++
        " nodes, exceeding the maximum of " ++ toString maxDagNodes ++ ".")
    else none,
    (firstDuplicate [] dag.ids).map fun id =>
      (errTaskDagInvalid, "Duplicate node ID: '" ++ id ++ "'."),
    (unknownEdgeEnd dag.ids dag.edges).map fun message => (errTaskDagInvalid, message),
    (unknownUpstream dag.ids dag.nodes).map fun message => (errTaskDagInvalid, message),
    if ∃ id ∈ dag.ids, dag.inDegree id = 0 then none
    else some (errTaskDagInvalid, "DAG must have at least one start node (no incoming edges)."),
    if ∃ id ∈ dag.ids, (dag.adjacency id).length = 0 then none
    else some (errTaskDagInvalid, "DAG must have at least one end node (no outgoing edges)."),
    (dag.nodes.find? fun node => maxConditionLength < node.condition.utf8ByteSize).map fun node =>
      (errConditionEvalError, "Node '" ++ node.id ++ "' condition expression exceeds " ++
        toString maxConditionLength ++ " characters."),
    if dag.sorted.length ≠ dag.ids.length then some (errTaskDagCycle, "DAG contains a cycle.")
    else none ]

def validateDag : DagValidationResult :=
  match (dagChecks dag).findSome? id with
  | some (code, message) => dagFailure code message
  | none => dagSuccess dag.sorted

/-! ### What an accepted DAG guarantees -/

theorem firstDuplicate_eq_none {seen ids : List String} :
    firstDuplicate seen ids = none ↔ ids.Nodup ∧ ∀ id ∈ ids, id ∉ seen := by
  induction ids generalizing seen with
  | nil => simp [firstDuplicate]
  | cons id ids ih =>
    rw [firstDuplicate, nodup_cons, forall_mem_cons]
    split_ifs with hseen
    · simp [hseen]
    · simp only [ih, mem_cons, not_or, forall_and, hseen]
      grind

theorem unknownEdgeEnd_eq_none {ids : List String} {edges : List DagEdge} :
    unknownEdgeEnd ids edges = none ↔ ∀ e ∈ edges, e.fromNode ∈ ids ∧ e.toNode ∈ ids := by
  induction edges with
  | nil => simp [unknownEdgeEnd]
  | cons edge edges ih =>
    rw [unknownEdgeEnd, forall_mem_cons, ← ih]
    split_ifs with hfrom hto <;> simp_all

theorem unknownUpstream_eq_none {ids : List String} {nodes : List (DagNode Raw)} :
    unknownUpstream ids nodes = none ↔ ∀ n ∈ nodes, ∀ u ∈ n.inputFrom, u ∈ ids := by
  induction nodes with
  | nil => simp [unknownUpstream]
  | cons node nodes ih =>
    rw [unknownUpstream, forall_mem_cons, ← ih]
    cases hfind : node.inputFrom.find? fun upstream => upstream ∉ ids with
    | some upstream =>
      have hunknown := find?_some hfind
      simp only [decide_eq_true_eq] at hunknown
      simp only [reduceCtorEq, false_iff]
      exact fun h => hunknown (h.1 upstream (mem_of_find?_eq_some hfind))
    | none =>
      have hall := find?_eq_none.mp hfind
      simp only [decide_eq_true_eq, not_not] at hall
      exact (and_iff_right hall).symm

structure WellFormed (dag : TaskDag Raw) : Prop where
  nonempty : dag.nodes ≠ []
  size : dag.nodes.length ≤ maxDagNodes
  nodup : dag.ids.Nodup
  edges_known : ∀ e ∈ dag.edges, e.fromNode ∈ dag.ids ∧ e.toNode ∈ dag.ids
  inputs_known : ∀ n ∈ dag.nodes, ∀ u ∈ n.inputFrom, u ∈ dag.ids
  conditions : ∀ n ∈ dag.nodes, n.condition.utf8ByteSize ≤ maxConditionLength
  acyclic : Kahn.Acyclic dag.arcs

/-- The facts the scheduler may rely on once the validator has accepted a DAG. -/
structure Accepted (dag : TaskDag Raw) (order : List String) : Prop where
  nonempty : dag.nodes ≠ []
  nodup : dag.ids.Nodup
  edges_known : ∀ e ∈ dag.edges, e.fromNode ∈ dag.ids ∧ e.toNode ∈ dag.ids
  inputs_known : ∀ n ∈ dag.nodes, ∀ u ∈ n.inputFrom, u ∈ dag.ids
  order_eq : order = dag.sorted
  topological : Kahn.IsTopoOrder dag.ids dag.arcs order

theorem TaskDag.count_adjacency (u v : String) : (dag.adjacency u).count v = dag.arcs.count (u, v) := by
  unfold adjacency arcs
  induction dag.edges with
  | nil => rfl
  | cons e edges ih =>
    rw [map_cons, count_cons, ← ih]
    by_cases hu : e.fromNode = u
    · simp [hu, count_cons]
    · simp [hu]

theorem TaskDag.inDegree_eq (v : String) : dag.inDegree v = dag.arcs.countP fun e => decide (e.2 = v) := by
  rw [arcs, countP_map]
  rfl

variable {dag : TaskDag Raw}

theorem TaskDag.arcs_known (h : ∀ e ∈ dag.edges, e.fromNode ∈ dag.ids ∧ e.toNode ∈ dag.ids) :
    ∀ e ∈ dag.arcs, e.1 ∈ dag.ids ∧ e.2 ∈ dag.ids := by
  intro e he
  obtain ⟨edge, hedge, rfl⟩ := mem_map.mp he
  exact h edge hedge

/-- The start of the validator's loop meets the invariant of Kahn's algorithm. -/
theorem TaskDag.inv_initial (hnodup : dag.ids.Nodup) : Kahn.Inv dag.ids dag.arcs [] dag.inDegree dag.startSeeds := by
  apply Kahn.Inv.initial (hnodup.filter _) dag.inDegree_eq
  intro v
  simp only [mem_filter, decide_eq_true_eq]

section

variable (hnodup : dag.ids.Nodup) (hedges : ∀ e ∈ dag.edges, e.fromNode ∈ dag.ids ∧ e.toNode ∈ dag.ids)
include hnodup hedges

theorem TaskDag.sorted_isTopoOrder (hlength : dag.sorted.length = dag.ids.length) :
    Kahn.IsTopoOrder dag.ids dag.arcs dag.sorted := by
  have henqueue : ∀ (queue : List String) (v : String), (queue ++ [v]).Perm (v :: queue) :=
    fun queue v => perm_append_singleton v queue
  have hknown := arcs_known hedges
  have hinv := inv_initial hnodup
  exact ⟨(Kahn.kahn_perm_iff_length henqueue dag.count_adjacency hknown hinv).mpr hlength,
    Kahn.kahn_respects henqueue dag.count_adjacency hknown hinv⟩

theorem TaskDag.sorted_length_iff : dag.sorted.length = dag.ids.length ↔ Kahn.Acyclic dag.arcs :=
  Kahn.kahn_length_iff_acyclic (fun queue v => perm_append_singleton v queue) dag.count_adjacency
    (arcs_known hedges) (inv_initial hnodup) hnodup

end

/-- The first node of a topological order has no incoming edge and the last no outgoing one. -/
theorem TaskDag.start_end {order : List String} (horder : Kahn.IsTopoOrder dag.ids dag.arcs order)
    (hedges : ∀ e ∈ dag.edges, e.fromNode ∈ dag.ids ∧ e.toNode ∈ dag.ids) (hne : dag.nodes ≠ []) :
    (∃ id ∈ dag.ids, dag.inDegree id = 0) ∧ ∃ id ∈ dag.ids, (dag.adjacency id).length = 0 := by
  cases order with
  | nil => exact absurd (map_eq_nil_iff.mp (nil_perm.mp horder.1)) hne
  | cons first rest =>
    refine ⟨⟨first, horder.1.mem_iff.mp mem_cons_self, ?_⟩, ?_⟩
    · rw [dag.inDegree_eq, Int.natCast_eq_zero, countP_eq_zero]
      rintro ⟨u, v⟩ he hv
      cases of_decide_eq_true hv
      exact not_mem_nil (horder.2.2.1 u he)
    · refine ⟨_, horder.1.mem_iff.mp (getLast_mem (cons_ne_nil first rest)), ?_⟩
      by_contra hlength
      obtain ⟨v, hv⟩ := exists_mem_of_ne_nil _ (ne_nil_of_length_pos (Nat.pos_of_ne_zero hlength))
      have he := count_pos_iff.mp ((dag.count_adjacency _ v).symm ▸ count_pos_iff.mpr hv)
      have hmem : v ∈ first :: rest := horder.1.mem_iff.mpr (arcs_known hedges _ he).2
      have hlt := ((horder.2.source he hmem).resolve_left not_mem_nil).2
      have hlast := idxOf_lt_length_iff.mpr hmem
      rw [getLast_eq_getElem, horder.2.nodup.idxOf_getElem] at hlt
      omega

theorem dagChecks_eq_none_iff : (dagChecks dag).findSome? id = none ↔ WellFormed dag := by
  simp only [dagChecks, findSome?_eq_none_iff, forall_mem_cons, id_eq, firstDuplicate_eq_none,
    unknownEdgeEnd_eq_none, unknownUpstream_eq_none, find?_eq_none, decide_eq_true_eq, not_lt,
    Option.map_eq_none_iff, ite_eq_right_iff, ite_eq_left_iff, reduceCtorEq, imp_false, not_not]
  constructor
  · rintro ⟨hempty, hsize, ⟨hnodup, -⟩, hedges, hinputs, -, -, hconditions, hlength, -⟩
    exact ⟨fun hnil => hempty (by rw [hnil]; rfl), hsize, hnodup, hedges, hinputs, hconditions,
      (sorted_length_iff hnodup hedges).mp hlength⟩
  · intro h
    have hlength := (sorted_length_iff h.nodup h.edges_known).mpr h.acyclic
    have hends := start_end (sorted_isTopoOrder h.nodup h.edges_known hlength) h.edges_known
      h.nonempty
    exact ⟨fun hnil => h.nonempty (length_eq_zero_iff.mp hnil), h.size,
      ⟨h.nodup, fun _ _ => not_mem_nil⟩, h.edges_known, h.inputs_known, hends.1, hends.2, h.conditions,
      hlength, fun _ hmem => absurd hmem not_mem_nil⟩

theorem validateDag_isValid : (validateDag dag).isValid = true ↔ WellFormed dag := by
  rw [← dagChecks_eq_none_iff, validateDag]
  cases hproblem : (dagChecks dag).findSome? id <;> simp [dagSuccess, dagFailure]

theorem validateDag_accepted (h : (validateDag dag).isValid = true) :
    Accepted dag (validateDag dag).topologicalOrder := by
  have hwf := validateDag_isValid.mp h
  have horder : (validateDag dag).topologicalOrder = dag.sorted := by
    rw [validateDag, dagChecks_eq_none_iff.mpr hwf]
    rfl
  have hlength := (sorted_length_iff hwf.nodup hwf.edges_known).mpr hwf.acyclic
  exact ⟨hwf.nonempty, hwf.nodup, hwf.edges_known, hwf.inputs_known, horder,
    horder ▸ sorted_isTopoOrder hwf.nodup hwf.edges_known hlength⟩

/-- The validator accepts exactly the well-formed DAGs, and the order it gives then is topological. -/
theorem validateDag_exact (dag : TaskDag Raw) : ((validateDag dag).isValid = true ↔ WellFormed dag) ∧
    ((validateDag dag).isValid = true → Kahn.IsTopoOrder dag.ids dag.arcs (validateDag dag).topologicalOrder) :=
  ⟨validateDag_isValid, fun h => (validateDag_accepted h).topological⟩

namespace Accepted

variable {dag : TaskDag Raw} {order : List String} (h : Accepted dag order)
include h

theorem order_nodup : order.Nodup := h.topological.1.nodup_iff.mpr h.nodup

theorem mem_order_iff (id : String) : id ∈ order ↔ id ∈ dag.ids := h.topological.1.mem_iff

theorem node?_eq_some {n : DagNode Raw} (hn : n ∈ dag.nodes) : dag.node? n.id = some n :=
  dag.node?_eq_some h.nodup hn

theorem eq_of_id_eq {n m : DagNode Raw} (hn : n ∈ dag.nodes) (hm : m ∈ dag.nodes) (hid : n.id = m.id) : n = m := by
  have hnode := h.node?_eq_some hn
  rw [hid, h.node?_eq_some hm] at hnode
  exact (Option.some.inj hnode).symm

end Accepted

end NpsSdk.Nop
