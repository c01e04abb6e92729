import NpsSdk.NopRunDagSteps

/-! When `runDag` hands a node over. The thresholds of `input_from` are kept as long as no
`min_required` is so large that its conversion to `int` wraps; the order of the edges, which the
validator checks and the scheduler never reads, is kept as long as the `input_from` lists imply it. -/

namespace NpsSdk.Nop

open List RunState

variable {Raw : Type}

/-! ### Thresholds, concurrency and snapshots -/

/-- `K` as documented: `min_required` if it is positive, else every entry of `input_from`. -/
def DagNode.threshold (n : DagNode Raw) : Nat :=
  if 0 < n.minRequired then n.minRequired.toNat else n.inputFrom.length

/-- The safety of a scheduler with room for `limit` nodes. -/
structure SchedulingSafe (limit : Int) (b : Board Raw) : Prop where
  once : b.startedIDs.Nodup
  threshold : ∀ d ∈ b.dispatches, d.node.inputFrom ≠ [] →
    d.node.threshold ≤ successDeps d.node.inputFrom d.nodeStates
  bound : (b.inFlight.size : Int) ≤ limit
  snapshot : ∀ d ∈ b.dispatches, Snapshot d.context d.nodeStates d.received

variable {n : DagNode Raw}

theorem DagNode.required_eq_threshold (h : n.minRequired.toNat < 2 ^ 63) : n.required = n.threshold := by
  unfold required threshold
  split_ifs
  · exact goInt_of_lt h
  · rfl

/-- A wrapped threshold is negative, so nothing is asked of the dependencies. -/
theorem DagNode.required_neg (h : 2 ^ 63 ≤ n.minRequired.toNat) : n.required < 0 := by
  have hpos : 0 < n.minRequired := by
    exact Nat.lt_of_lt_of_le (by decide) h
  rw [required, if_pos hpos]
  exact goInt_of_le h

theorem kOfNFails_eq_false {states : GoMap TaskState} : kOfNFails n states = false ↔
      (n.inputFrom ≠ [] → n.required ≤ successDeps n.inputFrom states) := by
  rw [kOfNFails, decide_eq_false_iff_not, not_and, not_lt, ne_eq, length_eq_zero_iff]

namespace DagRun

theorem Inv.schedulingSafe {run : DagRun Raw} {s : RunState Raw} (h : run.Inv s)
    (hsmall : ∀ n ∈ run.task.dag.nodes, n.inputFrom ≠ [] → n.minRequired.toNat < 2 ^ 63) :
    SchedulingSafe run.opts.maxConcurrentNodes s.toBoard where
  once := h.starts.once
  threshold d hd hinputs := by
    have hmet := kOfNFails_eq_false.mp (h.starts.threshold d hd) hinputs
    rw [DagNode.required_eq_threshold (hsmall d.node (h.starts.known d hd) hinputs)] at hmet
    omega
  bound := h.maps.bound
  snapshot := h.starts.snapshots

def withRoom (run : DagRun Raw) : DagRun Raw :=
  { run with
    opts := { run.opts with maxConcurrentNodes := run.task.dag.nodes.length + 1 }
    normalized := by
      refine OrchestratorOptions.normalized_iff.mpr
        ⟨?_, (OrchestratorOptions.normalized_iff.mp run.normalized).2⟩
      show (0 : Int) < run.task.dag.nodes.length + 1
      omega }

theorem withRoom_room (run : DagRun Raw) :
    (run.withRoom.task.dag.nodes.length : Int) < run.withRoom.opts.maxConcurrentNodes := by
  show (run.task.dag.nodes.length : Int) < run.task.dag.nodes.length + 1
  omega

/-- With room for every node the first pass hands over each node whose threshold asks for nothing. -/
theorem first_pass {run : DagRun Raw} (hroom : run.task.dag.nodes.length < run.opts.maxConcurrentNodes)
    {n : DagNode Raw} (hn : n ∈ run.task.dag.nodes) (hrequired : n.required ≤ 0) :
    ∃ t d, Transition.run run.step .initial [.loop] = some t ∧ d ∈ t.dispatches ∧
      d.node = n ∧ successDeps n.inputFrom d.nodeStates = 0 := by
  have hinv := run.inv_initial
  have hzero : successDeps n.inputFrom (initial : RunState Raw).nodeStates = 0 := by
    rw [successDeps, countDeps]
    simp [initial, isIn]
  have hready : n ∈ (initial : RunState Raw).readyNodes run.task.dag := by
    rw [hinv.maps.mem_readyNodes]
    refine ⟨hn, Std.ExtTreeMap.getElem?_empty, Std.ExtTreeMap.not_mem_empty, ?_⟩
    unfold areDepsDone
    rw [hzero]
    split_ifs <;> first | rfl | contradiction
  have hkept : n ∈ (initial : RunState Raw).kept run.task.dag := by
    rw [hinv.maps.mem_kept run.accepted.nodup]
    refine ⟨hready, kOfNFails_eq_false.mpr fun _ => ?_⟩
    rw [hzero]
    exact hrequired
  have hfits : (((initial : RunState Raw).marked run.task.dag).inFlight.size +
      ((initial : RunState Raw).kept run.task.dag).length : Int) ≤
      run.opts.maxConcurrentNodes := by
    have hsize : ((initial : RunState Raw).marked run.task.dag).inFlight.size = 0 := rfl
    have hlength := hinv.maps.length_kept_le run.accepted.nodup
    omega
  obtain ⟨d, hd, rfl, hstates⟩ := Board.mem_launch_dispatches hfits hkept
  refine ⟨run.pass .initial, d, ?_, ?_, rfl, ?_⟩
  · have hsize : (initial : RunState Raw).nodeStates.size < run.task.dag.nodes.length :=
      length_pos_iff.mpr run.accepted.nonempty
    show (some (run.loopHead .initial)).bind _ = _
    rw [loopHead, if_pos hsize]
    rfl
  · rw [pass_board]
    exact hd
  · rw [hstates, hinv.maps.successDeps_marked run.accepted.nodup]
    exact hzero

/-- A DAG is scheduled safely in every run of every call exactly if no node with inputs has a
`min_required` that wraps. -/
theorem schedulingSafe_iff (call : DagRun Raw) :
    (∀ run : DagRun Raw, run.task.dag = call.task.dag → ∀ (events : List (Event Raw)) (t : RunState Raw),
      Transition.run run.step .initial events = some t → SchedulingSafe run.opts.maxConcurrentNodes t.toBoard) ↔
    ∀ n ∈ call.task.dag.nodes, n.inputFrom ≠ [] → n.minRequired.toNat < 2 ^ 63 := by
  refine ⟨?_, ?_⟩
  · intro hsafe n hn hinputs
    by_contra hlarge
    have hrequired := DagNode.required_neg (not_lt.mp hlarge)
    obtain ⟨t, d, ht, hd, rfl, hzero⟩ := first_pass call.withRoom_room hn (by omega)
    have hmet := (hsafe call.withRoom rfl [.loop] t ht).threshold d hd hinputs
    have hpos : 0 < d.node.minRequired := by
      exact Nat.lt_of_lt_of_le (by decide) (not_lt.mp hlarge)
    rw [DagNode.threshold, if_pos hpos] at hmet
    omega
  · intro hsmall run hdag events t hrun
    rw [← hdag] at hsmall
    exact (inv_run hrun).schedulingSafe hsmall

/-- Two nodes; the second waits for the first and asks for `2 ^ 63` successes. -/
def wrappedDag : TaskDag Unit :=
  { nodes := [plainNode "a" [], { plainNode "b" ["a"] with minRequired := 2 ^ 63 }]
    edges := [⟨"a", "b"⟩] }

def wrappedCall : DagRun Unit := plainCall wrappedDag 4 (by decide)

/-- The second node is handed over in the first pass, before the first has ended. -/
theorem wrapped_threshold_unsafe : ∃ t, Transition.run wrappedCall.step .initial [.loop] = some t ∧
      ¬SchedulingSafe wrappedCall.opts.maxConcurrentNodes t.toBoard := by
  refine ⟨_, rfl, ?_⟩
  intro hsafe
  have hmet := hsafe.threshold
  revert hmet
  decide +kernel

end DagRun

/-! ### The order of the edges -/

/-- A node is handed over once its predecessors along the edges have ended, or once enough of them
have succeeded where the node asks for fewer than all; and no node without `min_required` is handed
over before one of its predecessors. -/
structure EdgeOrdered (dag : TaskDag Raw) (b : Board Raw) : Prop where
  waits : ∀ d ∈ b.dispatches,
    (∀ u ∈ dag.predecessors d.node.id, u ∈ d.nodeStates) ∨
      (0 < d.node.minRequired ∧
        d.node.minRequired.toNat ≤ successDeps (dag.predecessors d.node.id) d.nodeStates)
  linear : b.dispatches.Pairwise fun d d' =>
    d.node.minRequired = 0 → d'.node.id ∉ dag.predecessors d.node.id

namespace TaskDag

variable (dag : TaskDag Raw)

/-- The `input_from` lists make `v` wait for `u`: `v` is in a set of nodes none of which reaches its
threshold with inputs outside of the set and other than `u`. -/
def Waits (u v : String) : Prop :=
  ∃ guard : List String, v ∈ guard ∧ ∀ n ∈ dag.nodes, n.id ∈ guard →
    n.inputFrom ≠ [] ∧ (n.inputFrom.countP (fun w => decide (w ∉ u :: guard)) : Int) < n.required

/-- The `input_from` lists imply the order of the edges: a node waits for each of its predecessors,
or counts only predecessors towards its `min_required`. -/
def InputsCoverEdges : Prop :=
  ∀ n ∈ dag.nodes, (∀ u ∈ dag.predecessors n.id, dag.Waits u n.id) ∨
    (0 < n.minRequired ∧ n.minRequired.toNat < 2 ^ 63 ∧ n.inputFrom ≠ [] ∧
      n.inputFrom.Subperm (dag.predecessors n.id))

end TaskDag

namespace Board

variable {dag : TaskDag Raw} {b : Board Raw}

/-- The first node of a guarding set is not handed over while `u` is open, hence none is. -/
theorem DispatchInv.guarded (h : b.DispatchInv dag) {u : String} {guard : List String}
    (hguard : ∀ n ∈ dag.nodes, n.id ∈ guard → n.inputFrom ≠ [] ∧
      (n.inputFrom.countP (fun w => decide (w ∉ u :: guard)) : Int) < n.required)
    (before : List (Dispatch Raw)) (d : Dispatch Raw) (after : List (Dispatch Raw))
    (hsplit : b.dispatches = before ++ d :: after) (hd : d.node.id ∈ guard) : u ∈ d.nodeStates := by
  induction hlength : before.length using Nat.strong_induction_on generalizing before d after with
  | _ k ih =>
    subst hlength
    by_contra hopen
    have hmem : d ∈ b.dispatches := by
      rw [hsplit]
      exact mem_append_right _ mem_cons_self
    obtain ⟨hinputs, hfew⟩ := hguard d.node (h.known d hmem) hd
    have hmet := kOfNFails_eq_false.mp (h.threshold d hmem) hinputs
    have hle : successDeps d.node.inputFrom d.nodeStates ≤
        d.node.inputFrom.countP fun w => decide (w ∉ u :: guard) := by
      refine countP_mono_left fun w _ hw => decide_eq_true ?_
      obtain ⟨state, hstate, hok⟩ := isIn_eq_true.mp hw
      intro hin
      rcases mem_cons.mp hin with rfl | hin
      · exact hopen ((GoMap.mem_iff_exists _ _).mpr ⟨state, hstate⟩)
      -- a success inside the set was handed over earlier, so `u` had ended by then
      have hearlier := h.earlier before d after hsplit w state hstate
        (fun hfailed => absurd (hfailed ▸ hok) (by decide))
      obtain ⟨d', hd', rfl⟩ := mem_map.mp hearlier
      have hgrows : Grows d'.nodeStates d.nodeStates :=
        (pairwise_append.mp (hsplit ▸ h.ordered)).2.2 d' hd' d mem_cons_self
      obtain ⟨x, y, rfl⟩ := append_of_mem hd'
      have hu := ih x.length (by simp) x d' (y ++ d :: after) (by simp [hsplit]) hin rfl
      obtain ⟨ustate, hustate⟩ := (GoMap.mem_iff_exists _ _).mp hu
      exact hopen ((GoMap.mem_iff_exists _ _).mpr ⟨ustate, hgrows u ustate hustate⟩)
    omega

theorem DispatchInv.waits (h : b.DispatchInv dag) {d : Dispatch Raw} (hd : d ∈ b.dispatches)
    {u : String} (hwaits : dag.Waits u d.node.id) : u ∈ d.nodeStates := by
  obtain ⟨guard, hmem, hguard⟩ := hwaits
  obtain ⟨before, after, hsplit⟩ := append_of_mem hd
  exact h.guarded hguard before d after hsplit hmem

theorem DispatchInv.edgeOrdered (h : b.DispatchInv dag) (hcover : dag.InputsCoverEdges) : EdgeOrdered dag b where
  waits d hd := by
    rcases hcover d.node (h.known d hd) with hwaits | ⟨hpos, hsmall, hinputs, hsub⟩
    · exact Or.inl fun u hu => h.waits hd (hwaits u hu)
    refine Or.inr ⟨hpos, ?_⟩
    have hmet := kOfNFails_eq_false.mp (h.threshold d hd) hinputs
    rw [DagNode.required_eq_threshold hsmall, DagNode.threshold, if_pos hpos] at hmet
    have hle := hsub.countP_le (isIn d.nodeStates [.completed, .skipped])
    unfold successDeps countDeps at hmet ⊢
    omega
  linear := by
    refine h.ordered.imp_of_mem ?_
    intro d d' hd hd' hgrows hall hpred
    rcases hcover d.node (h.known d hd) with hwaits | ⟨hpos, -⟩
    · obtain ⟨state, hstate⟩ := (GoMap.mem_iff_exists _ _).mp (h.waits hd (hwaits _ hpred))
      have hstated := hgrows _ state hstate
      rw [h.unstated d' hd'] at hstated
      cases hstated
    · rw [hall] at hpos
      exact absurd hpos (by decide)

end Board

/-- Where the `input_from` lists imply the order of the edges, every run keeps it. -/
theorem edgeOrdered_of_inputsCoverEdges (run : DagRun Raw) (hcover : run.task.dag.InputsCoverEdges)
    (events : List (Event Raw)) (t : RunState Raw) (hrun : Transition.run run.step .initial events = some t) :
    EdgeOrdered run.task.dag t.toBoard :=
  (DagRun.inv_run hrun).starts.edgeOrdered hcover

theorem chainCall_covers : chainCall.task.dag.InputsCoverEdges := by
  intro n hn
  refine Or.inl fun u hu => ?_
  simp only [chainCall, plainCall, plainTask, mem_cons, not_mem_nil, or_false] at hn
  rcases hn with rfl | rfl
  · cases hu
  · rw [mem_singleton.mp hu]
    exact ⟨["b"], mem_cons_self, by decide⟩

/-- The node behind the edge is handed over after the first one has been received. -/
theorem chainCall_ordered : ∃ t, Transition.run chainCall.step .initial
        [.loop, .nodeEnd "a" [plainAnswer true], .receive "a", .loop] = some t ∧
      t.startedIDs = ["a", "b"] ∧ EdgeOrdered chainCall.task.dag t.toBoard :=
  ⟨_, rfl, by decide +kernel, edgeOrdered_of_inputsCoverEdges chainCall chainCall_covers
    [.loop, .nodeEnd "a" [plainAnswer true], .receive "a", .loop] _ rfl⟩

def bareEdgeCall : DagRun Unit :=
  plainCall { nodes := [plainNode "a" [], plainNode "b" []], edges := [⟨"a", "b"⟩] } 1 (by decide)

/-- Both nodes are handed over in the first pass. -/
theorem bareEdge_unordered : ∃ t, Transition.run bareEdgeCall.step .initial [.loop] = some t ∧
      ¬EdgeOrdered bareEdgeCall.task.dag t.toBoard := by
  refine ⟨_, rfl, ?_⟩
  intro hordered
  have hwaits := hordered.waits
  revert hwaits
  decide +kernel

end NpsSdk.Nop
