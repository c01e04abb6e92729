import NpsSdk.NopCompensation
import NpsSdk.NopCompletion

/-! Runs of `runDag` that execute one node at a time and end with their first failed node. Where inputs and edges
coincide and there are no thresholds, the scheduler notices the failure exactly if the node is an end node or an input
of one. -/

namespace NpsSdk.Nop

open List

variable {Raw : Type}

/-- Inputs and edges coincide, and every node needs all of its inputs. -/
structure TaskDag.Plain (dag : TaskDag Raw) : Prop where
  inputs : ∀ n ∈ dag.nodes, ∀ d, d ∈ n.inputFrom ↔ (d, n.id) ∈ dag.arcs
  minRequired : ∀ n ∈ dag.nodes, n.minRequired = 0

/-- A failure of the node fails an end node. -/
def TaskDag.Noticed (dag : TaskDag Raw) (id : String) : Prop :=
  ∃ e ∈ dag.endNodes, e.id = id ∨ id ∈ e.inputFrom

/-! ### One failed node -/

variable {n : DagNode Raw} {states : GoMap TaskState} {adjacency : String → List String}

theorem DagNode.required_plain (hmin : n.minRequired = 0) : n.required = n.inputFrom.length := by
  rw [required, hmin, if_neg (by decide)]

/-- A node whose inputs are decided and that misses its threshold has a failed input. -/
theorem failedDeps_pos (hmin : n.minRequired = 0) (hdone : areDepsDone n states = true)
    (hfails : kOfNFails n states = true) : 0 < failedDeps n.inputFrom states := by
  have hrequired := n.required_plain hmin
  simp only [kOfNFails, decide_eq_true_eq] at hfails
  unfold areDepsDone at hdone
  rw [if_neg hfails.1, if_neg (by omega)] at hdone
  split_ifs at hdone with hmissing
  omega

theorem failedDeps_pos_iff {deps : List String} :
    0 < failedDeps deps states ↔ ∃ d ∈ deps, states[d]? = some .failed := by
  rw [failedDeps, countDeps]
  simp [isIn_eq_true]

theorem not_canEndNodeStillSucceed_iff (hmin : n.minRequired = 0) : canEndNodeStillSucceed n states = false ↔
      n.inputFrom = [] ∨ ∃ d ∈ n.inputFrom, states[d]? = some .failed := by
  rw [← failedDeps_pos_iff, canEndNodeStillSucceed, n.required_plain hmin, ← length_eq_zero_iff]
  split_ifs with hempty
  · simp [hempty]
  · simp only [decide_eq_false_iff_not]
    omega

theorem mem_of_reachLoop {target : String} {fuel : Nat} {visited queue : List String}
    (h : reachLoop adjacency target fuel visited queue = true) : target ∈ queue ∨ ∃ v, target ∈ adjacency v := by
  induction fuel generalizing visited queue with
  | zero => cases h
  | succ fuel ih =>
    cases queue with
    | nil => cases h
    | cons current queue =>
      rw [reachLoop] at h
      split_ifs at h with htarget hvisited
      · exact .inl (htarget ▸ mem_cons_self)
      · exact (ih h).imp_left (mem_cons_of_mem current)
      rcases ih h with hmem | hedge
      · rcases mem_append.mp hmem with hqueue | hedge
        · exact .inl (mem_cons_of_mem current hqueue)
        · exact .inr ⟨current, hedge⟩
      · exact .inr hedge

/-- What is queued is found before the fuel is used up. -/
theorem reachLoop_of_queued {target : String} {fuel : Nat} {visited before after : List String}
    (hfuel : before.length < fuel) : reachLoop adjacency target fuel visited (before ++ target :: after) = true := by
  induction before generalizing fuel visited after with
  | nil =>
    obtain ⟨fuel, rfl⟩ := Nat.exists_eq_succ_of_ne_zero (Nat.ne_of_gt hfuel)
    simp [reachLoop]
  | cons current before ih =>
    obtain ⟨fuel, rfl⟩ := Nat.exists_eq_succ_of_ne_zero (Nat.ne_of_gt (Nat.zero_lt_of_lt hfuel))
    have hrest : before.length < fuel := by simpa using hfuel
    rw [cons_append, reachLoop]
    split_ifs
    · rfl
    · exact ih hrest
    · rw [append_assoc]
      exact ih hrest

theorem canReachEndNode_of_arc {dag : TaskDag Raw} {u v : String} (h : (u, v) ∈ dag.arcs) :
    canReachEndNode v u dag = true := by
  have hadj : v ∈ dag.adjacency u := by
    rw [← count_pos_iff, dag.count_adjacency, count_pos_iff]
    exact h
  have hlength : (dag.adjacency u).length ≤ dag.edges.length := by
    rw [TaskDag.adjacency, length_map]
    exact length_filter_le _ _
  obtain ⟨before, after, hsplit⟩ := append_of_mem hadj
  rw [hsplit, length_append, length_cons] at hlength
  rw [canReachEndNode, reachLoop]
  split_ifs with heq hvisited
  · rfl
  · cases hvisited
  · rw [hsplit]
    exact reachLoop_of_queued (by omega)

namespace DagRun

variable {run : DagRun Raw}

/-- With one failed node the scheduler aborts at once if the node is an end node without inputs or an
input of an end node. -/
theorem mustAbort_iff (hplain : run.task.dag.Plain) {id : String} {states : GoMap TaskState}
    (honly : ∀ d, states[d]? = some .failed ↔ d = id) : run.mustAbort id states = true ↔
      ∃ e ∈ run.task.dag.endNodes, (e.id = id ∧ e.inputFrom = []) ∨ id ∈ e.inputFrom := by
  rw [mustAbort, any_eq_true]
  refine exists_congr fun e => and_congr_right fun he => ?_
  have hnode : e ∈ run.task.dag.nodes := (mem_filter.mp he).1
  rw [Bool.and_eq_true, Bool.not_eq_true', not_canEndNodeStillSucceed_iff (hplain.minRequired e hnode)]
  simp only [honly, exists_eq_right]
  constructor
  · rintro ⟨hreach, hempty | hinput⟩
    · refine .inl ⟨?_, hempty⟩
      rcases mem_of_reachLoop hreach with hself | ⟨v, hedge⟩
      · exact mem_singleton.mp hself
      · rw [← count_pos_iff, TaskDag.count_adjacency, count_pos_iff, ← hplain.inputs e hnode, hempty] at hedge
        cases hedge
    · exact .inr hinput
  · rintro (⟨rfl, hempty⟩ | hinput)
    · exact ⟨by simp [canReachEndNode, reachLoop], .inl hempty⟩
    · exact ⟨canReachEndNode_of_arc ((hplain.inputs e hnode id).mp hinput), .inr hinput⟩

/-! ### Leaving with a failure -/

end DagRun

def Phase.aborting : Phase Raw → Prop
  | .compensate _ _ _ _ exit => exit.isSuccess = false
  | .returned result => result.finalState = .failed
  | _ => False

namespace DagRun

variable {run : DagRun Raw} {s s' : RunState Raw}

theorem buildAbortResult_aborting (code message : String) : (run.buildAbortResult code message s).phase.aborting := by
  unfold buildAbortResult startCompensation
  split_ifs <;> rfl

theorem afterCompensation_aborting {todo : List String} {attempted succeeded : Nat}
    {failedIDs : List String} {exit : Exit Raw} (h : exit.isSuccess = false) :
    (run.afterCompensation todo attempted succeeded failedIDs exit s).phase.aborting := by
  cases exit with
  | success => cases h
  | abort => cases todo <;> rfl

/-- The code after the loop reports failure if an end node has failed; otherwise it returns without
compensation under a policy that does not compensate successful tasks. -/
theorem finish_cases (hpolicy : compensationRunsOnSuccess run.task.effectiveCompensationPolicy = false) :
    ((∃ e ∈ run.task.dag.endNodes, s.nodeStates[e.id]? = some .failed) ∧ (run.finish s).phase.aborting) ∨
    ((∀ e ∈ run.task.dag.endNodes, s.nodeStates[e.id]? ≠ some .failed) ∧
      (∃ result, (run.finish s).phase = .returned result) ∧ (run.finish s).compensations = s.compensations) := by
  unfold finish
  by_cases hfailed : ∃ e ∈ run.task.dag.endNodes, s.nodeStates[e.id]? = some .failed
  · obtain ⟨e, he, hstate⟩ := hfailed
    rw [if_pos ⟨failedNodes_ne_nil hstate, e.id, mem_map_of_mem he, hstate⟩]
    exact .inl ⟨⟨e, he, hstate⟩, buildAbortResult_aborting _ _⟩
  · have hends : ¬∃ id ∈ run.endNodeIDs, s.nodeStates[id]? = some .failed := by
      rintro ⟨id, hid, hstate⟩
      obtain ⟨e, he, rfl⟩ := mem_map.mp hid
      exact hfailed ⟨e, he, hstate⟩
    rw [if_neg fun h => hends h.2, hpolicy]
    exact .inr ⟨fun e he hstate => hfailed ⟨e, he, hstate⟩, ⟨_, rfl⟩, rfl⟩

/-! ### Runs up to the first failure -/

def Quiet (outcomes : List (String × NodeOutcome Raw)) : Prop := ∀ m ∈ outcomes, m.2.state ≠ .failed

/-- The first failure is the last outcome the loop took in. -/
structure FailsLast (s : RunState Raw) (init : List (String × NodeOutcome Raw))
    (m : String × NodeOutcome Raw) : Prop where
  received : s.received = init ++ [m]
  quiet : Quiet init
  failed : m.2.state = .failed

variable (run) in
/-- How far a sequential run has come. -/
inductive Sequential (s : RunState Raw) : Prop
  | quiet (hquiet : Quiet s.received) (hstates : ∀ id : String, s.nodeStates[id]? ≠ some .failed)
      (hidle : s.phase = .loop → s.inFlight.size = 0)
  | struck {init : List (String × NodeOutcome Raw)} {m : String × NodeOutcome Raw}
      (hlast : FailsLast s init m) (honly : ∀ id : String, s.nodeStates[id]? = some .failed ↔ id = m.1)
      (hphase : s.phase = .loop) (hidle : s.inFlight.size = 0)
      (habort : ¬run.mustAbort m.1 s.nodeStates = true)
  | beyond {init rest : List (String × NodeOutcome Raw)} {m : String × NodeOutcome Raw}
      (hreceived : s.received = init ++ m :: rest) (hfailed : m.2.state = .failed)
      (hmore : rest ≠ [] ∨ s.phase = .wait)
  | aborted {init : List (String × NodeOutcome Raw)} {m : String × NodeOutcome Raw}
      (hlast : FailsLast s init m) (haborting : s.phase.aborting)
      (hnoticed : run.task.dag.Noticed m.1)
  | missed {init : List (String × NodeOutcome Raw)} {m : String × NodeOutcome Raw}
      (hlast : FailsLast s init m) (hreturned : ∃ result, s.phase = .returned result)
      (hcompensations : s.compensations = []) (hunnoticed : ¬run.task.dag.Noticed m.1)

section Steps

variable (hplain : run.task.dag.Plain)
  (hpolicy : compensationRunsOnSuccess run.task.effectiveCompensationPolicy = false)

theorem passBoard_received (b : Board Raw) : (run.passBoard b).received = b.received := by
  obtain ⟨inFlight, dispatches, hlaunch⟩ := Board.launch_frame run.opts.maxConcurrentNodes
    (b.kept run.task.dag) (b.marked run.task.dag)
  rw [passBoard, hlaunch]
  rfl

theorem passBoard_nodeStates (b : Board Raw) : (run.passBoard b).nodeStates = (b.marked run.task.dag).nodeStates :=
  Board.launch_nodeStates _ _ _

include hplain in
/-- What has failed after a pass had failed before it or has an input that had. -/
theorem passBoard_failed {b : Board Raw} (h : b.MapInv run.task.dag run.opts.maxConcurrentNodes)
    {n : DagNode Raw} (hn : n ∈ run.task.dag.nodes) (hfailed : (run.passBoard b).nodeStates[n.id]? = some .failed) :
    b.nodeStates[n.id]? = some .failed ∨ ∃ d ∈ n.inputFrom, b.nodeStates[d]? = some .failed := by
  rw [passBoard_nodeStates] at hfailed
  by_cases hmarked : ∃ m ∈ b.readyNodes run.task.dag, kOfNFails m b.nodeStates = true ∧ m.id = n.id
  · obtain ⟨m, hm, hfails, hid⟩ := hmarked
    obtain ⟨hnode, -, -, hdone⟩ := (h.mem_readyNodes m).mp hm
    rw [run.accepted.eq_of_id_eq hnode hn hid] at hdone hfails
    exact .inr (failedDeps_pos_iff.mp (failedDeps_pos (hplain.minRequired n hn) hdone hfails))
  · rw [h.marked_other run.accepted.nodup fun m hm hfails hid => hmarked ⟨m, hm, hfails, hid⟩]
      at hfailed
    exact .inl hfailed

variable {init : List (String × NodeOutcome Raw)} {m : String × NodeOutcome Raw}

/-- The loop ends after an unnoticed failure or a noticed one, as its end nodes tell. -/
theorem sequential_finish (hpolicy : compensationRunsOnSuccess run.task.effectiveCompensationPolicy = false)
    (hlast : FailsLast s init m) (hnone : s.compensations = [])
    (hends : run.task.dag.Noticed m.1 ↔ ∃ e ∈ run.task.dag.endNodes, s.nodeStates[e.id]? = some .failed) :
    run.Sequential (run.finish s) := by
  have hkept : FailsLast (run.finish s) init m := by
    refine ⟨?_, hlast.quiet, hlast.failed⟩
    rw [finish_leaves.board]
    exact hlast.received
  rcases finish_cases (s := s) hpolicy with ⟨hfailed, haborting⟩ | ⟨hfine, hreturned, hsame⟩
  · exact .aborted hkept haborting (hends.mpr hfailed)
  refine .missed hkept hreturned (hsame.trans hnone) fun hnoticed => ?_
  obtain ⟨e, he, hstate⟩ := hends.mp hnoticed
  exact hfine e he hstate

include hplain in
theorem sequential_loopHead_quiet (h : run.Inv s) (hctx : s.ctxErr = false)
    (hquiet : Quiet s.received) (hstates : ∀ id : String, s.nodeStates[id]? ≠ some .failed) :
    run.Sequential (run.loopHead s) := by
  have hleft : ∀ v : RunState Raw, Quiet v.received →
      (∀ id : String, v.nodeStates[id]? ≠ some .failed) → run.Sequential (run.finish v) := by
    intro v hv hvstates
    have hleaves : run.Leaves v (run.finish v) := finish_leaves
    refine .quiet ?_ ?_ ?_
    · rw [hleaves.board]
      exact hv
    · rw [hleaves.board]
      exact hvstates
    · intro hphase
      exact absurd (by rw [hphase]; rfl) hleaves.not_active
  have hpassed : ∀ id : String, (run.passBoard s.toBoard).nodeStates[id]? ≠ some .failed := by
    intro id hfailed
    have hpassInv := h.maps.marked run.accepted.nodup
    rw [passBoard_nodeStates] at hfailed
    obtain ⟨n, hn, rfl⟩ := mem_map.mp (hpassInv.stated id _ hfailed).1
    rw [← passBoard_nodeStates] at hfailed
    rcases passBoard_failed hplain h.maps hn hfailed with hold | ⟨d, -, hold⟩
    · exact hstates _ hold
    · exact hstates d hold
  have hreceived : Quiet (run.passBoard s.toBoard).received := by
    rw [passBoard_received]
    exact hquiet
  unfold loopHead pass
  rw [hctx, if_neg Bool.false_ne_true]
  dsimp only
  split_ifs
  · exact hleft _ hreceived hpassed
  · exact .quiet hreceived hpassed fun hphase => nomatch hphase
  · exact hleft s hquiet hstates

variable {m : String × NodeOutcome Raw} {init : List (String × NodeOutcome Raw)}

include hplain hpolicy in
theorem sequential_loopHead_struck (h : run.Inv s) (hctx : s.ctxErr = false) (hnone : s.compensations = [])
    (hlast : FailsLast s init m) (honly : ∀ id : String, s.nodeStates[id]? = some .failed ↔ id = m.1)
    (habort : ¬run.mustAbort m.1 s.nodeStates = true) : run.Sequential (run.loopHead s) := by
  rw [mustAbort_iff hplain honly] at habort
  -- an end node that takes the failed node as an input would have aborted the task
  have hself : run.task.dag.Noticed m.1 → ∃ e ∈ run.task.dag.endNodes, e.id = m.1 := by
    rintro ⟨e, he, hid | hinput⟩
    · exact ⟨e, he, hid⟩
    · exact absurd ⟨e, he, .inr hinput⟩ habort
  unfold loopHead pass
  rw [hctx, if_neg Bool.false_ne_true]
  dsimp only
  split_ifs
  · refine sequential_finish hpolicy (m := m)
      ⟨(passBoard_received _).trans hlast.received, hlast.quiet, hlast.failed⟩ hnone ⟨?_, ?_⟩
    · intro hnoticed
      obtain ⟨e, he, hid⟩ := hself hnoticed
      refine ⟨e, he, ?_⟩
      rw [passBoard_nodeStates]
      exact h.maps.grows_marked run.accepted.nodup _ _ ((honly e.id).mpr hid)
    · rintro ⟨e, he, hfailed⟩
      refine ⟨e, he, ?_⟩
      rcases passBoard_failed hplain h.maps (mem_filter.mp he).1 hfailed with
        hold | ⟨d, hd, hold⟩
      · exact .inl ((honly e.id).mp hold)
      · exact .inr ((honly d).mp hold ▸ hd)
  · exact .beyond ((passBoard_received _).trans hlast.received) hlast.failed (.inr rfl)
  · apply sequential_finish hpolicy hlast hnone
    constructor
    · intro hnoticed
      obtain ⟨e, he, hid⟩ := hself hnoticed
      exact ⟨e, he, (honly e.id).mpr hid⟩
    · rintro ⟨e, he, hfailed⟩
      exact ⟨e, he, .inl ((honly e.id).mp hfailed)⟩

theorem drained_of_idle {code message : String} (hidle : s.inFlight.size = 0) :
    run.drained code message s = run.buildAbortResult code message s := if_pos hidle

include hplain in
/-- The loop takes in the outcome of the only node in flight. -/
theorem sequential_onMessage (h : run.Inv s) (hlimit : run.opts.maxConcurrentNodes = 1)
    (hquiet : Quiet s.received) (hstates : ∀ id : String, s.nodeStates[id]? ≠ some .failed)
    (hm : m ∈ s.sending) : run.Sequential (run.onMessage m.1 m.2 s) := by
  have hidle : (s.inFlight.erase m.1).size = 0 := by
    have hbound := h.maps.bound
    have hflight := (h.maps.sending m hm).2
    rw [Std.ExtTreeMap.size_erase, if_pos (Std.ExtTreeMap.contains_iff_mem.mpr hflight)]
    omega
  have hfailed : ∀ id : String, (s.nodeStates.insert m.1 m.2.state)[id]? = some .failed ↔
      id = m.1 ∧ m.2.state = .failed := by
    intro id
    rw [GoMap.getElem?_insert]
    split_ifs with hid
    · simp [hid]
    · exact iff_of_false (hstates id) fun hsame => hid hsame.1.symm
  by_cases hstate : m.2.state = .failed
  · have honly : ∀ id : String, (s.nodeStates.insert m.1 m.2.state)[id]? = some .failed ↔
        id = m.1 := fun id => (hfailed id).trans (and_iff_left hstate)
    unfold onMessage
    dsimp only
    split_ifs with habort
    · have hnoticed : run.task.dag.Noticed m.1 := by
        obtain ⟨e, he, hcase⟩ := (mustAbort_iff hplain honly).mp habort.2
        exact ⟨e, he, hcase.imp_left And.left⟩
      rw [drained_of_idle]
      · refine .aborted (m := m) ⟨?_, hquiet, hstate⟩ (buildAbortResult_aborting _ _) hnoticed
        rw [(buildAbortResult_leaves _ _).board]
        rfl
      · exact hidle
    · exact .struck (m := m) ⟨rfl, hquiet, hstate⟩ honly rfl hidle
        fun hmust => habort ⟨hstate, hmust⟩
  · unfold onMessage
    rw [if_neg fun h => hstate h.1]
    refine .quiet ?_ ?_ fun _ => hidle
    · exact forall_mem_append.mpr ⟨hquiet, forall_mem_singleton.mpr hstate⟩
    · exact fun id hid => hstate ((hfailed id).mp hid).2

variable {e : Event Raw}

theorem received_step (hstep : run.step s e = some s') :
    ∃ more, s'.received = s.received ++ more ∧ (s.phase = .wait → more ≠ [] ∨ s'.phase = .wait) := by
  cases step_cases hstep with
  | ctxDone | nodeEnd => exact ⟨[], (append_nil _).symm, .inr⟩
  | loop hphase =>
    refine ⟨[], ?_, fun hwait => ?_⟩
    · rw [append_nil]
      unfold loopHead
      split_ifs
      · rw [(buildAbortResult_leaves _ _).board]
      · rw [pass_board, passBoard_received]
      · rw [finish_leaves.board]
    · rw [hphase] at hwait
      cases hwait
  | @receive m hphase hm =>
    refine ⟨[m], ?_, fun _ => .inl (cons_ne_nil _ _)⟩
    rw [onMessage_board]
    rfl
  | drain hphase hm =>
    refine ⟨[], ?_, fun hwait => ?_⟩
    · rw [append_nil, drained_board]
      rfl
    · rw [hphase] at hwait
      cases hwait
  | compensate hphase =>
    refine ⟨[], ?_, fun hwait => ?_⟩
    · rw [append_nil, afterCompensation_board]
    · rw [hphase] at hwait
      cases hwait

theorem ctxErr_step (hstep : run.step s e = some s') (he : e.isCtxDone = false) :
    s'.ctxErr = s.ctxErr := by
  cases step_cases hstep with
  | ctxDone => cases he
  | loop =>
    unfold loopHead pass
    dsimp only
    split_ifs
    · exact (buildAbortResult_leaves _ _).ctxErr
    · exact finish_leaves.ctxErr
    · rfl
    · exact finish_leaves.ctxErr
  | nodeEnd => rfl
  | receive =>
    unfold onMessage drained
    dsimp only
    split_ifs
    · exact (buildAbortResult_leaves _ _).ctxErr
    · rfl
    · rfl
  | drain =>
    unfold drained
    split_ifs
    · exact (buildAbortResult_leaves _ _).ctxErr
    · rfl
  | @compensate env id todo attempted succeeded failedIDs exit n o hphase hn hexec =>
    cases todo <;> rfl

theorem FailsLast.of_received (h : FailsLast s init m) (hsame : s'.received = s.received) : FailsLast s' init m :=
  ⟨hsame.trans h.received, h.quiet, h.failed⟩

include hplain hpolicy in
theorem Sequential.step (hseq : run.Sequential s) (h : run.Inv s)
    (hcompensating : run.Compensating s) (hlimit : run.opts.maxConcurrentNodes = 1)
    (hctx : s.ctxErr = false) (hstep : run.step s e = some s') : run.Sequential s' := by
  cases hseq with
  | beyond hreceived hfailed hmore =>
    obtain ⟨more, hgrown, hwait⟩ := received_step hstep
    rw [hreceived, append_assoc] at hgrown
    refine .beyond hgrown hfailed ?_
    rcases hmore with hrest | hphase
    · exact .inl fun hnil => hrest (append_eq_nil_iff.mp hnil).1
    · exact (hwait hphase).imp_left fun hmore hnil => hmore (append_eq_nil_iff.mp hnil).2
  | quiet hquiet hstates hidle =>
    cases step_cases hstep with
    | ctxDone | nodeEnd => exact .quiet hquiet hstates hidle
    | loop => exact sequential_loopHead_quiet hplain h hctx hquiet hstates
    | receive hphase hm => exact sequential_onMessage hplain h hlimit hquiet hstates hm
    | drain =>
      refine .quiet ?_ ?_ fun hloop => absurd (by rw [hloop]; rfl) (drained_not_active _ _)
      · rw [drained_board]
        exact hquiet
      · rw [drained_board]
        exact hstates
    | compensate =>
      refine .quiet ?_ ?_ fun hloop => absurd (by rw [hloop]; rfl)
        (afterCompensation_not_active _ _ _ _ _)
      · rw [afterCompensation_board]
        exact hquiet
      · rw [afterCompensation_board]
        exact hstates
  | struck hlast honly hphase hidle habort =>
    cases step_cases hstep with
    | ctxDone => exact .struck (hlast.of_received rfl) honly hphase hidle habort
    | loop hloop =>
      rw [Compensating, hphase] at hcompensating
      exact sequential_loopHead_struck hplain hpolicy h hctx hcompensating hlast honly habort
    | nodeEnd =>
      exact .struck (hlast.of_received rfl) honly hphase hidle habort
    | receive hwait | drain hwait | compensate hwait => rw [hphase] at hwait; cases hwait
  | aborted hlast haborting hnoticed =>
    cases step_cases hstep with
    | ctxDone => exact .aborted (hlast.of_received rfl) haborting hnoticed
    | loop hphase | receive hphase | drain hphase => rw [hphase] at haborting; exact haborting.elim
    | nodeEnd =>
      exact .aborted (hlast.of_received rfl) haborting hnoticed
    | compensate hphase =>
      rw [hphase] at haborting
      refine .aborted (hlast.of_received ?_) (afterCompensation_aborting haborting) hnoticed
      rw [afterCompensation_board]
  | missed hlast hreturned hcompensations hunnoticed =>
    obtain ⟨result, hphase⟩ := hreturned
    cases step_cases hstep with
    | ctxDone =>
      exact .missed (hlast.of_received rfl) ⟨result, hphase⟩ hcompensations hunnoticed
    | nodeEnd hnot => rw [hasReturned, hphase] at hnot; cases hnot
    | loop hwait | receive hwait | drain hwait | compensate hwait => rw [hphase] at hwait; cases hwait

variable {result : NopTaskResult Raw} {events : List (Event Raw)}

include hplain hpolicy in
/-- A sequential run that ends with its first failure reports it exactly if it was noticed; otherwise
it compensates nothing. -/
theorem sequential_outcome (hlimit : run.opts.maxConcurrentNodes = 1)
    {t : RunState Raw} (hrun : Transition.run run.step .initial events = some t)
    (hctx : ∀ e ∈ events, e.isCtxDone = false) (hreturned : t.phase = .returned result) (hlast : FailsLast t init m) :
    (run.task.dag.Noticed m.1 ∧ result.finalState = .failed) ∨
      (¬run.task.dag.Noticed m.1 ∧ t.compensations = []) := by
  have hfinal := Transition.run_invariant_of_steps run.step
    (I := fun s => run.Inv s ∧ run.Compensating s ∧ s.ctxErr = false ∧ run.Sequential s)
    (fun _ _ _ h hdone hstep => ⟨h.1.step hstep, h.2.1.step hstep,
      (ctxErr_step hstep hdone).trans h.2.2.1,
      h.2.2.2.step hplain hpolicy h.1 h.2.1 hlimit h.2.2.1 hstep⟩)
    hrun ⟨run.inv_initial, rfl, rfl, Sequential.quiet (fun _ hm => nomatch hm)
      (fun id => by simp [RunState.initial]) fun _ => rfl⟩ ?_
  · cases hfinal.2.2.2 with
    | quiet hquiet =>
      refine absurd hlast.failed (hquiet m ?_)
      rw [hlast.received]
      exact mem_append_right _ mem_cons_self
    | struck hlast' honly hphase => rw [hreturned] at hphase; cases hphase
    | @beyond init' rest m' hreceived hfailed hmore =>
      rcases hmore with hrest | hphase
      · obtain ⟨rest, last, rfl⟩ := eq_nil_or_concat rest |>.resolve_left hrest
        rw [hlast.received, concat_eq_append, ← cons_append, ← append_assoc]
          at hreceived
        refine absurd hfailed (hlast.quiet m' ?_)
        rw [(append_inj' hreceived rfl).1]
        exact mem_append_right _ mem_cons_self
      · rw [hreturned] at hphase
        cases hphase
    | aborted hlast' haborting hnoticed =>
      have hsame := (append_inj' (hlast.received.symm.trans hlast'.received) rfl).2
      rw [singleton_inj.mp hsame]
      rw [hreturned] at haborting
      exact .inl ⟨hnoticed, haborting⟩
    | missed hlast' hreturned' hcompensations hunnoticed =>
      have hsame := (append_inj' (hlast.received.symm.trans hlast'.received) rfl).2
      rw [singleton_inj.mp hsame]
      exact .inr ⟨hunnoticed, hcompensations⟩
  · intro p hp
    obtain ⟨before, after, v, hsplit, -⟩ := Transition.steps_split run.step hrun hp
    exact hctx p.2 (by rw [hsplit]; exact mem_append_right _ mem_cons_self)

include hplain hpolicy in
/-- What such a run compensates. -/
theorem sequential_compensated (hlimit : run.opts.maxConcurrentNodes = 1)
    (hruns : compensationRunsOnFailure run.task.effectiveCompensationPolicy = true) {t : RunState Raw}
    (hrun : Transition.run run.step .initial events = some t)
    (hctx : ∀ e ∈ events, e.isCtxDone = false) (hreturned : t.phase = .returned result) (hlast : FailsLast t init m) :
    ((¬run.task.dag.Noticed m.1 ∨ compensationIsStrict run.task.effectiveCompensationPolicy = true ∧
        run.missingCompensation t.nodeStates ≠ []) ∧ t.compensated = []) ∨ (run.task.dag.Noticed m.1 ∧
        (compensationIsStrict run.task.effectiveCompensationPolicy = true →
          run.missingCompensation t.nodeStates = []) ∧ t.compensated = run.toCompensate t.nodeStates) := by
  have hnone : t.compensations = [] → t.compensated = [] := fun h => by
    rw [RunState.compensated, h, map_nil]
  rcases sequential_outcome hplain hpolicy hlimit hrun hctx hreturned hlast with
    ⟨hnoticed, hfailed⟩ | ⟨hunnoticed, hcompensations⟩
  · have hsummary := compensating_run hrun
    rw [Compensating, hreturned] at hsummary
    cases hsummary with
    | none hcomp hcalls hnever =>
      rw [hnever hfailed] at hruns
      cases hruns
    | refused c hcomp hattempted hcalls hstrict hmissing =>
      exact .inl ⟨.inr ⟨hstrict, hmissing⟩, hnone hcalls⟩
    | done c hcomp hattempted hcalls hallowed => exact .inr ⟨hnoticed, hallowed, hcalls⟩
  · exact .inl ⟨.inl hunnoticed, hnone hcompensations⟩

end Steps

end DagRun

end NpsSdk.Nop
