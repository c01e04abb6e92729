import NpsSdk.NopRunDagSteps

/-! What a completed task says about its nodes. The loop ends when every node has a state, and also when nothing is in
flight and no ready node was kept; in the second case nodes may be left without a state. -/

namespace NpsSdk.Nop

open Transition

variable {Raw : Type}

structure AllEnded (dag : TaskDag Raw) (states : GoMap TaskState) : Prop where
  settled : ∀ n ∈ dag.nodes, ∃ state, states[n.id]? = some state ∧ Settled state
  ends : ∀ e ∈ dag.endNodes, states[e.id]? = some .completed ∨ states[e.id]? = some .skipped

/-- Nothing is in flight and nothing can start, some node still waits for its dependencies, and no end node has failed
or is about to. -/
structure Stalled (dag : TaskDag Raw) (b : Board Raw) : Prop where
  idle : b.inFlight.size = 0
  failing : ∀ n ∈ dag.nodes, b.nodeStates[n.id]? = none → areDepsDone n b.nodeStates = true →
    kOfNFails n b.nodeStates = true
  waiting : ∃ n ∈ dag.nodes, b.nodeStates[n.id]? = none ∧ areDepsDone n b.nodeStates = false
  ends : ∀ e ∈ dag.endNodes, b.nodeStates[e.id]? ≠ some .failed ∧
    (b.nodeStates[e.id]? = none → areDepsDone e b.nodeStates = false)

def Exit.isSuccess : Exit Raw → Bool
  | .success _ => true
  | .abort _ _ => false

/-- The call reports success, or will once its compensations are over. -/
def Phase.succeeding : Phase Raw → Prop
  | .compensate _ _ _ _ exit => exit.isSuccess = true
  | .returned result => result.finalState = .completed
  | _ => False

namespace DagRun

variable {run : DagRun Raw} {s s' : RunState Raw}

/-! ### Which exits succeed -/

theorem conclude_succeeding (exit : Exit Raw) (comp : Option SagaCompensationResult) :
    (run.conclude exit comp s).phase.succeeding ↔ exit.isSuccess = true := by
  cases exit with
  | success => exact ⟨fun _ => rfl, fun _ => rfl⟩
  | abort =>
    refine ⟨?_, ?_⟩
    · intro h
      cases h
    · intro h
      cases h

theorem startCompensation_succeeding (exit : Exit Raw) :
    (run.startCompensation exit s).phase.succeeding ↔ exit.isSuccess = true := by
  unfold startCompensation
  split_ifs
  · exact conclude_succeeding exit _
  · exact conclude_succeeding exit _
  · exact Iff.rfl

theorem buildAbortResult_not_succeeding (code message : String) :
    ¬(run.buildAbortResult code message s).phase.succeeding := by
  unfold buildAbortResult
  split_ifs
  · rw [startCompensation_succeeding]
    exact Bool.false_ne_true
  · rw [conclude_succeeding]
    exact Bool.false_ne_true

theorem drained_not_succeeding (code message : String) : ¬(run.drained code message s).phase.succeeding := by
  unfold drained
  split_ifs
  · exact buildAbortResult_not_succeeding code message
  · exact fun h => h

theorem afterCompensation_succeeding (todo : List String) (attempted succeeded : Nat)
    (failedIDs : List String) (exit : Exit Raw) :
    (run.afterCompensation todo attempted succeeded failedIDs exit s).phase.succeeding ↔
      exit.isSuccess = true := by
  cases todo with
  | nil => exact conclude_succeeding exit _
  | cons => exact Iff.rfl

/-- The list of failed nodes is not empty if an end node has failed, in whatever order it is met. -/
theorem failedNodes_ne_nil {states : GoMap TaskState} {id : String} (hstate : states[id]? = some .failed) :
    (run.rangeOrder states.keys).filter (fun id => states[id]? = some .failed) ≠ [] := by
  have hkey : id ∈ states.keys :=
    Std.ExtTreeMap.mem_keys.mpr ((GoMap.mem_iff_exists _ _).mpr ⟨_, hstate⟩)
  apply List.ne_nil_of_mem
  exact List.mem_filter.mpr ⟨(run.range_perm _).mem_iff.mpr hkey, decide_eq_true hstate⟩

/-- The code after the loop succeeds unless an end node has failed. -/
theorem finish_succeeding : (run.finish s).phase.succeeding ↔ ∀ e ∈ run.task.dag.endNodes,
      s.nodeStates[e.id]? ≠ some .failed := by
  unfold finish
  by_cases hfailed : ∃ e ∈ run.endNodeIDs, s.nodeStates[e]? = some .failed
  · obtain ⟨id, hid, hstate⟩ := hfailed
    obtain ⟨e, he, rfl⟩ := List.mem_map.mp hid
    rw [if_pos ⟨failedNodes_ne_nil hstate, e.id, hid, hstate⟩]
    exact iff_of_false (buildAbortResult_not_succeeding _ _) fun hall => hall e he hstate
  · rw [if_neg fun h => hfailed h.2]
    refine iff_of_true ?_ fun e he hstate => hfailed ⟨e.id, List.mem_map_of_mem he, hstate⟩
    split_ifs
    · rw [startCompensation_succeeding]
      rfl
    · rfl

/-! ### The end of the loop -/

theorem allEnded_of_finish (h : s.MapInv run.task.dag run.opts.maxConcurrentNodes)
    (hall : ∀ n ∈ run.task.dag.nodes, n.id ∈ s.nodeStates)
    (hfinish : (run.finish s).phase.succeeding) : AllEnded run.task.dag s.nodeStates where
  settled n hn := by
    obtain ⟨state, hstate⟩ := (GoMap.mem_iff_exists _ _).mp (hall n hn)
    exact ⟨state, hstate, (h.stated n.id state hstate).2⟩
  ends e he := by
    have hnode : e ∈ run.task.dag.nodes := (List.mem_filter.mp he).1
    obtain ⟨state, hstate⟩ := (GoMap.mem_iff_exists _ _).mp (hall e hnode)
    rcases (h.stated e.id state hstate).2 with rfl | rfl | rfl
    · exact Or.inl hstate
    · exact Or.inr hstate
    · exact absurd hstate (finish_succeeding.mp hfinish e he)

theorem passBoard_of_idle {b : Board Raw} (hidle : (run.passBoard b).inFlight.size = 0) :
    b.kept run.task.dag = [] ∧ b.inFlight.size = 0 ∧ run.passBoard b = b.marked run.task.dag := by
  obtain ⟨hkept, hflight⟩ := (Board.launch_size_eq_zero run.limit_pos _ _).mp hidle
  refine ⟨hkept, hflight, ?_⟩
  rw [passBoard, hkept]
  rfl

section

variable {b : Board Raw} (h : b.MapInv run.task.dag run.opts.maxConcurrentNodes)
include h

theorem mem_readyNodes_of_idle (hidle : b.inFlight.size = 0) {n : DagNode Raw}
    (hn : n ∈ run.task.dag.nodes) (hfresh : b.nodeStates[n.id]? = none) :
    n ∈ b.readyNodes run.task.dag ↔ areDepsDone n b.nodeStates = true := by
  rw [h.mem_readyNodes]
  have hgrounded := (GoMap.size_eq_zero_iff _).mp hidle n.id
  exact ⟨fun hready => hready.2.2.2, fun hdone => ⟨hn, hfresh, hgrounded, hdone⟩⟩

/-- A pass that ends the loop without a failed end node and without a stall has given every node a
state. -/
theorem stated_of_not_stalled (hidle : b.inFlight.size = 0) (hkept : b.kept run.task.dag = [])
    (hends : ∀ e ∈ run.task.dag.endNodes, (b.marked run.task.dag).nodeStates[e.id]? ≠ some .failed)
    (hstalled : ¬Stalled run.task.dag b) : ∀ n ∈ run.task.dag.nodes, n.id ∈ (b.marked run.task.dag).nodeStates := by
  have hnodup := run.accepted.nodup
  have hfailing : ∀ n ∈ b.readyNodes run.task.dag, kOfNFails n b.nodeStates = true := by
    intro n hn
    by_contra hpass
    have hmem := (h.mem_kept hnodup n).mpr ⟨hn, Bool.eq_false_iff.mpr hpass⟩
    rw [hkept] at hmem
    cases hmem
  intro n hn
  by_contra hout
  have hmarked := (GoMap.not_mem_iff _ _).mp hout
  have hfresh : b.nodeStates[n.id]? = none := by
    cases hstate : b.nodeStates[n.id]? with
    | none => rfl
    | some state =>
      rw [h.grows_marked hnodup n.id state hstate] at hmarked
      cases hmarked
  refine hstalled ⟨hidle, ?_, ⟨n, hn, hfresh, ?_⟩, ?_⟩
  · intro m hm hunstated hdone
    exact hfailing m ((mem_readyNodes_of_idle h hidle hm hunstated).mpr hdone)
  · rw [Bool.eq_false_iff, ne_eq, ← mem_readyNodes_of_idle h hidle hn hfresh]
    intro hready
    rw [h.marked_failed hnodup hready (hfailing n hready)] at hmarked
    cases hmarked
  · intro e he
    have hnode : e ∈ run.task.dag.nodes := (List.mem_filter.mp he).1
    refine ⟨fun hfailed => hends e he (h.grows_marked hnodup e.id .failed hfailed), ?_⟩
    intro hunstated
    rw [Bool.eq_false_iff, ne_eq, ← mem_readyNodes_of_idle h hidle hnode hunstated]
    exact fun hready => hends e he (h.marked_failed hnodup hready (hfailing e hready))

theorem stalled_pass (hstalled : Stalled run.task.dag b) : run.passBoard b = b.marked run.task.dag ∧
      (∀ e ∈ run.task.dag.endNodes, (b.marked run.task.dag).nodeStates[e.id]? ≠ some .failed) ∧
      ∃ n ∈ run.task.dag.nodes, (b.marked run.task.dag).nodeStates[n.id]? = none := by
  have hnodup := run.accepted.nodup
  have hkept : b.kept run.task.dag = [] := by
    rw [List.eq_nil_iff_forall_not_mem]
    intro n hn
    obtain ⟨hready, hpass⟩ := (h.mem_kept hnodup n).mp hn
    obtain ⟨hnode, hfresh, -, hdone⟩ := (h.mem_readyNodes n).mp hready
    rw [hstalled.failing n hnode hfresh hdone] at hpass
    cases hpass
  -- a node that still waits is not marked
  have hkeeps : ∀ n ∈ run.task.dag.nodes, (b.nodeStates[n.id]? = none → areDepsDone n b.nodeStates = false) →
      (b.marked run.task.dag).nodeStates[n.id]? = b.nodeStates[n.id]? := by
    intro n hn hwaits
    apply h.marked_other hnodup
    intro m hm _ hid
    obtain ⟨hnode, hfresh, -, hdone⟩ := (h.mem_readyNodes m).mp hm
    rw [run.accepted.eq_of_id_eq hnode hn hid] at hfresh hdone
    rw [hwaits hfresh] at hdone
    cases hdone
  refine ⟨?_, ?_, ?_⟩
  · rw [passBoard, hkept]
    rfl
  · intro e he
    rw [hkeeps e (List.mem_filter.mp he).1 (hstalled.ends e he).2]
    exact (hstalled.ends e he).1
  · obtain ⟨n, hn, hfresh, hwaits⟩ := hstalled.waiting
    exact ⟨n, hn, by rw [hkeeps n hn fun _ => hwaits]; exact hfresh⟩

end

theorem pass_succeeding : (run.pass s).phase.succeeding ↔
    (run.passBoard s.toBoard).inFlight.size = 0 ∧ ∀ e ∈ run.task.dag.endNodes,
      (run.passBoard s.toBoard).nodeStates[e.id]? ≠ some .failed := by
  unfold pass
  dsimp only
  split_ifs with hidle
  · rw [finish_succeeding]
    exact ⟨fun hends => ⟨hidle, hends⟩, fun h => h.2⟩
  · exact iff_of_false (fun h => h) fun h => hidle h.1

/-! ### Runs -/

variable (run) in
/-- What a call that succeeds owes its caller. -/
def Honest (s : RunState Raw) : Prop := s.phase.succeeding → AllEnded run.task.dag s.nodeStates

theorem honest_loopHead (h : run.Inv s) (hstalled : s.ctxErr = false → ¬Stalled run.task.dag s.toBoard) :
    run.Honest (run.loopHead s) := by
  have hnodup := run.accepted.nodup
  intro hsucceeding
  unfold loopHead at hsucceeding ⊢
  split_ifs at hsucceeding ⊢ with hsize hctx
  · exact absurd hsucceeding (buildAbortResult_not_succeeding _ _)
  · obtain ⟨hidle, hends⟩ := pass_succeeding.mp hsucceeding
    obtain ⟨hkept, hflight, hboard⟩ := passBoard_of_idle hidle
    rw [hboard] at hends
    rw [pass_board, hboard]
    have hall := stated_of_not_stalled h.maps hflight hkept hends (hstalled (Bool.eq_false_iff.mpr hctx))
    exact allEnded_of_finish (s := { s with toBoard := s.marked run.task.dag })
      (h.maps.marked hnodup) hall (finish_succeeding.mpr hends)
  · rw [finish_leaves.board]
    exact allEnded_of_finish h.maps (h.maps.stated_of_full (not_lt.mp hsize)) hsucceeding

theorem Honest.step {e : Event Raw} (hhonest : run.Honest s) (h : run.Inv s)
    (hstalled : e = .loop → s.ctxErr = false → ¬Stalled run.task.dag s.toBoard)
    (hstep : run.step s e = some s') : run.Honest s' := by
  cases step_cases hstep with
  | ctxDone | nodeEnd => exact hhonest
  | loop => exact honest_loopHead h (hstalled rfl)
  | receive =>
    intro hsucceeding
    unfold onMessage at hsucceeding
    dsimp only at hsucceeding
    split_ifs at hsucceeding
    · exact absurd hsucceeding (drained_not_succeeding _ _)
    · cases hsucceeding
  | drain => exact fun hsucceeding => absurd hsucceeding (drained_not_succeeding _ _)
  | compensate hphase =>
    intro hsucceeding
    rw [afterCompensation_board]
    rw [afterCompensation_succeeding] at hsucceeding
    apply hhonest
    rw [hphase]
    exact hsucceeding

variable (run) in
/-- The call is going to report success although some node has no state. -/
def Lying (s : RunState Raw) : Prop :=
  s.phase.succeeding ∧ ∃ n ∈ run.task.dag.nodes, s.nodeStates[n.id]? = none

theorem lying_of_stalled (h : run.Inv s) (hctx : s.ctxErr = false)
    (hstalled : Stalled run.task.dag s.toBoard) : run.Lying (run.loopHead s) := by
  obtain ⟨hboard, hends, n, hn, hfresh⟩ := stalled_pass h.maps hstalled
  have hsize : s.nodeStates.size < run.task.dag.nodes.length := by
    by_contra hfull
    obtain ⟨m, hm, hunstated, -⟩ := hstalled.waiting
    exact (GoMap.not_mem_iff _ _).mpr hunstated (h.maps.stated_of_full (not_lt.mp hfull) m hm)
  rw [loopHead, if_pos hsize, hctx, if_neg Bool.false_ne_true]
  refine ⟨pass_succeeding.mpr ⟨?_, ?_⟩, n, hn, ?_⟩
  · rw [hboard]
    exact hstalled.idle
  · rw [hboard]
    exact hends
  · rw [pass_board, hboard]
    exact hfresh

theorem Lying.step {e : Event Raw} (h : run.Lying s) (hstep : run.step s e = some s') : run.Lying s' := by
  obtain ⟨hsucceeding, hfresh⟩ := h
  cases step_cases hstep with
  | ctxDone | nodeEnd => exact ⟨hsucceeding, hfresh⟩
  | loop hphase | receive hphase | drain hphase =>
    rw [hphase] at hsucceeding
    cases hsucceeding
  | compensate hphase =>
    rw [hphase] at hsucceeding
    refine ⟨(afterCompensation_succeeding _ _ _ _ _).mpr hsucceeding, ?_⟩
    rw [afterCompensation_board]
    exact hfresh

/-- A call that has returned reports completion rightly exactly if no pass of its loop stalled. -/
theorem completed_iff_never_stalled (run : DagRun Raw) (events : List (Event Raw)) (t : RunState Raw)
    (result : NopTaskResult Raw) (hrun : Transition.run run.step .initial events = some t)
    (hreturned : t.phase = .returned result) : (result.finalState = .completed → AllEnded run.task.dag t.nodeStates) ↔
      ∀ p ∈ steps run.step .initial events, p.2 = .loop → p.1.ctxErr = false →
        ¬Stalled run.task.dag p.1.toBoard := by
  have hsucceeding : t.phase.succeeding ↔ result.finalState = .completed := by
    rw [hreturned]
    exact Iff.rfl
  refine ⟨?_, ?_⟩
  · intro hhonest p hp hloop hctx hstalled
    obtain ⟨before, after, v, -, hbefore, hv, hafter⟩ := steps_split run.step hrun hp
    rw [hloop] at hv
    have hlying : run.Lying v := by
      cases step_cases hv with
      | loop => exact lying_of_stalled (inv_run hbefore) hctx hstalled
    obtain ⟨hend, n, hn, hfresh⟩ :=
      run_invariant run.step (fun _ _ _ h hstep => h.step hstep) hafter hlying
    obtain ⟨state, hstate, -⟩ := (hhonest (hsucceeding.mp hend)).settled n hn
    rw [hfresh] at hstate
    cases hstate
  · intro hnever hcompleted
    have hfinal := run_invariant_of_steps run.step (I := fun s => run.Inv s ∧ run.Honest s)
      (fun _ _ _ h hc hstep => ⟨h.1.step hstep, h.2.step h.1 hc hstep⟩) hrun
      ⟨run.inv_initial, fun h => h.elim⟩ hnever
    exact hfinal.2 (hsucceeding.mpr hcompleted)

theorem chainCall_completed_iff : ∃ t result, Transition.run chainCall.step .initial
        [.loop, .nodeEnd "a" [plainAnswer true], .receive "a", .loop,
          .nodeEnd "b" [plainAnswer true], .receive "b", .loop] = some t ∧ t.phase = .returned result ∧
      ((result.finalState = .completed → AllEnded chainCall.task.dag t.nodeStates) ↔
        ∀ p ∈ Transition.steps chainCall.step .initial [.loop, .nodeEnd "a" [plainAnswer true], .receive "a", .loop,
            .nodeEnd "b" [plainAnswer true], .receive "b", .loop],
          p.2 = .loop → p.1.ctxErr = false → ¬Stalled chainCall.task.dag p.1.toBoard) :=
  ⟨_, _, rfl, rfl, completed_iff_never_stalled chainCall _ _ _ rfl rfl⟩

def longChainCall : DagRun Unit :=
  plainCall
    { nodes := [plainNode "a" [], plainNode "b" ["a"], plainNode "c" ["b"]]
      edges := [⟨"a", "b"⟩, ⟨"b", "c"⟩] } 1 (by decide)

/-- The first node fails, the second is marked, the loop stops: the task completes and its end node
never had a state. -/
theorem failed_chain_completes : ∃ t result, Transition.run longChainCall.step .initial
        [.loop, .nodeEnd "a" [plainAnswer false], .receive "a", .loop] = some t ∧
      t.phase = .returned result ∧ result.finalState = .completed ∧
      t.nodeStates["c"]? = none ∧ ¬AllEnded longChainCall.task.dag t.nodeStates := by
  refine ⟨_, _, rfl, rfl, rfl, by decide +kernel, ?_⟩
  intro hended
  have hends := hended.ends
  revert hends
  decide +kernel

end DagRun

end NpsSdk.Nop
