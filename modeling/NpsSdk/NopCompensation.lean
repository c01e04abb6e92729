import NpsSdk.NopRunDagSteps

/-! Saga compensation. The compensation calls of a run are the completed nodes that have an action, in
reverse topological order, each called once; the summary in the result counts them. A node counts as
completed only if the loop took its message in, so what ends in flight during an abort is left out. -/

namespace NpsSdk.Nop

open List

variable {Raw : Type}

def RunState.compensated (s : RunState Raw) : List String :=
  s.compensations.map CompensationCall.nodeID

namespace DagRun

variable {run : DagRun Raw} {s s' : RunState Raw}

/-! ### The nodes to compensate -/

variable {n : DagNode Raw} {states : GoMap TaskState} {events : List (Event Raw)} {t : RunState Raw}

section

variable (hn : n ∈ run.task.dag.nodes)
include hn

theorem hasCompensation_iff :
    run.hasCompensation n.id = true ↔ n.compensateAction ≠ "" := by
  rw [hasCompensation, run.accepted.node?_eq_some hn]
  exact decide_eq_true_iff

theorem mem_completedNodes :
    n.id ∈ run.completedNodes states ↔ states[n.id]? = some .completed := by
  have horder : n.id ∈ run.topoOrder.reverse :=
    mem_reverse.mpr ((run.accepted.mem_order_iff n.id).mpr (mem_map_of_mem hn))
  rw [completedNodes, mem_filter, run.accepted.node?_eq_some hn]
  simp [horder]

theorem mem_toCompensate : n.id ∈ run.toCompensate states ↔
      states[n.id]? = some .completed ∧ n.compensateAction ≠ "" := by
  rw [toCompensate, mem_filter, mem_completedNodes hn, hasCompensation_iff hn]

end

theorem toCompensate_nodup (states : GoMap TaskState) : (run.toCompensate states).Nodup :=
  ((nodup_reverse.mpr run.accepted.order_nodup).filter _).filter _

variable (run states) in
/-- A node that is recorded as completed, with its action. -/
def CompletedWith (id action : String) : Prop :=
  ∃ n ∈ run.task.dag.nodes, n.id = id ∧ states[n.id]? = some .completed ∧ n.compensateAction = action

section

variable {id action : String}

theorem mem_completedNodes_iff : id ∈ run.completedNodes states ↔ ∃ action, run.CompletedWith states id action := by
  constructor
  · intro hid
    obtain ⟨n, hn, rfl⟩ := mem_map.mp ((run.accepted.mem_order_iff id).mp (mem_reverse.mp (mem_filter.mp hid).1))
    exact ⟨_, n, hn, rfl, (mem_completedNodes hn).mp hid, rfl⟩
  · rintro ⟨_, n, hn, rfl, hstate, -⟩
    exact (mem_completedNodes hn).mpr hstate

theorem CompletedWith.hasCompensation (h : run.CompletedWith states id action) :
    run.hasCompensation id = decide (action ≠ "") := by
  obtain ⟨n, hn, rfl, -, rfl⟩ := h
  rw [DagRun.hasCompensation, run.accepted.node?_eq_some hn]

theorem mem_missingCompensation : id ∈ run.missingCompensation states ↔ run.CompletedWith states id "" := by
  rw [missingCompensation, mem_filter, mem_completedNodes_iff]
  constructor
  · rintro ⟨⟨action, h⟩, haction⟩
    rw [h.hasCompensation, Bool.not_eq_true', decide_eq_false_iff_not, not_not] at haction
    exact haction ▸ h
  · intro h
    exact ⟨⟨_, h⟩, by rw [h.hasCompensation]; rfl⟩

end

theorem missingCompensation_eq_nil
    (hall : ∀ n ∈ run.task.dag.nodes, states[n.id]? = some .completed → n.compensateAction ≠ "") :
    run.missingCompensation states = [] := by
  rw [eq_nil_iff_forall_not_mem]
  intro id hid
  obtain ⟨n, hn, -, hstate, hnone⟩ := mem_missingCompensation.mp hid
  exact hall n hn hstate hnone

/-! ### The calls made and the summary -/

variable (run) in
inductive Summarised (calls : List (CompensationCall Raw)) (states : GoMap TaskState)
    (result : NopTaskResult Raw) : Prop
  | none (hcomp : result.compensation = none) (hcalls : calls = [])
      (hpolicy : result.finalState = .failed →
        compensationRunsOnFailure run.task.effectiveCompensationPolicy = false)
  | refused (c : SagaCompensationResult) (hcomp : result.compensation = some c)
      (hattempted : c.attempted = 0) (hcalls : calls = [])
      (hstrict : compensationIsStrict run.task.effectiveCompensationPolicy = true)
      (hmissing : run.missingCompensation states ≠ [])
  | done (c : SagaCompensationResult) (hcomp : result.compensation = some c)
      (hattempted : c.attempted = calls.length)
      (hcalls : calls.map CompensationCall.nodeID = run.toCompensate states)
      (hallowed : compensationIsStrict run.task.effectiveCompensationPolicy = true →
        run.missingCompensation states = [])

variable (run) in
/-- The compensation calls made so far and those still due are the nodes to compensate. -/
def Compensating (s : RunState Raw) : Prop :=
  match s.phase with
  | .compensate todo attempted _ _ _ =>
    todo ≠ [] ∧ s.compensated ++ todo = run.toCompensate s.nodeStates ∧
      attempted = (run.toCompensate s.nodeStates).length ∧
      (compensationIsStrict run.task.effectiveCompensationPolicy = true →
        run.missingCompensation s.nodeStates = [])
  | .returned result => run.Summarised s.compensations s.nodeStates result
  | _ => s.compensations = []

theorem resultOf_compensation (exit : Exit Raw) (nodeResults : GoMap Raw) (comp : Option SagaCompensationResult) :
    (run.resultOf exit nodeResults comp).compensation = comp := by
  cases exit <;> rfl

section

variable (hnone : s.compensations = [])
include hnone

theorem compensating_startCompensation (exit : Exit Raw) : run.Compensating (run.startCompensation exit s) := by
  have hempty : s.compensated = [] := by rw [RunState.compensated, hnone, map_nil]
  unfold startCompensation
  split_ifs with hmissing htodo
  · exact .refused _ (resultOf_compensation _ _ _) rfl hnone hmissing.1 hmissing.2
  · refine .done _ (resultOf_compensation _ _ _) ?_ ?_ ?_
    · show 0 = s.compensations.length
      rw [hnone, length_nil]
    · show s.compensated = run.toCompensate s.nodeStates
      rw [hempty, htodo]
    · exact fun hstrict => not_not.mp fun hne => hmissing ⟨hstrict, hne⟩
  · refine ⟨htodo, ?_, rfl, fun hstrict => not_not.mp fun hne => hmissing ⟨hstrict, hne⟩⟩
    show s.compensated ++ _ = _
    rw [hempty, nil_append]

theorem compensating_buildAbortResult (code message : String) :
    run.Compensating (run.buildAbortResult code message s) := by
  unfold buildAbortResult
  split_ifs with hpolicy
  · exact compensating_startCompensation hnone _
  · exact .none (resultOf_compensation _ _ _) hnone fun _ => Bool.eq_false_iff.mpr hpolicy

theorem compensating_finish : run.Compensating (run.finish s) := by
  unfold finish
  dsimp only
  split_ifs
  · exact compensating_buildAbortResult hnone _ _
  · exact compensating_startCompensation hnone _
  · refine .none (resultOf_compensation _ _ _) hnone fun hfailed => ?_
    cases hfailed

theorem compensating_drained (code message : String) : run.Compensating (run.drained code message s) := by
  unfold drained
  split_ifs
  · exact compensating_buildAbortResult hnone code message
  · exact hnone

theorem compensating_loopHead : run.Compensating (run.loopHead s) := by
  unfold loopHead pass
  dsimp only
  split_ifs
  · apply compensating_buildAbortResult
    exact hnone
  · apply compensating_finish
    exact hnone
  · exact hnone
  · exact compensating_finish hnone

theorem compensating_onMessage (id : String) (o : NodeOutcome Raw) : run.Compensating (run.onMessage id o s) := by
  unfold onMessage
  dsimp only
  split_ifs
  · apply compensating_drained
    exact hnone
  · exact hnone

end

/-- One call moves a node from those due to those made. -/
theorem compensating_afterCompensation {todo : List String} {attempted succeeded : Nat}
    {failedIDs : List String} {exit : Exit Raw} (hsplit : s.compensated ++ todo = run.toCompensate s.nodeStates)
    (hattempted : attempted = (run.toCompensate s.nodeStates).length)
    (hallowed : compensationIsStrict run.task.effectiveCompensationPolicy = true →
      run.missingCompensation s.nodeStates = []) :
    run.Compensating (run.afterCompensation todo attempted succeeded failedIDs exit s) := by
  cases todo with
  | nil =>
    rw [append_nil] at hsplit
    refine .done _ (resultOf_compensation _ _ _) ?_ hsplit hallowed
    rw [hattempted, ← hsplit, RunState.compensated, length_map]
    rfl
  | cons => exact ⟨cons_ne_nil _ _, hsplit, hattempted, hallowed⟩

theorem Compensating.step {e : Event Raw} (h : run.Compensating s)
    (hstep : run.step s e = some s') : run.Compensating s' := by
  cases step_cases hstep with
  | ctxDone | nodeEnd => exact h
  | loop hphase =>
    rw [Compensating, hphase] at h
    exact compensating_loopHead h
  | receive hphase hm =>
    rw [Compensating, hphase] at h
    exact compensating_onMessage h _ _
  | drain hphase hm =>
    rw [Compensating, hphase] at h
    apply compensating_drained
    exact h
  | @compensate env id todo attempted succeeded failedIDs exit n o hphase hn hexec =>
    rw [Compensating, hphase] at h
    obtain ⟨-, hsplit, hattempted, hallowed⟩ := h
    refine compensating_afterCompensation ?_ hattempted hallowed
    have hid : n.id = id := (run.task.dag.mem_of_node? hn).2
    rw [← hsplit, RunState.compensated, map_append, append_assoc]
    show _ ++ n.id :: todo = _
    rw [hid]
    rfl

theorem compensating_run (hrun : Transition.run run.step .initial events = some t) : run.Compensating t :=
  Transition.run_invariant run.step (fun _ _ _ h hstep => h.step hstep) hrun rfl

/-! ### A compensation as a whole -/

theorem toCompensate_pairwise : (run.toCompensate states).Pairwise
    fun a b => ¬Relation.TransGen (fun a b => (a, b) ∈ run.task.dag.arcs) a b := by
  have htarget := fun e he => (TaskDag.arcs_known run.accepted.edges_known e he).2
  exact ((pairwise_reverse.mpr (run.accepted.topological.pairwise htarget)).filter _).filter _

/-- A call that has left the loop, with these nodes in flight. -/
structure Left (b : Board Raw) (abandoned : List String) : Prop where
  flying : ∀ id ∈ b.inFlight, id ∈ abandoned
  ended : ∀ m ∈ b.ended, m ∈ b.received ∨ m.1 ∈ abandoned
  unstated : ∀ id ∈ abandoned, b.nodeStates[id]? = none

/-- Nothing is abandoned while the loop runs. -/
structure Accounted (s : RunState Raw) : Prop where
  active : s.phase.active = true → s.abandoned = []
  left : ¬s.phase.active = true → Left s.toBoard s.abandoned

section

variable {dag : TaskDag Raw} {limit : Int} {b : Board Raw}

/-- The message of a node that ended is the one the loop took in under its id. -/
theorem received_of_mem_ids (h : b.MapInv dag limit) {m : String × NodeOutcome Raw}
    (hended : m ∈ b.ended) (hid : m.1 ∈ b.received.map Prod.fst) : m ∈ b.received := by
  obtain ⟨m', hm', hfst⟩ := mem_map.mp hid
  have heq : m' = m :=
    inj_on_of_nodup_map h.ended_once (h.received_ended m' hm') hended hfst
  rw [← heq]
  exact hm'

variable {abandoned : List String}

section

variable (h : b.Running dag limit)
include h

theorem left_of_running (habandoned : ∀ id, id ∈ abandoned ↔ id ∈ b.inFlight) :
    Left b abandoned where
  flying id hid := (habandoned id).mpr hid
  ended m hm := by
    rcases h.tracked m.1 (h.maps.ended_started m hm) with hflight | hreceived
    · exact Or.inr ((habandoned m.1).mpr hflight)
    · exact Or.inl (received_of_mem_ids h.maps hm hreceived)
  unstated id hid := (h.maps.flying id ((habandoned id).mp hid)).1

theorem left_of_idle (hidle : b.inFlight.size = 0) : Left b [] := by
  apply left_of_running h
  intro id
  have hgrounded := (GoMap.size_eq_zero_iff _).mp hidle id
  exact iff_of_false not_mem_nil hgrounded

theorem left_of_abort : Left b b.inFlight.keys :=
  left_of_running h fun _ => Std.ExtTreeMap.mem_keys

end

theorem Left.endGoroutine (h : Left b abandoned) (hmap : b.MapInv dag limit) {id : String} {o : NodeOutcome Raw}
    (hstarted : id ∈ b.startedIDs) (hnew : id ∉ b.ended.map Prod.fst) : Left (b.endGoroutine id o) abandoned where
  __ := h
  ended := by
    refine forall_mem_append.mpr ⟨h.ended, forall_mem_singleton.mpr (Or.inr ?_)⟩
    exact h.flying id ((hmap.landed id hstarted).resolve_right hnew)

theorem Left.takeMessage (h : Left b abandoned) (id : String) : Left (b.takeMessage id) abandoned where
  __ := h
  flying other hother := h.flying other ((GoMap.mem_erase _ _ _).mp hother).2

end

theorem Leaves.accounted (h : run.Leaves s s') (hleft : Left s.toBoard s.abandoned) : Accounted s' := by
  refine ⟨fun hactive => absurd hactive h.not_active, fun _ => ?_⟩
  rw [h.board, h.abandoned]
  exact hleft

theorem accounted_drained (hleft : Left s.toBoard s.abandoned) (code message : String) :
    Accounted (run.drained code message s) := by
  unfold drained
  split_ifs
  · exact (buildAbortResult_leaves code message).accounted hleft
  · exact ⟨fun hactive => absurd hactive Bool.false_ne_true, fun _ => hleft⟩

theorem inFlight_empty_of_full (h : run.Inv s)
    (hfull : run.task.dag.nodes.length ≤ s.nodeStates.size) : s.inFlight.size = 0 := by
  rw [GoMap.size_eq_zero_iff]
  intro id hid
  obtain ⟨hfresh, hstarted⟩ := h.maps.flying id hid
  obtain ⟨n, hn, rfl⟩ := mem_map.mp (h.starts.mem_ids hstarted)
  exact (GoMap.not_mem_iff _ _).mpr hfresh (h.maps.stated_of_full hfull n hn)

theorem accounted_loopHead (h : run.Inv s) (hphase : s.phase = .loop) (hs : Accounted s) :
    Accounted (run.loopHead s) := by
  have hactive : s.phase.active = true := by
    rw [hphase]
    rfl
  have hrunning := h.running hactive
  unfold loopHead
  split_ifs with hsize
  · exact (buildAbortResult_leaves _ _).accounted (left_of_abort hrunning)
  · have hpass := hrunning.pass run.accepted.nodup
    unfold pass
    dsimp only
    split_ifs with hidle
    · apply finish_leaves.accounted
      rw [hs.active hactive]
      exact left_of_idle hpass hidle
    · exact ⟨fun _ => hs.active hactive, fun hnot => absurd rfl hnot⟩
  · apply finish_leaves.accounted
    rw [hs.active hactive]
    exact left_of_idle hrunning (inFlight_empty_of_full h (not_lt.mp hsize))

theorem accounted_onMessage (h : run.Inv s) (hphase : s.phase = .wait) (hs : Accounted s)
    {m : String × NodeOutcome Raw} (hm : m ∈ s.sending) : Accounted (run.onMessage m.1 m.2 s) := by
  have hactive : s.phase.active = true := by
    rw [hphase]
    rfl
  have hreceived := (h.running hactive).receive hm
  unfold onMessage
  dsimp only
  split_ifs
  · apply accounted_drained
    exact left_of_abort hreceived
  · exact ⟨fun _ => hs.active hactive, fun hnot => absurd rfl hnot⟩

theorem Accounted.step {e : Event Raw} (hs : Accounted s) (h : run.Inv s)
    (hstep : run.step s e = some s') : Accounted s' := by
  cases step_cases hstep with
  | ctxDone => exact ⟨hs.active, hs.left⟩
  | loop hphase => exact accounted_loopHead h hphase hs
  | nodeEnd hreturned hd hnew hexec =>
    exact ⟨hs.active, fun hleft =>
      (hs.left hleft).endGoroutine h.maps (mem_map_of_mem hd) hnew⟩
  | receive hphase hm => exact accounted_onMessage h hphase hs hm
  | drain hphase hm =>
    apply accounted_drained
    refine (hs.left ?_).takeMessage _
    rw [hphase]
    exact Bool.false_ne_true
  | @compensate env id todo attempted succeeded failedIDs exit n o hphase hn hexec =>
    have hleft := hs.left (by rw [hphase]; exact Bool.false_ne_true)
    cases todo with
    | nil | cons => exact ⟨fun hactive => absurd hactive Bool.false_ne_true, fun _ => hleft⟩

theorem accounted_run (hrun : Transition.run run.step .initial events = some t) : Accounted t := by
  have hfinal := Transition.run_invariant run.step (I := fun s => run.Inv s ∧ Accounted s)
    (fun _ _ _ h hstep => ⟨h.1.step hstep, h.2.step h.1 hstep⟩) hrun
    ⟨run.inv_initial, fun _ => rfl, fun hnot => absurd rfl hnot⟩
  exact hfinal.2

/-! ### Coverage -/

def Succeeded (s : RunState Raw) (id : String) : Prop :=
  ∃ o, (id, o) ∈ s.ended ∧ o.state = .completed

section

variable (hrun : Transition.run run.step .initial events = some t)
include hrun

/-- An abort under a policy that compensates calls every node to compensate. -/
theorem compensated_of_abort {result : NopTaskResult Raw}
    (hreturned : t.phase = .returned result) (habort : result.finalState = .failed)
    (hpolicy : compensationRunsOnFailure run.task.effectiveCompensationPolicy = true)
    (hstrict : compensationIsStrict run.task.effectiveCompensationPolicy = true →
      ∀ n ∈ run.task.dag.nodes, t.nodeStates[n.id]? = some .completed → n.compensateAction ≠ "") :
    t.compensated = run.toCompensate t.nodeStates := by
  have hsummary := compensating_run hrun
  rw [Compensating, hreturned] at hsummary
  cases hsummary with
  | none hcomp hcalls hnever =>
    rw [hnever habort] at hpolicy
    cases hpolicy
  | refused c hcomp hattempted hcalls hisStrict hmissing =>
    exact absurd (missingCompensation_eq_nil (hstrict hisStrict)) hmissing
  | done c hcomp hattempted hcalls => exact hcalls

/-- Where nothing was abandoned, a node is recorded as completed exactly if its worker succeeded. -/
theorem completed_iff_succeeded
    (hleft : ¬t.phase.active = true) {id : String} (hid : id ∉ t.abandoned) :
    t.nodeStates[id]? = some .completed ↔ Succeeded t id := by
  have hinv := inv_run hrun
  refine ⟨?_, ?_⟩
  · intro hstate
    obtain ⟨o, ho, hcompleted⟩ :=
      hinv.maps.success_received id .completed hstate (fun h => nomatch h)
    exact ⟨o, hinv.maps.received_ended _ ho, hcompleted⟩
  · intro hsucceeded
    obtain ⟨o, ho, hcompleted⟩ := hsucceeded
    have hreceived := (((accounted_run hrun).left hleft).ended _ ho).resolve_right hid
    rw [hinv.maps.received_state _ hreceived, hcompleted]

end

/-- An abort that compensates reaches every node whose worker succeeded exactly if no such node was
in flight when the abort was decided. -/
theorem saga_coverage_iff (run : DagRun Raw) (events : List (Event Raw)) (t : RunState Raw)
    (result : NopTaskResult Raw) (hrun : Transition.run run.step .initial events = some t)
    (hreturned : t.phase = .returned result) (habort : result.finalState = .failed)
    (hpolicy : compensationRunsOnFailure run.task.effectiveCompensationPolicy = true)
    (hstrict : compensationIsStrict run.task.effectiveCompensationPolicy = true →
      ∀ n ∈ run.task.dag.nodes, t.nodeStates[n.id]? = some .completed → n.compensateAction ≠ "") :
    (∀ n ∈ run.task.dag.nodes, n.compensateAction ≠ "" → Succeeded t n.id → t.compensated.count n.id = 1) ↔
    ∀ n ∈ run.task.dag.nodes, n.compensateAction ≠ "" → n.id ∈ t.abandoned → ¬Succeeded t n.id := by
  have hleft : ¬t.phase.active = true := by
    rw [hreturned]
    exact Bool.false_ne_true
  have hcalls := compensated_of_abort hrun hreturned habort hpolicy hstrict
  have hcount : ∀ id, t.compensated.count id = 1 ↔ id ∈ run.toCompensate t.nodeStates := by
    intro id
    rw [hcalls, (toCompensate_nodup t.nodeStates).count]
    split_ifs with hmem
    · exact iff_of_true rfl hmem
    · exact iff_of_false (fun hfalse => hfalse) hmem
  refine ⟨?_, ?_⟩
  · intro hcovered n hn haction habandoned hsucceeded
    have hmem := (hcount n.id).mp (hcovered n hn haction hsucceeded)
    have hstate := ((mem_toCompensate hn).mp hmem).1
    rw [((accounted_run hrun).left hleft).unstated n.id habandoned] at hstate
    cases hstate
  · intro hnone n hn haction hsucceeded
    refine (hcount n.id).mpr ((mem_toCompensate hn).mpr ⟨?_, haction⟩)
    refine (completed_iff_succeeded hrun hleft ?_).mpr hsucceeded
    exact fun habandoned => hnone n hn haction habandoned hsucceeded

def chainAbort : List (Event Unit) :=
  [.loop, .nodeEnd "a" [plainAnswer true], .receive "a", .loop, .nodeEnd "b" [plainAnswer false],
    .receive "b", .loop, .compensate (plainAnswer true)]

theorem chainAbort_saga_coverage : ∃ t result, Transition.run chainCall.step .initial chainAbort = some t ∧
      t.phase = .returned result ∧ t.compensated = ["a"] ∧
      ((∀ n ∈ chainCall.task.dag.nodes, n.compensateAction ≠ "" → Succeeded t n.id →
          t.compensated.count n.id = 1) ↔
        ∀ n ∈ chainCall.task.dag.nodes, n.compensateAction ≠ "" → n.id ∈ t.abandoned → ¬Succeeded t n.id) := by
  refine ⟨_, _, rfl, rfl, ?_, ?_⟩
  · decide +kernel
  · exact saga_coverage_iff chainCall chainAbort _ _ rfl rfl rfl rfl
      fun hstrict => absurd hstrict (by decide)

def pairCall : DagRun Unit :=
  plainCall { nodes := [plainNode "a" [], plainNode "b" []], edges := [] } 1 (by decide)

/-- One node fails; the other succeeds during the drain and is not compensated. -/
theorem drained_success_uncompensated : ∃ t result, Transition.run pairCall.step .initial
        [.loop, .nodeEnd "a" [plainAnswer false], .receive "a",
          .nodeEnd "b" [plainAnswer true], .receive "b"] = some t ∧
      t.phase = .returned result ∧ result.finalState = .failed ∧
      compensationRunsOnFailure pairCall.task.effectiveCompensationPolicy = true ∧
      plainNode "b" [] ∈ pairCall.task.dag.nodes ∧ (plainNode "b" []).compensateAction ≠ "" ∧
      Succeeded t "b" ∧ t.compensated.count "b" = 0 := by
  refine ⟨_, _, rfl, rfl, rfl, by decide, mem_cons_of_mem _ mem_cons_self, by decide,
    ⟨_, mem_cons_of_mem _ mem_cons_self, rfl⟩, by decide +kernel⟩

/-- What was called has succeeded or failed, and a summary adds up unless nothing was attempted. -/
def Tallied (s : RunState Raw) : Prop :=
  match s.phase with
  | .compensate todo attempted succeeded failedIDs _ => succeeded + failedIDs.length + todo.length = attempted
  | .returned result => ∀ c, result.compensation = some c → c.failed = c.failedNodeIDs.length ∧
      (c.attempted = 0 ∨ c.succeeded + c.failed = c.attempted)
  | _ => True

theorem Tallied.step {e : Event Raw} (h : Tallied s) (hstep : run.step s e = some s') : Tallied s' := by
  cases step_cases hstep with
  | ctxDone | nodeEnd => exact h
  | loop | receive | drain =>
    simp only [loopHead, pass, finish, onMessage, drained, buildAbortResult, startCompensation]
    split_ifs <;> simp [Tallied, conclude, resultOf_compensation]
  | @compensate _ _ todo _ _ _ _ _ _ hphase =>
    rw [Tallied, hphase] at h
    cases todo <;> simp [Tallied, afterCompensation, conclude, resultOf_compensation] at h ⊢ <;> grind

/-- In every run no node is compensated twice or after one it depends on, and the summary counts what was done. -/
theorem run_tallied {result : NopTaskResult Raw} (hrun : Transition.run run.step .initial events = some t)
    (hreturned : t.phase = .returned result) : t.compensated.Nodup ∧
    t.compensated.Pairwise (fun a b => ¬Relation.TransGen (fun a b => (a, b) ∈ run.task.dag.arcs) a b) ∧
    ∀ c, result.compensation = some c → c.attempted = t.compensated.length ∧ c.failed = c.failedNodeIDs.length ∧
      (c.attempted = 0 ∨ c.succeeded + c.failed = c.attempted) := by
  have hsummary := compensating_run hrun
  have htally := Transition.run_invariant run.step (fun _ _ _ => Tallied.step) hrun trivial
  rw [Compensating, hreturned] at hsummary
  rw [Tallied, hreturned] at htally
  rw [RunState.compensated]
  cases hsummary with
  | none | refused => simp_all
  | done d hcomp hattempted hcalls =>
    refine ⟨hcalls ▸ toCompensate_nodup _, hcalls ▸ toCompensate_pairwise, fun c hc => ⟨?_, htally c hc⟩⟩
    cases hcomp.symm.trans hc
    rw [hattempted, length_map]

theorem chainAbort_tallied : ∃ t result, Transition.run chainCall.step .initial chainAbort = some t ∧
    t.phase = .returned result ∧ t.compensated.Nodup :=
  ⟨_, _, rfl, rfl, (@run_tallied _ chainCall chainAbort _ _ rfl rfl).1⟩

/-! ### Nodes in flight at the return -/

variable {run : DagRun Raw} {s s' : RunState Raw} {e : Event Raw}

/-- The loop head meets the end of the context while nodes are in flight. -/
def Leaks (s : RunState Raw) (e : Event Raw) : Prop :=
  e = .loop ∧ s.ctxErr = true ∧ s.inFlight.size ≠ 0

def hasLeft (s : RunState Raw) : Bool :=
  match s.phase with
  | .compensate .. | .returned _ => true
  | _ => false

theorem Leaves.hasLeft (h : run.Leaves s s') : hasLeft s' = true := by
  rw [DagRun.hasLeft]
  rcases h.phase with ⟨exit, comp, hphase⟩ | ⟨todo, attempted, exit, hphase⟩ <;> rw [hphase]

/-- With a state for every node none is in flight. -/
theorem Inv.landed_of_full (h : run.Inv s) (hfull : ¬s.nodeStates.size < run.task.dag.nodes.length) :
    s.inFlight.size = 0 := by
  refine (GoMap.size_eq_zero_iff _).mpr fun id hid => ?_
  obtain ⟨hunstated, hstarted⟩ := h.maps.flying id hid
  obtain ⟨n, hn, rfl⟩ := mem_map.mp (h.starts.mem_ids hstarted)
  exact (GoMap.not_mem_iff _ _).mpr hunstated (h.maps.stated_of_full (not_lt.mp hfull) n hn)

theorem hasLeft_step (hleft : hasLeft s = true) (hstep : run.step s e = some s') :
    hasLeft s' = true ∧ s'.inFlight = s.inFlight := by
  cases step_cases hstep with
  | ctxDone | nodeEnd => exact ⟨hleft, rfl⟩
  | loop hphase | receive hphase | drain hphase => rw [hasLeft, hphase] at hleft; cases hleft
  | @compensate env id todo => cases todo <;> exact ⟨rfl, rfl⟩

theorem Inv.landed_step (h : run.Inv s) (hstep : run.step s e = some s') (hs : hasLeft s = false)
    (hs' : hasLeft s' = true) : s'.inFlight.size = 0 ∨ Leaks s e := by
  have hdrained : ∀ {code message v}, hasLeft (run.drained code message v) = true →
      (run.drained code message v).inFlight.size = 0 := by
    intro code message v hleft
    rw [drained_board]
    by_contra hflying
    rw [drained, if_neg hflying] at hleft
    cases hleft
  cases step_cases hstep with
  | ctxDone | nodeEnd => exact absurd (hs.symm.trans hs') Bool.false_ne_true
  | loop =>
    unfold DagRun.loopHead DagRun.pass at hs' ⊢
    dsimp only at hs' ⊢
    split_ifs at hs' ⊢ with hopen hctx hempty
    · rw [(buildAbortResult_leaves _ _).board]
      exact (em _).imp_right fun hflying => ⟨rfl, hctx, hflying⟩
    · rw [finish_leaves.board]
      exact .inl hempty
    · cases hs'
    · rw [finish_leaves.board]
      exact .inl (h.landed_of_full hopen)
  | receive =>
    unfold onMessage at hs' ⊢
    dsimp only at hs' ⊢
    split_ifs at hs' ⊢
    · exact .inl (hdrained hs')
    · cases hs'
  | drain => exact .inl (hdrained hs')
  | compensate hphase =>
    rw [hasLeft, hphase] at hs
    cases hs

theorem Inv.leak_step (h : run.Inv s) (hleak : Leaks s e) (hstep : run.step s e = some s') :
    hasLeft s' = true ∧ s'.inFlight.size ≠ 0 := by
  obtain ⟨rfl, hctx, hflying⟩ := hleak
  cases step_cases hstep with
  | loop =>
    have hleaves : run.Leaves { s with abandoned := s.inFlight.keys } (run.loopHead s) := by
      rw [DagRun.loopHead, if_pos (by_contra fun hfull => hflying (h.landed_of_full hfull)), if_pos hctx]
      exact buildAbortResult_leaves _ _
    exact ⟨hleaves.hasLeft, by rw [hleaves.board]; exact hflying⟩

/-- A call that has returned has no node in flight exactly if no loop head of its run met the end of the
context while nodes were in flight. -/
theorem landed_iff {events : List (Event Raw)} {t : RunState Raw} {result : NopTaskResult Raw}
    (hrun : Transition.run run.step .initial events = some t) (hreturned : t.phase = .returned result) :
    t.inFlight.size = 0 ↔ ∀ p ∈ Transition.steps run.step .initial events, ¬Leaks p.1 p.2 := by
  constructor
  · intro hlanded p hp hleak
    have hflying : hasLeft t = true ∧ t.inFlight.size ≠ 0 := by
      refine Transition.run_invariant_from run.step (I := fun s => hasLeft s = true ∧ s.inFlight.size ≠ 0)
        (C := fun _ _ => True) (fun _ _ _ h _ => h.step) ?_ hrun run.inv_initial (fun _ _ => trivial) hp
        fun _ h _ => h.leak_step hleak
      intro s e s' ⟨hleft, hflying⟩ _ hstep
      obtain ⟨hleft', hsame⟩ := hasLeft_step hleft hstep
      exact ⟨hleft', hsame ▸ hflying⟩
    exact hflying.2 hlanded
  · intro hnone
    have hlanded : run.Inv t ∧ (hasLeft t = true → t.inFlight.size = 0) := by
      refine Transition.run_invariant_of_steps run.step (C := fun s e => ¬Leaks s e) ?_ hrun
        (I := fun s => run.Inv s ∧ (hasLeft s = true → s.inFlight.size = 0)) ⟨run.inv_initial, nofun⟩ hnone
      intro s e s' ⟨hinv, hlanded⟩ hmeets hstep
      refine ⟨hinv.step hstep, fun hleft' => ?_⟩
      by_cases hleft : hasLeft s = true
      · rw [(hasLeft_step hleft hstep).2]
        exact hlanded hleft
      · exact (hinv.landed_step hstep (Bool.eq_false_iff.mpr hleft) hleft').resolve_right hmeets
    exact hlanded.2 (by rw [hasLeft, hreturned])

theorem chainAbort_landed : ∃ t result, Transition.run chainCall.step .initial chainAbort = some t ∧
    t.phase = .returned result ∧ (t.inFlight.size = 0 ↔
      ∀ p ∈ Transition.steps chainCall.step .initial chainAbort, ¬Leaks p.1 p.2) :=
  ⟨_, _, rfl, rfl, landed_iff rfl rfl⟩

/-- The context ends after the first of two nodes; the call returns while the second still runs. -/
theorem cancelled_call_leaves_node : ∃ t result, Transition.run pairCall.step .initial
      [.loop, .nodeEnd "a" [plainAnswer true], .receive "a", .ctxDone, .loop,
        .compensate (plainAnswer true)] = some t ∧ t.phase = .returned result ∧ t.inFlight.size = 1 :=
  ⟨_, _, rfl, rfl, by decide +kernel⟩

end DagRun

end NpsSdk.Nop
