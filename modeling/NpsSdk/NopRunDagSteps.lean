import NpsSdk.NopSchedulerInvariant

/-! The steps of `runDag`, said once: what each event needs and what it does. -/

namespace NpsSdk.Nop

variable {Raw : Type}

/-- The loop runs: no exit was taken yet. -/
def Phase.active : Phase Raw → Bool
  | .loop | .wait => true
  | _ => false

namespace DagRun

variable (run : DagRun Raw)

theorem accepted : Accepted run.task.dag run.topoOrder := validateDag_accepted run.valid

/-- What a step of `runDag` can do, one case for each branch. -/
inductive Stepped (s : RunState Raw) : Event Raw → RunState Raw → Prop
  | ctxDone : Stepped s .ctxDone { s with ctxErr := true }
  | loop (hphase : s.phase = .loop) : Stepped s .loop (run.loopHead s)
  | nodeEnd {envs : List (AttemptEnv Raw)} {d : Dispatch Raw} {o : NodeOutcome Raw}
      {updates : List (SubtaskUpdate Raw)} (hreturned : hasReturned s = false)
      (hd : d ∈ s.dispatches) (hnew : d.node.id ∉ s.ended.map Prod.fst)
      (hexec : executeNodeWithRetry run.host run.opts run.task d.node (run.uuid s.uuids) d.context
        envs = some (o, updates)) :
      Stepped s (.nodeEnd d.node.id envs)
        { s with
          toBoard := s.endGoroutine d.node.id o
          uuids := s.uuids + 2
          subtaskWrites := s.subtaskWrites ++ updates }
  | receive {m : String × NodeOutcome Raw} (hphase : s.phase = .wait) (hm : m ∈ s.sending) :
      Stepped s (.receive m.1) (run.onMessage m.1 m.2 s)
  | drain {m : String × NodeOutcome Raw} {code message : String}
      (hphase : s.phase = .drain code message) (hm : m ∈ s.sending) :
      Stepped s (.receive m.1)
        (run.drained code message { s with toBoard := s.takeMessage m.1 })
  | compensate {env : AttemptEnv Raw} {id : String} {todo : List String} {attempted succeeded : Nat}
      {failedIDs : List String} {exit : Exit Raw} {n : DagNode Raw} {o : NodeOutcome Raw}
      (hphase : s.phase = .compensate (id :: todo) attempted succeeded failedIDs exit)
      (hn : run.task.dag.node? id = some n)
      (hexec : executeNodeOnce run.host run.opts run.task (compNode n) s.nodeResults env = some o) :
      Stepped s (.compensate env)
        (run.afterCompensation todo attempted
          (if o.state = .completed then succeeded + 1 else succeeded)
          (if o.state = .completed then failedIDs else failedIDs ++ [id]) exit
          { s with
            uuids := s.uuids + 2
            compensations := s.compensations ++ [run.compensationCall n env s] })

variable {run} {s s' : RunState Raw} {e : Event Raw}

theorem endNode_stepped {id : String} {envs : List (AttemptEnv Raw)}
    (h : run.endNode id envs s = some s') : run.Stepped s (.nodeEnd id envs) s' := by
  unfold endNode at h
  split_ifs at h with hblocked
  rw [not_or, not_or, Bool.not_eq_true] at hblocked
  obtain ⟨hreturned, hnew, -⟩ := hblocked
  cases hfind : s.dispatches.find? fun d => d.node.id = id with
  | none =>
    rw [hfind] at h
    cases h
  | some d =>
    rw [hfind] at h
    obtain ⟨⟨o, updates⟩, hexec, rfl⟩ := Option.map_eq_some_iff.mp h
    have hd := List.mem_of_find?_eq_some hfind
    have hid : d.node.id = id := by simpa using List.find?_some hfind
    subst hid
    exact .nodeEnd hreturned hd hnew hexec

theorem receive_stepped {id : String} (h : run.receive id s = some s') : run.Stepped s (.receive id) s' := by
  unfold receive at h
  cases hfind : s.sending.find? fun m => m.1 = id with
  | none =>
    rw [hfind] at h
    cases h
  | some m =>
    rw [hfind] at h
    have hm := List.mem_of_find?_eq_some hfind
    have hid : m.1 = id := by simpa using List.find?_some hfind
    subst hid
    cases hphase : s.phase with
    | wait =>
      rw [hphase] at h
      cases h
      exact .receive hphase hm
    | drain =>
      rw [hphase] at h
      cases h
      exact .drain hphase hm
    | loop | compensate | returned => rw [hphase] at h; cases h

theorem compensateNext_stepped {env : AttemptEnv Raw} (h : run.compensateNext env s = some s') :
    run.Stepped s (.compensate env) s' := by
  unfold compensateNext at h
  split_ifs at h
  split at h
  · rename_i id todo attempted succeeded failedIDs exit hphase
    cases hn : run.task.dag.node? id with
    | none =>
      rw [hn] at h
      cases h
    | some n =>
      rw [hn] at h
      obtain ⟨o, hexec, rfl⟩ := Option.map_eq_some_iff.mp h
      exact .compensate hphase hn hexec
  · cases h

theorem step_cases (h : run.step s e = some s') : run.Stepped s e s' := by
  cases e with
  | ctxDone =>
    cases h
    exact .ctxDone
  | loop =>
    simp only [step] at h
    split at h
    · rename_i hphase
      cases h
      exact .loop hphase
    · cases h
  | nodeEnd => exact endNode_stepped h
  | receive id => exact receive_stepped h
  | compensate env => exact compensateNext_stepped h

/-! ### Leaving the loop -/

variable (run) in
/-- The call has left the loop; the store may be told that compensation starts. -/
structure Leaves (s s' : RunState Raw) : Prop where
  board : s'.toBoard = s.toBoard
  ctxErr : s'.ctxErr = s.ctxErr
  abandoned : s'.abandoned = s.abandoned
  stateWrites : s'.stateWrites = s.stateWrites ∨ s'.stateWrites = s.stateWrites ++ [.compensating]
  phase : (∃ exit comp, s'.phase = .returned (run.resultOf exit s.nodeResults comp)) ∨
    ∃ todo attempted exit, s'.phase = .compensate todo attempted 0 [] exit

theorem conclude_leaves (exit : Exit Raw) (comp : Option SagaCompensationResult) :
    run.Leaves s (run.conclude exit comp s) :=
  ⟨rfl, rfl, rfl, .inl rfl, .inl ⟨exit, comp, rfl⟩⟩

theorem startCompensation_leaves (exit : Exit Raw) : run.Leaves s (run.startCompensation exit s) := by
  unfold startCompensation
  split_ifs
  · exact conclude_leaves exit _
  · exact conclude_leaves exit _
  · exact ⟨rfl, rfl, rfl, .inr rfl, .inr ⟨_, _, _, rfl⟩⟩

theorem buildAbortResult_leaves (code message : String) : run.Leaves s (run.buildAbortResult code message s) := by
  unfold buildAbortResult
  split_ifs
  · exact startCompensation_leaves _
  · exact conclude_leaves _ none

theorem finish_leaves : run.Leaves s (run.finish s) := by
  unfold finish
  dsimp only
  split_ifs
  · exact buildAbortResult_leaves _ _
  · exact startCompensation_leaves _
  · exact conclude_leaves _ none

theorem Leaves.not_active (h : run.Leaves s s') : ¬s'.phase.active = true := by
  rcases h.phase with ⟨exit, comp, hphase⟩ | ⟨todo, attempted, exit, hphase⟩ <;> rw [hphase] <;>
    exact Bool.false_ne_true

theorem afterCompensation_board (todo : List String) (attempted succeeded : Nat)
    (failedIDs : List String) (exit : Exit Raw) :
    (run.afterCompensation todo attempted succeeded failedIDs exit s).toBoard = s.toBoard := by
  cases todo <;> rfl

theorem afterCompensation_not_active (todo : List String) (attempted succeeded : Nat)
    (failedIDs : List String) (exit : Exit Raw) :
    ¬(run.afterCompensation todo attempted succeeded failedIDs exit s).phase.active = true := by
  cases todo <;> exact Bool.false_ne_true

/-! ### The books after a step -/

theorem pass_board : (run.pass s).toBoard = run.passBoard s.toBoard := by
  unfold pass
  dsimp only
  split_ifs
  · exact finish_leaves.board
  · rfl

theorem drained_board (code message : String) : (run.drained code message s).toBoard = s.toBoard := by
  unfold drained
  split_ifs
  · exact (buildAbortResult_leaves code message).board
  · rfl

theorem drained_not_active (code message : String) : ¬(run.drained code message s).phase.active = true := by
  unfold drained
  split_ifs
  · exact (buildAbortResult_leaves code message).not_active
  · exact Bool.false_ne_true

theorem onMessage_board (id : String) (o : NodeOutcome Raw) :
    (run.onMessage id o s).toBoard = (s.takeMessage id).record id o := by
  unfold onMessage
  dsimp only
  split_ifs
  · exact drained_board _ _
  · rfl

/-! ### Results and writes of a step -/

theorem resultOf_finalState (exit : Exit Raw) (nodeResults : GoMap Raw) (comp : Option SagaCompensationResult) :
    (run.resultOf exit nodeResults comp).finalState = .completed ∨
      (run.resultOf exit nodeResults comp).finalState = .failed := by
  cases exit with
  | success => exact .inl rfl
  | abort => exact .inr rfl

variable (run) in
/-- The store is told at most that compensation starts, and a result that is returned was built by
`newSuccessResult` or `newFailureResult`. -/
structure Reports (s s' : RunState Raw) : Prop where
  stateWrites : s'.stateWrites = s.stateWrites ∨ s'.stateWrites = s.stateWrites ++ [.compensating]
  result : ∀ result, s'.phase = .returned result → s.phase = .returned result ∨
    ∃ exit nodeResults comp, result = run.resultOf exit nodeResults comp

theorem Leaves.reports {v : RunState Raw} (h : run.Leaves v s')
    (hwrites : v.stateWrites = s.stateWrites) : run.Reports s s' := by
  refine ⟨hwrites ▸ h.stateWrites, ?_⟩
  intro result hreturned
  rcases h.phase with ⟨exit, comp, hphase⟩ | ⟨todo, attempted, exit, hphase⟩
  · rw [hphase] at hreturned
    cases hreturned
    exact .inr ⟨exit, _, comp, rfl⟩
  · rw [hphase] at hreturned
    cases hreturned

theorem drained_reports {v : RunState Raw} (hwrites : v.stateWrites = s.stateWrites)
    (code message : String) : run.Reports s (run.drained code message v) := by
  unfold drained
  split_ifs
  · exact (buildAbortResult_leaves code message).reports hwrites
  · exact ⟨.inl hwrites, fun _ hreturned => nomatch hreturned⟩

theorem loopHead_reports : run.Reports s (run.loopHead s) := by
  unfold loopHead pass
  dsimp only
  split_ifs
  · exact (buildAbortResult_leaves _ _).reports rfl
  · exact finish_leaves.reports rfl
  · exact ⟨.inl rfl, fun _ hreturned => nomatch hreturned⟩
  · exact finish_leaves.reports rfl

theorem onMessage_reports (id : String) (o : NodeOutcome Raw) : run.Reports s (run.onMessage id o s) := by
  unfold onMessage
  dsimp only
  split_ifs
  · apply drained_reports
    rfl
  · exact ⟨.inl rfl, fun _ hreturned => nomatch hreturned⟩

theorem step_reports (hstep : run.step s e = some s') : run.Reports s s' := by
  cases step_cases hstep with
  | ctxDone | nodeEnd hreturned => exact ⟨.inl rfl, fun _ hreturned => .inl hreturned⟩
  | loop => exact loopHead_reports
  | receive => exact onMessage_reports _ _
  | drain =>
    apply drained_reports
    rfl
  | @compensate env id todo attempted succeeded failedIDs exit n o hphase hn hexec =>
    cases todo with
    | nil => exact (conclude_leaves exit _).reports rfl
    | cons => exact ⟨.inl rfl, fun _ hreturned => nomatch hreturned⟩

/-! ### The invariant of a run -/

variable (run) in
/-- The books agree with the graph; while the loop runs, what was started is in flight or received. -/
structure Inv (s : RunState Raw) : Prop where
  maps : s.MapInv run.task.dag run.opts.maxConcurrentNodes
  starts : s.DispatchInv run.task.dag
  tracked : s.phase.active = true → s.Tracked

theorem Inv.running (h : run.Inv s) (hactive : s.phase.active = true) :
    s.Running run.task.dag run.opts.maxConcurrentNodes := ⟨h.maps, h.starts, h.tracked hactive⟩

theorem Inv.of_running (h : s.Running run.task.dag run.opts.maxConcurrentNodes) : run.Inv s :=
  ⟨h.maps, h.starts, fun _ => h.tracked⟩

theorem Inv.of_board (h : run.Inv s) (hboard : s'.toBoard = s.toBoard)
    (hactive : s'.phase.active = true → s.phase.active = true) : run.Inv s' := by
  refine ⟨?_, ?_, ?_⟩
  · rw [hboard]
    exact h.maps
  · rw [hboard]
    exact h.starts
  · intro hs'
    rw [hboard]
    exact h.tracked (hactive hs')

variable (run) in
theorem inv_initial : run.Inv .initial := by
  have hlimit := run.limit_pos
  refine ⟨?_, ?_, fun _ id hid => absurd hid List.not_mem_nil⟩
  · constructor <;> simp [RunState.initial, Board.startedIDs, Snapshot]
    omega
  · constructor <;> simp [RunState.initial, Board.startedIDs]

theorem Inv.pass (h : run.Inv s) (hphase : s.phase = .loop) : run.Inv (run.pass s) := by
  apply Inv.of_running
  rw [pass_board]
  exact (h.running (by rw [hphase]; rfl)).pass run.accepted.nodup

theorem Inv.loopHead (h : run.Inv s) (hphase : s.phase = .loop) : run.Inv (run.loopHead s) := by
  unfold DagRun.loopHead
  split_ifs
  · have hleaves : run.Leaves { s with abandoned := s.inFlight.keys }
        (run.buildAbortResult errTaskCancelled "Task cancelled."
          { s with abandoned := s.inFlight.keys }) := buildAbortResult_leaves _ _
    exact h.of_board hleaves.board fun hactive => absurd hactive hleaves.not_active
  · exact h.pass hphase
  · have hleaves : run.Leaves s (run.finish s) := finish_leaves
    exact h.of_board hleaves.board fun hactive => absurd hactive hleaves.not_active

/-- Every step keeps the invariant. -/
theorem Inv.step (h : run.Inv s) (hstep : run.step s e = some s') : run.Inv s' := by
  cases step_cases hstep with
  | ctxDone => exact h.of_board rfl fun hactive => hactive
  | loop hphase => exact h.loopHead hphase
  | @nodeEnd envs d o updates hreturned hd hnew hexec =>
    have hstarted : d.node.id ∈ s.startedIDs := List.mem_map_of_mem hd
    exact ⟨h.maps.endGoroutine hstarted hnew (retryLoop_settled hexec),
      h.starts.of_grows rfl fun _ _ hstate => hstate, h.tracked⟩
  | receive hphase hm =>
    apply Inv.of_running
    rw [onMessage_board]
    exact (h.running (by rw [hphase]; rfl)).receive hm
  | @drain m code message hphase hm =>
    refine ⟨?_, ?_, ?_⟩
    · rw [drained_board]
      exact h.maps.takeMessage hm
    · rw [drained_board]
      exact h.starts.of_grows rfl fun _ _ hstate => hstate
    · exact fun hactive => absurd hactive (drained_not_active code message)
  | compensate =>
    refine h.of_board (afterCompensation_board _ _ _ _ _) fun hactive => ?_
    exact absurd hactive (afterCompensation_not_active _ _ _ _ _)

theorem inv_run {events : List (Event Raw)} {t : RunState Raw}
    (hrun : Transition.run run.step .initial events = some t) : run.Inv t :=
  Transition.run_invariant run.step (fun _ _ _ h hstep => h.step hstep) hrun run.inv_initial

end DagRun

end NpsSdk.Nop
