import NpsSdk.NopExecute

/-! The stored state of a task and the reports about it. The store takes every write, so a `Cancel` that reaches a saved
record either changes a final state or is itself overwritten; and two exits of `Execute` skip the callback, one of them
with the compensation summary. -/

namespace NpsSdk.Nop

open Transition Option List

variable {Raw : Type}

def NopTaskResult.Final (result : NopTaskResult Raw) : Prop :=
  result.finalState = .completed ∨ result.finalState = .failed

variable {result : NopTaskResult Raw}

theorem NopTaskResult.Final.isTerminal (h : result.Final) : result.finalState.isTerminal = true := by
  rcases h with h | h <;> rw [h] <;> decide

theorem NopTaskResult.Final.ne_cancelled (h : result.Final) : result.finalState ≠ .cancelled := by
  rcases h with h | h <;> rw [h] <;> decide

namespace Execution

variable {x : Execution Raw} {s s' : ExecState Raw} {e : ExecEvent Raw}

variable {store : Option TaskState} {result : NopTaskResult Raw}

theorem updateState_eq_some {state written : TaskState} (h : updateState store written = some state) :
    state = written := by
  obtain ⟨old, -, hstate⟩ := map_eq_some_iff.mp h
  exact hstate.symm

theorem updateState_none (written : TaskState) : updateState none written = none := rfl

/-- What `runDag` writes to the store in one step. -/
theorem foldl_updateState_dag {run : DagRun Raw} {d d' : RunState Raw} {event : Event Raw}
    (hstep : run.step d event = some d') (store : Option TaskState) :
    (d'.stateWrites.drop d.stateWrites.length).foldl updateState store = store ∨
      (d'.stateWrites.drop d.stateWrites.length).foldl updateState store = updateState store .compensating := by
  rcases (DagRun.step_reports hstep).stateWrites with hsame | hmore
  · rw [hsame, drop_length]
    exact .inl rfl
  · rw [hmore, drop_left]
    exact .inr rfl

/-! ### The results of an execution -/

def outgoing : Stage Raw → Option (NopTaskResult Raw)
  | .finished result => some result
  | .finalizing result _ => some result
  | _ => none

theorem outgoing_dagStage {phase : Phase Raw} (h : outgoing (dagStage phase) = some result) :
    phase = .returned result := by
  cases phase with
  | returned r =>
    cases h
    rfl
  | loop | wait | drain | compensate => cases h

theorem outgoing_inspectStage {elapsed : Bool} {r result : NopTaskResult Raw}
    (h : outgoing (x.inspectStage s elapsed r) = some result) : result = x.timeoutResult ∨ result = r := by
  unfold inspectStage at h
  split_ifs at h
  · exact .inl (some.inj h).symm
  · exact .inr (some.inj h).symm

theorem outgoing_preflightStage (replies : List PreflightReply) :
    outgoing (preflightStage replies : Stage Raw) = none := by
  unfold preflightStage
  split_ifs <;> rfl

structure Finals (s : ExecState Raw) : Prop where
  dag : ∀ result, s.dag.phase = .returned result → result.Final
  out : ∀ result, outgoing s.stage = some result → result.Final

theorem Finals.step (h : Finals s) (hstep : x.step s e = some s') : Finals s' := by
  cases step_cases hstep with
  | rejected | checked | save | register | preflight | refuse
  | finalize => exact ⟨h.dag, fun _ hout => nomatch hout⟩
  | start => exact ⟨(fun _ hreturned => nomatch hreturned), fun _ hout => nomatch hout⟩
  | verdict =>
    refine ⟨h.dag, fun result hout => ?_⟩
    rw [outgoing_preflightStage] at hout
    cases hout
  | @dag event run dag hstage hrun hdag =>
    have hfinal : ∀ result, dag.phase = .returned result → result.Final := by
      intro result hreturned
      rcases (DagRun.step_reports hdag).result result hreturned with hold | ⟨exit, nr, comp, rfl⟩
      · exact h.dag result hold
      · exact DagRun.resultOf_finalState exit nr comp
    exact ⟨hfinal, fun result hout => hfinal result (outgoing_dagStage hout)⟩
  | @inspect elapsed r hstage =>
    refine ⟨h.dag, fun result hout => ?_⟩
    rcases outgoing_inspectStage hout with rfl | rfl
    · exact .inr rfl
    · exact h.out result (by rw [hstage]; rfl)
  | timer | parentCancel | cancelWrite => exact ⟨h.dag, h.out⟩
  | cancelSignal =>
    split_ifs <;> exact ⟨h.dag, h.out⟩
  | idle => exact h

theorem finals_initial : Finals (ExecState.initial : ExecState Raw) :=
  ⟨(fun _ hreturned => nomatch hreturned), fun _ hout => nomatch hout⟩

/-! ### The stored state -/

variable (x) in
/-- No step of the run changes a terminal state in the store. -/
def Absorbing (events : List (ExecEvent Raw)) : Prop :=
  ∀ p ∈ steps x.step .initial events, ∀ s', x.step p.1 p.2 = some s' →
    ∀ state, p.1.store = some state → state.isTerminal = true → s'.store = some state

/-- The store ends with the state of the result, or with the one a `Cancel` wrote. -/
def FinalStored (s : ExecState Raw) : Prop :=
  ∀ result state, s.stage = .returned result → s.store = some state →
    state = result.finalState ∨ state = .cancelled

/-- The stored state is open until `Execute` returns and then the one of its result. -/
structure Undisturbed (s : ExecState Raw) : Prop where
  unsaved : s.stage = .idle ∨ s.stage = .checked → s.store = none
  running : s.stage.hasTimer = true → ∀ state, s.store = some state → state.isTerminal = false
  returned : ∀ result, s.stage = .returned result → ∀ state, s.store = some state →
    state = result.finalState

theorem hasTimer_dagStage (phase : Phase Raw) : (dagStage phase).hasTimer = true := by
  cases phase <;> rfl

theorem hasTimer_inspectStage (elapsed : Bool) (result : NopTaskResult Raw) :
    (x.inspectStage s elapsed result).hasTimer = true := by
  unfold inspectStage
  split_ifs <;> rfl

theorem hasTimer_preflightStage (replies : List PreflightReply) :
    (preflightStage replies : Stage Raw).hasTimer = true := by
  unfold preflightStage
  split_ifs <;> rfl

theorem Undisturbed.of_running (htimer : s.stage.hasTimer = true)
    (hstore : ∀ state, s.store = some state → state.isTerminal = false) : Undisturbed s where
  unsaved h := by rcases h with h | h <;> rw [h] at htimer <;> cases htimer
  running _ := hstore
  returned result h := by
    rw [h] at htimer
    cases htimer

theorem Undisturbed.of_write (htimer : s.stage.hasTimer = true) {written : TaskState}
    (hwrite : s.store = updateState store written) (hopen : written.isTerminal = false) : Undisturbed s := by
  refine Undisturbed.of_running htimer fun state hstate => ?_
  rw [hwrite] at hstate
  rw [updateState_eq_some hstate]
  exact hopen

theorem Undisturbed.of_return (hstage : s.stage = .returned result)
    (hwrite : s.store = updateState store result.finalState) : Undisturbed s where
  unsaved h := by rcases h with h | h <;> rw [h] at hstage <;> cases hstage
  running h := by
    rw [hstage] at h
    cases h
  returned r h state hstate := by
    rw [hstage] at h
    cases h
    exact updateState_eq_some (hwrite ▸ hstate)

theorem Undisturbed.of_same (h : Undisturbed s) (hstage : s'.stage = s.stage)
    (hstore : s'.store = s.store) : Undisturbed s' := by
  refine ⟨?_, ?_, ?_⟩
  · rw [hstage, hstore]
    exact h.unsaved
  · rw [hstage, hstore]
    exact h.running
  · rw [hstage, hstore]
    exact h.returned

theorem Undisturbed.step (h : Undisturbed s) (hquiet : e = .cancelWrite → s.store = none)
    (hstep : x.step s e = some s') : Undisturbed s' := by
  cases step_cases hstep with
  | rejected hstage =>
    refine ⟨fun _ => h.unsaved hstage, (fun htimer => nomatch htimer), ?_⟩
    intro result _ state hstate
    rw [show _ = none from h.unsaved hstage] at hstate
    cases hstate
  | checked hstage =>
    have hnone := h.unsaved (.inl hstage)
    refine ⟨fun _ => hnone, (fun htimer => nomatch htimer), fun _ hreturned => nomatch hreturned⟩
  | save =>
    refine Undisturbed.of_running rfl fun state hstate => ?_
    cases hstate
    rfl
  | register hstage => exact Undisturbed.of_running rfl (h.running (by rw [hstage]; rfl))
  | preflight | start => exact Undisturbed.of_write rfl rfl rfl
  | refuse | finalize => exact Undisturbed.of_return rfl rfl
  | verdict hstage =>
    exact Undisturbed.of_running (hasTimer_preflightStage _) (h.running (by rw [hstage]; rfl))
  | dag hstage hrun hdag =>
    rcases foldl_updateState_dag hdag s.store with hsame | hwrite
    · refine Undisturbed.of_running (hasTimer_dagStage _) ?_
      rw [hsame]
      exact h.running (by rw [hstage]; rfl)
    · exact Undisturbed.of_write (hasTimer_dagStage _) hwrite rfl
  | inspect hstage =>
    exact Undisturbed.of_running (hasTimer_inspectStage _ _) (h.running (by rw [hstage]; rfl))
  | timer | parentCancel => exact h.of_same rfl rfl
  | cancelSignal =>
    split_ifs <;> exact h.of_same rfl rfl
  | cancelWrite =>
    refine h.of_same rfl ?_
    rw [hquiet rfl, updateState_none]
  | idle => exact h

theorem undisturbed_initial : Undisturbed (ExecState.initial : ExecState Raw) :=
  ⟨fun _ => rfl, (fun htimer => nomatch htimer), fun _ hreturned => nomatch hreturned⟩

/-- Where every step respects terminal states, the store keeps the state of the result once
`Execute` has returned. -/
structure Respected (s : ExecState Raw) : Prop where
  unsaved : s.stage = .idle ∨ s.stage = .checked → s.store = none
  returned : ∀ result, s.stage = .returned result → ∀ state, s.store = some state →
    state = result.finalState ∧ result.Final

def Keeps (s s' : ExecState Raw) : Prop :=
  ∀ state, s.store = some state → state.isTerminal = true → s'.store = some state

theorem Respected.of_timer (htimer : s.stage.hasTimer = true) : Respected s where
  unsaved h := by rcases h with h | h <;> rw [h] at htimer <;> cases htimer
  returned result h := by
    rw [h] at htimer
    cases htimer

theorem Respected.of_same (h : Respected s) (hstage : s'.stage = s.stage)
    (hstore : s'.store = s.store) : Respected s' := by
  refine ⟨?_, ?_⟩
  · rw [hstage, hstore]
    exact h.unsaved
  · rw [hstage, hstore]
    exact h.returned

theorem Respected.of_return (hstage : s.stage = .returned result)
    (hwrite : s.store = updateState store result.finalState) (hfinal : result.Final) : Respected s where
  unsaved h := by rcases h with h | h <;> rw [h] at hstage <;> cases hstage
  returned r h state hstate := by
    rw [hstage] at h
    cases h
    exact ⟨updateState_eq_some (hwrite ▸ hstate), hfinal⟩

theorem Respected.step (h : Respected s) (hfinals : Finals s) (hkeeps : Keeps s s')
    (hstep : x.step s e = some s') : Respected s' := by
  cases step_cases hstep with
  | rejected hstage =>
    refine ⟨fun _ => h.unsaved hstage, ?_⟩
    intro result _ state hstate
    rw [show _ = none from h.unsaved hstage] at hstate
    cases hstate
  | checked hstage =>
    have hnone := h.unsaved (.inl hstage)
    exact ⟨fun _ => hnone, fun _ hreturned => nomatch hreturned⟩
  | save | register | preflight | start => exact Respected.of_timer rfl
  | refuse => exact Respected.of_return rfl rfl (.inr rfl)
  | verdict => exact Respected.of_timer (hasTimer_preflightStage _)
  | dag => exact Respected.of_timer (hasTimer_dagStage _)
  | inspect => exact Respected.of_timer (hasTimer_inspectStage _ _)
  | @finalize result callback hstage =>
    exact Respected.of_return rfl rfl (hfinals.out result (by rw [hstage]; rfl))
  | timer | parentCancel => exact h.of_same rfl rfl
  | cancelSignal =>
    split_ifs <;> exact h.of_same rfl rfl
  | cancelWrite =>
    refine ⟨?_, ?_⟩
    · intro hstage
      rw [h.unsaved hstage, updateState_none]
    · intro result hstage state hstate
      obtain ⟨old, hold, -⟩ := map_eq_some_iff.mp hstate
      obtain ⟨rfl, hfinal⟩ := h.returned result hstage old hold
      have hkept := hkeeps _ hold hfinal.isTerminal
      exact ⟨some.inj (hstate.symm.trans hkept), hfinal⟩
  | idle => exact h

/-- A saved record that a `Cancel` has marked while `Execute` runs. -/
structure Doomed (s : ExecState Raw) : Prop where
  store : s.store = some .cancelled
  running : s.stage.hasTimer = true

/-- Such an execution cannot return without overwriting the mark. -/
theorem Doomed.step (h : Doomed s) (hfinals : Finals s) (hkeeps : Keeps s s')
    (hstep : x.step s e = some s') : Doomed s' := by
  have hstore : s'.store = some .cancelled := hkeeps .cancelled h.store rfl
  have hrunning := h.running
  refine ⟨hstore, ?_⟩
  cases step_cases hstep with
  | rejected hstage => rcases hstage with hstage | hstage <;> rw [hstage] at hrunning <;> cases hrunning
  | checked hstage =>
    rw [hstage] at hrunning
    cases hrunning
  | save | register | preflight | start => rfl
  | refuse => exact nomatch updateState_eq_some hstore
  | verdict => exact hasTimer_preflightStage _
  | dag => exact hasTimer_dagStage _
  | inspect => exact hasTimer_inspectStage _ _
  | @finalize result callback hstage =>
    have hfinal := hfinals.out result (by rw [hstage]; rfl)
    exact absurd (updateState_eq_some hstore).symm hfinal.ne_cancelled
  | timer | parentCancel | cancelWrite | idle => exact hrunning
  | cancelSignal =>
    split_ifs <;> exact hrunning

theorem stage_of_not_hasTimer {stage : Stage Raw} (h : ¬stage.hasTimer = true) :
    (stage = .idle ∨ stage = .checked) ∨ ∃ result, stage = .returned result := by
  cases stage with
  | idle => exact .inl (.inl rfl)
  | checked => exact .inl (.inr rfl)
  | returned result => exact .inr ⟨result, rfl⟩
  | saved | registered | preflight | preflightFailed | starting | running | finished
  | finalizing => exact absurd rfl h

theorem cancelWrite_step (hstep : x.step s .cancelWrite = some s') :
    s'.stage = s.stage ∧ s'.store = updateState s.store .cancelled := by
  simp only [step] at hstep
  split_ifs at hstep
  cases hstep
  exact ⟨rfl, rfl⟩

theorem store_of_returned (hstage : s.stage = .returned result) (hquiet : e = .cancelWrite → s.store = none)
    (hstep : x.step s e = some s') : s'.store = s.store := by
  cases step_cases hstep with
  | rejected | checked | register | verdict | inspect | timer | parentCancel | idle => rfl
  | cancelSignal => split_ifs <;> rfl
  | cancelWrite =>
    rw [hquiet rfl, updateState_none]
  | save h | preflight h | refuse h | dag h | finalize h => rw [hstage] at h; cases h
  | start h => rw [hstage] at h; rcases h with h | h <;> cases h

/-- A `Cancel` that reaches a saved record breaks a run that returns: it changes the final state, or
its own mark is overwritten. -/
theorem no_cancelWrite_of_absorbing {events : List (ExecEvent Raw)} {t : ExecState Raw}
    (hrun : run x.step .initial events = some t) (hreturned : t.stage = .returned result)
    (habsorbing : x.Absorbing events) {p : ExecState Raw × ExecEvent Raw}
    (hp : p ∈ steps x.step .initial events) (hcancel : p.2 = .cancelWrite) : p.1.store = none := by
  by_contra hsaved
  obtain ⟨old, hold⟩ := ne_none_iff_exists'.mp hsaved
  obtain ⟨before, after, v, hsplit, hbefore, hv, hafter⟩ := steps_split x.step hrun hp
  have hkeeps : ∀ q ∈ steps x.step .initial events, ∀ s', x.step q.1 q.2 = some s' → Keeps q.1 s' := habsorbing
  rw [hsplit, steps_around x.step hbefore hv, forall_mem_append, forall_mem_cons] at hkeeps
  obtain ⟨hkeepsBefore, hkeepsHere, hkeepsAfter⟩ := hkeeps
  obtain ⟨hfinals, hrespected⟩ := run_invariant_of_steps x.step
    (I := fun s => Finals s ∧ Respected s) (C := fun s e => ∀ s', x.step s e = some s' → Keeps s s')
    (fun _ _ _ h hc hstep => ⟨h.1.step hstep, h.2.step h.1 (hc _ hstep) hstep⟩) hbefore
    ⟨finals_initial, fun _ => rfl, fun _ hreturned => nomatch hreturned⟩ hkeepsBefore
  obtain ⟨hstage, hstore⟩ := cancelWrite_step (hcancel ▸ hv)
  rw [hold] at hstore
  by_cases htimer : p.1.stage.hasTimer = true
  · have hdoomed : Doomed v := ⟨hstore, hstage ▸ htimer⟩
    have hend := run_invariant_of_steps x.step
      (I := fun s => Finals s ∧ Doomed s) (C := fun s e => ∀ s', x.step s e = some s' → Keeps s s')
      (fun _ _ _ h hc hstep => ⟨h.1.step hstep, h.2.step h.1 (hc _ hstep) hstep⟩) hafter
      ⟨hfinals.step hv, hdoomed⟩ hkeepsAfter
    have hrunning := hend.2.running
    rw [hreturned] at hrunning
    cases hrunning
  · rcases stage_of_not_hasTimer htimer with hunsaved | ⟨r, hr⟩
    · exact hsaved (hrespected.unsaved hunsaved)
    obtain ⟨rfl, hfinal⟩ := hrespected.returned r hr old hold
    have hkept := hkeepsHere v hv _ hold hfinal.isTerminal
    exact hfinal.ne_cancelled (some.inj (hkept.symm.trans hstore))

/-- In a run in which `Execute` returns, terminal states are absorbing and the final state is the one
of the result exactly if no `Cancel` writes to the saved record. -/
theorem terminal_absorbing_iff (x : Execution Raw) (events : List (ExecEvent Raw))
    (t : ExecState Raw) (result : NopTaskResult Raw) (hrun : run x.step .initial events = some t)
    (hreturned : t.stage = .returned result) : x.Absorbing events ∧ FinalStored t ↔
      ∀ p ∈ steps x.step .initial events, p.2 = .cancelWrite → p.1.store = none := by
  refine ⟨?_, ?_⟩
  · intro hboth p hp hcancel
    exact no_cancelWrite_of_absorbing hrun hreturned hboth.1 hp hcancel
  · intro hquiet
    have hundisturbed : ∀ {first : List (ExecEvent Raw)} {v : ExecState Raw}, run x.step .initial first = some v →
        (∀ q ∈ steps x.step .initial first, q.2 = .cancelWrite → q.1.store = none) →
        Undisturbed v := fun hfirst hsteps =>
      run_invariant_of_steps x.step (C := fun s e => e = .cancelWrite → s.store = none)
        (fun _ _ _ h hc hstep => h.step hc hstep) hfirst undisturbed_initial hsteps
    refine ⟨?_, ?_⟩
    · intro p hp s' hs' state hstate hterminal
      obtain ⟨before, after, v, hsplit, hbefore, hv, -⟩ := steps_split x.step hrun hp
      have hsteps := hquiet
      rw [hsplit, steps_around x.step hbefore hv, forall_mem_append] at hsteps
      have hp1 := hundisturbed hbefore hsteps.1
      by_cases htimer : p.1.stage.hasTimer = true
      · rw [hp1.running htimer state hstate] at hterminal
        cases hterminal
      rcases stage_of_not_hasTimer htimer with hunsaved | ⟨r, hr⟩
      · rw [hp1.unsaved hunsaved] at hstate
        cases hstate
      · rw [store_of_returned hr (hquiet p hp) hs']
        exact hstate
    · intro r state hr hstate
      exact .inl ((hundisturbed hrun hquiet).returned r hr state hstate)

/-- A `Cancel` before the record is saved, the run of one node, and then looks at the status and a second call. -/
def earlyCancelRun : List (ExecEvent Unit) :=
  [.getStatus, .cancelSignal, .cancelWrite] ++ oneNodeRun ++ [.getStatus, .cancelSignal, .executeAgain, .getStatus]

/-- If the event is the write of a `Cancel`, there is no record. -/
def findsNoRecord (p : ExecState Unit × ExecEvent Unit) : Bool :=
  match p.2 with
  | .cancelWrite => p.1.store.isNone
  | _ => true

theorem earlyCancelRun_absorbing : ∃ t result, run oneNodeExecution.step .initial earlyCancelRun = some t ∧
      t.stage = .returned result ∧ t.store = some .completed ∧ t.pendingCancels = 1 ∧
      oneNodeExecution.Absorbing earlyCancelRun ∧ FinalStored t := by
  refine ⟨_, _, rfl, rfl, rfl, rfl, (terminal_absorbing_iff oneNodeExecution earlyCancelRun _ _ rfl rfl).mpr ?_⟩
  have hwrites : (steps oneNodeExecution.step .initial earlyCancelRun).all findsNoRecord = true := rfl
  intro p hp hcancel
  have hnone := all_eq_true.mp hwrites p hp
  rw [findsNoRecord, hcancel] at hnone
  exact isNone_iff_eq_none.mp hnone

/-- A `Cancel` after the return turns the completed task into a cancelled one. -/
theorem cancel_after_completion : ∃ t result, run oneNodeExecution.step .initial
        (oneNodeRun ++ [.cancelSignal, .cancelWrite]) = some t ∧
      t.stage = .returned result ∧ result.finalState = .completed ∧ t.store = some .cancelled ∧
      ¬oneNodeExecution.Absorbing (oneNodeRun ++ [.cancelSignal, .cancelWrite]) := by
  refine ⟨_, _, rfl, rfl, rfl, rfl, ?_⟩
  intro habsorbing
  obtain ⟨v, v', hv, hv', hcompleted, hcancelled⟩ : ∃ v v',
      run oneNodeExecution.step .initial (oneNodeRun ++ [.cancelSignal]) = some v ∧
      oneNodeExecution.step v .cancelWrite = some v' ∧ v.store = some .completed ∧
      v'.store = some .cancelled := ⟨_, _, rfl, rfl, rfl, rfl⟩
  have hmem : (v, .cancelWrite) ∈ steps oneNodeExecution.step .initial
      (oneNodeRun ++ [.cancelSignal, .cancelWrite]) := by
    rw [show oneNodeRun ++ [.cancelSignal, .cancelWrite] =
      (oneNodeRun ++ [.cancelSignal]) ++ .cancelWrite :: [] from rfl,
      steps_around oneNodeExecution.step hv hv']
    exact mem_append_right _ mem_cons_self
  have hkept := habsorbing _ hmem v' hv' .completed hcompleted rfl
  rw [hcancelled] at hkept
  cases hkept

/-! ### Several calls

A step of a call sees the shared record of the task, and what it writes there the others see. -/

/-- A call that has not begun, has found no record, or was refused: its checks failed or the task is known. -/
def Outside (x : Execution Raw) : Stage Raw → Prop
  | .idle | .checked => True
  | .returned result => x.precheck = some result ∨ result.errorCode = errTaskAlreadyCompleted
  | _ => False

section

variable (h : x.step s e = some s')
include h

theorem refused_of_step (hstage : s.stage = .idle ∨ s.stage = .checked)
    (hresult : s'.stage = .returned result) :
    x.precheck = some result ∨ result.errorCode = errTaskAlreadyCompleted := by
  cases e with
  | execute => grind [step, begin, alreadyExists, newFailureResult]
  | advance => grind [step, advance, alreadyExists, newFailureResult]
  | _ => grind [step, onPreflight, dagStep, inspect, Stage.hasTimer, endContext]

/-- A call outside stays there and writes nothing, or it saves the record. -/
theorem outside_step (hout : x.Outside s.stage) :
    (x.Outside s'.stage ∧ (e ≠ .cancelWrite → s'.store = s.store)) ∨ (s.store = none ∧ s'.store.isSome = true) := by
  cases step_cases h with
  | rejected hstage => exact .inl ⟨refused_of_step h hstage rfl, fun _ => rfl⟩
  | checked => exact .inl ⟨trivial, fun _ => rfl⟩
  | save hstage hstore => exact .inr ⟨hstore, rfl⟩
  | start hstage => rcases hstage with hstage | hstage <;> rw [hstage] at hout <;> exact hout.elim
  | register hstage | preflight hstage | refuse hstage | verdict hstage | dag hstage | inspect hstage
  | finalize hstage => rw [hstage] at hout; exact hout.elim
  | cancelWrite => exact .inl ⟨hout, fun hne => absurd rfl hne⟩
  | cancelSignal => split_ifs <;> exact .inl ⟨hout, fun _ => rfl⟩
  | timer | parentCancel | idle => exact .inl ⟨hout, fun _ => rfl⟩

theorem isSome_step (hstore : s.store.isSome = true) : s'.store.isSome = true := by
  cases step_cases h with
  | save => rfl
  | dag _ _ hdag =>
    rcases foldl_updateState_dag hdag s.store with hsame | hwrite
    · exact (congrArg _ hsame).trans hstore
    · exact (congrArg _ hwrite).trans (isSome_map.trans hstore)
  | cancelSignal => split_ifs <;> exact hstore
  | _ => first | exact hstore | exact isSome_map.trans hstore

end

variable {I : Type} [DecidableEq I]

/-- The stored state of the task, and where each call stands. -/
structure Race (I Raw : Type) where
  store : Option TaskState
  calls : I → ExecState Raw

def raceStep (x : I → Execution Raw) (s : Race I Raw) (e : I × ExecEvent Raw) : Option (Race I Raw) :=
  ((x e.1).step { s.calls e.1 with store := s.store } e.2).map fun c => ⟨c.store, Function.update s.calls e.1 c⟩

/-- The call is outside, and if the step is its own it leaves the record as it is. -/
def Idles (x : I → Execution Raw) (i : I) (p : Race I Raw × I × ExecEvent Raw) : Prop :=
  (x i).Outside (p.1.calls i).stage ∧
    (p.2.1 = i → p.2.2 ≠ .cancelWrite → ∀ s', raceStep x p.1 p.2 = some s' → s'.store = p.1.store)

/-- In every interleaving at most one call goes beyond the check for a known task; every other is refused and writes
nothing. -/
theorem one_execution {x : I → Execution Raw} {events : List (I × ExecEvent Raw)} {t : Race I Raw}
    (hrun : run (raceStep x) ⟨store, fun _ => .initial⟩ events = some t) :
    ∃ winner : Option I, ∀ i, winner ≠ some i → (x i).Outside (t.calls i).stage ∧
      ∀ p ∈ steps (raceStep x) ⟨store, fun _ => .initial⟩ events, Idles x i p := by
  have hhistory := run_history (raceStep x) (C := fun _ _ => True)
    (I := fun history s => ∃ winner : Option I, (winner.isSome = true → s.store.isSome = true) ∧
      ∀ i, winner ≠ some i → (x i).Outside (s.calls i).stage ∧ ∀ p ∈ history, Idles x i p) ?_ hrun []
    ⟨none, nofun, fun i _ => ⟨trivial, fun _ hp => absurd hp not_mem_nil⟩⟩ fun _ _ => trivial
  · obtain ⟨winner, -, hothers⟩ := hhistory
    exact ⟨winner, hothers⟩
  rintro history s ⟨i, e⟩ s' ⟨winner, hstore, hothers⟩ - hstep
  obtain ⟨c, hc, rfl⟩ := map_eq_some_iff.mp hstep
  have hrest : ∀ j, j ≠ i → winner ≠ some j → (x j).Outside (Function.update s.calls i c j).stage ∧
      ∀ p ∈ history ++ [(s, i, e)], Idles x j p := by
    intro j hji hj
    rw [Function.update_of_ne hji, forall_mem_append, forall_mem_singleton]
    exact ⟨(hothers j hj).1, (hothers j hj).2, (hothers j hj).1, fun hij => absurd hij.symm hji⟩
  by_cases hi : winner = some i
  · exact ⟨winner, fun h => isSome_step hc (hstore h), fun j hj => hrest j (fun hji => hj (hji ▸ hi)) hj⟩
  rcases outside_step hc (hothers i hi).1 with ⟨hout, hsame⟩ | ⟨hnone, hsome⟩
  · refine ⟨winner, fun h => isSome_step hc (hstore h), fun j hj => ?_⟩
    rcases eq_or_ne j i with rfl | hji
    · rw [forall_mem_append, forall_mem_singleton]
      refine ⟨?_, (hothers j hi).2, (hothers j hi).1, fun _ hne s' hs' => ?_⟩
      · show (x j).Outside (Function.update s.calls j c j).stage
        rw [Function.update_self]
        exact hout
      · rw [hstep] at hs'
        cases hs'
        exact hsame hne
    · exact hrest j hji hj
  · -- with a record in the store nobody could have saved one
    have hfirst : winner = none := by
      by_contra hsaved
      have h := hstore (isSome_iff_ne_none.mpr hsaved)
      rw [show s.store = none from hnone] at h
      cases h
    exact ⟨some i, fun _ => hsome, fun j hj => hrest j (fun h => hj (h ▸ rfl)) (hfirst ▸ nofun)⟩

def twoCalls : List (Bool × ExecEvent Unit) :=
  [(true, .execute), (false, .execute), (true, .advance), (false, .advance)]

theorem second_call_refused : ∃ t,
    run (raceStep fun _ => oneNodeExecution) ⟨none, fun _ => .initial⟩ twoCalls = some t ∧
      ∃ winner : Option Bool, ∀ i, winner ≠ some i → oneNodeExecution.Outside (t.calls i).stage ∧
        ∀ p ∈ steps (raceStep fun _ => oneNodeExecution) ⟨none, fun _ => .initial⟩ twoCalls,
          Idles (fun _ => oneNodeExecution) i p := ⟨_, rfl, one_execution rfl⟩

def deepExecution : Execution Unit :=
  { oneNodeExecution with task := { oneNodeExecution.task with delegateDepth := 3 } }

theorem deep_call_refused : ∃ t result, run (raceStep fun i : Bool => if i then oneNodeExecution else deepExecution)
      ⟨none, fun _ => .initial⟩ [(true, .execute), (true, .advance), (false, .execute)] = some t ∧
    (t.calls false).stage = .returned result ∧ result.errorCode = errDelegateChainTooDeep := ⟨_, _, rfl, rfl, rfl⟩

end Execution

end NpsSdk.Nop
