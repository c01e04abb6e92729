import NpsSdk.NopLifecycle

/-! What `Execute` tells the callback about a task. The exits after a failed preflight and after the timeout return
without a callback, and the second replaces the result of `runDag`, with its summary of the compensation calls made. -/

namespace NpsSdk.Nop.Execution

open Transition

variable {Raw : Type} {x : Execution Raw} {s s' : ExecState Raw} {e : ExecEvent Raw}

/-- One callback was started, with the result returned, and the compensation calls made are counted in
its summary. -/
structure Reported (s : ExecState Raw) (result : NopTaskResult Raw) : Prop where
  callback : s.fired = [result]
  compensation : s.dag.compensations ≠ [] → ∃ c, result.compensation = some c ∧
    c.attempted = s.dag.compensations.length

/-- The step is neither a failed preflight nor the timeout's exit. -/
structure Proceeds (s : ExecState Raw) (e : ExecEvent Raw) : Prop where
  preflight : ∀ replies, e = .preflightReplies replies → runPreflight replies = ""
  timeout : ∀ elapsed result, e = .inspect elapsed → s.stage = .finished result →
    ¬timedOut s elapsed result

/-! ### The embedded run -/

variable (x) in
/-- The state of `runDag` inside `Execute` is one that a run of its own reaches. -/
def Embeds (s : ExecState Raw) : Prop :=
  (∃ ctxErr, s.dag = { RunState.initial with ctxErr }) ∨
    ∃ run, x.dagRun? = some run ∧ ∃ events, Transition.run run.step .initial events = some s.dag

theorem Embeds.endContext (h : x.Embeds s) : x.Embeds (endContext s) := by
  rcases h with ⟨ctxErr, hdag⟩ | ⟨run, hrun, events, hreach⟩
  · refine .inl ⟨true, ?_⟩
    show { s.dag with ctxErr := true } = _
    rw [hdag]
  · refine .inr ⟨run, hrun, events ++ [.ctxDone], ?_⟩
    rw [run_append, hreach]
    rfl

theorem Embeds.of_dag (h : x.Embeds s) (hdag : s'.dag = s.dag) : x.Embeds s' := by
  unfold Embeds
  rw [hdag]
  exact h

theorem Embeds.step (h : x.Embeds s) (hstep : x.step s e = some s') : x.Embeds s' := by
  cases step_cases hstep with
  | start => exact .inl ⟨s.runCtxErr, rfl⟩
  | @dag event run dag hstage hrun hdag =>
    refine .inr ⟨run, hrun, ?_⟩
    obtain ⟨events, hreach⟩ : ∃ events, Transition.run run.step .initial events = some s.dag := by
      rcases h with ⟨ctxErr, hinitial⟩ | ⟨run', hrun', hreach⟩
      · rw [hinitial]
        cases ctxErr with
        | false => exact ⟨[], rfl⟩
        | true => exact ⟨[.ctxDone], rfl⟩
      · rw [hrun] at hrun'
        cases hrun'
        exact hreach
    refine ⟨events ++ [event], ?_⟩
    rw [run_append, hreach]
    show (run.step s.dag event).bind some = _
    rw [hdag]
    rfl
  | timer => exact h.endContext
  | parentCancel => exact h.endContext.of_dag rfl
  | cancelSignal =>
    split_ifs
    · exact h.endContext.of_dag rfl
    · exact h.of_dag rfl
  | rejected | checked | save | register | preflight | refuse | verdict | inspect | finalize
  | cancelWrite => exact h.of_dag rfl
  | idle => exact h

variable {result : NopTaskResult Raw}

/-- A result of `runDag` counts the compensation calls made. -/
theorem Embeds.summary (h : x.Embeds s) (hreturned : s.dag.phase = .returned result)
    (hcalls : s.dag.compensations ≠ []) :
    ∃ c, result.compensation = some c ∧ c.attempted = s.dag.compensations.length := by
  rcases h with ⟨ctxErr, hdag⟩ | ⟨run, -, events, hreach⟩
  · rw [hdag] at hreturned
    cases hreturned
  have hsummary := DagRun.compensating_run hreach
  rw [DagRun.Compensating, hreturned] at hsummary
  cases hsummary with
  | none hcomp hempty | refused c hcomp hattempted hempty => exact absurd hempty hcalls
  | done c hcomp hattempted hall => exact ⟨c, hcomp, hattempted⟩

/-! ### Exits that report -/

/-- `Execute` is on its way to an exit that reports the result of `runDag`, or never saved a record. -/
def Reporting (s : ExecState Raw) : Prop :=
  match s.stage with
  | .idle | .checked => s.store = none ∧ s.fired = []
  | .preflightFailed _ => False
  | .finished result => s.fired = [] ∧ s.dag.phase = .returned result
  | .finalizing result callback =>
    callback = true ∧ s.fired = [] ∧ s.dag.phase = .returned result
  | .returned result => s.store = none ∨ s.fired = [result] ∧ s.dag.phase = .returned result
  | _ => s.fired = []

theorem reporting_dagStage {phase : Phase Raw} (hstage : s.stage = dagStage phase)
    (hphase : s.dag.phase = phase) (hfired : s.fired = []) : Reporting s := by
  rw [Reporting, hstage]
  cases phase with
  | returned => exact ⟨hfired, hphase⟩
  | loop | wait | drain | compensate => exact hfired

theorem Reporting.step (h : Reporting s) (hproceeds : Proceeds s e)
    (hcallback : x.opts.enableCallback = true) (hurl : x.task.callbackURL ≠ "")
    (hstep : x.step s e = some s') : Reporting s' := by
  cases step_cases hstep with
  | rejected hstage =>
    refine .inl ?_
    rcases hstage with hstage | hstage <;> rw [Reporting, hstage] at h <;> exact h.1
  | checked hstage | register hstage | preflight hstage =>
    rw [Reporting, hstage] at h
    exact h
  | save hstage _ =>
    rw [Reporting, hstage] at h
    exact h.2
  | start hstage => rcases hstage with hstage | hstage <;> rw [Reporting, hstage] at h <;> exact h
  | refuse hstage =>
    rw [Reporting, hstage] at h
    cases h
  | verdict hstage =>
    rw [Reporting, hstage] at h
    rw [preflightStage, hproceeds.preflight _ rfl]
    exact h
  | dag hstage =>
    rw [Reporting, hstage] at h
    exact reporting_dagStage rfl rfl h
  | inspect hstage =>
    rw [Reporting, hstage] at h
    rw [inspectStage, if_neg (hproceeds.timeout _ _ rfl hstage)]
    exact ⟨rfl, h⟩
  | finalize hstage =>
    rw [Reporting, hstage] at h
    obtain ⟨rfl, hfired, hphase⟩ := h
    refine .inr ⟨?_, hphase⟩
    rw [if_pos ⟨rfl, hcallback, hurl⟩, hfired]
    rfl
  | timer | parentCancel | idle => exact h
  | cancelSignal =>
    split_ifs <;> exact h
  | cancelWrite =>
    simp only [Reporting, updateState, Option.map_eq_none_iff]
    exact h

/-! ### Exits that do not -/

/-- `Execute` is on its way to an exit without a callback, or has taken it. -/
def Muted (s : ExecState Raw) : Prop :=
  s.fired = [] ∧
    match s.stage with
    | .preflightFailed _ | .finalizing _ false | .returned _ => True
    | _ => False

theorem Muted.step (h : Muted s) (hstep : x.step s e = some s') : Muted s' := by
  obtain ⟨hfired, hmuted⟩ := h
  cases step_cases hstep with
  | rejected | refuse => exact ⟨hfired, trivial⟩
  | @finalize result callback hstage =>
    rw [hstage] at hmuted
    cases callback with
    | true => cases hmuted
    | false =>
      refine ⟨?_, trivial⟩
      exact hfired
  | timer | parentCancel | cancelWrite | idle => exact ⟨hfired, hmuted⟩
  | cancelSignal =>
    split_ifs <;> exact ⟨hfired, hmuted⟩
  | checked hstage | save hstage | register hstage | preflight hstage | verdict hstage | dag hstage
  | inspect hstage => rw [hstage] at hmuted; cases hmuted
  | start hstage => rcases hstage with hstage | hstage <;> rw [hstage] at hmuted <;> cases hmuted

def Unfired (s : ExecState Raw) : Prop :=
  match s.stage with
  | .returned _ => True
  | _ => s.fired = []

theorem Unfired.of_fired (h : s.fired = []) : Unfired s := by
  unfold Unfired
  split
  · trivial
  · exact h

theorem Unfired.step (h : Unfired s) (hstep : x.step s e = some s') : Unfired s' := by
  cases step_cases hstep with
  | rejected | refuse | finalize => trivial
  | checked hstage | save hstage | register hstage | preflight hstage | verdict hstage | dag hstage
  | inspect hstage => rw [Unfired, hstage] at h; exact Unfired.of_fired h
  | start hstage =>
    rcases hstage with hstage | hstage <;> rw [Unfired, hstage] at h <;> exact Unfired.of_fired h
  | timer | parentCancel | cancelWrite | idle => exact h
  | cancelSignal =>
    split_ifs <;> exact h

theorem muted_of_refusal {replies : List PreflightReply} (h : Unfired s)
    (hrefused : runPreflight replies ≠ "") (hstep : x.step s (.preflightReplies replies) = some s') : Muted s' := by
  simp only [step, onPreflight] at hstep
  split at hstep
  · rename_i hstage
    rw [Unfired, hstage] at h
    split_ifs at hstep
    cases hstep
    rw [preflightStage, if_pos hrefused]
    trivial
  · cases hstep

theorem muted_of_timeout {elapsed : Bool} (h : Unfired s) (hstage : s.stage = .finished result)
    (htimedOut : timedOut s elapsed result) (hstep : x.step s (.inspect elapsed) = some s') : Muted s' := by
  simp only [step, inspect, hstage] at hstep
  rw [Unfired, hstage] at h
  cases hstep
  rw [inspectStage, if_pos htimedOut]
  trivial

/-- An execution with a callback reports what it returns exactly if its preflight did not fail and it did not time out.
-/
theorem reported_iff (x : Execution Raw) (events : List (ExecEvent Raw)) (t : ExecState Raw)
    (result : NopTaskResult Raw) (hrun : run x.step .initial events = some t)
    (hreturned : t.stage = .returned result) (hsaved : t.store ≠ none)
    (hcallback : x.opts.enableCallback = true) (hurl : x.task.callbackURL ≠ "") : Reported t result ↔
      ∀ p ∈ steps x.step .initial events, Proceeds p.1 p.2 := by
  refine ⟨?_, ?_⟩
  · intro hreported p hp
    obtain ⟨before, after, v, -, hbefore, hv, hafter⟩ := steps_split x.step hrun hp
    have hunfired : Unfired p.1 :=
      run_invariant x.step (fun _ _ _ h hstep => h.step hstep) hbefore rfl
    -- an execution that is muted once never fires
    have hmuted : ¬Muted v := by
      intro hmuted
      have hend := run_invariant x.step (I := fun s => Muted s)
        (fun _ _ _ h hstep => h.step hstep) hafter hmuted
      have hfired := hreported.callback
      rw [hend.1] at hfired
      cases hfired
    refine ⟨?_, ?_⟩
    · intro replies hreplies
      by_contra hrefused
      exact hmuted (muted_of_refusal hunfired hrefused (hreplies ▸ hv))
    · intro elapsed r hinspect hstage htimedOut
      exact hmuted (muted_of_timeout hunfired hstage htimedOut (hinspect ▸ hv))
  · intro hproceeds
    have hreporting := run_invariant_of_steps x.step (C := Proceeds)
      (fun _ _ _ h hc hstep => h.step hc hcallback hurl hstep) hrun
      (show Reporting ExecState.initial from ⟨rfl, rfl⟩) hproceeds
    have hembeds : x.Embeds t :=
      Transition.run_invariant x.step (fun _ _ _ h hstep => h.step hstep) hrun
        (.inl ⟨false, rfl⟩)
    rw [Reporting, hreturned] at hreporting
    obtain ⟨hfired, hphase⟩ := hreporting.resolve_left hsaved
    exact ⟨hfired, hembeds.summary hphase⟩

theorem oneNodeRun_reported_iff : ∃ t result, run oneNodeExecution.step .initial oneNodeRun = some t ∧
      t.stage = .returned result ∧ t.store = some .completed ∧ (Reported t result ↔
        ∀ p ∈ steps oneNodeExecution.step .initial oneNodeRun, Proceeds p.1 p.2) :=
  ⟨_, _, rfl, rfl, rfl, reported_iff oneNodeExecution oneNodeRun _ _ rfl rfl
    (Option.some_ne_none _) rfl (by decide)⟩

def chainExecution : Execution Unit := plainExecution chainCall.task.dag false

def lateCompensation : List (ExecEvent Unit) :=
  [.execute, .advance, .advance, .advance, .dag .loop, .dag (.nodeEnd "a" [plainAnswer true]),
    .dag (.receive "a"), .dag .loop, .dag (.nodeEnd "b" [plainAnswer false]), .dag (.receive "b"),
    .dag .loop, .dag (.compensate (plainAnswer true)), .inspect true, .advance]

/-- No callback is started and the result does not mention the compensation call made. -/
theorem lateCompensation_unreported :
    ∃ t result, run chainExecution.step .initial lateCompensation = some t ∧
      t.stage = .returned result ∧ t.store = some .failed ∧
      chainExecution.opts.enableCallback = true ∧ chainExecution.task.callbackURL ≠ "" ∧
      t.fired = [] ∧ t.dag.compensations.length = 1 ∧ result.compensation = none := by
  refine ⟨_, _, rfl, rfl, rfl, rfl, by decide, rfl, rfl, rfl⟩

end NpsSdk.Nop.Execution
