import NpsSdk.NopPortable

/-! What the events of a portable run say about the order of its nodes: after the start they are the logs of an initial
part of the topology, node after node, then those of the compensated nodes, and the end. -/

namespace NpsSdk.Nop.Portable

open List

variable {N : Type}

def NodeLog (id : String) (log : List String) : Prop := ∀ event ∈ log, ∃ what, event = id ++ ":" ++ what

def UndoLog (id : String) (log : List String) : Prop :=
  log = [id ++ ":compensating", id ++ ":compensated"] ∨ log = [id ++ ":compensating", id ++ ":compensation_failed"]

def endEvent : TerminalState → String
  | .completed => "task:completed"
  | .failed => "task:failed"
  | .cancelled => "task:cancelled"

/-- The nodes `done` have been taken, in this order. -/
def Recorded (task : GoMap (Json N)) (done : List String) (tr : Transcript N) : Prop :=
  ∃ logs, Forall₂ NodeLog done logs ∧ tr.events = startEvents task ++ logs.flatten ∧
    ∀ id, id ∈ tr.attemptCounts ↔ id ∈ done

/-- The run has taken an initial part of the order, all of it if it is completed, and has compensated nodes in the
reverse order. -/
structure RunsIn (task : GoMap (Json N)) (order done : List String) (r : Result N) : Prop where
  taken : done <+: order
  all : r.terminalState = .completed → done = order
  counted : ∀ id, id ∈ r.attemptCounts ↔ id ∈ done
  undone : r.compensationOrder.Sublist order.reverse
  events : ∃ logs undoLogs, Forall₂ NodeLog done logs ∧ Forall₂ UndoLog r.compensationOrder undoLogs ∧
    r.events = startEvents task ++ logs.flatten ++ undoLogs.flatten ++ [endEvent r.terminalState]

theorem forall₂_concat {α β : Type} {R : α → β → Prop} {as : List α} {bs : List β} {a : α} {b : β}
    (h : Forall₂ R as bs) (hab : R a b) : Forall₂ R (as ++ [a]) (bs ++ [b]) :=
  rel_append h (.cons hab .nil)

variable {task : GoMap (Json N)} {topology done : List String} {tr : Transcript N} {id : String}

theorem Recorded.concat (h : Recorded task done tr) {log : List String} (hlog : NodeLog id log) {count : Int}
    {tr' : Transcript N} (hevents : tr'.events = tr.events ++ log)
    (hcounts : tr'.attemptCounts = tr.attemptCounts.insert id count) : Recorded task (done ++ [id]) tr' := by
  obtain ⟨logs, hlogs, htr, hcounted⟩ := h
  refine ⟨logs ++ [log], forall₂_concat hlogs hlog, ?_, fun other => ?_⟩
  · rw [hevents, htr, flatten_append, flatten_singleton, append_assoc]
  · rw [hcounts, GoMap.mem_insert, hcounted, mem_append, mem_singleton, or_comm, eq_comm]

/-! ### One node -/

theorem eventOf {suffix : String} (w : String) (h : suffix = ":" ++ w) : ∃ what, id ++ suffix = id ++ ":" ++ what :=
  ⟨w, by rw [h, String.append_assoc]⟩

theorem nodeLog_pair {first second : String} (hfirst : ∃ what, first = id ++ ":" ++ what)
    (hsecond : ∃ what, second = id ++ ":" ++ what) {log : List String} (h : NodeLog id log) :
    NodeLog id (first :: second :: log) :=
  forall_mem_cons.mpr ⟨hfirst, forall_mem_cons.mpr ⟨hsecond, h⟩⟩

theorem nodeLog_nil : NodeLog id [] := fun _ h => nomatch h

theorem nodeLog_attempts (rt : Runtime N) (node : GoMap (Json N)) (maxRetries : Int) (total index : Nat)
    (finalError : String) (outcomes : List (Json N)) :
    NodeLog id (attemptLoop rt node id maxRetries total index finalError outcomes).events := by
  induction outcomes generalizing index finalError with
  | nil => exact nodeLog_nil
  | cons rawOutcome rest ih =>
    have hstarted : ∃ what, id ++ ":attempt:" ++ toString (index + 1) = id ++ ":" ++ what := by
      rw [String.append_assoc]
      exact eventOf ("attempt:" ++ toString (index + 1)) (by rw [← String.append_assoc]; rfl)
    rw [attemptLoop]
    dsimp only
    split_ifs
    · exact nodeLog_nil
    · exact nodeLog_pair hstarted (eventOf "completed" rfl) nodeLog_nil
    · exact nodeLog_pair hstarted (eventOf "retrying" rfl) (ih _ _)
    · exact nodeLog_pair hstarted (eventOf "failed" rfl) nodeLog_nil

theorem Recorded.settle (h : Recorded task done tr) {attempts : Attempts N} (hlog : NodeLog id attempts.events)
    (mappedParams : GoMap (Json N)) : Recorded task (done ++ [id]) ({ tr with mappedParams }.settle id attempts) :=
  h.concat hlog rfl rfl

theorem Recorded.skip (h : Recorded task done tr) : Recorded task (done ++ [id]) (tr.skip id) :=
  h.concat (show NodeLog id [id ++ ":skipped"] from forall_mem_singleton.mpr (eventOf "skipped" rfl)) rfl rfl

/-! ### The end of a run -/

theorem Recorded.runsIn (h : Recorded task done tr) (htaken : done <+: topology) {r : Result N}
    (hstate : r.terminalState ≠ .completed) (hcounts : r.attemptCounts = tr.attemptCounts)
    (hundone : r.compensationOrder.Sublist topology.reverse) {undoLogs : List (List String)}
    (hlogs : Forall₂ UndoLog r.compensationOrder undoLogs)
    (hevents : r.events = tr.events ++ undoLogs.flatten ++ [endEvent r.terminalState]) :
    RunsIn task topology done r := by
  obtain ⟨logs, hnodes, htr, hcounted⟩ := h
  exact ⟨htaken, fun hcompleted => absurd hcompleted hstate, fun id => hcounts ▸ hcounted id, hundone,
    logs, undoLogs, hnodes, hlogs, htr ▸ hevents⟩

variable (rt : Runtime N) (ord : MapOrder) (nodes : Nodes N)

/-- A node that fails before its first attempt. -/
theorem Recorded.runsIn_failEarly (h : Recorded task done tr) (htaken : done ++ [id] <+: topology) (code : String) :
    RunsIn task topology (done ++ [id]) (portableResult rt (tr.failEarly id) .failed code .null []) := by
  have hrecorded : Recorded task (done ++ [id])
      { tr.failEarly id with events := tr.events ++ [id ++ ":failed"] } :=
    h.concat (forall_mem_singleton.mpr (eventOf "failed" rfl)) rfl rfl
  refine hrecorded.runsIn htaken nofun rfl (nil_sublist _) .nil ?_
  simp [portableResult, Transcript.failEarly, endEvent]

theorem compensateLoop_undone (strict : Bool) (ids : List String) (c : Compensation) :
    ∃ order undoLogs, (compensateLoop strict nodes ids c).order = c.order ++ order ∧ order.Sublist ids ∧
      Forall₂ UndoLog order undoLogs ∧
      (compensateLoop strict nodes ids c).events = c.events ++ undoLogs.flatten := by
  induction ids generalizing c with
  | nil => exact ⟨[], [], (append_nil _).symm, .refl _, .nil, (append_nil _).symm⟩
  | cons id rest ih =>
    -- the nodes after one that was compensated
    have hlater : ∀ (c' : Compensation) (log : List String), UndoLog id log → c'.order = c.order ++ [id] →
        c'.events = c.events ++ log → ∃ order undoLogs,
          (compensateLoop strict nodes rest c').order = c.order ++ order ∧ order.Sublist (id :: rest) ∧
          Forall₂ UndoLog order undoLogs ∧
          (compensateLoop strict nodes rest c').events = c.events ++ undoLogs.flatten := by
      intro c' log hlog hc horder
      obtain ⟨order, undoLogs, horder', hsub, hlogs, hevents⟩ := ih c'
      refine ⟨id :: order, log :: undoLogs, ?_, hsub.cons_cons id, .cons hlog hlogs, ?_⟩
      · rw [horder', hc, append_assoc, singleton_append]
      · rw [hevents, horder, flatten_cons, append_assoc]
    rw [compensateLoop]
    split_ifs with haction hfails hstrict
    · exact ⟨[id], [_], rfl, (nil_sublist rest).cons_cons id, .cons (.inr rfl) .nil, by simp⟩
    · exact hlater _ _ (.inr rfl) rfl rfl
    · exact hlater _ _ (.inl rfl) rfl rfl
    · obtain ⟨order, undoLogs, horder, hsub, hlogs⟩ := ih c
      exact ⟨order, undoLogs, horder, hsub.cons id, hlogs⟩

theorem compensatePortable_undone (failedID : String) (states : GoMap NodeState) (events : List String) :
    ∃ undoLogs, (compensatePortable task failedID topology nodes states events).order.Sublist topology.reverse ∧
      Forall₂ UndoLog (compensatePortable task failedID topology nodes states events).order undoLogs ∧
      (compensatePortable task failedID topology nodes states events).events = events ++ undoLogs.flatten := by
  have hnone : ∃ undoLogs, [].Sublist topology.reverse ∧ Forall₂ UndoLog [] undoLogs ∧
      events = events ++ undoLogs.flatten := ⟨[], nil_sublist _, .nil, (append_nil _).symm⟩
  unfold compensatePortable
  dsimp only
  split_ifs
  · exact hnone
  · exact hnone
  · obtain ⟨order, undoLogs, horder, hsub, hlogs, hevents⟩ := compensateLoop_undone nodes
      (stringValue task["compensation_policy"]? = "strict")
      (compensationCandidates failedID topology nodes states) ⟨[], "", states, events⟩
    rw [nil_append] at horder
    exact ⟨undoLogs, horder ▸ hsub.trans filter_sublist, horder ▸ hlogs, hevents⟩

theorem Recorded.runsIn_failTask (h : Recorded task done tr) (htaken : done <+: topology) (finalError : String) :
    RunsIn task topology done (failTask rt task topology nodes id finalError tr) := by
  obtain ⟨undoLogs, hsub, hlogs, hevents⟩ := compensatePortable_undone nodes id tr.states tr.events
  exact h.runsIn htaken nofun rfl hsub hlogs (congrArg (· ++ ["task:failed"]) hevents)

/-- One pass of the loop: the next node is recorded, or the run ends with it or before it. -/
theorem Recorded.runNode (h : Recorded task done tr) (htaken : done ++ [id] <+: topology) :
    match runNode rt ord task topology nodes tr id with
    | .ok tr' => Recorded task (done ++ [id]) tr'
    | .error r => ∃ done, RunsIn task topology done r := by
  unfold Portable.runNode
  dsimp only
  split_ifs
  · refine ⟨done, h.runsIn ((prefix_append _ _).trans htaken) nofun rfl (nil_sublist _) .nil ?_⟩
    simp [portableResult, endEvent]
  cases conditionVerdict rt ord (nodeOf nodes id) id tr.results with
  | error => exact ⟨_, h.runsIn_failEarly rt htaken _⟩
  | skip => exact h.skip
  | run =>
    cases mapInputs rt ord (nodeOf nodes id) id tr with
    | none => exact ⟨_, h.runsIn_failEarly rt htaken _⟩
    | some mappedParams =>
      dsimp only
      generalize hattempts : attemptLoop rt (nodeOf nodes id) id _ _ 0 "" _ = attempts
      have hsettled := h.settle (hattempts ▸ nodeLog_attempts rt _ _ _ _ _ _ : NodeLog id attempts.events) mappedParams
      cases attempts.ending with
      | completed => exact hsettled
      | failed | unsettled => exact ⟨_, hsettled.runsIn_failTask rt nodes htaken _⟩

theorem Recorded.foldlM (h : Recorded task done tr) {rest : List String} (htopology : topology = done ++ rest) :
    match rest.foldlM (Portable.runNode rt ord task topology nodes) tr with
    | .ok tr' => Recorded task topology tr'
    | .error r => ∃ done, RunsIn task topology done r := by
  induction rest generalizing done tr with
  | nil =>
    rw [htopology, append_nil]
    exact h
  | cons id rest ih =>
    have hsplit : topology = done ++ [id] ++ rest := by rw [htopology, append_assoc, singleton_append]
    have hstep := h.runNode rt ord nodes ⟨rest, hsplit.symm⟩
    rw [foldlM_cons]
    revert hstep
    cases Portable.runNode rt ord task topology nodes tr id with
    | error r => exact fun hend => hend
    | ok tr' => exact fun hrecorded => ih hrecorded hsplit

variable {rt ord nodes} in
/-- The nodes are taken in the order of the topology. -/
theorem runTask_runsIn {r : Result N} (h : runTask rt ord task topology nodes = some r) :
    ∃ done, RunsIn task topology done r := by
  have hstart : Recorded task [] (.ofEvents (startEvents task) : Transcript N) :=
    ⟨[], .nil, (append_nil _).symm, fun id => by simp [Transcript.ofEvents]⟩
  have hrun := hstart.foldlM rt ord nodes (nil_append topology).symm
  unfold runTask at h
  revert hrun h
  cases topology.foldlM (Portable.runNode rt ord task topology nodes) (.ofEvents (startEvents task)) with
  | error result =>
    rintro ⟨⟩ hrun
    exact hrun
  | ok tr =>
    intro h hrun
    obtain ⟨aggregate, -, rfl⟩ := Option.map_eq_some_iff.mp h
    obtain ⟨logs, hlogs, hevents, hcounted⟩ := hrun
    refine ⟨topology, prefix_rfl, fun _ => rfl, hcounted, nil_sublist _, logs, [], hlogs, .nil, ?_⟩
    simp [portableResult, hevents, endEvent]

end NpsSdk.Nop.Portable
