import NpsSdk.NopPortableOrder
import NpsSdk.NopSequential

/-! The saga of the portable profile against the saga of the orchestrator. The profile compensates the completed
ancestors of the failed node and stops at a failed compensation under a strict policy; the orchestrator compensates
every completed node. Both go backwards through their own topological order, which is the order of execution in the
profile only. -/

namespace NpsSdk.Nop.Portable

open List

variable {N : Type}

/-! ### The profile's list -/

/-- The elements up to the first that meets the test, which is included. -/
def stopAfter {α : Type} (test : α → Bool) : List α → List α
  | [] => []
  | x :: xs => if test x then [x] else x :: stopAfter test xs

section

variable {α : Type} {test : α → Bool} {xs : List α}

theorem stopAfter_prefix (test : α → Bool) (xs : List α) : stopAfter test xs <+: xs := by
  induction xs with
  | nil => exact prefix_rfl
  | cons x xs ih =>
    rw [stopAfter]
    split_ifs
    · exact ⟨xs, rfl⟩
    · exact cons_prefix_cons.mpr ⟨rfl, ih⟩

theorem stopAfter_eq_nil_iff : stopAfter test xs = [] ↔ xs = [] := by
  cases xs with
  | nil => exact Iff.rfl
  | cons x xs =>
    rw [stopAfter]
    split_ifs <;> simp

theorem stopAfter_eq_self_iff : stopAfter test xs = xs ↔ ∀ x ∈ xs.dropLast, test x = false := by
  induction xs with
  | nil => simp [stopAfter]
  | cons x xs ih =>
    cases xs with
    | nil => simp [stopAfter]
    | cons y ys =>
      rw [dropLast_cons_cons, forall_mem_cons, ← ih, stopAfter]
      split_ifs with htest <;> simp [htest]

end

theorem compensateLoop_bestEffort (nodes : Nodes N) (ids : List String) (done : Compensation) :
    (compensateLoop false nodes ids done).order = done.order ++ ids.filter (hasAction nodes) := by
  induction ids generalizing done with
  | nil => simp [compensateLoop]
  | cons =>
    rw [compensateLoop]
    split_ifs with hnone hfails <;> simp_all

theorem compensateLoop_strict (nodes : Nodes N) (ids : List String) (done : Compensation)
    (hall : ∀ id ∈ ids, hasAction nodes id = true) : (compensateLoop true nodes ids done).order =
      done.order ++ stopAfter (compensationFails nodes) ids := by
  induction ids generalizing done with
  | nil => simp [compensateLoop, stopAfter]
  | cons id rest ih =>
    obtain ⟨hid, hrest⟩ := forall_mem_cons.mp hall
    rw [compensateLoop, stopAfter, if_neg (not_not.mpr hid)]
    by_cases hfails : compensationFails nodes id = true
    · simp [hfails]
    · simp [hfails, ih _ hrest]

/-- What the profile compensates, from its candidates. -/
theorem compensatePortable_order (task : GoMap (Json N)) (failedID : String) (topology : List String)
    (nodes : Nodes N) (states : GoMap NodeState) (events : List String) :
    (stringValue task["compensation_policy"]? = "best_effort" →
      (compensatePortable task failedID topology nodes states events).order =
        (compensationCandidates failedID topology nodes states).filter (hasAction nodes)) ∧
    (stringValue task["compensation_policy"]? = "strict" →
      (compensatePortable task failedID topology nodes states events).order =
        if (compensationCandidates failedID topology nodes states).all (hasAction nodes) then
          stopAfter (compensationFails nodes) (compensationCandidates failedID topology nodes states) else []) := by
  unfold compensatePortable
  constructor
  · intro hpolicy
    simp only [hpolicy]
    exact compensateLoop_bestEffort nodes _ _
  · intro hpolicy
    simp only [hpolicy]
    rw [if_neg (by decide)]
    split_ifs with hmissing hall hall
    · exact absurd hall hmissing.2
    · rfl
    · exact compensateLoop_strict nodes _ _ (all_eq_true.mp hall)
    · exact absurd ⟨trivial, hall⟩ hmissing

/-! ### A run that fails -/

/-- The profile executes the nodes of `before` and stops at `failedID` with the result `result`;
`tr` is what it has written by then. -/
structure FailsAt (rt : Runtime N) (ord : MapOrder) (task : GoMap (Json N)) (nodes : Nodes N)
    (topology before : List String) (failedID : String) (tr : Transcript N) (result : Result N) :
    Prop where
  collected : collectNodes (anySlice task["nodes"]?) = some nodes
  ordered : stablePortableTopology ord nodes = some topology
  preflight : boolValue task["preflight"]? = true → preflightFails nodes topology = false
  split : ∃ after, topology = before ++ failedID :: after
  passed : before.foldlM (runNode rt ord task topology nodes) (.ofEvents (startEvents task)) = .ok tr
  uncancelled : stringValue task["cancel_before"]? ≠ failedID
  stops : runNode rt ord task topology nodes tr failedID = .error result

/-- The node fails before its first attempt. -/
def FailsEarly (rt : Runtime N) (ord : MapOrder) (nodes : Nodes N) (failedID : String)
    (tr : Transcript N) : Prop :=
  conditionVerdict rt ord (nodeOf nodes failedID) failedID tr.results = .error ∨
    mapInputs rt ord (nodeOf nodes failedID) failedID tr = none

section

variable {rt : Runtime N} {ord : MapOrder} {task : GoMap (Json N)} {nodes : Nodes N}
  {topology before : List String} {failedID : String} {tr tr' : Transcript N} {result : Result N}

/-- A node the loop has passed is completed or skipped, and no other node has a state. -/
def Passed (before : List String) (states : GoMap NodeState) : Prop :=
  ∀ (id : String) (state : NodeState), states[id]? = some state →
    id ∈ before ∧ (state = .completed ∨ state = .skipped)

theorem Passed.insert {states : GoMap NodeState} (h : Passed before states) {id : String}
    {state : NodeState} (hstate : state = .completed ∨ state = .skipped) :
    Passed (before ++ [id]) (states.insert id state) := by
  intro other state' hother
  rw [GoMap.getElem?_insert] at hother
  split_ifs at hother with hid
  · cases hother
    exact ⟨by simp [hid], hstate⟩
  · exact ⟨mem_append_left _ (h other state' hother).1, (h other state' hother).2⟩

theorem Passed.runNode {id : String} (h : Passed before tr.states)
    (hok : runNode rt ord task topology nodes tr id = .ok tr') : Passed (before ++ [id]) tr'.states := by
  unfold Portable.runNode at hok
  dsimp only at hok
  split_ifs at hok
  split at hok
  · cases hok
  · cases hok
    exact h.insert (.inr rfl)
  split at hok
  · cases hok
  split at hok
  · rename_i result hending
    cases hok
    simp only [Transcript.settle, hending]
    exact h.insert (.inl rfl)
  · cases hok

theorem passed_foldlM {rest : List String} (h : Passed before tr.states)
    (hok : rest.foldlM (runNode rt ord task topology nodes) tr = .ok tr') : Passed (before ++ rest) tr'.states := by
  induction rest generalizing before tr with
  | nil =>
    cases hok
    rwa [append_nil]
  | cons id rest ih =>
    rw [foldlM_cons] at hok
    cases hnode : runNode rt ord task topology nodes tr id with
    | error =>
      rw [hnode] at hok
      cases hok
    | ok next =>
      rw [hnode] at hok
      have hnext := ih (h.runNode hnode) hok
      rwa [append_assoc] at hnext

variable (h : FailsAt rt ord task nodes topology before failedID tr result)
include h

theorem FailsAt.passed_states : Passed before tr.states := by
  have hstart : Passed [] (Transcript.ofEvents (startEvents task) : Transcript N).states := by
    intro id state hstate
    simp [Transcript.ofEvents] at hstate
  exact passed_foldlM hstart h.passed

theorem FailsAt.evaluate : evaluateOrchestration rt ord task = some result := by
  obtain ⟨after, hsplit⟩ := h.split
  have hpreflight : ¬(boolValue task["preflight"]? = true ∧ preflightFails nodes topology = true) := by
    rintro ⟨hasked, hfails⟩
    rw [h.preflight hasked] at hfails
    cases hfails
  have hloop : topology.foldlM (runNode rt ord task topology nodes) (.ofEvents (startEvents task)) =
      .error result := by
    have hpassed := h.passed
    have hstops := h.stops
    generalize hbody : runNode rt ord task topology nodes = body at hpassed hstops ⊢
    rw [hsplit, foldlM_append, hpassed]
    show List.foldlM body tr (failedID :: after) = _
    rw [foldlM_cons, hstops]
    rfl
  simp only [evaluateOrchestration, h.collected, h.ordered, if_neg hpreflight, runTask, hloop]

theorem FailsAt.not_ancestor : failedID ∉ ancestors nodes failedID := by
  obtain ⟨hknown, hleast⟩ := (stablePortableTopology_eq_some_iff ord nodes topology).mp h.ordered
  have htargets : ∀ e ∈ dependencyGraph nodes, e.2 ∈ nodes.keys := by
    intro e he
    rw [Std.ExtTreeMap.mem_keys]
    exact mem_of_mem_dependsOn (mem_dependencyGraph.mp he)
  rw [mem_ancestors hknown]
  intro hcycle
  refine hleast.1.acyclic htargets failedID (Relation.transGen_swap.mp ?_)
  exact Relation.TransGen.mono (fun v w hw => mem_dependencyGraph.mpr hw) _ _ hcycle

/-- A node that fails early ends the task without compensation; any other failure compensates the
completed ancestors. -/
theorem FailsAt.compensationOrder : (FailsEarly rt ord nodes failedID tr ∧ result.compensationOrder = []) ∨
      (¬FailsEarly rt ord nodes failedID tr ∧ ∃ states events,
        (∀ id : String, id ≠ failedID → states[id]? = tr.states[id]?) ∧ result.compensationOrder =
          (compensatePortable task failedID topology nodes states events).order) := by
  have hstops := h.stops
  unfold runNode at hstops
  dsimp only at hstops
  rw [if_neg h.uncancelled] at hstops
  split at hstops
  · rename_i hverdict
    cases hstops
    exact .inl ⟨.inl hverdict, rfl⟩
  · cases hstops
  · rename_i hverdict
    split at hstops
    · rename_i hinputs
      cases hstops
      exact .inl ⟨.inr hinputs, rfl⟩
    · rename_i mappedParams hinputs
      have hlate : ¬(conditionVerdict rt ord (nodeOf nodes failedID) failedID tr.results = .error ∨
          mapInputs rt ord (nodeOf nodes failedID) failedID tr = none) := by
        rw [hverdict, hinputs]
        simp
      split at hstops
      · cases hstops
      cases hstops
      refine .inr ⟨hlate, _, _, ?_, rfl⟩
      intro id hid
      dsimp only [Transcript.settle]
      split
      · exact GoMap.getElem?_insert_ne _ _ _ _ (Ne.symm hid)
      · exact GoMap.getElem?_insert_ne _ _ _ _ (Ne.symm hid)
      · rfl

/-- The candidates are read off the states before the failed node ran. -/
theorem FailsAt.candidates {states : GoMap NodeState}
    (hstates : ∀ id : String, id ≠ failedID → states[id]? = tr.states[id]?) :
    compensationCandidates failedID topology nodes states =
      compensationCandidates failedID topology nodes tr.states := by
  apply filter_congr
  intro id _
  rw [decide_eq_decide]
  refine and_congr_right fun hancestor => ?_
  rw [hstates id fun hid => h.not_ancestor (hid ▸ hancestor)]

end

/-! ### Two lists of the same elements -/

section

variable {α : Type} {xs ys : List α} {due inside fails : α → Bool}
  (hxs : xs.Nodup) (hys : ys.Nodup) (hduexs : ∀ a, due a = true → a ∈ xs) (hdueys : ∀ a, due a = true → a ∈ ys)

theorem filter_inside (h : ∀ a, due a = true → inside a = true) :
    xs.reverse.filter (fun a => inside a && due a) = (xs.filter due).reverse := by
  rw [filter_reverse]
  congr 1
  apply filter_congr
  intro a _
  cases hdue : due a with
  | true => rw [h a hdue]; rfl
  | false => exact Bool.and_false _

include hdueys in
/-- Where nothing is left out of the second list, everything due is inside. -/
theorem inside_of_subset (h : ys.reverse.filter due ⊆ xs.reverse.filter fun a => inside a && due a) :
    ∀ a, due a = true → inside a = true := by
  intro a hdue
  have hmem := h (mem_filter.mpr ⟨mem_reverse.mpr (hdueys a hdue), hdue⟩)
  exact (Bool.and_eq_true _ _ ▸ (mem_filter.mp hmem).2).1

include hdueys in
theorem filter_eq_iff : xs.reverse.filter (fun a => inside a && due a) = ys.reverse.filter due ↔
      (∀ a, due a = true → inside a = true) ∧ xs.filter due = ys.filter due := by
  constructor
  · intro heq
    have hinside := inside_of_subset hdueys (fun a ha => heq ▸ ha)
    rw [filter_inside hinside, filter_reverse] at heq
    exact ⟨hinside, reverse_injective heq⟩
  · rintro ⟨hinside, horder⟩
    rw [filter_inside hinside, filter_reverse, horder]

include hxs hys hduexs hdueys in
theorem stopAfter_filter_eq_iff :
    stopAfter fails (xs.reverse.filter fun a => inside a && due a) = ys.reverse.filter due ↔
      (∀ a, due a = true → inside a = true) ∧ xs.filter due = ys.filter due ∧
        ∀ a ∈ (xs.filter due).tail, fails a = false := by
  have hstop := stopAfter_prefix fails (xs.reverse.filter fun a => inside a && due a)
  constructor
  · intro heq
    have hinside := inside_of_subset hdueys (heq ▸ hstop.subset)
    rw [filter_inside hinside] at heq hstop
    -- both lists have every element that is due, so nothing was cut off
    have hperm : (xs.filter due).Perm (ys.filter due) := by
      rw [perm_ext_iff_of_nodup (hxs.filter _) (hys.filter _)]
      intro a
      rw [mem_filter, mem_filter]
      exact and_congr_left fun hdue => iff_of_true (hduexs a hdue) (hdueys a hdue)
    have hwhole : stopAfter fails (xs.filter due).reverse = (xs.filter due).reverse := by
      apply hstop.eq_of_length
      rw [heq, filter_reverse, length_reverse, length_reverse, hperm.length_eq]
    refine ⟨hinside, ?_, ?_⟩
    · rw [hwhole, filter_reverse] at heq
      exact reverse_injective heq
    · intro a ha
      rw [stopAfter_eq_self_iff, dropLast_reverse] at hwhole
      exact hwhole a (mem_reverse.mpr ha)
  · rintro ⟨hinside, horder, hfine⟩
    rw [filter_inside hinside, filter_reverse, ← horder, stopAfter_eq_self_iff, dropLast_reverse]
    exact fun a ha => hfine a (mem_reverse.mp ha)

end

/-! ### The conditions -/

section

variable (task : GoMap (Json N)) (nodes : Nodes N) (failedID : String) (tr : Transcript N)

def strictPolicy : Bool := stringValue task["compensation_policy"]? = "strict"

def completed (id : String) : Bool := tr.states[id]? = some .completed

def due (id : String) : Bool := completed tr id && hasAction nodes id

/-- The failed node depends on the node, directly or through others. -/
def IsAncestor (id : String) : Prop :=
  Relation.TransGen (fun v w => w ∈ dependsOn nodes v) failedID id

/-- The profile compensates nothing. -/
def ProfileIdle (rt : Runtime N) (ord : MapOrder) : Prop :=
  FailsEarly rt ord nodes failedID tr ∨
    (∀ id, due nodes tr id = true → ¬IsAncestor nodes failedID id) ∨
    (strictPolicy task = true ∧ ∃ id, completed tr id = true ∧ IsAncestor nodes failedID id ∧
      hasAction nodes id = false)

/-- The orchestrator compensates nothing. -/
def OrchestratorIdle {Raw : Type} (dag : TaskDag Raw) : Prop :=
  ¬dag.Noticed failedID ∨ (∀ id, due nodes tr id = false) ∨
    (strictPolicy task = true ∧ ∃ id, completed tr id = true ∧ hasAction nodes id = false)

/-- Both have the same nodes to compensate, in the same order. -/
structure SameScope {Raw : Type} (rt : Runtime N) (ord : MapOrder) (topology : List String)
    (run : DagRun Raw) : Prop where
  late : ¬FailsEarly rt ord nodes failedID tr
  noticed : run.task.dag.Noticed failedID
  ancestors : ∀ id, due nodes tr id = true → IsAncestor nodes failedID id
  order : topology.filter (due nodes tr) = run.topoOrder.filter (due nodes tr)
  actions : strictPolicy task = true → ∀ id, completed tr id = true → hasAction nodes id = true
  compensations : strictPolicy task = true →
    ∀ id ∈ (topology.filter (due nodes tr)).tail, compensationFails nodes id = false

end

/-- The same task for both. -/
structure SameTask {Raw : Type} (run : DagRun Raw) (task : GoMap (Json N)) (nodes : Nodes N) :
    Prop where
  ids : ∀ id, id ∈ nodes ↔ id ∈ run.task.dag.ids
  inputs : ∀ n ∈ run.task.dag.nodes, ∀ d, d ∈ n.inputFrom ↔ d ∈ dependsOn nodes n.id
  plain : run.task.dag.Plain
  actions : ∀ n ∈ run.task.dag.nodes, hasAction nodes n.id = true ↔ n.compensateAction ≠ ""
  policy : run.task.compensationPolicy = stringValue task["compensation_policy"]?
  explicit : run.task.compensationPolicy = "best_effort" ∨ run.task.compensationPolicy = "strict"

/-- Both executed the same nodes in the same order with the same outcomes, and the last one failed. A
node the profile has passed is completed or skipped. -/
def SameOutcomes {Raw : Type} (received : List (String × NodeOutcome Raw)) (before : List String)
    (failedID : String) (tr : Transcript N) : Prop :=
  received.map (fun m => (m.1, m.2.state)) =
    before.map (fun id => (id, if completed tr id then TaskState.completed else .skipped)) ++
      [(failedID, .failed)]

section Agreement

variable {Raw : Type} {rt : Runtime N} {ord : MapOrder} {task : GoMap (Json N)} {nodes : Nodes N}
  {topology before : List String} {failedID : String} {tr : Transcript N} {p : Result N} {run : DagRun Raw}

theorem SameOutcomes.failsLast {s : RunState Raw} (h : SameOutcomes s.received before failedID tr) :
    ∃ init m, DagRun.FailsLast s init m ∧ m.1 = failedID := by
  obtain ⟨init, last, hsplit, hinit, hlast⟩ := map_eq_append_iff.mp h
  obtain ⟨m, rfl, hm⟩ := map_eq_singleton_iff.mp hlast
  refine ⟨init, m, ⟨hsplit, ?_, congrArg Prod.snd hm⟩, congrArg Prod.fst hm⟩
  intro other hother
  have hmem := mem_map_of_mem (f := fun m => (m.1, m.2.state)) hother
  rw [hinit] at hmem
  obtain ⟨id, -, hid⟩ := mem_map.mp hmem
  have hstate : _ = other.2.state := congrArg Prod.snd hid
  rw [← hstate]
  split_ifs <;> exact fun h => nomatch h

/-- The nodes recorded as completed are those the profile completed. -/
theorem SameOutcomes.completed_iff {events : List (Event Raw)} {t : RunState Raw}
    (h : SameOutcomes t.received before failedID tr) (hpassed : Passed before tr.states)
    (hrun : Transition.run run.step .initial events = some t) (id : String) :
    t.nodeStates[id]? = some .completed ↔ completed tr id = true := by
  have hinv := DagRun.inv_run hrun
  constructor
  · intro hstate
    obtain ⟨o, ho, hcompleted⟩ := hinv.maps.success_received id _ hstate (fun h => nomatch h)
    have hmem := mem_map_of_mem (f := fun m => (m.1, m.2.state)) ho
    rw [h, hcompleted] at hmem
    rcases mem_append.mp hmem with hbefore | hlast
    · obtain ⟨other, -, hother⟩ := mem_map.mp hbefore
      obtain ⟨rfl, hsame⟩ := Prod.mk.inj hother
      by_contra hnot
      rw [if_neg hnot] at hsame
      cases hsame
    · simp at hlast
  · intro hcompleted
    have hbefore := (hpassed id .completed (of_decide_eq_true hcompleted)).1
    have hmem : (id, TaskState.completed) ∈ t.received.map fun m => (m.1, m.2.state) := by
      rw [h]
      refine mem_append_left _ (mem_map.mpr ⟨id, hbefore, ?_⟩)
      rw [if_pos hcompleted]
    obtain ⟨m, hm, heq⟩ := mem_map.mp hmem
    obtain ⟨rfl, hstate⟩ := Prod.mk.inj heq
    rw [hinv.maps.received_state m hm, hstate]

/-- The ancestors that are due, in the order in which the profile compensates them. -/
def dueAncestors (nodes : Nodes N) (failedID : String) (tr : Transcript N) (topology : List String) :
    List String :=
  topology.reverse.filter fun id => decide (id ∈ ancestors nodes failedID) && due nodes tr id

theorem filter_candidates : (compensationCandidates failedID topology nodes tr.states).filter (hasAction nodes) =
      dueAncestors nodes failedID tr topology := by
  rw [compensationCandidates, filter_filter]
  apply filter_congr
  intro id _
  simp only [due, completed, Bool.decide_and]
  rw [Bool.and_comm, Bool.and_assoc]

section

variable (h : FailsAt rt ord task nodes topology before failedID tr p)
include h

theorem FailsAt.known : KnownReferences nodes :=
  ((stablePortableTopology_eq_some_iff ord nodes topology).mp h.ordered).1

theorem FailsAt.topology_perm : topology.Perm nodes.keys :=
  ((stablePortableTopology_eq_some_iff ord nodes topology).mp h.ordered).2.1.1

theorem FailsAt.mem_topology {id : String} (hid : completed tr id = true) : id ∈ topology := by
  obtain ⟨after, hsplit⟩ := h.split
  rw [hsplit]
  exact mem_append_left _ (h.passed_states id .completed (of_decide_eq_true hid)).1

theorem FailsAt.mem_candidates (id : String) : id ∈ compensationCandidates failedID topology nodes tr.states ↔
      completed tr id = true ∧ IsAncestor nodes failedID id := by
  rw [compensationCandidates, mem_filter, mem_reverse, decide_eq_true_eq, mem_ancestors h.known]
  constructor
  · rintro ⟨-, hancestor, hstate⟩
    exact ⟨decide_eq_true hstate, hancestor⟩
  · rintro ⟨hcompleted, hancestor⟩
    exact ⟨h.mem_topology hcompleted, hancestor, of_decide_eq_true hcompleted⟩

theorem FailsAt.dueAncestors_eq_nil_iff : dueAncestors nodes failedID tr topology = [] ↔
      ∀ id, due nodes tr id = true → ¬IsAncestor nodes failedID id := by
  rw [← filter_candidates, filter_eq_nil_iff]
  simp only [h.mem_candidates, due, Bool.and_eq_true]
  exact ⟨fun hnone id hdue hancestor => hnone id ⟨hdue.1, hancestor⟩ hdue.2,
    fun hnone id hid haction => hnone id ⟨hid.1, haction⟩ hid.2⟩

/-- What the profile compensates, by cases. -/
theorem FailsAt.order_cases (hexplicit : stringValue task["compensation_policy"]? = "best_effort" ∨
      stringValue task["compensation_policy"]? = "strict") :
    ((FailsEarly rt ord nodes failedID tr ∨ strictPolicy task = true ∧ ∃ id, completed tr id = true ∧
        IsAncestor nodes failedID id ∧ hasAction nodes id = false) ∧ p.compensationOrder = []) ∨
      (¬FailsEarly rt ord nodes failedID tr ∧
        (strictPolicy task = true → ∀ id, completed tr id = true → IsAncestor nodes failedID id →
          hasAction nodes id = true) ∧ p.compensationOrder = if strictPolicy task then
            stopAfter (compensationFails nodes) (dueAncestors nodes failedID tr topology)
          else dueAncestors nodes failedID tr topology) := by
  rcases h.compensationOrder with ⟨hearly, horder⟩ | ⟨hlate, states, events, hstates, horder⟩
  · exact .inl ⟨.inl hearly, horder⟩
  obtain ⟨hbest, hstrict⟩ :=
    compensatePortable_order task failedID topology nodes states events
  rcases hexplicit with hpolicy | hpolicy
  · have hnot : strictPolicy task = false := by
      rw [strictPolicy, hpolicy]
      decide
    refine .inr ⟨hlate, fun hs => absurd hs (by rw [hnot]; exact Bool.false_ne_true), ?_⟩
    rw [horder, hbest hpolicy, h.candidates hstates, filter_candidates, hnot]
    rfl
  · have hs : strictPolicy task = true := decide_eq_true hpolicy
    rw [hstrict hpolicy, h.candidates hstates] at horder
    by_cases hall : (compensationCandidates failedID topology nodes tr.states).all
        (hasAction nodes) = true
    · refine .inr ⟨hlate, fun _ id hcompleted hancestor => ?_, ?_⟩
      · exact all_eq_true.mp hall id ((h.mem_candidates id).mpr ⟨hcompleted, hancestor⟩)
      · rw [if_pos hall] at horder
        rw [horder, hs, if_pos rfl, ← filter_candidates, filter_eq_self.mpr (all_eq_true.mp hall)]
    · rw [if_neg hall] at horder
      refine .inl ⟨.inr ⟨hs, ?_⟩, horder⟩
      rw [all_eq_true] at hall
      push Not at hall
      obtain ⟨id, hid, hmissing⟩ := hall
      obtain ⟨hcompleted, hancestor⟩ := (h.mem_candidates id).mp hid
      exact ⟨id, hcompleted, hancestor, Bool.eq_false_iff.mpr hmissing⟩

end

theorem completedNodes_eq {states : GoMap TaskState}
    (hstates : ∀ id : String, states[id]? = some .completed ↔ completed tr id = true) :
    run.completedNodes states = run.topoOrder.reverse.filter (completed tr) := by
  apply filter_congr
  intro id hid
  have hids := (run.accepted.mem_order_iff id).mp (mem_reverse.mp hid)
  obtain ⟨n, hn, rfl⟩ := mem_map.mp hids
  rw [run.accepted.node?_eq_some hn, Option.isSome_some, Bool.and_true, Bool.eq_iff_iff, decide_eq_true_eq]
  exact hstates n.id

section

variable (htask : SameTask run task nodes)
include htask

theorem SameTask.effectivePolicy : run.task.effectiveCompensationPolicy = stringValue task["compensation_policy"]? := by
  rw [OrchestratorTask.effectiveCompensationPolicy, if_neg, htask.policy]
  intro hempty
  rcases htask.explicit with hpolicy | hpolicy <;> rw [hempty] at hpolicy <;>
    exact absurd hpolicy (by decide)

theorem SameTask.policy_cases : stringValue task["compensation_policy"]? = "best_effort" ∨
    stringValue task["compensation_policy"]? = "strict" := by
  rw [← htask.policy]
  exact htask.explicit

theorem SameTask.isStrict : compensationIsStrict run.task.effectiveCompensationPolicy = strictPolicy task := by
  rw [htask.effectivePolicy]
  rfl

theorem SameTask.hasCompensation {id : String} (hid : id ∈ run.task.dag.ids) :
    run.hasCompensation id = hasAction nodes id := by
  obtain ⟨n, hn, rfl⟩ := mem_map.mp hid
  rw [Bool.eq_iff_iff, DagRun.hasCompensation_iff hn, htask.actions n hn]

theorem SameTask.toCompensate_eq {states : GoMap TaskState}
    (hstates : ∀ id : String, states[id]? = some .completed ↔ completed tr id = true) :
    run.toCompensate states = run.topoOrder.reverse.filter (due nodes tr) := by
  rw [DagRun.toCompensate, completedNodes_eq hstates, filter_filter]
  apply filter_congr
  intro id hid
  have hids := (run.accepted.mem_order_iff id).mp (mem_reverse.mp hid)
  rw [htask.hasCompensation hids, due, Bool.and_comm]

variable (h : FailsAt rt ord task nodes topology before failedID tr p)
include h

theorem SameTask.mem_ids {id : String} (hid : completed tr id = true) : id ∈ run.task.dag.ids := by
  have hkey := h.topology_perm.mem_iff.mp (h.mem_topology hid)
  exact (htask.ids id).mp (Std.ExtTreeMap.mem_keys.mp hkey)

theorem SameTask.missing_eq_nil_iff {states : GoMap TaskState}
    (hstates : ∀ id : String, states[id]? = some .completed ↔ completed tr id = true) :
    run.missingCompensation states = [] ↔ ∀ id, completed tr id = true → hasAction nodes id = true := by
  rw [DagRun.missingCompensation, completedNodes_eq hstates, filter_eq_nil_iff]
  constructor
  · intro hnone id hid
    have hids := htask.mem_ids h hid
    have horder := mem_reverse.mpr ((run.accepted.mem_order_iff id).mpr hids)
    have hmember := hnone id (mem_filter.mpr ⟨horder, hid⟩)
    rw [htask.hasCompensation hids] at hmember
    simpa using hmember
  · intro hall id hmember
    obtain ⟨-, hid⟩ := mem_filter.mp hmember
    rw [htask.hasCompensation (htask.mem_ids h hid), hall id hid]
    exact Bool.false_ne_true

theorem SameTask.compensated_cases (hlimit : run.opts.maxConcurrentNodes = 1)
    {events : List (Event Raw)} {t : RunState Raw} {result : NopTaskResult Raw}
    (hrun : Transition.run run.step .initial events = some t)
    (hctx : ∀ e ∈ events, e.isCtxDone = false) (hreturned : t.phase = .returned result)
    (houtcomes : SameOutcomes t.received before failedID tr) :
    ((¬run.task.dag.Noticed failedID ∨ strictPolicy task = true ∧ ∃ id, completed tr id = true ∧
        hasAction nodes id = false) ∧ t.compensated = []) ∨ (run.task.dag.Noticed failedID ∧
        (strictPolicy task = true → ∀ id, completed tr id = true → hasAction nodes id = true) ∧
        t.compensated = run.topoOrder.reverse.filter (due nodes tr)) := by
  have hstates := houtcomes.completed_iff h.passed_states hrun
  have hsuccess : compensationRunsOnSuccess run.task.effectiveCompensationPolicy = false := by
    rw [htask.effectivePolicy]
    rcases htask.policy_cases with hpolicy | hpolicy <;> rw [hpolicy] <;> decide
  have hfailure : compensationRunsOnFailure run.task.effectiveCompensationPolicy = true := by
    rw [htask.effectivePolicy]
    rcases htask.policy_cases with hpolicy | hpolicy <;> rw [hpolicy] <;> decide
  obtain ⟨init, m, hlast, rfl⟩ := houtcomes.failsLast
  have hcases := DagRun.sequential_compensated htask.plain hsuccess hlimit hfailure hrun hctx hreturned hlast
  rw [htask.isStrict, htask.toCompensate_eq hstates, ne_eq, htask.missing_eq_nil_iff h hstates] at hcases
  rcases hcases with ⟨hidle, hnone⟩ | hscope
  · refine .inl ⟨hidle.imp_right (And.imp_right fun hmissing => ?_), hnone⟩
    push Not at hmissing
    obtain ⟨id, hcompleted, hnoAction⟩ := hmissing
    exact ⟨id, hcompleted, Bool.eq_false_iff.mpr hnoAction⟩
  · exact .inr hscope

end

section

variable (htask : SameTask run task nodes) (h : FailsAt rt ord task nodes topology before failedID tr p)
include htask h

theorem SameTask.mem_topoOrder {id : String} (hid : due nodes tr id = true) : id ∈ run.topoOrder :=
  (run.accepted.mem_order_iff id).mpr (htask.mem_ids h (Bool.and_elim_left hid))

/-- With the ancestors as the profile's list and all completed nodes as the orchestrator's, the lists
agree exactly if the scopes do. -/
theorem SameTask.lists_agree_iff : ((if strictPolicy task then
        stopAfter (compensationFails nodes) (dueAncestors nodes failedID tr topology)
      else dueAncestors nodes failedID tr topology) = run.topoOrder.reverse.filter (due nodes tr)) ↔
      (∀ id, due nodes tr id = true → IsAncestor nodes failedID id) ∧
        topology.filter (due nodes tr) = run.topoOrder.filter (due nodes tr) ∧ (strictPolicy task = true →
          ∀ id ∈ (topology.filter (due nodes tr)).tail, compensationFails nodes id = false) := by
  have hinside : (∀ id, due nodes tr id = true → decide (id ∈ ancestors nodes failedID) = true) ↔
      ∀ id, due nodes tr id = true → IsAncestor nodes failedID id := by
    refine forall_congr' fun id => imp_congr_right fun _ => ?_
    rw [decide_eq_true_eq, mem_ancestors h.known]
    exact Iff.rfl
  have hdueys : ∀ id, due nodes tr id = true → id ∈ run.topoOrder := fun id => htask.mem_topoOrder h
  have hduexs : ∀ id, due nodes tr id = true → id ∈ topology :=
    fun id hid => h.mem_topology (Bool.and_elim_left hid)
  unfold dueAncestors
  cases strictPolicy task with
  | false =>
    rw [if_neg Bool.false_ne_true, filter_eq_iff hdueys, hinside]
    simp
  | true =>
    have hxs := h.topology_perm.nodup_iff.mpr Std.ExtTreeMap.nodup_keys
    rw [if_pos rfl, stopAfter_filter_eq_iff hxs run.accepted.order_nodup hduexs hdueys, hinside]
    simp

omit htask in
theorem FailsAt.list_eq_nil_iff (hlate : ¬FailsEarly rt ord nodes failedID tr)
    (hallowed : strictPolicy task = true → ∀ id, completed tr id = true →
      IsAncestor nodes failedID id → hasAction nodes id = true) : (if strictPolicy task then
        stopAfter (compensationFails nodes) (dueAncestors nodes failedID tr topology)
      else dueAncestors nodes failedID tr topology) = [] ↔ ProfileIdle task nodes failedID tr rt ord := by
  have hnil : (if strictPolicy task then
        stopAfter (compensationFails nodes) (dueAncestors nodes failedID tr topology)
      else dueAncestors nodes failedID tr topology) = [] ↔
      dueAncestors nodes failedID tr topology = [] := by
    split_ifs
    · exact stopAfter_eq_nil_iff
    · exact Iff.rfl
  rw [hnil, h.dueAncestors_eq_nil_iff]
  constructor
  · exact fun hnone => .inr (.inl hnone)
  · rintro (hearly | hnone | ⟨hstrict, id, hcompleted, hancestor, hmissing⟩)
    · exact absurd hearly hlate
    · exact hnone
    · rw [hallowed hstrict id hcompleted hancestor] at hmissing
      cases hmissing

theorem SameTask.list_eq_nil_iff (hnoticed : run.task.dag.Noticed failedID)
    (hallowed : strictPolicy task = true → ∀ id, completed tr id = true →
      hasAction nodes id = true) : run.topoOrder.reverse.filter (due nodes tr) = [] ↔
      OrchestratorIdle task nodes failedID tr run.task.dag := by
  rw [filter_eq_nil_iff]
  constructor
  · intro hnone
    refine .inr (.inl fun id => Bool.eq_false_iff.mpr fun hdue => ?_)
    exact hnone id (mem_reverse.mpr (htask.mem_topoOrder h hdue)) hdue
  · rintro (hmissed | hnone | ⟨hstrict, id, hcompleted, hmissing⟩)
    · exact absurd hnoticed hmissed
    · exact fun id _ => Bool.eq_false_iff.mp (hnone id)
    · rw [hallowed hstrict id hcompleted] at hmissing
      cases hmissing

end

/-- The profile and a sequential run of the orchestrator that execute the same nodes with the same
outcomes compensate the same nodes in the same order exactly if neither has anything to compensate or
both have the same scope. -/
theorem sagas_agree_iff (htask : SameTask run task nodes) (h : FailsAt rt ord task nodes topology before failedID tr p)
    (hlimit : run.opts.maxConcurrentNodes = 1) (events : List (Event Raw)) (t : RunState Raw)
    (result : NopTaskResult Raw) (hrun : Transition.run run.step .initial events = some t)
    (hctx : ∀ e ∈ events, e.isCtxDone = false) (hreturned : t.phase = .returned result)
    (houtcomes : SameOutcomes t.received before failedID tr) : evaluateOrchestration rt ord task = some p ∧
      (p.compensationOrder = t.compensated ↔ (ProfileIdle task nodes failedID tr rt ord ∧
          OrchestratorIdle task nodes failedID tr run.task.dag) ∨
        SameScope task nodes failedID tr rt ord topology run) := by
  refine ⟨h.evaluate, ?_⟩
  have hlists := htask.lists_agree_iff h
  rcases h.order_cases htask.policy_cases with ⟨hidle, hnone⟩ | ⟨hlate, hallowed, horder⟩ <;>
    rcases htask.compensated_cases h hlimit hrun hctx hreturned houtcomes with
      ⟨hidle', hnone'⟩ | ⟨hnoticed, hallowed', horder'⟩
  · have hprofile : ProfileIdle task nodes failedID tr rt ord := hidle.imp_right .inr
    have horchestrator : OrchestratorIdle task nodes failedID tr run.task.dag :=
      hidle'.imp_right .inr
    rw [hnone, hnone']
    exact iff_of_true rfl (.inl ⟨hprofile, horchestrator⟩)
  · have hprofile : ProfileIdle task nodes failedID tr rt ord := hidle.imp_right .inr
    rw [hnone, horder', eq_comm, htask.list_eq_nil_iff h hnoticed hallowed']
    constructor
    · exact fun horchestrator => .inl ⟨hprofile, horchestrator⟩
    · rintro (hboth | hscope)
      · exact hboth.2
      · rcases hidle with hearly | ⟨hstrict, id, hcompleted, -, hmissing⟩
        · exact absurd hearly hscope.late
        · rw [hscope.actions hstrict id hcompleted] at hmissing
          cases hmissing
  · have horchestrator : OrchestratorIdle task nodes failedID tr run.task.dag :=
      hidle'.imp_right .inr
    rw [horder, hnone', h.list_eq_nil_iff hlate hallowed]
    constructor
    · exact fun hprofile => .inl ⟨hprofile, horchestrator⟩
    · rintro (hboth | hscope)
      · exact hboth.1
      · rcases hidle' with hmissed | ⟨hstrict, id, hcompleted, hmissing⟩
        · exact absurd hscope.noticed hmissed
        · rw [hscope.actions hstrict id hcompleted] at hmissing
          cases hmissing
  · rw [horder, horder']
    constructor
    · intro hagree
      obtain ⟨hancestors, hsame, hcompensations⟩ := hlists.mp hagree
      exact .inr ⟨hlate, hnoticed, hancestors, hsame, hallowed', hcompensations⟩
    · rintro (⟨hprofile, horchestrator⟩ | hscope)
      · rw [(h.list_eq_nil_iff hlate hallowed).mpr hprofile,
          (htask.list_eq_nil_iff h hnoticed hallowed').mpr horchestrator]
      · exact hlists.mpr ⟨hscope.ancestors, hscope.order, hscope.compensations⟩

end Agreement

/-! ### Two small tasks

The same two nodes with and without a dependency, for both orchestrators: the first node succeeds, the
second fails. -/

def sagaNode (id : String) (dependencies : List String) (kind : String) : Json Empty :=
  .object [("id", .string id), ("depends_on", .array (dependencies.map .string)),
    ("compensate_action", .string "undo"), ("attempts", .array [.object [("kind", .string kind)]])]

variable (dependencies : List String)

def sagaNodes : Nodes Empty :=
  ((∅ : Nodes Empty).insert "a" (object (some (sagaNode "a" [] "success")))).insert "b"
    (object (some (sagaNode "b" dependencies "error")))

def sagaTask : GoMap (Json Empty) :=
  Json.toMap [("nodes", .array [sagaNode "a" [] "success", sagaNode "b" dependencies "error"]),
    ("compensation_policy", .string "best_effort")]

def sagaDag : TaskDag Unit :=
  { nodes := [plainNode "a" [], plainNode "b" dependencies]
    edges := dependencies.map fun d => ⟨d, "b"⟩ }

def sagaCall (valid : (validateDag (sagaDag dependencies)).isValid = true) : DagRun Unit :=
  { plainCall (sagaDag dependencies) 0 valid with
    task := { plainTask (sagaDag dependencies) with compensationPolicy := "best_effort" }
    valid := valid }

theorem sagaCall_sameTask {dependencies : List String} (valid : (validateDag (sagaDag dependencies)).isValid = true)
    (hdepends : dependsOn (sagaNodes dependencies) "b" = dependencies)
    (hnone : dependsOn (sagaNodes dependencies) "a" = []) (hactions : hasAction (sagaNodes dependencies) "a" = true ∧
      hasAction (sagaNodes dependencies) "b" = true)
    (hpolicy : stringValue (sagaTask dependencies)["compensation_policy"]? = "best_effort") :
    SameTask (sagaCall dependencies valid) (sagaTask dependencies) (sagaNodes dependencies) where
  ids id := by
    simp only [sagaNodes, GoMap.mem_insert]
    simp [sagaCall, plainTask, sagaDag, TaskDag.ids, plainNode, eq_comm, or_comm]
  inputs := by
    simp only [sagaCall, plainTask, sagaDag, plainNode]
    simp [hdepends, hnone]
  plain := by
    constructor
    · simp only [sagaCall, plainTask, sagaDag, TaskDag.arcs, plainNode]
      simp
    · simp [sagaCall, plainTask, sagaDag, plainNode]
  actions := by
    simp only [sagaCall, plainTask, sagaDag, plainNode]
    simp [hactions]
  policy := hpolicy.symm
  explicit := .inl rfl

def sagaRun : List (Event Unit) :=
  [.loop, .nodeEnd "a" [plainAnswer true], .receive "a", .loop, .nodeEnd "b" [plainAnswer false],
    .receive "b"]

def sagaTranscript : Transcript Empty where
  events := ["task:running", "a:attempt:1", "a:completed"]
  results := (∅ : GoMap (Json Empty)).insert "a" .null
  states := (∅ : GoMap NodeState).insert "a" .completed
  attemptCounts := (∅ : GoMap Int).insert "a" 1
  mappedParams := ∅

theorem sagaChain_agree_iff : ∃ t result p, Transition.run (sagaCall ["a"] (by decide)).step .initial
        (sagaRun ++ [.loop, .compensate (plainAnswer true)]) = some t ∧
      t.phase = .returned result ∧ t.compensated = ["a"] ∧
      evaluateOrchestration plainRuntime .forward (sagaTask ["a"]) = some p ∧
      (p.compensationOrder = t.compensated ↔
        (ProfileIdle (sagaTask ["a"]) (sagaNodes ["a"]) "b" sagaTranscript plainRuntime .forward ∧
          OrchestratorIdle (sagaTask ["a"]) (sagaNodes ["a"]) "b" sagaTranscript (sagaDag ["a"])) ∨
        SameScope (sagaTask ["a"]) (sagaNodes ["a"]) "b" sagaTranscript plainRuntime .forward
          ["a", "b"] (sagaCall ["a"] (by decide))) := by
  have htask : SameTask (sagaCall ["a"] (by decide)) (sagaTask ["a"]) (sagaNodes ["a"]) :=
    sagaCall_sameTask _ (by decide +kernel) (by decide +kernel) (by decide +kernel)
      (by decide +kernel)
  have hfails : ∃ p, FailsAt plainRuntime .forward (sagaTask ["a"]) (sagaNodes ["a"]) ["a", "b"]
      ["a"] "b" sagaTranscript p :=
    ⟨_, rfl, by decide +kernel, by decide +kernel, ⟨[], rfl⟩, rfl, by decide +kernel, rfl⟩
  obtain ⟨p, hp⟩ := hfails
  refine ⟨_, _, p, rfl, rfl, by decide +kernel, ?_⟩
  exact sagas_agree_iff htask hp rfl (sagaRun ++ [.loop, .compensate (plainAnswer true)]) _ _ rfl
    (by simp [sagaRun, Event.isCtxDone]) rfl rfl

/-- Without the dependency the orchestrator compensates the completed node and the profile does not. -/
theorem sagaPair_disagree : SameTask (sagaCall [] (by decide)) (sagaTask []) (sagaNodes []) ∧
    ∃ t result p, Transition.run (sagaCall [] (by decide)).step .initial
        (sagaRun ++ [.compensate (plainAnswer true)]) = some t ∧ t.phase = .returned result ∧
      FailsAt plainRuntime .forward (sagaTask []) (sagaNodes []) ["a", "b"] ["a"] "b" sagaTranscript p ∧
      SameOutcomes t.received ["a"] "b" sagaTranscript ∧
      evaluateOrchestration plainRuntime .forward (sagaTask []) = some p ∧
      t.compensated = ["a"] ∧ p.compensationOrder = [] := by
  refine ⟨sagaCall_sameTask _ (by decide +kernel) (by decide +kernel) (by decide +kernel)
    (by decide +kernel), _, _, _, rfl, rfl, ⟨rfl, by decide +kernel, by decide +kernel,
      ⟨[], rfl⟩, rfl, by decide +kernel, rfl⟩, rfl, rfl, by decide +kernel, by decide +kernel⟩

end NpsSdk.Nop.Portable
