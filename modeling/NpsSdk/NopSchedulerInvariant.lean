import NpsSdk.NopRunDag

/-! What holds of the scheduler's books in every run. A pass of the loop marks the ready nodes that cannot reach their
threshold and starts others up to the limit; a goroutine that ends blocks on the channel until the loop, or the drain,
takes its message. -/

namespace NpsSdk.Nop

open GoMap List

variable {Raw : Type}

/-! ### Counting dependencies -/

variable {states : GoMap TaskState} {accepted : List TaskState}

theorem isIn_eq_true {d : String} :
    isIn states accepted d = true ↔ ∃ state, states[d]? = some state ∧ state ∈ accepted := by
  unfold isIn
  cases states[d]? <;> simp

theorem isIn_insert {id : String} {state : TaskState} (hfresh : states[id]? = none) (hstate : state ∉ accepted) :
    isIn (states.insert id state) accepted = isIn states accepted := by
  funext d
  unfold isIn
  rw [getElem?_insert]
  by_cases hd : id = d
  · rw [← hd, hfresh]
    simp [hstate]
  · rw [if_neg hd]

theorem kOfNFails_insert_failed {n : DagNode Raw} {id : String} (hfresh : states[id]? = none) :
    kOfNFails n (states.insert id .failed) = kOfNFails n states := by
  unfold kOfNFails successDeps countDeps
  rw [isIn_insert hfresh (by decide)]

/-! ### The K-of-N filter -/

theorem filterReady_spec {ns : List (DagNode Raw)} (hfresh : ∀ n ∈ ns, states[n.id]? = none)
    (hnodup : (ns.map DagNode.id).Nodup) : (filterReady ns states).1 = ns.filter (fun n => !kOfNFails n states) ∧
      ∀ id : String, (filterReady ns states).2.1[id]? =
        if ∃ n ∈ ns, kOfNFails n states = true ∧ n.id = id then some .failed else states[id]? := by
  induction ns generalizing states with
  | nil => exact ⟨rfl, fun _ => rfl⟩
  | cons n ns ih =>
    rw [map_cons, nodup_cons] at hnodup
    have hlater : ∀ m ∈ ns, states[m.id]? = none := fun m hm => hfresh m (mem_cons_of_mem n hm)
    by_cases hfails : kOfNFails n states = true
    · have hrest : ∀ m ∈ ns, (states.insert n.id .failed)[m.id]? = none := by
        intro m hm
        rw [getElem?_insert_ne _ _ _ _ fun h : n.id = m.id => hnodup.1 (h ▸ mem_map_of_mem hm)]
        exact hlater m hm
      obtain ⟨hkept, hstates⟩ := ih hrest hnodup.2
      simp only [kOfNFails_insert_failed (hfresh n mem_cons_self)] at hkept hstates
      simp only [filterReady, hfails, ↓reduceIte, filter_cons, exists_mem_cons_iff, true_and]
      refine ⟨hkept, fun id => ?_⟩
      rw [hstates, GoMap.getElem?_insert, ite_or]
      split_ifs <;> rfl
    · obtain ⟨hkept, hstates⟩ := ih hlater hnodup.2
      simp only [filterReady, hfails, Bool.false_eq_true, filter_cons, exists_mem_cons_iff, false_and, false_or]
      exact ⟨congrArg (cons n) hkept, hstates⟩

/-! ### The invariant of the books -/

/-- `after` keeps every entry of `before`. -/
def Grows (before after : GoMap TaskState) : Prop :=
  ∀ (id : String) (state : TaskState), before[id]? = some state → after[id]? = some state

/-- A context holds exactly the results of the nodes recorded as completed. -/
def Snapshot (context : GoMap Raw) (states : GoMap TaskState)
    (received : List (String × NodeOutcome Raw)) : Prop :=
  ∀ (id : String) (r : Raw), context[id]? = some r ↔
    states[id]? = some .completed ∧ ∃ o, (id, o) ∈ received ∧ o.result = some r

namespace Board

structure DispatchInv (dag : TaskDag Raw) (b : Board Raw) : Prop where
  once : b.startedIDs.Nodup
  known : ∀ d ∈ b.dispatches, d.node ∈ dag.nodes
  unstated : ∀ d ∈ b.dispatches, d.nodeStates[d.node.id]? = none
  threshold : ∀ d ∈ b.dispatches, kOfNFails d.node d.nodeStates = false
  snapshots : ∀ d ∈ b.dispatches, Snapshot d.context d.nodeStates d.received
  past : ∀ d ∈ b.dispatches, Grows d.nodeStates b.nodeStates
  ordered : b.dispatches.Pairwise fun d d' => Grows d.nodeStates d'.nodeStates
  /-- A node that succeeded before a dispatch was handed over before it. -/
  earlier : ∀ before d after, b.dispatches = before ++ d :: after →
    ∀ id state, d.nodeStates[id]? = some state → state ≠ .failed →
      id ∈ before.map fun e => e.node.id

structure MapInv (dag : TaskDag Raw) (limit : Int) (b : Board Raw) : Prop where
  stated : ∀ id state, b.nodeStates[id]? = some state → id ∈ dag.ids ∧ Settled state
  flag : ∀ (id : String) (v : Bool), b.inFlight[id]? = some v → v = true
  flying : ∀ id ∈ b.inFlight, b.nodeStates[id]? = none ∧ id ∈ b.startedIDs
  bound : (b.inFlight.size : Int) ≤ limit
  snapshot : Snapshot b.nodeResults b.nodeStates b.received
  received_state : ∀ m ∈ b.received, b.nodeStates[m.1]? = some m.2.state
  received_ended : ∀ m ∈ b.received, m ∈ b.ended
  success_received : ∀ id state, b.nodeStates[id]? = some state → state ≠ .failed →
    ∃ o, (id, o) ∈ b.received ∧ o.state = state
  ended_once : (b.ended.map Prod.fst).Nodup
  ended_settled : ∀ m ∈ b.ended, Settled m.2.state
  ended_started : ∀ m ∈ b.ended, m.1 ∈ b.startedIDs
  sending : ∀ m ∈ b.sending, m ∈ b.ended ∧ m.1 ∈ b.inFlight
  landed : ∀ id ∈ b.startedIDs, id ∈ b.inFlight ∨ id ∈ b.ended.map Prod.fst

/-- The nodes handed over are in flight or were received; this holds until the drain. -/
def Tracked (b : Board Raw) : Prop :=
  ∀ id ∈ b.startedIDs, id ∈ b.inFlight ∨ id ∈ b.received.map Prod.fst

variable {dag : TaskDag Raw} {limit : Int} {b : Board Raw}

variable {id : String} {n : DagNode Raw} {ready : List (DagNode Raw)} {m : String × NodeOutcome Raw}

section

variable (h : b.MapInv dag limit)
include h

theorem MapInv.success_started {state : TaskState}
    (hstate : b.nodeStates[id]? = some state) (hok : state ≠ .failed) : id ∈ b.startedIDs := by
  obtain ⟨o, ho, -⟩ := h.success_received id state hstate hok
  exact h.ended_started (id, o) (h.received_ended (id, o) ho)

theorem MapInv.stated_of_full
    (hfull : dag.nodes.length ≤ b.nodeStates.size) : ∀ n ∈ dag.nodes, n.id ∈ b.nodeStates := by
  intro n hn
  have hkeys : ∀ id ∈ b.nodeStates, id ∈ dag.ids := by
    intro id hid
    obtain ⟨state, hstate⟩ := (mem_iff_exists _ _).mp hid
    exact (h.stated id state hstate).1
  refine mem_of_length_le_size _ hkeys ?_ (mem_map_of_mem hn)
  rw [TaskDag.ids, length_map]
  exact hfull

theorem MapInv.getD_inFlight (id : String) :
    b.inFlight.getD id false = false ↔ id ∉ b.inFlight := by
  rw [Std.ExtTreeMap.getD_eq_getD_getElem?, not_mem_iff]
  cases hid : b.inFlight[id]? with
  | none => simp
  | some v => simp [h.flag id v hid]

theorem MapInv.mem_readyNodes (n : DagNode Raw) :
    n ∈ b.readyNodes dag ↔ n ∈ dag.nodes ∧ b.nodeStates[n.id]? = none ∧ n.id ∉ b.inFlight ∧
      areDepsDone n b.nodeStates = true := by
  rw [readyNodes, mem_filter, Bool.and_eq_true, Bool.and_eq_true, Option.isNone_iff_eq_none,
    Bool.not_eq_true', h.getD_inFlight, and_assoc]

end

theorem readyNodes_nodup (hnodup : dag.ids.Nodup) : ((b.readyNodes dag).map DagNode.id).Nodup :=
  hnodup.sublist (List.filter_sublist.map DagNode.id)

/-! ### Marking the ready nodes that fail -/

section

variable (h : b.MapInv dag limit) (hnodup : dag.ids.Nodup)
include h hnodup

theorem MapInv.marked_failed (hn : n ∈ b.readyNodes dag)
    (hfails : kOfNFails n b.nodeStates = true) : (b.marked dag).nodeStates[n.id]? = some .failed :=
  ((filterReady_spec (fun m hm => ((h.mem_readyNodes m).mp hm).2.1) (readyNodes_nodup hnodup)).2 n.id).trans
    (if_pos ⟨n, hn, hfails, rfl⟩)

theorem MapInv.marked_other (hother : ∀ n ∈ b.readyNodes dag, kOfNFails n b.nodeStates = true → n.id ≠ id) :
    (b.marked dag).nodeStates[id]? = b.nodeStates[id]? :=
  ((filterReady_spec (fun m hm => ((h.mem_readyNodes m).mp hm).2.1) (readyNodes_nodup hnodup)).2 id).trans
    (if_neg fun ⟨n, hn, hfails, hid⟩ => hother n hn hfails hid)

/-- The marks go on nodes without a state that are not in flight. -/
theorem MapInv.marked_cases {state : TaskState}
    (hstate : (b.marked dag).nodeStates[id]? = some state) : b.nodeStates[id]? = some state ∨
      (state = .failed ∧ b.nodeStates[id]? = none ∧ id ∈ dag.ids ∧ id ∉ b.inFlight) := by
  by_cases hex : ∃ n ∈ b.readyNodes dag, kOfNFails n b.nodeStates = true ∧ n.id = id
  · obtain ⟨n, hn, hfails, rfl⟩ := hex
    obtain ⟨hnode, hfresh, hflight, -⟩ := (h.mem_readyNodes n).mp hn
    rw [h.marked_failed hnodup hn hfails] at hstate
    exact .inr ⟨(Option.some.inj hstate).symm, hfresh, mem_map_of_mem hnode, hflight⟩
  · rw [h.marked_other hnodup fun n hn hfails hid => hex ⟨n, hn, hfails, hid⟩] at hstate
    exact .inl hstate

theorem MapInv.grows_marked : Grows b.nodeStates (b.marked dag).nodeStates := by
  intro id state hstate
  rw [h.marked_other hnodup]
  · exact hstate
  · intro n hn _ hid
    rw [← hid, ((h.mem_readyNodes n).mp hn).2.1] at hstate
    cases hstate

theorem MapInv.marked : (b.marked dag).MapInv dag limit where
  __ := h
  stated id state hstate := by
    rcases h.marked_cases hnodup hstate with hold | ⟨rfl, -, hid, -⟩
    · exact h.stated id state hold
    · exact ⟨hid, .inr (.inr rfl)⟩
  flying id hid := by
    refine ⟨?_, (h.flying id hid).2⟩
    cases hstate : (b.marked dag).nodeStates[id]? with
    | none => rfl
    | some state =>
      rcases h.marked_cases hnodup hstate with hold | ⟨-, -, -, hnot⟩
      · rw [(h.flying id hid).1] at hold
        cases hold
      · exact absurd hid hnot
  snapshot id r := by
    rw [show (b.marked dag).nodeResults = b.nodeResults from rfl, h.snapshot id r]
    refine and_congr_left fun _ => ⟨h.grows_marked hnodup id .completed, ?_⟩
    intro hstate
    rcases h.marked_cases hnodup hstate with hold | ⟨hfailed, -⟩
    · exact hold
    · cases hfailed
  received_state m hm := h.grows_marked hnodup _ _ (h.received_state m hm)
  success_received id state hstate hok := by
    rcases h.marked_cases hnodup hstate with hold | ⟨hfailed, -⟩
    · exact h.success_received id state hold hok
    · exact absurd hfailed hok

end

theorem DispatchInv.of_grows {b' : Board Raw} (h : b.DispatchInv dag)
    (hsame : b'.dispatches = b.dispatches) (hgrows : Grows b.nodeStates b'.nodeStates) : b'.DispatchInv dag where
  once := by
    rw [startedIDs, hsame]
    exact h.once
  known := hsame ▸ h.known
  unstated := hsame ▸ h.unstated
  threshold := hsame ▸ h.threshold
  snapshots := hsame ▸ h.snapshots
  past d hd id state hstate := hgrows id state (h.past d (hsame ▸ hd) id state hstate)
  ordered := hsame ▸ h.ordered
  earlier := hsame ▸ h.earlier

/-! ### Starting nodes -/

structure Launchable (dag : TaskDag Raw) (b : Board Raw) (n : DagNode Raw) : Prop where
  known : n ∈ dag.nodes
  unstated : b.nodeStates[n.id]? = none
  grounded : n.id ∉ b.inFlight
  threshold : kOfNFails n b.nodeStates = false

theorem startedIDs_start (n : DagNode Raw) : (b.start n).startedIDs = b.startedIDs ++ [n.id] := by
  rw [startedIDs, start, map_append]
  rfl

theorem Launchable.start {n m : DagNode Raw} (hm : b.Launchable dag m) (hne : n.id ≠ m.id) :
    (b.start n).Launchable dag m where
  __ := hm
  grounded := by
    rw [Board.start, mem_insert]
    exact fun h => h.elim hne hm.grounded

theorem Launchable.not_started (hn : b.Launchable dag n) (hmap : b.MapInv dag limit) (htracked : b.Tracked) :
    n.id ∉ b.startedIDs := by
  intro hid
  rcases htracked n.id hid with hflight | hreceived
  · exact hn.grounded hflight
  obtain ⟨m, hm, hfst⟩ := mem_map.mp hreceived
  have hstate := hmap.received_state m hm
  rw [hfst, hn.unstated] at hstate
  cases hstate

theorem MapInv.start (h : b.MapInv dag limit) (hn : b.Launchable dag n) (hroom : (b.inFlight.size : Int) < limit) :
    (b.start n).MapInv dag limit where
  __ := h
  flag id v hv := by
    rw [Board.start, getElem?_insert] at hv
    split_ifs at hv
    · exact (Option.some.inj hv).symm
    · exact h.flag id v hv
  flying id hid := by
    rw [startedIDs_start, mem_append]
    rcases (mem_insert _ _ _ _).mp hid with rfl | hid
    · exact ⟨hn.unstated, .inr mem_cons_self⟩
    · exact ⟨(h.flying id hid).1, .inl (h.flying id hid).2⟩
  bound := by
    rw [Board.start, size_insert_of_not_mem _ _ _ hn.grounded]
    omega
  ended_started m hm := by
    rw [startedIDs_start]
    exact mem_append_left _ (h.ended_started m hm)
  sending m hm := ⟨(h.sending m hm).1, (mem_insert _ _ _ _).mpr (.inr (h.sending m hm).2)⟩
  landed id hid := by
    rw [startedIDs_start, mem_append, mem_singleton] at hid
    rcases hid with hid | rfl
    · exact (h.landed id hid).imp_left fun hmem => (mem_insert _ _ _ _).mpr (.inr hmem)
    · exact .inl ((mem_insert _ _ _ _).mpr (.inl rfl))

theorem DispatchInv.start (h : b.DispatchInv dag) (hmap : b.MapInv dag limit) (htracked : b.Tracked)
    (hn : b.Launchable dag n) : (b.start n).DispatchInv dag where
  once := by
    rw [startedIDs_start, nodup_append]
    refine ⟨h.once, nodup_singleton _, ?_⟩
    intro id hid other hother heq
    rw [mem_singleton] at hother
    exact hn.not_started hmap htracked (hother ▸ heq ▸ hid)
  known := forall_mem_append.mpr ⟨h.known, forall_mem_singleton.mpr hn.known⟩
  unstated := forall_mem_append.mpr ⟨h.unstated, forall_mem_singleton.mpr hn.unstated⟩
  threshold := forall_mem_append.mpr ⟨h.threshold, forall_mem_singleton.mpr hn.threshold⟩
  snapshots := forall_mem_append.mpr
    ⟨h.snapshots, forall_mem_singleton.mpr hmap.snapshot⟩
  past := forall_mem_append.mpr
    ⟨h.past, forall_mem_singleton.mpr fun _ _ hstate => hstate⟩
  ordered := by
    refine pairwise_append.mpr ⟨h.ordered, pairwise_singleton _ _, ?_⟩
    intro d hd
    exact forall_mem_singleton.mpr (h.past d hd)
  earlier before d after hsplit id state hstate hok := by
    -- the dispatch in question is the new one or an old one
    rcases eq_nil_or_concat after with rfl | ⟨after, last, rfl⟩
    · obtain ⟨hbefore, hd⟩ := append_inj' hsplit rfl
      cases hd
      rw [← hbefore]
      exact hmap.success_started hstate hok
    · rw [concat_eq_append, ← cons_append, ← append_assoc] at hsplit
      exact h.earlier before d after (append_inj' hsplit rfl).1 id state hstate hok

theorem Tracked.start (h : b.Tracked) (n : DagNode Raw) : (b.start n).Tracked := by
  intro id hid
  rw [startedIDs_start, mem_append, mem_singleton] at hid
  rw [Board.start, mem_insert]
  rcases hid with hid | rfl
  · exact (h id hid).imp_left .inr
  · exact .inl (.inl rfl)

variable {b : Board Raw}

/-- What starting one launchable node preserves, the launch loop preserves. -/
theorem launch_invariant {I : Board Raw → Prop}
    (hstart : ∀ b n, I b → b.Launchable dag n → (b.inFlight.size : Int) < limit → I (b.start n))
    (hready : ∀ n ∈ ready, b.Launchable dag n) (hnodup : (ready.map DagNode.id).Nodup) (hb : I b) :
    I (launch limit ready b) := by
  induction ready generalizing b with
  | nil => exact hb
  | cons n ready ih =>
    rw [launch]
    rw [map_cons, nodup_cons] at hnodup
    split_ifs with hfull
    · exact hb
    refine ih ?_ hnodup.2 (hstart b n hb (hready n mem_cons_self) (by omega))
    intro m hm
    refine (hready m (mem_cons_of_mem n hm)).start ?_
    exact fun heq : n.id = m.id => hnodup.1 (heq ▸ mem_map_of_mem hm)

/-- The launch loop touches the books only where it starts nodes. -/
theorem launch_frame (limit : Int) (ready : List (DagNode Raw)) (b : Board Raw) :
    ∃ inFlight dispatches, launch limit ready b = { b with inFlight, dispatches } := by
  induction ready generalizing b with
  | nil => exact ⟨b.inFlight, b.dispatches, rfl⟩
  | cons n ready ih =>
    rw [launch]
    split_ifs
    · exact ⟨b.inFlight, b.dispatches, rfl⟩
    · obtain ⟨inFlight, dispatches, hlaunch⟩ := ih (b.start n)
      exact ⟨inFlight, dispatches, hlaunch⟩

theorem launch_nodeStates (limit : Int) (ready : List (DagNode Raw)) (b : Board Raw) :
    (launch limit ready b).nodeStates = b.nodeStates := by
  obtain ⟨inFlight, dispatches, hlaunch⟩ := launch_frame limit ready b
  rw [hlaunch]

theorem size_le_launch (limit : Int) (ready : List (DagNode Raw)) (b : Board Raw) :
    b.inFlight.size ≤ (launch limit ready b).inFlight.size := by
  induction ready generalizing b with
  | nil => exact Nat.le_refl _
  | cons n ready ih =>
    rw [launch]
    split_ifs
    · exact Nat.le_refl _
    calc b.inFlight.size
      _ ≤ (b.start n).inFlight.size := Std.ExtTreeMap.size_le_size_insert
      _ ≤ _ := ih (b.start n)

theorem mem_launch_of_mem (limit : Int) (ready : List (DagNode Raw))
    {d : Dispatch Raw} (hd : d ∈ b.dispatches) : d ∈ (launch limit ready b).dispatches := by
  induction ready generalizing b with
  | nil => exact hd
  | cons n ready ih =>
    rw [launch]
    split_ifs
    · exact hd
    · exact ih (mem_append_left _ hd)

/-- Nothing is in flight after the launches only if nothing was and no node was kept. -/
theorem launch_size_eq_zero (hlimit : 0 < limit) (ready : List (DagNode Raw)) (b : Board Raw) :
    (launch limit ready b).inFlight.size = 0 ↔ ready = [] ∧ b.inFlight.size = 0 := by
  cases ready with
  | nil => simp [launch]
  | cons n ready =>
    simp only [reduceCtorEq, false_and, iff_false]
    rw [launch]
    split_ifs with hfull
    · omega
    have hle := size_le_launch limit ready (b.start n)
    have hpos : (b.start n).inFlight.size ≠ 0 := by
      rw [ne_eq, size_eq_zero_iff]
      exact fun h => h n.id ((mem_insert _ _ _ _).mpr (.inl rfl))
    omega

theorem mem_launch_dispatches (hroom : (b.inFlight.size + ready.length : Int) ≤ limit)
    (hn : n ∈ ready) : ∃ d ∈ (launch limit ready b).dispatches, d.node = n ∧ d.nodeStates = b.nodeStates := by
  induction ready generalizing b with
  | nil => cases hn
  | cons m ready ih =>
    rw [length_cons] at hroom
    have hsize : (b.start m).inFlight.size ≤ b.inFlight.size + 1 := Std.ExtTreeMap.size_insert_le
    have hrest : ((b.start m).inFlight.size + ready.length : Int) ≤ limit := by omega
    rw [launch, if_neg (by omega)]
    rcases mem_cons.mp hn with rfl | hn
    · exact ⟨_, mem_launch_of_mem limit ready (mem_append_right _ mem_cons_self),
        rfl, rfl⟩
    · exact ih hrest hn

/-! ### A pass of the loop -/

section

variable (h : b.MapInv dag limit) (hnodup : dag.ids.Nodup)
include h hnodup

theorem MapInv.successDeps_marked (deps : List String) :
    successDeps deps (b.marked dag).nodeStates = successDeps deps b.nodeStates := by
  unfold successDeps countDeps
  congr 1
  funext d
  rw [Bool.eq_iff_iff, isIn_eq_true, isIn_eq_true]
  refine exists_congr fun state => and_congr_left fun hok => ⟨?_, h.grows_marked hnodup d state⟩
  intro hstate
  rcases h.marked_cases hnodup hstate with hold | ⟨rfl, -⟩
  · exact hold
  · exact absurd hok (by decide)

theorem MapInv.kept_eq : b.kept dag = (b.readyNodes dag).filter fun n => !kOfNFails n b.nodeStates :=
  (filterReady_spec (fun m hm => ((h.mem_readyNodes m).mp hm).2.1) (readyNodes_nodup hnodup)).1

theorem MapInv.mem_kept (n : DagNode Raw) :
    n ∈ b.kept dag ↔ n ∈ b.readyNodes dag ∧ kOfNFails n b.nodeStates = false := by
  rw [h.kept_eq hnodup, mem_filter, Bool.not_eq_true']

theorem MapInv.kept_nodup : ((b.kept dag).map DagNode.id).Nodup := by
  rw [h.kept_eq hnodup]
  exact (readyNodes_nodup hnodup).sublist (List.filter_sublist.map DagNode.id)

theorem MapInv.length_kept_le : (b.kept dag).length ≤ dag.nodes.length := by
  rw [h.kept_eq hnodup]
  exact (length_filter_le _ _).trans (length_filter_le _ _)

theorem MapInv.kept_launchable (hn : n ∈ b.kept dag) : (b.marked dag).Launchable dag n := by
  obtain ⟨hready, hpass⟩ := (h.mem_kept hnodup n).mp hn
  obtain ⟨hnode, hfresh, hflight, -⟩ := (h.mem_readyNodes n).mp hready
  have hothers : ∀ m ∈ b.readyNodes dag, kOfNFails m b.nodeStates = true → m.id ≠ n.id := by
    intro m hm hfails hid
    have heq : m = n := inj_on_of_nodup_map hnodup ((h.mem_readyNodes m).mp hm).1 hnode hid
    rw [heq, hpass] at hfails
    cases hfails
  refine ⟨hnode, (h.marked_other hnodup hothers).trans hfresh, hflight, ?_⟩
  rw [kOfNFails, h.successDeps_marked hnodup]
  exact hpass

end

/-- The three invariants, which hold while the loop runs. -/
structure Running (dag : TaskDag Raw) (limit : Int) (b : Board Raw) : Prop where
  maps : b.MapInv dag limit
  starts : b.DispatchInv dag
  tracked : b.Tracked

theorem Running.pass (h : b.Running dag limit) (hnodup : dag.ids.Nodup) :
    (launch limit (b.kept dag) (b.marked dag)).Running dag limit := by
  have hgrows := h.maps.grows_marked hnodup
  have hmarked : (b.marked dag).Running dag limit :=
    ⟨h.maps.marked hnodup, h.starts.of_grows rfl hgrows, h.tracked⟩
  refine launch_invariant ?_ (fun n hn => h.maps.kept_launchable hnodup hn) (h.maps.kept_nodup hnodup) hmarked
  intro c n hc hn hroom
  exact ⟨hc.maps.start hn hroom, hc.starts.start hc.maps hc.tracked hn, hc.tracked.start n⟩

/-! ### Messages -/

theorem MapInv.endGoroutine (h : b.MapInv dag limit) {o : NodeOutcome Raw} (hstarted : id ∈ b.startedIDs)
    (hnew : id ∉ b.ended.map Prod.fst) (hsettled : Settled o.state) : (b.endGoroutine id o).MapInv dag limit where
  __ := h
  received_ended m hm := mem_append_left _ (h.received_ended m hm)
  ended_once := by
    rw [Board.endGoroutine, map_append, nodup_append]
    refine ⟨h.ended_once, nodup_singleton _, ?_⟩
    intro other hother last hlast heq
    rw [map_singleton, mem_singleton] at hlast
    have hid : other = id := heq.trans hlast
    exact hnew (hid ▸ hother)
  ended_settled := forall_mem_append.mpr
    ⟨h.ended_settled, forall_mem_singleton.mpr hsettled⟩
  ended_started := forall_mem_append.mpr
    ⟨h.ended_started, forall_mem_singleton.mpr hstarted⟩
  sending := forall_mem_append.mpr
    ⟨fun m hm => ⟨mem_append_left _ (h.sending m hm).1, (h.sending m hm).2⟩,
      forall_mem_singleton.mpr
        ⟨mem_append_right _ mem_cons_self, (h.landed id hstarted).resolve_right hnew⟩⟩
  landed other hother := by
    rw [Board.endGoroutine, map_append]
    exact (h.landed other hother).imp_right (mem_append_left _)

theorem MapInv.takeMessage (h : b.MapInv dag limit) (hm : m ∈ b.sending) : (b.takeMessage m.1).MapInv dag limit where
  __ := h
  flag id v hv := by
    rw [Board.takeMessage, getElem?_erase] at hv
    split_ifs at hv
    exact h.flag id v hv
  flying id hid := h.flying id ((mem_erase _ _ _).mp hid).2
  bound := by
    have hle := size_erase_le b.inFlight m.1
    have hbound := h.bound
    show ((b.inFlight.erase m.1).size : Int) ≤ limit
    omega
  sending other hother := by
    obtain ⟨hother, hne⟩ := mem_filter.mp hother
    refine ⟨(h.sending other hother).1, (mem_erase _ _ _).mpr ⟨?_, (h.sending other hother).2⟩⟩
    exact fun heq => of_decide_eq_true hne heq.symm
  landed id hid := by
    by_cases heq : m.1 = id
    · exact .inr (heq ▸ mem_map_of_mem (h.sending m hm).1)
    · exact (h.landed id hid).imp_left fun hmem => (mem_erase _ _ _).mpr ⟨heq, hmem⟩

theorem DispatchInv.mem_ids (h : b.DispatchInv dag) (hid : id ∈ b.startedIDs) : id ∈ dag.ids := by
  obtain ⟨d, hd, rfl⟩ := mem_map.mp hid
  exact mem_map_of_mem (h.known d hd)

theorem grows_record (hfresh : b.nodeStates[id]? = none) (o : NodeOutcome Raw) :
    Grows b.nodeStates (b.record id o).nodeStates := by
  intro other state hstate
  rw [record, getElem?_insert_ne]
  · exact hstate
  · intro heq
    rw [← heq, hfresh] at hstate
    cases hstate

theorem record_nodeResults (id other : String) (o : NodeOutcome Raw) (r : Raw) :
    (b.record id o).nodeResults[other]? = some r ↔ (id = other ∧ o.state = .completed ∧ o.result = some r) ∨
      (¬(id = other ∧ o.state = .completed ∧ o.result.isSome) ∧ b.nodeResults[other]? = some r) := by
  cases hresult : o.result with
  | none => cases hstate : o.state <;> simp [record, hstate, hresult]
  | some r' =>
    by_cases hstate : o.state = .completed
    · simp only [record, hstate, hresult, getElem?_insert]
      by_cases heq : id = other <;> simp [heq]
    · cases hcase : o.state <;> simp_all [record]

theorem MapInv.record (h : b.MapInv dag limit) {o : NodeOutcome Raw} (hid : id ∈ dag.ids)
    (hfresh : b.nodeStates[id]? = none) (hgrounded : id ∉ b.inFlight) (hended : (id, o) ∈ b.ended) :
    (b.record id o).MapInv dag limit where
  __ := h
  stated other state hstate := by
    rw [Board.record, getElem?_insert] at hstate
    split_ifs at hstate with heq
    · cases hstate
      exact ⟨heq ▸ hid, h.ended_settled (id, o) hended⟩
    · exact h.stated other state hstate
  flying other hother := by
    refine ⟨?_, (h.flying other hother).2⟩
    rw [Board.record, getElem?_insert_ne]
    · exact (h.flying other hother).1
    · exact fun heq => hgrounded (heq ▸ hother)
  snapshot other r := by
    have hold : ∀ o', (id, o') ∉ b.received := by
      intro o' ho'
      rw [h.received_state (id, o') ho'] at hfresh
      cases hfresh
    rw [record_nodeResults, h.snapshot other r, Board.record, getElem?_insert]
    by_cases heq : id = other
    · subst heq
      simp [hold]
    · have hne : ¬other = id := fun h => heq h.symm
      simp [heq, hne]
  received_state := by
    refine forall_mem_append.mpr ⟨?_, forall_mem_singleton.mpr ?_⟩
    · exact fun m hm => grows_record hfresh o m.1 m.2.state (h.received_state m hm)
    · rw [Board.record, getElem?_insert, if_pos rfl]
  received_ended := forall_mem_append.mpr
    ⟨h.received_ended, forall_mem_singleton.mpr hended⟩
  success_received other state hstate hok := by
    rw [Board.record, getElem?_insert] at hstate
    split_ifs at hstate with heq
    · cases hstate
      exact ⟨o, heq ▸ mem_append_right _ mem_cons_self, rfl⟩
    · obtain ⟨o', ho', hstate'⟩ := h.success_received other state hstate hok
      exact ⟨o', mem_append_left _ ho', hstate'⟩

theorem Running.receive (h : b.Running dag limit) (hm : m ∈ b.sending) :
    ((b.takeMessage m.1).record m.1 m.2).Running dag limit := by
  obtain ⟨hended, hflight⟩ := h.maps.sending m hm
  have hfresh : (b.takeMessage m.1).nodeStates[m.1]? = none := (h.maps.flying m.1 hflight).1
  have hgrounded : m.1 ∉ (b.takeMessage m.1).inFlight :=
    fun hmem => ((mem_erase _ _ _).mp hmem).1 rfl
  have hid : m.1 ∈ dag.ids := h.starts.mem_ids (h.maps.flying m.1 hflight).2
  have hgrows := grows_record hfresh m.2
  refine ⟨(h.maps.takeMessage hm).record hid hfresh hgrounded hended, h.starts.of_grows rfl hgrows, ?_⟩
  intro id hstarted
  by_cases heq : m.1 = id
  · exact .inr (heq ▸ mem_map_of_mem (mem_append_right _ mem_cons_self))
  refine (h.tracked id hstarted).imp ?_ ?_
  · exact fun hmem => (mem_erase _ _ _).mpr ⟨heq, hmem⟩
  · intro hmem
    rw [record, map_append]
    exact mem_append_left _ hmem

end Board

end NpsSdk.Nop
