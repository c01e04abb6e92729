import NpsSdk.GoMap

/-! The cache of the cluster resolver. A call of `ResolveActive` that misses the cache looks the cluster up without the
lock, and takes the lock again for an answer of any age. An event is one critical section; the second section of a call
may come at any time. -/

namespace NpsSdk.Nop

structure ClusterAnchorInfo where
  activeNid : String
  clusterEpoch : UInt64
  deriving DecidableEq

/-- The active anchors by cluster. -/
abbrev ClusterDelegationResolver := GoMap ClusterAnchorInfo

namespace ClusterDelegationResolver

variable (active : ClusterDelegationResolver)

def errClusterAnchorRequired : String := "nop: clusterAnchor is required"

variable (clusterAnchor : String)

/-- `ResolveActive` up to the lookup, which it makes if this gives no answer. -/
def resolveActive : Option (Except String ClusterAnchorInfo) :=
  if clusterAnchor = "" then some (.error errClusterAnchorRequired) else active[clusterAnchor]?.map .ok

/-- The epoch is not beyond the cached one. -/
def isStale (clusterEpoch : UInt64) : Bool :=
  match active[clusterAnchor]? with
  | some cur => clusterEpoch ≤ cur.clusterEpoch
  | none => false

/-- `ResolveActive` after a lookup that found an owner; without one it returns at once. -/
def lookedUp (fresh : ClusterAnchorInfo) : ClusterDelegationResolver × Option ClusterAnchorInfo :=
  if active.isStale clusterAnchor fresh.clusterEpoch then (active, active[clusterAnchor]?)
  else (active.insert clusterAnchor fresh, some fresh)

def onAnchorFailover (clusterAnchor successorNid : String) (clusterEpoch : UInt64) :
    ClusterDelegationResolver × Except String Bool :=
  if clusterAnchor = "" then (active, .error errClusterAnchorRequired)
  else if successorNid = "" then (active, .error "nop: successorNid is required")
  else if active.isStale clusterAnchor clusterEpoch then (active, .ok false)
  else (active.insert clusterAnchor ⟨successorNid, clusterEpoch⟩, .ok true)

inductive Event where
  | resolve (clusterAnchor : String)
  | lookedUp (clusterAnchor : String) (fresh : ClusterAnchorInfo)
  | failover (clusterAnchor successorNid : String) (clusterEpoch : UInt64)

def step : Event → ClusterDelegationResolver
  | .resolve _ => active
  | .lookedUp c fresh => (active.lookedUp c fresh).1
  | .failover c nid epoch => (active.onAnchorFailover c nid epoch).1

/-- What is cached for the cluster stays, or gives way to a higher epoch. -/
def Advances (c : String) (active later : ClusterDelegationResolver) : Prop :=
  ∀ info, active[c]? = some info →
    ∃ info', later[c]? = some info' ∧ (info' = info ∨ info.clusterEpoch < info'.clusterEpoch)

variable {active} {c : String}

theorem advances_refl : Advances c active active := fun info h => ⟨info, h, .inl rfl⟩

theorem Advances.trans {later last : ClusterDelegationResolver} (h : Advances c active later)
    (h' : Advances c later last) : Advances c active last := by
  intro info hinfo
  obtain ⟨mid, hmid, rfl | hlt⟩ := h info hinfo
  · exact h' mid hmid
  obtain ⟨info', hinfo', rfl | hlt'⟩ := h' mid hmid
  · exact ⟨info', hinfo', .inr hlt⟩
  · exact ⟨info', hinfo', .inr (UInt64.lt_trans hlt hlt')⟩

theorem advances_insert {other : String} {info : ClusterAnchorInfo}
    (h : ¬active.isStale other info.clusterEpoch = true) : Advances c active (active.insert other info) := by
  intro cur hcur
  rw [GoMap.getElem?_insert]
  split_ifs with hother
  · subst hother
    rw [isStale, hcur, decide_eq_true_iff, UInt64.not_le] at h
    exact ⟨info, rfl, .inr h⟩
  · exact ⟨cur, hcur, .inl rfl⟩

theorem advances_step (e : Event) : Advances c active (active.step e) := by
  cases e with
  | resolve => exact advances_refl
  | lookedUp other fresh =>
    rw [step, lookedUp]
    split_ifs with hstale
    · exact advances_refl
    · exact advances_insert hstale
  | failover other nid epoch =>
    rw [step, onAnchorFailover]
    split_ifs with _ _ hstale
    · exact advances_refl
    · exact advances_refl
    · exact advances_refl
    · exact advances_insert hstale

theorem advances_run (events : List Event) : Advances c active (events.foldl step active) := by
  induction events generalizing active with
  | nil => exact advances_refl
  | cons e events ih => exact (advances_step e).trans ih

/-- Between any two moments the cached epoch of a cluster does not fall, nor stays with another node. A failover is
accepted exactly if the cache then shows it anew, and a resolution returns what is cached when it returns. -/
theorem resolver_monotone (active : ClusterDelegationResolver) (events : List Event) (c : String) :
    let later := events.foldl step active
    (∀ info, active[c]? = some info → ∃ info', later[c]? = some info' ∧ info.clusterEpoch ≤ info'.clusterEpoch ∧
      (info'.clusterEpoch = info.clusterEpoch → info'.activeNid = info.activeNid)) ∧
    (∀ nid epoch, (later.onAnchorFailover c nid epoch).2 = .ok true ↔
      (later.onAnchorFailover c nid epoch).1[c]? ≠ later[c]? ∧
        (later.onAnchorFailover c nid epoch).1[c]? = some ⟨nid, epoch⟩) ∧
    (∀ info, later.resolveActive c = some (.ok info) → later[c]? = some info) ∧
    (∀ fresh info, (later.lookedUp c fresh).2 = some info → (later.lookedUp c fresh).1[c]? = some info) := by
  intro later
  refine ⟨?_, ?_, ?_, ?_⟩
  · intro info hinfo
    obtain ⟨info', hinfo', rfl | hlt⟩ := advances_run events info hinfo
    · exact ⟨info', hinfo', UInt64.le_refl _, fun _ => rfl⟩
    · exact ⟨info', hinfo', UInt64.le_of_lt hlt, fun heq => absurd heq (UInt64.ne_of_lt hlt).symm⟩
  · intro nid epoch
    unfold onAnchorFailover
    split_ifs with _ _ hstale
    · simp
    · simp
    · simp
    · rw [GoMap.getElem?_insert, if_pos rfl]
      refine iff_of_true rfl ⟨fun hsame => hstale ?_, rfl⟩
      rw [isStale, ← hsame]
      exact decide_eq_true (UInt64.le_refl _)
  · intro info h
    unfold resolveActive at h
    split_ifs at h
    · cases h
    · obtain ⟨cached, hcached, heq⟩ := Option.map_eq_some_iff.mp h
      cases heq
      exact hcached
  · intro fresh info h
    unfold lookedUp at h ⊢
    split_ifs at h ⊢
    · exact h
    · cases h
      rw [GoMap.getElem?_insert, if_pos rfl]

end ClusterDelegationResolver

end NpsSdk.Nop
