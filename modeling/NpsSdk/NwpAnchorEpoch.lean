import NpsSdk.NwpTopologyEvents

/-! The epoch fence of an anchor. The epoch is a fencing token: whoever owns a cluster owns it under an
epoch that is greater than that of every owner before. The guard keeps its own epoch, and drops to
standby when it is shown a greater one; it does not keep the greater one. -/

open NpsSdk.Core

namespace NpsSdk.Nwp

open List

def errAnchorNotLeader : GoString := "NWP-ANCHOR-NOT-LEADER"
def errAnchorEpochFenced : GoString := "NWP-ANCHOR-EPOCH-FENCED"
def npsClientConflict : GoString := "NPS-CLIENT-CONFLICT"

structure TopologyProtocolError where
  nwpErrorCode : GoString
  npsStatus : GoString
  message : GoString
  deriving DecidableEq

structure AnchorEpochGuard where
  anchorNid : GoString
  ownEpoch : UInt64
  standby : Bool
  degraded : Bool
  deriving DecidableEq

namespace AnchorEpochGuard

def newAnchorEpochGuard (anchorNid : GoString) : AnchorEpochGuard := ⟨anchorNid, 1, false, false⟩

variable (g : AnchorEpochGuard)

def isActive : Bool := !g.standby

def epochText (n : UInt64) : GoString := GoString.ofChars (intText n.toNat)

/-- What a call hands to the host: events for `EmitEvent`, and whether it calls `CloseStreams`. -/
structure Effects where
  emitted : List TopologyEvent := []
  closesStreams : Bool := false
  deriving DecidableEq

def fencedError (inbound own : UInt64) : TopologyProtocolError where
  nwpErrorCode := errAnchorEpochFenced
  npsStatus := npsClientConflict
  message := errAnchorEpochFenced ++ ": inbound cluster_epoch " ++ epochText inbound ++
    " supersedes this Anchor's epoch " ++ epochText own ++ "; it is no longer the cluster owner."

def notLeaderError (standby : Bool) : TopologyProtocolError where
  nwpErrorCode := errAnchorNotLeader
  npsStatus := npsClientConflict
  message := errAnchorNotLeader ++ ": topology writes are accepted only by the active cluster owner — " ++
    (if standby then ("this Anchor is a standby" : GoString)
      else "this Anchor has lost quorum and is read-only-degraded") ++ "."

/-- A frame without `cluster_epoch` reads as epoch 1. -/
def onInboundFrame (inboundEpoch : Option UInt64) (senderAnchorNid : GoString)
    (isTopologyWrite : Bool) : AnchorEpochGuard × Effects × Option TopologyProtocolError :=
  let inbound := inboundEpoch.getD 1
  if g.ownEpoch < inbound then
    -- only the frame that takes the anchor out of the active role is announced
    let effects : Effects :=
      if g.standby then {}
      else ⟨[newAnchorFailoverEvent senderAnchorNid inbound anchorFailoverReasonActiveLost 0], true⟩
    ({ g with standby := true }, effects, some (fencedError inbound g.ownEpoch))
  else if isTopologyWrite && (g.standby || g.degraded) then (g, {}, some (notLeaderError g.standby))
  else (g, {}, none)

def onQuorumLost (quorumSize available : UInt32) : AnchorEpochGuard × TopologyEvent :=
  ({ g with degraded := true }, newAnchorQuorumLostEventDefaults quorumSize available)

def onQuorumRestored : AnchorEpochGuard := { g with degraded := false }

def takeOwnership (newEpoch : UInt64) (reason : GoString) : Except GoString (AnchorEpochGuard × TopologyEvent) :=
  let reason := if reason = [] then anchorFailoverReasonPlanned else reason
  if newEpoch ≤ g.ownEpoch then
    .error ("cluster_epoch must strictly increase on every ownership transfer: " ++ epochText newEpoch ++
      " is not greater than the observed " ++ epochText g.ownEpoch)
  else
    .ok ({ g with ownEpoch := newEpoch, standby := false, degraded := false },
      newAnchorFailoverEvent g.anchorNid newEpoch reason 0)

def observeEpoch (epoch : UInt64) : AnchorEpochGuard :=
  if g.ownEpoch < epoch then { g with standby := true } else g

/-! ### Runs -/

inductive Call where
  | onInboundFrame (inboundEpoch : Option UInt64) (senderAnchorNid : GoString) (isTopologyWrite : Bool)
  | observeEpoch (epoch : UInt64)
  | takeOwnership (newEpoch : UInt64) (reason : GoString)
  | onQuorumLost (quorumSize available : UInt32)
  | onQuorumRestored

/-- A claim of ownership that is rejected leaves the guard as it is. -/
def step : Call → AnchorEpochGuard
  | .onInboundFrame inboundEpoch sender write => (g.onInboundFrame inboundEpoch sender write).1
  | .observeEpoch epoch => g.observeEpoch epoch
  | .takeOwnership newEpoch reason => ((g.takeOwnership newEpoch reason).map (·.1)).toOption.getD g
  | .onQuorumLost quorumSize available => (g.onQuorumLost quorumSize available).1
  | .onQuorumRestored => g.onQuorumRestored

def run (anchorNid : GoString) (calls : List Call) : AnchorEpochGuard :=
  calls.foldl step (newAnchorEpochGuard anchorNid)

def Call.observed : Call → Option UInt64
  | .onInboundFrame inboundEpoch _ _ => some (inboundEpoch.getD 1)
  | .observeEpoch epoch => some epoch
  | _ => none

/-- The epoch that a call shows to the guard, be it another anchor's or the one it is to own. -/
def Call.shown : Call → Option UInt64
  | .takeOwnership newEpoch _ => some newEpoch
  | call => call.observed

def shown (calls : List Call) : List UInt64 := calls.filterMap Call.shown

def observed (calls : List Call) : List UInt64 := calls.filterMap Call.observed

/-- What the fencing token is for, in a state that a sequence of calls leads to. -/
structure Fenced (g : AnchorEpochGuard) (calls : List Call) : Prop where
  claims_above : ∀ e reason g' event, g.takeOwnership e reason = .ok (g', event) → ∀ x ∈ shown calls, x < e
  active_above : g.isActive = true → ∀ x ∈ shown calls, x ≤ g.ownEpoch
  superseded : g.standby = true → ∀ e reason g' event, g.takeOwnership e reason = .ok (g', event) →
    e ∉ observed calls

/-- A call shows the guard no epoch of another anchor beyond its own. -/
def Call.Current (call : Call) : Prop := ∀ x ∈ call.observed, x ≤ g.ownEpoch

/-! ### The fence -/

theorem takeOwnership_ok_iff (e : UInt64) (reason : GoString) :
    (∃ g' event, g.takeOwnership e reason = .ok (g', event)) ↔ g.ownEpoch < e := by
  rw [takeOwnership]
  split
  case isTrue h =>
    refine ⟨?_, fun hlt => absurd h (UInt64.not_le.mpr hlt)⟩
    rintro ⟨g', event, hok⟩
    cases hok
  case isFalse h => exact ⟨fun _ => UInt64.not_le.mp h, fun _ => ⟨_, _, rfl⟩⟩

theorem ownEpoch_onInboundFrame (inboundEpoch : Option UInt64) (sender : GoString)
    (write : Bool) : (g.onInboundFrame inboundEpoch sender write).1.ownEpoch = g.ownEpoch := by
  rw [onInboundFrame]
  split
  · rfl
  · split <;> rfl

theorem ownEpoch_observeEpoch (epoch : UInt64) : (g.observeEpoch epoch).ownEpoch = g.ownEpoch := by
  rw [observeEpoch]
  split <;> rfl

/-- Only a claim of ownership moves the guard's own epoch. -/
theorem ownEpoch_step (call : Call) : (g.step call).ownEpoch = match call with
      | .takeOwnership newEpoch _ => if newEpoch ≤ g.ownEpoch then g.ownEpoch else newEpoch
      | _ => g.ownEpoch := by
  cases call with
  | onInboundFrame inboundEpoch sender write => exact ownEpoch_onInboundFrame g inboundEpoch sender write
  | observeEpoch epoch => exact ownEpoch_observeEpoch g epoch
  | takeOwnership =>
    simp only [step, takeOwnership]
    split <;> rfl
  | onQuorumLost | onQuorumRestored => rfl

theorem ownEpoch_le_step (call : Call) : g.ownEpoch ≤ (g.step call).ownEpoch := by
  rw [ownEpoch_step]
  split
  · split
    · exact UInt64.le_refl _
    · rename_i h
      exact UInt64.le_of_lt (UInt64.not_le.mp h)
  · exact UInt64.le_refl _

variable {x : UInt64} {g : AnchorEpochGuard} {call : Call} {calls : List Call}

/-- A call that is current shows nothing beyond the epoch the guard has after it. -/
theorem shown_le_step (hcurrent : call.Current g) (hx : call.shown = some x) : x ≤ (g.step call).ownEpoch := by
  cases call with
  | takeOwnership =>
    cases hx
    rw [ownEpoch_step]
    dsimp only
    split
    · assumption
    · exact UInt64.le_refl _
  | _ => exact UInt64.le_trans (hcurrent x hx) (ownEpoch_le_step g _)

theorem ownEpoch_step_of_observed (hx : call.observed = some x) : (g.step call).ownEpoch = g.ownEpoch := by
  rw [ownEpoch_step]
  cases call with
  | takeOwnership => cases hx
  | _ => rfl

theorem shown_of_observed (hx : call.observed = some x) : call.shown = some x := by
  cases call with
  | takeOwnership => cases hx
  | _ => exact hx

theorem mem_shown_of_mem_observed (hx : x ∈ observed calls) : x ∈ shown calls := by
  obtain ⟨call, hcall, hobserved⟩ := mem_filterMap.mp hx
  exact mem_filterMap.mpr ⟨call, hcall, shown_of_observed hobserved⟩

theorem run_append_singleton (anchorNid : GoString) (calls : List Call) (call : Call) :
    run anchorNid (calls ++ [call]) = (run anchorNid calls).step call := by
  rw [run, foldl_append]
  rfl

theorem mem_shown_append_singleton : x ∈ shown (calls ++ [call]) ↔ x ∈ shown calls ∨ call.shown = some x := by
  rw [shown, filterMap_append, mem_append]
  refine or_congr Iff.rfl ?_
  simp only [mem_filterMap, mem_singleton, exists_eq_left]

/-- The guard's own epoch bounds what it was shown by calls that were all current. -/
theorem shown_le_run (anchorNid : GoString) (calls : List Call)
    (hcurrent : ∀ before call, before ++ [call] <+: calls → call.Current (run anchorNid before)) :
    ∀ x ∈ shown calls, x ≤ (run anchorNid calls).ownEpoch := by
  induction calls using reverseRecOn with
  | nil =>
    intro x hx
    cases hx
  | append_singleton calls call ih =>
    intro x hx
    rw [run_append_singleton]
    rcases mem_shown_append_singleton.mp hx with hx | hx
    · have hle := ih (fun before c hbefore =>
        hcurrent before c (hbefore.trans (prefix_append calls [call]))) x hx
      exact UInt64.le_trans hle (ownEpoch_le_step _ call)
    · exact shown_le_step (hcurrent calls call prefix_rfl) hx

theorem fenced_of_shown_le (h : ∀ x ∈ shown calls, x ≤ g.ownEpoch) : Fenced g calls := by
  have habove : ∀ e reason g' event, g.takeOwnership e reason = .ok (g', event) → ∀ x ∈ shown calls, x < e := by
    intro e reason g' event hok x hx
    exact UInt64.lt_of_le_of_lt (h x hx) ((takeOwnership_ok_iff g e reason).mp ⟨g', event, hok⟩)
  refine ⟨habove, fun _ => h, ?_⟩
  intro _ e reason g' event hok hmem
  exact UInt64.lt_irrefl e (habove e reason g' event hok e (mem_shown_of_mem_observed hmem))

/-- The fence holds in every state of a run exactly if every frame and every observation shows an epoch
that is not beyond the guard's own at the time: a greater one is forgotten, and can be claimed. -/
theorem fenced_iff_current (anchorNid : GoString) (calls : List Call) :
    (∀ before, before <+: calls → Fenced (run anchorNid before) before) ↔
      ∀ before call, before ++ [call] <+: calls → call.Current (run anchorNid before) := by
  constructor
  · intro hfenced before call hbefore x hx
    by_contra hlt
    have hown : (run anchorNid (before ++ [call])).ownEpoch < x := by
      rw [run_append_singleton, ownEpoch_step_of_observed hx]
      exact UInt64.not_le.mp hlt
    -- the epoch just shown is one that the guard would take
    obtain ⟨g', event, hok⟩ := (takeOwnership_ok_iff _ x []).mpr hown
    have hmem : x ∈ shown (before ++ [call]) := mem_shown_append_singleton.mpr (Or.inr (shown_of_observed hx))
    exact UInt64.lt_irrefl x ((hfenced _ hbefore).claims_above x [] g' event hok x hmem)
  · intro hcurrent before hbefore
    refine fenced_of_shown_le (shown_le_run anchorNid before ?_)
    intro earlier call hearlier
    exact hcurrent earlier call (hearlier.trans hbefore)

/-- An anchor that was told of epoch 5 becomes active again at epoch 3, and at epoch 5 itself. -/
theorem observed_epoch_claimed : let g := run "urn:nps:node:x:anchor-a" [.observeEpoch 5]
    (∃ g' event, g.takeOwnership 3 [] = .ok (g', event) ∧ g'.isActive = true ∧ g'.ownEpoch = 3) ∧
      (∃ g' event, g.takeOwnership 5 [] = .ok (g', event)) ∧ 5 ∈ shown [.observeEpoch 5] ∧
      ¬ Fenced g [.observeEpoch 5] := by
  refine ⟨⟨_, _, rfl, rfl, rfl⟩, ⟨_, _, rfl⟩, by decide, ?_⟩
  intro hfenced
  have hlt := hfenced.claims_above 5 [] _ _ rfl 5 (by decide)
  exact UInt64.lt_irrefl 5 hlt

end AnchorEpochGuard

end NpsSdk.Nwp
