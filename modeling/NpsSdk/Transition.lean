import Mathlib

/-! Runs of an event-driven step function. An event that the current state does not enable leaves the run undefined, so
a list of events is a schedule: it fixes the interleaving and every answer of the environment. -/

namespace NpsSdk.Transition

open List Option

variable {S E : Type} (step : S → E → Option S)

/-- The state a schedule leads to. -/
def run : S → List E → Option S
  | s, [] => some s
  | s, event :: events => (step s event).bind fun s' => run s' events

/-- The steps a schedule takes: each state with the event that leaves it, in order. -/
def steps : S → List E → List (S × E)
  | _, [] => []
  | s, event :: events => (s, event) :: ((step s event).map fun s' => steps s' events).getD []

theorem run_cons (s t : S) (event : E) (events : List E) (h : run step s (event :: events) = some t) :
    ∃ s', step s event = some s' ∧ run step s' events = some t :=
  bind_eq_some_iff.mp h

theorem run_append (s : S) (first second : List E) :
    run step s (first ++ second) = (run step s first).bind fun s' => run step s' second := by
  induction first generalizing s with
  | nil => rfl
  | cons event first ih =>
    simp only [cons_append, run, bind_assoc]
    congr 1
    funext s'
    exact ih s'

theorem steps_cons (s s' : S) (event : E) (events : List E) (h : step s event = some s') :
    steps step s (event :: events) = (s, event) :: steps step s' events := by
  simp only [steps, h, map_some, getD_some]

theorem steps_append {s v : S} {first : List E} (h : run step s first = some v) (second : List E) :
    steps step s (first ++ second) = steps step s first ++ steps step v second := by
  induction first generalizing s with
  | nil =>
    cases h
    rfl
  | cons event first ih =>
    obtain ⟨s', hs', hrest⟩ := run_cons step s v event first h
    rw [cons_append, steps_cons step s s' event _ hs', steps_cons step s s' event _ hs', ih hrest, cons_append]

variable {events : List E} {s t : S} {C : S → E → Prop}

theorem mem_of_mem_steps {s : S} {p : S × E} (h : p ∈ steps step s events) : p.2 ∈ events := by
  induction events generalizing s with
  | nil => cases h
  | cons event events ih =>
    rcases mem_cons.mp h with rfl | h
    · exact mem_cons_self
    cases hstep : step s event with
    | none =>
      rw [hstep] at h
      cases h
    | some s' =>
      rw [hstep] at h
      exact mem_cons_of_mem _ (ih h)

/-- What every step preserves together with the steps before it holds at the end of a run. -/
theorem run_history {I : List (S × E) → S → Prop}
    (hstep : ∀ history s event s', I history s → C s event → step s event = some s' →
      I (history ++ [(s, event)]) s') (hrun : run step s events = some t) (history : List (S × E))
    (hs : I history s) (hsteps : ∀ p ∈ steps step s events, C p.1 p.2) : I (history ++ steps step s events) t := by
  induction events generalizing s history with
  | nil =>
    cases hrun
    rwa [steps, append_nil]
  | cons event events ih =>
    obtain ⟨s', hs', hrest⟩ := run_cons step s t event events hrun
    rw [steps_cons step s s' event events hs', forall_mem_cons] at hsteps
    rw [steps_cons step s s' event events hs', append_cons]
    exact ih hrest _ (hstep history s event s' hs hsteps.1 hs') hsteps.2

/-- What the steps that meet `C` preserve, a run made of such steps preserves. -/
theorem run_invariant_of_steps {I : S → Prop}
    (hstep : ∀ s event s', I s → C s event → step s event = some s' → I s') (hrun : run step s events = some t)
    (hs : I s) (hsteps : ∀ p ∈ steps step s events, C p.1 p.2) : I t :=
  run_history step (I := fun _ s => I s) (fun _ => hstep) hrun [] hs hsteps

/-- What a step preserves, a run preserves. -/
theorem run_invariant {I : S → Prop} (hstep : ∀ s event s', I s → step s event = some s' → I s')
    (hrun : run step s events = some t) (hs : I s) : I t :=
  run_invariant_of_steps step (C := fun _ _ => True) (fun s event s' h _ => hstep s event s' h) hrun hs
    fun _ _ => trivial

/-- A step of a run splits its schedule: a prefix leads to it and the rest leads to the end. -/
theorem steps_split (hrun : run step s events = some t) {p : S × E} (hp : p ∈ steps step s events) :
    ∃ before after v', events = before ++ p.2 :: after ∧ run step s before = some p.1 ∧
      step p.1 p.2 = some v' ∧ run step v' after = some t := by
  induction events generalizing s with
  | nil => cases hp
  | cons event events ih =>
    obtain ⟨s', hs', hrest⟩ := run_cons step s t event events hrun
    rw [steps_cons step s s' event events hs'] at hp
    rcases mem_cons.mp hp with rfl | hp
    · exact ⟨[], events, s', rfl, rfl, hs', hrest⟩
    obtain ⟨before, after, v', hsplit, hbefore, hv', hafter⟩ := ih hrest hp
    refine ⟨event :: before, after, v', by rw [hsplit, cons_append], ?_, hv', hafter⟩
    simp only [run, hs', bind_some, hbefore]

theorem steps_around {s v v' : S} {before after : List E} {event : E}
    (hbefore : run step s before = some v) (hv : step v event = some v') : steps step s (before ++ event :: after) =
      steps step s before ++ (v, event) :: steps step v' after := by
  rw [steps_append step hbefore, steps_cons step v v' event after hv]

/-- What a step of a run brings about, and the steps that meet `C` preserve, holds at its end. -/
theorem run_invariant_from {I J : S → Prop} (hJ : ∀ s event s', J s → C s event → step s event = some s' → J s')
    (hI : ∀ s event s', I s → C s event → step s event = some s' → I s') (hrun : run step s events = some t)
    (hs : J s) (hsteps : ∀ p ∈ steps step s events, C p.1 p.2) {p : S × E} (hp : p ∈ steps step s events)
    (hbegin : ∀ v', J p.1 → C p.1 p.2 → step p.1 p.2 = some v' → I v') : I t := by
  have hmeets := hsteps p hp
  obtain ⟨before, after, v', rfl, hbefore, hv', hafter⟩ := steps_split step hrun hp
  rw [steps_around step hbefore hv', forall_mem_append, forall_mem_cons] at hsteps
  have hv := hbegin v' (run_invariant_of_steps step hJ hbefore hs hsteps.1) hmeets hv'
  exact run_invariant_of_steps step hI hafter hv hsteps.2.2

end NpsSdk.Transition
