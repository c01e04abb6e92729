import Mathlib

/-! Depth-first search. `collect` marks what can be reached from a vertex along `next`; the marks are
passed on from call to call, so no vertex is entered twice and the fuel bounds the depth of the calls
only. -/

namespace NpsSdk.Reachability

open List

variable {α : Type} [DecidableEq α]

/-- Mark every vertex reached from `v` that has no mark yet. -/
def collect (next : α → List α) : Nat → α → List α → List α
  | 0, _, marked => marked
  | fuel + 1, v, marked =>
    (next v).foldl
      (fun marked w => if w ∈ marked then marked else collect next fuel w (w :: marked)) marked

def Edge (next : α → List α) (v w : α) : Prop := w ∈ next v

/-- What a call at `v` with some marks leaves behind: the marks grew by vertices that can be reached
from `v`, and what `v` and the new vertices point to is marked. -/
structure Visited (next : α → List α) (v : α) (before targets after : List α) : Prop where
  grows : before ⊆ after
  reached : ∀ w ∈ after, w ∈ before ∨ Relation.TransGen (Edge next) v w
  targets : targets ⊆ after
  closed : ∀ w ∈ after, w ∉ before → next w ⊆ after

variable {next : α → List α} {v w : α} {before middle after targets rest : List α}

omit [DecidableEq α] in
theorem Visited.start (marked : List α) : Visited next v marked [] marked where
  grows := List.Subset.refl marked
  reached _ hw := .inl hw
  targets := nil_subset marked
  closed _ hw hout := absurd hw hout

omit [DecidableEq α] in
theorem Visited.cons (hw : w ∈ before) (h : Visited next v before rest after) :
    Visited next v before (w :: rest) after :=
  { h with targets := cons_subset.mpr ⟨h.grows hw, h.targets⟩ }

/-- A call at a new target, then the rest of the targets. -/
theorem Visited.call (hw : w ∈ next v) (hcall : Visited next w (w :: before) (next w) middle)
    (hrest : Visited next v middle rest after) : Visited next v before (w :: rest) after where
  grows := fun x hx => hrest.grows (hcall.grows (mem_cons_of_mem w hx))
  reached := by
    intro x hx
    rcases hrest.reached x hx with hmiddle | hreach
    · rcases hcall.reached x hmiddle with hbefore | hreach
      · rcases mem_cons.mp hbefore with rfl | hbefore
        · exact .inr (.single hw)
        · exact .inl hbefore
      · exact .inr (.head hw hreach)
    · exact .inr hreach
  targets := cons_subset.mpr ⟨hrest.grows (hcall.grows mem_cons_self), hrest.targets⟩
  closed := by
    intro x hx hout
    by_cases hmiddle : x ∈ middle
    · by_cases hxw : x = w
      · subst hxw
        exact fun y hy => hrest.grows (hcall.targets hy)
      · have hnew : x ∉ w :: before := by simp [hxw, hout]
        exact fun y hy => hrest.grows (hcall.closed x hmiddle hnew hy)
    · exact hrest.closed x hx hmiddle

def unmarked (vertices marked : List α) : Nat := (vertices.filter fun v => v ∉ marked).length

theorem unmarked_mono (vertices : List α) {marked marked' : List α} (h : marked ⊆ marked') :
    unmarked vertices marked' ≤ unmarked vertices marked := by
  refine (monotone_filter_right vertices ?_).length_le
  intro v hv
  simp only [decide_eq_true_eq] at hv ⊢
  exact fun hmarked => hv (h hmarked)

theorem unmarked_cons_lt {vertices marked : List α} (hw : w ∈ vertices) (hout : w ∉ marked) :
    unmarked vertices (w :: marked) < unmarked vertices marked := by
  have hsub : (vertices.filter fun v => v ∉ w :: marked).Sublist (vertices.filter fun v => v ∉ marked) :=
    monotone_filter_right vertices (by simp)
  refine Nat.lt_of_le_of_ne hsub.length_le fun heq => ?_
  have hmem : w ∈ vertices.filter fun v => v ∉ marked := by simp [hw, hout]
  rw [← hsub.eq_of_length heq] at hmem
  simp at hmem

section

variable {vertices : List α} (hnext : ∀ v, ∀ w ∈ next v, w ∈ vertices)
include hnext

theorem collect_visited (fuel : Nat) (v : α) (marked : List α) (hfuel : unmarked vertices marked < fuel) :
    Visited next v marked (next v) (collect next fuel v marked) := by
  induction fuel generalizing v marked with
  | zero => exact absurd hfuel (Nat.not_lt_zero _)
  | succ fuel ih =>
    -- the targets still to look at, while the marks grow
    have hloop : ∀ targets, targets ⊆ next v → ∀ marked, unmarked vertices marked < fuel + 1 →
        Visited next v marked targets (targets.foldl (fun marked w =>
          if w ∈ marked then marked else collect next fuel w (w :: marked)) marked) := by
      intro targets
      induction targets with
      | nil => exact fun _ marked _ => Visited.start marked
      | cons w rest ihLoop =>
        intro hsub marked hfuel
        obtain ⟨hw, hrest⟩ := cons_subset.mp hsub
        rw [foldl_cons]
        split_ifs with hmarked
        · exact (ihLoop hrest marked hfuel).cons hmarked
        have hless := unmarked_cons_lt (hnext v w hw) hmarked
        have hcall := ih w (w :: marked) (by omega)
        refine Visited.call hw hcall (ihLoop hrest _ ?_)
        have := unmarked_mono vertices hcall.grows
        omega
    exact hloop (next v) (List.Subset.refl _) marked hfuel

/-- With fuel for every vertex the search from a vertex marks exactly what can be reached from it. -/
theorem mem_collect_iff {fuel : Nat} (hfuel : vertices.length < fuel) (v w : α) :
    w ∈ collect next fuel v [] ↔ Relation.TransGen (Edge next) v w := by
  have hvisited := collect_visited hnext fuel v [] (Nat.lt_of_le_of_lt (length_filter_le _ _) hfuel)
  constructor
  · intro hw
    exact (hvisited.reached w hw).resolve_left not_mem_nil
  · intro hreach
    induction hreach with
    | single hedge => exact hvisited.targets hedge
    | tail _ hedge ih => exact hvisited.closed _ ih not_mem_nil hedge

end

end NpsSdk.Reachability
