import Mathlib

/-! Kahn's algorithm over a list of edges, for any discipline of the queue of ready vertices. The
run settles one vertex per round; the invariant says that the counters count the edges whose source
is not settled and that the ready vertices are exactly those whose counter is zero. A queue kept in
order makes the result the least topological order. -/

namespace NpsSdk.Kahn

open Function List

variable {α : Type} [DecidableEq α]

/-- Every listed vertex is new and has the sources of its edges settled before it. -/
def Respects (edges : List (α × α)) : List α → List α → Prop
  | _, [] => True
  | settled, v :: rest =>
    v ∉ settled ∧ (∀ u, (u, v) ∈ edges → u ∈ settled) ∧ Respects edges (v :: settled) rest

/-- A listing of the vertices in which every edge goes forward. -/
def IsTopoOrder (vertices : List α) (edges : List (α × α)) (order : List α) : Prop :=
  order.Perm vertices ∧ Respects edges [] order

def Acyclic (edges : List (α × α)) : Prop :=
  ∀ v, ¬Relation.TransGen (fun a b => (a, b) ∈ edges) v v

/-- Lowers the counter of each target in turn and queues the targets whose counter becomes zero. -/
def relax (enqueue : List α → α → List α) : List α → (α → Int) → List α → (α → Int) × List α
  | [], remaining, queue => (remaining, queue)
  | v :: vs, remaining, queue =>
    relax enqueue vs (update remaining v (remaining v - 1))
      (if remaining v - 1 = 0 then enqueue queue v else queue)

/-- The main loop; every round settles the vertex at the head of the queue. -/
def kahn (enqueue : List α → α → List α) (adj : α → List α) : Nat → (α → Int) → List α → List α
  | 0, _, _ => []
  | _ + 1, _, [] => []
  | fuel + 1, remaining, u :: queue =>
    u :: kahn enqueue adj fuel (relax enqueue (adj u) remaining queue).1
      (relax enqueue (adj u) remaining queue).2

/-! ### One round -/

theorem relax_remaining (enqueue : List α → α → List α) (vs : List α) (remaining : α → Int) (queue : List α) (w : α) :
    (relax enqueue vs remaining queue).1 w = remaining w - vs.count w := by
  induction vs generalizing remaining queue with
  | nil => simp [relax]
  | cons v vs ih =>
    rw [relax, ih]
    by_cases hw : w = v
    · subst hw
      rw [update_self, count_cons_self]
      omega
    · rw [update_of_ne hw, count_cons_of_ne (Ne.symm hw)]

section

variable {enqueue : List α → α → List α} (henqueue : ∀ queue v, (enqueue queue v).Perm (v :: queue))
include henqueue

theorem mem_relax_queue (vs : List α) (remaining : α → Int) (queue : List α) (w : α) :
    w ∈ (relax enqueue vs remaining queue).2 ↔ w ∈ queue ∨ (1 ≤ remaining w ∧ remaining w ≤ vs.count w) := by
  induction vs generalizing remaining queue with
  | nil =>
    simp only [count_nil]
    exact ⟨.inl, fun h => h.elim id fun h => by omega⟩
  | cons v vs ih =>
    rw [relax, ih]
    by_cases hw : w = v
    · subst hw
      rw [update_self, count_cons_self]
      by_cases hzero : remaining w - 1 = 0
      · rw [if_pos hzero, (henqueue queue w).mem_iff]
        constructor
        · intro _
          exact .inr ⟨by omega, by omega⟩
        · intro _
          exact .inl mem_cons_self
      · rw [if_neg hzero]
        constructor <;> rintro (h | h) <;> first | exact .inl h | exact .inr (by omega)
    · rw [update_of_ne hw, count_cons_of_ne (Ne.symm hw)]
      by_cases hzero : remaining v - 1 = 0
      · rw [if_pos hzero, (henqueue queue v).mem_iff, mem_cons]
        simp only [hw, false_or]
      · rw [if_neg hzero]

theorem nodup_relax_queue (vs : List α) (remaining : α → Int) (queue : List α)
    (hqueue : queue.Nodup) (hzero : ∀ w ∈ queue, remaining w ≤ 0) : (relax enqueue vs remaining queue).2.Nodup := by
  induction vs generalizing remaining queue with
  | nil => exact hqueue
  | cons v vs ih =>
    rw [relax]
    by_cases hv : remaining v - 1 = 0
    · have hnew : v ∉ queue := fun hmem => by
        have := hzero v hmem
        omega
      rw [if_pos hv]
      apply ih
      · exact (henqueue queue v).nodup_iff.mpr (nodup_cons.mpr ⟨hnew, hqueue⟩)
      · intro w hw
        rcases mem_cons.mp ((henqueue queue v).mem_iff.mp hw) with rfl | hw
        · rw [update_self]
          omega
        · rw [update_of_ne (fun h : w = v => hnew (h ▸ hw))]
          exact hzero w hw
    · rw [if_neg hv]
      apply ih _ _ hqueue
      intro w hw
      by_cases hwv : w = v
      · subst hwv
        have := hzero w hw
        rw [update_self]
        omega
      · rw [update_of_ne hwv]
        exact hzero w hw

end

/-! ### The invariant of the loop -/

/-- The edges into `v` whose source is not settled. -/
def openCount (edges : List (α × α)) (settled : List α) (v : α) : Nat :=
  edges.countP fun e => decide (e.2 = v ∧ e.1 ∉ settled)

theorem openCount_settle (edges : List (α × α)) (settled : List α) (u v : α) (hu : u ∉ settled) :
    openCount edges settled v = openCount edges (u :: settled) v + edges.count (u, v) := by
  induction edges with
  | nil => rfl
  | cons e edges ih =>
    simp only [openCount, countP_cons] at ih ⊢
    rw [ih]
    obtain ⟨a, b⟩ := e
    by_cases hb : b = v <;> by_cases ha : a = u
    · subst hb ha
      simp [hu]
      omega
    · simp [ha]
      omega
    · simp [hb]
    · simp [hb]

theorem openCount_eq_zero_iff (edges : List (α × α)) (settled : List α) (v : α) :
    openCount edges settled v = 0 ↔ ∀ u, (u, v) ∈ edges → u ∈ settled := by
  rw [openCount, countP_eq_zero]
  constructor
  · intro h u hu
    by_contra hnot
    exact h (u, v) hu (by simp [hnot])
  · rintro h ⟨u, w⟩ he
    simp only [decide_eq_true_eq, not_and, not_not]
    rintro rfl
    exact h u he

structure Inv (vertices : List α) (edges : List (α × α)) (settled : List α) (remaining : α → Int)
    (queue : List α) : Prop where
  nodup : (settled ++ queue).Nodup
  subset : ∀ v ∈ settled ++ queue, v ∈ vertices
  count : ∀ v, remaining v = openCount edges settled v
  ready : ∀ v ∈ vertices, (v ∈ settled ++ queue ↔ remaining v = 0)

variable {edges : List (α × α)}

/-- The start of the loop: nothing is settled and the queue lists the vertices without in-edges. -/
theorem Inv.initial {vertices : List α} {remaining : α → Int} {queue : List α} (hnodup : queue.Nodup)
    (hcount : ∀ v, remaining v = edges.countP fun e => decide (e.2 = v))
    (hqueue : ∀ v, v ∈ queue ↔ v ∈ vertices ∧ remaining v = 0) : Inv vertices edges [] remaining queue where
  nodup := by simpa using hnodup
  subset v hv := ((hqueue v).mp (by simpa using hv)).1
  count v := by simp [hcount, openCount]
  ready v hv := by simp [hqueue, hv]

section

variable {vertices : List α} {edges : List (α × α)} {enqueue : List α → α → List α}
  {adj : α → List α} (henqueue : ∀ queue v, (enqueue queue v).Perm (v :: queue))
  (hadj : ∀ u v, (adj u).count v = edges.count (u, v)) (htarget : ∀ e ∈ edges, e.2 ∈ vertices)
include henqueue hadj htarget

variable {settled queue : List α} {remaining : α → Int}

theorem Inv.settle {u : α} (hinv : Inv vertices edges settled remaining (u :: queue)) :
    Inv vertices edges (u :: settled) (relax enqueue (adj u) remaining queue).1
      (relax enqueue (adj u) remaining queue).2 := by
  have hperm : (settled ++ u :: queue).Perm (u :: settled ++ queue) := perm_middle
  have hnodup := hperm.nodup_iff.mp hinv.nodup
  rw [cons_append, nodup_cons, nodup_append] at hnodup
  obtain ⟨hu, hsettled, hqueue, hdisjoint⟩ := hnodup
  rw [mem_append, not_or] at hu
  have hzero : ∀ w ∈ settled ++ u :: queue, remaining w = 0 := fun w hw =>
    (hinv.ready w (hinv.subset w hw)).mp hw
  have hcount : ∀ v, (relax enqueue (adj u) remaining queue).1 v = openCount edges (u :: settled) v := by
    intro v
    rw [relax_remaining, hadj, hinv.count v, openCount_settle edges settled u v hu.1]
    omega
  -- a vertex enters the queue in the round that settles the last of its sources
  have hnew : ∀ v, (1 ≤ remaining v ∧ remaining v ≤ (adj u).count v) ↔
      remaining v ≠ 0 ∧ (relax enqueue (adj u) remaining queue).1 v = 0 := by
    intro v
    have hopen : 0 ≤ (relax enqueue (adj u) remaining queue).1 v := by
      rw [hcount v]
      omega
    rw [relax_remaining] at hopen ⊢
    omega
  have hqueueZero : ∀ w ∈ queue, remaining w ≤ 0 := fun w hw =>
    (hzero w (mem_append_right _ (mem_cons_of_mem _ hw))).le
  have hready : ∀ v ∈ vertices, (v ∈ (u :: settled) ++ (relax enqueue (adj u) remaining queue).2 ↔
      (relax enqueue (adj u) remaining queue).1 v = 0) := by
    intro v hv
    rw [mem_append, mem_relax_queue henqueue, hnew v, ← or_assoc, ← mem_append, ← hperm.mem_iff, hinv.ready v hv]
    constructor
    · rintro (h | h)
      · have hle : (relax enqueue (adj u) remaining queue).1 v ≤ remaining v := by
          rw [relax_remaining]
          omega
        rw [hcount v] at hle ⊢
        omega
      · exact h.2
    · intro h
      by_cases h0 : remaining v = 0
      · exact .inl h0
      · exact .inr ⟨h0, h⟩
  refine ⟨?_, ?_, hcount, hready⟩
  · rw [cons_append, nodup_cons, nodup_append, mem_append, not_or]
    refine ⟨⟨hu.1, ?_⟩, hsettled, nodup_relax_queue henqueue _ _ _ hqueue hqueueZero, ?_⟩
    · rw [mem_relax_queue henqueue, not_or, hnew u]
      exact ⟨hu.2, fun h => h.1 (hzero u (by simp))⟩
    · intro a ha b hb hab
      subst hab
      rcases (mem_relax_queue henqueue _ _ _ a).mp hb with hb | hb
      · exact hdisjoint a ha a hb rfl
      · exact ((hnew a).mp hb).1 (hzero a (mem_append_left _ ha))
  · intro v hv
    rw [mem_append, mem_relax_queue henqueue, ← or_assoc, ← mem_append] at hv
    rcases hv with hv | hv
    · exact hinv.subset v (hperm.mem_iff.mpr hv)
    have hpos : 0 < (adj u).count v := by omega
    rw [hadj, count_pos_iff] at hpos
    exact htarget _ hpos

omit htarget henqueue hadj in
theorem Inv.sources_settled {u : α} (hinv : Inv vertices edges settled remaining queue) (hu : u ∈ settled ++ queue) :
    ∀ w, (w, u) ∈ edges → w ∈ settled := by
  have hzero := (hinv.ready u (hinv.subset u hu)).mp hu
  rw [hinv.count u] at hzero
  exact (openCount_eq_zero_iff edges settled u).mp (by omega)

/-- With a round for each vertex the loop empties the queue, and what it lists respects the edges. -/
theorem kahn_spec (fuel : Nat)
    (hinv : Inv vertices edges settled remaining queue) (hfuel : vertices.length ≤ settled.length + fuel) :
    Respects edges settled (kahn enqueue adj fuel remaining queue) ∧
      ∃ remaining', Inv vertices edges ((kahn enqueue adj fuel remaining queue).reverse ++ settled) remaining' [] := by
  induction fuel generalizing settled queue remaining with
  | zero =>
    have hlength : (settled ++ queue).length ≤ vertices.length :=
      (hinv.nodup.subperm fun v hv => hinv.subset v hv).length_le
    rw [length_append] at hlength
    have hempty : queue = [] := eq_nil_of_length_eq_zero (by omega)
    subst hempty
    exact ⟨trivial, remaining, hinv⟩
  | succ fuel ih =>
    cases queue with
    | nil => exact ⟨trivial, remaining, hinv⟩
    | cons u queue =>
      obtain ⟨hrespects, remaining', hfinal⟩ := ih (hinv.settle henqueue hadj htarget)
        (by rw [length_cons]; omega)
      have hu : u ∉ settled := by
        have h := hinv.nodup
        rw [nodup_append] at h
        exact fun hmem => h.2.2 u hmem u mem_cons_self rfl
      rw [kahn]
      refine ⟨⟨hu, hinv.sources_settled (by simp), hrespects⟩, remaining', ?_⟩
      rw [reverse_cons, append_assoc]
      exact hfinal

end

/-! ### Topological orders -/

variable {settled order : List α}

omit [DecidableEq α] in
theorem Respects.not_mem_of_mem {edges : List (α × α)}
    (h : Respects edges settled order) {v : α} (hv : v ∈ order) : v ∉ settled := by
  induction order generalizing settled with
  | nil => cases hv
  | cons w order ih =>
    rcases mem_cons.mp hv with rfl | hv
    · exact h.1
    · exact fun hmem => ih h.2.2 hv (mem_cons_of_mem w hmem)

omit [DecidableEq α] in
theorem Respects.nodup {edges : List (α × α)} (h : Respects edges settled order) : order.Nodup := by
  induction order generalizing settled with
  | nil => exact nodup_nil
  | cons w order ih =>
    refine nodup_cons.mpr ⟨fun hw => ?_, ih h.2.2⟩
    exact h.2.2.not_mem_of_mem hw mem_cons_self

theorem Respects.source (h : Respects edges settled order) {u v : α} (he : (u, v) ∈ edges)
    (hv : v ∈ order) : u ∈ settled ∨ (u ∈ order ∧ order.idxOf u < order.idxOf v) := by
  induction order generalizing settled with
  | nil => cases hv
  | cons w order ih =>
    by_cases hwv : w = v
    · subst hwv
      exact .inl (h.2.1 u he)
    have hv' : v ∈ order := (mem_cons.mp hv).resolve_left (Ne.symm hwv)
    rcases ih h.2.2 hv' with hu | ⟨hu, hlt⟩
    · rcases mem_cons.mp hu with rfl | hu
      · refine .inr ⟨mem_cons_self, ?_⟩
        rw [idxOf_cons_self, idxOf_cons_ne _ hwv]
        exact Nat.succ_pos _
      · exact .inl hu
    · by_cases hwu : w = u
      · subst hwu
        refine .inr ⟨mem_cons_self, ?_⟩
        rw [idxOf_cons_self, idxOf_cons_ne _ hwv]
        exact Nat.succ_pos _
      · refine .inr ⟨mem_cons_of_mem w hu, ?_⟩
        rw [idxOf_cons_ne _ hwu, idxOf_cons_ne _ hwv]
        exact Nat.succ_lt_succ hlt

variable {edges edges' : List (α × α)}

omit [DecidableEq α] in
theorem Respects.of_subset (h : ∀ e ∈ edges', e ∈ edges)
    (horder : Respects edges settled order) : Respects edges' settled order := by
  induction order generalizing settled with
  | nil => trivial
  | cons v rest ih =>
    obtain ⟨hnew, hsources, hrest⟩ := horder
    exact ⟨hnew, fun u he => hsources u (h _ he), ih hrest⟩

omit [DecidableEq α] in
/-- Which listings are topological depends on the sets of vertices and edges only. -/
theorem isTopoOrder_congr {vertices vertices' order : List α}
    (hvertices : vertices.Perm vertices') (hedges : ∀ e, e ∈ edges ↔ e ∈ edges') :
    IsTopoOrder vertices edges order ↔ IsTopoOrder vertices' edges' order := by
  constructor
  · rintro ⟨hperm, hrespects⟩
    exact ⟨hperm.trans hvertices, hrespects.of_subset fun e he => (hedges e).mpr he⟩
  · rintro ⟨hperm, hrespects⟩
    exact ⟨hperm.trans hvertices.symm, hrespects.of_subset fun e he => (hedges e).mp he⟩

theorem count_targets (edges : List (α × α)) (u v : α) :
    ((edges.filter fun e => e.1 = u).map Prod.snd).count v = edges.count (u, v) := by
  induction edges with
  | nil => rfl
  | cons e edges ih =>
    rw [count_cons, ← ih]
    by_cases hu : e.1 = u
    · simp [hu, count_cons, Prod.ext_iff]
    · simp [hu, Prod.ext_iff]

section

variable {vertices order : List α} (htarget : ∀ e ∈ edges, e.2 ∈ vertices) (h : IsTopoOrder vertices edges order)
include htarget h

theorem IsTopoOrder.idxOf_lt {a b : α} (hab : Relation.TransGen (fun a b => (a, b) ∈ edges) a b) :
    order.idxOf a < order.idxOf b := by
  have hedge : ∀ {a b : α}, (a, b) ∈ edges → order.idxOf a < order.idxOf b := by
    intro a b he
    have hb : b ∈ order := h.1.mem_iff.mpr (htarget _ he)
    exact ((h.2.source he hb).resolve_left not_mem_nil).2
  induction hab with
  | single he => exact hedge he
  | tail _ he ih => exact ih.trans (hedge he)

theorem IsTopoOrder.acyclic : Acyclic edges :=
  fun _ hcycle => lt_irrefl _ (h.idxOf_lt htarget hcycle)

/-- No vertex comes after one of its descendants. -/
theorem IsTopoOrder.pairwise :
    order.Pairwise fun a b => ¬Relation.TransGen (fun a b => (a, b) ∈ edges) b a := by
  rw [pairwise_iff_getElem]
  intro i j hi hj hij hpath
  have hlt := h.idxOf_lt htarget hpath
  rw [h.2.nodup.idxOf_getElem, h.2.nodup.idxOf_getElem] at hlt
  exact hlt.not_gt hij

end

section

variable {vertices : List α} {edges : List (α × α)} {enqueue : List α → α → List α}
  {adj : α → List α} {remaining : α → Int} {queue : List α}
  (henqueue : ∀ queue v, (enqueue queue v).Perm (v :: queue)) (hadj : ∀ u v, (adj u).count v = edges.count (u, v))
  (hends : ∀ e ∈ edges, e.1 ∈ vertices ∧ e.2 ∈ vertices) (hinv : Inv vertices edges [] remaining queue)
include henqueue hadj hends hinv

theorem kahn_respects : Respects edges [] (kahn enqueue adj vertices.length remaining queue) :=
  (kahn_spec henqueue hadj (fun e he => (hends e he).2) vertices.length hinv (by simp)).1

theorem kahn_subset : ∀ v ∈ kahn enqueue adj vertices.length remaining queue, v ∈ vertices := by
  obtain ⟨_, remaining', hfinal⟩ :=
    kahn_spec henqueue hadj (fun e he => (hends e he).2) vertices.length hinv (by simp)
  intro v hv
  exact hfinal.subset v (by simpa using hv)

/-- A vertex that is left out has an in-edge from another vertex that is left out. -/
theorem kahn_left_out {v : α} (hv : v ∈ vertices) (hout : v ∉ kahn enqueue adj vertices.length remaining queue) :
    ∃ u, (u, v) ∈ edges ∧ u ∈ vertices ∧ u ∉ kahn enqueue adj vertices.length remaining queue := by
  obtain ⟨_, remaining', hfinal⟩ :=
    kahn_spec henqueue hadj (fun e he => (hends e he).2) vertices.length hinv (by simp)
  have hopen : openCount edges ((kahn enqueue adj vertices.length remaining queue).reverse ++ []) v ≠ 0 := by
    intro hzero
    have := (hfinal.ready v hv).mpr (by rw [hfinal.count v, hzero]; rfl)
    exact hout (by simpa using this)
  rw [Ne, openCount_eq_zero_iff] at hopen
  push Not at hopen
  obtain ⟨u, he, hu⟩ := hopen
  exact ⟨u, he, (hends _ he).1, by simpa using hu⟩

theorem kahn_perm_iff_length : (kahn enqueue adj vertices.length remaining queue).Perm vertices ↔
      (kahn enqueue adj vertices.length remaining queue).length = vertices.length := by
  constructor
  · exact List.Perm.length_eq
  · intro hlength
    have hsub := (kahn_respects henqueue hadj hends hinv).nodup.subperm (kahn_subset henqueue hadj hends hinv)
    exact hsub.perm_of_length_le hlength.ge

/-- The loop lists every vertex exactly when the edges have no cycle. -/
theorem kahn_length_iff_acyclic (hvertices : vertices.Nodup) :
    (kahn enqueue adj vertices.length remaining queue).length = vertices.length ↔ Acyclic edges := by
  rw [← kahn_perm_iff_length henqueue hadj hends hinv]
  constructor
  · intro hperm
    exact IsTopoOrder.acyclic (fun e he => (hends e he).2) ⟨hperm, kahn_respects henqueue hadj hends hinv⟩
  · intro hacyclic
    have hall : ∀ v ∈ vertices, v ∈ kahn enqueue adj vertices.length remaining queue := by
      -- otherwise the vertices left out have no first one along the edges
      let R : {v // v ∈ vertices} → {v // v ∈ vertices} → Prop := fun a b =>
        Relation.TransGen (fun a b => (a, b) ∈ edges) a.1 b.1
      have : Std.Irrefl R := ⟨fun a ha => hacyclic a.1 ha⟩
      have hwf : WellFounded R := Finite.wellFounded_of_trans_of_irrefl R
      intro v hv
      by_contra hout
      let left : Set {v // v ∈ vertices} :=
        {w | w.1 ∉ kahn enqueue adj vertices.length remaining queue}
      obtain ⟨w, hw, hmin⟩ := hwf.has_min left ⟨⟨v, hv⟩, hout⟩
      obtain ⟨u, he, hu, huout⟩ := kahn_left_out henqueue hadj hends hinv w.2 hw
      exact hmin ⟨u, hu⟩ huout (Relation.TransGen.single he)
    refine (perm_ext_iff_of_nodup (kahn_respects henqueue hadj hends hinv).nodup hvertices).mpr ?_
    exact fun v => ⟨kahn_subset henqueue hadj hends hinv v, hall v⟩

end

/-! ### The least order -/

section

variable {β : Type} [LinearOrder β] {vertices : List β} {edges : List (β × β)}
  {enqueue : List β → β → List β} {adj : β → List β} (henqueue : ∀ queue v, (enqueue queue v).Perm (v :: queue))
  (hsorted : ∀ queue v, (enqueue queue v).Pairwise (· ≤ ·)) (hadj : ∀ u v, (adj u).count v = edges.count (u, v))
  (htarget : ∀ e ∈ edges, e.2 ∈ vertices)

include hsorted in
theorem pairwise_relax_queue (vs : List β) (remaining : β → Int) (queue : List β) (hqueue : queue.Pairwise (· ≤ ·)) :
    (relax enqueue vs remaining queue).2.Pairwise (· ≤ ·) := by
  induction vs generalizing remaining queue with
  | nil => exact hqueue
  | cons v vs ih =>
    rw [relax]
    split_ifs
    · exact ih _ _ (hsorted queue v)
    · exact ih _ _ hqueue

include henqueue hsorted hadj htarget in
/-- With a sorted queue no listing of the open vertices that respects the edges comes before the
result: its first vertex is ready, so it is in the queue. -/
theorem kahn_le (fuel : Nat) {settled queue other : List β} {remaining : β → Int}
    (hinv : Inv vertices edges settled remaining queue) (hqueue : queue.Pairwise (· ≤ ·))
    (hother : Respects edges settled other) (hcover : ∀ v, v ∈ other ↔ v ∈ vertices ∧ v ∉ settled) :
    kahn enqueue adj fuel remaining queue ≤ other := by
  induction fuel generalizing settled queue remaining other with
  | zero => exact not_lt.mp (not_lt_nil other)
  | succ fuel ih =>
    cases queue with
    | nil => exact not_lt.mp (not_lt_nil other)
    | cons u queue =>
      have hu : u ∈ settled ++ u :: queue := by simp
      have huNew : u ∉ settled := by
        have h := hinv.nodup
        rw [nodup_append] at h
        exact fun hmem => h.2.2 u hmem u mem_cons_self rfl
      cases other with
      | nil => exact absurd ((hcover u).mpr ⟨hinv.subset u hu, huNew⟩) not_mem_nil
      | cons w other =>
        obtain ⟨hwNew, hwSources, hrest⟩ := hother
        have hwVertex : w ∈ vertices := ((hcover w).mp mem_cons_self).1
        have hwZero : remaining w = 0 := by
          rw [hinv.count w, (openCount_eq_zero_iff edges settled w).mpr hwSources]
          rfl
        have hwQueue : w ∈ u :: queue :=
          (mem_append.mp ((hinv.ready w hwVertex).mpr hwZero)).resolve_left hwNew
        have hle : u ≤ w := by
          rcases mem_cons.mp hwQueue with rfl | hmem
          · exact le_refl w
          · exact (pairwise_cons.mp hqueue).1 w hmem
        rcases lt_or_eq_of_le hle with hlt | rfl
        · exact le_of_lt (List.Lex.rel hlt)
        refine cons_le_cons u (ih (hinv.settle henqueue hadj htarget) ?_ hrest ?_)
        · exact pairwise_relax_queue hsorted _ _ _ (pairwise_cons.mp hqueue).2
        · intro v
          have hv := hcover v
          rw [mem_cons] at hv ⊢
          constructor
          · intro hmem
            refine ⟨(hv.mp (.inr hmem)).1, not_or.mpr ⟨?_, (hv.mp (.inr hmem)).2⟩⟩
            rintro rfl
            exact hrest.not_mem_of_mem hmem mem_cons_self
          · rintro ⟨hvertex, hnew⟩
            exact (hv.mpr ⟨hvertex, fun h => hnew (.inr h)⟩).resolve_left
              fun h => hnew (.inl h)

/-- The topological order that comes first. -/
def IsLeastTopoOrder (vertices : List β) (edges : List (β × β)) (order : List β) : Prop :=
  IsTopoOrder vertices edges order ∧ ∀ other, IsTopoOrder vertices edges other → order ≤ other

theorem isLeastTopoOrder_congr {vertices vertices' order : List β} {edges edges' : List (β × β)}
    (hvertices : vertices.Perm vertices') (hedges : ∀ e, e ∈ edges ↔ e ∈ edges') :
    IsLeastTopoOrder vertices edges order ↔ IsLeastTopoOrder vertices' edges' order := by
  unfold IsLeastTopoOrder
  simp only [isTopoOrder_congr hvertices hedges]

include henqueue hsorted hadj in
/-- With a sorted queue the loop lists every vertex exactly when there is a topological order, and
then in the least one. -/
theorem kahn_eq_iff_least (hvertices : vertices.Nodup)
    (hends : ∀ e ∈ edges, e.1 ∈ vertices ∧ e.2 ∈ vertices) {remaining : β → Int} {queue : List β}
    (hinv : Inv vertices edges [] remaining queue) (hqueue : queue.Pairwise (· ≤ ·)) (order : List β) :
    (kahn enqueue adj vertices.length remaining queue = order ∧ order.length = vertices.length) ↔
      IsLeastTopoOrder vertices edges order := by
  have hleast : ∀ other, IsTopoOrder vertices edges other →
      kahn enqueue adj vertices.length remaining queue ≤ other := by
    intro other hother
    apply kahn_le henqueue hsorted hadj (fun e he => (hends e he).2) _ hinv hqueue hother.2
    simp [hother.1.mem_iff]
  constructor
  · rintro ⟨rfl, hlength⟩
    exact ⟨⟨(kahn_perm_iff_length henqueue hadj hends hinv).mpr hlength,
      kahn_respects henqueue hadj hends hinv⟩, hleast⟩
  · rintro ⟨htopo, hmin⟩
    have hlength := (kahn_length_iff_acyclic henqueue hadj hends hinv hvertices).mpr
      (htopo.acyclic fun e he => (hends e he).2)
    have hkahn : IsTopoOrder vertices edges (kahn enqueue adj vertices.length remaining queue) :=
      ⟨(kahn_perm_iff_length henqueue hadj hends hinv).mpr hlength,
        kahn_respects henqueue hadj hends hinv⟩
    have heq := le_antisymm (hleast order htopo) (hmin _ hkahn)
    exact ⟨heq, heq ▸ hlength⟩

end

end NpsSdk.Kahn
