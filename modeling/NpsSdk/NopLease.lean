import NpsSdk.NopPortable

/-! Leases of the portable profile: a runner holds a task until its lease runs out, and claims or renews it in answer to
scripted events. The outcomes the profile returns are paired with the events they answer; the table of leases holds
what was granted last, and so no task is given away before its lease has run out. -/

namespace NpsSdk.Nop.Portable

structure PortableLease where
  runnerNID : String
  expiresAt : Int

structure LeaseState where
  leases : GoMap PortableLease := ∅
  terminal : GoMap Bool := ∅

structure LeaseEvent where
  time : Int
  op : String
  taskID : String
  runner : String
  leaseSeconds : Int
  terminalKey : String

def leaseEvent {N : Type} (rt : Runtime N) (rawEvent : Json N) : LeaseEvent :=
  let event := object (some rawEvent)
  { time := intValue rt event["at"]? 0
    op := stringValue event["op"]?
    taskID := stringValue event["task_id"]?
    runner := stringValue event["runner_nid"]?
    leaseSeconds := intValue rt event["lease_seconds"]? 0
    terminalKey := stringValue event["dedup_key"]? ++ "\x00" ++ stringValue event["node_id"]? }

def clampLeaseSeconds (value : Int) : Int := if value < 10 then 10 else if value > 600 then 600 else value

/-- The outcome of a `claim` or a `renew`; only a claim takes a task that nobody holds. -/
def leaseOutcome (e : LeaseEvent) : Option PortableLease → String
  | some lease =>
    if lease.expiresAt > e.time then if lease.runnerNID = e.runner then "granted" else "conflict"
    else if e.op = "renew" then "conflict" else "reclaimed"
  | none => if e.op = "renew" then "conflict" else "granted"

/-- The lease that is set, in the arithmetic of an `int`. -/
def LeaseEvent.lease (e : LeaseEvent) : PortableLease :=
  ⟨e.runner, (e.time + clampLeaseSeconds e.leaseSeconds).bmod (2 ^ 64)⟩

/-- One event, and the outcome it adds. -/
def leaseStep (s : LeaseState) (e : LeaseEvent) : LeaseState × Option String :=
  if e.op = "claim" ∨ e.op = "renew" then
    let outcome := leaseOutcome e s.leases[e.taskID]?
    (if outcome = "conflict" then s else { s with leases := s.leases.insert e.taskID e.lease }, some outcome)
  else if e.op = "mark_terminal" then
    ({ s with terminal := s.terminal.insert e.terminalKey true }, some "recorded")
  else if e.op = "is_terminal" then
    (s, some (if s.terminal.getD e.terminalKey false then "terminal" else "pending"))
  else (s, none)

def leaseOutcomes (s : LeaseState) : List LeaseEvent → List String
  | [] => []
  | e :: events => (leaseStep s e).2.toList ++ leaseOutcomes (leaseStep s e).1 events

def leaseEvents {N : Type} (rt : Runtime N) (input : GoMap (Json N)) : List LeaseEvent :=
  (anySlice input["events"]?).map (leaseEvent rt)

def evaluatePortableLease {N : Type} (rt : Runtime N) (input : GoMap (Json N)) : List String :=
  leaseOutcomes {} (leaseEvents rt input)

/-! ### Exclusion -/

/-- The events the loop has a case for; each of them adds one outcome. -/
def LeaseEvent.Answered (e : LeaseEvent) : Prop :=
  e.op = "claim" ∨ e.op = "renew" ∨ e.op = "mark_terminal" ∨ e.op = "is_terminal"

instance : DecidablePred LeaseEvent.Answered := fun _ => inferInstanceAs (Decidable (_ ∨ _))

abbrev LeaseLog := List (LeaseEvent × String)

/-- The event gave its runner the task. -/
def Grants (task : String) (x : LeaseEvent × String) : Prop :=
  x.1.taskID = task ∧ (x.2 = "granted" ∨ x.2 = "reclaimed")

instance (task : String) : DecidablePred (Grants task) := fun _ => inferInstanceAs (Decidable (_ ∧ _))

def lastGrant (log : LeaseLog) (task : String) : Option LeaseEvent :=
  ((log.filter (Grants task)).getLast?).map Prod.fst

def LeaseEvent.expiry (e : LeaseEvent) : Int := e.time + clampLeaseSeconds e.leaseSeconds

/-- What a list of answered events says about the leases. -/
structure ExclusiveLeases (log : LeaseLog) : Prop where
  lasting : ∀ x ∈ log, x.1.time + 10 ≤ x.1.expiry ∧ x.1.expiry ≤ x.1.time + 600
  /-- Until a lease runs out its task is not given to another runner. -/
  exclusive : ∀ before e answer between other answer' rest,
    log = before ++ (e, answer) :: between ++ (other, answer') :: rest →
    Grants e.taskID (e, answer) → (∀ x ∈ between, Grants e.taskID x → x.1.runner ≠ e.runner) →
    Grants e.taskID (other, answer') → other.runner ≠ e.runner → e.expiry ≤ other.time
  /-- A renewal needs the last lease of its task to be the runner's own and not run out, and then it succeeds. -/
  renewed : ∀ before e answer rest, log = before ++ (e, answer) :: rest → e.op = "renew" →
    (Grants e.taskID (e, answer) ↔
      ∃ held, lastGrant before e.taskID = some held ∧ held.runner = e.runner ∧ e.time < held.expiry)

variable {s : LeaseState} {e : LeaseEvent} {task : String}

theorem leaseOutcome_ne_conflict {held : Option PortableLease} (h : leaseOutcome e held ≠ "conflict") :
    (leaseOutcome e held = "granted" ∨ leaseOutcome e held = "reclaimed") ∧
    ∀ lease, held = some lease → lease.runnerNID = e.runner ∨ lease.expiresAt ≤ e.time := by
  unfold leaseOutcome at h ⊢
  grind

theorem renewal_ne_conflict_iff {held : Option PortableLease} (hrenew : e.op = "renew") :
    leaseOutcome e held ≠ "conflict" ↔
      ∃ lease, held = some lease ∧ lease.runnerNID = e.runner ∧ e.time < lease.expiresAt := by
  unfold leaseOutcome
  grind

/-- The runner gets the task: it is free, has run out or is the runner's own. -/
def Free (held : Option LeaseEvent) (e : LeaseEvent) : Prop :=
  (e.op = "claim" ∨ e.op = "renew") ∧ leaseOutcome e (held.map LeaseEvent.lease) ≠ "conflict"

/-- The table holds the lease of the last grant of each task. -/
def Tracks (log : LeaseLog) (s : LeaseState) : Prop :=
  ∀ task : String, s.leases[task]? = (lastGrant log task).map LeaseEvent.lease

/-- An event without a case changes nothing; another one is answered, and sets a lease if that is granted. -/
theorem Tracks.leaseStep_cases {log : LeaseLog} (h : Tracks log s) (e : LeaseEvent) :
    (¬ e.Answered ∧ leaseStep s e = (s, none)) ∨
    e.Answered ∧ ∃ answer, (leaseStep s e).2 = some answer ∧
      (Grants e.taskID (e, answer) ↔ Free (lastGrant log e.taskID) e) ∧
      (leaseStep s e).1.leases =
        if Grants e.taskID (e, answer) then s.leases.insert e.taskID e.lease else s.leases := by
  unfold LeaseEvent.Answered Free
  rw [← h e.taskID]
  unfold leaseStep Grants
  split_ifs with hlease hmark his
  · refine .inr ⟨hlease.elim .inl (.inr ∘ .inl), _, rfl, ?_⟩
    by_cases hconflict : leaseOutcome e s.leases[e.taskID]? = "conflict"
    · simp [hconflict]
    · have hgranted := (leaseOutcome_ne_conflict hconflict).1
      simp [hconflict, hgranted, hlease]
  · exact .inr ⟨.inr (.inr (.inl hmark)), _, rfl, by simp [hlease]⟩
  iterate 2 exact .inr ⟨.inr (.inr (.inr his)), _, rfl, by simp [hlease]⟩
  · exact .inl ⟨by tauto, rfl⟩

theorem lastGrant_concat (log : LeaseLog) (x : LeaseEvent × String) (task : String) :
    lastGrant (log ++ [x]) task = if Grants task x then some x.1 else lastGrant log task := by
  unfold lastGrant
  split_ifs with h <;> simp [List.filter_append, h]

theorem Tracks.concat {log : LeaseLog} {answer : String} {t : LeaseState} (h : Tracks log s)
    (ht : t.leases = if Grants e.taskID (e, answer) then s.leases.insert e.taskID e.lease else s.leases) :
    Tracks (log ++ [(e, answer)]) t := by
  intro task
  rw [lastGrant_concat, ht]
  by_cases hgrants : Grants e.taskID (e, answer)
  · rw [if_pos hgrants, GoMap.getElem?_insert]
    by_cases htask : e.taskID = task
    · subst htask
      rw [if_pos rfl, if_pos hgrants]
      rfl
    · rw [if_neg htask, if_neg fun hother => htask hother.1]
      exact h task
  · rw [if_neg hgrants, if_neg fun hother => hgrants ⟨rfl, hother.2⟩]
    exact h task

/-- The answers of the loop: one for each event it has a case for, and a task is granted as the grants before it
say. -/
theorem leaseOutcomes_answers (past : LeaseLog) (events : List LeaseEvent) (h : Tracks past s) :
    ∃ log : LeaseLog, log.map Prod.fst = events.filter LeaseEvent.Answered ∧
      log.map Prod.snd = leaseOutcomes s events ∧
      ∀ before e answer rest, log = before ++ (e, answer) :: rest →
        (Grants e.taskID (e, answer) ↔ Free (lastGrant (past ++ before) e.taskID) e) := by
  induction events generalizing s past with
  | nil => exact ⟨[], rfl, rfl, fun before _ _ _ hsplit => by simp at hsplit⟩
  | cons d events ih =>
    rcases h.leaseStep_cases d with ⟨hother, hnone⟩ | ⟨hanswered, answer, hsome, hfirst, hleases⟩
    · obtain ⟨log, hevents, houtcomes, hlater⟩ := ih past h
      refine ⟨log, by rw [List.filter_cons_of_neg (by simpa using hother), hevents], ?_, hlater⟩
      rw [houtcomes, leaseOutcomes, hnone]
      rfl
    · obtain ⟨log, hevents, houtcomes, hlater⟩ := ih (past ++ [(d, answer)]) (h.concat hleases)
      refine ⟨(d, answer) :: log, ?_, ?_, ?_⟩
      · rw [List.filter_cons_of_pos (by simpa using hanswered), ← hevents, List.map_cons]
      · rw [leaseOutcomes, hsome, ← houtcomes]
        rfl
      · intro before e answer' rest hsplit
        cases before with
        | nil =>
          cases hsplit
          rwa [List.append_nil]
        | cons x before =>
          rw [List.cons_append, List.cons.injEq] at hsplit
          obtain ⟨rfl, hsplit⟩ := hsplit
          have := hlater before e answer' rest hsplit
          rwa [List.append_assoc] at this

theorem expiry_bounds (e : LeaseEvent) : e.time + 10 ≤ e.expiry ∧ e.expiry ≤ e.time + 600 := by
  unfold LeaseEvent.expiry clampLeaseSeconds
  split_ifs <;> omega

section

variable {log : LeaseLog} (hexpiry : ∀ x ∈ log, x.1.lease.expiresAt = x.1.expiry)

theorem mem_of_lastGrant {held : LeaseEvent} (h : lastGrant log task = some held) : ∃ answer, (held, answer) ∈ log := by
  obtain ⟨⟨_, answer⟩, hlast, rfl⟩ := Option.map_eq_some_iff.mp h
  exact ⟨answer, (List.mem_filter.mp (List.mem_of_getLast? hlast)).1⟩

include hexpiry

theorem expiresAt_of_lastGrant {before rest : LeaseLog} {held : LeaseEvent} (hlog : log = before ++ rest)
    (hheld : lastGrant before task = some held) : held.lease.expiresAt = held.expiry := by
  obtain ⟨answer, hmem⟩ := mem_of_lastGrant hheld
  exact hexpiry (held, answer) (hlog ▸ List.mem_append_left _ hmem)

variable (hanswers : ∀ before e answer rest, log = before ++ (e, answer) :: rest →
    (Grants e.taskID (e, answer) ↔ Free (lastGrant before e.taskID) e))
include hanswers

/-- After a grant, the last lease of the task is that one, or was granted when that one had run out. -/
theorem lastGrant_after (horder : log.Pairwise fun x y => x.1.time ≤ y.1.time) {before between rest : LeaseLog}
    {answer : String} (hlog : log = before ++ (e, answer) :: between ++ rest) (hgrants : Grants e.taskID (e, answer))
    (hothers : ∀ x ∈ between, Grants e.taskID x → x.1.runner ≠ e.runner) :
    ∃ held, lastGrant (before ++ (e, answer) :: between) e.taskID = some held ∧
      (held = e ∨ e.expiry ≤ held.time) := by
  induction between using List.reverseRecOn generalizing rest with
  | nil => exact ⟨e, by rw [lastGrant_concat, if_pos hgrants], .inl rfl⟩
  | append_singleton between x ih =>
    have hlog' : log = before ++ (e, answer) :: between ++ x :: rest := by simp [hlog]
    obtain ⟨held, hheld, hlast⟩ := ih hlog' fun y hy => hothers y (List.mem_append_left _ hy)
    rw [← List.cons_append, ← List.append_assoc, lastGrant_concat]
    split_ifs with hx
    · -- the new grant finds `held` with its own runner or run out, and comes after it
      obtain ⟨d, answer'⟩ := x
      have hfree := (hanswers _ d answer' rest hlog').mp ⟨rfl, hx.2⟩
      have hfound := (leaseOutcome_ne_conflict hfree.2).2 held.lease (by rw [hx.1, hheld]; rfl)
      have htimes : held.time ≤ d.time := by
        obtain ⟨heldAnswer, hmem⟩ := mem_of_lastGrant hheld
        rw [hlog', List.pairwise_append] at horder
        exact horder.2.2 _ hmem _ List.mem_cons_self
      rw [expiresAt_of_lastGrant hexpiry hlog' hheld] at hfound
      refine ⟨d, rfl, .inr ?_⟩
      rcases hlast with rfl | hlast
      · exact hfound.resolve_left (hothers _ (by simp) hx).symm
      · exact hlast.trans htimes
    · exact ⟨held, hheld, hlast⟩

end

/-- Pairing the outcomes of the profile with the events they answer, no task is given to a second runner before the
lease of the first has run out. -/
theorem lease_exclusive {N : Type} (rt : Runtime N) (input : GoMap (Json N))
    (hrange : ∀ e ∈ leaseEvents rt input, -2 ^ 63 ≤ e.time ∧ e.time + 600 < 2 ^ 63)
    (horder : (leaseEvents rt input).Pairwise fun a b => a.time ≤ b.time) :
    ∃ log : LeaseLog, log.map Prod.fst = (leaseEvents rt input).filter LeaseEvent.Answered ∧
      log.map Prod.snd = evaluatePortableLease rt input ∧ ExclusiveLeases log := by
  obtain ⟨log, hevents, houtcomes, hanswers⟩ := leaseOutcomes_answers (s := {}) [] (leaseEvents rt input) fun task => by
    simp [lastGrant]
  have hmem : ∀ x ∈ log, x.1 ∈ leaseEvents rt input := fun x hx =>
    (List.mem_filter.mp (hevents ▸ List.mem_map_of_mem hx)).1
  have hexpiry : ∀ x ∈ log, x.1.lease.expiresAt = x.1.expiry := fun x hx => by
    have hbounds := expiry_bounds x.1
    have := hrange _ (hmem x hx)
    exact Int.bmod_eq_of_le (by unfold LeaseEvent.expiry at hbounds; omega)
      (by unfold LeaseEvent.expiry at hbounds; omega)
  have hsorted : log.Pairwise fun x y => x.1.time ≤ y.1.time := by
    have := horder.sublist (List.filter_sublist (p := fun e => decide e.Answered))
    rwa [← hevents, List.pairwise_map] at this
  refine ⟨log, hevents, houtcomes, fun x _ => expiry_bounds x.1, ?_, ?_⟩
  · intro before e answer between other answer' rest hlog hgrants hothers hother hrunner
    have hlog' : log = before ++ (e, answer) :: (between ++ [(other, answer')]) ++ rest := by simp [hlog]
    obtain ⟨held, hheld, hlast⟩ := lastGrant_after hexpiry hanswers hsorted hlog' hgrants fun x hx => by
      rcases List.mem_append.mp hx with hx | hx
      · exact hothers x hx
      · exact fun _ => List.mem_singleton.mp hx ▸ hrunner
    rw [← List.cons_append, ← List.append_assoc, lastGrant_concat, if_pos hother] at hheld
    cases hheld
    exact hlast.resolve_left fun hsame => hrunner (congrArg LeaseEvent.runner hsame)
  · intro before e answer rest hlog hrenew
    rw [hanswers before e answer rest hlog, Free, and_iff_right (.inr hrenew), renewal_ne_conflict_iff hrenew]
    simp only [Option.map_eq_some_iff, exists_exists_and_eq_and]
    refine exists_congr fun held => and_congr_right fun hheld => ?_
    rw [expiresAt_of_lastGrant hexpiry hlog hheld]
    rfl

/-- Numbers are integers, and nothing is encoded. -/
def integerRuntime : Runtime Int where
  intOf n := some n
  marshal _ := none
  unmarshal _ := none
  evaluateCondition _ _ := none
  resolvePath _ _ := none

def leaseRequest (time : Int) (op runner : String) : Json Int :=
  .object [("at", .number time), ("op", .string op), ("task_id", .string "task"), ("runner_nid", .string runner),
    ("lease_seconds", .number 30)]

/-- A rival is refused while the lease lasts, also after a renewal, and takes the task when it has run out. -/
def rivalClaims : GoMap (Json Int) :=
  Json.toMap [("events", .array [leaseRequest 0 "claim" "a", leaseRequest 5 "claim" "b", leaseRequest 20 "renew" "a",
    leaseRequest 40 "claim" "b", leaseRequest 50 "claim" "b", leaseRequest 60 "renew" "a"])]

theorem rivalClaims_exclusive :
    evaluatePortableLease integerRuntime rivalClaims =
      ["granted", "conflict", "granted", "conflict", "reclaimed", "conflict"] ∧
    ∃ log : LeaseLog, log.map Prod.fst = (leaseEvents integerRuntime rivalClaims).filter LeaseEvent.Answered ∧
      log.map Prod.snd = evaluatePortableLease integerRuntime rivalClaims ∧ ExclusiveLeases log :=
  ⟨by decide, lease_exclusive integerRuntime rivalClaims (by decide) (by decide)⟩

end NpsSdk.Nop.Portable
