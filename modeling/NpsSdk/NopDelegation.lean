import NpsSdk.NopRunDag

/-! What a delegation makes of the sequence numbers of a worker's stream, and how often a node is
delegated before its outcome stands. -/

namespace NpsSdk.Nop

open List

variable {Raw : Type}

/-! ### Sequence numbers -/

/-- The frame skips numbers, which is what the receive loop looks for. -/
abbrev Jumps (lastSeq : UInt64) (f : WorkerStreamFrame Raw) : Prop :=
  f.seq ≠ lastSeq ∧ f.seq ≠ 0 ∧ f.seq ≠ lastSeq + 1

/-- A frame that is not the next one and that the receive loop lets pass all the same. -/
def Slips (f g : WorkerStreamFrame Raw) : Prop := g.seq = f.seq ∨ g.seq = 0

/-- The numbers go up by one from the first, which is 0 or 1. -/
def InSequence (frames : List (WorkerStreamFrame Raw)) : Prop :=
  (∀ f ∈ frames.head?, f.seq = 0 ∨ f.seq = 1) ∧ frames.IsChain fun f g => g.seq.toNat = f.seq.toNat + 1

/-- A completed delegation has read its frames in sequence, and any other that has not reports a gap. -/
def SequenceKept (outcome : NodeOutcome Raw) (frames : List (WorkerStreamFrame Raw)) : Prop :=
  (outcome.state = .completed → InSequence frames) ∧
    (¬InSequence frames → outcome.errorCode = errStreamSeqGap)

section

variable (host : Host Raw) (opts : OrchestratorOptions) (node : DagNode Raw)

/-- The frames the receive loop takes from the stream. -/
def framesRead : UInt64 → List (StreamEvent Raw) → List (WorkerStreamFrame Raw)
  | lastSeq, .frame f :: rest =>
    f :: if Jumps lastSeq f ∨ (opts.validateSenderNID ∧ f.senderNID ≠ node.agent) ∨ f.isFinal then []
      else framesRead f.seq rest
  | _, _ => []

def AttemptEnv.framesRead (context : GoMap Raw) (env : AttemptEnv Raw) : List (WorkerStreamFrame Raw) :=
  match host.buildParams node.inputMapping context, env.answer with
  | .ok _, .ok events => Nop.framesRead opts node 0 events
  | _, _ => []

/-- A frame jumps, or the final one carries the error of a gap itself. -/
def GapReported : UInt64 → List (WorkerStreamFrame Raw) → Prop
  | _, [] => False
  | lastSeq, f :: rest => Jumps lastSeq f ∨ GapReported f.seq rest ∨
      (¬(opts.validateSenderNID ∧ f.senderNID ≠ node.agent) ∧ f.isFinal ∧
        ∃ e, f.error = some e ∧ e.code = errStreamSeqGap)

variable {host opts node} {task : OrchestratorTask Raw} {outcome : NodeOutcome Raw}

theorem fail_gap {code message : String} {P : Prop} (hcode : code = errStreamSeqGap ↔ P) :
    ((NodeOutcome.fail code message : NodeOutcome Raw).errorCode = errStreamSeqGap ↔ P) ∧
      ((NodeOutcome.fail code message : NodeOutcome Raw).state = .completed → code = "") := ⟨hcode, nofun⟩

theorem streamLoop_gap {lastSeq : UInt64} {events : List (StreamEvent Raw)}
    (h : streamLoop opts task node lastSeq events = some outcome) :
    (outcome.errorCode = errStreamSeqGap ↔ GapReported opts node lastSeq (framesRead opts node lastSeq events)) ∧
      (outcome.state = .completed → outcome.errorCode = "") := by
  fun_induction streamLoop opts task node lastSeq events with
  | case1 => cases h
  | case2 | case3 | case4 =>
    cases h
    exact fail_gap (iff_of_false (by decide) id)
  | case5 lastSeq f rest hjump =>
    cases h
    rw [framesRead, GapReported]
    exact fail_gap (iff_of_true rfl (.inl hjump))
  | case6 lastSeq f rest hjump hsender =>
    cases h
    rw [framesRead, GapReported, if_pos (.inr (.inl hsender))]
    exact fail_gap (iff_of_false (by decide) (by simp [Jumps, hjump, hsender, GapReported]))
  | case7 lastSeq f rest hjump hsender hfinal e hf =>
    cases h
    rw [framesRead, GapReported, if_pos (.inr (.inr hfinal)), hf]
    exact fail_gap (by simp [Jumps, hjump, hsender, hfinal, GapReported])
  | case8 lastSeq f rest hjump hsender hfinal hf =>
    cases h
    rw [framesRead, GapReported, if_pos (.inr (.inr hfinal)), hf]
    refine ⟨iff_of_false (show "" ≠ errStreamSeqGap by decide) ?_, fun _ => rfl⟩
    simp [Jumps, hjump, GapReported]
  | case9 lastSeq f rest hjump hsender hfinal ih =>
    rw [framesRead, GapReported, if_neg (by simp [Jumps, hjump, hsender, hfinal])]
    simp only [Jumps, hjump, hfinal, Bool.false_eq_true, false_or, false_and, and_false, or_false]
    exact ih h

variable {frames : List (WorkerStreamFrame Raw)}

/-- Without a frame that slips through, only a reported gap breaks the sequence. -/
theorem isChain_next {f : WorkerStreamFrame Raw}
    (hchain : (f :: frames).IsChain fun f g => ¬Slips f g) (hgap : ¬GapReported opts node f.seq frames) :
    (f :: frames).IsChain fun f g => g.seq.toNat = f.seq.toNat + 1 := by
  induction frames generalizing f with
  | nil => exact .singleton _
  | cons g frames ih =>
    rw [isChain_cons_cons, Slips, not_or] at hchain
    rw [GapReported, not_or, not_or] at hgap
    have hnext : g.seq = f.seq + 1 := by
      by_contra hne
      exact hgap.1 ⟨hchain.1.1, hchain.1.2, hne⟩
    have hpos : g.seq.toNat ≠ 0 := fun hzero => hchain.1.2 (UInt64.toNat_inj.mp hzero)
    refine isChain_cons_cons.mpr ⟨?_, ih hchain.2 hgap.2.1⟩
    rw [hnext, UInt64.toNat_add] at hpos ⊢
    have hlt := f.seq.toNat_lt
    simp only [UInt64.reduceToNat] at hpos ⊢
    omega

theorem inSequence_of_not_slips
    (hchain : frames.IsChain fun f g => ¬Slips f g) (hgap : ¬GapReported opts node 0 frames) :
    InSequence frames := by
  cases frames with
  | nil => exact ⟨nofun, .nil⟩
  | cons =>
    rw [GapReported, not_or, not_or] at hgap
    refine ⟨?_, isChain_next hchain hgap.2.1⟩
    rintro _ ⟨⟩
    by_contra hfirst
    rw [not_or] at hfirst
    exact hgap.1 ⟨hfirst.1, hfirst.1, hfirst.2⟩

theorem InSequence.not_slips (h : InSequence frames) :
    frames.IsChain fun f g => ¬Slips f g := by
  refine h.2.imp fun f g hnext => ?_
  rintro (hsame | hzero)
  · rw [hsame] at hnext
    omega
  · rw [hzero] at hnext
    cases hnext

/-- The sequence is kept exactly if no frame repeats the number before it or starts again at 0, or if a
later frame makes the loop report a gap. -/
theorem sequence_kept_iff {context : GoMap Raw} {env : AttemptEnv Raw}
    (h : executeNodeOnce host opts task node context env = some outcome) :
    SequenceKept outcome (env.framesRead host opts node context) ↔
      ((env.framesRead host opts node context).IsChain fun f g => ¬Slips f g) ∨
        GapReported opts node 0 (env.framesRead host opts node context) := by
  unfold executeNodeOnce at h
  unfold AttemptEnv.framesRead
  cases hparams : host.buildParams node.inputMapping context with
  | error e => simp [SequenceKept, InSequence]
  | ok =>
    cases hanswer : env.answer with
    | error => simp [SequenceKept, InSequence]
    | ok events =>
      rw [hparams, hanswer] at h
      obtain ⟨hgap, hcompleted⟩ := streamLoop_gap h
      constructor
      · rintro ⟨-, hbroken⟩
        by_cases hseq : InSequence (framesRead opts node 0 events)
        · exact .inl hseq.not_slips
        · exact .inr (hgap.mp (hbroken hseq))
      · intro hcond
        have hbroken : ¬InSequence (framesRead opts node 0 events) → outcome.errorCode = errStreamSeqGap := by
          intro hseq
          by_contra hcode
          rw [hgap] at hcode
          exact hseq (inSequence_of_not_slips (hcond.resolve_right hcode) hcode)
        refine ⟨fun hstate => ?_, hbroken⟩
        by_contra hseq
        have hcode := hbroken hseq
        rw [hcompleted hstate] at hcode
        exact absurd hcode (by decide)

end

/-- A worker that streams frames with these numbers, the last one final. -/
def numberedAnswer (first : List UInt64) (last : UInt64) : AttemptEnv Unit :=
  { plainAnswer true with answer := .ok (first.map (fun seq => .frame { plainFrame true with seq, isFinal := false }) ++
      [.frame { plainFrame true with seq := last }]) }

/-- Three frames in sequence, and a stream with a gap. -/
theorem numbered_frames_in_sequence :
    SequenceKept ⟨.completed, some (), "", ""⟩
      ((numberedAnswer [1, 2] 3).framesRead plainHost chainCall.opts (plainNode "a" []) ∅) ∧
    SequenceKept (.fail errStreamSeqGap "")
      ((numberedAnswer [1, 3] 4).framesRead plainHost chainCall.opts (plainNode "a" []) ∅) := by
  refine ⟨(sequence_kept_iff (show executeNodeOnce _ _ chainCall.task _ _ _ = _ from rfl)).mpr (.inl ?_),
    (sequence_kept_iff (show executeNodeOnce _ _ chainCall.task _ _ _ = _ from rfl)).mpr (.inr ?_)⟩
  · show ([_, _, _] : List (WorkerStreamFrame Unit)).IsChain _
    simp [Slips, plainFrame]
  · exact .inr (.inl (.inl (by decide)))

theorem repeated_frame_completes :
    (executeNodeOnce plainHost chainCall.opts chainCall.task (plainNode "a" []) ∅ (numberedAnswer [0, 1] 1)).map
        NodeOutcome.state = some .completed ∧
      ¬InSequence ((numberedAnswer [0, 1] 1).framesRead plainHost chainCall.opts (plainNode "a" []) ∅) := by
  refine ⟨rfl, fun h => ?_⟩
  have hlast := (isChain_cons_cons.mp (isChain_cons_cons.mp h.2).2).1
  exact absurd hlast (by decide)

/-! ### Retries -/

section

variable (host : Host Raw) (opts : OrchestratorOptions) (task : OrchestratorTask Raw) (node : DagNode Raw)
  (subtaskID idempotencyKey : String) (context : GoMap Raw)

/-- The requests that the attempts from a given one on send to the worker. -/
def delegateCalls : Nat → List (AttemptEnv Raw) → List (DelegateRequest Raw)
  | attempt, env :: rest =>
    if maxRetries task node + 1 < attempt ∨ env.ctxErr ∨ (conditionGate host node context attempt).isSome then []
    else (delegateRequest host task node subtaskID idempotencyKey env.deadlineAt context).toList ++
      match executeNodeOnce host opts task node context env with
      | some outcome =>
        if outcome.state = .completed ∨ ¬shouldRetry node.retryPolicy outcome.errorCode attempt
            (maxRetries task node) ∨ env.delayCancelled then []
        else delegateCalls (attempt + 1) rest
      | none => []
  | _, [] => []

/-- An outcome after which the node is not tried again, however many retries are left. -/
def Stands (outcome : NodeOutcome Raw) : Prop :=
  outcome.state = .completed ∨ outcome.errorCode ≠ "" ∧
    ∃ policy, node.retryPolicy = some policy ∧ policy.retryOn ≠ [] ∧ outcome.errorCode ∉ policy.retryOn

variable {host opts task node context}

theorem stands_iff {outcome : NodeOutcome Raw} {j : Nat} (hj : j ≤ maxRetries task node) :
    (outcome.state = .completed ∨
        ¬shouldRetry node.retryPolicy outcome.errorCode (j + 1) (maxRetries task node)) ↔
      (j = maxRetries task node ∨ Stands node outcome) := by
  unfold shouldRetry Stands
  split_ifs with hlast
  · simp [show j = maxRetries task node by omega]
  have hne : j ≠ maxRetries task node := by omega
  cases node.retryPolicy with
  | none => simp [hne]
  | some policy =>
    by_cases hlisted : policy.retryOn ≠ [] ∧ outcome.errorCode ≠ ""
    · simp [hne, hlisted]
    · simp only [hne, hlisted, if_false, Option.some.injEq, exists_eq_left']
      tauto

theorem conditionGate_later {attempt : Nat} (h : attempt ≠ 1) : conditionGate host node context attempt = none :=
  if_neg fun hfirst => h hfirst.1

variable {envs : Nat → AttemptEnv Raw} {outcomes : Nat → NodeOutcome Raw} {k : Nat}
  (hcancel : ∀ i, (envs i).seesCancel = false)
  (houtcomes : ∀ i, executeNodeOnce host opts task node context (envs i) = some (outcomes i))
  (hk : IsLeast {i | i = maxRetries task node ∨ Stands node (outcomes i)} k)
include hcancel houtcomes hk

variable (rest : List (AttemptEnv Raw))

/-- One attempt of an uncancelled run. -/
theorem retryLoop_attempt {j : Nat} (hj : j ≤ k) (hgate : conditionGate host node context (j + 1) = none) :
    (retryLoop host opts task node subtaskID context (j + 1) (envs j :: rest)).map Prod.fst =
        (if j = k then some (outcomes k)
          else (retryLoop host opts task node subtaskID context (j + 2) rest).map Prod.fst) ∧
      delegateCalls host opts task node subtaskID idempotencyKey context (j + 1) (envs j :: rest) =
        (delegateRequest host task node subtaskID idempotencyKey (envs j).deadlineAt context).toList ++
          if j = k then [] else delegateCalls host opts task node subtaskID idempotencyKey context (j + 2) rest := by
  have hle : k ≤ maxRetries task node := hk.2 (.inl rfl)
  have hopen : ¬maxRetries task node + 1 < j + 1 := by omega
  have hstands : (j = maxRetries task node ∨ Stands node (outcomes j)) ↔ j = k :=
    ⟨fun h => le_antisymm hj (hk.2 h), fun h => h ▸ hk.1⟩
  rw [← stands_iff (show j ≤ maxRetries task node by omega)] at hstands
  have henv := hcancel j
  simp only [AttemptEnv.seesCancel, Bool.or_eq_false_iff] at henv
  rw [retryLoop, delegateCalls, if_neg hopen, hgate, houtcomes j]
  simp only [henv.1.1, henv.1.2, hopen, Bool.false_eq_true, or_false, if_false, Option.isSome_none, hstands]
  split_ifs with hlast
  · exact ⟨hlast ▸ rfl, trivial⟩
  · rw [Option.map_map]
    exact ⟨rfl, trivial⟩

theorem retryLoop_least {n j : Nat} (hj : j + n = k) (hgate : conditionGate host node context (j + 1) = none) :
    (retryLoop host opts task node subtaskID context (j + 1)
        ((List.range' j (n + 1)).map envs ++ rest)).map Prod.fst = some (outcomes k) ∧
      delegateCalls host opts task node subtaskID idempotencyKey context (j + 1)
        ((List.range' j (n + 1)).map envs ++ rest) = (List.range' j (n + 1)).flatMap fun i =>
          (delegateRequest host task node subtaskID idempotencyKey (envs i).deadlineAt context).toList := by
  induction n generalizing j with
  | zero =>
    obtain ⟨hresult, hcalls⟩ := retryLoop_attempt subtaskID idempotencyKey hcancel houtcomes hk rest hj.le hgate
    rw [if_pos hj] at hresult hcalls
    exact ⟨hresult, hcalls⟩
  | succ n ih =>
    obtain ⟨hresult, hcalls⟩ := retryLoop_attempt subtaskID idempotencyKey hcancel houtcomes hk
      ((List.range' (j + 1) (n + 1)).map envs ++ rest) (show j ≤ k by omega) hgate
    rw [if_neg (by omega)] at hresult hcalls
    obtain ⟨hlater, hcalls'⟩ := ih (show j + 1 + n = k by omega) (conditionGate_later (by omega))
    exact ⟨hresult.trans hlater, hcalls.trans (congrArg _ hcalls')⟩

/-- Without cancellation and with a condition that lets it run, a node is tried up to the first attempt that
settles it and has the outcome of that one; each attempt whose parameters can be built is one call of the
worker, all under the same ids. A node its condition settles is not tried at all. -/
theorem retry_discipline : (executeNodeWithRetry host opts task node subtaskID context
        ((List.range' 0 (k + 1)).map envs ++ rest)).map Prod.fst =
        some ((conditionGate host node context 1).getD (outcomes k)) ∧
      (delegateCalls host opts task node subtaskID idempotencyKey context 1
          ((List.range' 0 (k + 1)).map envs ++ rest)).map (fun c => (c.subtaskID, c.idempotencyKey)) =
        replicate (if (conditionGate host node context 1).isNone ∧
            (host.buildParams node.inputMapping context).isOk then k + 1 else 0) (subtaskID, idempotencyKey) ∧
      ∀ attempt ≠ 1, conditionGate host node context attempt = none := by
  rw [← and_assoc]
  refine ⟨?_, fun _ => conditionGate_later⟩
  cases hgate : conditionGate host node context 1 with
  | some gated =>
    have henv := hcancel 0
    simp only [AttemptEnv.seesCancel, Bool.or_eq_false_iff] at henv
    rw [range'_succ, map_cons, cons_append, executeNodeWithRetry, retryLoop, delegateCalls]
    simp [henv.1.1, hgate]
  | none =>
    obtain ⟨hresult, hcalls⟩ :=
      retryLoop_least subtaskID idempotencyKey hcancel houtcomes hk rest (Nat.zero_add k) hgate
    refine ⟨hresult, ?_⟩
    rw [hcalls, map_flatMap]
    cases hparams : host.buildParams node.inputMapping context <;>
      simp [delegateRequest, hparams, Except.isOk, Except.toBool, ← map_eq_flatMap]

end

/-- A node that is tried again while its worker is busy. -/
def retriedNode : DagNode Unit := { plainNode "a" [] with retryPolicy := some ⟨3, ["busy"]⟩ }

def refusal (code : String) : AttemptEnv Unit :=
  { plainAnswer true with answer := .ok [.frame { plainFrame true with error := some ⟨code, ""⟩ }] }

/-- The worker is busy, then denies the request; the third and fourth attempt are not made. -/
theorem denied_attempt_stands :
    let envs := fun i : Nat => refusal (if i = 0 then "busy" else "denied")
    (executeNodeWithRetry plainHost chainCall.opts chainCall.task retriedNode "s" ∅
        [envs 0, envs 1, envs 2, envs 3]).map Prod.fst = some (.fail "denied" "") ∧
      (delegateCalls plainHost chainCall.opts chainCall.task retriedNode "s" "k" ∅ 1
        [envs 0, envs 1, envs 2, envs 3]).map (fun c => (c.subtaskID, c.idempotencyKey)) =
      [("s", "k"), ("s", "k")] := by
  intro envs
  have houtcomes : ∀ i, executeNodeOnce plainHost chainCall.opts chainCall.task retriedNode ∅ (envs i) =
      some (.fail (if i = 0 then "busy" else "denied") "") := fun _ => rfl
  have hk : IsLeast {i | i = maxRetries chainCall.task retriedNode ∨
      Stands retriedNode (.fail (if i = 0 then "busy" else "denied") "" : NodeOutcome Unit)} 1 := by
    refine ⟨.inr (.inr ⟨by decide, _, rfl, by decide, by decide⟩), fun i hi => ?_⟩
    rw [Nat.one_le_iff_ne_zero]
    rintro rfl
    rcases hi with hi | hi | ⟨-, _, ⟨⟩, -, hlisted⟩
    · exact absurd hi (by decide)
    · cases hi
    · exact hlisted (by decide)
  have hdisciplined := retry_discipline "s" "k" (fun _ => rfl) houtcomes hk [envs 2, envs 3]
  exact ⟨hdisciplined.1, hdisciplined.2.1⟩

/-- A condition that does not hold: the only attempt makes no call. -/
theorem skipped_node_not_delegated : let node := { plainNode "a" [] with condition := "false" }
    maxRetries chainCall.task node + 1 = 1 ∧ delegateCalls { plainHost with evaluateCondition := fun _ _ => .ok false }
      chainCall.opts chainCall.task node "s" "k" ∅ 1 [plainAnswer true] = [] := ⟨rfl, rfl⟩

end NpsSdk.Nop
