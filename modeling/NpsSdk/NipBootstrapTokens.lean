import NpsSdk.GoTime

/-! Bootstrap tokens. The store in memory keeps their digests; each of them is accepted once or revoked once, and never
both. -/

namespace NpsSdk.Nip

open GoTime List

variable {D : Type}

structure BootstrapEntry (D : Type) where
  id : GoString
  hash : D
  expiresAt : Time
  consumed : Bool := false
  revoked : Bool := false

def BootstrapEntry.isOpen (e : BootstrapEntry D) : Bool := !(e.consumed || e.revoked)

/-- An operation with the texts it draws; a validation reads the clock at every entry. -/
inductive TokenOp where
  | create (raw id : GoString) (expiresAt : Time)
  | validateAndConsume (token : GoString) (clock : Nat → Time)
  | revoke (tokenID : GoString)

abbrev TokenStore (D : Type) := List (BootstrapEntry D)

/-- The digests of the tokens that operations make, accept and revoke. -/
structure TokenUse (D : Type) where
  made : List D := []
  accepted : List D := []
  revoked : List D := []

def TokenUse.append (u v : TokenUse D) : TokenUse D :=
  ⟨u.made ++ v.made, u.accepted ++ v.accepted, u.revoked ++ v.revoked⟩

namespace TokenStore

/-- The digests that can still be accepted. -/
def pending (s : TokenStore D) : List D := s.flatMap fun e => if e.isOpen then [e.hash] else []

/-- What was there or is made is accepted, revoked or still pending, and an entry that is spent or revoked stays as it
is. -/
structure Settles (s t : TokenStore D) (u : TokenUse D) : Prop where
  balance : u.accepted ++ u.revoked ++ t.pending ~ s.pending ++ u.made
  closed : ∀ e ∈ s, e.isOpen = false → e ∈ t

section

variable {s t : TokenStore D} {u : TokenUse D}

theorem Settles.refl (s : TokenStore D) : s.Settles s {} :=
  ⟨by simp, fun _ he _ => he⟩

theorem Settles.cons (h : s.Settles t u) (e : BootstrapEntry D) : Settles (e :: s) (e :: t) u := by
  refine ⟨(perm_append_comm_assoc _ _ _).trans ?_, ?_⟩
  · exact (h.balance.append_left _).trans (append_assoc _ _ _ ▸ .rfl)
  · grind [Settles]

theorem Settles.trans {v : TokenStore D} {u' : TokenUse D} (h : s.Settles t u) (h' : t.Settles v u') :
    s.Settles v (u.append u') := by
  refine ⟨?_, fun e he hclosed => h'.closed e (h.closed e he hclosed) hclosed⟩
  calc (u.accepted ++ u'.accepted) ++ (u.revoked ++ u'.revoked) ++ v.pending
      ~ u.accepted ++ u.revoked ++ (u'.accepted ++ u'.revoked ++ v.pending) := by
        simp only [append_assoc]
        exact (perm_append_comm_assoc _ _ _).append_left _
    _ ~ u.accepted ++ u.revoked ++ (t.pending ++ u'.made) := h'.balance.append_left _
    _ ~ s.pending ++ u.made ++ u'.made := by
        rw [← append_assoc]
        exact h.balance.append_right _
    _ = s.pending ++ (u.made ++ u'.made) := append_assoc _ _ _

end

def revoke (tokenID : GoString) : TokenStore D → TokenStore D × Bool
  | [] => ([], false)
  | e :: tokens =>
    if e.id ≠ tokenID then (revoke tokenID tokens).map (e :: ·) id
    else if e.isOpen then ({ e with revoked := true } :: tokens, true) else (e :: tokens, false)

/-- The entry that an id stands for, the first one that has it, if it is open. -/
def revocable (s : TokenStore D) (tokenID : GoString) : Option (BootstrapEntry D) :=
  (s.find? fun e => e.id = tokenID).filter BootstrapEntry.isOpen

theorem revocable_cons (e : BootstrapEntry D) (s : TokenStore D) (tokenID : GoString) :
    revocable (e :: s) tokenID =
      if e.id ≠ tokenID then s.revocable tokenID else if e.isOpen then some e else none := by
  unfold revocable
  by_cases hid : e.id = tokenID <;> simp [hid, Option.filter]

theorem revoke_result (tokenID : GoString) (s : TokenStore D) :
    (s.revoke tokenID).2 = (s.revocable tokenID).isSome := by
  induction s with
  | nil => rfl
  | cons e s ih =>
    rw [revocable_cons, revoke]
    split_ifs
    · exact ih
    all_goals rfl

theorem revoke_marks {tokenID : GoString} {s : TokenStore D} {e : BootstrapEntry D}
    (h : s.revocable tokenID = some e) : { e with revoked := true } ∈ (s.revoke tokenID).1 := by
  induction s with
  | nil => cases h
  | cons d s ih =>
    rw [revocable_cons] at h
    rw [revoke]
    split_ifs at h ⊢ with hid
    · exact mem_cons_of_mem _ (ih h)
    · cases h
      exact mem_cons_self

theorem revoke_settles (tokenID : GoString) (s : TokenStore D) :
    s.Settles (s.revoke tokenID).1 { revoked := ((s.revocable tokenID).map BootstrapEntry.hash).toList } := by
  induction s with
  | nil => exact .refl _
  | cons e s ih =>
    rw [revocable_cons, revoke]
    split_ifs with hid hopen
    · exact ih.cons e
    · refine ⟨by simp_all [pending, BootstrapEntry.isOpen], ?_⟩
      grind
    · exact .refl _

variable [DecidableEq D]

def validateAndConsume (hash : D) (clock : Nat → Time) : TokenStore D → TokenStore D × Bool
  | [] => ([], false)
  | e :: tokens =>
    if e.isOpen ∧ clock tokens.length ≤ e.expiresAt ∧ hash = e.hash then ({ e with consumed := true } :: tokens, true)
    else (validateAndConsume hash clock tokens).map (e :: ·) id

theorem validateAndConsume_settles (hash : D) (clock : Nat → Time) (s : TokenStore D) :
    let (t, valid) := s.validateAndConsume hash clock
    s.Settles t { accepted := if valid then [hash] else [] } := by
  induction s with
  | nil => exact .refl _
  | cons e s ih =>
    rw [validateAndConsume]
    by_cases h : e.isOpen ∧ clock s.length ≤ e.expiresAt ∧ hash = e.hash
    · rw [if_pos h]
      refine ⟨by simp_all [pending, BootstrapEntry.isOpen], ?_⟩
      grind
    · rw [if_neg h]
      exact ih.cons e

variable (sha256 : GoString → D)

/-- The store after an operation, and what the operation does with tokens. -/
def step (s : TokenStore D) : TokenOp → TokenStore D × TokenUse D
  | .create raw id expiresAt => (s ++ [{ id, hash := sha256 raw, expiresAt }], { made := [sha256 raw] })
  | .validateAndConsume token clock =>
    let (t, valid) := s.validateAndConsume (sha256 token) clock
    (t, { accepted := if valid then [sha256 token] else [] })
  | .revoke tokenID =>
    ((s.revoke tokenID).1, { revoked := ((s.revocable tokenID).map BootstrapEntry.hash).toList })

def run (s : TokenStore D) : List TokenOp → TokenStore D × TokenUse D
  | [] => (s, {})
  | op :: ops =>
    let (t, u) := step sha256 s op
    (run t ops).map id u.append

theorem step_settles (s : TokenStore D) (op : TokenOp) :
    s.Settles (step sha256 s op).1 (step sha256 s op).2 := by
  cases op with
  | create => exact ⟨by simp [step, pending, BootstrapEntry.isOpen], fun _ he _ => mem_append_left _ he⟩
  | validateAndConsume token clock => exact validateAndConsume_settles _ clock s
  | revoke tokenID => exact revoke_settles tokenID s

theorem settles_run (s : TokenStore D) (ops : List TokenOp) :
    s.Settles (run sha256 s ops).1 (run sha256 s ops).2 := by
  induction ops generalizing s with
  | nil => exact .refl s
  | cons op ops ih => exact (step_settles sha256 s op).trans (ih _)

theorem run_append (s : TokenStore D) (before ops : List TokenOp) :
    (run sha256 s (before ++ ops)).1 = (run sha256 (run sha256 s before).1 ops).1 := by
  induction before generalizing s with
  | nil => rfl
  | cons op before ih => exact ih _

/-- In any order of operations each token that is made is accepted at most once, and if it is revoked, never. A
revocation succeeds exactly if its id stands for a token that is still open, and the entry is then revoked for good. -/
theorem run_settles (s : TokenStore D) (ops : List TokenOp) :
    s.Settles (run sha256 s ops).1 (run sha256 s ops).2 ∧
    ∀ before tokenID rest, ops = before ++ .revoke tokenID :: rest →
      let now := (run sha256 s before).1
      (now.revoke tokenID).2 = (now.revocable tokenID).isSome ∧
      ∀ e, now.revocable tokenID = some e → { e with revoked := true } ∈ (run sha256 s ops).1 := by
  refine ⟨settles_run sha256 s ops, ?_⟩
  rintro before tokenID rest rfl
  refine ⟨revoke_result _ _, fun e he => ?_⟩
  rw [run_append]
  exact (settles_run sha256 _ rest).closed _ (revoke_marks he) (by simp [BootstrapEntry.isOpen])

/-- Two tokens; the second is revoked before it is presented, and the first is presented twice. -/
def tokenCalls : List TokenOp :=
  [.create "t1" "1" 10, .create "t2" "2" 10, .revoke "2", .validateAndConsume "t2" fun _ => 5,
    .validateAndConsume "t1" fun _ => 5, .validateAndConsume "t1" fun _ => 6]

theorem tokenCalls_settle :
    (run id [] tokenCalls).2.accepted = [("t1" : GoString)] ∧
    (run id [] tokenCalls).2.revoked = [("t2" : GoString)] ∧
    Settles [] (run id [] tokenCalls).1 (run id [] tokenCalls).2 ∧
    { id := "2", hash := "t2", expiresAt := 10, revoked := true } ∈ (run id [] tokenCalls).1 :=
  have hrun := run_settles id [] tokenCalls
  ⟨by decide, by decide, hrun.1, (hrun.2 (tokenCalls.take 2) "2" (tokenCalls.drop 3) rfl).2 _ rfl⟩

end TokenStore

end NpsSdk.Nip
