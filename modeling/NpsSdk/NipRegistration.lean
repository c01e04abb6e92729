import NpsSdk.NipLineage

/-! Registrations of one name that run at the same time. A call looks the name up, takes a serial and saves its
record; each is one operation of the store, and calls of others may come in between. The store refuses a serial
that is taken, but not a name. -/

namespace NpsSdk.Nip

open Transition Option Function NipCaService

section

variable {N : Type} {pf : Platform N} {σ : Type} (ca : NipCaService pf σ)

/-- A call of `Register`, `RegisterX509` or `RegisterGroup`: what it issues, and what it adds to the frame. -/
structure Registration (N : Type) where
  capabilities : Option (List GoString)
  request : IssueRequest N
  complete : GoString → IdentFrame N → Except CaError (IdentFrame N) := fun _ frame => .ok frame

/-- Where a call is: before its check, before it takes a serial, before it saves, and at its end. -/
inductive Stage (N : Type) where
  | start
  | checked
  | numbered (serial : GoString) (frame : IdentFrame N)
  | returned (result : Except CaError (IdentFrame N))

namespace Registration

variable (c : Registration N)

def prepare (serial : GoString) : Except CaError (IdentFrame N) :=
  (ca.issueFrame c.request serial).bind (c.complete serial)

/-- The next operation of a call on the store. -/
def advance (s : σ) : Stage N → σ × Stage N
  | .start =>
    match ca.registrable s c.request.nid c.capabilities with
    | some err => (s, .returned (.error err))
    | none => (s, .checked)
  | .checked =>
    match ca.store.nextSerial s with
    | .error err => (s, .returned (.error (.plain err)))
    | .ok (serial, s) =>
      match c.prepare ca serial with
      | .error err => (s, .returned (.error err))
      | .ok frame => (s, .numbered serial frame)
  | .numbered serial frame =>
    match ca.store.save s (ca.recordOf c.request serial) with
    | .error err => (s, .returned (.error (.plain err)))
    | .ok s => (s, .returned (.ok frame))
  | .returned result => (s, .returned result)

def run (s : σ) : σ × Except CaError (IdentFrame N) :=
  match ca.registrable s c.request.nid c.capabilities with
  | some err => (s, .error err)
  | none => ca.issue s c.request c.complete

theorem register_eq : ca.register = fun s now entityType identifier pubKey capabilities scopeJSON metadataJSON =>
    run ca { capabilities, request :=
      ca.registration now entityType identifier pubKey capabilities scopeJSON metadataJSON none } s := rfl

theorem registerX509_eq (issuer : X509Issuer) : ca.registerX509 issuer =
    fun s now entityType identifier pubKey capabilities scopeJSON assurance metadataJSON rootCert =>
      let request := ca.registration now entityType identifier pubKey capabilities scopeJSON metadataJSON
        (some assurance)
      run ca ⟨capabilities, request, attachChain pf issuer request.nid pubKey entityType assurance now
        request.expiresAt rootCert⟩ s := rfl

theorem registerGroup_eq {s : σ} {now : Time} {draw : Bytes} {identifier pubKey name : GoString}
    {capabilities : Option (List GoString)} {scopeJSON ownerUserId ownerKeyId metadataJSON : GoString}
    (hname : groupIdentifier identifier draw = some name) :
    ca.registerGroup s now draw identifier pubKey capabilities scopeJSON ownerUserId ownerKeyId metadataJSON =
      run ca ⟨capabilities, ca.groupRequest now name pubKey capabilities scopeJSON ownerUserId ownerKeyId metadataJSON,
        fun _ frame => .ok frame⟩ s := by
  rw [registerGroup, hname]
  rfl

/-- Three operations in a row are the call. -/
theorem advance_run (s : σ) : let s₁ := c.advance ca s .start
    let s₂ := c.advance ca s₁.1 s₁.2
    c.advance ca s₂.1 s₂.2 = ((c.run ca s).1, .returned (c.run ca s).2) := by
  unfold run issue
  simp only [advance]
  cases ca.registrable s c.request.nid c.capabilities with
  | some err => rfl
  | none =>
    cases ca.store.nextSerial s with
    | error err => rfl
    | ok taken =>
      dsimp only [prepare]
      cases ca.issueFrame c.request taken.1 with
      | error err => rfl
      | ok draft =>
        dsimp only [Except.bind]
        cases c.complete taken.1 draft with
        | error err => rfl
        | ok frame =>
          dsimp only [advance]
          cases ca.store.save taken.2 (ca.recordOf c.request taken.1) <;> rfl

def Admissible : Prop :=
  ca.checkAllowedCaps c.capabilities = none ∧ ∀ serial, ∃ frame, c.prepare ca serial = .ok frame

end Registration

end

/-! ### Interleavings -/

section

variable {N ι : Type} {pf : Platform N}

structure Registering (N ι : Type) where
  store : InMemoryNipCaStore
  stage : ι → Stage N

def Registering.start (s : InMemoryNipCaStore) : Registering N ι := ⟨s, fun _ => .start⟩

variable [DecidableEq ι] (opts : NipCaOptions) (keys : NipIdentity pf.ed) (calls : ι → Registration N)

def registerStep (st : Registering N ι) (i : ι) : Option (Registering N ι) :=
  let next := (calls i).advance (memoryCa opts keys) st.store (st.stage i)
  some ⟨next.1, update st.stage i next.2⟩

/-- The call has passed its check and not returned. -/
def Stage.pending : Stage N → Bool
  | .checked | .numbered _ _ => true
  | _ => false

def Stage.succeeded : Stage N → Bool
  | .returned (.ok _) => true
  | _ => false

def Stage.isStart : Stage N → Bool
  | .start => true
  | _ => false

/-- A name is looked up only while no call has passed its check without having returned. -/
def Alone (st : Registering N ι) (i : ι) : Prop := (st.stage i).isStart → ∀ j, (st.stage j).pending = false

instance [Fintype ι] (st : Registering N ι) (i : ι) : Decidable (Alone st i) := inferInstanceAs (Decidable (_ → _))

variable (nid : GoString)

def alreadyExists : CaError := .ca errCaNidAlreadyExists ("NID already exists: " ++ nid)

def Refused (c : Registration N) (stage : Stage N) : Prop :=
  ∃ err, stage = .returned (.error err) ∧ (c.Admissible (memoryCa opts keys) → err = alreadyExists nid)

def Idle (c : Registration N) (stage : Stage N) : Prop :=
  stage = .start ∨ Refused opts keys nid c stage

/-- What is in the store while a call is on its way and when it has succeeded. -/
def Leads (s₀ s : InMemoryNipCaStore) : Stage N → Prop
  | .checked => s.records = s₀.records
  | .numbered serial _ => s.records = s₀.records ∧ ∃ n, s₀.serial < n ∧ serial = serialText n
  | .returned (.ok _) => ∃ record, s.records = s₀.records ++ [record] ∧ record.nid = nid
  | _ => False

/-- What calls that do not overlap keep: at most one of them is under way or has registered the name. -/
structure Orderly (nid : GoString) (s₀ : InMemoryNipCaStore) (lead : Option ι) (st : Registering N ι) : Prop where
  serial_le : s₀.serial ≤ st.store.serial
  leads : lead.elim (st.store.records = s₀.records) fun i => Leads nid s₀ st.store (st.stage i)
  idle : ∀ j, lead ≠ some j → Idle opts keys nid (calls j) (st.stage j)

variable {opts keys calls} {nid : GoString} {s₀ : InMemoryNipCaStore} {st st' : Registering N ι} {i : ι}
  {lead : Option ι} {stage : Stage N}

theorem Idle.not_lead {c : Registration N} (h : Idle opts keys nid c stage) :
    stage.pending = false ∧ stage.succeeded = false := by
  rcases h with rfl | ⟨err, rfl, -⟩ <;> exact ⟨rfl, rfl⟩

theorem Orderly.eq_lead (h : Orderly opts keys calls nid s₀ lead st)
    (hi : (st.stage i).pending = true ∨ (st.stage i).succeeded = true) : lead = some i := by
  by_contra hne
  obtain ⟨hpending, hsucceeded⟩ := (h.idle i hne).not_lead
  rw [hpending, hsucceeded] at hi
  simp at hi

variable {s : InMemoryNipCaStore}

theorem Leads.pending_or_found (h : Leads nid s₀ s stage) :
    stage.pending = true ∨ s.getByNid nid ≠ none := by
  match stage, h with
  | .checked, _ => exact .inl rfl
  | .numbered _ _, _ => exact .inl rfl
  | .returned (.ok _), ⟨record, hrecords, hnid⟩ =>
    rw [InMemoryNipCaStore.getByNid, hrecords]
    simp [hnid]

theorem Leads.records (h : Leads nid s₀ s stage) :
    ∃ saved, s.records = s₀.records ++ saved ∧ saved.length ≤ 1 := by
  match stage, h with
  | .checked, h => exact ⟨[], by rwa [List.append_nil], Nat.zero_le _⟩
  | .numbered _ _, h => exact ⟨[], by rw [List.append_nil, h.1], Nat.zero_le _⟩
  | .returned (.ok _), ⟨record, hrecords, _⟩ => exact ⟨[record], hrecords, le_rfl⟩

/-- A call looks the name up. -/
theorem advance_start (c : Registration N) (s : InMemoryNipCaStore) (hnid : c.request.nid = nid) :
    ∃ stage, c.advance (memoryCa opts keys) s .start = (s, stage) ∧
      ((stage = .checked ∧ s.getByNid nid = none) ∨ Refused opts keys nid c stage) := by
  have hlookup : (memoryCa opts keys).store.lookup s nid = s.getByNid nid := rfl
  rw [Registration.advance, registrable, hnid, hlookup]
  cases s.getByNid nid with
  | some rec => exact ⟨_, rfl, .inr ⟨_, rfl, fun _ => rfl⟩⟩
  | none =>
    simp only [isSome_none]
    cases hcaps : (memoryCa opts keys).checkAllowedCaps c.capabilities with
    | some err => exact ⟨_, rfl, .inr ⟨err, rfl, fun h => by cases hcaps.symm.trans h.1⟩⟩
    | none => exact ⟨_, rfl, .inl ⟨rfl, trivial⟩⟩

theorem advance_checked (c : Registration N) (s : InMemoryNipCaStore) :
    ∃ stage, c.advance (memoryCa opts keys) s .checked = ({ s with serial := s.serial + 1 }, stage) ∧
      ((∃ frame, stage = .numbered (serialText (s.serial + 1)) frame) ∨ Refused opts keys nid c stage) := by
  have hnext : (memoryCa opts keys).store.nextSerial s =
      .ok (serialText (s.serial + 1), { s with serial := s.serial + 1 }) := rfl
  rw [Registration.advance, hnext]
  dsimp only
  cases hprepare : c.prepare (memoryCa opts keys) (serialText (s.serial + 1)) with
  | ok frame => exact ⟨_, rfl, .inl ⟨frame, rfl⟩⟩
  | error err =>
    refine ⟨_, rfl, .inr ⟨err, rfl, fun h => ?_⟩⟩
    obtain ⟨frame, hframe⟩ := h.2 (serialText (s.serial + 1))
    cases hprepare.symm.trans hframe

variable (opts keys) in
theorem advance_numbered (c : Registration N) {serial : GoString} (frame : IdentFrame N)
    (hfresh : ∀ r ∈ s.records, r.serial ≠ serial) :
    ∃ record, c.advance (memoryCa opts keys) s (.numbered serial frame) =
      ({ s with records := s.records ++ [record] }, .returned (.ok frame)) ∧ record.nid = c.request.nid := by
  have hsave : (memoryCa opts keys).store.save s ((memoryCa opts keys).recordOf c.request serial) =
      .ok { s with records := s.records ++ [(memoryCa opts keys).recordOf c.request serial] } :=
    if_neg (by
      simp only [List.any_eq_true, decide_eq_true_eq, not_exists, not_and]
      exact hfresh)
  rw [Registration.advance, hsave]
  exact ⟨_, rfl, rfl⟩

/-- The call `i` moves on, and leads, or is idle while another leads or none. -/
theorem Orderly.update (h : Orderly opts keys calls nid s₀ lead st) {lead' : Option ι}
    (hserial : st.store.serial ≤ s.serial)
    (hleads : lead'.elim (s.records = s₀.records) fun k => Leads nid s₀ s (update st.stage i stage k))
    (hi : lead' ≠ some i → Idle opts keys nid (calls i) stage) (hother : ∀ j, j ≠ i → lead' ≠ some j → lead ≠ some j) :
    Orderly opts keys calls nid s₀ lead' ⟨s, update st.stage i stage⟩ := by
  refine ⟨h.serial_le.trans hserial, hleads, fun j hj => ?_⟩
  by_cases hji : j = i
  · subst hji
    simpa using hi hj
  · simpa [hji] using h.idle j (hother j hji hj)

theorem Orderly.step (hnid : ∀ i, (calls i).request.nid = nid)
    (hfresh : ∀ r ∈ s₀.records, ∀ n, s₀.serial < n → r.serial ≠ serialText n)
    (h : Orderly opts keys calls nid s₀ lead st) (halone : Alone st i)
    (hstep : registerStep opts keys calls st i = some st') : ∃ lead', Orderly opts keys calls nid s₀ lead' st' := by
  cases hstep
  have hleads := h.leads
  cases hstage : st.stage i with
  | start =>
    obtain ⟨stage, hadvance, hcases⟩ := advance_start (calls i) st.store (hnid i)
    rw [hadvance]
    rcases hcases with ⟨rfl, hfree⟩ | hrefused
    · have hnone : lead = none := by
        cases lead with
        | none => rfl
        | some k =>
          have hidle := halone (by rw [hstage]; rfl) k
          exact (Leads.pending_or_found hleads).elim (absurd · (by simp [hidle])) (absurd hfree ·)
      subst hnone
      refine ⟨some i, h.update le_rfl ?_ (fun hne => absurd rfl hne) fun j _ _ hj => by cases hj⟩
      rw [elim_some, update_self]
      exact hleads
    · refine ⟨lead, h.update le_rfl ?_ (fun _ => .inr hrefused) fun j _ hj => hj⟩
      cases lead with
      | none => exact hleads
      | some k =>
        have hki : k ≠ i := by
          rintro rfl
          simp only [elim_some, hstage] at hleads
          exact hleads
        simpa [hki] using hleads
  | checked =>
    obtain rfl := h.eq_lead (i := i) (.inl (by rw [hstage]; rfl))
    simp only [elim_some, hstage] at hleads
    obtain ⟨stage, hadvance, hcases⟩ := advance_checked (calls i) st.store
    rw [hadvance]
    rcases hcases with ⟨frame, rfl⟩ | hrefused
    · refine ⟨some i, h.update (Nat.le_succ _) ?_ (fun hne => absurd rfl hne) fun j _ hj => hj⟩
      simp only [elim_some, update_self]
      exact ⟨hleads, _, Nat.lt_succ_of_le h.serial_le, rfl⟩
    · refine ⟨none, h.update (Nat.le_succ _) hleads (fun _ => .inr hrefused) fun j hj _ heq => hj ?_⟩
      cases heq
      rfl
  | numbered serial frame =>
    obtain rfl := h.eq_lead (i := i) (.inl (by rw [hstage]; rfl))
    simp only [elim_some, hstage] at hleads
    obtain ⟨hrecords, n, hn, rfl⟩ := hleads
    obtain ⟨record, hadvance, hrecord⟩ := advance_numbered opts keys (calls i) frame (s := st.store)
      fun r hr => hfresh r (hrecords ▸ hr) n hn
    rw [hadvance]
    refine ⟨some i, h.update le_rfl ?_ (fun hne => absurd rfl hne) fun j _ hj => hj⟩
    simp only [elim_some, update_self]
    exact ⟨record, by rw [hrecords], hrecord.trans (hnid i)⟩
  | returned result =>
    have hsame : Function.update st.stage i (.returned result) = st.stage := by
      rw [← hstage, Function.update_eq_self]
    rw [Registration.advance, hsame]
    exact ⟨lead, h⟩

/-- In a run in which no call looks the name up while another is between its check and its end, at most one call
succeeds, every other admissible call that has returned was told that the name exists, and at most one record was
saved. -/
theorem registrations_exclusive (hnid : ∀ i, (calls i).request.nid = nid)
    (hfresh : ∀ r ∈ s₀.records, ∀ n, s₀.serial < n → r.serial ≠ serialText n) {schedule : List ι}
    (hrun : run (registerStep opts keys calls) (.start s₀) schedule = some st)
    (halone : ∀ p ∈ steps (registerStep opts keys calls) (.start s₀) schedule, Alone p.1 p.2) :
    (∀ i j, (st.stage i).succeeded → (st.stage j).succeeded → i = j) ∧
    (∀ i err, st.stage i = .returned (.error err) → (calls i).Admissible (memoryCa opts keys) →
      err = alreadyExists nid) ∧ ∃ saved, st.store.records = s₀.records ++ saved ∧ saved.length ≤ 1 := by
  obtain ⟨lead, h⟩ := run_invariant_of_steps _ (I := fun st => ∃ lead, Orderly opts keys calls nid s₀ lead st)
    (fun _ _ _ ⟨_, h⟩ halone hstep => h.step hnid hfresh halone hstep) hrun
    ⟨none, le_rfl, rfl, fun _ _ => .inl rfl⟩ halone
  refine ⟨fun i j hi hj => ?_, fun i err herr hadmissible => ?_, ?_⟩
  · exact some.inj ((h.eq_lead (.inr hi)).symm.trans (h.eq_lead (.inr hj)))
  · have hne : lead ≠ some i := by
      rintro rfl
      have hleads := h.leads
      simp only [elim_some, herr] at hleads
      exact hleads
    rcases h.idle i hne with hstart | ⟨err', herr', hexists⟩
    · cases herr.symm.trans hstart
    · cases herr.symm.trans herr'
      exact hexists hadmissible
  · have hleads := h.leads
    cases lead with
    | none => exact ⟨[], by rwa [List.append_nil], Nat.zero_le _⟩
    | some k => exact Leads.records hleads

end

/-! ### Two calls at the same time -/

def rivalCalls (second : Bool) : Registration JsonNumber where
  capabilities := none
  request := lineageCa.registration 0 "agent" "a" (if second then "ed25519:BB" else "ed25519:AA") none [] [] none

def rivalStep := registerStep lineageCa.opts lineageCa.keys rivalCalls

/-- One call after the other: the first succeeds, and it is the only one. -/
theorem first_call_exclusive : ∃ st, run rivalStep (.start {}) [false, false, false, true] = some st ∧
    (st.stage false).succeeded ∧ ¬ (st.stage true).succeeded := by
  have hall : (run rivalStep (.start {}) [false, false, false, true]).any
      (fun st => (st.stage false).succeeded) = true := by decide +kernel
  obtain ⟨st, hst, hfirst⟩ := (any_eq_true _ _).mp hall
  have halone : ∀ p ∈ steps rivalStep (.start {}) [false, false, false, true], Alone p.1 p.2 := by decide +kernel
  have hnid : ∀ i, (rivalCalls i).request.nid = lineageCa.buildNid "agent" "a" := fun _ => rfl
  have hexclusive := registrations_exclusive hnid (fun _ hr => absurd hr List.not_mem_nil) hst halone
  exact ⟨st, hst, hfirst, fun hsecond => absurd (hexclusive.1 false true hfirst hsecond) (by decide)⟩

/-- Both calls look the name up before one of them saves, and both succeed. -/
theorem two_keys_registered : ∃ st, run rivalStep (.start {}) [false, true, false, true, false, true] = some st ∧
    (st.stage false).succeeded ∧ (st.stage true).succeeded ∧
      st.store.records.map (·.pubKey) = [("ed25519:AA" : GoString), "ed25519:BB"] := by
  have hall : (run rivalStep (.start {}) [false, true, false, true, false, true]).any (fun st =>
      (st.stage false).succeeded && ((st.stage true).succeeded &&
        decide (st.store.records.map (·.pubKey) = [("ed25519:AA" : GoString), "ed25519:BB"]))) = true := by
    decide +kernel
  obtain ⟨st, hst, hrest⟩ := (any_eq_true _ _).mp hall
  simp only [Bool.and_eq_true, decide_eq_true_eq] at hrest
  exact ⟨st, hst, hrest⟩

end NpsSdk.Nip
