import NpsSdk.NwpLlmContextStore

/-! What a call of the context store does. Every call sweeps and makes at most one change: it takes a
reservation, resolves one, or retires a context. What holds in every state is that an unresolved
reservation owns the outcome under its key and, unless it makes a new context, the context it is for. -/

namespace NpsSdk.Nwp.InMemoryLlmContextStore

open GoTable Option

variable {pf : LlmPlatform} {options : LlmContextStoreOptions} {s : InMemoryLlmContextStore}

/-! ### Sweeps -/

theorem contexts_sweep (now : Time) (id : GoString) : (s.sweep options now).contexts[id]? =
      (s.contexts[id]?.map (expire options now)).filter fun entry => !elapsed now entry := by
  rw [sweep, sweepLocked]
  rw [getElem?_filter, getElem?_map]

theorem idempotency_sweep (now : Time) (key : GoString) : (s.sweep options now).idempotency[key]? =
      s.idempotency[key]?.filter fun outcome => !forgotten now outcome :=
  getElem?_filter _ _ _

variable {id : GoString} {entry : LlmContextEntry} {now : Time} {key : GoString} {outcome : LlmIdempotencyEntry}
  {request : LlmContextMutationRequest} {r : LlmContextMutationReservation} {reservationID : GoString}
  {e : LlmContextEntry} {factory : Nat → Except GoString GoString} {assistantResult : LlmMessageDto}

/-- A context that is stored after a sweep was stored before it, and only its lifetime may have changed. -/
theorem of_contexts_sweep (h : (s.sweep options now).contexts[id]? = some entry) :
    ∃ before, s.contexts[id]? = some before ∧ entry = expire options now before := by
  rw [contexts_sweep, filter_eq_some_iff, map_eq_some_iff] at h
  obtain ⟨⟨before, hbefore, rfl⟩, -⟩ := h
  exact ⟨before, hbefore, rfl⟩

theorem expire_eq (options : LlmContextStoreOptions) (now : Time) (entry : LlmContextEntry) :
    ∃ state expiresAt tombstoneUntil, expire options now entry =
      { entry with state := state, expiresAt := expiresAt, tombstoneUntil := tombstoneUntil } ∧
      (state = entry.state ∨ state = .expired) := by
  rw [expire]
  split_ifs
  · exact ⟨_, _, _, rfl, .inr rfl⟩
  · exact ⟨entry.state, entry.expiresAt, entry.tombstoneUntil, rfl, .inl rfl⟩

theorem contexts_sweep_held (h : s.contexts[id]? = some entry) (hheld : entry.reservationID ≠ [])
    (hactive : entry.state = .active) : (s.sweep options now).contexts[id]? = some entry := by
  have hexpire : expire options now entry = entry := by
    rw [expire]
    simp [expires, hheld]
  have helapsed : elapsed now entry = false := by simp [elapsed, hactive]
  rw [contexts_sweep, h, map_some, hexpire, filter_some, helapsed]
  rfl

theorem idempotency_sweep_busy (h : s.idempotency[key]? = some outcome) (hbusy : outcome.state = .busy) :
    (s.sweep options now).idempotency[key]? = some outcome := by
  have hkept : forgotten now outcome = false := by simp [forgotten, hbusy]
  rw [idempotency_sweep, h, filter_some, hkept]
  rfl

/-! ### What is checked -/

theorem of_requireMutable {owner : LlmContextOwner} (h : s.requireMutable owner id = .ok entry) :
    s.contexts[id]? = some entry ∧ entry.owner = owner ∧ entry.state ≠ .expired ∧ entry.state ≠ .released := by
  rw [requireMutable, requireEntry] at h
  cases hentry : s.contexts[id]? with
  | none =>
    rw [hentry] at h
    cases h
  | some found =>
    rw [hentry] at h
    dsimp only at h
    split_ifs at h with howner hexpired hreleased
    cases h
    exact ⟨rfl, not_not.mp howner, hexpired, hreleased⟩

/-- A request that passes its checks names a context exactly if it does not create one. -/
theorem contextID_of_validateRequest (h : validateRequest request = .ok ()) :
    (request.operation = .create → request.contextID = none) ∧
      (request.operation ≠ .create → ∃ id, request.contextID = some id) := by
  unfold validateRequest at h
  simp only [bind, Except.bind, throw, throwThe, MonadExceptOf.throw] at h
  split at h
  · cases h
  split at h
  · cases h
  split at h
  · cases h
  split at h
  · rename_i hcreate
    split at h
    · cases h
    rename_i hlocated
    rw [Bool.or_eq_true, not_or, not_isSome_iff_eq_none] at hlocated
    exact ⟨fun _ => hlocated.1, fun hne => absurd hcreate hne⟩
  · rename_i hcreate
    split at h
    · cases h
    rename_i hunlocated
    rw [Bool.or_eq_true, not_or, Bool.not_eq_true, isNone_eq_false_iff, isSome_iff_exists] at hunlocated
    exact ⟨fun heq => absurd heq hcreate, fun _ => hunlocated.1⟩

/-- The reservation of a request that was admitted. -/
structure Admitted (s : InMemoryLlmContextStore) (reservationID : GoString)
    (r : LlmContextMutationReservation) : Prop where
  name : r.reservationID = reservationID
  vacant : s.idempotency[completionKey r.request]? = none
  created : r.request.operation = .create → r.request.contextID = none
  idle : r.request.operation ≠ .create → ∃ id entry, r.request.contextID = some id ∧
    s.contexts[id]? = some entry ∧ entry.owner = r.request.owner ∧ entry.state ≠ .expired ∧
    entry.state ≠ .released ∧ entry.reservationID = [] ∧ r.request.baseVersion = some entry.version ∧
    r.baseTranscript = entry.transcript

theorem of_admitMutation (h : s.admitMutation pf options request reservationID now entry = .ok r) :
    r.reservationID = reservationID ∧ r.request = request ∧ r.baseTranscript = entry.transcript ∧
      entry.reservationID = [] ∧ request.baseVersion = some entry.version := by
  unfold admitMutation at h
  simp only [bind, Except.bind, throw, throwThe, MonadExceptOf.throw] at h
  split at h
  · cases h
  rename_i hcurrent
  rw [not_or, not_not, not_not] at hcurrent
  split at h
  · cases h
  have hnew : ∃ ttl parentID parentVersion,
      newReservation pf request reservationID entry.transcript ttl parentID parentVersion = r := by
    split_ifs at h
    · split at h
      · cases h
      · exact ⟨_, _, _, Except.ok.inj h⟩
    · exact ⟨_, _, _, Except.ok.inj h⟩
  obtain ⟨_, _, _, rfl⟩ := hnew
  exact ⟨rfl, rfl, rfl, hcurrent.1, hcurrent.2.symm⟩

theorem admitted (h : s.admission pf options request reservationID now = .ok r) :
    r.request = request ∧ Admitted s reservationID r := by
  unfold admission at h
  simp only [bind, Except.bind] at h
  split at h
  · cases h
  rename_i hvalid
  obtain ⟨hcreated, hlocated⟩ := contextID_of_validateRequest hvalid
  split at h
  · cases h
  split at h
  · cases h
  rename_i hknown
  have hvacant := not_isSome_iff_eq_none.mp hknown
  split at h
  · rename_i hcreate
    split at h
    · cases h
    · cases h
      exact ⟨rfl, rfl, hvacant, hcreated, fun hne => absurd hcreate hne⟩
  · rename_i hcreate
    obtain ⟨id, hid⟩ := hlocated hcreate
    rw [hid] at h
    split at h
    · cases h
    rename_i entry hentry
    obtain ⟨hstored, howner, hexpired, hreleased⟩ := of_requireMutable hentry
    obtain ⟨hname, rfl, hbase, hidle, hversion⟩ := of_admitMutation h
    exact ⟨rfl, hname, hvacant, hcreated, fun _ =>
      ⟨id, entry, hid, hstored, howner, hexpired, hreleased, hidle, hversion, hbase⟩⟩

/-! ### What holds in every state -/

def Settled (entry : LlmContextEntry) : Prop :=
  entry.state = .active ∨ entry.state = .expired ∨ entry.state = .released

/-- The context a reservation is for, as it was reserved. -/
structure HeldFor (s : InMemoryLlmContextStore) (r : LlmContextMutationReservation) (id : GoString)
    (entry : LlmContextEntry) : Prop where
  located : r.request.contextID = some id
  stored : s.contexts[id]? = some entry
  active : entry.state = .active
  held : entry.reservationID = r.reservationID
  owner : entry.owner = r.request.owner
  version : r.request.baseVersion = some entry.version
  transcript : r.baseTranscript = entry.transcript

structure Coherent (s : InMemoryLlmContextStore) : Prop where
  stored : ∀ {id : GoString} {e : LlmContextEntry}, s.contexts[id]? = some e →
    e.contextID = id ∧ Settled e
  named : ∀ {id : GoString} {r : LlmContextMutationReservation}, s.reservations[id]? = some r →
    r.reservationID = id ∧ id ≠ []
  busy : ∀ {id : GoString} {r : LlmContextMutationReservation}, s.reservations[id]? = some r →
    ∃ outcome, s.idempotency[completionKey r.request]? = some outcome ∧ outcome.state = .busy ∧
      outcome.reservationID = id
  holds : ∀ {id : GoString} {r : LlmContextMutationReservation}, s.reservations[id]? = some r →
    allocates r.request.operation = false → ∃ id e, HeldFor s r id e
  held : ∀ {id : GoString} {e : LlmContextEntry}, s.contexts[id]? = some e → e.reservationID ≠ [] →
    ∃ r, s.reservations[e.reservationID]? = some r ∧ allocates r.request.operation = false ∧
      r.request.contextID = some id

theorem coherent_empty : Coherent {} where
  stored h := absurd h (by simp)
  named h := absurd h (by simp)
  busy h := absurd h (by simp)
  holds h := absurd h (by simp)
  held h := absurd h (by simp)

theorem Coherent.sweep (h : Coherent s) (now : Time) : Coherent (s.sweep options now) where
  stored hentry := by
    obtain ⟨before, hbefore, rfl⟩ := of_contexts_sweep hentry
    obtain ⟨state, expiresAt, tombstoneUntil, heq, hstate⟩ := expire_eq options now before
    rw [heq]
    refine ⟨(h.stored hbefore).1, ?_⟩
    rcases hstate with rfl | rfl
    · exact (h.stored hbefore).2
    · exact .inr (.inl rfl)
  named := h.named
  busy hr := by
    obtain ⟨outcome, houtcome, hbusy, hname⟩ := h.busy hr
    exact ⟨outcome, idempotency_sweep_busy houtcome hbusy, hbusy, hname⟩
  holds hr halloc := by
    obtain ⟨id, entry, hheld⟩ := h.holds hr halloc
    have hne : entry.reservationID ≠ [] := by
      rw [hheld.held, (h.named hr).1]
      exact (h.named hr).2
    exact ⟨id, entry, { hheld with stored := contexts_sweep_held hheld.stored hne hheld.active }⟩
  held hentry hne := by
    obtain ⟨before, hbefore, rfl⟩ := of_contexts_sweep hentry
    obtain ⟨state, expiresAt, tombstoneUntil, heq, -⟩ := expire_eq options now before
    rw [heq] at hne ⊢
    exact h.held (e := before) hbefore hne

/-- A reservation is taken under a name that is not in use. -/
theorem contexts_hold {retainUntil : Time} (hid : r.request.contextID = some id)
    (hentry : s.contexts[id]? = some entry) (halloc : allocates r.request.operation = false) (i : GoString) :
    (s.hold r retainUntil).contexts[i]? =
      if id = i then some { entry with reservationID := r.reservationID } else s.contexts[i]? := by
  simp only [hold, hid, bind_some, hentry, halloc]
  exact getElem?_insert _ _ _ _

theorem contexts_hold_allocates {retainUntil : Time} (halloc : allocates r.request.operation = true) :
    (s.hold r retainUntil).contexts = s.contexts := by
  simp only [hold, halloc]
  split <;> rfl

theorem not_create_of_not_allocates {operation : LlmContextOperation} (h : allocates operation = false) :
    operation ≠ .create := by
  rintro rfl
  cases h

/-- Two reservations that are both unresolved have different keys. -/
theorem Coherent.completionKey_ne (h : Coherent s) {id id' : GoString}
    {r r' : LlmContextMutationReservation} (hr : s.reservations[id]? = some r)
    (hr' : s.reservations[id']? = some r') (hne : id ≠ id') : completionKey r.request ≠ completionKey r'.request := by
  intro hkey
  obtain ⟨outcome, houtcome, -, hid⟩ := h.busy hr
  obtain ⟨outcome', houtcome', -, hid'⟩ := h.busy hr'
  rw [hkey, houtcome'] at houtcome
  cases houtcome
  exact hne (hid.symm.trans hid')

theorem Coherent.hold (h : Coherent s) (hadmitted : Admitted s reservationID r) (hne : reservationID ≠ [])
    (hfresh : s.reservations[reservationID]? = none) (retainUntil : Time) : Coherent (s.hold r retainUntil) := by
  obtain ⟨rfl, hvacant, -, hidle⟩ := hadmitted
  have hreservations : ∀ i : GoString, (s.hold r retainUntil).reservations[i]? =
      if r.reservationID = i then some r else s.reservations[i]? := fun i =>
    getElem?_insert _ _ _ _
  have houtcomes : ∀ key : GoString, completionKey r.request ≠ key →
      (s.hold r retainUntil).idempotency[key]? = s.idempotency[key]? := fun key hkey => by
    rw [InMemoryLlmContextStore.hold, getElem?_insert, if_neg hkey]
  have hkept : ∀ {id : GoString} {e : LlmContextEntry}, s.contexts[id]? = some e → e.reservationID ≠ [] →
      (s.hold r retainUntil).contexts[id]? = some e := by
    intro id e he hheld
    cases halloc : allocates r.request.operation with
    | true => rwa [contexts_hold_allocates halloc]
    | false =>
      obtain ⟨id', e', hid', he', -, -, -, hfree, -⟩ := hidle (not_create_of_not_allocates halloc)
      rw [contexts_hold hid' he' halloc, if_neg, he]
      rintro rfl
      rw [he'] at he
      cases he
      exact hheld hfree
  constructor
  · intro id e he
    cases halloc : allocates r.request.operation with
    | true =>
      rw [contexts_hold_allocates halloc] at he
      exact h.stored he
    | false =>
      obtain ⟨id', e', hid', he', -⟩ := hidle (not_create_of_not_allocates halloc)
      rw [contexts_hold hid' he' halloc] at he
      split_ifs at he with heq
      · cases he
        subst heq
        exact h.stored (e := e') he'
      · exact h.stored he
  · intro id r' hr'
    rw [hreservations] at hr'
    split_ifs at hr' with heq
    · cases hr'
      exact ⟨heq, heq ▸ hne⟩
    · exact h.named hr'
  · intro id r' hr'
    rw [hreservations] at hr'
    split_ifs at hr' with heq
    · cases hr'
      subst heq
      exact ⟨_, getElem?_insert_self _ _ _, rfl, rfl⟩
    · obtain ⟨outcome, houtcome, hbusy⟩ := h.busy hr'
      refine ⟨outcome, ?_, hbusy⟩
      rw [houtcomes, houtcome]
      intro hkey
      rw [← hkey, hvacant] at houtcome
      cases houtcome
  · intro id r' hr' halloc
    rw [hreservations] at hr'
    split_ifs at hr' with heq
    · cases hr'
      obtain ⟨id', e', hid', he', howner, hexpired, hreleased, -, hversion, htranscript⟩ :=
        hidle (not_create_of_not_allocates halloc)
      have hactive : e'.state = .active := by
        rcases (h.stored he').2 with hstate | hstate | hstate
        · exact hstate
        · exact absurd hstate hexpired
        · exact absurd hstate hreleased
      refine ⟨id', { e' with reservationID := r.reservationID }, hid', ?_, hactive, rfl, howner, hversion,
        htranscript⟩
      rw [contexts_hold hid' he' halloc, if_pos rfl]
    · obtain ⟨i, e, hheld⟩ := h.holds hr' halloc
      have hname := h.named hr'
      refine ⟨i, e, { hheld with stored := hkept hheld.stored ?_ }⟩
      rw [hheld.held, hname.1]
      exact hname.2
  · intro id e he hheld
    have hbefore : s.contexts[id]? = some e → ∃ r', (s.hold r retainUntil).reservations[e.reservationID]? =
        some r' ∧ allocates r'.request.operation = false ∧ r'.request.contextID = some id := by
      intro he
      obtain ⟨r', hr', hfacts⟩ := h.held he hheld
      refine ⟨r', ?_, hfacts⟩
      rw [hreservations, if_neg, hr']
      intro heq
      rw [← heq, hfresh] at hr'
      cases hr'
    cases halloc : allocates r.request.operation with
    | true =>
      rw [contexts_hold_allocates halloc] at he
      exact hbefore he
    | false =>
      obtain ⟨id', e', hid', he', -⟩ := hidle (not_create_of_not_allocates halloc)
      rw [contexts_hold hid' he' halloc] at he
      split_ifs at he with heq
      · cases he
        subst heq
        refine ⟨r, ?_, halloc, hid'⟩
        rw [hreservations, if_pos rfl]
      · exact hbefore he

/-- What resolving a reservation may do to the contexts: the one it held is let go, and a new one is not
held. -/
theorem Coherent.resolve (h : Coherent s) (hr : s.reservations[id]? = some r) {contexts : GoTable LlmContextEntry}
    (hold : ∀ {i : GoString} {e : LlmContextEntry}, s.contexts[i]? = some e → e.reservationID ≠ [] →
      e.reservationID ≠ id → contexts[i]? = some e)
    (hnew : ∀ {i : GoString} {e : LlmContextEntry}, contexts[i]? = some e →
      (s.contexts[i]? = some e ∧ e.reservationID ≠ id) ∨ (e.contextID = i ∧ Settled e ∧ e.reservationID = [])) :
    Coherent {
        contexts := contexts
        idempotency := s.idempotency.insert (completionKey r.request) outcome
        reservations := s.reservations.erase id } := by
  have hothers : ∀ {id' : GoString} {r' : LlmContextMutationReservation},
      (s.reservations.erase id)[id']? = some r' → id ≠ id' ∧ s.reservations[id']? = some r' := by
    intro id' r' hr'
    rw [getElem?_erase] at hr'
    split_ifs at hr' with heq
    exact ⟨heq, hr'⟩
  constructor
  · intro i e he
    rcases hnew he with ⟨hold, -⟩ | ⟨hid, hsettled, -⟩
    · exact h.stored hold
    · exact ⟨hid, hsettled⟩
  · intro id' r' hr'
    exact h.named (hothers hr').2
  · intro id' r' hr'
    obtain ⟨hne, hr'⟩ := hothers hr'
    obtain ⟨outcome', houtcome', hbusy⟩ := h.busy hr'
    refine ⟨outcome', ?_, hbusy⟩
    rw [getElem?_insert, if_neg (h.completionKey_ne hr hr' hne), houtcome']
  · intro id' r' hr' halloc
    obtain ⟨hne, hr'⟩ := hothers hr'
    obtain ⟨i, e, hheld⟩ := h.holds hr' halloc
    have hname := h.named hr'
    refine ⟨i, e, { hheld with stored := hold hheld.stored ?_ ?_ }⟩
    · rw [hheld.held, hname.1]
      exact hname.2
    · rw [hheld.held, hname.1]
      exact hne.symm
  · intro i e he hheld
    rcases hnew he with ⟨hbefore, hne⟩ | ⟨-, -, hidle⟩
    · obtain ⟨r', hr', halloc, hlocated⟩ := h.held hbefore hheld
      refine ⟨r', ?_, halloc, hlocated⟩
      rw [getElem?_erase, if_neg hne.symm, hr']
    · exact absurd hidle hheld

/-- An entry that nothing holds is replaced by one that nothing holds, and a new outcome is retained. -/
theorem Coherent.retire (h : Coherent s) {id key : GoString} (hstored : s.contexts[id]? = some e)
    (hidle : e.reservationID = []) (hvacant : s.idempotency[key]? = none) (baseVersion : UInt64)
    (receipt : LlmContextReceiptDto) (tombstoneUntil retainUntil : Time) :
    Coherent (s.retire key id e baseVersion receipt tombstoneUntil retainUntil) := by
  have hcontexts : ∀ i : GoString,
      (s.retire key id e baseVersion receipt tombstoneUntil retainUntil).contexts[i]? =
        if id = i then some { e with version := e.version + 1, state := .released, expiresAt := none,
                                     tombstoneUntil := some tombstoneUntil }
        else s.contexts[i]? := fun i => getElem?_insert _ _ _ _
  constructor
  · intro i e' he'
    rw [hcontexts] at he'
    split_ifs at he' with heq
    · cases he'
      exact ⟨heq ▸ (h.stored hstored).1, .inr (.inr rfl)⟩
    · exact h.stored he'
  · exact h.named
  · intro id' r hr
    obtain ⟨outcome, houtcome, hbusy⟩ := h.busy hr
    refine ⟨outcome, ?_, hbusy⟩
    rw [InMemoryLlmContextStore.retire, getElem?_insert, if_neg, houtcome]
    intro hkey
    rw [← hkey, hvacant] at houtcome
    cases houtcome
  · intro id' r hr halloc
    obtain ⟨i, e', hheld⟩ := h.holds hr halloc
    refine ⟨i, e', { hheld with stored := ?_ }⟩
    rw [hcontexts, if_neg, hheld.stored]
    rintro rfl
    have hsame := hheld.stored
    rw [hstored] at hsame
    cases hsame
    exact (h.named hr).2 ((h.named hr).1.symm.trans (hheld.held.symm.trans hidle))
  · intro i e' he' hheld
    rw [hcontexts] at he'
    split_ifs at he' with heq
    · cases he'
      exact absurd hidle hheld
    · exact h.held he' hheld

/-! ### What the calls do -/

theorem of_requireReservation {ref : Option ReservationRef} (h : s.requireReservation ref = .ok r) :
    ∃ id, ref = some { reservationID := id } ∧ s.reservations[id]? = some r := by
  unfold requireReservation at h
  split at h
  · cases h
  rename_i ref
  split at h
  · rename_i current hcurrent
    split_ifs at h with hcopied
    cases h
    refine ⟨ref.reservationID, ?_, hcurrent⟩
    rw [Bool.not_eq_true] at hcopied
    rw [← hcopied]
  · cases h

/-- What a new transcript begins with. -/
def base (r : LlmContextMutationReservation) : List LlmMessageDto :=
  if r.request.operation = .create ∨ r.request.operation = .reset then [] else r.baseTranscript

/-- The entry a commit stores: that of a new context, or the next version of the one that was held. -/
structure Commits (s : InMemoryLlmContextStore) (r : LlmContextMutationReservation)
    (assistantResult : LlmMessageDto) (key : GoString) (e : LlmContextEntry) : Prop where
  located : e.contextID = key
  owner : e.owner = r.request.owner
  active : e.state = .active
  idle : e.reservationID = []
  transcript : e.transcript = base r ++ r.request.messages ++ [assistantResult]
  version : (allocates r.request.operation = true ∧ s.contexts[key]? = none ∧ e.version = 1) ∨
    allocates r.request.operation = false ∧ ∃ before, HeldFor s r key before ∧
      e.version = before.version + 1

theorem not_stored_of_nextContextID {attempts : Nat} (h : s.nextContextID factory attempts = .ok id) :
    s.contexts[id]? = none := by
  induction attempts with
  | zero => cases h
  | succ attempts ih =>
    rw [nextContextID] at h
    split at h
    · cases h
    split at h
    · cases h
    split at h
    · rename_i hnone
      cases h
      exact hnone
    · exact ih h

theorem base_of_allocates (halloc : allocates r.request.operation = true) :
    (if r.request.operation = .fork then r.baseTranscript else []) = base r := by
  rw [allocates, Bool.or_eq_true, decide_eq_true_iff, decide_eq_true_iff] at halloc
  rcases halloc with hcreate | hfork
  · simp [base, hcreate]
  · simp [base, hfork]

theorem Coherent.commits (h : Coherent s) (hr : s.reservations[id]? = some r) {expiry : Option Time}
    (hc : s.committed r assistantResult factory expiry = .ok (key, e)) : Commits s r assistantResult key e := by
  unfold committed at hc
  dsimp only at hc
  cases halloc : allocates r.request.operation with
  | true =>
    rw [halloc, if_pos rfl] at hc
    split at hc
    · cases hc
    rename_i contextID hid
    cases hc
    exact ⟨rfl, rfl, rfl, rfl, by rw [← base_of_allocates halloc],
      .inl ⟨halloc, not_stored_of_nextContextID hid, rfl⟩⟩
  | false =>
    obtain ⟨i, before, hheld⟩ := h.holds hr halloc
    rw [halloc, if_neg Bool.false_ne_true, hheld.located, getD_some, requireEntry, hheld.stored] at hc
    have hlocated := (h.stored hheld.stored).1
    split_ifs at hc with hreset
    · cases hc
      refine ⟨hlocated, hheld.owner, rfl, rfl, ?_, .inr ⟨halloc, before, hheld, rfl⟩⟩
      rw [base, if_pos (.inr hreset), List.nil_append]
    · cases hc
      refine ⟨hlocated, hheld.owner, rfl, rfl, ?_, .inr ⟨halloc, before, hheld, rfl⟩⟩
      rw [base, if_neg (not_or.mpr ⟨not_create_of_not_allocates halloc, hreset⟩), hheld.transcript]

/-- The commit of a reservation that holds a context succeeds. -/
theorem Coherent.exists_committed (h : Coherent s) (hr : s.reservations[id]? = some r)
    (halloc : allocates r.request.operation = false) (assistantResult : LlmMessageDto)
    (factory : Nat → Except GoString GoString) (expiry : Option Time) :
    ∃ key e, s.committed r assistantResult factory expiry = .ok (key, e) := by
  obtain ⟨i, before, hheld⟩ := h.holds hr halloc
  unfold committed
  dsimp only
  rw [halloc, hheld.located, getD_some, requireEntry, hheld.stored]
  exact ⟨_, _, rfl⟩

variable (pf options s) in
/-- A commit fails and leaves the store as it is, or settles its reservation. -/
theorem commit_cases (ref : Option ReservationRef) (assistantResult : LlmMessageDto)
    (factory : Nat → Except GoString GoString) (clock : Readings) :
    (∃ err, s.commit pf options ref assistantResult factory clock = (.error err, s)) ∨
      ∃ r expiry key e receipt, s.requireReservation ref = .ok r ∧
        s.committed r assistantResult factory expiry = .ok (key, e) ∧
        receipt.contextID = e.contextID ∧ receipt.version = e.version ∧
        s.commit pf options ref assistantResult factory clock =
          (.ok receipt, s.settle r key e receipt (clock.second + options.idempotencyTTL)) := by
  unfold commit
  split
  · exact .inl ⟨_, rfl⟩
  rename_i r hr
  dsimp only
  split
  · exact .inl ⟨_, rfl⟩
  · rename_i key e he
    exact .inr ⟨r, _, key, e, _, hr, he, rfl, rfl, rfl⟩

variable (options s) in
theorem abort_cases (ref : Option ReservationRef) (errorCode : GoString) (clock : Readings) :
    (∃ err, s.abort options ref errorCode clock = (.error err, s)) ∨ ∃ r, s.requireReservation ref = .ok r ∧
        s.abort options ref errorCode clock =
          (.ok (), (s.drop r errorCode (clock.first + options.idempotencyTTL)).sweep options clock.second) := by
  unfold abort
  split
  · exact .inl ⟨_, rfl⟩
  · rename_i r hr
    exact .inr ⟨r, hr, rfl⟩

variable (pf options s) in
theorem reserve_cases (request : LlmContextMutationRequest) (reservationID : GoString) (clock : Readings) :
    (∃ err, s.reserve pf options request reservationID clock = (.error err, s.sweep options clock.first)) ∨
      ∃ r, (s.sweep options clock.first).admission pf options request reservationID clock.second = .ok r ∧
        s.reserve pf options request reservationID clock =
          (.ok r, (s.sweep options clock.first).hold r (clock.third + options.idempotencyTTL)) := by
  unfold reserve
  dsimp only
  split
  · exact .inl ⟨_, rfl⟩
  · rename_i r hr
    exact .inr ⟨r, hr, rfl⟩

variable (pf options s) in
/-- A release fails, repeats the receipt of an earlier one, or retires its context. -/
theorem release_cases (owner : LlmContextOwner) (contextID : GoString) (baseVersion : UInt64)
    (idempotencyKey : GoString) (clock : Readings) : let swept := s.sweep options clock.first
    let key := ownerKey owner llmContextReleaseActionID idempotencyKey
    let result := s.release pf options owner contextID baseVersion idempotencyKey clock
    (∃ err, result = (.error err, swept)) ∨
      (∃ prior receipt, swept.idempotency[key]? = some prior ∧ result = (.ok receipt, swept)) ∨
      ∃ e receipt, swept.idempotency[key]? = none ∧ swept.contexts[contextID]? = some e ∧
        e.owner = owner ∧ e.reservationID = [] ∧ e.version = baseVersion ∧
        result = (.ok receipt, swept.retire key contextID e baseVersion receipt
          (clock.second + seconds options.tombstoneSeconds) (clock.third + options.idempotencyTTL)) := by
  intro swept key result
  have hresult : result = s.release pf options owner contextID baseVersion idempotencyKey clock := rfl
  rw [release] at hresult
  cases hlocked : swept.releaseLocked pf options owner contextID baseVersion idempotencyKey clock with
  | error err =>
    rw [hlocked] at hresult
    exact .inl ⟨err, hresult⟩
  | ok released =>
    rw [hlocked] at hresult
    unfold releaseLocked at hlocked
    simp only [bind, Except.bind, throw, throwThe, MonadExceptOf.throw] at hlocked
    split at hlocked
    · cases hlocked
    split at hlocked
    · cases hlocked
    split at hlocked
    · cases hlocked
    split at hlocked
    · rename_i prior hprior
      split at hlocked
      · cases hlocked
        exact .inr (.inl ⟨prior, _, hprior, hresult⟩)
      · cases hlocked
    · rename_i hvacant
      split at hlocked
      · cases hlocked
      rename_i e he
      split at hlocked
      · cases hlocked
      rename_i hcurrent
      rw [not_or, not_not, not_not] at hcurrent
      cases hlocked
      obtain ⟨hstored, howner, -⟩ := of_requireMutable he
      exact .inr (.inr ⟨e, _, hvacant, hstored, howner, hcurrent.1, hcurrent.2, hresult⟩)

/-! ### One call -/

theorem clearReservation_held {i : GoString} (h : HeldFor s r i e) :
    s.clearReservation r = s.contexts.insert i { e with reservationID := [] } := by
  rw [clearReservation, h.located]
  dsimp only
  rw [h.stored]
  exact if_pos h.held

section

variable (h : Coherent s) (hr : s.reservations[id]? = some r)
include h hr

/-- A reservation that makes a new context holds none. -/
theorem Coherent.reservationID_ne {i : GoString}
    (he : s.contexts[i]? = some e) (hother : allocates r.request.operation = true ∨ r.request.contextID ≠ some i) :
    e.reservationID ≠ id := by
  rintro rfl
  obtain ⟨r', hr', halloc, hlocated⟩ := h.held he (h.named hr).2
  rw [hr] at hr'
  cases hr'
  rcases hother with htrue | hne
  · rw [halloc] at htrue
    cases htrue
  · exact hne hlocated

/-- A reservation is resolved and an entry that nothing holds is stored: for a new context, or in place of
the one that was held. -/
theorem Coherent.resolve_insert (hlocated : e.contextID = key)
    (hsettled : Settled e) (hidle : e.reservationID = [])
    (hplace : (allocates r.request.operation = true ∧ s.contexts[key]? = none) ∨ ∃ before, HeldFor s r key before)
    (outcome : LlmIdempotencyEntry) : Coherent {
        contexts := s.contexts.insert key e
        idempotency := s.idempotency.insert (completionKey r.request) outcome
        reservations := s.reservations.erase id } := by
  have hname := (h.named hr).1
  refine h.resolve hr ?_ ?_
  · intro i e' he' _ hne
    rw [getElem?_insert, if_neg, he']
    rintro rfl
    rcases hplace with ⟨-, hnone⟩ | ⟨before, hheld⟩
    · rw [hnone] at he'
      cases he'
    have hsame := hheld.stored
    rw [he'] at hsame
    cases hsame
    exact hne (hheld.held.trans hname)
  · intro i e' he'
    rw [getElem?_insert] at he'
    split_ifs at he' with heq
    · cases he'
      subst heq
      exact .inr ⟨hlocated, hsettled, hidle⟩
    · refine .inl ⟨he', h.reservationID_ne hr he' ?_⟩
      rcases hplace with ⟨halloc, -⟩ | ⟨before, hheld⟩
      · exact .inl halloc
      · rw [hheld.located]
        exact .inr fun hsome => heq (Option.some.inj hsome)

theorem Coherent.settle (hc : Commits s r assistantResult key e) (receipt : LlmContextReceiptDto) (retainUntil : Time) :
    Coherent (s.settle r key e receipt retainUntil) := by
  rw [InMemoryLlmContextStore.settle, (h.named hr).1]
  refine h.resolve_insert hr hc.located (.inl hc.active) hc.idle ?_ _
  rcases hc.version with ⟨halloc, hnone, -⟩ | ⟨-, before, hheld, -⟩
  · exact .inl ⟨halloc, hnone⟩
  · exact .inr ⟨before, hheld⟩

theorem Coherent.clearReservation_allocates (halloc : allocates r.request.operation = true) :
    s.clearReservation r = s.contexts := by
  rw [clearReservation]
  split
  · rfl
  split
  · rfl
  · rename_i e he
    rw [(h.named hr).1, if_neg (h.reservationID_ne hr he (.inl halloc))]

theorem Coherent.drop (errorCode : GoString) (retainUntil : Time) : Coherent (s.drop r errorCode retainUntil) := by
  rw [InMemoryLlmContextStore.drop, (h.named hr).1]
  cases halloc : allocates r.request.operation with
  | true =>
    rw [h.clearReservation_allocates hr halloc]
    refine h.resolve hr (fun he _ _ => he) fun he => .inl ⟨he, ?_⟩
    exact h.reservationID_ne hr he (.inl halloc)
  | false =>
    obtain ⟨i, e, hheld⟩ := h.holds hr halloc
    rw [clearReservation_held hheld]
    exact h.resolve_insert hr (e := { e with reservationID := [] }) (h.stored hheld.stored).1
      (.inl hheld.active) rfl (.inr ⟨e, hheld⟩) _

end

def Event.sweeps : Event → List Time
  | .reserve _ _ clock => [clock.first]
  | .commit .. => []
  | .abort _ _ clock => [clock.second]
  | .release _ _ _ _ clock => [clock.first]
  | .status _ _ _ now => [now]
  | .snapshot _ _ now => [now]
  | .sweepExpired now => [now]

variable (pf options s) in
/-- What a call can do to the store. -/
inductive Moves : Event → InMemoryLlmContextStore → Prop
  | same {event : Event} : Moves event s
  | sweep {event : Event} {now : Time} (hnow : now ∈ event.sweeps) : Moves event (s.sweep options now)
  | hold {request : LlmContextMutationRequest} {reservationID : GoString} {clock : Readings}
      {r : LlmContextMutationReservation}
      (hr : (s.sweep options clock.first).admission pf options request reservationID clock.second = .ok r) :
      Moves (.reserve request reservationID clock)
        ((s.sweep options clock.first).hold r (clock.third + options.idempotencyTTL))
  | settle {ref : Option ReservationRef} {assistantResult : LlmMessageDto} {factory : Nat → Except GoString GoString}
      {clock : Readings} {r : LlmContextMutationReservation} {expiry : Option Time} {key : GoString}
      {e : LlmContextEntry} {receipt : LlmContextReceiptDto}
      (hr : s.requireReservation ref = .ok r) (hc : s.committed r assistantResult factory expiry = .ok (key, e)) :
      Moves (.commit ref assistantResult factory clock)
        (s.settle r key e receipt (clock.second + options.idempotencyTTL))
  | drop {ref : Option ReservationRef} {errorCode : GoString} {clock : Readings} {r : LlmContextMutationReservation}
      (hr : s.requireReservation ref = .ok r) :
      Moves (.abort ref errorCode clock)
        ((s.drop r errorCode (clock.first + options.idempotencyTTL)).sweep options clock.second)
  | retire {owner : LlmContextOwner} {id idempotencyKey : GoString} {baseVersion : UInt64} {clock : Readings}
      {e : LlmContextEntry} {receipt : LlmContextReceiptDto}
      (hvacant : (s.sweep options clock.first).idempotency[ownerKey owner llmContextReleaseActionID idempotencyKey]? =
        none) (he : (s.sweep options clock.first).contexts[id]? = some e) (howner : e.owner = owner)
      (hidle : e.reservationID = []) :
      Moves (.release owner id baseVersion idempotencyKey clock)
        ((s.sweep options clock.first).retire (ownerKey owner llmContextReleaseActionID idempotencyKey) id e
          baseVersion receipt (clock.second + seconds options.tombstoneSeconds)
          (clock.third + options.idempotencyTTL))

variable (pf options s) in
theorem call_moves (event : Event) : Moves pf options s event (s.call pf options event).2 := by
  cases event with
  | reserve request reservationID clock =>
    rw [call]
    rcases reserve_cases pf options s request reservationID clock with ⟨err, heq⟩ | ⟨r, hr, heq⟩
    · rw [heq]
      exact .sweep List.mem_cons_self
    · rw [heq]
      exact .hold hr
  | commit ref assistantResult factory clock =>
    rw [call]
    rcases commit_cases pf options s ref assistantResult factory clock with
      ⟨err, heq⟩ | ⟨r, expiry, key, e, receipt, hr, hc, -, -, heq⟩
    · rw [heq]
      exact .same
    · rw [heq]
      exact .settle hr hc
  | abort ref errorCode clock =>
    rw [call]
    rcases abort_cases options s ref errorCode clock with ⟨err, heq⟩ | ⟨r, hr, heq⟩
    · rw [heq]
      exact .same
    · rw [heq]
      exact .drop hr
  | release owner contextID baseVersion idempotencyKey clock =>
    rw [call]
    rcases release_cases pf options s owner contextID baseVersion idempotencyKey clock with
      ⟨err, heq⟩ | ⟨prior, receipt, -, heq⟩ | ⟨e, receipt, hvacant, he, howner, hidle, -, heq⟩
    · rw [heq]
      exact .sweep List.mem_cons_self
    · rw [heq]
      exact .sweep List.mem_cons_self
    · rw [heq]
      exact .retire hvacant he howner hidle
  | status | snapshot | sweepExpired => exact .sweep List.mem_cons_self

/-- The names the surroundings supply are not in use. -/
def Fresh (s : InMemoryLlmContextStore) : Event → Prop
  | .reserve _ reservationID _ => reservationID ≠ [] ∧ s.reservations[reservationID]? = none
  | _ => True

theorem Coherent.call (h : Coherent s) {event : Event} (hfresh : Fresh s event) :
    Coherent (s.call pf options event).2 := by
  have hmoves := call_moves pf options s event
  generalize (s.call pf options event).2 = s' at hmoves
  cases hmoves with
  | same => exact h
  | sweep _ => exact h.sweep _
  | hold hr => exact (h.sweep _).hold (admitted hr).2 hfresh.1 hfresh.2 _
  | settle hr hc =>
    obtain ⟨id, -, hstored⟩ := of_requireReservation hr
    exact h.settle hstored (h.commits hstored hc) _ _
  | drop hr =>
    obtain ⟨id, -, hstored⟩ := of_requireReservation hr
    exact (h.drop hstored _ _).sweep _
  | retire hvacant he _ hidle => exact (h.sweep _).retire he hidle hvacant _ _ _ _

end NpsSdk.Nwp.InMemoryLlmContextStore
