import NpsSdk.NwpLlmContextRuns

/-! Isolation of the owners of the context store. A call for one owner leaves the part of the store that is
another's as the clock alone would leave it, and its answer is the same whatever that part holds. Both rest
on the keys of outcomes, which begin with the owner's names, and on the owner being checked before an
entry is used. -/

namespace NpsSdk.Nwp

open GoTable Option

/-- The names of the owner do not contain U+001F. -/
def LlmContextOwner.Plain (owner : LlmContextOwner) : Prop :=
  GoRune.char '\x1f' ∉ owner.nid ∧ GoRune.char '\x1f' ∉ owner.securityScope

instance (owner : LlmContextOwner) : Decidable owner.Plain :=
  inferInstanceAs (Decidable (_ ∧ _))

/-- What comes before the first separator is determined. -/
theorem append_cons_inj {α : Type} {separator : α} {l l' rest rest' : List α} (hl : separator ∉ l)
    (hl' : separator ∉ l') (h : l ++ separator :: rest = l' ++ separator :: rest') : l = l' ∧ rest = rest' := by
  induction l generalizing l' with
  | nil =>
    cases l' with
    | nil => exact ⟨rfl, (List.cons.inj h).2⟩
    | cons x l' => exact absurd ((List.cons.inj h).1 ▸ List.mem_cons_self) hl'
  | cons x l ih =>
    cases l' with
    | nil => exact absurd ((List.cons.inj h).1 ▸ List.mem_cons_self) hl
    | cons x' l' =>
      obtain ⟨rfl, htail⟩ := List.cons.inj h
      obtain ⟨rfl, hrest⟩ := ih (fun hmem => hl (List.mem_cons_of_mem _ hmem))
        (fun hmem => hl' (List.mem_cons_of_mem _ hmem)) htail
      exact ⟨rfl, hrest⟩

theorem owner_eq_of_ownerKey_eq {owner owner' : LlmContextOwner} (hplain : owner.Plain)
    (hplain' : owner'.Plain) {action action' key key' : GoString}
    (h : ownerKey owner action key = ownerKey owner' action' key') : owner = owner' := by
  simp only [ownerKey, List.append_assoc] at h
  obtain ⟨hnid, hrest⟩ := append_cons_inj hplain.1 hplain'.1 h
  obtain ⟨hscope, -⟩ := append_cons_inj hplain.2 hplain'.2 hrest
  rw [LlmContextOwner.mk.injEq]
  exact ⟨hnid, hscope⟩

namespace InMemoryLlmContextStore

variable {pf : LlmPlatform} {options : LlmContextStoreOptions} {s : InMemoryLlmContextStore}
  {owner other : LlmContextOwner}

/-- The calls made for an owner; one without a valid reservation is made for anybody. -/
def ActsFor (s : InMemoryLlmContextStore) (owner : LlmContextOwner) : Event → Prop
  | .reserve request _ _ => request.owner = owner
  | .commit ref _ _ _ => ∀ r, s.requireReservation ref = .ok r → r.request.owner = owner
  | .abort ref _ _ => ∀ r, s.requireReservation ref = .ok r → r.request.owner = owner
  | .release caller _ _ _ _ => caller = owner
  | .status caller _ _ _ => caller = owner
  | .snapshot caller _ _ => caller = owner
  | .sweepExpired _ => False

/-! ### What a call leaves alone -/

/-- The contexts, reservations and outcomes of an owner are the same in both stores. -/
structure SamePart (owner : LlmContextOwner) (s s' : InMemoryLlmContextStore) : Prop where
  contexts : ∀ id : GoString, (s'.contexts[id]?).filter (·.owner = owner) =
    (s.contexts[id]?).filter (·.owner = owner)
  reservations : ∀ id : GoString, (s'.reservations[id]?).filter (·.request.owner = owner) =
    (s.reservations[id]?).filter (·.request.owner = owner)
  outcomes : ∀ action key : GoString, s'.idempotency[ownerKey owner action key]? =
    s.idempotency[ownerKey owner action key]?

theorem SamePart.refl (owner : LlmContextOwner) (s : InMemoryLlmContextStore) : SamePart owner s s :=
  ⟨fun _ => rfl, fun _ => rfl, fun _ _ => rfl⟩

theorem filter_sweep (owner : LlmContextOwner) (now : Time) (id : GoString) :
    ((s.sweep options now).contexts[id]?).filter (·.owner = owner) =
      (((s.contexts[id]?).filter (·.owner = owner)).map (expire options now)).filter fun e => !elapsed now e := by
  rw [contexts_sweep]
  cases s.contexts[id]? with
  | none => rfl
  | some e =>
    obtain ⟨state, expiresAt, tombstoneUntil, heq, -⟩ := expire_eq options now e
    have howner : (expire options now e).owner = e.owner := by rw [heq]
    by_cases hown : e.owner = owner
    all_goals
      cases helapsed : elapsed now (expire options now e) with
      | true => simp [Option.filter, helapsed, hown]
      | false => simp [Option.filter, helapsed, hown, howner]

variable {s' : InMemoryLlmContextStore} {e : LlmContextEntry}

theorem SamePart.sweep (h : SamePart owner s s') (now : Time) :
    SamePart owner (s.sweep options now) (s'.sweep options now) where
  contexts id := by rw [filter_sweep, filter_sweep, h.contexts id]
  reservations := h.reservations
  outcomes action key := by rw [idempotency_sweep, idempotency_sweep, h.outcomes action key]

theorem filter_owner_insert {contexts : GoTable LlmContextEntry} {key : GoString} (hnew : e.owner ≠ other)
    (hold : ∀ before, contexts[key]? = some before → before.owner ≠ other) (id : GoString) :
    ((contexts.insert key e)[id]?).filter (·.owner = other) = (contexts[id]?).filter (·.owner = other) := by
  rw [getElem?_insert]
  split_ifs with heq
  · subst heq
    cases hbefore : contexts[key]? with
    | none => simp [Option.filter, hnew]
    | some before => simp [Option.filter, hnew, hold before hbefore]
  · rfl

theorem outcome_insert_ne {outcomes : GoTable LlmIdempotencyEntry} {outcome : LlmIdempotencyEntry}
    (howner : owner.Plain) (hother : other.Plain) (hne : owner ≠ other) {action key : GoString}
    (action' key' : GoString) : (outcomes.insert (ownerKey owner action key) outcome)[ownerKey other action' key']? =
      outcomes[ownerKey other action' key']? := by
  rw [getElem?_insert, if_neg fun h => hne (owner_eq_of_ownerKey_eq howner hother h)]

section

variable (howner : owner.Plain) (hother : other.Plain) (hne : owner ≠ other)
include howner hother hne

variable {r : LlmContextMutationReservation} {id : GoString}

theorem samePart_hold (hadmitted : Admitted s id r) (hfresh : s.reservations[id]? = none)
    (hr : r.request.owner = owner) (retainUntil : Time) : SamePart other s (s.hold r retainUntil) where
  contexts i := by
    cases halloc : allocates r.request.operation with
    | true => rw [contexts_hold_allocates halloc]
    | false =>
      obtain ⟨i', e, hi', he, heowner, -⟩ := hadmitted.idle (not_create_of_not_allocates halloc)
      have heother : e.owner ≠ other := by
        rw [heowner, hr]
        exact hne
      rw [contexts_hold hi' he halloc, ← getElem?_insert]
      refine filter_owner_insert (e := { e with reservationID := r.reservationID }) heother
        (fun before hbefore => ?_) i
      rw [he] at hbefore
      cases hbefore
      exact heother
  reservations i := by
    change ((s.reservations.insert r.reservationID r)[i]?).filter _ = _
    rw [getElem?_insert, hadmitted.name]
    split_ifs with heq
    · subst heq
      rw [hfresh]
      have hrother : r.request.owner ≠ other := by
        rw [hr]
        exact hne
      simp [hrother]
    · rfl
  outcomes action key := by
    change (s.idempotency.insert (completionKey r.request) _)[_]? = _
    rw [completionKey, hr]
    exact outcome_insert_ne howner hother hne action key

section

variable (h : Coherent s) (hstored : s.reservations[id]? = some r) (hr : r.request.owner = owner)
include h hstored hr

theorem samePart_resolve
    {contexts : GoTable LlmContextEntry} (hcontexts : ∀ i : GoString, (contexts[i]?).filter (·.owner = other) =
      (s.contexts[i]?).filter (·.owner = other)) (outcome : LlmIdempotencyEntry) : SamePart other s
      { contexts := contexts, idempotency := s.idempotency.insert (completionKey r.request) outcome
        reservations := s.reservations.erase r.reservationID } where
  contexts := hcontexts
  reservations i := by
    rw [getElem?_erase, (h.named hstored).1]
    split_ifs with heq
    · subst heq
      have hrother : r.request.owner ≠ other := by
        rw [hr]
        exact hne
      rw [hstored]
      simp [Option.filter, hrother]
    · rfl
  outcomes action key := by
    rw [completionKey, hr]
    exact outcome_insert_ne howner hother hne action key

theorem samePart_settle {assistantResult : LlmMessageDto} {key : GoString} {e : LlmContextEntry}
    (hc : Commits s r assistantResult key e) (receipt : LlmContextReceiptDto) (retainUntil : Time) :
    SamePart other s (s.settle r key e receipt retainUntil) := by
  have hrother : r.request.owner ≠ other := by
    rw [hr]
    exact hne
  refine samePart_resolve howner hother hne h hstored hr (filter_owner_insert ?_ fun before hbefore => ?_) _
  · rw [hc.owner]
    exact hrother
  · rcases hc.version with ⟨-, hnone, -⟩ | ⟨-, held, hheld, -⟩
    · rw [hnone] at hbefore
      cases hbefore
    rw [hheld.stored] at hbefore
    cases hbefore
    rw [hheld.owner]
    exact hrother

theorem samePart_drop
    (errorCode : GoString) (retainUntil : Time) : SamePart other s (s.drop r errorCode retainUntil) := by
  have hrother : r.request.owner ≠ other := by
    rw [hr]
    exact hne
  refine samePart_resolve howner hother hne h hstored hr (fun i => ?_) _
  cases halloc : allocates r.request.operation with
  | true => rw [h.clearReservation_allocates hstored halloc]
  | false =>
    obtain ⟨i', e, hheld⟩ := h.holds hstored halloc
    have heother : e.owner ≠ other := by
      rw [hheld.owner]
      exact hrother
    rw [clearReservation_held hheld]
    refine filter_owner_insert (e := { e with reservationID := [] }) heother (fun before hbefore => ?_) i
    rw [hheld.stored] at hbefore
    cases hbefore
    exact heother

end

theorem samePart_retire {id idempotencyKey : GoString} {e : LlmContextEntry}
    (hstored : s.contexts[id]? = some e) (heowner : e.owner = owner) (baseVersion : UInt64)
    (receipt : LlmContextReceiptDto) (tombstoneUntil retainUntil : Time) :
    SamePart other s (s.retire (ownerKey owner llmContextReleaseActionID idempotencyKey) id e baseVersion
      receipt tombstoneUntil retainUntil) where
  contexts i := by
    have heother : e.owner ≠ other := by
      rw [heowner]
      exact hne
    refine filter_owner_insert ?_ (fun before hbefore => ?_) i
    · exact heother
    · rw [hstored] at hbefore
      cases hbefore
      exact heother
  reservations _ := rfl
  outcomes action key := outcome_insert_ne howner hother hne action key

/-- After a call for one owner, the part of another is as before, or as a sweep of the call leaves it. -/
theorem samePart_call (h : Coherent s) {event : Event} (hfresh : Fresh s event) (hacts : ActsFor s owner event) :
    SamePart other s (s.call pf options event).2 ∨
      ∃ now ∈ event.sweeps, SamePart other (s.sweep options now) (s.call pf options event).2 := by
  have hmoves := call_moves pf options s event
  generalize (s.call pf options event).2 = s' at hmoves ⊢
  cases hmoves with
  | same => exact .inl (SamePart.refl other s)
  | sweep hnow => exact .inr ⟨_, hnow, SamePart.refl other _⟩
  | hold hr =>
    obtain ⟨rfl, hadmitted⟩ := admitted hr
    exact .inr ⟨_, List.mem_singleton_self _, samePart_hold howner hother hne hadmitted hfresh.2 hacts _⟩
  | @settle _ _ _ _ r _ _ _ _ hr hc =>
    obtain ⟨id, -, hstored⟩ := of_requireReservation hr
    exact .inl (samePart_settle howner hother hne h hstored (hacts r hr) (h.commits hstored hc) _ _)
  | @drop _ _ _ r hr =>
    obtain ⟨id, -, hstored⟩ := of_requireReservation hr
    exact .inr ⟨_, List.mem_singleton_self _,
      (samePart_drop howner hother hne h hstored (hacts r hr) _ _).sweep _⟩
  | retire _ he heowner _ =>
    obtain rfl : _ = owner := hacts
    exact .inr ⟨_, List.mem_singleton_self _, samePart_retire howner hother hne he heowner _ _ _ _⟩

end

/-- The time of the context is over: that of its life while nothing holds it, or that of its tombstone. -/
def Due (now : Time) (e : LlmContextEntry) : Prop :=
  (e.reservationID = [] ∧ ∃ t, e.expiresAt = some t ∧ t ≤ now) ∨ ∃ t, e.tombstoneUntil = some t ∧ t ≤ now

/-- All that is the owner's is as before, unless its time is over at one of the readings of the clock: a
context may then be gone or expired, with its version and content as before, and an outcome may be gone. -/
structure Untouched (owner : LlmContextOwner) (nows : List Time) (s s' : InMemoryLlmContextStore) : Prop where
  contexts : ∀ id : GoString,
    (s'.contexts[id]?).filter (·.owner = owner) = (s.contexts[id]?).filter (·.owner = owner) ∨
      ∃ e, s.contexts[id]? = some e ∧ e.owner = owner ∧ (∃ now ∈ nows, Due now e) ∧
        ∀ e', s'.contexts[id]? = some e' → e'.owner = owner → e'.version = e.version ∧
          e'.transcript = e.transcript ∧ e'.binding = e.binding ∧
          e'.bindingFingerprint = e.bindingFingerprint ∧ e'.reservationID = e.reservationID
  reservations : ∀ id : GoString, (s'.reservations[id]?).filter (·.request.owner = owner) =
    (s.reservations[id]?).filter (·.request.owner = owner)
  outcomes : ∀ action key : GoString,
    s'.idempotency[ownerKey owner action key]? = s.idempotency[ownerKey owner action key]? ∨
      s'.idempotency[ownerKey owner action key]? = none ∧
        ∃ outcome, s.idempotency[ownerKey owner action key]? = some outcome ∧ outcome.state ≠ .busy ∧
          ∃ now ∈ nows, outcome.retainUntil ≤ now

theorem SamePart.untouched (h : SamePart owner s s') (nows : List Time) : Untouched owner nows s s' :=
  ⟨fun id => .inl (h.contexts id), h.reservations, fun action key => .inl (h.outcomes action key)⟩

theorem due_of_expires {now : Time} (h : expires now e = true) : Due now e := by
  rw [expires, Bool.and_eq_true, Bool.and_eq_true, decide_eq_true_iff, decide_eq_true_iff, any_eq_true] at h
  obtain ⟨⟨-, hidle⟩, t, ht, hle⟩ := h
  exact .inl ⟨hidle, t, ht, of_decide_eq_true hle⟩

theorem due_of_elapsed {now : Time} (h : elapsed now e = true) : Due now e := by
  rw [elapsed, Bool.and_eq_true, any_eq_true] at h
  obtain ⟨-, t, ht, hle⟩ := h
  exact .inr ⟨t, ht, of_decide_eq_true hle⟩

theorem untouched_of_sweep {now : Time} {nows : List Time} (hnow : now ∈ nows)
    (h : SamePart owner (s.sweep options now) s') : Untouched owner nows s s' where
  contexts id := by
    have hpart := h.contexts id
    rw [filter_sweep] at hpart
    cases hbefore : (s.contexts[id]?).filter (·.owner = owner) with
    | none => exact .inl (by rw [hpart, hbefore]; rfl)
    | some e =>
      rw [hbefore, map_some] at hpart
      obtain ⟨he, howner⟩ := filter_eq_some_iff.mp hbefore
      -- Either nothing happens to the context, or its time is over.
      by_cases hexpires : expires now e = true
      · refine .inr ⟨e, he, of_decide_eq_true howner, ⟨now, hnow, due_of_expires hexpires⟩, ?_⟩
        intro e' he' howner'
        rw [he', filter_some, if_pos (decide_eq_true howner'), eq_comm, filter_eq_some_iff] at hpart
        obtain ⟨heq, -⟩ := hpart
        cases heq
        rw [expire, if_pos hexpires]
        exact ⟨rfl, rfl, rfl, rfl, rfl⟩
      · rw [expire, if_neg hexpires, filter_some] at hpart
        cases helapsed : elapsed now e with
        | false => exact .inl (by simpa [helapsed] using hpart)
        | true =>
          refine .inr ⟨e, he, of_decide_eq_true howner, ⟨now, hnow, due_of_elapsed helapsed⟩, ?_⟩
          intro e' he' howner'
          simp [he', howner', helapsed] at hpart
  reservations := h.reservations
  outcomes action key := by
    rw [h.outcomes, idempotency_sweep]
    cases houtcome : s.idempotency[ownerKey owner action key]? with
    | none => exact .inl rfl
    | some outcome =>
      cases hforgotten : forgotten now outcome with
      | false => exact .inl (by simp [hforgotten])
      | true =>
        rw [forgotten, Bool.and_eq_true, decide_eq_true_iff, decide_eq_true_iff] at hforgotten
        refine .inr ⟨?_, outcome, rfl, hforgotten.1, now, hnow, hforgotten.2⟩
        simp [forgotten, hforgotten]

/-! ### What an answer depends on -/

/-- What the owner of a context keeps in it. -/
structure LlmContextContent where
  version : UInt64
  binding : LlmContextBinding
  bindingFingerprint : GoString
  transcript : List LlmMessageDto
  ttlSeconds : UInt32

def withContent (e : LlmContextEntry) (c : LlmContextContent) : LlmContextEntry :=
  { e with version := c.version, binding := c.binding, bindingFingerprint := c.bindingFingerprint,
           transcript := c.transcript, ttlSeconds := c.ttlSeconds }

/-- The stores are the same but for what the owner keeps in them. -/
structure SameBut (owner : LlmContextOwner) (s s' : InMemoryLlmContextStore) : Prop where
  contexts : ∀ id : GoString, s'.contexts[id]? = s.contexts[id]? ∨
    ∃ e c, s.contexts[id]? = some e ∧ e.owner = owner ∧ s'.contexts[id]? = some (withContent e c)
  reservations : ∀ id : GoString, s'.reservations[id]? = s.reservations[id]? ∨
    ∃ r r', s.reservations[id]? = some r ∧ s'.reservations[id]? = some r' ∧ r.request.owner = owner ∧
      r'.request.owner = owner
  outcomes : ∀ key : GoString, s'.idempotency[key]? = s.idempotency[key]? ∨
    ∃ outcome outcome', s.idempotency[key]? = some outcome ∧ s'.idempotency[key]? = some outcome' ∧
      outcome'.state = outcome.state ∧ outcome'.retainUntil = outcome.retainUntil ∧
      ∃ action name, key = ownerKey owner action name

theorem expire_withContent (now : Time) (e : LlmContextEntry) (c : LlmContextContent) :
    expire options now (withContent e c) = withContent (expire options now e) c := by
  have hexpires : expires now (withContent e c) = expires now e := rfl
  rw [expire, expire, hexpires]
  split_ifs <;> rfl

theorem elapsed_withContent (now : Time) (e : LlmContextEntry) (c : LlmContextContent) :
    elapsed now (withContent e c) = elapsed now e := rfl

theorem fst_release (caller : LlmContextOwner) (contextID : GoString) (baseVersion : UInt64)
    (idempotencyKey : GoString) (clock : Readings) :
    (s.release pf options caller contextID baseVersion idempotencyKey clock).1 =
      ((s.sweep options clock.first).releaseLocked pf options caller contextID baseVersion idempotencyKey
        clock).map Prod.fst := by
  unfold release
  dsimp only
  cases (s.sweep options clock.first).releaseLocked pf options caller contextID baseVersion idempotencyKey
    clock with
  | error err => rfl
  | ok => rfl

section

variable {s' : InMemoryLlmContextStore}

theorem SameBut.sweep (h : SameBut other s s') (now : Time) :
    SameBut other (s.sweep options now) (s'.sweep options now) where
  contexts id := by
    rw [contexts_sweep, contexts_sweep]
    rcases h.contexts id with heq | ⟨e, c, he, hown, he'⟩
    · exact .inl (by rw [heq])
    rw [he, he', map_some, map_some, filter_some, filter_some, expire_withContent, elapsed_withContent]
    obtain ⟨state, expiresAt, tombstoneUntil, heq, -⟩ := expire_eq options now e
    cases elapsed now (expire options now e) with
    | true => exact .inl rfl
    | false =>
      refine .inr ⟨expire options now e, c, rfl, ?_, rfl⟩
      rw [heq]
      exact hown
  reservations := h.reservations
  outcomes key := by
    rw [idempotency_sweep, idempotency_sweep]
    rcases h.outcomes key with heq | ⟨outcome, outcome', ho, ho', hstate, hretain, hkey⟩
    · exact .inl (by rw [heq])
    have hforgotten : forgotten now outcome' = forgotten now outcome := by
      rw [forgotten, hstate, hretain, forgotten]
    rw [ho, ho', filter_some, filter_some, hforgotten]
    cases forgotten now outcome with
    | true => exact .inl rfl
    | false => exact .inr ⟨outcome, outcome', rfl, rfl, hstate, hretain, hkey⟩

theorem SameBut.nextContextID (h : SameBut other s s') (factory : Nat → Except GoString GoString)
    (attempts : Nat) : s'.nextContextID factory attempts = s.nextContextID factory attempts := by
  induction attempts with
  | zero => rfl
  | succ attempts ih =>
    rw [InMemoryLlmContextStore.nextContextID, InMemoryLlmContextStore.nextContextID, ih]
    split
    · rfl
    rename_i value hvalue
    rcases h.contexts value with heq | ⟨e, c, he, -, he'⟩
    · rw [heq]
    · rw [he, he']

variable (hne : owner ≠ other) (h : SameBut other s s')
include hne h

variable {id : GoString} {r : LlmContextMutationReservation}

/-- An entry of another owner is the same in both stores. -/
theorem SameBut.entry {e : LlmContextEntry} (he : s.contexts[id]? = some e)
    (hown : e.owner = owner) : s'.contexts[id]? = some e := by
  rcases h.contexts id with heq | ⟨e', c, he', hother, -⟩
  · rw [heq, he]
  rw [he] at he'
  cases he'
  exact absurd (hown.symm.trans hother) hne

theorem SameBut.requireMutable (id : GoString) : s'.requireMutable owner id = s.requireMutable owner id := by
  rw [InMemoryLlmContextStore.requireMutable, InMemoryLlmContextStore.requireMutable, requireEntry, requireEntry]
  rcases h.contexts id with heq | ⟨e, c, he, hother, he'⟩
  · rw [heq]
  rw [he, he']
  have hforeign : e.owner ≠ owner := fun hown => hne (hown.symm.trans hother)
  exact (if_pos hforeign).trans (if_pos hforeign).symm

theorem SameBut.reservation (hr : s.reservations[id]? = some r)
    (hown : r.request.owner = owner) : s'.reservations[id]? = some r := by
  rcases h.reservations id with heq | ⟨r', r'', hr', -, hother, -⟩
  · rw [heq, hr]
  rw [hr] at hr'
  cases hr'
  exact absurd (hown.symm.trans hother) hne

theorem SameBut.ensureAllocationAvailable :
    s'.ensureAllocationAvailable options owner = s.ensureAllocationAvailable options owner := by
  have hcontexts : (s'.contexts.filter fun _ e => live owner e) = s.contexts.filter fun _ e => live owner e := by
    refine ext fun id => ?_
    rw [getElem?_filter, getElem?_filter]
    rcases h.contexts id with heq | ⟨e, c, he, hother, he'⟩
    · rw [heq]
    · have hforeign : e.owner ≠ owner := fun hown => hne (hown.symm.trans hother)
      simp [he, he', filter_some, live, withContent, hforeign]
  have hreservations : (s'.reservations.filter fun _ r => pending owner r) =
      s.reservations.filter fun _ r => pending owner r := by
    refine ext fun id => ?_
    rw [getElem?_filter, getElem?_filter]
    rcases h.reservations id with heq | ⟨r, r', hr, hr', hother, hother'⟩
    · rw [heq]
    have hforeign : r.request.owner ≠ owner := fun hown => hne (hown.symm.trans hother)
    have hforeign' : r'.request.owner ≠ owner := fun hown => hne (hown.symm.trans hother')
    simp [hr, hr', filter_some, pending, hforeign, hforeign']
  rw [InMemoryLlmContextStore.ensureAllocationAvailable, hcontexts, hreservations]
  rfl

theorem SameBut.requireReservation {ref : Option ReservationRef}
    (hacts : ∀ r, s.requireReservation ref = .ok r → r.request.owner = owner) :
    s'.requireReservation ref = s.requireReservation ref := by
  cases ref with
  | none => rfl
  | some ref =>
    simp only [InMemoryLlmContextStore.requireReservation] at hacts ⊢
    rcases h.reservations ref.reservationID with heq | ⟨r, r', hr, hr', hother, -⟩
    · rw [heq]
    cases hcopied : ref.copied with
    | true =>
      rw [hr, hr']
      rfl
    | false =>
      have hown : r.request.owner = owner := hacts r (by rw [hr, hcopied]; rfl)
      exact absurd (hown.symm.trans hother) hne

section

variable (hcoherent : Coherent s)
include hcoherent

/-- What a commit stores is the same, since the context that is held belongs to the same owner. -/
theorem SameBut.committed (hr : s.reservations[id]? = some r)
    (hown : r.request.owner = owner) (assistantResult : LlmMessageDto) (factory : Nat → Except GoString GoString)
    (expiry : Option Time) :
    s'.committed r assistantResult factory expiry = s.committed r assistantResult factory expiry := by
  cases halloc : allocates r.request.operation with
  | true => simp [InMemoryLlmContextStore.committed, halloc, h.nextContextID]
  | false =>
    obtain ⟨i, e, hheld⟩ := hcoherent.holds hr halloc
    have he' := h.entry hne hheld.stored (hheld.owner.trans hown)
    simp [InMemoryLlmContextStore.committed, halloc, hheld.located, requireEntry, hheld.stored, he']

theorem SameBut.statusOfEntry {e : LlmContextEntry}
    (he : s.contexts[id]? = some e) (hown : e.owner = owner) : s'.statusOfEntry pf e = s.statusOfEntry pf e := by
  rw [InMemoryLlmContextStore.statusOfEntry, InMemoryLlmContextStore.statusOfEntry]
  by_cases hidle : e.reservationID = []
  · simp [hidle]
  obtain ⟨r, hr, halloc, hlocated⟩ := hcoherent.held he hidle
  obtain ⟨i, e', hheld⟩ := hcoherent.holds hr halloc
  have hi : i = id := Option.some.inj (hheld.located.symm.trans hlocated)
  subst hi
  have heq : e' = e := Option.some.inj (hheld.stored.symm.trans he)
  subst heq
  rw [hr, h.reservation hne hr (hheld.owner.symm.trans hown)]

theorem SameBut.statusByContextLocked (id : GoString) :
    s'.statusByContextLocked pf owner id = s.statusByContextLocked pf owner id := by
  rw [InMemoryLlmContextStore.statusByContextLocked, InMemoryLlmContextStore.statusByContextLocked]
  split
  · rfl
  cases he : s.contexts[id]? with
  | none =>
    rcases h.contexts id with heq | ⟨e, c, he', -⟩
    · rw [heq, he]
    · rw [he] at he'
      cases he'
  | some e =>
    by_cases hown : e.owner = owner
    · rw [h.entry hne he hown]
      dsimp only
      rw [h.statusOfEntry hne hcoherent he hown]
    · rcases h.contexts id with heq | ⟨e', c, he', -, hstored'⟩
      · rw [heq, he]
        exact (if_pos hown).trans (if_pos hown).symm
      rw [he] at he'
      cases he'
      rw [hstored']
      exact (if_pos hown).trans (if_pos hown).symm

theorem SameBut.statusFromReceiptLocked (receipt : LlmContextReceiptDto) :
    s'.statusFromReceiptLocked pf owner receipt = s.statusFromReceiptLocked pf owner receipt := by
  rw [InMemoryLlmContextStore.statusFromReceiptLocked, InMemoryLlmContextStore.statusFromReceiptLocked,
    h.statusByContextLocked hne hcoherent]
  rcases h.contexts receipt.contextID with heq | ⟨e, c, he, -, he'⟩
  · rw [heq]
  · rw [he, he']

end

variable (howner : owner.Plain) (hother : other.Plain)
include howner hother

theorem SameBut.outcome (action key : GoString) :
    s'.idempotency[ownerKey owner action key]? = s.idempotency[ownerKey owner action key]? := by
  rcases h.outcomes (ownerKey owner action key) with heq | ⟨-, -, -, -, -, -, action', key', hkey⟩
  · exact heq
  · exact absurd (owner_eq_of_ownerKey_eq howner hother hkey) hne

theorem SameBut.admission {request : LlmContextMutationRequest}
    (hown : request.owner = owner) (reservationID : GoString) (now : Time) :
    s'.admission pf options request reservationID now = s.admission pf options request reservationID now := by
  subst hown
  have hkey := h.outcome hne howner hother llmCompleteActionID request.idempotencyKey
  have hspace : s'.ensureAllocationAvailable options request.owner =
      s.ensureAllocationAvailable options request.owner := h.ensureAllocationAvailable hne
  have hfound := h.requireMutable hne (request.contextID.getD [])
  have hmutation : s'.admitMutation pf options request reservationID now =
      s.admitMutation pf options request reservationID now := funext fun e => by
    rw [admitMutation, admitMutation, hspace]
  rw [InMemoryLlmContextStore.admission, InMemoryLlmContextStore.admission, completionKey, hkey, hspace, hfound,
    hmutation]

theorem SameBut.statusLocked (hcoherent : Coherent s) (contextID idempotencyKey : Option GoString) :
    s'.statusLocked pf owner contextID idempotencyKey = s.statusLocked pf owner contextID idempotencyKey := by
  have houtcome : s'.statusOfOutcome pf owner = s.statusOfOutcome pf owner := funext fun outcome => by
    unfold statusOfOutcome
    split
    · rfl
    · rfl
    · split
      · exact h.statusFromReceiptLocked hne hcoherent _
      · rfl
  unfold InMemoryLlmContextStore.statusLocked
  split
  · rw [h.outcome hne howner hother, houtcome]
  · exact h.statusByContextLocked hne hcoherent _
  · rfl

theorem SameBut.releaseLocked (contextID : GoString) (baseVersion : UInt64)
    (idempotencyKey : GoString) (clock : Readings) :
    (s'.releaseLocked pf options owner contextID baseVersion idempotencyKey clock).map Prod.fst =
      (s.releaseLocked pf options owner contextID baseVersion idempotencyKey clock).map Prod.fst := by
  simp only [InMemoryLlmContextStore.releaseLocked, h.outcome hne howner hother, h.requireMutable hne,
    bind, Except.bind, throw, throwThe, MonadExceptOf.throw]
  split
  · rfl
  split
  · rfl
  split
  · rfl
  split
  · split <;> rfl
  split
  · rfl
  · split <;> rfl

/-- The answer to a call for one owner is the same whatever another keeps in the store. -/
theorem SameBut.answer (hcoherent : Coherent s) {event : Event}
    (hacts : ActsFor s owner event) : (s'.call pf options event).1 = (s.call pf options event).1 := by
  cases event with
  | reserve request reservationID clock =>
    rw [call, call, reserve, reserve]
    rw [(h.sweep clock.first).admission hne howner hother hacts]
    split <;> rfl
  | commit ref =>
    rw [call, call, commit, commit, h.requireReservation hne hacts]
    cases hr : s.requireReservation ref with
    | error err => rfl
    | ok r =>
      obtain ⟨id, -, hstored⟩ := of_requireReservation hr
      dsimp only
      rw [h.committed hne hcoherent hstored (hacts r hr)]
      split <;> rfl
  | abort =>
    rw [call, call, abort, abort, h.requireReservation hne hacts]
    split <;> rfl
  | release caller contextID baseVersion idempotencyKey clock =>
    have hcaller : caller = owner := hacts
    subst hcaller
    rw [call, call, answered, answered, fst_release, fst_release,
      (h.sweep clock.first).releaseLocked hne howner hother]
  | status caller contextID idempotencyKey now =>
    have hcaller : caller = owner := hacts
    subst hcaller
    exact congrArg (Except.map Answer.status)
      ((h.sweep now).statusLocked hne howner hother (hcoherent.sweep now) contextID idempotencyKey)
  | snapshot caller contextID now =>
    have hcaller : caller = owner := hacts
    subst hcaller
    rw [call, call, answered, answered, snapshot, snapshot, snapshotLocked, snapshotLocked,
      (h.sweep now).requireMutable hne]
  | sweepExpired now => exact hacts.elim

end

variable (pf options) in
/-- In every state of every run, a call for one owner leaves all that is another's untouched but for the
passing of time, and its answer is the same whatever the other keeps in the store. -/
theorem owner_isolation {events : List Event} (hrun : Transition.run (step pf options) {} events = some s)
    (hfresh : ∀ p ∈ Transition.steps (step pf options) {} events, Fresh p.1 p.2) (howner : owner.Plain)
    (hother : other.Plain) (hne : owner ≠ other) {event : Event} (hevent : Fresh s event)
    (hacts : ActsFor s owner event) : Untouched other event.sweeps s (s.call pf options event).2 ∧
      ∀ s', SameBut other s s' → (s'.call pf options event).1 = (s.call pf options event).1 := by
  obtain ⟨hcoherent, -⟩ := coherent_run hrun hfresh
  refine ⟨?_, fun s' h => h.answer hne howner hother hcoherent hacts⟩
  rcases samePart_call howner hother hne hcoherent hevent hacts with hsame | ⟨now, hnow, hsame⟩
  · exact hsame.untouched _
  · exact untouched_of_sweep hnow hsame

def guest : LlmContextOwner := { nid := "urn:nps:agent:ca:b", securityScope := "prod" }

/-- A request of another owner under the same idempotency key. -/
def guestChat : Event := .reserve { createChat with owner := guest } "r3" atStart

theorem guest_isolated : ∃ s, afterChat = some s ∧ (s.contexts[chatID]?).map (·.owner) = some chatOwner ∧
    Untouched chatOwner guestChat.sweeps s (s.call plainLlm chatOptions guestChat).2 ∧
      ∀ s', SameBut chatOwner s s' →
        (s'.call plainLlm chatOptions guestChat).1 = (s.call plainLlm chatOptions guestChat).1 := by
  have hstored : afterChat.map (fun s =>
      ((s.contexts[chatID]?).map (·.owner), (s.reservations[("r3" : GoString)]?).isSome)) =
      some (some chatOwner, false) := by
    decide +kernel
  obtain ⟨s, hs, hpair⟩ := map_eq_some_iff.mp hstored
  obtain ⟨howner, hnone⟩ := Prod.mk.inj hpair
  exact ⟨s, hs, howner, owner_isolation plainLlm chatOptions hs (by decide +kernel) (by decide)
    (by decide) (by decide) ⟨by decide, not_isSome_iff_eq_none.mp (by rw [hnone]; decide)⟩ rfl⟩

end InMemoryLlmContextStore

end NpsSdk.Nwp
