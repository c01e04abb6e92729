import NpsSdk.NwpLlmContextSteps

/-! Runs of the context store: the rules of versions, transcripts, failures and retries, from what every
call preserves. -/

namespace NpsSdk.Nwp.InMemoryLlmContextStore

open Transition
open GoTable

variable {pf : LlmPlatform} {options : LlmContextStoreOptions} {s : InMemoryLlmContextStore}

/-! ### Versions and transcripts -/

/-- What is stored was stored before, at the same version and with the same transcript. -/
def Preserves (s s' : InMemoryLlmContextStore) : Prop :=
  ∀ (id : GoString) (e' : LlmContextEntry), s'.contexts[id]? = some e' →
    ∃ e, s.contexts[id]? = some e ∧ e'.version = e.version ∧ e'.transcript = e.transcript

theorem Preserves.refl (s : InMemoryLlmContextStore) : Preserves s s := fun _ e h => ⟨e, h, rfl, rfl⟩

theorem Preserves.trans {s' s'' : InMemoryLlmContextStore} (h : Preserves s s') (h' : Preserves s' s'') :
    Preserves s s'' := by
  intro id e'' he''
  obtain ⟨e', he', hversion', htranscript'⟩ := h' id e'' he''
  obtain ⟨e, he, hversion, htranscript⟩ := h id e' he'
  exact ⟨e, he, hversion'.trans hversion, htranscript'.trans htranscript⟩

theorem preserves_sweep (now : Time) : Preserves s (s.sweep options now) := by
  intro id e' he'
  obtain ⟨e, he, rfl⟩ := of_contexts_sweep he'
  obtain ⟨state, expiresAt, tombstoneUntil, heq, -⟩ := expire_eq options now e
  rw [heq]
  exact ⟨e, he, rfl, rfl⟩

/-- An entry is replaced by one of the same version and transcript. -/
theorem preserves_insert {id i : GoString} {e e' e'' : LlmContextEntry}
    (he'' : (s.contexts.insert id e')[i]? = some e'') (he : s.contexts[id]? = some e)
    (hversion : e'.version = e.version) (htranscript : e'.transcript = e.transcript) :
    ∃ e, s.contexts[i]? = some e ∧ e''.version = e.version ∧ e''.transcript = e.transcript := by
  rw [getElem?_insert] at he''
  split_ifs at he'' with heq
  · cases he''
    subst heq
    exact ⟨e, he, hversion, htranscript⟩
  · exact ⟨e'', he'', rfl, rfl⟩

theorem preserves_hold (r : LlmContextMutationReservation) (retainUntil : Time) :
    Preserves s (s.hold r retainUntil) := by
  intro id e' he'
  rw [hold] at he'
  split at he'
  · rename_i e he
    split_ifs at he'
    · exact ⟨e', he', rfl, rfl⟩
    obtain ⟨i, hi, hstored⟩ := Option.bind_eq_some_iff.mp he
    rw [hi] at he'
    exact preserves_insert he' hstored rfl rfl
  · exact ⟨e', he', rfl, rfl⟩

theorem preserves_drop (r : LlmContextMutationReservation) (errorCode : GoString) (retainUntil : Time) :
    Preserves s (s.drop r errorCode retainUntil) := by
  intro id e' he'
  rw [drop, clearReservation] at he'
  split at he'
  · exact ⟨e', he', rfl, rfl⟩
  split at he'
  · exact ⟨e', he', rfl, rfl⟩
  rename_i e he
  split_ifs at he'
  · exact preserves_insert he' he rfl rfl
  · exact ⟨e', he', rfl, rfl⟩

variable (pf options s) in
/-- A commit that succeeds and appends to the context or resets it. -/
def Mutates (event : Event) (id : GoString) : Prop :=
  ∃ ref assistantResult factory clock r answer, event = .commit ref assistantResult factory clock ∧
    s.requireReservation ref = .ok r ∧ allocates r.request.operation = false ∧
    r.request.contextID = some id ∧ (s.call pf options event).1 = .ok answer

variable (pf options s) in
/-- A release of the context that succeeds and is not the repetition of an earlier one. -/
def Releases (event : Event) (id : GoString) : Prop :=
  ∃ owner baseVersion idempotencyKey clock answer,
    event = .release owner id baseVersion idempotencyKey clock ∧
    (s.sweep options clock.first).idempotency[
      ownerKey owner llmContextReleaseActionID idempotencyKey]? = none ∧
    (s.call pf options event).1 = .ok answer

def Event.advances : Event → Bool
  | .commit .. => true
  | .release .. => true
  | _ => false

variable {event : Event} {id : GoString} {outcome : LlmIdempotencyEntry} {key : GoString}
  {r : LlmContextMutationReservation} {history : List (InMemoryLlmContextStore × Event)}

theorem not_advances (h : event.advances = false) (id : GoString) :
    ¬ Mutates pf options s event id ∧ ¬ Releases pf options s event id := by
  refine ⟨?_, ?_⟩
  · rintro ⟨ref, assistantResult, factory, clock, r, answer, rfl, -⟩
    cases h
  · rintro ⟨owner, baseVersion, idempotencyKey, clock, answer, rfl, -⟩
    cases h

/-- The change a successful commit makes. -/
structure CommitStep (pf : LlmPlatform) (options : LlmContextStoreOptions) (s : InMemoryLlmContextStore)
    (event : Event) (r : LlmContextMutationReservation) (assistantResult : LlmMessageDto) (key : GoString)
    (e : LlmContextEntry) (receipt : LlmContextReceiptDto) (retainUntil : Time) : Prop where
  commit : ∃ ref factory clock, event = .commit ref assistantResult factory clock ∧
    s.requireReservation ref = .ok r ∧ retainUntil = clock.second + options.idempotencyTTL
  commits : ∃ factory expiry, s.committed r assistantResult factory expiry = .ok (key, e)
  contextID : receipt.contextID = e.contextID
  version : receipt.version = e.version
  call : s.call pf options event = (.ok (.receipt receipt), s.settle r key e receipt retainUntil)

/-- The change a release makes that is not the repetition of an earlier one. -/
structure ReleaseStep (pf : LlmPlatform) (options : LlmContextStoreOptions) (s : InMemoryLlmContextStore)
    (event : Event) (id key : GoString) (e : LlmContextEntry) (receipt : LlmContextReceiptDto)
    (tombstoneUntil retainUntil swept : Time) : Prop where
  release : ∃ owner idempotencyKey clock, event = .release owner id e.version idempotencyKey clock ∧
    key = ownerKey owner llmContextReleaseActionID idempotencyKey ∧ swept = clock.first ∧ e.owner = owner
  vacant : (s.sweep options swept).idempotency[key]? = none
  stored : (s.sweep options swept).contexts[id]? = some e
  idle : e.reservationID = []
  call : s.call pf options event = (.ok (.receipt receipt), (s.sweep options swept).retire key id e e.version
    receipt tombstoneUntil retainUntil)

variable (pf options s) in
/-- Every call keeps all versions and transcripts, or is a commit or a release that succeeds. -/
theorem call_cases (event : Event) : (Preserves s (s.call pf options event).2 ∧
      ∀ id, ¬ Mutates pf options s event id ∧ ¬ Releases pf options s event id) ∨
    (∃ r assistantResult key e receipt retainUntil,
      CommitStep pf options s event r assistantResult key e receipt retainUntil) ∨
    ∃ id key e receipt tombstoneUntil retainUntil swept,
      ReleaseStep pf options s event id key e receipt tombstoneUntil retainUntil swept := by
  cases event with
  | reserve request reservationID clock =>
    refine .inl ⟨?_, not_advances rfl⟩
    rw [call]
    rcases reserve_cases pf options s request reservationID clock with ⟨err, heq⟩ | ⟨r, -, heq⟩
    · rw [heq]
      exact preserves_sweep _
    · rw [heq]
      exact (preserves_sweep _).trans (preserves_hold r _)
  | commit ref assistantResult factory clock =>
    rcases commit_cases pf options s ref assistantResult factory clock with
      ⟨err, heq⟩ | ⟨r, expiry, key, e, receipt, hr, hc, hid, hversion, heq⟩
    · have hcall : s.call pf options (.commit ref assistantResult factory clock) = (.error err, s) := by
        rw [call, heq]
        rfl
      rw [hcall]
      refine .inl ⟨Preserves.refl s, fun _ => ⟨?_, ?_⟩⟩
      · rintro ⟨_, _, _, _, _, answer, -, -, -, -, hok⟩
        rw [hcall] at hok
        cases hok
      · rintro ⟨_, _, _, _, _, hevent, -⟩
        cases hevent
    · refine .inr (.inl ⟨r, assistantResult, key, e, receipt, _, ⟨ref, factory, clock, rfl, hr, rfl⟩,
        ⟨factory, expiry, hc⟩, hid, hversion, ?_⟩)
      rw [call, heq]
      rfl
  | abort ref errorCode clock =>
    refine .inl ⟨?_, not_advances rfl⟩
    rw [call]
    rcases abort_cases options s ref errorCode clock with ⟨err, heq⟩ | ⟨r, -, heq⟩
    · rw [heq]
      exact Preserves.refl s
    · rw [heq]
      exact (preserves_drop r errorCode _).trans (preserves_sweep _)
  | release owner contextID baseVersion idempotencyKey clock =>
    rcases release_cases pf options s owner contextID baseVersion idempotencyKey clock with
      ⟨err, heq⟩ | ⟨prior, receipt, hprior, heq⟩ | ⟨e, receipt, hvacant, he, howner, hidle, rfl, heq⟩
    · have hcall : s.call pf options (.release owner contextID baseVersion idempotencyKey clock) =
          (.error err, s.sweep options clock.first) := by
        rw [call, heq]
        rfl
      rw [hcall]
      refine .inl ⟨preserves_sweep _, fun _ => ⟨?_, ?_⟩⟩
      · rintro ⟨_, _, _, _, _, _, hevent, -⟩
        cases hevent
      · rintro ⟨_, _, _, _, answer, -, -, hok⟩
        rw [hcall] at hok
        cases hok
    · refine .inl ⟨?_, fun _ => ⟨?_, ?_⟩⟩
      · rw [call, heq]
        exact preserves_sweep _
      · rintro ⟨_, _, _, _, _, _, hevent, -⟩
        cases hevent
      · rintro ⟨_, _, _, _, _, hevent, hvacant, -⟩
        cases hevent
        rw [hprior] at hvacant
        cases hvacant
    · refine .inr (.inr ⟨contextID, _, e, receipt, clock.second + seconds options.tombstoneSeconds,
        clock.third + options.idempotencyTTL, clock.first,
        ⟨owner, idempotencyKey, clock, rfl, rfl, rfl, howner⟩, hvacant, he, hidle, ?_⟩)
      rw [call, heq]
      rfl
  | status owner contextID idempotencyKey now | snapshot owner contextID now
  | sweepExpired now => exact .inl ⟨preserves_sweep now, not_advances rfl⟩

/-- A call that fails, or an abort, changes no version and no transcript. -/
theorem preserves_of_error (h : (∃ err, (s.call pf options event).1 = .error err) ∨
      ∃ ref errorCode clock, event = .abort ref errorCode clock) : Preserves s (s.call pf options event).2 := by
  rcases call_cases pf options s event with ⟨hpreserves, -⟩ |
    ⟨r, assistantResult, key, e, receipt, retainUntil, hcommit⟩ |
    ⟨id, key, e, receipt, tombstoneUntil, retainUntil, swept, hrelease⟩
  · exact hpreserves
  · rw [hcommit.call] at h
    obtain ⟨ref, factory, clock, rfl, -⟩ := hcommit.commit
    rcases h with ⟨err, herr⟩ | ⟨_, _, _, hevent⟩
    · cases herr
    · cases hevent
  · rw [hrelease.call] at h
    obtain ⟨owner, idempotencyKey, clock, rfl, -⟩ := hrelease.release
    rcases h with ⟨err, herr⟩ | ⟨_, _, _, hevent⟩
    · cases herr
    · cases hevent

/-- The version of a context rises by one exactly if it is mutated or released; its transcript changes only
if it is mutated. -/
theorem Coherent.version_call (h : Coherent s) {e e' : LlmContextEntry} (he : s.contexts[id]? = some e)
    (he' : (s.call pf options event).2.contexts[id]? = some e') :
    (Mutates pf options s event id ∧ e'.version = e.version + 1) ∨
      (Releases pf options s event id ∧ e'.version = e.version + 1 ∧ e'.transcript = e.transcript) ∨
      (¬ Mutates pf options s event id ∧ ¬ Releases pf options s event id ∧ e'.version = e.version ∧
        e'.transcript = e.transcript) := by
  rcases call_cases pf options s event with ⟨hpreserves, hneither⟩ |
    ⟨r, assistantResult, key, entry, receipt, retainUntil, hcommit⟩ |
    ⟨i, key, entry, receipt, tombstoneUntil, retainUntil, swept, hrelease⟩
  · obtain ⟨before, hbefore, hsame⟩ := hpreserves id e' he'
    rw [he] at hbefore
    cases hbefore
    exact .inr (.inr ⟨(hneither id).1, (hneither id).2, hsame⟩)
  · obtain ⟨ref, factory, clock, rfl, hr, rfl⟩ := hcommit.commit
    obtain ⟨rid, -, hstored⟩ := of_requireReservation hr
    obtain ⟨factory', expiry, hcommitted⟩ := hcommit.commits
    have hcommits := h.commits hstored hcommitted
    have hok := congrArg Prod.fst hcommit.call
    rw [hcommit.call, InMemoryLlmContextStore.settle] at he'
    rw [getElem?_insert] at he'
    split_ifs at he' with heq
    · cases he'
      subst heq
      rcases hcommits.version with ⟨-, hnone, -⟩ | ⟨halloc, before, hheld, hversion⟩
      · rw [hnone] at he
        cases he
      have hsame := hheld.stored
      rw [he] at hsame
      cases hsame
      exact .inl ⟨⟨ref, _, _, clock, r, _, rfl, hr, halloc, hheld.located, hok⟩, hversion⟩
    · rw [he] at he'
      cases he'
      refine .inr (.inr ⟨?_, ?_, rfl, rfl⟩)
      · rintro ⟨_, _, _, _, r', _, hevent, hr', halloc, hlocated, -⟩
        cases hevent
        rw [hr] at hr'
        cases hr'
        rcases hcommits.version with ⟨htrue, -⟩ | ⟨-, before, hheld, -⟩
        · rw [halloc] at htrue
          cases htrue
        · rw [hheld.located] at hlocated
          exact heq (Option.some.inj hlocated)
      · rintro ⟨_, _, _, _, _, hevent, -⟩
        cases hevent
  · obtain ⟨owner, idempotencyKey, clock, rfl, rfl, rfl, -⟩ := hrelease.release
    have hok := congrArg Prod.fst hrelease.call
    have hnot : ¬ Mutates pf options s (.release owner i entry.version idempotencyKey clock) id := by
      rintro ⟨_, _, _, _, _, _, hevent, -⟩
      cases hevent
    rw [hrelease.call, InMemoryLlmContextStore.retire] at he'
    rw [getElem?_insert] at he'
    split_ifs at he' with heq
    · cases he'
      subst heq
      obtain ⟨before, hbefore, hversion, htranscript⟩ := preserves_sweep _ i entry hrelease.stored
      rw [he] at hbefore
      cases hbefore
      refine .inr (.inl ⟨⟨owner, _, idempotencyKey, clock, _, rfl, hrelease.vacant, hok⟩, ?_, htranscript⟩)
      exact congrArg (· + 1) hversion
    · obtain ⟨before, hbefore, hsame⟩ := preserves_sweep _ id e' he'
      rw [he] at hbefore
      cases hbefore
      refine .inr (.inr ⟨hnot, ?_, hsame⟩)
      rintro ⟨_, _, _, _, _, hevent, -⟩
      cases hevent
      exact heq rfl

/-! ### Outcomes -/

/-- An outcome that is not busy is swept once its time has passed. -/
theorem outcome_sweep (options : LlmContextStoreOptions) (h : s.idempotency[key]? = some outcome) (now : Time) :
    (s.sweep options now).idempotency[key]? = some outcome ∨
      (s.sweep options now).idempotency[key]? = none ∧ outcome.retainUntil ≤ now := by
  rw [idempotency_sweep, h, Option.filter_some]
  cases hforgotten : forgotten now outcome with
  | false => exact .inl rfl
  | true =>
    rw [forgotten, Bool.and_eq_true, decide_eq_true_iff, decide_eq_true_iff] at hforgotten
    exact .inr ⟨rfl, hforgotten.2⟩

theorem outcome_insert {outcomes : GoTable LlmIdempotencyEntry} {key key' : GoString}
    {outcome outcome' : LlmIdempotencyEntry} (h : outcomes[key]? = some outcome) (hne : key' ≠ key) :
    (outcomes.insert key' outcome')[key]? = some outcome := by
  rw [getElem?_insert, if_neg hne, h]

theorem Coherent.completionKey_ne_of_outcome (h : Coherent s) (hr : s.reservations[id]? = some r)
    (houtcome : s.idempotency[key]? = some outcome) (hbusy : outcome.state ≠ .busy) :
    completionKey r.request ≠ key := by
  rintro rfl
  obtain ⟨outcome', houtcome', hbusy', -⟩ := h.busy hr
  rw [houtcome] at houtcome'
  cases houtcome'
  exact hbusy hbusy'

/-- What is left of an outcome after a sweep is not overwritten where only a vacant key is written to. -/
theorem outcome_sweep_insert {key key' : GoString} {outcome outcome' : LlmIdempotencyEntry}
    (h : s.idempotency[key]? = some outcome) {now : Time} (hvacant : (s.sweep options now).idempotency[key']? = none) :
    ((s.sweep options now).idempotency.insert key' outcome')[key]? = some outcome ∨
      outcome.retainUntil ≤ now := by
  rcases outcome_sweep options h now with hkept | ⟨-, hpast⟩
  · refine .inl (outcome_insert hkept ?_)
    rintro rfl
    rw [hvacant] at hkept
    cases hkept
  · exact .inr hpast

/-- An outcome that is not busy stays as it is until a sweep finds that its time has passed. -/
theorem Coherent.outcome_call (h : Coherent s) (houtcome : s.idempotency[key]? = some outcome)
    (hbusy : outcome.state ≠ .busy) : (s.call pf options event).2.idempotency[key]? = some outcome ∨
      ∃ now ∈ event.sweeps, outcome.retainUntil ≤ now := by
  have hmoves := call_moves pf options s event
  generalize (s.call pf options event).2 = s' at hmoves ⊢
  cases hmoves with
  | same => exact .inl houtcome
  | @sweep _ now hnow =>
    rcases outcome_sweep options houtcome now with hkept | ⟨-, hpast⟩
    · exact .inl hkept
    · exact .inr ⟨now, hnow, hpast⟩
  | hold hr =>
    obtain ⟨rfl, hadmitted⟩ := admitted hr
    rcases outcome_sweep_insert houtcome hadmitted.vacant with hkept | hpast
    · exact .inl hkept
    · exact .inr ⟨_, List.mem_cons_self, hpast⟩
  | settle hr _ =>
    obtain ⟨id, -, hstored⟩ := of_requireReservation hr
    exact .inl (outcome_insert houtcome (h.completionKey_ne_of_outcome hstored houtcome hbusy))
  | @drop _ errorCode clock r hr =>
    obtain ⟨id, -, hstored⟩ := of_requireReservation hr
    have hdropped : (s.drop r errorCode (clock.first + options.idempotencyTTL)).idempotency[key]? =
        some outcome :=
      outcome_insert houtcome (h.completionKey_ne_of_outcome hstored houtcome hbusy)
    rcases outcome_sweep options hdropped clock.second with hkept | ⟨-, hpast⟩
    · exact .inl hkept
    · exact .inr ⟨clock.second, List.mem_cons_self, hpast⟩
  | retire hvacant _ _ _ =>
    rcases outcome_sweep_insert houtcome hvacant with hkept | hpast
    · exact .inl hkept
    · exact .inr ⟨_, List.mem_cons_self, hpast⟩

/-! ### Runs -/

/-- A reservation that is there after a call was there before it, or the call has just taken it. -/
theorem reservations_call (hr : (s.call pf options event).2.reservations[id]? = some r) :
    s.reservations[id]? = some r ∨ ∃ clock, event = .reserve r.request id clock ∧
      Admitted (s.sweep options clock.first) id r := by
  have hmoves := call_moves pf options s event
  generalize (s.call pf options event).2 = s' at hmoves hr
  cases hmoves with
  | same | sweep | retire => exact .inl hr
  | @hold _ _ clock r' hr' =>
    obtain ⟨rfl, hadmitted⟩ := admitted hr'
    change ((s.sweep options clock.first).reservations.insert r'.reservationID r')[id]? = some r at hr
    rw [getElem?_insert] at hr
    split_ifs at hr with hid
    · cases hr
      rw [hadmitted.name] at hid
      subst hid
      exact .inr ⟨clock, rfl, hadmitted⟩
    · exact .inl hr
  | @settle _ _ _ _ r' | @drop _ _ _ r' =>
    change (s.reservations.erase r'.reservationID)[id]? = some r at hr
    rw [getElem?_erase] at hr
    split_ifs at hr
    exact .inl hr

variable (options) in
/-- The reservation was taken in one of the steps, and unless it creates a context, its base is the
transcript its context had then, at the reserved version. -/
def Reserved (history : List (InMemoryLlmContextStore × Event)) (r : LlmContextMutationReservation) : Prop :=
  ∃ before clock, (before, Event.reserve r.request r.reservationID clock) ∈ history ∧
    (r.request.operation ≠ .create → ∃ id e, r.request.contextID = some id ∧
      (before.sweep options clock.first).contexts[id]? = some e ∧
      r.request.baseVersion = some e.version ∧ r.baseTranscript = e.transcript)

theorem Reserved.append (h : Reserved options history r) (later : List (InMemoryLlmContextStore × Event)) :
    Reserved options (history ++ later) r := by
  obtain ⟨before, clock, hmem, hbase⟩ := h
  exact ⟨before, clock, List.mem_append_left _ hmem, hbase⟩

theorem reserved_of_admitted {clock : Readings} (h : Admitted (s.sweep options clock.first) id r) :
    Reserved options (history ++ [(s, .reserve r.request id clock)]) r := by
  refine ⟨s, clock, ?_, fun hne => ?_⟩
  · rw [h.name]
    exact List.mem_append_right _ List.mem_cons_self
  · obtain ⟨i, e, hi, he, -, -, -, -, hversion, htranscript⟩ := h.idle hne
    exact ⟨i, e, hi, he, hversion, htranscript⟩

/-- In every state of a run the store is coherent and every reservation has its step. -/
theorem coherent_run {events : List Event} (hrun : run (step pf options) {} events = some s)
    (hfresh : ∀ p ∈ steps (step pf options) {} events, Fresh p.1 p.2) :
    Coherent s ∧ ∀ {id : GoString} {r : LlmContextMutationReservation}, s.reservations[id]? = some r →
      Reserved options (steps (step pf options) {} events) r := by
  refine run_history (step pf options) (C := Fresh)
    (I := fun history s => Coherent s ∧ ∀ {id : GoString} {r : LlmContextMutationReservation},
      s.reservations[id]? = some r → Reserved options history r) ?_ hrun [] ?_ hfresh
  · rintro history s event s' ⟨hcoherent, hreserved⟩ hevent hstep
    cases hstep
    refine ⟨hcoherent.call hevent, fun {id r} hr => ?_⟩
    rcases reservations_call hr with hbefore | ⟨clock, rfl, hadmitted⟩
    · exact (hreserved hbefore).append _
    · exact reserved_of_admitted hadmitted
  · refine ⟨coherent_empty, fun {id r} hr => ?_⟩
    cases hr

section

variable (pf options s)

/-- The version of a context rises by one with every commit that appends to it or resets it and with every
release, and with nothing else. -/
def VersionRule : Prop :=
  ∀ (event : Event) (id : GoString) (e e' : LlmContextEntry), s.contexts[id]? = some e →
    (s.call pf options event).2.contexts[id]? = some e' →
    (Mutates pf options s event id ∧ e'.version = e.version + 1) ∨
      (Releases pf options s event id ∧ e'.version = e.version + 1 ∧ e'.transcript = e.transcript) ∨
      (¬ Mutates pf options s event id ∧ ¬ Releases pf options s event id ∧ e'.version = e.version ∧
        e'.transcript = e.transcript)

/-- An unresolved reservation to append or reset is the only one for its context, which is active, and its
commit succeeds. -/
def ReservationRule : Prop :=
  ∀ (id : GoString) (r : LlmContextMutationReservation), s.reservations[id]? = some r →
    allocates r.request.operation = false →
    (∃ contextID e, r.request.contextID = some contextID ∧ s.contexts[contextID]? = some e ∧
      e.state = .active) ∧
    (∀ (id' : GoString) (r' : LlmContextMutationReservation), s.reservations[id']? = some r' →
      allocates r'.request.operation = false → r'.request.contextID = r.request.contextID → id' = id) ∧
    ∀ assistantResult factory clock, ∃ receipt,
      (s.commit pf options (some { reservationID := id }) assistantResult factory clock).1 = .ok receipt

/-- A commit stores its base, the messages of the request and the answer; the base is empty for a new
context and a reset, and else the transcript at the reserved version. -/
def TranscriptRule (history : List (InMemoryLlmContextStore × Event)) : Prop :=
  ∀ ref assistantResult factory clock receipt,
    (s.commit pf options ref assistantResult factory clock).1 = .ok receipt →
    ∃ r e, s.requireReservation ref = .ok r ∧
      (s.commit pf options ref assistantResult factory clock).2.contexts[receipt.contextID]? = some e ∧
      e.version = receipt.version ∧ e.transcript = base r ++ r.request.messages ++ [assistantResult] ∧
      Reserved options history r

/-- A call that fails, or an abort, leaves the version and the transcript of what is stored. -/
def FailureRule : Prop :=
  ∀ event : Event, ((∃ err, (s.call pf options event).1 = .error err) ∨
      ∃ ref errorCode clock, event = .abort ref errorCode clock) →
    Preserves s (s.call pf options event).2

/-- A commit leaves an outcome, which stays until a sweep after its time; while it is there, no reservation
of the same owner and idempotency key can be committed. -/
def RetryRule : Prop :=
  ∀ ref assistantResult factory clock receipt r,
    (s.commit pf options ref assistantResult factory clock).1 = .ok receipt →
    s.requireReservation ref = .ok r → ∃ outcome : LlmIdempotencyEntry,
      outcome.state = .completed ∧ outcome.retainUntil = clock.second + options.idempotencyTTL ∧
      (s.commit pf options ref assistantResult factory clock).2.idempotency[completionKey r.request]? =
        some outcome ∧
      ∀ later events, run (step pf options)
          (s.commit pf options ref assistantResult factory clock).2 events = some later →
        (∀ p ∈ steps (step pf options)
          (s.commit pf options ref assistantResult factory clock).2 events, Fresh p.1 p.2) →
        ((∀ event ∈ events, ∀ now ∈ event.sweeps, now < outcome.retainUntil) →
          later.idempotency[completionKey r.request]? = some outcome) ∧
        (later.idempotency[completionKey r.request]? = some outcome →
          ∀ ref' r', later.requireReservation ref' = .ok r' → r'.request.owner = r.request.owner →
            r'.request.idempotencyKey ≠ r.request.idempotencyKey)

end

section

variable (h : Coherent s)
include h

theorem Coherent.reservationRule : ReservationRule pf options s := by
  intro id r hr halloc
  obtain ⟨contextID, e, hheld⟩ := h.holds hr halloc
  refine ⟨⟨contextID, e, hheld.located, hheld.stored, hheld.active⟩, ?_, ?_⟩
  · intro id' r' hr' halloc' hsame
    obtain ⟨contextID', e', hheld'⟩ := h.holds hr' halloc'
    have hcontext : contextID' = contextID := by
      rw [hheld.located, hheld'.located] at hsame
      exact Option.some.inj hsame
    have hentry := hheld'.stored
    rw [hcontext, hheld.stored] at hentry
    cases hentry
    rw [← (h.named hr').1, ← hheld'.held, hheld.held, (h.named hr).1]
  · intro assistantResult factory clock
    have hrequire : s.requireReservation (some { reservationID := id }) = .ok r := by
      rw [requireReservation]
      rw [hr]
      rfl
    obtain ⟨key, e', hcommitted⟩ := h.exists_committed hr halloc assistantResult factory
      (r.effectiveTTLSeconds.map fun ttl => clock.first + seconds ttl)
    unfold commit
    rw [hrequire]
    dsimp only
    rw [hcommitted]
    exact ⟨_, rfl⟩

/-- A commit that succeeds settles its reservation. -/
theorem Coherent.commit_ok {ref : Option ReservationRef} {assistantResult : LlmMessageDto}
    {factory : Nat → Except GoString GoString} {clock : Readings} {receipt : LlmContextReceiptDto}
    (hok : (s.commit pf options ref assistantResult factory clock).1 = .ok receipt) :
    ∃ (id : GoString) (r : LlmContextMutationReservation) (e : LlmContextEntry),
      s.requireReservation ref = .ok r ∧ s.reservations[id]? = some r ∧
      Commits s r assistantResult receipt.contextID e ∧ e.version = receipt.version ∧
      (s.commit pf options ref assistantResult factory clock).2 =
        s.settle r receipt.contextID e receipt (clock.second + options.idempotencyTTL) := by
  rcases commit_cases pf options s ref assistantResult factory clock with
    ⟨err, heq⟩ | ⟨r, expiry, key, e, receipt', hr, hcommitted, hid, hversion, heq⟩
  · rw [heq] at hok
    cases hok
  · rw [heq] at hok ⊢
    cases hok
    obtain ⟨id, -, hstored⟩ := of_requireReservation hr
    have hcommits := h.commits hstored hcommitted
    rw [hcommits.located] at hid
    subst hid
    exact ⟨id, r, e, hr, hstored, hcommits, hversion.symm, rfl⟩

theorem Coherent.transcriptRule
    (hreserved : ∀ {id : GoString} {r : LlmContextMutationReservation}, s.reservations[id]? = some r →
      Reserved options history r) : TranscriptRule pf options s history := by
  intro ref assistantResult factory clock receipt hok
  obtain ⟨id, r, e, hr, hstored, hcommits, hversion, heq⟩ := h.commit_ok hok
  refine ⟨r, e, hr, ?_, hversion, hcommits.transcript, hreserved hstored⟩
  rw [heq]
  exact getElem?_insert_self _ _ _

theorem Coherent.retryRule : RetryRule pf options s := by
  intro ref assistantResult factory clock receipt r hok hr
  obtain ⟨id, r', e, hr', hstored, hcommits, -, heq⟩ := h.commit_ok hok
  rw [hr] at hr'
  cases hr'
  rw [heq]
  have hsettled : Coherent (s.settle r receipt.contextID e receipt (clock.second + options.idempotencyTTL)) :=
    h.settle hstored hcommits receipt _
  refine ⟨_, rfl, rfl, getElem?_insert_self _ _ _, fun later events hrun hfresh => ⟨?_, ?_⟩⟩
  · intro hearly
    refine (run_invariant_of_steps (step pf options)
      (I := fun s' => Coherent s' ∧ s'.idempotency[completionKey r.request]? = some _)
      (C := fun s' event => Fresh s' event ∧
        ∀ now ∈ event.sweeps, now < clock.second + options.idempotencyTTL) ?_ hrun
      ⟨hsettled, getElem?_insert_self _ _ _⟩
      fun p hp => ⟨hfresh p hp, hearly p.2 (mem_of_mem_steps _ hp)⟩).2
    rintro s' event _ ⟨hcoherent, houtcome⟩ ⟨hevent, htimes⟩ hstep
    cases hstep
    refine ⟨hcoherent.call hevent, ?_⟩
    rcases hcoherent.outcome_call houtcome nofun with hkept | ⟨now, hnow, hpast⟩
    · exact hkept
    · exact absurd hpast (not_le.mpr (htimes now hnow))
  · intro houtcome ref' r' hr' howner hkey
    obtain ⟨id', -, hstored'⟩ := of_requireReservation hr'
    have hlater : Coherent later :=
      run_invariant_of_steps (step pf options) (C := Fresh)
        (fun _ _ _ hcoherent hevent hstep => by cases hstep; exact hcoherent.call hevent) hrun hsettled hfresh
    refine hlater.completionKey_ne_of_outcome hstored' houtcome (fun hbusy => by cases hbusy) ?_
    rw [completionKey, completionKey, howner, hkey]

end

instance (s : InMemoryLlmContextStore) (event : Event) : Decidable (Fresh s event) :=
  match event with
  | .reserve _ reservationID _ =>
    inferInstanceAs (Decidable (reservationID ≠ [] ∧ s.reservations[reservationID]? = none))
  | .commit .. | .abort .. | .release .. | .status .. | .snapshot .. | .sweepExpired .. => isTrue trivial

/-- In every state of a run with fresh names the five rules hold. -/
theorem context_log {events : List Event} (hrun : run (step pf options) {} events = some s)
    (hfresh : ∀ p ∈ steps (step pf options) {} events, Fresh p.1 p.2) :
    VersionRule pf options s ∧ ReservationRule pf options s ∧
      TranscriptRule pf options s (steps (step pf options) {} events) ∧
      FailureRule pf options s ∧ RetryRule pf options s := by
  obtain ⟨hcoherent, hreserved⟩ := coherent_run hrun hfresh
  exact ⟨fun _ _ _ _ he he' => hcoherent.version_call he he', hcoherent.reservationRule,
    hcoherent.transcriptRule hreserved, fun _ hfailed => preserves_of_error hfailed, hcoherent.retryRule⟩

/-! ### A conversation -/

def plainLlm : LlmPlatform where
  sha256 bs := bs.take 32
  quote name := name
  formatTime := GoTime.isoTime

def chatOptions : LlmContextStoreOptions := ({} : LlmContextStoreOptions).withDefaults

def chatOwner : LlmContextOwner := { nid := "urn:nps:agent:ca:a", securityScope := "prod" }

def chatBinding : LlmContextBinding :=
  { model := "m", systemMessages := none, tools := none, runtimeRevision := "1" }

def said (role text : GoString) : LlmMessageDto := { role := role, content := some text }

def chatID : GoString := "AAAAAAAAAAAAAAAAAAAAAA"

def createChat : LlmContextMutationRequest :=
  { operation := .create, owner := chatOwner, contextID := none, baseVersion := none, binding := chatBinding,
    messages := [said "user" "hello"], ttlSeconds := none, idempotencyKey := "k1", requestID := "q1" }

def appendChat : LlmContextMutationRequest :=
  { createChat with operation := .append, contextID := some chatID, baseVersion := some 1,
                    messages := [said "user" "more"], idempotencyKey := "k2", requestID := "q2" }

def atStart : Readings := { first := 0, second := 0, third := 0 }

def exchange (request : LlmContextMutationRequest) (reservationID : GoString) : List Event :=
  [.reserve request reservationID atStart,
    .commit (some { reservationID := reservationID }) (said "assistant" "yes") (fun _ => .ok chatID) atStart]

def chat : List Event := exchange createChat "r1" ++ exchange appendChat "r2"

def afterChat : Option InMemoryLlmContextStore := run (step plainLlm chatOptions) {} chat

theorem chat_logged : ∃ s, afterChat = some s ∧
    (s.contexts[chatID]?).map (fun e => (e.version, e.transcript.length)) = some (2, 4) ∧
    VersionRule plainLlm chatOptions s ∧ ReservationRule plainLlm chatOptions s ∧
      TranscriptRule plainLlm chatOptions s (steps (step plainLlm chatOptions) {} chat) ∧
      FailureRule plainLlm chatOptions s ∧ RetryRule plainLlm chatOptions s := by
  have hstored : afterChat.map (fun s =>
      (s.contexts[chatID]?).map fun e => (e.version, e.transcript.length)) = some (some (2, 4)) := by
    decide +kernel
  obtain ⟨s, hs, hversion⟩ := Option.map_eq_some_iff.mp hstored
  exact ⟨s, hs, hversion, context_log hs (by decide +kernel)⟩

end NpsSdk.Nwp.InMemoryLlmContextStore
