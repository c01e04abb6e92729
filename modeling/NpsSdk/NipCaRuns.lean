import NpsSdk.Ledger
import NpsSdk.NipIssuance
import NpsSdk.Transition

/-! Runs of the CA: calls of the service and readings of a clock that never goes back. A store is seen as a ledger of
certificates, which an issuing call adds to and a revocation marks. -/

namespace NpsSdk.Nip

open Ledger Transition
open SqlNipCaStore List

theorem exists_ok_of_any {ε α : Type} {p : α → Bool} {x : Except ε α} (h : x.toOption.any p = true) :
    ∃ a, x = .ok a ∧ p a = true := by
  cases x with
  | error err => cases h
  | ok a => exact ⟨a, rfl, h⟩

/-! ### Stores as ledgers -/

/-- How the contents of a store are a list of entries. -/
structure StoreLedger {σ : Type} (store : NipCaStore σ) (ε : Type) where
  entries : σ → List ε
  entryOf : NipCertRecord → ε
  serial : ε → GoString
  Marks : ε → ε → Prop
  marks_refl : ∀ e, Marks e e
  marks_trans : ∀ a b c, Marks a b → Marks b c → Marks a c
  serial_entryOf : ∀ record, serial (entryOf record) = record.serial
  serial_of_marks : ∀ {a b}, Marks a b → serial b = serial a
  save_ok : ∀ {s s' record}, store.save s record = .ok s' →
    entries s' = entries s ++ [entryOf record] ∧ ∀ e ∈ entries s, serial e ≠ record.serial
  revoke_ok : ∀ {s s' nid reason t found}, store.revoke s nid reason t = .ok (found, s') →
    List.Forall₂ Marks (entries s) (entries s')
  nextSerial_ok : ∀ {s s' serial}, store.nextSerial s = .ok (serial, s') → entries s' = entries s

section

variable {N : Type} {pf : Platform N} {σ ε : Type} (ca : NipCaService pf σ) (L : StoreLedger ca.store ε)

/-- A call either fails and adds nothing, or adds the entry of its request under a new serial. -/
theorem IssuingCall.run_entries (call : IssuingCall) (s : σ) :
    (L.entries (call.run ca s).1 = L.entries s ∧ ∃ err, (call.run ca s).2 = .error err) ∨
      ∃ req frame, call.request ca s = some req ∧ (call.run ca s).2 = .ok frame ∧ frame.nid = req.nid ∧
        L.entries (call.run ca s).1 = L.entries s ++ [L.entryOf (ca.recordOf req frame.serial)] ∧
        ∀ e ∈ L.entries s, L.serial e ≠ frame.serial := by
  rcases call.run_eq ca s with ⟨-, err, hrun⟩ | ⟨req, complete, hreq, hrun, hcomplete⟩
  · rw [hrun]
    exact .inl ⟨rfl, err, rfl⟩
  rw [hrun]
  unfold NipCaService.issue
  cases hserial : ca.store.nextSerial s with
  | error err => exact .inl ⟨rfl, _, rfl⟩
  | ok taken =>
    obtain ⟨serial, s₁⟩ := taken
    have hsame := L.nextSerial_ok hserial
    dsimp only
    cases hdraft : ca.issueFrame req serial with
    | error err => exact .inl ⟨hsame, _, rfl⟩
    | ok draft =>
      dsimp only
      cases hframe : complete serial draft with
      | error err => exact .inl ⟨hsame, _, rfl⟩
      | ok frame =>
        cases hsave : ca.store.save s₁ (ca.recordOf req serial) with
        | error err => exact .inl ⟨hsame, _, rfl⟩
        | ok s₂ =>
          obtain ⟨hentries, hnew⟩ := L.save_ok hsave
          obtain ⟨scope, metadata, -, -, hissued⟩ := issueFrame_spec ca hdraft
          obtain ⟨certFormat, certChain, rfl⟩ := hcomplete _ _ _ hframe
          rw [hsame] at hentries hnew
          rw [hissued]
          exact .inr ⟨req, _, hreq, rfl, rfl, hentries, hnew⟩

variable {now : Time}

/-- What a revocation in the store keeps, the revocation of some children keeps. -/
theorem NipCaService.revokeChildren_invariant {I : σ → Prop}
    (hI : ∀ {s s' nid reason found}, I s → ca.store.revoke s nid reason now = .ok (found, s') → I s') {s : σ}
    (hs : I s) (children : List NipCertRecord) : I (ca.revokeChildren s now children) := by
  induction children generalizing s with
  | nil => exact hs
  | cons child children ih =>
    rw [NipCaService.revokeChildren, foldl_cons]
    refine ih ?_
    split_ifs
    · exact hs
    split
    · rename_i hrevoke
      exact hI hs hrevoke
    · exact hs

/-- What a revocation in the store keeps, a revocation with all its children keeps. -/
theorem NipCaService.revoke_invariant {I : σ → Prop}
    (hI : ∀ {s s' nid reason found}, I s → ca.store.revoke s nid reason now = .ok (found, s') → I s') {s : σ}
    (hs : I s) (nid reason : GoString) : I (ca.revoke s now nid reason).1 := by
  unfold NipCaService.revoke
  split
  · exact hs
  split
  · exact hs
  · rename_i hrevoke
    exact hI hs hrevoke
  rename_i hrevoke
  split_ifs
  · exact ca.revokeChildren_invariant hI (hI hs hrevoke) _
  · exact hI hs hrevoke

theorem NipCaService.revoke_ok {s s' : σ} {nid reason : GoString} {frame : RevokeFrame}
    (h : ca.revoke s now nid reason = (s', .ok frame)) :
    ∃ rec s₁, ca.store.lookup s nid = some rec ∧ ca.store.revoke s nid reason now = .ok (true, s₁) ∧
      s' = if rec.nidRole = some identLineageRoleGroup then
        ca.revokeChildren s₁ now (ca.store.getByParentNid s₁ nid).1 else s₁ := by
  unfold NipCaService.revoke at h
  split at h
  · cases h
  rename_i rec hrec
  split at h
  · cases h
  · cases h
  rename_i s₁ hrevoke
  cases h
  exact ⟨rec, s₁, hrec, hrevoke, rfl⟩

/-- What a revocation makes of the entries it finds, it makes of those found before it. -/
theorem StoreLedger.forall₂_revoke {store : NipCaStore σ} (L : StoreLedger store ε) {entries : List ε} {s s' : σ}
    {nid reason : GoString} {found : Bool} (h : List.Forall₂ L.Marks entries (L.entries s))
    (hrevoke : store.revoke s nid reason now = .ok (found, s')) :
    List.Forall₂ L.Marks entries (L.entries s') := forall₂_trans L.marks_trans h (L.revoke_ok hrevoke)

theorem StoreLedger.forall₂_self {store : NipCaStore σ} (L : StoreLedger store ε) (entries : List ε) :
    List.Forall₂ L.Marks entries entries := forall₂_same.mpr fun e _ => L.marks_refl e

theorem NipCaService.revokeChildren_entries (s : σ) (now : Time) (children : List NipCertRecord) :
    List.Forall₂ L.Marks (L.entries s) (L.entries (ca.revokeChildren s now children)) :=
  ca.revokeChildren_invariant (I := fun s' => List.Forall₂ L.Marks (L.entries s) (L.entries s'))
    L.forall₂_revoke (L.forall₂_self _) children

theorem NipCaService.revoke_entries (s : σ) (now : Time) (nid reason : GoString) :
    List.Forall₂ L.Marks (L.entries s) (L.entries (ca.revoke s now nid reason).1) :=
  ca.revoke_invariant (I := fun s' => List.Forall₂ L.Marks (L.entries s) (L.entries s'))
    L.forall₂_revoke (L.forall₂_self _) nid reason

end

/-! ### The two stores -/

/-- A record stays as it is, or is revoked. -/
def NipCertRecord.Marked (a b : NipCertRecord) : Prop :=
  b = a ∨ (a.revokedAt = none ∧ ∃ reason t, b = a.markRevoked reason t)

theorem NipCertRecord.Marked.trans {a b c : NipCertRecord} (hab : a.Marked b) (hbc : b.Marked c) : a.Marked c := by
  rcases hab with rfl | ⟨hnone, reason, t, rfl⟩
  · exact hbc
  rcases hbc with rfl | ⟨hagain, -⟩
  · exact .inr ⟨hnone, reason, t, rfl⟩
  · cases hagain

/-- The element that is changed is the last one that passes the test. -/
theorem modifyLast_spec {α : Type} {p : α → Bool} {f : α → α} (l : List α) :
    (modifyLast p f l = none ∧ ∀ y ∈ l, p y = false) ∨
      ∃ before x after, l = before ++ x :: after ∧ p x = true ∧ (∀ y ∈ after, p y = false) ∧
        modifyLast p f l = some (before ++ f x :: after) := by
  induction l with
  | nil => exact .inl ⟨rfl, forall_mem_nil _⟩
  | cons a l ih =>
    rw [modifyLast]
    rcases ih with ⟨hnone, hall⟩ | ⟨before, x, after, rfl, hx, hafter, hsome⟩
    · rw [hnone]
      by_cases ha : p a = true
      · exact .inr ⟨[], a, l, rfl, ha, hall, if_pos ha⟩
      · exact .inl ⟨if_neg ha, forall_mem_cons.mpr ⟨Bool.eq_false_iff.mpr ha, hall⟩⟩
    · rw [hsome]
      exact .inr ⟨a :: before, x, after, rfl, hx, hafter, rfl⟩

namespace NipCertRecord

theorem live_iff {nid : GoString} {r : NipCertRecord} : r.live nid = true ↔ r.nid = nid ∧ r.revokedAt = none := by
  rw [live, Bool.and_eq_true, decide_eq_true_eq, Option.isNone_iff_eq_none]

theorem isSome_of_not_live {nid : GoString} {r : NipCertRecord} (h : r.live nid = false)
    (hnid : r.nid = nid) : r.revokedAt.isSome = true := by
  rw [live, decide_eq_true hnid] at h
  exact Option.isSome_iff_ne_none.mpr fun hnone => by rw [hnone] at h; cases h

end NipCertRecord

/-- A revocation in memory finds nothing, or marks the last live record of the name. -/
theorem InMemoryNipCaStore.revoke_spec (s : InMemoryNipCaStore) (nid reason : GoString) (t : Time) :
    (s.revoke nid reason t = (false, s) ∧ ∀ r ∈ s.records, r.live nid = false) ∨
      ∃ before r after, s.records = before ++ r :: after ∧ r.live nid = true ∧ (∀ y ∈ after, y.live nid = false) ∧
        s.revoke nid reason t = (true, { s with records := before ++ r.markRevoked reason t :: after }) := by
  unfold InMemoryNipCaStore.revoke
  rcases modifyLast_spec (p := (·.live nid)) (f := (·.markRevoked reason t)) s.records with
    ⟨hnone, hall⟩ | ⟨before, r, after, hsplit, hr, hafter, hsome⟩
  · rw [hnone]
    exact .inl ⟨rfl, hall⟩
  · rw [hsome]
    exact .inr ⟨before, r, after, hsplit, hr, hafter, rfl⟩

theorem InMemoryNipCaStore.forall₂_revoke (s : InMemoryNipCaStore) (nid reason : GoString) (t : Time) :
    List.Forall₂ NipCertRecord.Marked s.records (s.revoke nid reason t).2.records := by
  have hsame : ∀ records : List NipCertRecord, List.Forall₂ NipCertRecord.Marked records records :=
    fun _ => forall₂_same.mpr fun _ _ => .inl rfl
  rcases s.revoke_spec nid reason t with ⟨hrevoke, -⟩ | ⟨before, r, after, hsplit, hr, -, hrevoke⟩
  · rw [hrevoke]
    exact hsame _
  rw [hrevoke, hsplit]
  refine rel_append (hsame before) (.cons ?_ (hsame after))
  exact .inr ⟨(NipCertRecord.live_iff.mp hr).2, reason, t, rfl⟩

def memoryLedger : StoreLedger inMemoryStore NipCertRecord where
  entries := InMemoryNipCaStore.records
  entryOf record := record
  serial := NipCertRecord.serial
  Marks := NipCertRecord.Marked
  marks_refl _ := .inl rfl
  marks_trans _ _ _ := NipCertRecord.Marked.trans
  serial_entryOf _ := rfl
  serial_of_marks := by
    rintro a _ (rfl | ⟨-, reason, t, rfl⟩) <;> rfl
  save_ok {s s' record} h := by
    change InMemoryNipCaStore.save s record = _ at h
    unfold InMemoryNipCaStore.save at h
    split_ifs at h with hany
    cases h
    refine ⟨rfl, ?_⟩
    rw [Bool.not_eq_true, any_eq_false] at hany
    intro r hr
    exact fun heq => hany r hr (decide_eq_true heq)
  revoke_ok {s s' nid reason t _} h := by
    obtain rfl : (s.revoke nid reason t).2 = s' := congrArg Prod.snd (Except.ok.inj h)
    exact s.forall₂_revoke nid reason t
  nextSerial_ok h := by
    cases h
    rfl

namespace CertRow

def markRevoked (reason revokedAt : GoString) (row : CertRow) : CertRow :=
  { row with revokedAt := some revokedAt, revokeReason := some reason }

/-- A row stays as it is, or is revoked. -/
def Marked (a b : CertRow) : Prop :=
  b = a ∨ (a.revokedAt = none ∧ ∃ reason text, b = a.markRevoked reason text)

theorem Marked.trans {a b c : CertRow} (hab : a.Marked b) (hbc : b.Marked c) : a.Marked c := by
  rcases hab with rfl | ⟨hnone, reason, text, rfl⟩
  · exact hbc
  rcases hbc with rfl | ⟨hagain, -⟩
  · exact .inr ⟨hnone, reason, text, rfl⟩
  · cases hagain

end CertRow

theorem SqlNipCaStore.forall₂_revoke (s : SqlNipCaStore) (nid reason : GoString) (t : Time) :
    List.Forall₂ CertRow.Marked s.rows (s.revoke nid reason t).2.rows := by
  unfold revoke
  rw [forall₂_map_right_iff]
  refine forall₂_same.mpr ?_
  intro row _
  split_ifs with hrow
  · refine .inr ⟨?_, reason, GoTime.isoTime t, rfl⟩
    exact Option.isNone_iff_eq_none.mp ((Bool.and_eq_true _ _).mp hrow).2
  · exact .inl rfl

def sqlLedger {N : Type} (pf : Platform N) (db : SqlEngine) : StoreLedger (sqlStore pf db) CertRow where
  entries := rows
  entryOf := rowOf pf
  serial := CertRow.serial
  Marks := CertRow.Marked
  marks_refl _ := .inl rfl
  marks_trans _ _ _ := CertRow.Marked.trans
  serial_entryOf _ := rfl
  serial_of_marks := by
    rintro a _ (rfl | ⟨-, reason, text, rfl⟩) <;> rfl
  save_ok {s s' record} h := by
    change save pf db s record = _ at h
    unfold save at h
    split_ifs at h with hany
    cases h
    refine ⟨rfl, ?_⟩
    rw [Bool.not_eq_true, any_eq_false] at hany
    intro row hrow
    exact fun heq => hany row hrow (decide_eq_true heq)
  revoke_ok {s s' nid reason t _} h := by
    obtain rfl : (s.revoke nid reason t).2 = s' := congrArg Prod.snd (Except.ok.inj h)
    exact s.forall₂_revoke nid reason t
  nextSerial_ok h := by
    cases h
    rfl

/-! ### Runs -/

/-- The contents of the store and the latest reading of the clock. -/
structure CaState (σ : Type) where
  store : σ
  clock : Time

inductive CaEvent where
  | issue (call : IssuingCall)
  | revoke (now : Time) (nid reason : GoString)
  | advance (now : Time)

def IssuingCall.readings : IssuingCall → List Time
  | .register now _ _ _ _ _ _ | .registerX509 _ now _ _ _ _ _ _ _ _ | .registerGroup now _ _ _ _ _ _ _ _
  | .renew now _ => [now]
  | .issueSession draw _ _ _ => [draw.checkedAt, draw.namedAt, draw.issuedAt]

def CaEvent.readings : CaEvent → List Time
  | .issue call => call.readings
  | .revoke now _ _ | .advance now => [now]

/-- The clock after some readings, if it did not go back. -/
def passClock (clock : Time) (readings : List Time) : Option Time :=
  readings.foldlM (fun clock now => if clock ≤ now then some now else none) clock

theorem passClock_le {clock clock' : Time} {readings : List Time} (h : passClock clock readings = some clock') :
    clock ≤ clock' ∧ ∀ now ∈ readings, clock ≤ now ∧ now ≤ clock' := by
  induction readings generalizing clock with
  | nil =>
    cases h
    exact ⟨le_refl _, forall_mem_nil _⟩
  | cons now readings ih =>
    obtain ⟨now', hnow, hrest⟩ := Option.bind_eq_some_iff.mp h
    dsimp only at hnow
    split_ifs at hnow with hle
    cases hnow
    obtain ⟨hfinal, hall⟩ := ih hrest
    refine ⟨le_trans hle hfinal, forall_mem_cons.mpr ⟨⟨hle, hfinal⟩, ?_⟩⟩
    intro later hlater
    exact ⟨le_trans hle (hall later hlater).1, (hall later hlater).2⟩

section

variable {N : Type} {pf : Platform N} {σ ε : Type} (ca : NipCaService pf σ)

def CaEvent.contents (s : σ) : CaEvent → σ
  | .issue call => (call.run ca s).1
  | .revoke now nid reason => (ca.revoke s now nid reason).1
  | .advance _ => s

def caStep (st : CaState σ) (event : CaEvent) : Option (CaState σ) :=
  (passClock st.clock event.readings).map fun clock =>
    { store := event.contents ca st.store, clock := clock }

variable {ca} in
theorem caStep_eq {st st' : CaState σ} {event : CaEvent} (h : caStep ca st event = some st') :
    st'.store = event.contents ca st.store ∧ st.clock ≤ st'.clock ∧
      ∀ now ∈ event.readings, st.clock ≤ now ∧ now ≤ st'.clock := by
  obtain ⟨clock, hclock, rfl⟩ := Option.map_eq_some_iff.mp h
  exact ⟨rfl, passClock_le hclock⟩

variable {ca} in
theorem clock_le_of_run {st st' : CaState σ} {events : List CaEvent}
    (h : run (caStep ca) st events = some st') : st.clock ≤ st'.clock := by
  refine run_invariant (caStep ca) (I := fun st' => st.clock ≤ st'.clock) ?_ h (le_refl _)
  intro v event v' hv hstep
  exact le_trans hv (caStep_eq hstep).2.1

/-! ### The ledger along a run -/

variable (L : StoreLedger ca.store ε)

theorem CaEvent.contents_entries (event : CaEvent) (s : σ) :
    (∃ call req frame, event = .issue call ∧ call.request ca s = some req ∧ (call.run ca s).2 = .ok frame ∧
      L.entries (event.contents ca s) = L.entries s ++ [L.entryOf (ca.recordOf req frame.serial)] ∧
      ∀ e ∈ L.entries s, L.serial e ≠ frame.serial) ∨
      List.Forall₂ L.Marks (L.entries s) (L.entries (event.contents ca s)) := by
  have hsame := L.forall₂_self (L.entries s)
  cases event with
  | issue call =>
    rcases call.run_entries ca L s with ⟨hentries, -⟩ | ⟨req, frame, hreq, hframe, -, hentries, hnew⟩
    · right
      rw [contents, hentries]
      exact hsame
    · exact .inl ⟨call, req, frame, rfl, hreq, hframe, hentries, hnew⟩
  | revoke now nid reason => exact .inr (ca.revoke_entries L s now nid reason)
  | advance now => exact .inr hsame

theorem extends_of_contents (event : CaEvent) (s : σ) :
    Extends L.Marks (L.entries s) (L.entries (event.contents ca s)) := by
  rcases event.contents_entries ca L s with ⟨_, _, _, _, _, _, hentries, _⟩ | hmarks
  · rw [hentries]
    exact Extends.append L.marks_refl _ _
  · exact Extends.of_forall₂ hmarks

variable {ca} in
theorem extends_of_run {st st' : CaState σ} {events : List CaEvent} (h : run (caStep ca) st events = some st') :
    Extends L.Marks (L.entries st.store) (L.entries st'.store) := by
  refine run_invariant (caStep ca)
    (I := fun st' => Extends L.Marks (L.entries st.store) (L.entries st'.store)) ?_ h
    (Extends.refl L.marks_refl _)
  intro v event v' hv hstep
  rw [(caStep_eq hstep).1]
  exact hv.trans L.marks_trans (extends_of_contents ca L event v.store)

def SerialsDiffer (s : σ) : Prop := (L.entries s).Pairwise fun a b => L.serial a ≠ L.serial b

variable {ca} in
theorem serialsDiffer_of_run {st st' : CaState σ} {events : List CaEvent}
    (h : run (caStep ca) st events = some st') (hst : SerialsDiffer ca L st.store) : SerialsDiffer ca L st'.store := by
  refine run_invariant (caStep ca) (I := fun st => SerialsDiffer ca L st.store) ?_ h hst
  intro v event v' hv hstep
  unfold SerialsDiffer
  rw [(caStep_eq hstep).1]
  rcases event.contents_entries ca L v.store with ⟨_, _, frame, _, _, _, hentries, hnew⟩ | hmarks
  · rw [hentries]
    refine pairwise_append_singleton hv ?_
    intro e he
    rw [L.serial_entryOf]
    exact hnew e he
  · refine pairwise_of_forall₂ ?_ hmarks hv
    intro a b a' b' ha hb hne
    rw [L.serial_of_marks ha, L.serial_of_marks hb]
    exact hne

def Issued (st : CaState σ) (events : List CaEvent) (req : IssueRequest N) (serial : GoString) : Prop :=
  ∃ v call frame, (v, CaEvent.issue call) ∈ steps (caStep ca) st events ∧
    call.request ca v.store = some req ∧ (call.run ca v.store).2 = .ok frame ∧ frame.serial = serial

variable {ca} in
/-- What was issued is on the ledger. -/
theorem exists_entry_of_issued {st st' : CaState σ} {events : List CaEvent}
    (h : run (caStep ca) st events = some st') {req : IssueRequest N} {serial : GoString}
    (hissued : Issued ca st events req serial) :
    ∃ e ∈ L.entries st'.store, L.Marks (L.entryOf (ca.recordOf req serial)) e := by
  obtain ⟨v, call, frame, hstep, hreq, hframe, rfl⟩ := hissued
  obtain ⟨before, after, v', -, -, hv', hafter⟩ := steps_split (caStep ca) h hstep
  refine (extends_of_run L hafter).exists_mem ?_
  rw [(caStep_eq hv').1]
  rcases call.run_entries ca L v.store with ⟨-, err, herr⟩ | ⟨req', frame', hreq', hframe', -, hentries, -⟩
  · rw [hframe] at herr
    cases herr
  rw [hframe] at hframe'
  rw [hreq] at hreq'
  cases hframe'
  cases hreq'
  rw [CaEvent.contents, hentries]
  exact mem_append_right _ (mem_singleton.mpr rfl)

end

end NpsSdk.Nip
