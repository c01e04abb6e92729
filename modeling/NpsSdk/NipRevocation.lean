import NpsSdk.NipLineage

/-! What a revocation of a name does to all of its certificates. The store in a database marks every one
of them, so that each is reported revoked as long as the dates in the table can be read. The store in
memory marks the latest one only: a certificate that was renewed before it expired stays good. -/

namespace NpsSdk.Nip

open Ledger Transition GoString NipCertRecord
open SqlNipCaStore
open JsonValue List

/-! ### What is reported -/

def NipCaStore.revocationSource {σ : Type} (store : NipCaStore σ) (s : σ) (serial : GoString) :
    Option NipCertRecord × Bool :=
  match store.getBySerial s serial with
  | .ok record => (record, false)
  | .error _ => (none, true)

section

variable {N : Type} {pf : Platform N} {σ : Type} (ca : NipCaService pf σ)

/-- A serial is revoked for whoever asks. -/
structure ReportedRevoked (s : σ) (serial : GoString) : Prop where
  bySerial : ∃ record, ca.store.getBySerial s serial = .ok (some record) ∧ record.serial = serial ∧
    record.revokedAt.isSome = true
  crl : (∃ record ∈ (ca.getCrl s).1, record.serial = serial) ∧ (ca.getCrl s).2 = none
  rejected : ∀ (env : VerifierEnv) (v : NipIdentVerifier pf) (frame : IdentFrame N)
    (vctx : VerifyContext), v.options.revocationStore = some (ca.store.revocationSource s) →
    frame.serial = serial → (v.verifyFull env frame vctx).valid = false

theorem verifyFull_of_storeRevoked {env : VerifierEnv} {v : NipIdentVerifier pf} {frame : IdentFrame N}
    (vctx : VerifyContext) (h : StoreRevoked v.options frame) : (v.verifyFull env frame vctx).valid = false := by
  rw [Bool.eq_false_iff, ne_eq, verifyFull_valid_iff]
  rintro ⟨-, -, -, hrevocation, -, -⟩
  exact (checkRevocation_valid_iff.mp hrevocation).2.2.1 (Or.inl h)

theorem ReportedRevoked.of_store {s : σ} {serial : GoString} {record : NipCertRecord}
    (hserial : ca.store.getBySerial s serial = .ok (some record)) (heq : record.serial = serial)
    (hrevoked : record.revokedAt.isSome = true)
    (hcrl : (∃ record ∈ (ca.getCrl s).1, record.serial = serial) ∧ (ca.getCrl s).2 = none) :
    ReportedRevoked ca s serial where
  bySerial := ⟨record, hserial, heq, hrevoked⟩
  crl := hcrl
  rejected := by
    intro env v frame vctx hsource hframe
    refine verifyFull_of_storeRevoked vctx ⟨_, record, hsource, ?_, hrevoked⟩
    rw [NipCaStore.revocationSource, hframe, hserial]

/-! ### Names that are revoked -/

def NewName (st : CaState σ) : CaEvent → Prop
  | .issue (.issueSession draw _ _ _) => ca.store.lookup st.store (ca.sessionNid draw) = none
  | _ => True

variable {ca} in
/-- While the record of a name is a revoked one, nothing is issued for the name. -/
theorem request_nid_ne {st : CaState σ} {call : IssuingCall} {req : IssueRequest N}
    (hreq : call.request ca st.store = some req) (hnew : NewName ca st (.issue call)) {nid : GoString}
    {record : NipCertRecord} (hfound : ca.store.lookup st.store nid = some record)
    (hrevoked : record.revokedAt.isSome = true) : req.nid ≠ nid := by
  rintro rfl
  rcases call.request_cases ca hreq with
    ⟨hfresh, -⟩ | ⟨draw, groupNid, key, p, group, rfl, -, -, rfl⟩ | ⟨now, nid, rec, rfl, hrec, hlive, rfl⟩
  · rw [hfresh] at hfound
    cases hfound
  · have hfresh : ca.store.lookup st.store (ca.sessionNid draw) = none := hnew
    have hnid : ca.store.lookup st.store (ca.sessionNid draw) = some record := hfound
    rw [hfresh] at hnid
    cases hnid
  · have hsame : ca.store.lookup st.store nid = some record := hfound
    rw [hrec] at hsame
    cases hsame
    rw [hlive] at hrevoked
    cases hrevoked

end

/-! ### In memory -/

section

variable {N : Type} {pf : Platform N} {opts : NipCaOptions} {keys : NipIdentity pf.ed}

/-- The current record of the name is revoked, and every record that is not has expired. -/
structure Superseded (nid : GoString) (now : Time) (s : InMemoryNipCaStore) : Prop where
  current : ∃ record, s.getByNid nid = some record ∧ record.revokedAt.isSome = true
  expired : ∀ r ∈ s.records, r.nid = nid → r.revokedAt = none → r.expiresAt < now

def LatestRevoked (nid : GoString) (s : InMemoryNipCaStore) : Prop :=
  ∃ record, s.getByNid nid = some record ∧ record.revokedAt.isSome = true

variable {nid : GoString} {s s' : InMemoryNipCaStore} {now : Time}

/-- The latest record of a name stays the latest when records are revoked. -/
theorem getByNid_of_forall₂ (hmarks : List.Forall₂ NipCertRecord.Marked s.records s'.records)
    {record : NipCertRecord} (h : s.getByNid nid = some record) :
    ∃ record', s'.getByNid nid = some record' ∧ record.Marked record' :=
  find?_of_forall₂ (R := NipCertRecord.Marked) (by
    rintro a _ (rfl | ⟨-, _, _, rfl⟩) <;> rfl) (forall₂_reverse_iff.mpr hmarks) h

theorem LatestRevoked.of_forall₂ (h : LatestRevoked nid s)
    (hmarks : List.Forall₂ NipCertRecord.Marked s.records s'.records) : LatestRevoked nid s' := by
  obtain ⟨record, hfound, hrevoked⟩ := h
  obtain ⟨record', hfound', hmark⟩ := getByNid_of_forall₂ hmarks hfound
  refine ⟨record', hfound', ?_⟩
  rcases hmark with rfl | ⟨-, _, _, rfl⟩
  · exact hrevoked
  · rfl

theorem Superseded.of_forall₂ (h : Superseded nid now s)
    (hmarks : List.Forall₂ NipCertRecord.Marked s.records s'.records) : Superseded nid now s' where
  current := LatestRevoked.of_forall₂ h.current hmarks
  expired := by
    refine forall_mem_of_forall₂ ?_ hmarks h.expired
    rintro a _ (rfl | ⟨-, _, _, rfl⟩) ha
    · exact ha
    · intro _ hnone
      cases hnone

theorem Superseded.append {r : NipCertRecord} (h : Superseded nid now s) (hrecords : s'.records = s.records ++ [r])
    (hnid : r.nid ≠ nid) : Superseded nid now s' where
  current := by
    obtain ⟨record, hfound, hrevoked⟩ := h.current
    refine ⟨record, ?_, hrevoked⟩
    rw [InMemoryNipCaStore.getByNid, hrecords, reverse_append, reverse_singleton,
      singleton_append, find?_cons_of_neg (by simpa using hnid)]
    exact hfound
  expired := by
    rw [hrecords]
    intro a ha
    rcases mem_append.mp ha with ha | ha
    · exact h.expired a ha
    · rw [mem_singleton.mp ha]
      exact fun heq => absurd heq hnid

def OthersExpired (s : InMemoryNipCaStore) (now : Time) (nid : GoString) : Prop :=
  ∀ r ∈ (s.records.filter (·.live nid)).dropLast, r.expiresAt < now

theorem superseded_revoke {nid reason : GoString} (h : inMemoryStore.revoke s nid reason now = .ok (true, s')) :
    LatestRevoked nid s' ∧ (OthersExpired s now nid → Superseded nid now s') := by
  have hs' : s.revoke nid reason now = (true, s') := Except.ok.inj h
  rcases s.revoke_spec nid reason now with ⟨hnone, -⟩ | ⟨before, x, after, hsplit, hx, hafter, hsome⟩
  · rw [hs'] at hnone
    cases hnone
  rw [hs'] at hsome
  have hrecords : s'.records = before ++ x.markRevoked reason now :: after := by
    rw [(Prod.mk.inj hsome).2]
  have hlatest : LatestRevoked nid s' := by
    have hreverse : s'.records.reverse = after.reverse ++ (x.markRevoked reason now :: before.reverse) := by
      rw [hrecords, reverse_append, reverse_cons, append_assoc, singleton_append]
    rw [LatestRevoked, InMemoryNipCaStore.getByNid, hreverse, find?_append]
    cases hlater : after.reverse.find? (·.nid = nid) with
    | some r =>
      have hnid := find?_some hlater
      have hr := mem_reverse.mp (mem_of_find?_eq_some hlater)
      exact ⟨r, rfl, isSome_of_not_live (hafter r hr) (of_decide_eq_true hnid)⟩
    | none =>
      refine ⟨x.markRevoked reason now, ?_, rfl⟩
      rw [Option.none_or]
      exact find?_cons_of_pos (decide_eq_true (live_iff.mp hx).1)
  refine ⟨hlatest, fun hothers => ⟨hlatest, ?_⟩⟩
  intro r hr hnid hlive
  refine hothers r ?_
  have hnone : after.filter (·.live nid) = [] :=
    filter_eq_nil_iff.mpr fun y hy => Bool.eq_false_iff.mp (hafter y hy)
  rw [hsplit, filter_append, filter_cons_of_pos hx, hnone, dropLast_concat]
  rw [hrecords] at hr
  rcases mem_append.mp hr with hr | hr
  · exact mem_filter.mpr ⟨hr, live_iff.mpr ⟨hnid, hlive⟩⟩
  rcases mem_cons.mp hr with rfl | hr
  · cases hlive
  have hlater := isSome_of_not_live (hafter r hr) hnid
  rw [hlive] at hlater
  cases hlater

theorem superseded_step {st st' : CaState InMemoryNipCaStore} {event : CaEvent} (h : Superseded nid now st.store)
    (hnew : NewName (memoryCa opts keys) st event) (hstep : caStep (memoryCa opts keys) st event = some st') :
    Superseded nid now st'.store := by
  rw [(caStep_eq hstep).1]
  rcases event.contents_entries (memoryCa opts keys) memoryLedger st.store with
    ⟨call, req, frame, rfl, hreq, -, hentries, -⟩ | hmarks
  · obtain ⟨record, hfound, hrevoked⟩ := h.current
    exact h.append hentries (request_nid_ne hreq hnew hfound hrevoked)
  · exact h.of_forall₂ hmarks

theorem getBySerial_memory {s : InMemoryNipCaStore}
    (h : s.records.Pairwise fun a b => a.serial ≠ b.serial) {r : NipCertRecord} (hr : r ∈ s.records) :
    s.getBySerial r.serial = some r := by
  rw [InMemoryNipCaStore.getBySerial, ← head?_filter, filter_key h hr]
  rfl

def RevokedIn {σ : Type} (ca : NipCaService pf σ) (st : CaState σ) (events : List CaEvent)
    (nid : GoString) : Prop :=
  ∃ v now reason frame, (v, CaEvent.revoke now nid reason) ∈ steps (caStep ca) st events ∧
    (ca.revoke v.store now nid reason).2 = .ok frame

/-- What the store's revocation of the name brings about holds after the call, if the revocation of the
children keeps it. -/
theorem contents_of_revoke {σ ε : Type} {ca : NipCaService pf σ} (L : StoreLedger ca.store ε) {I : σ → Prop}
    (hmarks : ∀ {s s'}, I s → List.Forall₂ L.Marks (L.entries s) (L.entries s') → I s') {s s' : σ}
    {nid reason : GoString} {frame : RevokeFrame} (h : ca.revoke s now nid reason = (s', .ok frame))
    (hfirst : ∀ {s₁}, ca.store.revoke s nid reason now = .ok (true, s₁) → I s₁) : I s' := by
  obtain ⟨rec, s₁, -, hrevoke, rfl⟩ := ca.revoke_ok h
  split_ifs
  · exact hmarks (hfirst hrevoke) (ca.revokeChildren_entries L s₁ now _)
  · exact hfirst hrevoke

variable (opts keys) in
/-- No name is drawn twice, and whatever a revocation would leave has expired. -/
def RevocableInMemory (st : CaState InMemoryNipCaStore) (event : CaEvent) : Prop :=
  NewName (memoryCa opts keys) st event ∧
    match event with
    | .revoke now nid _ => OthersExpired st.store now nid
    | _ => True

/-- From the revocation on the name is superseded. -/
theorem superseded_of_run {st₀ st : CaState InMemoryNipCaStore} {events : List CaEvent}
    (hrun : run (caStep (memoryCa opts keys)) st₀ events = some st)
    (hcond : ∀ p ∈ steps (caStep (memoryCa opts keys)) st₀ events, RevocableInMemory opts keys p.1 p.2)
    (hrevoked : RevokedIn (memoryCa opts keys) st₀ events nid) : ∃ now ≤ st.clock, Superseded nid now st.store := by
  obtain ⟨v, now, reason, frame, hstep, hframe⟩ := hrevoked
  refine ⟨now, run_invariant_from (caStep (memoryCa opts keys)) (J := fun _ => True)
    (I := fun st => now ≤ st.clock ∧ Superseded nid now st.store) (fun _ _ _ _ _ _ => trivial) ?_ hrun
    trivial hcond hstep ?_⟩
  · intro w event w' hw hc hwstep
    exact ⟨le_trans hw.1 (caStep_eq hwstep).2.1, superseded_step hw.2 hc.1 hwstep⟩
  · intro v' _ hc hv'
    refine ⟨((caStep_eq hv').2.2 now (mem_singleton.mpr rfl)).2, ?_⟩
    rw [(caStep_eq hv').1]
    exact contents_of_revoke memoryLedger .of_forall₂ (Prod.ext rfl hframe)
      fun hrevoke => (superseded_revoke hrevoke).2 hc.2

theorem reportedRevoked_memory {clock : Time} {st : CaState InMemoryNipCaStore} {events : List CaEvent}
    (hrun : run (caStep (memoryCa opts keys)) ⟨{}, clock⟩ events = some st)
    (hcond : ∀ p ∈ steps (caStep (memoryCa opts keys)) ⟨{}, clock⟩ events, RevocableInMemory opts keys p.1 p.2)
    (hrevoked : RevokedIn (memoryCa opts keys) ⟨{}, clock⟩ events nid) {req : IssueRequest N} {serial : GoString}
    (hissued : Issued (memoryCa opts keys) ⟨{}, clock⟩ events req serial) (hnid : req.nid = nid)
    (hexpiry : st.clock ≤ req.expiresAt) : ReportedRevoked (memoryCa opts keys) st.store serial := by
  obtain ⟨now, hnow, hsuperseded⟩ := superseded_of_run hrun hcond hrevoked
  obtain ⟨r, hr, hmark⟩ := exists_entry_of_issued memoryLedger hrun hissued
  have hfacts : r.nid = nid ∧ r.serial = serial ∧ r.expiresAt = req.expiresAt := by
    rcases hmark with rfl | ⟨-, _, _, rfl⟩ <;> exact ⟨hnid, rfl, rfl⟩
  have hrevokedAt : r.revokedAt.isSome = true := by
    rw [Option.isSome_iff_ne_none]
    intro hnone
    have hexpired := hsuperseded.expired r hr hfacts.1 hnone
    rw [hfacts.2.2] at hexpired
    exact absurd (le_trans hnow hexpiry) (not_le.mpr hexpired)
  have hempty : SerialsDiffer (memoryCa opts keys) memoryLedger {} := List.Pairwise.nil
  have hdiffer := serialsDiffer_of_run memoryLedger hrun hempty
  obtain ⟨-, rfl, -⟩ := hfacts
  refine .of_store _ (congrArg Except.ok (getBySerial_memory hdiffer hr)) rfl hrevokedAt ⟨⟨r, ?_, rfl⟩, rfl⟩
  exact mem_filter.mpr ⟨hr, hrevokedAt⟩

end

/-! ### In a database -/

section

variable {N : Type} (pf : Platform N)

structure Readable (row : CertRow) : Prop where
  capabilities : ∃ caps, readCapabilities pf row.capJSON = .ok caps
  issuedAt : ∃ t, readTime pf row.issuedAt = .ok t
  expiresAt : ∃ t, readTime pf row.expiresAt = .ok t
  revokedAt : ∀ text, row.revokedAt = some text → (GoTime.parse GoTime.rfc3339 text).isSome = true

variable {pf}

theorem readTime_isoTime {t : Time} (h : GoTime.FourDigitYear t) :
    readTime pf (GoTime.isoTime t) = .ok (t - t % 100) := by
  rw [readTime, GoTime.parse_isoTime h]

theorem unmarshal_strings (texts : List GoString) :
    unmarshal pf.fmt (ofChars (marshal pf.fmt (strings texts))) =
      some (.array (texts.map fun text => .string (ofChars (toChars text)))) := by
  have hdepth : ∀ texts : List GoString, depthItems (texts.map string : List (JsonValue N)) = 0 := by
    intro texts
    induction texts with
    | nil => rfl
    | cons text texts ih =>
      rw [map_cons, depthItems, ih]
      rfl
  rw [unmarshal_marshal pf.fmt _ (by rw [strings, depth, hdepth]; decide), strings,
    normal, normalItems_eq_map, map_map]
  rfl

theorem readCapabilities_text (capabilities : Option (List GoString)) :
    ∃ caps, readCapabilities pf (capabilitiesText pf capabilities) = .ok caps := by
  unfold readCapabilities
  split_ifs
  · exact ⟨_, rfl⟩
  cases capabilities with
  | none =>
    exact ⟨_, rfl⟩
  | some caps =>
    have hall : ∀ texts : List GoString,
        (texts.map fun text => (string (ofChars (toChars text)) :
          JsonValue N)).mapM (decodeString []) =
          some (texts.map fun text => ofChars (toChars text)) := by
      intro texts
      induction texts with
      | nil => rfl
      | cons text texts ih =>
        rw [map_cons, mapM_cons, ih]
        rfl
    rw [capabilitiesText, unmarshal_strings, Option.bind_some, decodeStrings, hall]
    exact ⟨_, rfl⟩

theorem readable_rowOf {record : NipCertRecord} (hissued : GoTime.FourDigitYear record.issuedAt)
    (hexpires : GoTime.FourDigitYear record.expiresAt) : Readable pf (rowOf pf record) where
  capabilities := readCapabilities_text _
  issuedAt := ⟨_, readTime_isoTime hissued⟩
  expiresAt := ⟨_, readTime_isoTime hexpires⟩
  revokedAt := nofun

theorem Readable.exists_record {row : CertRow} (h : Readable pf row) :
    ∃ record, mapRow pf row = .ok record ∧ record.serial = row.serial ∧
      record.revokedAt.isSome = row.revokedAt.isSome := by
  obtain ⟨caps, hcaps⟩ := h.capabilities
  obtain ⟨issued, hissued⟩ := h.issuedAt
  obtain ⟨expires, hexpires⟩ := h.expiresAt
  unfold mapRow
  rw [hcaps, hissued, hexpires]
  refine ⟨_, rfl, rfl, ?_⟩
  cases hrevoked : row.revokedAt with
  | none => rfl
  | some text => exact h.revokedAt text hrevoked

theorem queryFirst_cons {row : CertRow} (h : Readable pf row) (rows : List CertRow) :
    ∃ record, queryFirst pf (row :: rows) = .ok (some record) ∧
      record.serial = row.serial ∧ record.revokedAt.isSome = row.revokedAt.isSome := by
  obtain ⟨record, hrecord, hfacts⟩ := h.exists_record
  exact ⟨record, by rw [queryFirst, hrecord]; rfl, hfacts⟩

/-- A query for several rows that can be read gives a record for each. -/
theorem queryMany_readable {rows : List CertRow} (h : ∀ row ∈ rows, Readable pf row) :
    (queryMany pf rows).2 = none ∧
      ∀ row ∈ rows, ∃ record ∈ (queryMany pf rows).1, record.serial = row.serial := by
  induction rows with
  | nil => exact ⟨rfl, forall_mem_nil _⟩
  | cons row rows ih =>
    obtain ⟨hrow, hrows⟩ := forall_mem_cons.mp h
    obtain ⟨record, hrecord, hserial, -⟩ := hrow.exists_record
    obtain ⟨hnone, hall⟩ := ih hrows
    rw [queryMany, hrecord]
    refine ⟨hnone, forall_mem_cons.mpr ⟨⟨record, mem_cons_self, hserial⟩, ?_⟩⟩
    intro row' hrow'
    obtain ⟨record', hmem, hserial'⟩ := hall row' hrow'
    exact ⟨record', mem_cons_of_mem _ hmem, hserial'⟩

end

section

variable {N : Type} {pf : Platform N} {db : SqlEngine} {opts : NipCaOptions} {keys : NipIdentity pf.ed}

def sqlCa (db : SqlEngine) (opts : NipCaOptions) (keys : NipIdentity pf.ed) :
    NipCaService pf SqlNipCaStore := newNipCaService opts (sqlStore pf db) keys

/-- The dates that are written have a year of four digits. -/
def DatesReadable {σ : Type} (ca : NipCaService pf σ) (st : CaState σ) : CaEvent → Prop
  | .issue call => ∀ req ∈ call.request ca st.store,
      GoTime.FourDigitYear req.issuedAt ∧ GoTime.FourDigitYear req.expiresAt
  | .revoke now _ _ => GoTime.FourDigitYear now
  | .advance _ => True

variable (pf) in
def AllReadable (s : SqlNipCaStore) : Prop := ∀ row ∈ s.rows, Readable pf row

theorem allReadable_revoke {s : SqlNipCaStore} {now : Time} (hnow : GoTime.FourDigitYear now)
    (h : AllReadable pf s) (nid reason : GoString) : AllReadable pf (s.revoke nid reason now).2 := by
  intro row hrow
  obtain ⟨old, hold, rfl⟩ := mem_map.mp hrow
  split_ifs
  · have hread := h old hold
    refine ⟨hread.capabilities, hread.issuedAt, hread.expiresAt, ?_⟩
    intro text htext
    cases htext
    rw [GoTime.parse_isoTime hnow]
    rfl
  · exact h old hold

variable {st st' : CaState SqlNipCaStore} {nid : GoString}

theorem allReadable_step {event : CaEvent} (h : AllReadable pf st.store)
    (hdates : DatesReadable (sqlCa db opts keys) st event) (hstep : caStep (sqlCa db opts keys) st event = some st') :
    AllReadable pf st'.store := by
  rw [(caStep_eq hstep).1]
  cases event with
  | issue call =>
    rcases call.run_entries (sqlCa db opts keys) (sqlLedger pf db) st.store with
      ⟨hsame, -⟩ | ⟨req, frame, hreq, -, -, hentries, -⟩
    · have hrows : ((CaEvent.issue call).contents (sqlCa db opts keys) st.store).rows = st.store.rows :=
        hsame
      rw [AllReadable, hrows]
      exact h
    · have hrows : ((CaEvent.issue call).contents (sqlCa db opts keys) st.store).rows =
          st.store.rows ++ [rowOf pf ((sqlCa db opts keys).recordOf req frame.serial)] :=
        hentries
      rw [AllReadable, hrows, forall_mem_append]
      refine ⟨h, ?_⟩
      intro row hrow
      rw [mem_singleton.mp hrow]
      exact readable_rowOf (hdates req hreq).1 (hdates req hreq).2
  | revoke now nid reason =>
    refine (sqlCa db opts keys).revoke_invariant (I := AllReadable pf) ?_ h nid reason
    intro s s' nid reason found hs hrevoke
    rw [show s' = (s.revoke nid reason now).2 from (congrArg Prod.snd (Except.ok.inj hrevoke)).symm]
    exact allReadable_revoke hdates hs nid reason
  | advance now => exact h

structure AllRevoked (nid : GoString) (rows : List CertRow) : Prop where
  found : ∃ row ∈ rows, row.nid = nid
  revoked : ∀ row ∈ rows, row.nid = nid → row.revokedAt.isSome = true

theorem AllRevoked.of_forall₂ {rows rows' : List CertRow} (h : AllRevoked nid rows)
    (hmarks : List.Forall₂ CertRow.Marked rows rows') : AllRevoked nid rows' where
  found := by
    obtain ⟨row, hrow, hnid⟩ := h.found
    obtain ⟨row', hrow', hmark⟩ := (Extends.of_forall₂ hmarks).exists_mem hrow
    refine ⟨row', hrow', ?_⟩
    rcases hmark with rfl | ⟨-, _, _, rfl⟩ <;> exact hnid
  revoked := by
    refine forall_mem_of_forall₂ ?_ hmarks h.revoked
    rintro a _ (rfl | ⟨-, _, _, rfl⟩) ha
    · exact ha
    · exact fun _ => rfl

theorem allRevoked_revoke {s s' : SqlNipCaStore} {nid reason : GoString} {now : Time}
    (h : (sqlStore pf db).revoke s nid reason now = .ok (true, s')) : AllRevoked nid s'.rows := by
  have hs' : s.revoke nid reason now = (true, s') := Except.ok.inj h
  have hrows : s'.rows = (s.revoke nid reason now).2.rows := by rw [hs']
  have hany : s.rows.any (unrevoked nid) = true := congrArg Prod.fst hs'
  refine ⟨?_, ?_⟩
  · obtain ⟨row, hrow, hlive⟩ := any_eq_true.mp hany
    have hmarks := s.forall₂_revoke nid reason now
    rw [← hrows] at hmarks
    obtain ⟨row', hrow', hmark⟩ := (Extends.of_forall₂ hmarks).exists_mem hrow
    have hnid := of_decide_eq_true ((Bool.and_eq_true _ _).mp hlive).1
    refine ⟨row', hrow', ?_⟩
    rcases hmark with rfl | ⟨-, _, _, rfl⟩ <;> exact hnid
  · intro row hrow hnid
    rw [hrows] at hrow
    obtain ⟨old, hold, rfl⟩ := mem_map.mp hrow
    split_ifs at hnid ⊢ with hlive
    · rfl
    rw [Option.isSome_iff_ne_none]
    intro hnone
    exact hlive (by rw [unrevoked, decide_eq_true hnid, hnone]; rfl)

theorem AllRevoked.lookup {s : SqlNipCaStore} (h : AllRevoked nid s.rows) (hread : AllReadable pf s) :
    ∃ record, (sqlCa db opts keys).store.lookup s nid = some record ∧ record.revokedAt.isSome = true := by
  have hperm := db.perm (·.issuedAt) (s.rows.filter (·.nid = nid))
  obtain ⟨row₀, hrow₀, hnid₀⟩ := h.found
  cases hrows : db.orderDesc (·.issuedAt) (s.rows.filter (·.nid = nid)) with
  | nil =>
    rw [hrows] at hperm
    have hmem := hperm.mem_iff.mpr (mem_filter.mpr ⟨hrow₀, decide_eq_true hnid₀⟩)
    cases hmem
  | cons row rows =>
    have hmem : row ∈ s.rows.filter (·.nid = nid) := by
      rw [← hperm.mem_iff, hrows]
      exact mem_cons_self
    obtain ⟨hrow, hnid⟩ := mem_filter.mp hmem
    obtain ⟨record, hrecord, -, hrevoked⟩ := queryFirst_cons (hread row hrow) rows
    refine ⟨record, ?_, hrevoked.trans (h.revoked row hrow (of_decide_eq_true hnid))⟩
    change (match getByNid pf db s nid with
      | .ok record => record
      | .error _ => none) = _
    rw [getByNid, hrows, hrecord]

variable (db opts keys) in
/-- No name is drawn twice, and dates have a year of four digits. -/
def RevocableInDatabase (st : CaState SqlNipCaStore) (event : CaEvent) : Prop :=
  NewName (sqlCa db opts keys) st event ∧ DatesReadable (sqlCa db opts keys) st event

theorem allRevoked_step {event : CaEvent} (h : AllRevoked nid st.store.rows) (hread : AllReadable pf st.store)
    (hnew : NewName (sqlCa db opts keys) st event) (hstep : caStep (sqlCa db opts keys) st event = some st') :
    AllRevoked nid st'.store.rows := by
  rw [(caStep_eq hstep).1]
  rcases event.contents_entries (sqlCa db opts keys) (sqlLedger pf db) st.store with
    ⟨call, req, frame, rfl, hreq, -, hentries, -⟩ | hmarks
  · obtain ⟨record, hfound, hrevoked⟩ := h.lookup hread
    have hnid := request_nid_ne hreq hnew hfound hrevoked
    have hrows : ((CaEvent.issue call).contents (sqlCa db opts keys) st.store).rows =
        st.store.rows ++ [rowOf pf ((sqlCa db opts keys).recordOf req frame.serial)] :=
      hentries
    rw [hrows]
    refine ⟨?_, ?_⟩
    · obtain ⟨row, hrow, heq⟩ := h.found
      exact ⟨row, mem_append_left _ hrow, heq⟩
    · rw [forall_mem_append]
      refine ⟨h.revoked, ?_⟩
      intro row hrow heq
      rw [mem_singleton.mp hrow] at heq
      exact absurd heq hnid
  · exact h.of_forall₂ hmarks

/-- Rows can be read all along, and from the revocation on all of the name are revoked. -/
theorem allRevoked_of_run {st₀ st : CaState SqlNipCaStore} {events : List CaEvent}
    (hrun : run (caStep (sqlCa db opts keys)) st₀ events = some st)
    (hcond : ∀ p ∈ steps (caStep (sqlCa db opts keys)) st₀ events, RevocableInDatabase db opts keys p.1 p.2)
    (hst₀ : AllReadable pf st₀.store) (hrevoked : RevokedIn (sqlCa db opts keys) st₀ events nid) :
    AllReadable pf st.store ∧ AllRevoked nid st.store.rows := by
  obtain ⟨v, now, reason, frame, hstep, hframe⟩ := hrevoked
  refine run_invariant_from (caStep (sqlCa db opts keys)) (J := fun st => AllReadable pf st.store)
    (I := fun st => AllReadable pf st.store ∧ AllRevoked nid st.store.rows) ?_ ?_ hrun hst₀ hcond hstep ?_
  · intro w event w' hw hc hwstep
    exact allReadable_step hw hc.2 hwstep
  · intro w event w' hw hc hwstep
    exact ⟨allReadable_step hw.1 hc.2 hwstep, allRevoked_step hw.2 hw.1 hc.1 hwstep⟩
  · intro v' hread hc hv'
    refine ⟨allReadable_step hread hc.2 hv', ?_⟩
    rw [(caStep_eq hv').1]
    exact contents_of_revoke (sqlLedger pf db) (I := fun s => AllRevoked nid s.rows)
      .of_forall₂ (Prod.ext rfl hframe) fun hrevoke => allRevoked_revoke hrevoke

theorem reportedRevoked_sql {clock : Time} {st : CaState SqlNipCaStore} {events : List CaEvent}
    (hrun : run (caStep (sqlCa db opts keys)) ⟨{}, clock⟩ events = some st)
    (hcond : ∀ p ∈ steps (caStep (sqlCa db opts keys)) ⟨{}, clock⟩ events, RevocableInDatabase db opts keys p.1 p.2)
    (hrevoked : RevokedIn (sqlCa db opts keys) ⟨{}, clock⟩ events nid) {req : IssueRequest N} {serial : GoString}
    (hissued : Issued (sqlCa db opts keys) ⟨{}, clock⟩ events req serial) (hnid : req.nid = nid) :
    ReportedRevoked (sqlCa db opts keys) st.store serial := by
  have hempty : AllReadable pf ({} : SqlNipCaStore) := forall_mem_nil _
  obtain ⟨hread, hall⟩ := allRevoked_of_run hrun hcond hempty hrevoked
  obtain ⟨row, hrow, hmark⟩ := exists_entry_of_issued (sqlLedger pf db) hrun hissued
  have hfacts : row.nid = nid ∧ row.serial = serial := by
    rcases hmark with rfl | ⟨-, _, _, rfl⟩ <;> exact ⟨hnid, rfl⟩
  have hrevokedAt := hall.revoked row hrow hfacts.1
  have hnew : SerialsDiffer (sqlCa db opts keys) (sqlLedger pf db) {} := List.Pairwise.nil
  have hserials := serialsDiffer_of_run (sqlLedger pf db) hrun hnew
  have hdiffer : st.store.rows.Pairwise fun a b => a.serial ≠ b.serial := hserials
  obtain ⟨-, rfl⟩ := hfacts
  obtain ⟨record, hrecord, hserial, hsome⟩ := queryFirst_cons (hread row hrow) []
  rw [← filter_key hdiffer hrow] at hrecord
  refine .of_store _ hrecord hserial (hsome.trans hrevokedAt) ?_
  -- the list of revoked certificates is a query over rows that can all be read
  have hperm := db.perm (fun row => row.revokedAt.getD []) (st.store.rows.filter (·.revokedAt.isSome))
  have hreadable : ∀ row ∈ db.orderDesc (fun row => row.revokedAt.getD [])
      (st.store.rows.filter (·.revokedAt.isSome)), Readable pf row :=
    fun row hrow => hread row (mem_filter.mp (hperm.mem_iff.mp hrow)).1
  obtain ⟨hnone, hrows⟩ := queryMany_readable hreadable
  exact ⟨hrows row (hperm.mem_iff.mpr (mem_filter.mpr ⟨hrow, hrevokedAt⟩)), hnone⟩

end

/-! ### Either store -/

inductive StoreChoice where
  | memory
  | sql (db : SqlEngine)

namespace StoreChoice

def Contents : StoreChoice → Type
  | memory => InMemoryNipCaStore
  | sql _ => SqlNipCaStore

def empty : (choice : StoreChoice) → choice.Contents
  | memory => ({} : InMemoryNipCaStore)
  | sql _ => ({} : SqlNipCaStore)

section

variable {N : Type} {pf : Platform N} (opts : NipCaOptions) (keys : NipIdentity pf.ed)

def ca : (choice : StoreChoice) → NipCaService pf choice.Contents
  | memory => memoryCa opts keys
  | sql db => sqlCa db opts keys

/-- What a step has to meet. -/
def Revocable : (choice : StoreChoice) → CaState choice.Contents → CaEvent → Prop
  | memory => RevocableInMemory opts keys
  | sql db => RevocableInDatabase db opts keys

end

end StoreChoice

/-- Over every run whose steps meet the condition, from the revocation of a name on every certificate that
was ever issued for it and has not expired is reported revoked. -/
theorem revocation_complete {N : Type} {pf : Platform N} (opts : NipCaOptions) (keys : NipIdentity pf.ed)
    (choice : StoreChoice) {clock : Time} {st : CaState choice.Contents} {events : List CaEvent}
    (hrun : run (caStep (choice.ca opts keys)) ⟨choice.empty, clock⟩ events = some st)
    (hcond : ∀ p ∈ steps (caStep (choice.ca opts keys)) ⟨choice.empty, clock⟩ events,
      choice.Revocable opts keys p.1 p.2)
    {nid : GoString} (hrevoked : RevokedIn (choice.ca opts keys) ⟨choice.empty, clock⟩ events nid)
    {req : IssueRequest N} {serial : GoString}
    (hissued : Issued (choice.ca opts keys) ⟨choice.empty, clock⟩ events req serial)
    (hnid : req.nid = nid) (hexpiry : st.clock ≤ req.expiresAt) :
    ReportedRevoked (choice.ca opts keys) st.store serial := by
  cases choice with
  | memory => exact reportedRevoked_memory hrun hcond hrevoked hissued hnid hexpiry
  | sql db => exact reportedRevoked_sql hrun hcond hrevoked hissued hnid

/-! ### A certificate that was renewed -/

section

variable {N : Type} {pf : Platform N} {σ : Type} (ca : NipCaService pf σ) (nid serial : GoString)

def issuesAt (clock : Time) : CaState σ × CaEvent → Bool
  | (st, .issue call) =>
    (call.request ca st.store).any (fun req => req.nid = nid && decide ((clock : Int) ≤ req.expiresAt)) &&
      (call.run ca st.store).2.toOption.any (·.serial = serial)
  | _ => false

def revokesAt : CaState σ × CaEvent → Bool
  | (st, .revoke now target reason) =>
    target = nid && (ca.revoke st.store now target reason).2.toOption.any fun _ => true
  | _ => false

variable {ca nid serial} {st₀ : CaState σ} {events : List CaEvent}

theorem issued_of_issuesAt {clock : Time}
    (h : (steps (caStep ca) st₀ events).any (issuesAt ca nid serial clock) = true) :
    ∃ req, Issued ca st₀ events req serial ∧ req.nid = nid ∧ clock ≤ req.expiresAt := by
  obtain ⟨⟨st, event⟩, hstep, hissues⟩ := any_eq_true.mp h
  cases event with
  | issue call =>
    obtain ⟨hreq, hframe⟩ := (Bool.and_eq_true _ _).mp hissues
    obtain ⟨req, hreq, hfacts⟩ := (Option.any_eq_true _ _).mp hreq
    obtain ⟨hnid, hexpiry⟩ := (Bool.and_eq_true _ _).mp hfacts
    obtain ⟨frame, hframe, hserial⟩ := exists_ok_of_any hframe
    exact ⟨req, ⟨st, call, frame, hstep, hreq, hframe, of_decide_eq_true hserial⟩, of_decide_eq_true hnid,
      of_decide_eq_true hexpiry⟩
  | revoke => cases hissues
  | advance => cases hissues

theorem revokedIn_of_revokesAt (h : (steps (caStep ca) st₀ events).any (revokesAt ca nid) = true) :
    RevokedIn ca st₀ events nid := by
  obtain ⟨⟨st, event⟩, hstep, hrevokes⟩ := any_eq_true.mp h
  cases event with
  | revoke now target reason =>
    obtain ⟨htarget, hframe⟩ := (Bool.and_eq_true _ _).mp hrevokes
    obtain ⟨frame, hframe, -⟩ := exists_ok_of_any hframe
    cases of_decide_eq_true htarget
    exact ⟨st, now, reason, frame, hstep, hframe⟩
  | issue => cases hrevokes
  | advance => cases hrevokes

end

def renewalOptions : NipCaOptions := { caNid := "urn:nps:org:ca.example.com", agentCertValidityDays := 1 }

def renewableCa : NipCaService (plainPlatform anySignature) InMemoryNipCaStore := memoryCa renewalOptions issuerKeys

def renewableSqlCa : NipCaService (plainPlatform anySignature) SqlNipCaStore := sqlCa default renewalOptions issuerKeys

def agentNid : GoString := renewableCa.buildNid "agent" "a"

def agentCall : CaEvent := .issue firstRegistration

/-- An agent is registered for a day, renewed after half of it and revoked. -/
def renewedAgent (revokedAt : Time) : List CaEvent :=
  [agentCall, .issue (.renew (12 * GoTime.hour) agentNid), .revoke revokedAt agentNid "compromised"]

variable {revokedAt : Time}

theorem renewedAgent_cases {event : CaEvent} (h : event ∈ renewedAgent revokedAt) :
    event = agentCall ∨ event = .issue (.renew (12 * GoTime.hour) agentNid) ∨
      event = .revoke revokedAt agentNid "compromised" := by
  simpa only [renewedAgent, mem_cons, not_mem_nil, or_false] using h

theorem revocableInMemory_renewedAgent (h : ((steps (caStep renewableCa) ⟨{}, 0⟩ (renewedAgent revokedAt)).all fun p =>
      (p.1.store.records.filter (·.live agentNid)).dropLast.all fun r =>
        decide ((r.expiresAt : Int) < revokedAt)) = true) :
    ∀ p ∈ steps (caStep renewableCa) ⟨{}, 0⟩ (renewedAgent revokedAt),
      RevocableInMemory renewalOptions issuerKeys p.1 p.2 := by
  rintro ⟨st, event⟩ hp
  have hothers := all_eq_true.mp h _ hp
  rcases renewedAgent_cases (mem_of_mem_steps _ hp) with rfl | rfl | rfl
  · exact ⟨trivial, trivial⟩
  · exact ⟨trivial, trivial⟩
  · exact ⟨trivial, fun r hr => of_decide_eq_true (all_eq_true.mp hothers r hr)⟩

def datesReadable (p : CaState SqlNipCaStore × CaEvent) : Bool :=
  match p.2 with
  | .issue call => (call.request renewableSqlCa p.1.store).all fun req =>
      decide (GoTime.FourDigitYear req.issuedAt ∧ GoTime.FourDigitYear req.expiresAt)
  | .revoke now _ _ => decide (GoTime.FourDigitYear now)
  | .advance _ => true

theorem datesReadable_of_eq_true {p : CaState SqlNipCaStore × CaEvent} (h : datesReadable p = true) :
    DatesReadable renewableSqlCa p.1 p.2 := by
  obtain ⟨st, event⟩ := p
  cases event with
  | issue call => exact fun req hreq => of_decide_eq_true ((Option.all_eq_true _ _).mp h req hreq)
  | revoke now nid reason => exact of_decide_eq_true (p := GoTime.FourDigitYear now) h
  | advance => trivial

theorem revocableInDatabase_renewedAgent
    (h : (steps (caStep renewableSqlCa) ⟨{}, 0⟩ (renewedAgent revokedAt)).all datesReadable = true) :
    ∀ p ∈ steps (caStep renewableSqlCa) ⟨{}, 0⟩ (renewedAgent revokedAt),
      RevocableInDatabase default renewalOptions issuerKeys p.1 p.2 := by
  rintro ⟨st, event⟩ hp
  refine ⟨?_, datesReadable_of_eq_true (all_eq_true.mp h _ hp)⟩
  rcases renewedAgent_cases (mem_of_mem_steps _ hp) with rfl | rfl | rfl <;> exact trivial

/-- In memory the renewed certificate is revoked once the first has expired; in the database the first is too. -/
theorem renewed_certificates_revoked :
    (∃ st, run (caStep renewableCa) ⟨{}, 0⟩ (renewedAgent (30 * GoTime.hour)) = some st ∧
      ReportedRevoked renewableCa st.store (serialText 2)) ∧
    ∃ st, run (caStep renewableSqlCa) ⟨{}, 0⟩ (renewedAgent (13 * GoTime.hour)) = some st ∧
      ReportedRevoked renewableSqlCa st.store (serialText 1) := by
  constructor
  · have hchecks : ((run (caStep renewableCa) ⟨{}, 0⟩ (renewedAgent (30 * GoTime.hour))).any fun st =>
        (steps (caStep renewableCa) ⟨{}, 0⟩ (renewedAgent (30 * GoTime.hour))).any
          (issuesAt renewableCa agentNid (serialText 2) st.clock)) = true := by decide +kernel
    obtain ⟨st, hrun, hissues⟩ := (Option.any_eq_true _ _).mp hchecks
    obtain ⟨req, hissued, hnid, hexpiry⟩ := issued_of_issuesAt hissues
    exact ⟨st, hrun, revocation_complete _ _ .memory hrun (revocableInMemory_renewedAgent (by decide +kernel))
      (revokedIn_of_revokesAt (by decide +kernel)) hissued hnid hexpiry⟩
  · have hchecks : ((run (caStep renewableSqlCa) ⟨{}, 0⟩ (renewedAgent (13 * GoTime.hour))).any fun st =>
        (steps (caStep renewableSqlCa) ⟨{}, 0⟩ (renewedAgent (13 * GoTime.hour))).any
          (issuesAt renewableSqlCa agentNid (serialText 1) st.clock)) = true := by decide +kernel
    obtain ⟨st, hrun, hissues⟩ := (Option.any_eq_true _ _).mp hchecks
    obtain ⟨req, hissued, hnid, hexpiry⟩ := issued_of_issuesAt hissues
    exact ⟨st, hrun, revocation_complete _ _ (.sql default) hrun (revocableInDatabase_renewedAgent (by decide +kernel))
      (revokedIn_of_revokesAt (by decide +kernel)) hissued hnid hexpiry⟩

/-- An agent is registered, renewed and revoked: its first certificate has not expired, and neither the
store nor the list of revoked certificates has it as revoked. -/
theorem renewed_certificate_stays_good : ((run (caStep renewableCa) ⟨{}, 0⟩
        [agentCall, .issue (.renew 2 agentNid), .revoke 3 agentNid "compromised"]).any fun st =>
      ((st.store.getBySerial (serialText 1)).any fun record =>
        record.nid = agentNid && record.revokedAt.isNone && decide ((st.clock : Int) ≤ record.expiresAt)) &&
      (renewableCa.getCrl st.store).1.all (·.serial ≠ serialText 1)) = true := by
  decide +kernel

/-! ### The frame of a revocation -/

def errRevokeFrameInvalid : GoString := "NIP-REVOKE-FRAME-INVALID"

namespace RevokeFrame

def validate (f : RevokeFrame) : Option GoString :=
  if f.reason = NipCaService.parentRevoked then
    if f.parentNID.getD [] = [] then
      some (errRevokeFrameInvalid ++ ": parent_nid is required when reason=parent_revoked")
    else none
  else if f.parentNID.isSome then
    some (errRevokeFrameInvalid ++ ": parent_nid must be omitted unless reason=parent_revoked")
  else none

def unsignedDict {N : Type} (f : RevokeFrame) : FrameDict N :=
  let d : FrameDict N := (∅ : FrameDict N).insert "frame" (.string "0x22")
  let d := d.insert "target_nid" (.string f.targetNID)
  let d := f.serial.elim d fun serial => d.insert "serial" (.string serial)
  let d := d.insert "reason" (.string f.reason)
  let d := d.insert "revoked_at" (.string f.revokedAt)
  let d := d.insert "signer_nid" (.string f.signerNID)
  f.parentNID.elim d fun parentNID => d.insert "parent_nid" (.string parentNID)

end RevokeFrame

section

variable {N : Type} {pf : Platform N} {opts : NipCaOptions} {keys : NipIdentity pf.ed}

theorem decodeKeyText_encodeKeyText {raw : Bytes} {n : Nat} (h : raw.length = n + 1) :
    decodeKeyText (n + 1) (encodeKeyText raw) = some raw := by
  have hdecode := rawURLDecode_rawURLEncode raw
  rw [decodeKeyText, encodeKeyText, afterKeyPrefix_append]
  split
  · cases ‹_ = none›
  · rename_i hnil
    rw [Option.some.inj hnil] at hdecode
    cases hdecode
    cases h
  · cases ‹some _ = some _›
    rw [hdecode]
    exact if_pos h

theorem verify_sign (payload : FrameDict N) :
    verifyWithPubKeyStr pf.fmt pf.ed payload keys.pubKeyString (keys.sign pf.fmt payload) = true := by
  have hkey := decodeKeyText_encodeKeyText (pf.ed.length_publicKey keys.privKey)
  have hsig := decodeKeyText_encodeKeyText (pf.ed.length_sign keys.privKey (canonicalJSON pf.fmt payload))
  rw [verifyWithPubKeyStr, NipIdentity.pubKeyString, NipIdentity.pubKey, hkey, NipIdentity.sign, hsig]
  exact pf.ed.verify_sign _ _

/-- The frame of a revocation is valid, signed by the CA, and names a certificate that was good and is revoked,
exactly if the reason needs no parent and the latest certificate of the name was good. -/
theorem revoke_truthful_iff {clock now : Time} {st : CaState InMemoryNipCaStore} {events : List CaEvent}
    (hrun : run (caStep (memoryCa opts keys)) ⟨{}, clock⟩ events = some st) {nid reason : GoString}
    {s' : InMemoryNipCaStore} {frame : RevokeFrame}
    (h : (memoryCa opts keys).revoke st.store now nid reason = (s', .ok frame)) :
    (frame.validate = none ∧
      verifyWithPubKeyStr pf.fmt pf.ed frame.unsignedDict keys.pubKeyString frame.signature = true ∧
      ∃ r ∈ st.store.records, ∃ r' ∈ s'.records, frame.serial = some r.serial ∧ r.nid = nid ∧
        r.revokedAt = none ∧ r.Marked r' ∧ r'.revokedAt.isSome = true) ↔
      reason ≠ NipCaService.parentRevoked ∧ ∀ rec ∈ st.store.getByNid nid, rec.revokedAt = none := by
  obtain ⟨rec, s₁, hrec, hrevoke, -⟩ := (memoryCa opts keys).revoke_ok h
  have hframe : frame = (memoryCa opts keys).revokeFrame rec nid reason now := by
    rw [NipCaService.revoke, hrec, hrevoke] at h
    cases h
    rfl
  subst hframe
  have hlatest : st.store.getByNid nid = some rec := hrec
  obtain ⟨hmem, hnid⟩ := InMemoryNipCaStore.mem_of_getByNid hlatest
  constructor
  · rintro ⟨hvalid, -, r, hr, -, -, hserial, -, hgood, -⟩
    refine ⟨?_, ?_⟩
    · rintro rfl
      cases hvalid
    · have hempty : SerialsDiffer (memoryCa opts keys) memoryLedger {} := List.Pairwise.nil
      have hdiffer := serialsDiffer_of_run memoryLedger hrun hempty
      have hsame := getBySerial_memory hdiffer hr
      rw [← Option.some.inj hserial, getBySerial_memory hdiffer hmem] at hsame
      rintro _ hrec'
      cases hlatest.symm.trans hrec'
      cases hsame
      exact hgood
  · rintro ⟨hreason, hgood⟩
    have hrevoked : LatestRevoked nid s' :=
      contents_of_revoke memoryLedger .of_forall₂ h fun hrevoke => (superseded_revoke hrevoke).1
    obtain ⟨r', hr', hsome⟩ := hrevoked
    have hmarks := (memoryCa opts keys).revoke_entries memoryLedger st.store now nid reason
    rw [h] at hmarks
    obtain ⟨r, hr, hmark⟩ := getByNid_of_forall₂ hmarks hlatest
    cases hr.symm.trans hr'
    exact ⟨if_neg hreason, verify_sign _, rec, hmem, r', (InMemoryNipCaStore.mem_of_getByNid hr).1, rfl, hnid,
      hgood rec hlatest, hmark, hsome⟩

end

/-- An agent is registered and revoked. -/
theorem first_frame_truthful : ∃ st frame, run (caStep renewableCa) ⟨{}, 0⟩ [agentCall] = some st ∧
    (renewableCa.revoke st.store 2 agentNid "superseded").2 = .ok frame ∧ frame.validate = none := by
  have h : ((run (caStep renewableCa) ⟨{}, 0⟩ [agentCall]).any fun st =>
      (renewableCa.revoke st.store 2 agentNid "superseded").2.toOption.isSome &&
      (st.store.getByNid agentNid).all (·.revokedAt.isNone)) = true := by decide +kernel
  obtain ⟨st, hst, h⟩ := (Option.any_eq_true _ _).mp h
  obtain ⟨hframe, hgood⟩ := (Bool.and_eq_true _ _).mp h
  obtain ⟨frame, hframe, -⟩ := exists_ok_of_any (p := fun _ => true) hframe
  refine ⟨st, frame, hst, hframe, ((revoke_truthful_iff hst (Prod.ext rfl hframe)).mpr ⟨by decide, ?_⟩).1⟩
  intro rec hrec
  exact Option.isNone_iff_eq_none.mp ((Option.all_eq_true _ _).mp hgood rec hrec)

/-- A renewed agent is revoked twice: the second frame has the serial that was revoked before. Given a revoked
parent as the reason, the frame is not valid. -/
theorem second_frame_untruthful : ((run (caStep renewableCa) ⟨{}, 0⟩
      [agentCall, .issue (.renew 2 agentNid), .revoke 3 agentNid "superseded"]).any fun st =>
    ((renewableCa.revoke st.store 4 agentNid "superseded").2.toOption.any fun frame =>
      st.store.records.all fun r => r.revokedAt.isSome || frame.serial ≠ some r.serial) &&
    (renewableCa.revoke st.store 4 agentNid "parent_revoked").2.toOption.any (·.validate.isSome)) = true := by
  decide +kernel

end NpsSdk.Nip
