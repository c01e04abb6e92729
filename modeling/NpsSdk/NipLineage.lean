import NpsSdk.NipAttenuation
import NpsSdk.NipCaRuns

/-! Groups and the sessions under them, over runs of a CA with its store in memory. A renewal writes a record without
role, parent and lineage. As long as no name with a role is renewed and no name of a session is drawn twice, a name with
a role has one record for good. -/

namespace NpsSdk.Nip

open Ledger Transition
open InMemoryNipCaStore
open NipCaService List

/-! ### Records of a name -/

variable {s : InMemoryNipCaStore} {nid : GoString} {r : NipCertRecord} {records records' : List NipCertRecord}

theorem InMemoryNipCaStore.getByNid_eq_none_iff : s.getByNid nid = none ↔ ∀ r ∈ s.records, r.nid ≠ nid := by
  simp [getByNid]

theorem InMemoryNipCaStore.mem_of_getByNid (h : s.getByNid nid = some r) : r ∈ s.records ∧ r.nid = nid := by
  have hnid := find?_some h
  exact ⟨mem_reverse.mp (mem_of_find?_eq_some h), of_decide_eq_true hnid⟩

def SoleRoles (records : List NipCertRecord) : Prop :=
  records.Pairwise fun a b => a.nid = b.nid → a.nidRole = none ∧ b.nidRole = none

namespace SoleRoles

variable {records : List NipCertRecord} (h : SoleRoles records)
include h in
theorem eq_of_mem {a b : NipCertRecord} (ha : a ∈ records) (hb : b ∈ records) (hnid : a.nid = b.nid)
    (hrole : a.nidRole ≠ none) : b = a := by
  by_contra hne
  have : Std.Symm fun a b : NipCertRecord => a.nid = b.nid → a.nidRole = none ∧ b.nidRole = none :=
    ⟨fun _ _ hab heq => (hab heq.symm).symm⟩
  exact hrole (List.Pairwise.forall h ha hb (Ne.symm hne) hnid).1

/-- Around a record with the name of a role there is no other. -/
theorem nid_ne_of_split {before after : List NipCertRecord} {x r : NipCertRecord}
    (h : SoleRoles (before ++ x :: after)) (hr : r ∈ before ++ x :: after) (hrole : r.nidRole ≠ none)
    (hx : x.nid = r.nid) : (∀ y ∈ before, y.nid ≠ r.nid) ∧ ∀ y ∈ after, y.nid ≠ r.nid := by
  have hxr : x = r := h.eq_of_mem hr (by simp) hx.symm hrole
  subst hxr
  obtain ⟨-, hafter, hbefore⟩ := pairwise_append.mp h
  refine ⟨?_, ?_⟩
  · intro y hy hnid
    exact hrole (hbefore y hy x mem_cons_self hnid).2
  · intro y hy hnid
    exact hrole ((pairwise_cons.mp hafter).1 y hy hnid.symm).1

end SoleRoles

theorem SoleRoles.of_forall₂ (h : SoleRoles records) (hmarks : List.Forall₂ NipCertRecord.Marked records records') :
    SoleRoles records' := by
  refine pairwise_of_forall₂ ?_ hmarks h
  rintro a b _ _ (rfl | ⟨-, _, _, rfl⟩) (rfl | ⟨-, _, _, rfl⟩) hab <;> exact hab

theorem SoleRoles.getByNid_eq (h : SoleRoles s.records) (hr : r ∈ s.records) (hrole : r.nidRole ≠ none) :
    s.getByNid r.nid = some r := by
  cases hfound : s.getByNid r.nid with
  | none => exact absurd rfl (getByNid_eq_none_iff.mp hfound r hr)
  | some r' =>
    obtain ⟨hr', hnid⟩ := mem_of_getByNid hfound
    rw [h.eq_of_mem hr hr' hnid.symm hrole]

/-- A record with a role is still the one of its name later on. -/
theorem SoleRoles.exists_getByNid {s s' : InMemoryNipCaStore} (h' : SoleRoles s'.records)
    (hextends : Extends NipCertRecord.Marked s.records s'.records) (hr : r ∈ s.records) (hrole : r.nidRole ≠ none) :
    ∃ r', s'.getByNid r.nid = some r' ∧ r.Marked r' := by
  obtain ⟨r', hr', hmark⟩ := hextends.exists_mem hr
  refine ⟨r', ?_, hmark⟩
  rcases hmark with rfl | ⟨-, reason, t, rfl⟩ <;> exact h'.getByNid_eq hr' hrole

def RevokedName (nid : GoString) (records : List NipCertRecord) : Prop :=
  ∀ r ∈ records, r.nid = nid → r.revokedAt.isSome = true

theorem RevokedName.of_forall₂ (h : RevokedName nid records)
    (hmarks : List.Forall₂ NipCertRecord.Marked records records') : RevokedName nid records' := by
  refine forall_mem_of_forall₂ ?_ hmarks h
  rintro a _ (rfl | ⟨-, _, _, rfl⟩) ha
  · exact ha
  · exact fun _ => rfl

theorem InMemoryNipCaStore.revokedName_revoke (h : SoleRoles s.records) (hr : r ∈ s.records)
    (hrole : r.nidRole ≠ none) (reason : GoString) (t : Time) :
    RevokedName r.nid (s.revoke r.nid reason t).2.records := by
  rcases s.revoke_spec r.nid reason t with ⟨hrevoke, hall⟩ | ⟨before, x, after, hsplit, hx, -, hrevoke⟩
  · rw [hrevoke]
    intro y hy hnid
    exact NipCertRecord.isSome_of_not_live (hall y hy) hnid
  · rw [hrevoke]
    rw [hsplit] at h hr
    obtain ⟨hbefore, hafter⟩ := h.nid_ne_of_split hr hrole (NipCertRecord.live_iff.mp hx).1
    intro y hy hnid
    rcases mem_append.mp hy with hy | hy
    · exact absurd hnid (hbefore y hy)
    rcases mem_cons.mp hy with rfl | hy
    · rfl
    · exact absurd hnid (hafter y hy)

section Lineage

variable {N : Type} {pf : Platform N}

def memoryCa (opts : NipCaOptions) (keys : NipIdentity pf.ed) : NipCaService pf InMemoryNipCaStore :=
  newNipCaService opts inMemoryStore keys

variable (opts : NipCaOptions) (keys : NipIdentity pf.ed)

/-- No name with a role is renewed, and the name of a session is new. -/
def KeepsLineage (st : CaState InMemoryNipCaStore) : CaEvent → Prop
  | .issue (.renew _ nid) => ∀ rec ∈ st.store.getByNid nid, rec.nidRole = none
  | .issue (.issueSession draw _ _ _) => st.store.getByNid ((memoryCa opts keys).sessionNid draw) = none
  | _ => True

/-- What holds of the records. -/
structure LineageInv (records : List NipCertRecord) : Prop where
  named : ∀ r ∈ records, r.nid ≠ []
  sole : SoleRoles records
  short : ∀ r ∈ records, r.nidRole = some identLineageRoleSession →
    r.expiresAt - r.issuedAt ≤ (memoryCa opts keys).opts.sessionMaxValidity
  parent : ∀ r ∈ records, ∀ p, r.parentNid = some p →
    r.nidRole = some identLineageRoleSession ∧
      ∃ g ∈ records, g.nid = p ∧ g.nidRole = some identLineageRoleGroup

variable {opts keys}

theorem LineageInv.of_forall₂ {records records' : List NipCertRecord} (h : LineageInv opts keys records)
    (hmarks : List.Forall₂ NipCertRecord.Marked records records') : LineageInv opts keys records' where
  named := by
    refine forall_mem_of_forall₂ ?_ hmarks h.named
    rintro a _ (rfl | ⟨-, _, _, rfl⟩) ha <;> exact ha
  sole := h.sole.of_forall₂ hmarks
  short := by
    refine forall_mem_of_forall₂ ?_ hmarks h.short
    rintro a _ (rfl | ⟨-, _, _, rfl⟩) ha <;> exact ha
  parent := by
    have hgroup : ∀ p, (∃ g ∈ records, g.nid = p ∧ g.nidRole = some identLineageRoleGroup) →
        ∃ g ∈ records', g.nid = p ∧ g.nidRole = some identLineageRoleGroup := by
      rintro p ⟨g, hg, hnid, hrole⟩
      obtain ⟨g', hg', hmark⟩ := (Extends.of_forall₂ hmarks).exists_mem hg
      refine ⟨g', hg', ?_⟩
      rcases hmark with rfl | ⟨-, _, _, rfl⟩ <;> exact ⟨hnid, hrole⟩
    refine forall_mem_of_forall₂ ?_ hmarks h.parent
    rintro a _ (rfl | ⟨-, _, _, rfl⟩) ha p hp
    · exact ⟨(ha p hp).1, hgroup p (ha p hp).2⟩
    · exact ⟨(ha p hp).1, hgroup p (ha p hp).2⟩

theorem LineageInv.append {records : List NipCertRecord} (h : LineageInv opts keys records)
    {r : NipCertRecord} (hnamed : r.nid ≠ [])
    (hsole : ∀ a ∈ records, a.nid = r.nid → a.nidRole = none ∧ r.nidRole = none)
    (hshort : r.nidRole = some identLineageRoleSession →
      r.expiresAt - r.issuedAt ≤ (memoryCa opts keys).opts.sessionMaxValidity)
    (hparent : ∀ p, r.parentNid = some p → r.nidRole = some identLineageRoleSession ∧
      ∃ g ∈ records, g.nid = p ∧ g.nidRole = some identLineageRoleGroup) : LineageInv opts keys (records ++ [r]) where
  named := by
    intro a ha
    rcases mem_append.mp ha with ha | ha
    · exact h.named a ha
    · rw [mem_singleton.mp ha]
      exact hnamed
  sole := pairwise_append_singleton h.sole hsole
  short := by
    intro a ha
    rcases mem_append.mp ha with ha | ha
    · exact h.short a ha
    · rw [mem_singleton.mp ha]
      exact hshort
  parent := by
    have hgroup : ∀ p, (∃ g ∈ records, g.nid = p ∧ g.nidRole = some identLineageRoleGroup) →
        ∃ g ∈ records ++ [r], g.nid = p ∧ g.nidRole = some identLineageRoleGroup := by
      rintro p ⟨g, hg, hfacts⟩
      exact ⟨g, mem_append_left _ hg, hfacts⟩
    intro a ha p hp
    rcases mem_append.mp ha with ha | ha
    · exact ⟨(h.parent a ha p hp).1, hgroup p (h.parent a ha p hp).2⟩
    · rw [mem_singleton.mp ha] at hp ⊢
      exact ⟨(hparent p hp).1, hgroup p (hparent p hp).2⟩

variable {st : CaState InMemoryNipCaStore}

/-- The record of a request keeps the invariant. -/
theorem LineageInv.issue (h : LineageInv opts keys st.store.records)
    {call : IssuingCall} {req : IssueRequest N} (hreq : call.request (memoryCa opts keys) st.store = some req)
    (hstep : KeepsLineage opts keys st (.issue call)) (serial : GoString) :
    LineageInv opts keys (st.store.records ++ [(memoryCa opts keys).recordOf req serial]) := by
  rcases call.request_cases (memoryCa opts keys) hreq with
    ⟨hfresh, hnamed, hparent, hrole⟩ | ⟨draw, groupNid, key, p, group, rfl, hgroup, hcheck, rfl⟩ |
      ⟨now, nid, rec, rfl, hrec, -, rfl⟩
  · refine h.append hnamed ?_ (fun hsession => absurd hsession hrole) ?_
    · intro a ha hnid
      exact absurd hnid (getByNid_eq_none_iff.mp hfresh a ha)
    · intro p hp
      rw [show ((memoryCa opts keys).recordOf req serial).parentNid = none from hparent] at hp
      cases hp
  · obtain ⟨hgroupRole, -, -, ⟨-, hmax⟩, -⟩ := (checkSession_eq_none_iff _).mp hcheck
    obtain ⟨hmem, hnid⟩ := mem_of_getByNid hgroup
    refine h.append (buildNid_ne_nil _ _ _) ?_ ?_ ?_
    · intro a ha hnid
      exact absurd hnid (getByNid_eq_none_iff.mp hstep a ha)
    · intro _
      change draw.issuedAt + (memoryCa opts keys).sessionValidity p - draw.issuedAt ≤ _
      rw [add_sub_cancel_left]
      exact hmax
    · intro q hq
      have hgroupNid : groupNid = q := Option.some.inj hq
      exact ⟨rfl, group, hmem, hnid.trans hgroupNid, hgroupRole⟩
  · obtain ⟨hmem, hnid⟩ := mem_of_getByNid hrec
    have hplain : rec.nidRole = none := hstep rec hrec
    refine h.append ?_ ?_ ?_ ?_
    · rw [← hnid]
      exact h.named rec hmem
    · intro a ha hsame
      refine ⟨?_, rfl⟩
      by_contra hrole
      have heq := h.sole.eq_of_mem ha hmem (hsame.trans hnid.symm) hrole
      rw [heq] at hplain
      exact hrole hplain
    · intro hsession
      cases hsession
    · intro q hq
      cases hq

variable {st st' : CaState InMemoryNipCaStore} {rec : NipCertRecord}

theorem lineageInv_step {event : CaEvent} (h : LineageInv opts keys st.store.records)
    (hcond : KeepsLineage opts keys st event) (hstep : caStep (memoryCa opts keys) st event = some st') :
    LineageInv opts keys st'.store.records := by
  rw [(caStep_eq hstep).1]
  rcases event.contents_entries (memoryCa opts keys) memoryLedger st.store with
    ⟨call, req, frame, rfl, hreq, -, hentries, -⟩ | hmarks
  · change LineageInv opts keys (memoryLedger.entries _)
    rw [hentries]
    exact h.issue hreq hcond frame.serial
  · exact h.of_forall₂ hmarks

theorem lineageInv_run {events : List CaEvent} (h : LineageInv opts keys st.store.records)
    (hcond : ∀ p ∈ steps (caStep (memoryCa opts keys)) st events, KeepsLineage opts keys p.1 p.2)
    (hrun : run (caStep (memoryCa opts keys)) st events = some st') : LineageInv opts keys st'.store.records := by
  refine run_invariant_of_steps _ (I := fun st => LineageInv opts keys st.store.records)
    (C := KeepsLineage opts keys) ?_ hrun h hcond
  intro v event v' hv hc hstep
  exact lineageInv_step hv hc hstep

/-! ### The revocation of a group -/

theorem revokedName_revokeChildren {s : InMemoryNipCaStore} (h : SoleRoles s.records) (hrec : rec ∈ s.records)
    (hrole : rec.nidRole ≠ none) (now : Time) {children : List NipCertRecord} (hchild : rec ∈ children) :
    RevokedName rec.nid ((memoryCa opts keys).revokeChildren s now children).records := by
  cases hrevoked : rec.revokedAt with
  | some t =>
    have hs : RevokedName rec.nid s.records := by
      intro r hr hnid
      rw [h.eq_of_mem hrec hr hnid.symm hrole, hrevoked]
      rfl
    exact hs.of_forall₂ ((memoryCa opts keys).revokeChildren_entries memoryLedger s now children)
  | none =>
    -- the record is still there, and with its role, when its turn comes
    obtain ⟨before, after, rfl⟩ := append_of_mem hchild
    have hbefore := (memoryCa opts keys).revokeChildren_entries memoryLedger s now before
    obtain ⟨r, hr, hmark⟩ := (Extends.of_forall₂ hbefore).exists_mem hrec
    have hfacts : r.nid = rec.nid ∧ r.nidRole ≠ none := by
      rcases hmark with rfl | ⟨-, _, _, rfl⟩ <;> exact ⟨rfl, hrole⟩
    have hturn := revokedName_revoke (h.of_forall₂ hbefore) hr hfacts.2 parentRevoked now
    rw [hfacts.1] at hturn
    have hsplit : (memoryCa opts keys).revokeChildren s now (before ++ rec :: after) =
        (memoryCa opts keys).revokeChildren
          (revoke ((memoryCa opts keys).revokeChildren s now before) rec.nid
            parentRevoked now).2 now after := by
      rw [revokeChildren, foldl_append, foldl_cons, hrevoked]
      rfl
    rw [hsplit]
    exact hturn.of_forall₂ ((memoryCa opts keys).revokeChildren_entries memoryLedger _ now after)

theorem revokedName_of_revoke {s s' : InMemoryNipCaStore} (h : LineageInv opts keys s.records) {groupNid : GoString}
    (hrec : rec ∈ s.records) (hparent : rec.parentNid = some groupNid) {now : Time} {reason : GoString}
    {frame : RevokeFrame} (hrevoke : (memoryCa opts keys).revoke s now groupNid reason = (s', .ok frame)) :
    RevokedName rec.nid s'.records := by
  obtain ⟨hrole, g, hg, rfl, hgroup⟩ := h.parent rec hrec groupNid hparent
  obtain ⟨found, s₁, hfound, hfirst, rfl⟩ := (memoryCa opts keys).revoke_ok hrevoke
  have hlookup : (memoryCa opts keys).store.lookup s g.nid = some g :=
    h.sole.getByNid_eq hg (by rw [hgroup]; nofun)
  rw [hlookup] at hfound
  cases hfound
  rw [if_pos hgroup]
  have hmarks := memoryLedger.revoke_ok hfirst
  obtain ⟨r, hr, hmark⟩ := (Extends.of_forall₂ hmarks).exists_mem hrec
  have hfacts : r.nid = rec.nid ∧ r.nidRole ≠ none ∧ r.parentNid = some g.nid := by
    have hsome : rec.nidRole ≠ none := by rw [hrole]; nofun
    rcases hmark with rfl | ⟨-, _, _, rfl⟩ <;> exact ⟨rfl, hsome, hparent⟩
  rw [← hfacts.1]
  refine revokedName_revokeChildren (h.sole.of_forall₂ hmarks) hr hfacts.2.1 now ?_
  exact mem_filter.mpr ⟨hr, decide_eq_true hfacts.2.2⟩

/-! ### The end of a group -/

/-- The current record of a group is revoked or has expired. -/
def GroupGone (st : CaState InMemoryNipCaStore) (groupNid : GoString) : Prop :=
  ∃ group, st.store.getByNid groupNid = some group ∧
    (group.revokedAt.isSome = true ∨ group.expiresAt < st.clock)

/-- A session whose group is revoked or has expired does not pass the check. -/
theorem verify_of_parent {σ : Type} (ca : NipCaService pf σ) {s : σ} {now later : Time}
    {nid parentNid : GoString} {rec parent : NipCertRecord} (hrec : ca.store.lookup s nid = some rec)
    (hparentNid : rec.parentNid = some parentNid) (hnamed : parentNid ≠ [])
    (hparent : ca.store.lookup s parentNid = some parent)
    (hgone : parent.revokedAt.isSome = true ∨ parent.expiresAt < later) :
    (ca.verify s now later nid).valid = false := by
  have hfail : (ca.verifyParent s later rec).valid = false := by
    unfold verifyParent
    split
    · rename_i hnone
      rw [hparentNid] at hnone
      cases hnone
    · rename_i hempty
      rw [hparentNid] at hempty
      exact absurd (Option.some.inj hempty) hnamed
    · rename_i q _ hq
      have heq : parentNid = q := Option.some.inj (hparentNid.symm.trans hq)
      subst heq
      rw [hparent]
      dsimp only
      split
      · rfl
      rename_i hrevoked
      rcases hgone with h | h
      · rw [hrevoked] at h
        cases h
      · rw [if_pos h]
        rfl
  unfold verify
  rw [hrec]
  dsimp only
  split
  · rfl
  split_ifs
  · rfl
  · exact hfail

theorem verify_of_groupGone {s' : InMemoryNipCaStore}
    (h : LineageInv opts keys st.store.records) (h' : LineageInv opts keys s'.records)
    (hextends : Extends NipCertRecord.Marked st.store.records s'.records) {groupNid : GoString}
    (hrec : rec ∈ st.store.records) (hrole : rec.nidRole ≠ none) (hparent : rec.parentNid = some groupNid)
    (hgone : GroupGone st groupNid) {first second : Time} (hclock : st.clock ≤ second) :
    ((memoryCa opts keys).verify s' first second rec.nid).valid = false := by
  obtain ⟨group, hfound, hend⟩ := hgone
  obtain ⟨hgroup, rfl⟩ := mem_of_getByNid hfound
  have hgroupRole : group.nidRole ≠ none := by
    obtain ⟨-, g, hg, hnid, hgRole⟩ := h.parent rec hrec group.nid hparent
    have hsome : g.nidRole ≠ none := by rw [hgRole]; nofun
    rw [h.sole.eq_of_mem hg hgroup hnid hsome]
    exact hsome
  obtain ⟨rec', hrec', hmark⟩ := h'.sole.exists_getByNid hextends hrec hrole
  obtain ⟨group', hgroup', hgroupMark⟩ := h'.sole.exists_getByNid hextends hgroup hgroupRole
  have hparent' : rec'.parentNid = some group.nid := by
    rcases hmark with rfl | ⟨-, _, _, rfl⟩ <;> exact hparent
  have hend' : group'.revokedAt.isSome = true ∨ group'.expiresAt < second := by
    rcases hgroupMark with rfl | ⟨-, _, _, rfl⟩
    · exact hend.imp_right fun h => lt_of_lt_of_le h hclock
    · exact Or.inl rfl
  exact verify_of_parent (memoryCa opts keys) hrec' hparent' (h.named group hgroup) hgroup' hend'

/-! ### Runs -/

variable (opts keys) in
def SessionIssued (st : CaState InMemoryNipCaStore) (events : List CaEvent) (nid groupNid : GoString) : Prop :=
  ∃ v draw sessionPubKey p frame,
    (v, CaEvent.issue (.issueSession draw groupNid sessionPubKey p)) ∈
      steps (caStep (memoryCa opts keys)) st events ∧
    ((memoryCa opts keys).issueSession v.store draw groupNid sessionPubKey p).2 = .ok frame ∧
    frame.nid = nid

/-- The record of a session stays, with its role and its parent. -/
theorem exists_record_of_sessionIssued {events : List CaEvent} {nid groupNid : GoString}
    (hissued : SessionIssued opts keys st events nid groupNid)
    (hrun : run (caStep (memoryCa opts keys)) st events = some st') :
    ∃ rec ∈ st'.store.records, rec.nid = nid ∧ rec.nidRole = some identLineageRoleSession ∧
      rec.parentNid = some groupNid := by
  obtain ⟨v, draw, key, p, frame, hstep, hframe, rfl⟩ := hissued
  rcases IssuingCall.run_entries (memoryCa opts keys) memoryLedger
      (.issueSession draw groupNid key p) v.store with
    ⟨-, err, herr⟩ | ⟨req, frame', hreq, hframe', hnid, -, -⟩
  · rw [IssuingCall.run, hframe] at herr
    cases herr
  · rw [IssuingCall.run, hframe] at hframe'
    cases hframe'
    obtain ⟨e, he, hmark⟩ := exists_entry_of_issued memoryLedger hrun ⟨v, _, frame, hstep, hreq, hframe, rfl⟩
    refine ⟨e, he, ?_⟩
    rw [hnid]
    rw [IssuingCall.request] at hreq
    split at hreq
    · cases hreq
    split at hreq
    · cases hreq
    · cases hreq
      rcases hmark with rfl | ⟨-, _, _, rfl⟩ <;> exact ⟨rfl, rfl, rfl⟩

/-- Over every run in which no name with a role is renewed and no name is drawn for a session twice, a
session keeps its role, its parent and its limit, is revoked with its group, and does not pass the check
any more once its group is revoked or has expired. -/
theorem lineage_kept {clock : Time} {events : List CaEvent} {st : CaState InMemoryNipCaStore}
    (hrun : run (caStep (memoryCa opts keys)) ⟨{}, clock⟩ events = some st)
    (hcond : ∀ p ∈ steps (caStep (memoryCa opts keys)) ⟨{}, clock⟩ events, KeepsLineage opts keys p.1 p.2)
    {nid groupNid : GoString} (hissued : SessionIssued opts keys ⟨{}, clock⟩ events nid groupNid) :
    (∃ rec, (memoryCa opts keys).store.lookup st.store nid = some rec ∧
      rec.nidRole = some identLineageRoleSession ∧ rec.parentNid = some groupNid ∧
      rec.expiresAt - rec.issuedAt ≤ (memoryCa opts keys).opts.sessionMaxValidity) ∧
    (∀ now reason s' frame, (memoryCa opts keys).revoke st.store now groupNid reason = (s', .ok frame) →
      ∃ rec, (memoryCa opts keys).store.lookup s' nid = some rec ∧ rec.revokedAt.isSome = true) ∧
    (GroupGone st groupNid → ∀ later st', run (caStep (memoryCa opts keys)) st later = some st' →
      (∀ p ∈ steps (caStep (memoryCa opts keys)) st later, KeepsLineage opts keys p.1 p.2) →
      ∀ first second, st'.clock ≤ second →
        ((memoryCa opts keys).verify st'.store first second nid).valid = false) := by
  have hempty : LineageInv opts keys [] :=
    ⟨forall_mem_nil _, .nil, forall_mem_nil _, forall_mem_nil _⟩
  have hinv : LineageInv opts keys st.store.records := lineageInv_run hempty hcond hrun
  obtain ⟨rec, hrec, rfl, hrole, hparent⟩ := exists_record_of_sessionIssued hissued hrun
  have hsome : rec.nidRole ≠ none := by rw [hrole]; nofun
  refine ⟨⟨rec, hinv.sole.getByNid_eq hrec hsome, hrole, hparent, hinv.short rec hrec hrole⟩, ?_, ?_⟩
  · intro now reason s' frame hrevoke
    have hmarks := (memoryCa opts keys).revoke_entries memoryLedger st.store now groupNid reason
    rw [hrevoke] at hmarks
    obtain ⟨rec', hfound, -⟩ := (hinv.sole.of_forall₂ hmarks).exists_getByNid (.of_forall₂ hmarks) hrec hsome
    obtain ⟨hmem, hnid⟩ := mem_of_getByNid hfound
    exact ⟨rec', hfound, revokedName_of_revoke hinv hrec hparent hrevoke rec' hmem hnid⟩
  · intro hgone later st' hlater hcond' first second hsecond
    exact verify_of_groupGone hinv (lineageInv_run hinv hcond' hlater) (extends_of_run memoryLedger hlater)
      hrec hsome hparent hgone (le_trans (clock_le_of_run hlater) hsecond)

end Lineage

/-! ### A session that is renewed -/

def issuerKeys : NipIdentity (plainPlatform anySignature).ed := ⟨()⟩

def lineageOptions : NipCaOptions := { caNid := "urn:nps:org:ca.example.com", groupCertValidityDays := 1 }

def lineageCa : NipCaService (plainPlatform anySignature) InMemoryNipCaStore := memoryCa lineageOptions issuerKeys

def firstGroup : GoString := lineageCa.buildNid "agent" "group-a"

def firstSession : GoString := lineageCa.sessionNid firstDraw

def groupCall : CaEvent := .issue (.registerGroup 0 [] "group-a" "ed25519:AA" none [] [] [] [])

def sessionCall : CaEvent := .issue (.issueSession firstDraw firstGroup "ed25519:AA" {})

/-- A session is issued under a group, an agent is registered, and then the group is revoked. -/
def revokedRun : List CaEvent :=
  [groupCall, sessionCall, .issue firstRegistration, .revoke 2 firstGroup "compromised", .advance 3]

def drawsFreshName (p : CaState InMemoryNipCaStore × CaEvent) : Bool :=
  match p.2 with
  | .issue (.issueSession draw _ _ _) => (p.1.store.getByNid (lineageCa.sessionNid draw)).isNone
  | .issue (.renew _ _) => false
  | _ => true

theorem keepsLineage_of_drawsFreshName {p : CaState InMemoryNipCaStore × CaEvent} (h : drawsFreshName p = true) :
    KeepsLineage lineageOptions issuerKeys p.1 p.2 := by
  obtain ⟨st, event⟩ := p
  cases event with
  | issue call =>
    cases call with
    | issueSession => exact Option.isNone_iff_eq_none.mp h
    | renew => cases h
    | _ => trivial
  | _ => trivial

theorem revoked_session_kept : ∃ st rec, run (caStep lineageCa) ⟨{}, 0⟩ revokedRun = some st ∧
    lineageCa.store.lookup st.store firstSession = some rec ∧ rec.nidRole = some identLineageRoleSession ∧
    rec.parentNid = some firstGroup ∧ (lineageCa.verify st.store 3 3 firstSession).valid = false := by
  have hgone : ((run (caStep lineageCa) ⟨{}, 0⟩ revokedRun).any fun st => st.clock = 3 &&
      (st.store.getByNid firstGroup).any (·.revokedAt.isSome)) = true := by decide +kernel
  have hsession : ((caStep lineageCa ⟨{}, 0⟩ groupCall).any fun v => (lineageCa.issueSession v.store firstDraw
      firstGroup "ed25519:AA" {}).2.toOption.any (·.nid = firstSession)) = true := by decide +kernel
  obtain ⟨st, hrun, hgone⟩ := (Option.any_eq_true _ _).mp hgone
  obtain ⟨hclock, hgone⟩ := (Bool.and_eq_true _ _).mp hgone
  obtain ⟨group, hgroup, hrevoked⟩ := (Option.any_eq_true _ _).mp hgone
  obtain ⟨v, hv, hissued⟩ := (Option.any_eq_true _ _).mp hsession
  obtain ⟨frame, hframe, hnid⟩ := exists_ok_of_any hissued
  have hstep : (v, sessionCall) ∈ steps (caStep lineageCa) ⟨{}, 0⟩ revokedRun := by
    rw [revokedRun, steps_cons _ _ _ _ _ hv]
    exact mem_cons_of_mem _ mem_cons_self
  have hfresh : (steps (caStep lineageCa) ⟨{}, 0⟩ revokedRun).all drawsFreshName = true := by decide +kernel
  obtain ⟨⟨rec, hfound, hrole, hparent, -⟩, -, hlater⟩ := lineage_kept hrun
    (fun p hp => keepsLineage_of_drawsFreshName (all_eq_true.mp hfresh p hp))
    ⟨v, firstDraw, _, _, frame, hstep, hframe, of_decide_eq_true hnid⟩
  exact ⟨st, rec, hrun, hfound, hrole, hparent,
    hlater ⟨group, hgroup, .inl hrevoked⟩ [] st rfl (forall_mem_nil _) 3 3 (of_decide_eq_true hclock).le⟩

def renewedRun : List CaEvent :=
  [groupCall, sessionCall, .issue (.renew 1 firstSession), .issue (.renew 2 firstGroup),
    .revoke 3 firstGroup "compromised"]

/-- Both are renewed and then the group is revoked: the current record of the session has no role and no
parent and is valid for longer than a session may be, and the session still passes the check. -/
theorem renewed_session_outlives_group : ((run (caStep lineageCa) ⟨{}, 0⟩ renewedRun).any fun st =>
      (st.store.getByNid firstGroup).any (·.revokedAt.isSome) && ((st.store.getByNid firstSession).any fun rec =>
        rec.nidRole = none && rec.parentNid = none &&
          (lineageCa.opts.sessionMaxValidity : Int) < rec.expiresAt - rec.issuedAt) &&
      (lineageCa.verify st.store 4 4 firstSession).valid) = true := by
  decide +kernel

end NpsSdk.Nip
