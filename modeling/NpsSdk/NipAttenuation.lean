import NpsSdk.NipIssuance

/-! Sessions and the authority of their group. The capabilities of a session are checked against those of
its group, its scope is not: a request that brings patterns of its own gets them whatever the scope of the
group is. -/

namespace NpsSdk.Nip

open NipCaService

section

variable {N : Type} (pf : Platform N)

/-- The patterns of a scope text; one that cannot be read has none. -/
def scopePatterns (scopeJSON : GoString) : Option (List GoString) :=
  (readScope pf scopeJSON).toOption.bind scopeNodes

def Accepts (scopeJSON path : GoString) : Prop :=
  ∃ patterns, scopePatterns pf scopeJSON = some patterns ∧ (checkPatterns pf patterns path).valid = true

theorem accepts_iff_of_read {scopeJSON path : GoString} {scope : Option (FrameDict N)}
    (h : readScope pf scopeJSON = .ok scope) : Accepts pf scopeJSON path ↔ (checkScope pf scope path).valid = true := by
  have hpatterns : scopePatterns pf scopeJSON = scopeNodes scope := by
    rw [scopePatterns, h]
    rfl
  rw [Accepts, hpatterns, checkScope]
  cases scopeNodes scope with
  | none =>
    constructor
    · rintro ⟨patterns, hnone, -⟩
      cases hnone
    · exact nofun
  | some nodes =>
    constructor
    · rintro ⟨patterns, hnodes, hvalid⟩
      cases hnodes
      exact hvalid
    · exact fun hvalid => ⟨nodes, rfl, hvalid⟩

structure Attenuated (group : NipCertRecord) (frame : IdentFrame N) : Prop where
  capabilities : ∀ c ∈ frame.capabilities, c ∈ group.capabilities.getD []
  scope : ∀ path, (checkScope pf frame.scope path).valid = true → Accepts pf group.scopeJson path

variable {pf} {σ : Type}

/-- What IssueSession checks about the group and the request, and that the store takes the record. -/
structure Granted (ca : NipCaService pf σ) (s : σ) (draw : NipCaService.SessionDraw) (groupNid sessionPubKey : GoString)
    (p : NipCaService.IssueSessionParams) (group : NipCertRecord) : Prop where
  role : group.nidRole = some identLineageRoleGroup
  unrevoked : group.revokedAt = none
  unexpired : draw.checkedAt ≤ group.expiresAt
  validity : ca.opts.sessionMinValidity ≤ ca.sessionValidity p ∧ ca.sessionValidity p ≤ ca.opts.sessionMaxValidity
  capabilities : ∀ c ∈ p.capabilities.getD [], c ∈ group.capabilities.getD []
  scope : ∃ scope, readScope pf (if p.scopeJSON = [] then group.scopeJson else p.scopeJSON) = .ok scope
  metadata : ∃ metadata, readMetadata pf p.metadataJSON = .ok metadata
  stored : ∃ serial s₁ s', ca.store.nextSerial s = .ok (serial, s₁) ∧
    ca.store.save s₁ (ca.recordOf (ca.sessionRequest group groupNid sessionPubKey draw p) serial) = .ok s'

/-! ### What a session is issued with -/

variable {ca : NipCaService pf σ}

theorem issueFrame_ok {req : IssueRequest N} {serial : GoString} {frame : IdentFrame N}
    (h : ca.issueFrame req serial = .ok frame) : readScope pf req.scopeJSON = .ok frame.scope ∧
      readMetadata pf (req.metadataJson.getD []) = .ok frame.metadata ∧
      frame.capabilities = req.capabilities.getD [] := by
  obtain ⟨scope, metadata, hscope, hmeta, hframe⟩ := issueFrame_spec ca h
  rw [hframe]
  exact ⟨hscope, hmeta, rfl⟩

theorem issueFrame_of_read (ca : NipCaService pf σ) (req : IssueRequest N) (serial : GoString)
    {scope metadata : Option (FrameDict N)} (hscope : readScope pf req.scopeJSON = .ok scope)
    (hmeta : readMetadata pf (req.metadataJson.getD []) = .ok metadata) :
    ∃ frame, ca.issueFrame req serial = .ok frame := by
  unfold issueFrame
  rw [hscope, hmeta]
  exact ⟨_, rfl⟩

theorem getD_nilStr (s : GoString) : (nilStr s).getD [] = s := by
  unfold nilStr
  split
  · rename_i h
    exact h.symm
  · rfl

variable {s s' : σ} {draw : NipCaService.SessionDraw} {groupNid sessionPubKey : GoString}
  {p : NipCaService.IssueSessionParams} {group : NipCertRecord} {frame : IdentFrame N}

theorem expansion_eq_nil_iff :
    expansion group p = [] ↔ ∀ c ∈ p.capabilities.getD [], c ∈ group.capabilities.getD [] := by
  unfold expansion
  cases p.capabilities with
  | none => exact ⟨fun _ c hc => absurd hc List.not_mem_nil, fun _ => rfl⟩
  | some caps => simp [List.filter_eq_nil_iff]

/-- A session comes out exactly if it is granted. -/
theorem exists_issueSession_iff (hgroup : ca.store.lookup s groupNid = some group) :
    (∃ s' frame, ca.issueSession s draw groupNid sessionPubKey p = (s', .ok frame)) ↔
      Granted ca s draw groupNid sessionPubKey p group := by
  unfold issueSession
  rw [hgroup]
  dsimp only
  constructor
  · rintro ⟨s', frame, h⟩
    split at h
    · cases h
    rename_i hcheck
    obtain ⟨hrole, hrevoked, hexpiry, hvalidity, hexpansion⟩ := (checkSession_eq_none_iff _).mp hcheck
    obtain ⟨serial, s₁, draft, hserial, hdraft, -, hsave⟩ := issue_ok ca h
    obtain ⟨hscope, hmeta, -⟩ := issueFrame_ok hdraft
    exact ⟨hrole, hrevoked, hexpiry, hvalidity, expansion_eq_nil_iff.mp hexpansion, ⟨_, hscope⟩,
      ⟨_, (congrArg _ (getD_nilStr _).symm).trans hmeta⟩, serial, s₁, s', hserial, hsave⟩
  · rintro ⟨hrole, hrevoked, hexpiry, hvalidity, hcaps, ⟨scope, hscope⟩, ⟨metadata, hmeta⟩, hstored⟩
    obtain ⟨serial, s₁, s', hserial, hsave⟩ := hstored
    have hcheck : ca.checkSession group groupNid draw.checkedAt p = none :=
      (checkSession_eq_none_iff _).mpr ⟨hrole, hrevoked, hexpiry, hvalidity, expansion_eq_nil_iff.mpr hcaps⟩
    have hreqMeta : readMetadata pf ((nilStr p.metadataJSON).getD []) = .ok metadata := by
      rw [getD_nilStr, hmeta]
    obtain ⟨frame, hframe⟩ := issueFrame_of_read ca (ca.sessionRequest group groupNid sessionPubKey draw p) serial
      hscope hreqMeta
    rw [hcheck]
    refine ⟨s', frame, ?_⟩
    dsimp only
    rw [issue, hserial]
    dsimp only
    rw [hframe]
    dsimp only
    rw [hsave]

/-- The frame of an issued session has the scope and the capabilities asked for. -/
theorem issueSession_ok (hgroup : ca.store.lookup s groupNid = some group)
    (h : ca.issueSession s draw groupNid sessionPubKey p = (s', .ok frame)) :
    readScope pf (if p.scopeJSON = [] then group.scopeJson else p.scopeJSON) = .ok frame.scope ∧
      frame.capabilities = (p.capabilities.or group.capabilities).getD [] := by
  unfold issueSession at h
  rw [hgroup] at h
  dsimp only at h
  split at h
  · cases h
  obtain ⟨serial, s₁, draft, -, hdraft, hframe, -⟩ := issue_ok ca h
  cases hframe
  obtain ⟨hscope, -, hcaps⟩ := issueFrame_ok hdraft
  exact ⟨hscope, hcaps⟩

/-- The capabilities of a granted session are never more than the group's. -/
theorem Granted.mem_capabilities (h : Granted ca s draw groupNid sessionPubKey p group) :
    ∀ c ∈ (p.capabilities.or group.capabilities).getD [], c ∈ group.capabilities.getD [] := by
  have hcaps := h.capabilities
  cases hrequested : p.capabilities with
  | none => exact fun c hc => hc
  | some caps =>
    rw [hrequested] at hcaps
    exact hcaps

/-- A session that is issued is attenuated exactly if it inherits the scope of its group or asks for a scope within it:
the checks that refuse a call do not look at the scope. -/
theorem session_attenuated_iff (ca : NipCaService pf σ) (s : σ) (draw : NipCaService.SessionDraw)
    (groupNid sessionPubKey : GoString) (p : NipCaService.IssueSessionParams) (group : NipCertRecord)
    (hgroup : ca.store.lookup s groupNid = some group) :
    (∀ s' frame, ca.issueSession s draw groupNid sessionPubKey p = (s', .ok frame) → Attenuated pf group frame) ↔
      p.scopeJSON = [] ∨ (∀ path, Accepts pf p.scopeJSON path → Accepts pf group.scopeJson path) ∨
        ¬Granted ca s draw groupNid sessionPubKey p group := by
  constructor
  · intro hall
    by_cases hempty : p.scopeJSON = []
    · exact .inl hempty
    by_cases hgranted : Granted ca s draw groupNid sessionPubKey p group
    · obtain ⟨s', frame, hissued⟩ := (exists_issueSession_iff hgroup).mpr hgranted
      obtain ⟨hscope, -⟩ := issueSession_ok hgroup hissued
      rw [if_neg hempty] at hscope
      refine .inr (.inl ?_)
      intro path haccepts
      exact (hall s' frame hissued).scope path ((accepts_iff_of_read pf hscope).mp haccepts)
    · exact .inr (.inr hgranted)
  · intro hcond s' frame hissued
    have hgranted := (exists_issueSession_iff hgroup).mp ⟨s', frame, hissued⟩
    obtain ⟨hscope, hcaps⟩ := issueSession_ok hgroup hissued
    refine ⟨?_, fun path hpath => ?_⟩
    · rw [hcaps]
      exact hgranted.mem_capabilities
    rcases hcond with hempty | hwithin | hrefused
    · rw [if_pos hempty] at hscope
      exact (accepts_iff_of_read pf hscope).mpr hpath
    · split at hscope
      · exact (accepts_iff_of_read pf hscope).mpr hpath
      · exact hwithin path ((accepts_iff_of_read pf hscope).mpr hpath)
    · exact absurd hgranted hrefused

theorem checkPatterns_append (patterns more : List GoString) (path : GoString)
    (h : (checkPatterns pf patterns path).valid = true) :
    (checkPatterns pf (patterns ++ more) path).valid = true := by
  induction patterns with
  | nil => cases h
  | cons pattern patterns ih =>
    rw [List.cons_append, checkPatterns]
    rw [checkPatterns] at h
    split at h
    · rfl
    · exact ih h
    · cases h

end

/-! ### A session within its group, and one with more scope -/

def firstDraw : NipCaService.SessionDraw := ⟨0, 0, 0, []⟩

def narrowGroup : NipCertRecord :=
  { nid := "urn:nps:agent:ca.example.com:group-a", entityType := "agent", serial := "0x0",
    pubKey := "ed25519:AA", scopeJson := "\x7b\"nodes\":[\"nwp://a/*\"]\x7d", issuedAt := 0, expiresAt := 0,
    nidRole := some identLineageRoleGroup }

def wideRequest : NipCaService.IssueSessionParams := { scopeJSON := "\x7b\"nodes\":[\"*\"]\x7d" }

def twoNodeGroup : NipCertRecord :=
  { narrowGroup with
    scopeJson := "\x7b\"nodes\":[\"nwp://a/*\",\"nwp://b/*\"]\x7d", capabilities := some ["nwp:query", "nwp:invoke"] }

def oneNodeRequest : NipCaService.IssueSessionParams :=
  { scopeJSON := "\x7b\"nodes\":[\"nwp://a/*\"]\x7d", capabilities := some ["nwp:query"] }

theorem scopePatterns_oneNodeRequest :
    scopePatterns (plainPlatform anySignature) oneNodeRequest.scopeJSON = some [("nwp://a/*" : GoString)] := by
  decide +kernel

theorem scopePatterns_twoNodeGroup :
    scopePatterns (plainPlatform anySignature) twoNodeGroup.scopeJson =
      some [("nwp://a/*" : GoString), "nwp://b/*"] := by
  decide +kernel

/-- A session that asks for one of the nodes of its group is issued and attenuated. -/
theorem one_node_session_attenuated :
    ((exampleCa anySignature ()).issueSession { records := [twoNodeGroup] } firstDraw twoNodeGroup.nid
      "ed25519:AA" oneNodeRequest).2.isOk = true ∧
    ∀ s' frame, (exampleCa anySignature ()).issueSession { records := [twoNodeGroup] } firstDraw twoNodeGroup.nid
      "ed25519:AA" oneNodeRequest = (s', .ok frame) → Attenuated (plainPlatform anySignature) twoNodeGroup frame := by
  refine ⟨by decide +kernel, (session_attenuated_iff (exampleCa anySignature ()) _ _ _ _ _ twoNodeGroup ?_).mpr
    (.inr (.inl fun path haccepts => ?_))⟩
  · decide +kernel
  · obtain ⟨patterns, hpatterns, hvalid⟩ := haccepts
    cases scopePatterns_oneNodeRequest.symm.trans hpatterns
    exact ⟨_, scopePatterns_twoNodeGroup, checkPatterns_append _ ["nwp://b/*"] path hvalid⟩

/-- The paths that the session of a request gets under the narrow group. -/
def sessionCovers (p : NipCaService.IssueSessionParams) (path : GoString) : Bool :=
  match ((exampleCa anySignature ()).issueSession { records := [narrowGroup] } firstDraw narrowGroup.nid
    "ed25519:AA" p).2 with
  | .ok frame => (checkScope (plainPlatform anySignature) frame.scope path).valid
  | .error _ => false

/-- A session under a group for one node is issued with a scope that covers another. -/
theorem wide_session_issued : sessionCovers wideRequest "nwp://b" = true ∧
      ¬Accepts (plainPlatform anySignature) narrowGroup.scopeJson "nwp://b" := by
  refine ⟨by decide +kernel, ?_⟩
  have hpatterns : scopePatterns (plainPlatform anySignature) narrowGroup.scopeJson =
      some [("nwp://a/*" : GoString)] := by
    decide +kernel
  rintro ⟨patterns, hread, hvalid⟩
  cases hpatterns.symm.trans hread
  revert hvalid
  decide +kernel

end NpsSdk.Nip
