import NpsSdk.NipCaService
import NpsSdk.NipVerifier

/-! What the CA signs and what a verifier checks. The CA signs a payload that always has a `frame` member,
and the verifier rebuilds the payload from a frame without one: the signature of an issued frame is never
accepted, neither for the frame itself nor for what is read from its wire form. -/

namespace NpsSdk.Nip

open JsonValue NipCaService GoString Option List

/-! ### Calls that issue a certificate -/

inductive IssuingCall where
  | register (now : Time) (entityType identifier pubKey : GoString) (capabilities : Option (List GoString))
      (scopeJSON metadataJSON : GoString)
  | registerX509 (issuer : X509Issuer) (now : Time) (entityType identifier pubKey : GoString)
      (capabilities : Option (List GoString)) (scopeJSON : GoString) (assurance : AssuranceLevel)
      (metadataJSON : GoString) (rootCert : Option Bytes)
  | registerGroup (now : Time) (draw : Bytes) (identifier pubKey : GoString)
      (capabilities : Option (List GoString)) (scopeJSON ownerUserId ownerKeyId metadataJSON : GoString)
  | issueSession (draw : NipCaService.SessionDraw) (groupNid sessionPubKey : GoString)
      (p : NipCaService.IssueSessionParams)
  | renew (now : Time) (nid : GoString)

section Issuing

variable {N : Type} {pf : Platform N} {σ : Type} (ca : NipCaService pf σ)

def IssuingCall.run (s : σ) : IssuingCall → σ × Except CaError (IdentFrame N)
  | .register now entityType identifier pubKey capabilities scopeJSON metadataJSON =>
    ca.register s now entityType identifier pubKey capabilities scopeJSON metadataJSON
  | .registerX509 issuer now entityType identifier pubKey capabilities scopeJSON assurance metadataJSON
      rootCert =>
      ca.registerX509 issuer s now entityType identifier pubKey capabilities scopeJSON assurance
        metadataJSON rootCert
  | .registerGroup now draw identifier pubKey capabilities scopeJSON ownerUserId ownerKeyId
      metadataJSON =>
      ca.registerGroup s now draw identifier pubKey capabilities scopeJSON ownerUserId ownerKeyId
        metadataJSON
  | .issueSession draw groupNid sessionPubKey p => ca.issueSession s draw groupNid sessionPubKey p
  | .renew now nid => ca.renew s now nid

variable {ca} {serial : GoString} {req : IssueRequest N} {frame : IdentFrame N}

/-- A chain changes nothing else about a frame. -/
theorem attachChain_ok {issuer : X509Issuer} {nid pubKey entityType : GoString} {assurance : AssuranceLevel}
    {now expiresAt : Time} {rootCert : Option Bytes} {frame frame' : IdentFrame N}
    (h : attachChain pf issuer nid pubKey entityType assurance now expiresAt rootCert serial
      frame = .ok frame') :
    ∃ certFormat certChain, frame' = { frame with certFormat := certFormat, certChain := certChain } := by
  unfold attachChain at h
  cases hraw : extractEd25519Raw pf pubKey with
  | error err =>
    rw [hraw] at h
    cases h
  | ok raw =>
    rw [hraw] at h
    dsimp only [bind, Except.bind] at h
    split at h
    · split at h
      · cases h
        exact ⟨_, _, rfl⟩
      split at h
      · cases h
        exact ⟨_, _, rfl⟩
      · cases h
    · cases h

variable (ca)

def NipCaService.groupRequest (now : Time) (identifier pubKey : GoString)
    (capabilities : Option (List GoString)) (scopeJSON ownerUserId ownerKeyId metadataJSON : GoString) :
    IssueRequest N :=
  let lineage := lineageMap
    [("role", identLineageRoleGroup), ("owner_user_id", ownerUserId), ("owner_key_id", ownerKeyId)]
  { nid := ca.buildNid "agent" identifier, entityType := "agent", pubKey := pubKey,
    capabilities := capabilities, scopeJSON := scopeJSON, issuedAt := now,
    expiresAt := now + ca.opts.groupCertValidityDays * GoTime.day,
    metadataJson := nilStr metadataJSON, lineage := some lineage,
    nidRole := some identLineageRoleGroup, lineageJson := some (lineageText pf lineage) }

/-- What a call issues a certificate for, if its checks pass. -/
def IssuingCall.request (s : σ) : IssuingCall → Option (IssueRequest N)
  | .register now entityType identifier pubKey capabilities scopeJSON metadataJSON =>
    match ca.registrable s (ca.buildNid entityType identifier) capabilities with
    | some _ => none
    | none =>
      some (ca.registration now entityType identifier pubKey capabilities scopeJSON metadataJSON none)
  | .registerX509 _ now entityType identifier pubKey capabilities scopeJSON assurance metadataJSON _ =>
    match ca.registrable s (ca.buildNid entityType identifier) capabilities with
    | some _ => none
    | none =>
      some (ca.registration now entityType identifier pubKey capabilities scopeJSON metadataJSON
        (some assurance))
  | .registerGroup now draw identifier pubKey capabilities scopeJSON ownerUserId ownerKeyId metadataJSON =>
    match groupIdentifier identifier draw with
    | none => none
    | some identifier =>
      match ca.registrable s (ca.buildNid "agent" identifier) capabilities with
      | some _ => none
      | none =>
        some (ca.groupRequest now identifier pubKey capabilities scopeJSON ownerUserId ownerKeyId
          metadataJSON)
  | .issueSession draw groupNid sessionPubKey p =>
    match ca.store.lookup s groupNid with
    | none => none
    | some group =>
      match ca.checkSession group groupNid draw.checkedAt p with
      | some _ => none
      | none => some (ca.sessionRequest group groupNid sessionPubKey draw p)
  | .renew now nid =>
    match ca.store.lookup s nid with
    | none => none
    | some rec =>
      match ca.checkRenewal rec nid now with
      | some _ => none
      | none => some (ca.renewal rec nid now)

/-- The frame that was signed is returned, but for the chain that may be attached to it. -/
def Completes (complete : GoString → IdentFrame N → Except CaError (IdentFrame N)) : Prop :=
  ∀ serial frame frame', complete serial frame = .ok frame' →
    ∃ certFormat certChain, frame' = { frame with certFormat := certFormat, certChain := certChain }

theorem completes_self : Completes fun _ (frame : IdentFrame N) => (.ok frame : Except CaError _) := by
  rintro _ frame _ ⟨⟩
  exact ⟨_, _, rfl⟩

/-- A call fails and leaves the contents of the store, or issues for its request. -/
theorem IssuingCall.run_eq (call : IssuingCall) (s : σ) :
    (call.request ca s = none ∧ ∃ err, call.run ca s = (s, .error err)) ∨
      ∃ req complete, call.request ca s = some req ∧ call.run ca s = ca.issue s req complete ∧
        Completes complete := by
  cases call with
  | register now entityType identifier pubKey capabilities =>
    simp only [run, request, NipCaService.register]
    cases ca.registrable s (ca.buildNid entityType identifier) capabilities with
    | some err => exact .inl ⟨rfl, err, rfl⟩
    | none => exact .inr ⟨_, _, rfl, rfl, completes_self⟩
  | registerX509 issuer now entityType identifier pubKey capabilities scopeJSON assurance metadataJSON
      rootCert =>
      simp only [run, request, NipCaService.registerX509]
      cases ca.registrable s (ca.buildNid entityType identifier) capabilities with
      | some err => exact .inl ⟨rfl, err, rfl⟩
      | none =>
        refine .inr ⟨_, _, rfl, rfl, ?_⟩
        intro serial frame frame' h
        exact attachChain_ok h
  | registerGroup now draw identifier pubKey capabilities =>
    simp only [run, request, NipCaService.registerGroup]
    cases NipCaService.groupIdentifier identifier draw with
    | none => exact .inl ⟨rfl, _, rfl⟩
    | some identifier =>
      dsimp only
      cases ca.registrable s (ca.buildNid "agent" identifier) capabilities with
      | some err => exact .inl ⟨rfl, err, rfl⟩
      | none => exact .inr ⟨_, _, rfl, rfl, completes_self⟩
  | issueSession draw groupNid sessionPubKey p =>
    simp only [run, request, NipCaService.issueSession]
    cases ca.store.lookup s groupNid with
    | none => exact .inl ⟨rfl, _, rfl⟩
    | some group =>
      dsimp only
      cases ca.checkSession group groupNid draw.checkedAt p with
      | some err => exact .inl ⟨rfl, err, rfl⟩
      | none => exact .inr ⟨_, _, rfl, rfl, completes_self⟩
  | renew now nid =>
    simp only [run, request, NipCaService.renew]
    cases ca.store.lookup s nid with
    | none => exact .inl ⟨rfl, _, rfl⟩
    | some rec =>
      dsimp only
      cases ca.checkRenewal rec nid now with
      | some err => exact .inl ⟨rfl, err, rfl⟩
      | none => exact .inr ⟨_, _, rfl, rfl, completes_self⟩

theorem lookup_of_registrable {s : σ} {nid : GoString} {capabilities : Option (List GoString)}
    (h : ca.registrable s nid capabilities = none) : ca.store.lookup s nid = none := by
  unfold registrable at h
  split_ifs at h with hfound
  rwa [Bool.not_eq_true, isSome_eq_false_iff, isNone_iff_eq_none] at hfound

theorem buildNid_ne_nil (entityType identifier : GoString) : ca.buildNid entityType identifier ≠ [] := by
  unfold buildNid
  simp only [append_assoc]
  exact append_ne_nil_of_left_ne_nil (show ("urn:nps:" : GoString) ≠ [] by decide) _

/-- A request is for a name that is not on record, for a session under a group, or for a name whose
certificate is renewed. -/
theorem IssuingCall.request_cases {call : IssuingCall} {s : σ} (h : call.request ca s = some req) :
    (ca.store.lookup s req.nid = none ∧ req.nid ≠ [] ∧ req.parentNid = none ∧
      req.nidRole ≠ some identLineageRoleSession) ∨
    (∃ draw groupNid sessionPubKey p group, call = .issueSession draw groupNid sessionPubKey p ∧
      ca.store.lookup s groupNid = some group ∧ ca.checkSession group groupNid draw.checkedAt p = none ∧
      req = ca.sessionRequest group groupNid sessionPubKey draw p) ∨
    ∃ now nid rec, call = .renew now nid ∧ ca.store.lookup s nid = some rec ∧ rec.revokedAt = none ∧
      req = ca.renewal rec nid now := by
  have hplain : (none : Option GoString) ≠ some identLineageRoleSession := nofun
  cases call with
  | register | registerX509 =>
    rw [request] at h
    split at h
    · cases h
    rename_i hfree
    cases h
    exact .inl ⟨lookup_of_registrable ca hfree, buildNid_ne_nil ca _ _, rfl, hplain⟩
  | registerGroup =>
    rw [request] at h
    split at h
    · cases h
    split at h
    · cases h
    rename_i hfree
    cases h
    refine .inl ⟨lookup_of_registrable ca hfree, buildNid_ne_nil ca _ _, rfl, ?_⟩
    exact fun hrole => absurd (some.inj hrole) (by decide)
  | issueSession draw groupNid sessionPubKey p =>
    rw [request] at h
    split at h
    · cases h
    rename_i group hgroup
    split at h
    · cases h
    rename_i hcheck
    cases h
    exact .inr (.inl ⟨draw, groupNid, sessionPubKey, p, group, rfl, hgroup, hcheck, rfl⟩)
  | renew now nid =>
    rw [request] at h
    split at h
    · cases h
    rename_i rec hrec
    split at h
    · cases h
    rename_i hcheck
    cases h
    refine .inr (.inr ⟨now, nid, rec, rfl, hrec, ?_, rfl⟩)
    unfold checkRenewal at hcheck
    split_ifs at hcheck with hrevoked
    rwa [Bool.not_eq_true, isSome_eq_false_iff, isNone_iff_eq_none] at hrevoked

/-! ### What is signed -/

def NipCaService.signedPayload (frame : IdentFrame N) : FrameDict N :=
  ca.buildSignedPayload frame.nid frame.pubKey (some frame.capabilities) frame.scope frame.issuedAt
    frame.expiresAt frame.serial frame.assuranceLevel frame.lineage

theorem buildSignedPayload_frame (nid pubKey : GoString) (capabilities : Option (List GoString))
    (scope : Option (FrameDict N)) (issuedAt expiresAt serial : GoString)
    (assurance : Option AssuranceLevel) (lineage : Option (FrameDict N)) :
    (ca.buildSignedPayload nid pubKey capabilities scope issuedAt expiresAt serial assurance
      lineage)["frame"]? = some (.string "0x20") := by
  unfold buildSignedPayload
  simp only [getElem?_setIf_ne, ne_eq, String.reduceEq, not_false_eq_true, GoMap.getElem?_insert, if_false, if_true]

/-- A frame holds the request, the serial and the signature of the payload built from them. -/
theorem issueFrame_spec (h : ca.issueFrame req serial = .ok frame) :
    ∃ scope metadata, readScope pf req.scopeJSON = .ok scope ∧
      readMetadata pf (req.metadataJson.getD []) = .ok metadata ∧
      frame = { nid := req.nid, pubKey := req.pubKey, metadata := metadata,
                signature := some (ca.keys.sign pf.fmt (ca.signedPayload frame)),
                issuedBy := ca.opts.caNid, issuedAt := GoTime.isoTime req.issuedAt,
                expiresAt := GoTime.isoTime req.expiresAt, serial := serial,
                capabilities := req.capabilities.getD [], scope := scope, lineage := req.lineage,
                assuranceLevel := req.assurance } := by
  unfold issueFrame at h
  cases hscope : readScope pf req.scopeJSON with
  | error err =>
    rw [hscope] at h
    cases h
  | ok scope =>
    cases hmeta : readMetadata pf (req.metadataJson.getD []) with
    | error err =>
      rw [hscope, hmeta] at h
      cases h
    | ok metadata =>
      rw [hscope, hmeta] at h
      cases h
      exact ⟨scope, metadata, rfl, rfl, rfl⟩

theorem issueFrame_signature (h : ca.issueFrame req serial = .ok frame) :
    frame.signature = some (ca.keys.sign pf.fmt (ca.signedPayload frame)) := by
  obtain ⟨scope, metadata, -, -, hframe⟩ := issueFrame_spec ca h
  exact congrArg IdentFrame.signature hframe

theorem issue_ok {s s' : σ} {complete : GoString → IdentFrame N → Except CaError (IdentFrame N)}
    (h : ca.issue s req complete = (s', .ok frame)) : ∃ serial s₁ draft, ca.store.nextSerial s = .ok (serial, s₁) ∧
      ca.issueFrame req serial = .ok draft ∧ complete serial draft = .ok frame ∧
      ca.store.save s₁ (ca.recordOf req serial) = .ok s' := by
  unfold issue at h
  split at h
  · cases h
  rename_i serial s₁ hserial
  split at h
  · cases h
  rename_i draft hdraft
  split at h
  · cases h
  rename_i frame' hframe
  split at h
  · cases h
  rename_i s₂ hsave
  cases h
  exact ⟨serial, s₁, draft, hserial, hdraft, hframe, hsave⟩

theorem IssuingCall.signature_of_run {call : IssuingCall} {s s' : σ} (h : call.run ca s = (s', .ok frame)) :
    frame.signature = some (ca.keys.sign pf.fmt (ca.signedPayload frame)) := by
  rcases call.run_eq ca s with ⟨-, err, herr⟩ | ⟨req, complete, -, hrun, hcomplete⟩
  · rw [h] at herr
    cases herr
  rw [h] at hrun
  obtain ⟨serial, s₁, draft, -, hdraft, hframe, -⟩ := issue_ok ca hrun.symm
  obtain ⟨format, chain, rfl⟩ := hcomplete _ _ _ hframe
  have hsignature := issueFrame_signature ca hdraft
  exact hsignature

/-! ### What is verified -/

theorem parsePubKeyString_pubKeyString (id : NipIdentity pf.ed) :
    parsePubKeyString pf id.pubKeyString = .ok id.pubKey := by
  rw [parsePubKeyString, NipIdentity.pubKeyString, encodeKeyText, afterKeyPrefix_append]
  dsimp only
  rw [rawURLDecode_rawURLEncode]
  exact if_pos (pf.ed.length_publicKey _)

theorem checkSignature_sign {id : NipIdentity pf.ed} {payload : FrameDict N}
    (h : frame.signature = some (id.sign pf.fmt payload)) : (checkSignature pf id.pubKeyString frame).valid =
      pf.ed.verify id.pubKey (canonicalJSON pf.fmt frame.unsignedDict)
        (pf.ed.sign id.privKey (canonicalJSON pf.fmt payload)) := by
  rw [checkSignature, parsePubKeyString_pubKeyString, h, NipIdentity.sign, encodeKeyText]
  dsimp only [bind_some]
  rw [afterKeyPrefix_append]
  dsimp only
  rw [rawURLDecode_rawURLEncode]
  dsimp only
  split
  · rename_i hverify
    exact hverify.symm
  · rename_i hverify
    exact (Bool.eq_false_iff.mpr hverify).symm

theorem checkSignature_of_frame_member {id : NipIdentity pf.ed} {payload : FrameDict N} {value : JsonValue N}
    (h : frame.signature = some (id.sign pf.fmt payload)) (hmember : payload["frame"]? = some value)
    (hsigns : pf.ed.SignsOnly id.privKey (canonicalJSON pf.fmt payload)) :
    (checkSignature pf id.pubKeyString frame).valid = false := by
  rw [checkSignature_sign h, Bool.eq_false_iff]
  intro hverify
  have htext := canonicalText_of_canonicalJSON_eq pf.fmt (hsigns _ hverify)
  have hframe := map_normal_eq_of_marshal_eq pf.fmt htext "frame"
  rw [IdentFrame.unsignedDict_frame, hmember] at hframe
  cases hframe

/-! ### The wire -/

theorem valid_encodeKeyText (raw : Bytes) : GoString.Valid (encodeKeyText raw) := by
  have happend : encodeKeyText raw = ofChars ("ed25519:".toList ++
      (Base64.encodeRawURL raw).map fun b => Char.ofNat b.toNat) := by
    rw [encodeKeyText, rawURLEncode, ofAscii, keyPrefix, ofString, ofChars,
      ofChars, ofChars, map_append]
  rw [happend]
  exact valid_ofChars _

theorem wire_signature {sig : GoString} (h : frame.signature = some sig) :
    frame.wire["signature"]? = some (.string sig) := by
  unfold IdentFrame.wire
  simp only [getElem?_setIf_ne, ne_eq, String.reduceEq, not_false_eq_true]
  rw [h]
  exact (GoMap.getElem?_insert _ _ _ _).trans (if_pos rfl)

theorem received_signature {frame received : IdentFrame N} {raw : Bytes}
    (hsig : frame.signature = some (encodeKeyText raw)) (h : frame.received pf.fmt = some received) :
    received.signature = some (encodeKeyText raw) := by
  unfold IdentFrame.received canonicalText at h
  split at h
  · rename_i fields hread
    have hnormal := eq_normal_of_unmarshal pf.fmt hread
    rw [normal_ofMap] at hnormal
    rw [← some.inj h, object.inj hnormal, toMap_toList]
    change optStr _ "signature" = _
    have hvalid := (ofChars_toChars_eq_iff _).mpr (valid_encodeKeyText raw)
    rw [optStr, Std.ExtTreeMap.getElem?_map, wire_signature hsig]
    simp only [map_some, normal, hvalid]
  · cases h

/-- The signature of an issued frame is not accepted under the key of the CA, neither for the frame nor
for what is read from its wire form. -/
theorem issued_signature_rejected {call : IssuingCall} {s s' : σ} {frame : IdentFrame N}
    (h : call.run ca s = (s', .ok frame))
    (hsigns : pf.ed.SignsOnly ca.keys.privKey (canonicalJSON pf.fmt (ca.signedPayload frame))) :
    (checkSignature pf ca.getCaPublicKey frame).valid = false ∧
      ∀ received, frame.received pf.fmt = some received →
        (checkSignature pf ca.getCaPublicKey received).valid = false := by
  have hsig := IssuingCall.signature_of_run ca h
  have hmember : (ca.signedPayload frame)["frame"]? = some (.string "0x20") :=
    buildSignedPayload_frame ca _ _ _ _ _ _ _ _ _
  refine ⟨checkSignature_of_frame_member hsig hmember hsigns, ?_⟩
  intro received hreceived
  exact checkSignature_of_frame_member (received_signature hsig hreceived) hmember hsigns

end Issuing

/-! ### A first registration -/

def oneMessage (message : Bytes) : Ed25519 where
  PrivateKey := Unit
  publicKey _ := replicate 32 0
  sign _ m := replicate 64 (if m = message then 0 else 1)
  verify _ m sig := if sig = replicate 64 0 then m = message else true
  length_publicKey := length_zeroKey
  length_sign _ _ := length_replicate
  verify_sign _ m := by
    by_cases h : m = message
    · simp [h]
    · simp [h, replicate_succ]

theorem signsOnly_oneMessage (message : Bytes) : (oneMessage message).SignsOnly () message := by
  intro other h
  simpa [oneMessage] using h

def exampleCa (ed : Ed25519) (key : ed.PrivateKey) : NipCaService (plainPlatform ed) InMemoryNipCaStore :=
  newNipCaService { caNid := "urn:nps:org:ca.example.com" } inMemoryStore ⟨key⟩

def firstRegistration : IssuingCall := .register 1 "agent" "a" "ed25519:AA" none [] []

def firstPayload : FrameDict JsonNumber :=
  (exampleCa anySignature ()).buildSignedPayload ((exampleCa anySignature ()).buildNid "agent" "a")
    "ed25519:AA" none (some ∅) (GoTime.isoTime 1) (GoTime.isoTime (1 + 30 * GoTime.day)) (serialText 1) none
    none

theorem run_firstRegistration (ed : Ed25519) (key : ed.PrivateKey) :
    ∃ s' frame, firstRegistration.run (exampleCa ed key) {} = (s', .ok frame) ∧
      (exampleCa ed key).signedPayload frame = firstPayload := by
  have hdays : (exampleCa ed key).validDays "agent" = 30 := if_neg (by decide)
  simp only [firstRegistration, IssuingCall.run, register]
  simp only [issue, issueFrame, registration, hdays]
  exact ⟨_, _, rfl, rfl⟩

/-- With a scheme that accepts its signature for what was signed only. -/
theorem first_registration_rejected : let ed := oneMessage (canonicalJSON jsonNumber firstPayload)
    ∃ s' frame, firstRegistration.run (exampleCa ed ()) {} = (s', .ok frame) ∧
      (checkSignature (plainPlatform ed) (exampleCa ed ()).getCaPublicKey frame).valid = false ∧
      ∀ received, frame.received jsonNumber = some received →
        (checkSignature (plainPlatform ed) (exampleCa ed ()).getCaPublicKey received).valid = false := by
  intro ed
  obtain ⟨s', frame, hrun, hpayload⟩ := run_firstRegistration ed ()
  refine ⟨s', frame, hrun, issued_signature_rejected _ hrun ?_⟩
  rw [hpayload]
  exact signsOnly_oneMessage _

/-- The CA registers its first agent, and the frame it returns does not verify under its own key. -/
theorem registered_frame_unverified : let ed := oneMessage (canonicalJSON jsonNumber firstPayload)
    ∃ s' frame, firstRegistration.run (exampleCa ed ()) {} = (s', .ok frame) ∧
      (checkSignature (plainPlatform ed) (exampleCa ed ()).getCaPublicKey frame).valid = false := by
  intro ed
  obtain ⟨s', frame, hrun, hpayload⟩ := run_firstRegistration ed ()
  have hsig := IssuingCall.signature_of_run _ hrun
  rw [hpayload] at hsig
  refine ⟨s', frame, hrun, checkSignature_of_frame_member hsig
    (buildSignedPayload_frame (exampleCa anySignature ()) _ _ _ _ _ _ _ _ _) ?_⟩
  exact signsOnly_oneMessage _

end NpsSdk.Nip
