import NpsSdk.NipCaStore

/-! The CA service: registration, sessions under a group, renewal, revocation and the check of a name.
Every operation takes the clock readings and random bytes it uses, and gives the contents of the store
afterwards along with its result; the five operations that issue a certificate share `issue`. -/

namespace NpsSdk.Nip

open GoTime GoString JsonValue

/-! ### Options and errors -/

structure NipCaOptions where
  caNid : GoString
  displayName : GoString := []
  baseUrl : GoString := []
  routePrefix : GoString := []
  agentCertValidityDays : Int := 0
  nodeCertValidityDays : Int := 0
  renewalWindowDays : Int := 0
  groupCertValidityDays : Int := 0
  sessionDefaultValidity : Duration := 0
  sessionMaxValidity : Duration := 0
  sessionMinValidity : Duration := 0
  sessionJwsClockSkew : Duration := 0
  operatorApiKey : GoString := []
  allowedCapabilities : Option (GoString → Bool) := none
  enrollmentTier : Int := 0
  enrollmentAllowlistPatterns : Option (List GoString) := none
  bootstrapTokenMaxTtl : Duration := 0
  pendingQueueMaxSize : Int := 0

def orDefault (value default : Int) : Int := if value = 0 then default else value

def NipCaOptions.applyDefaults (o : NipCaOptions) : NipCaOptions :=
  { o with
    agentCertValidityDays := orDefault o.agentCertValidityDays 30
    nodeCertValidityDays := orDefault o.nodeCertValidityDays 90
    renewalWindowDays := orDefault o.renewalWindowDays 7
    groupCertValidityDays := orDefault o.groupCertValidityDays 365
    sessionDefaultValidity := orDefault o.sessionDefaultValidity hour
    sessionMaxValidity := orDefault o.sessionMaxValidity (24 * hour)
    sessionMinValidity := orDefault o.sessionMinValidity minute
    sessionJwsClockSkew := orDefault o.sessionJwsClockSkew (5 * minute)
    enrollmentTier := orDefault o.enrollmentTier 1
    enrollmentAllowlistPatterns := some (o.enrollmentAllowlistPatterns.getD ["*"])
    bootstrapTokenMaxTtl := orDefault o.bootstrapTokenMaxTtl (24 * hour)
    pendingQueueMaxSize := orDefault o.pendingQueueMaxSize 1000 }

/-- An error of the CA with its code, one of the store, or a request that was queued. -/
inductive CaError where
  | ca (errorCode message : GoString)
  | plain (message : GoString)
  | pending (pendingID : GoString)
  deriving DecidableEq

structure NipVerifyResult where
  valid : Bool
  errorCode : GoString := []
  message : GoString := []
  record : Option NipCertRecord := none

def verifyOk (record : NipCertRecord) : NipVerifyResult := { valid := true, record := some record }

def verifyFail (code message : GoString) : NipVerifyResult :=
  { valid := false, errorCode := code, message := message }

/-! ### Helpers -/

def identLineageRoleGroup : GoString := "group"

def identLineageRoleSession : GoString := "session"

def nilStr (s : GoString) : Option GoString := if s = [] then none else some s

def hexText (bs : Bytes) : GoString :=
  ofChars (bs.flatMap fun b => [Nat.digitChar (b.toNat / 16), Nat.digitChar (b.toNat % 16)])

def intText (n : Int) : GoString :=
  ofChars (if n < 0 then '-' :: Nat.toDigits 10 n.natAbs else Nat.toDigits 10 n.natAbs)

def durationText (d : Duration) : GoString := ofChars (GoTime.durationText d)

def unixSeconds (t : Time) : Int := t / second - 62135596800

/-- Padded and unpadded text is taken. -/
def decodeBase64Url (s : GoString) : Option Bytes :=
  (rawURLDecode s).or (Base64.decodeString Base64.urlEncoding (bytes s))

def hexDigitValue (r : GoRune) : Option Nat :=
  match r with
  | .char c => hexValue c
  | .byte _ => none

/-- The number of a serial; one that cannot be read is 1. -/
def parseSerialBytes (serial : GoString) : Nat :=
  let digits :=
    if ("0x" : GoString).isPrefixOf serial || ("0X" : GoString).isPrefixOf serial then serial.drop 2
    else serial
  match digits.mapM hexDigitValue with
  | some (d :: ds) => (d :: ds).foldl (fun n d => n * 16 + d) 0
  | _ => 1

section

variable {N : Type}

def lineageMap (fields : List (String × GoString)) : FrameDict N :=
  fields.foldl (fun d field => setIf d field.1 (nonEmpty field.2)) ∅

def extractLineageString (pf : Platform N) (lineageJSON : Option GoString) (field : String) : GoString :=
  match lineageJSON with
  | none | some [] => []
  | some text =>
    match (unmarshal pf.fmt text).bind decodeMap with
    | some (some doc) => str doc field
    | _ => []

def lineageText (pf : Platform N) (lineage : FrameDict N) : GoString :=
  ofChars (canonicalText pf.fmt lineage)

end

/-! ### Issuing -/

structure NipCaService {N : Type} (pf : Platform N) (σ : Type) where
  opts : NipCaOptions
  store : NipCaStore σ
  keys : NipIdentity pf.ed

def newNipCaService {N : Type} {pf : Platform N} {σ : Type} (opts : NipCaOptions) (store : NipCaStore σ)
    (keys : NipIdentity pf.ed) : NipCaService pf σ :=
  { opts := opts.applyDefaults, store := store, keys := keys }

structure IssueRequest (N : Type) where
  nid : GoString
  entityType : GoString
  pubKey : GoString
  capabilities : Option (List GoString)
  scopeJSON : GoString
  issuedAt : Time
  expiresAt : Time
  metadataJson : Option GoString
  assurance : Option AssuranceLevel := none
  lineage : Option (FrameDict N) := none
  nidRole : Option GoString := none
  parentNid : Option GoString := none
  lineageJson : Option GoString := none

structure X509Issuer where
  issueLeafCert : GoString → Bytes → GoString → AssuranceLevel → Time → Time → Nat → Except GoString Bytes
  caRootCert : Time → Except GoString Bytes

namespace NipCaService

variable {N : Type} {pf : Platform N} {σ : Type} (ca : NipCaService pf σ)

def getCaPublicKey : GoString := ca.keys.pubKeyString

def buildNid (entityType identifier : GoString) : GoString :=
  let domain := ((ca.opts.caNid.splitOn (.char ':'))[3]?).getD ca.opts.caNid
  "urn:nps:" ++ entityType ++ ":" ++ domain ++ ":" ++ identifier

def buildSignedPayload (nid pubKey : GoString) (capabilities : Option (List GoString))
    (scope : Option (FrameDict N)) (issuedAt expiresAt serial : GoString)
    (assurance : Option AssuranceLevel) (lineage : Option (FrameDict N)) : FrameDict N :=
  let d : FrameDict N := (∅ : FrameDict N).insert "capabilities" (strings (capabilities.getD []))
  let d := d.insert "expires_at" (.string expiresAt)
  let d := d.insert "frame" (.string "0x20")
  let d := d.insert "issued_at" (.string issuedAt)
  let d := d.insert "issued_by" (.string ca.opts.caNid)
  let d := d.insert "nid" (.string nid)
  let d := d.insert "pub_key" (.string pubKey)
  let d := d.insert "scope" (.ofMap (scope.getD ∅))
  let d := d.insert "serial" (.string serial)
  let d := setIf d "assurance_level" (assurance.map fun level => .string level.wire)
  setIf d "lineage" (lineage.map .ofMap)

variable (pf) in
/-- A JSON document that is a map; `null` is the nil map. -/
def readMap (text : GoString) : Option (Option (FrameDict N)) :=
  (unmarshal pf.fmt text).bind decodeMap

variable (pf) in
/-- The scope of a certificate; an empty text is the empty map. -/
def readScope (scopeJSON : GoString) : Except CaError (Option (FrameDict N)) :=
  if scopeJSON = [] then .ok (some ∅)
  else
    match readMap pf scopeJSON with
    | some scope => .ok scope
    | none => .error (.ca errCertFormatInvalid ("invalid scope JSON: " ++ pf.jsonError scopeJSON))

variable (pf) in
/-- Metadata; an empty text is the nil map. -/
def readMetadata (metadataJSON : GoString) : Except CaError (Option (FrameDict N)) :=
  if metadataJSON = [] then .ok none
  else
    match readMap pf metadataJSON with
    | some metadata => .ok metadata
    | none => .error (.ca errCertFormatInvalid ("invalid metadata JSON: " ++ pf.jsonError metadataJSON))

def issueFrame (req : IssueRequest N) (serial : GoString) : Except CaError (IdentFrame N) := do
  let scope ← readScope pf req.scopeJSON
  let issuedStr := isoTime req.issuedAt
  let expiresStr := isoTime req.expiresAt
  let payload := ca.buildSignedPayload req.nid req.pubKey req.capabilities scope issuedStr expiresStr serial
    req.assurance req.lineage
  let sig := ca.keys.sign pf.fmt payload
  let metadata ← readMetadata pf (req.metadataJson.getD [])
  return { nid := req.nid, pubKey := req.pubKey, metadata := metadata, signature := some sig,
           issuedBy := ca.opts.caNid, issuedAt := issuedStr, expiresAt := expiresStr, serial := serial,
           capabilities := req.capabilities.getD [], scope := scope, lineage := req.lineage,
           assuranceLevel := req.assurance }

def recordOf (req : IssueRequest N) (serial : GoString) : NipCertRecord :=
  { nid := req.nid, entityType := req.entityType, serial := serial, pubKey := req.pubKey,
    capabilities := req.capabilities, scopeJson := req.scopeJSON, issuedBy := ca.opts.caNid,
    issuedAt := req.issuedAt, expiresAt := req.expiresAt, metadataJson := req.metadataJson,
    nidRole := req.nidRole, parentNid := req.parentNid, lineageJson := req.lineageJson }

/-- A serial is taken, the frame signed and completed, and the record saved. A serial stays taken if what
follows fails. -/
def issue (s : σ) (req : IssueRequest N)
    (complete : GoString → IdentFrame N → Except CaError (IdentFrame N) := fun _ frame => .ok frame) :
    σ × Except CaError (IdentFrame N) :=
  match ca.store.nextSerial s with
  | .error err => (s, .error (.plain err))
  | .ok (serial, s) =>
    match ca.issueFrame req serial with
    | .error err => (s, .error err)
    | .ok frame =>
      match complete serial frame with
      | .error err => (s, .error err)
      | .ok frame =>
        match ca.store.save s (ca.recordOf req serial) with
        | .error err => (s, .error (.plain err))
        | .ok s => (s, .ok frame)

/-! ### Registration -/

def checkAllowedCaps (capabilities : Option (List GoString)) : Option CaError :=
  match ca.opts.allowedCapabilities with
  | none => none
  | some allowed =>
    match (capabilities.getD []).filter (fun c => !allowed c) with
    | [] => none
    | disallowed =>
      some (.ca errCertCapabilityMissing
        ("Capabilities not permitted by this CA: " ++ join ", " disallowed))

def registrable (s : σ) (nid : GoString) (capabilities : Option (List GoString)) : Option CaError :=
  if (ca.store.lookup s nid).isSome then
    some (.ca errCaNidAlreadyExists ("NID already exists: " ++ nid))
  else ca.checkAllowedCaps capabilities

def validDays (entityType : GoString) : Int :=
  if entityType = "node" then ca.opts.nodeCertValidityDays else ca.opts.agentCertValidityDays

def registration (now : Time) (entityType identifier pubKey : GoString)
    (capabilities : Option (List GoString)) (scopeJSON metadataJSON : GoString)
    (assurance : Option AssuranceLevel) : IssueRequest N :=
  { nid := ca.buildNid entityType identifier, entityType := entityType, pubKey := pubKey,
    capabilities := capabilities, scopeJSON := scopeJSON, issuedAt := now,
    expiresAt := now + ca.validDays entityType * day,
    metadataJson := nilStr metadataJSON, assurance := assurance }

def register (s : σ) (now : Time) (entityType identifier pubKey : GoString)
    (capabilities : Option (List GoString)) (scopeJSON metadataJSON : GoString) :
    σ × Except CaError (IdentFrame N) :=
  match ca.registrable s (ca.buildNid entityType identifier) capabilities with
  | some err => (s, .error err)
  | none =>
    ca.issue s
      (ca.registration now entityType identifier pubKey capabilities scopeJSON metadataJSON none)

variable (pf) in
def extractEd25519Raw (encoded : GoString) : Except CaError Bytes :=
  match afterKeyPrefix encoded with
  | none =>
    .error (.ca errCertFormatInvalid
      ("X.509 issuance requires an ed25519:* pubkey; got '" ++ encoded ++ "'."))
  | some text =>
    match decodeBase64Url text with
    | none =>
      .error (.ca errCertFormatInvalid
        ("invalid ed25519 pubkey base64url: " ++ pf.base64Error text))
    | some raw =>
      if raw.length = 32 then .ok raw
      else
        .error (.ca errCertFormatInvalid
          ("Ed25519 pubkey must be 32 bytes; got " ++ intText raw.length ++ "."))

variable (pf) in
def attachChain (issuer : X509Issuer) (nid pubKey entityType : GoString) (assurance : AssuranceLevel)
    (now expiresAt : Time) (rootCert : Option Bytes) (serial : GoString) (frame : IdentFrame N) :
    Except CaError (IdentFrame N) := do
  let subjectRaw ← extractEd25519Raw pf pubKey
  let leaf ←
    match issuer.issueLeafCert nid subjectRaw entityType assurance now expiresAt
      (parseSerialBytes serial) with
    | .ok leaf => Except.ok leaf
    | .error err => .error (.ca errCertFormatInvalid ("X.509 leaf issuance failed: " ++ err))
  let root ←
    match rootCert with
    | some root => Except.ok root
    | none =>
      match issuer.caRootCert now with
      | .ok root => .ok root
      | .error err => .error (.ca errCertFormatInvalid ("CA root cert generation failed: " ++ err))
  return { frame with certFormat := some certFormatV2X509,
                      certChain := some [rawURLEncode leaf, rawURLEncode root] }

def registerX509 (issuer : X509Issuer) (s : σ) (now : Time) (entityType identifier pubKey : GoString)
    (capabilities : Option (List GoString)) (scopeJSON : GoString) (assurance : AssuranceLevel)
    (metadataJSON : GoString) (rootCert : Option Bytes) : σ × Except CaError (IdentFrame N) :=
  let nid := ca.buildNid entityType identifier
  match ca.registrable s nid capabilities with
  | some err => (s, .error err)
  | none =>
    let req := ca.registration now entityType identifier pubKey capabilities scopeJSON metadataJSON
      (some assurance)
    ca.issue s req
      (attachChain pf issuer nid pubKey entityType assurance now req.expiresAt rootCert)

def groupIdentifier (identifier : GoString) (draw : Bytes) : Option GoString :=
  if identifier = [] then some ("group-" ++ hexText draw)
  else if ("group-" : GoString).isPrefixOf identifier then some identifier
  else none

def registerGroup (s : σ) (now : Time) (draw : Bytes) (identifier pubKey : GoString)
    (capabilities : Option (List GoString)) (scopeJSON ownerUserId ownerKeyId metadataJSON : GoString) :
    σ × Except CaError (IdentFrame N) :=
  match groupIdentifier identifier draw with
  | none =>
    (s, .error (.ca errCaNidAlreadyExists
      ("Group identifier MUST start with reserved prefix 'group-' (got '" ++ identifier ++
        "'). NPS-3 §3.1.")))
  | some identifier =>
    let nid := ca.buildNid "agent" identifier
    match ca.registrable s nid capabilities with
    | some err => (s, .error err)
    | none =>
      let lineage := lineageMap
        [("role", identLineageRoleGroup), ("owner_user_id", ownerUserId), ("owner_key_id", ownerKeyId)]
      ca.issue s
        { nid := nid, entityType := "agent", pubKey := pubKey, capabilities := capabilities,
          scopeJSON := scopeJSON, issuedAt := now,
          expiresAt := now + ca.opts.groupCertValidityDays * day,
          metadataJson := nilStr metadataJSON, lineage := some lineage,
          nidRole := some identLineageRoleGroup, lineageJson := some (lineageText pf lineage) }

/-! ### Sessions -/

structure IssueSessionParams where
  validity : Duration := 0
  purpose : GoString := []
  capabilities : Option (List GoString) := none
  scopeJSON : GoString := []
  metadataJSON : GoString := []

structure SessionDraw where
  checkedAt : Time
  namedAt : Time
  issuedAt : Time
  id : Bytes

def sessionValidity (p : IssueSessionParams) : Duration :=
  if p.validity = 0 then ca.opts.sessionDefaultValidity else p.validity

def expansion (group : NipCertRecord) (p : IssueSessionParams) : List GoString :=
  match p.capabilities with
  | some caps => caps.filter (· ∉ group.capabilities.getD [])
  | none => []

def checkSession (group : NipCertRecord) (groupNid : GoString) (now : Time) (p : IssueSessionParams) :
    Option CaError :=
  let v := ca.sessionValidity p
  if group.nidRole ≠ some identLineageRoleGroup then
    some (.ca errCaParentNotGroup
      ("NID '" ++ groupNid ++ "' is not registered as a group (role='" ++
        group.nidRole.getD "<null>" ++ "')."))
  else
    match group.revokedAt with
    | some revokedAt =>
      some (.ca errCaGroupRevoked
        ("Group " ++ groupNid ++ " was revoked at " ++ isoTime revokedAt ++
          "; cannot issue new sessions."))
    | none =>
      if now > group.expiresAt then
        some (.ca errCertExpired
          ("Group " ++ groupNid ++ " expired at " ++ isoTime group.expiresAt ++
            "; cannot issue new sessions."))
      else if v < ca.opts.sessionMinValidity ∨ v > ca.opts.sessionMaxValidity then
        some (.ca errCaSessionValidityInvalid
          ("Session validity must be in [" ++ durationText ca.opts.sessionMinValidity ++ ", " ++
            durationText ca.opts.sessionMaxValidity ++ "]; got " ++ durationText v ++ "."))
      else if expansion group p ≠ [] then
        some (.ca errCaScopeExpansionDenied
          ("Session capabilities not in parent group: " ++
            join ", " (expansion group p) ++ "."))
      else none

theorem checkSession_eq_none_iff {group : NipCertRecord} {groupNid : GoString} {now : Time} {p : IssueSessionParams} :
    ca.checkSession group groupNid now p = none ↔
      group.nidRole = some identLineageRoleGroup ∧ group.revokedAt = none ∧ now ≤ group.expiresAt ∧
        (ca.opts.sessionMinValidity ≤ ca.sessionValidity p ∧
          ca.sessionValidity p ≤ ca.opts.sessionMaxValidity) ∧ expansion group p = [] := by
  unfold checkSession
  by_cases hrole : group.nidRole = some identLineageRoleGroup
  · cases hrevoked : group.revokedAt with
    | some => simp [hrole]
    | none =>
      by_cases hexpired : now > group.expiresAt
      · simp [hrole, hexpired, not_le.mpr hexpired]
      by_cases hvalidity : ca.sessionValidity p < ca.opts.sessionMinValidity ∨
        ca.sessionValidity p > ca.opts.sessionMaxValidity
      · simp only [hrole, hexpired, hvalidity]
        constructor
        · intro h
          cases h
        · rintro ⟨-, -, -, ⟨hmin, hmax⟩, -⟩
          rcases hvalidity with h | h
          · exact absurd hmin (not_le.mpr h)
          · exact absurd hmax (not_le.mpr h)
      · simp only [hrole, hexpired, hvalidity, ne_eq, not_true_eq_false, if_false, ite_not, true_and]
        obtain ⟨hmin, hmax⟩ := not_or.mp hvalidity
        constructor
        · intro h
          split at h
          · exact ⟨not_lt.mp hexpired, ⟨not_lt.mp hmin, not_lt.mp hmax⟩, ‹_›⟩
          · cases h
        · rintro ⟨-, -, hexpansion⟩
          exact if_pos hexpansion
  · simp [hrole]

def sessionID (draw : SessionDraw) : GoString :=
  "session-" ++ intText (unixSeconds draw.namedAt) ++ "-" ++ hexText draw.id

def sessionNid (draw : SessionDraw) : GoString := ca.buildNid "agent" (sessionID draw)

def sessionRequest (group : NipCertRecord) (groupNid sessionPubKey : GoString) (draw : SessionDraw)
    (p : IssueSessionParams) : IssueRequest N :=
  let lineage := lineageMap
    [("role", identLineageRoleSession), ("parent_nid", groupNid), ("group_nid", groupNid),
      ("session_id", sessionID draw), ("purpose", p.purpose),
      ("owner_user_id", extractLineageString pf group.lineageJson "owner_user_id"),
      ("owner_key_id", extractLineageString pf group.lineageJson "owner_key_id")]
  { nid := ca.sessionNid draw, entityType := "agent", pubKey := sessionPubKey,
    capabilities := p.capabilities.or group.capabilities,
    scopeJSON := if p.scopeJSON = [] then group.scopeJson else p.scopeJSON,
    issuedAt := draw.issuedAt, expiresAt := draw.issuedAt + ca.sessionValidity p,
    metadataJson := nilStr p.metadataJSON, lineage := some lineage,
    nidRole := some identLineageRoleSession, parentNid := some groupNid,
    lineageJson := some (lineageText pf lineage) }

def issueSession (s : σ) (draw : SessionDraw) (groupNid sessionPubKey : GoString)
    (p : IssueSessionParams) : σ × Except CaError (IdentFrame N) :=
  match ca.store.lookup s groupNid with
  | none => (s, .error (.ca errCaParentNotFound ("Group NID not found: " ++ groupNid ++ ".")))
  | some group =>
    match ca.checkSession group groupNid draw.checkedAt p with
    | some err => (s, .error err)
    | none => ca.issue s (ca.sessionRequest group groupNid sessionPubKey draw p)

/-! ### Renewal -/

variable (rec : NipCertRecord)

def windowStart : Time := rec.expiresAt - ca.opts.renewalWindowDays * day

def checkRenewal (nid : GoString) (now : Time) : Option CaError :=
  if rec.revokedAt.isSome then some (.ca errCertRevoked ("NID is revoked: " ++ nid))
  else if now < ca.windowStart rec then
    some (.ca errCaRenewalTooEarly
      ("Renewal window opens " ++ isoTime (ca.windowStart rec) ++ ". Too early to renew."))
  else none

def renewal (nid : GoString) (now : Time) : IssueRequest N :=
  { nid := nid, entityType := rec.entityType, pubKey := rec.pubKey, capabilities := rec.capabilities,
    scopeJSON := rec.scopeJson, issuedAt := now,
    expiresAt := now + ca.validDays rec.entityType * day, metadataJson := rec.metadataJson }

def renew (s : σ) (now : Time) (nid : GoString) : σ × Except CaError (IdentFrame N) :=
  match ca.store.lookup s nid with
  | none => (s, .error (.ca errCaNidNotFound ("NID not found: " ++ nid)))
  | some rec =>
    match ca.checkRenewal rec nid now with
    | some err => (s, .error err)
    | none => ca.issue s (ca.renewal rec nid now)

/-! ### Revocation -/

def parentRevoked : GoString := "parent_revoked"

/-- Revokes the names of the records that are not revoked, whatever comes of it. -/
def revokeChildren (s : σ) (now : Time) (children : List NipCertRecord) : σ :=
  children.foldl (fun s child =>
    if child.revokedAt.isSome then s
    else
      match ca.store.revoke s child.nid parentRevoked now with
      | .ok (_, s) => s
      | .error _ => s) s

def revokePayload (nid reason : GoString) (now : Time) : FrameDict N :=
  let d : FrameDict N := (∅ : FrameDict N).insert "frame" (.string "0x22")
  let d := d.insert "target_nid" (.string nid)
  let d := d.insert "serial" (.string rec.serial)
  let d := d.insert "reason" (.string reason)
  let d := d.insert "revoked_at" (.string (isoTime now))
  d.insert "signer_nid" (.string ca.opts.caNid)

def revokeFrame (nid reason : GoString) (now : Time) : RevokeFrame :=
  { targetNID := nid, serial := some rec.serial, reason := reason, revokedAt := isoTime now,
    signerNID := ca.opts.caNid,
    signature := ca.keys.sign pf.fmt (ca.revokePayload rec nid reason now) }

def revoke (s : σ) (now : Time) (nid reason : GoString) : σ × Except CaError RevokeFrame :=
  match ca.store.lookup s nid with
  | none => (s, .error (.ca errCaNidNotFound ("NID not found: " ++ nid)))
  | some rec =>
    match ca.store.revoke s nid reason now with
    | .error err => (s, .error (.plain err))
    | .ok (false, s) => (s, .error (.ca errCaNidNotFound ("Failed to revoke " ++ nid ++ ".")))
    | .ok (true, s) =>
      let s :=
        if rec.nidRole = some identLineageRoleGroup then
          ca.revokeChildren s now (ca.store.getByParentNid s nid).1
        else s
      (s, .ok (ca.revokeFrame rec nid reason now))

/-! ### The check of a name -/

/-- The parent of a session, if it names one: present, not revoked, not expired. -/
def verifyParent (s : σ) (now : Time) (rec : NipCertRecord) : NipVerifyResult :=
  match rec.parentNid with
  | none | some [] => verifyOk rec
  | some parentNid =>
    match ca.store.lookup s parentNid with
    | none => verifyFail errCertParentRevoked ("Parent NID " ++ parentNid ++ " not found.")
    | some parent =>
      match parent.revokedAt with
      | some revokedAt =>
        verifyFail errCertParentRevoked
          ("Parent " ++ parentNid ++ " revoked at " ++ isoTime revokedAt ++ ": " ++
            parent.revokeReason.getD [])
      | none =>
        if now > parent.expiresAt then
          verifyFail errCertParentRevoked
            ("Parent " ++ parentNid ++ " expired at " ++ isoTime parent.expiresAt ++ ".")
        else verifyOk rec

/-- `now` and `later` are the two readings of the clock. -/
def verify (s : σ) (now later : Time) (nid : GoString) : NipVerifyResult :=
  match ca.store.lookup s nid with
  | none => verifyFail errCaNidNotFound "NID not found."
  | some rec =>
    match rec.revokedAt with
    | some revokedAt =>
      verifyFail errCertRevoked
        ("Revoked at " ++ isoTime revokedAt ++ ": " ++ rec.revokeReason.getD [])
    | none =>
      if now > rec.expiresAt then
        verifyFail errCertExpired ("Expired at " ++ isoTime rec.expiresAt ++ ".")
      else ca.verifyParent s later rec

def getCrl (s : σ) : List NipCertRecord × Option GoString := ca.store.getRevoked s

end NipCaService

end NpsSdk.Nip
