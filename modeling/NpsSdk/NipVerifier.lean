import NpsSdk.NipCaStore
import NpsSdk.NipPhase3

/-! The six steps of `VerifyFull`: expiry, trusted issuer, signature and certificate chain, revocation,
capabilities, scope. What the verifier asks of its surroundings (the clock, the answer of an OCSP
endpoint) is an input of the call. -/

namespace NpsSdk.Nip

open JsonValue GoString

/-! ### Scope patterns -/

section

variable {N : Type} (pf : Platform N)

def toLower (s : GoString) : List Char := (toChars s).map pf.toLower

def equalFold (s t : GoString) : Bool :=
  (toChars s).map pf.simpleFold = (toChars t).map pf.simpleFold

inductive PathMatch where
  | matched
  | unmatched
  | indexOutOfRange
  deriving DecidableEq

def patternPrefix (pattern : GoString) : Option GoString :=
  if (("/*" : GoString).isSuffixOf pattern) then some (pattern.take (pattern.length - 2)) else none

def nwpPathMatches (pattern path : GoString) : PathMatch :=
  if pattern = "*" then .matched
  else
    match patternPrefix pattern with
    | some stem =>
      if (toLower pf stem).isPrefixOf (toLower pf path) then
        let path := bytes path
        let length := (bytes stem).length
        if path.length = length then .matched
        else
          match path[length]? with
          | some b => if b = 47 then .matched else .unmatched
          | none => .indexOutOfRange
      else .unmatched
    | none => if equalFold pf pattern path then .matched else .unmatched

/-- The patterns in order; a panic ends the verification without a result and is shown as one that is not
valid. -/
def checkPatterns (patterns : List GoString) (targetPath : GoString) : IdentVerifyResult :=
  match patterns with
  | [] =>
    fail 6 errCertScopeViolation
      ("target path '" ++ targetPath ++ "' is not covered by the certificate scope")
  | pattern :: patterns =>
    match nwpPathMatches pf pattern targetPath with
    | .matched => passed
    | .unmatched => checkPatterns patterns targetPath
    | .indexOutOfRange => fail 6 [] "runtime error: index out of range"

def scopeNodes (scope : Option (FrameDict N)) : Option (List GoString) :=
  scope.bind fun d => stringSlice d["nodes"]?

def checkScope (scope : Option (FrameDict N)) (targetPath : GoString) : IdentVerifyResult :=
  match scopeNodes scope with
  | none => fail 6 errCertScopeViolation "IdentFrame scope is missing 'nodes' field"
  | some nodes => checkPatterns pf nodes targetPath

end

/-! ### The revocation policy -/

inductive NipRevocationSource where
  | localCrl
  | callback
  | caStore
  | ocsp
  deriving DecidableEq

def NipRevocationSource.text : NipRevocationSource → GoString
  | .localCrl => "local_crl"
  | .callback => "callback"
  | .caStore => "ca_store"
  | .ocsp => "ocsp"

inductive NipRevocationOutcome where
  | good
  | revoked
  | unavailable
  deriving DecidableEq

/-- The mode is a text; every one but `required` acts as `if_configured`. -/
structure NipRevocationPolicy where
  mode : GoString
  ocspFailOpen : Bool
  consultedSources : List NipRevocationSource := []

def nipRevocationIfConfigured : GoString := "if_configured"

def nipRevocationRequired : GoString := "required"

namespace NipRevocationPolicy

def new (mode : GoString) (ocspFailOpen : Bool) : NipRevocationPolicy :=
  { mode := if mode = [] then nipRevocationIfConfigured else mode, ocspFailOpen := ocspFailOpen }

/-- Records a source; without a result the evaluation goes on. -/
def observe (p : NipRevocationPolicy) (source : NipRevocationSource) (outcome : NipRevocationOutcome) :
    NipRevocationPolicy × Option IdentVerifyResult :=
  let p := { p with consultedSources := p.consultedSources ++ [source] }
  if source = .ocsp ∧ outcome = .unavailable ∧ p.ocspFailOpen then (p, none)
  else
    match outcome with
    | .good => (p, none)
    | .revoked =>
      (p, some (fail 4 errCertRevoked
        ("revocation source " ++ source.text ++ " reports the certificate revoked")))
    | .unavailable =>
      (p, some (fail 4 errOcspUnavailable
        ("revocation source " ++ source.text ++ " is unavailable")))

def complete (p : NipRevocationPolicy) : IdentVerifyResult :=
  if p.mode = nipRevocationRequired ∧ p.consultedSources = [] then
    fail 4 errOcspUnavailable "revocation mode is required, but no revocation source is configured"
  else passed

end NipRevocationPolicy

/-! ### The verifier -/

inductive OcspReply where
  | requestError (text : GoString)
  | transportError (text : GoString)
  | response (status : Nat) (body : Except GoString GoString)

structure OcspPayload where
  valid : Bool := false
  errorCode : GoString := []
  deriving DecidableEq

section Verifier

variable {N : Type} (pf : Platform N)

structure VerifierEnv where
  clock : Time
  ocsp : GoString → OcspReply

structure VerifierOptions where
  trustedCaPublicKeys : GoString → Option GoString
  trustedX509Roots : List pf.Certificate := []
  phase3Enforcement : Bool := false
  /-- The zero time stands for the clock. -/
  now : Time := 0
  localRevokedSerials : Option (List GoString) := none
  revocationCheck : Option (IdentFrame N → Option IdentVerifyResult) := none
  revocationStore : Option (GoString → Option NipCertRecord × Bool) := none
  ocspURL : GoString := []
  ocspFailOpen : Bool := false
  revocationMode : GoString := []

structure VerifyContext where
  requiredCapabilities : List GoString := []
  targetNodePath : GoString := []
  /-- The zero time stands for the clock. -/
  asOf : Time := 0

structure ChainVerdict where
  valid : Bool
  errorCode : GoString := []
  message : GoString := []

abbrev X509ChainVerifier :=
  List GoString → GoString → Option AssuranceLevel → List pf.Certificate → ChainVerdict

structure NipIdentVerifier where
  options : VerifierOptions pf
  x509Verifier : Option (X509ChainVerifier pf) := none

/-- `"unsupported public key format"` and the other errors of `parsePubKeyString`. -/
def parsePubKeyString (s : GoString) : Except GoString Bytes :=
  match afterKeyPrefix s with
  | none => .error ("unsupported public key format: " ++ s)
  | some text =>
    match rawURLDecode text with
    | none => .error ("base64url decode: " ++ pf.base64Error text)
    | some raw =>
      if raw.length = 32 then .ok raw
      else .error ("public key wrong size: " ++ ofChars (Nat.toDigits 10 raw.length))

/-- Step 1. -/
def checkExpiry (now : Time) (frame : IdentFrame N) : IdentVerifyResult :=
  match GoTime.parse GoTime.rfc3339 frame.expiresAt with
  | some expiresAt =>
    if expiresAt > now then passed
    else fail 1 errCertExpired ("certificate expired at " ++ frame.expiresAt)
  | none => fail 1 errCertExpired ("certificate expired at " ++ frame.expiresAt)

def checkSignature (issuerPubKeyStr : GoString) (frame : IdentFrame N) : IdentVerifyResult :=
  match parsePubKeyString pf issuerPubKeyStr with
  | .error err =>
    fail 3 errCertSignatureInvalid
      ("failed to decode public key for issuer '" ++ frame.issuedBy ++ "': " ++ err)
  | .ok issuerPubKey =>
    match frame.signature.bind afterKeyPrefix with
    | none => fail 3 errCertSignatureInvalid "missing or malformed signature"
    | some text =>
      match rawURLDecode text with
      | none => fail 3 errCertSignatureInvalid ("base64url decode: " ++ pf.base64Error text)
      | some sigBytes =>
        if pf.ed.verify issuerPubKey (canonicalJSON pf.fmt frame.unsignedDict) sigBytes then passed
        else fail 3 errCertSignatureInvalid "certificate signature verification failed"

def checkIssuer (options : VerifierOptions pf) (frame : IdentFrame N) : IdentVerifyResult :=
  match options.trustedCaPublicKeys frame.issuedBy with
  | none =>
    fail 2 errCertUntrustedIssuer
      ("issuer '" ++ frame.issuedBy ++ "' is not in the trusted issuers list")
  | some issuerPubKeyStr => checkSignature pf issuerPubKeyStr frame

variable (env : VerifierEnv) (options : VerifierOptions pf) (frame : IdentFrame N)

variable {pf} in
def enforcePhase3 (now : Time) : IdentVerifyResult :=
  match decodeCertChainLeaf pf (frame.certChain.getD []) with
  | .error err => fail 3 errCertFormatInvalid ("failed to decode cert_chain[0]: " ++ err)
  | .ok leaf => phase3Enforce pf env.clock frame leaf (if options.now = 0 then now else options.now)

def IdentFrame.isV2 (frame : IdentFrame N) : Bool := frame.certFormat = some certFormatV2X509

variable {pf} in
def checkChain (v : NipIdentVerifier pf) (frame : IdentFrame N) (now : Time) : IdentVerifyResult :=
  match v.x509Verifier with
  | none => passed
  | some x509Verifier =>
    if v.options.trustedX509Roots ≠ [] ∧ frame.isV2 then
      let verdict := x509Verifier (frame.certChain.getD []) frame.nid frame.assuranceLevel
        v.options.trustedX509Roots
      if verdict.valid then
        if v.options.phase3Enforcement then enforcePhase3 env v.options frame now else passed
      else
        fail 3 (if verdict.errorCode = [] then errCertFormatInvalid else verdict.errorCode)
          verdict.message
    else passed

def pathEscape (s : GoString) : GoString :=
  (bytes s).flatMap fun b =>
    let unescaped := (65 ≤ b ∧ b ≤ 90) ∨ (97 ≤ b ∧ b ≤ 122) ∨ (48 ≤ b ∧ b ≤ 57) ∨
      b ∈ [45, 95, 46, 126, 36, 38, 43, 61, 58, 64]
    if unescaped then [.char (Char.ofNat b.toNat)]
    else
      ofChars
        ['%', (Nat.digitChar (b.toNat / 16)).toUpper, (Nat.digitChar (b.toNat % 16)).toUpper]

def decodeOcspPayload (body : GoString) : Option OcspPayload :=
  (unmarshal pf.fmt body).bind <| decodeStruct
    (fun (p : OcspPayload) key value =>
      if isField "valid" key then
        (decodeBool p.valid value).map fun b => { p with valid := b }
      else if isField "error_code" key then
        (decodeString p.errorCode value).map fun code => { p with errorCode := code }
      else some p)
    {}

def ocspTransportFailure (nid err : GoString) : IdentVerifyResult :=
  fail 4 errOcspUnavailable ("OCSP call failed for NID " ++ nid ++ ": " ++ err)

def ocspEndpoint (ocspURL nid : GoString) : GoString :=
  trimRight (· = .char '/') ocspURL ++ "/" ++ pathEscape nid

def ocspCheck (nid : GoString) : IdentVerifyResult :=
  match env.ocsp (ocspEndpoint options.ocspURL nid) with
  | .requestError err | .transportError err => ocspTransportFailure nid err
  | .response status body =>
    if status < 200 ∨ 300 ≤ status then
      fail 4 errOcspUnavailable
        ("OCSP endpoint returned " ++ ofChars (Nat.toDigits 10 status))
    else
      match body with
      | .error err => ocspTransportFailure nid err
      | .ok body =>
        match decodeOcspPayload pf body with
        | none =>
          fail 4 errOcspUnavailable
            ("OCSP response parse failed for NID " ++ nid ++ ": " ++ pf.jsonError body)
        | some payload =>
          if payload.valid then passed
          else
            fail 4 (if payload.errorCode = [] then errCertRevoked else payload.errorCode)
              ("OCSP check failed for NID " ++ nid)

variable (p : NipRevocationPolicy)

variable {pf} in
def localCrlStep : NipRevocationPolicy × Option IdentVerifyResult :=
  match options.localRevokedSerials with
  | none => (p, none)
  | some serials => p.observe .localCrl (if frame.serial ∈ serials then .revoked else .good)

variable {pf} in
/-- What the callback says is final; only a good answer is recorded. -/
def callbackStep : NipRevocationPolicy × Option IdentVerifyResult :=
  match options.revocationCheck with
  | none => (p, none)
  | some check =>
    match check frame with
    | some r => if r.valid then ((p.observe .callback .good).1, none) else (p, some r)
    | none => ((p.observe .callback .good).1, none)

variable {pf} in
def storeStep : NipRevocationPolicy × Option IdentVerifyResult :=
  match options.revocationStore with
  | none => (p, none)
  | some getBySerial =>
    let (record, failed) := getBySerial frame.serial
    let outcome :=
      if record.any (·.revokedAt.isSome) then NipRevocationOutcome.revoked
      else if failed then .unavailable
      else .good
    p.observe .caStore outcome

def ocspStep : NipRevocationPolicy × Option IdentVerifyResult :=
  if options.ocspURL = [] then (p, none)
  else
    let result := ocspCheck pf env options frame.nid
    let outcome :=
      if result.valid then NipRevocationOutcome.good
      else if result.errorCode = errCertRevoked then .revoked
      else .unavailable
    p.observe .ocsp outcome

/-- A result of a step ends the evaluation. -/
def orElse (step : NipRevocationPolicy × Option IdentVerifyResult)
    (next : NipRevocationPolicy → IdentVerifyResult) : IdentVerifyResult :=
  match step.2 with
  | some r => r
  | none => next step.1

def checkRevocation : IdentVerifyResult :=
  let p := NipRevocationPolicy.new options.revocationMode options.ocspFailOpen
  orElse (localCrlStep options frame p) fun p =>
  orElse (callbackStep options frame p) fun p =>
  orElse (storeStep options frame p) fun p =>
  orElse (ocspStep pf env options frame p) NipRevocationPolicy.complete

def checkCapabilities (required : List GoString) (frame : IdentFrame N) : IdentVerifyResult :=
  let missing := required.filter (· ∉ frame.capabilities)
  if missing = [] then passed
  else
    fail 5 errCertCapabilityMissing
      ("certificate is missing required capabilities: " ++ join ", " missing)

def checkTarget (targetNodePath : GoString) (frame : IdentFrame N) : IdentVerifyResult :=
  if targetNodePath = [] then passed else checkScope pf frame.scope targetNodePath

variable {pf} in
def NipIdentVerifier.verifyFull (v : NipIdentVerifier pf) (frame : IdentFrame N)
    (vctx : VerifyContext) : IdentVerifyResult :=
  let now := if vctx.asOf = 0 then env.clock else vctx.asOf
  (checkExpiry now frame).andThen <|
  (checkIssuer pf v.options frame).andThen <|
  (checkChain env v frame now).andThen <|
  (checkRevocation pf env v.options frame).andThen <|
  (checkCapabilities vctx.requiredCapabilities frame).andThen <|
  checkTarget pf vctx.targetNodePath frame

/-! ### What a verifier accepts -/

variable {pf} {env} {o : VerifierOptions pf} {frame : IdentFrame N}

variable (o frame) in
def LocalCrlHit : Prop := ∃ serials, o.localRevokedSerials = some serials ∧ frame.serial ∈ serials

variable (o frame) in
def CallbackRejects : Prop :=
  ∃ check r, o.revocationCheck = some check ∧ check frame = some r ∧ r.valid = false

variable (o frame) in
def StoreRevoked : Prop :=
  ∃ getBySerial record, o.revocationStore = some getBySerial ∧
    (getBySerial frame.serial).1 = some record ∧ record.revokedAt.isSome = true

variable (o frame) in
def StoreFailed : Prop :=
  ∃ getBySerial, o.revocationStore = some getBySerial ∧ (getBySerial frame.serial).2 = true

variable (env o frame) in
/-- The OCSP endpoint is asked and its answer counts against the certificate. -/
def OcspRejects : Prop :=
  o.ocspURL ≠ [] ∧ (ocspCheck pf env o frame.nid).valid = false ∧
    ((ocspCheck pf env o frame.nid).errorCode = errCertRevoked ∨ o.ocspFailOpen = false)

variable (o) in
def SourceMissing : Prop :=
  o.revocationMode = nipRevocationRequired ∧ o.localRevokedSerials = none ∧
    o.revocationCheck = none ∧ o.revocationStore = none ∧ o.ocspURL = []

/-- A step that lets the evaluation go on records its source if that is configured. -/
def consulted (configured : Prop) [Decidable configured] (source : NipRevocationSource)
    (p : NipRevocationPolicy) : NipRevocationPolicy :=
  if configured then { p with consultedSources := p.consultedSources ++ [source] } else p

/-- What a step of the evaluation comes to: it goes on unless the source rejects. -/
def StepSpec (rejects : Prop) (next : NipRevocationPolicy)
    (result : NipRevocationPolicy × Option IdentVerifyResult) : Prop :=
  (rejects → ∃ r, result.2 = some r ∧ r.valid = false) ∧ (¬rejects → result = (next, none))

theorem localCrlStep_spec (p : NipRevocationPolicy) :
    StepSpec (LocalCrlHit o frame) (consulted (o.localRevokedSerials.isSome) .localCrl p) (localCrlStep o frame p) := by
  unfold StepSpec LocalCrlHit localCrlStep consulted NipRevocationPolicy.observe
  cases h : o.localRevokedSerials with
  | none => simp
  | some serials => by_cases hmem : frame.serial ∈ serials <;> simp [hmem]

theorem callbackStep_spec (p : NipRevocationPolicy) :
    StepSpec (CallbackRejects o frame) (consulted (o.revocationCheck.isSome) .callback p) (callbackStep o frame p) := by
  unfold StepSpec CallbackRejects callbackStep consulted NipRevocationPolicy.observe
  cases h : o.revocationCheck with
  | none => simp
  | some check =>
    cases hanswer : check frame with
    | none => simp [hanswer]
    | some r => cases hvalid : r.valid <;> simp [hanswer, hvalid]

theorem storeStep_spec (p : NipRevocationPolicy) : StepSpec (StoreRevoked o frame ∨ StoreFailed o frame)
      (consulted (o.revocationStore.isSome) .caStore p) (storeStep o frame p) := by
  unfold StepSpec StoreRevoked StoreFailed storeStep consulted NipRevocationPolicy.observe
  cases h : o.revocationStore with
  | none => simp
  | some getBySerial =>
    cases hanswer : getBySerial frame.serial with
    | mk record failed =>
      cases record with
      | none => cases failed <;> simp [hanswer]
      | some record =>
        cases hrevoked : record.revokedAt <;> cases failed <;> simp [hanswer, hrevoked]

theorem ocspStep_spec {p : NipRevocationPolicy} (hopen : p.ocspFailOpen = o.ocspFailOpen) :
    StepSpec (OcspRejects env o frame) (consulted (o.ocspURL ≠ []) .ocsp p) (ocspStep pf env o frame p) := by
  unfold StepSpec OcspRejects ocspStep consulted NipRevocationPolicy.observe
  by_cases hurl : o.ocspURL = []
  · simp [hurl]
  by_cases hvalid : (ocspCheck pf env o frame.nid).valid = true
  · simp [hurl, hvalid]
  by_cases hcode : (ocspCheck pf env o frame.nid).errorCode = errCertRevoked
  · simp [hurl, hvalid, hcode]
  · cases hfail : o.ocspFailOpen <;> simp [hurl, hvalid, hcode, hopen, hfail]

theorem orElse_valid_iff {rejects : Prop} {p : NipRevocationPolicy}
    {step : NipRevocationPolicy × Option IdentVerifyResult} (h : StepSpec rejects p step)
    (next : NipRevocationPolicy → IdentVerifyResult) :
    (orElse step next).valid = true ↔ ¬rejects ∧ (next p).valid = true := by
  by_cases hrejects : rejects
  · obtain ⟨r, hr, hvalid⟩ := h.1 hrejects
    simp [orElse, hr, hvalid, hrejects]
  · rw [h.2 hrejects]
    simp [orElse, hrejects]

@[simp]
theorem ocspFailOpen_consulted (configured : Prop) [Decidable configured] (source : NipRevocationSource)
    (p : NipRevocationPolicy) : (consulted configured source p).ocspFailOpen = p.ocspFailOpen := by
  unfold consulted
  split <;> rfl

@[simp]
theorem mode_consulted (configured : Prop) [Decidable configured] (source : NipRevocationSource)
    (p : NipRevocationPolicy) : (consulted configured source p).mode = p.mode := by
  unfold consulted
  split <;> rfl

@[simp]
theorem consultedSources_consulted (configured : Prop) [Decidable configured]
    (source : NipRevocationSource) (p : NipRevocationPolicy) : (consulted configured source p).consultedSources = [] ↔
      ¬configured ∧ p.consultedSources = [] := by
  unfold consulted
  split <;> simp [*]

theorem complete_valid_iff (p : NipRevocationPolicy) :
    p.complete.valid = true ↔ ¬(p.mode = nipRevocationRequired ∧ p.consultedSources = []) := by
  unfold NipRevocationPolicy.complete
  split <;> simp [*]

theorem new_mode_iff (mode : GoString) (ocspFailOpen : Bool) :
    (NipRevocationPolicy.new mode ocspFailOpen).mode = nipRevocationRequired ↔ mode = nipRevocationRequired := by
  by_cases h : mode = []
  · rw [h]
    have hmode : (NipRevocationPolicy.new [] ocspFailOpen).mode = nipRevocationIfConfigured := rfl
    rw [hmode]
    decide
  · simp [NipRevocationPolicy.new, h]

/-- Revocation passes if no source rejects and one is there where one is required. -/
theorem checkRevocation_valid_iff : (checkRevocation pf env o frame).valid = true ↔
      ¬LocalCrlHit o frame ∧ ¬CallbackRejects o frame ∧ ¬(StoreRevoked o frame ∨ StoreFailed o frame) ∧
        ¬OcspRejects env o frame ∧ ¬SourceMissing o := by
  rw [checkRevocation, orElse_valid_iff (localCrlStep_spec _), orElse_valid_iff (callbackStep_spec _),
    orElse_valid_iff (storeStep_spec _), orElse_valid_iff (ocspStep_spec (by simp; rfl))]
  rw [complete_valid_iff, SourceMissing]
  simp only [mode_consulted, consultedSources_consulted, new_mode_iff,
    Bool.not_eq_true, Option.isSome_eq_false_iff, Option.isNone_iff_eq_none]
  tauto

theorem verifyFull_valid_iff (v : NipIdentVerifier pf) (vctx : VerifyContext) :
    (v.verifyFull env frame vctx).valid = true ↔
      (checkExpiry (if vctx.asOf = 0 then env.clock else vctx.asOf) frame).valid = true ∧
        (checkIssuer pf v.options frame).valid = true ∧
        (checkChain env v frame (if vctx.asOf = 0 then env.clock else vctx.asOf)).valid = true ∧
        (checkRevocation pf env v.options frame).valid = true ∧
        (checkCapabilities vctx.requiredCapabilities frame).valid = true ∧
        (checkTarget pf vctx.targetNodePath frame).valid = true := by
  simp [NipIdentVerifier.verifyFull]

end Verifier

end NpsSdk.Nip
