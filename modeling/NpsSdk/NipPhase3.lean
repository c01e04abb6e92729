import NpsSdk.GoTime
import NpsSdk.NipFrames

/-! Phase 3 of the verification of an identity frame: the roles and capabilities it claims are attested by
its leaf certificate, and it carries an OCSP staple that is still fresh. The staple and the extensions
are read by a walk over DER values; certificates themselves are left to the platform. -/

namespace NpsSdk.Nip

open GoString

/-! ### Results -/

structure IdentVerifyResult where
  valid : Bool
  stepFailed : Nat := 0
  errorCode : GoString := []
  message : GoString := []

def fail (step : Nat) (code message : GoString) : IdentVerifyResult :=
  { valid := false, stepFailed := step, errorCode := code, message := message }

def passed : IdentVerifyResult := { valid := true }

def IdentVerifyResult.andThen (r next : IdentVerifyResult) : IdentVerifyResult :=
  if r.valid then next else r

@[simp]
theorem IdentVerifyResult.valid_andThen (r next : IdentVerifyResult) :
    (r.andThen next).valid = (r.valid && next.valid) := by
  unfold andThen
  cases h : r.valid <;> simp [h]

@[simp]
theorem valid_fail (step : Nat) (code message : GoString) : (fail step code message).valid = false := rfl

@[simp]
theorem valid_passed : passed.valid = true := rfl

/-! ### DER values -/

structure RawValue where
  cls : Nat
  tag : Nat
  isCompound : Bool
  bytes : Bytes

def classUniversal : Nat := 0
def classContextSpecific : Nat := 2
def tagOctetString : Nat := 4
def tagUTF8String : Nat := 12
def tagSequence : Nat := 16
def tagGeneralizedTime : Nat := 24

/-- A number in groups of seven bits, of at most five groups and below `2 ^ 31`. -/
def parseBase128 : Nat → Nat → Bytes → Option (Nat × Bytes)
  | 0, _, _ => none
  | _ + 1, _, [] => none
  | groups + 1, acc, b :: bs =>
    if groups = 4 ∧ b = 0x80 then none
    else
      let acc := acc * 128 + b.toNat % 128
      if b < 0x80 then (if acc < 2 ^ 31 then some (acc, bs) else none)
      else parseBase128 groups acc bs

/-- The bytes of a length in its long form. -/
def parseLength : Nat → Nat → Bytes → Option (Nat × Bytes)
  | 0, acc, bs => if acc < 0x80 then none else some (acc, bs)
  | _ + 1, _, [] => none
  | n + 1, acc, b :: bs =>
    if 2 ^ 23 ≤ acc then none
    else
      let acc := acc * 256 + b.toNat
      if acc = 0 then none else parseLength n acc bs

def parseTag (b : UInt8) (bs : Bytes) : Option (Nat × Bytes) :=
  if b.toNat % 32 = 31 then
    match parseBase128 5 0 bs with
    | some (tag, rest) => if tag < 31 then none else some (tag, rest)
    | none => none
  else some (b.toNat % 32, bs)

def readTLV : Bytes → Option (RawValue × Bytes)
  | [] => none
  | b :: bs =>
    match parseTag b bs with
    | some (tag, l :: bs) =>
      let length :=
        if l < 0x80 then some (l.toNat, bs)
        else if l = 0x80 then none
        else parseLength (l.toNat % 128) 0 bs
      match length with
      | some (n, rest) =>
        if rest.length < n then none
        else
          some ({ cls := b.toNat / 64, tag := tag, isCompound := b.toNat / 32 % 2 = 1,
                  bytes := rest.take n }, rest.drop n)
      | none => none
    | _ => none

/-- The items of a `SEQUENCE OF UTF8String`. Every one takes at least two bytes, so that their number
bounds the recursion. -/
def parseUtf8Items : Nat → Bytes → Option (List GoString)
  | _, [] => some []
  | 0, _ :: _ => none
  | fuel + 1, b :: bs =>
    match readTLV (b :: bs) with
    | some (item, rest) =>
      if item.cls = classUniversal ∧ item.tag = tagUTF8String then
        (parseUtf8Items fuel rest).map (ofBytes item.bytes :: ·)
      else none
    | none => none

def parseUtf8Sequence (der : Bytes) : Option (List GoString) :=
  match readTLV der with
  | some (seq, _) =>
    if seq.cls = classUniversal ∧ seq.tag = tagSequence ∧ seq.isCompound then
      parseUtf8Items seq.bytes.length seq.bytes
    else none
  | none => none

/-- The list of the first extension of that id; `none` if there is no such extension, and the empty list
if it cannot be read. -/
def readUtf8SequenceExtension (extensions : List Extension) (oid : List Nat) : Option (List GoString) :=
  (extensions.find? (·.id = oid)).map fun ext => (parseUtf8Sequence ext.value).getD []

def oidIdNpsNodeRoles : List Nat := [1, 3, 6, 1, 4, 1, 65715, 2, 2]
def oidIdNpsCapabilities : List Nat := [1, 3, 6, 1, 4, 1, 65715, 2, 3]

/-! ### The staple -/

/-- `20060102150405Z0700`; a fraction of a second is read whether the layout names it or not. -/
def generalizedTimeZone : List GoTime.LayoutChunk :=
  [.year, .month, .day, .hour, .minute, .second, .zone false]

def generalizedTimeLocal : List GoTime.LayoutChunk := [.year, .month, .day, .hour, .minute, .second]

def parseGeneralizedTime (text : GoString) : Option Time :=
  (GoTime.parse generalizedTimeZone text).or (GoTime.parse generalizedTimeLocal text)

def tryGetOcspNextUpdate (der : Bytes) : Option Time := do
  let (outer, _) ← readTLV der
  guard (outer.tag = tagSequence ∧ outer.isCompound)
  let (_, rest) ← readTLV outer.bytes
  let (respBytes, _) ← readTLV rest
  guard (respBytes.cls = classContextSpecific ∧ respBytes.tag = 0)
  let (inner, _) ← readTLV respBytes.bytes
  guard (inner.tag = tagSequence)
  let (_, r) ← readTLV inner.bytes
  let (octet, _) ← readTLV r
  guard (octet.tag = tagOctetString)
  let (basic, _) ← readTLV octet.bytes
  guard (basic.tag = tagSequence)
  let (tbs, _) ← readTLV basic.bytes
  guard (tbs.tag = tagSequence)
  let c := tbs.bytes
  -- The version, then the responder's id, are skipped where they are there.
  let (v, after) ← readTLV c
  let c := if v.cls = classContextSpecific ∧ v.tag = 0 ∧ v.isCompound then after else c
  let (v, after) ← readTLV c
  let c := if v.cls = classContextSpecific then after else c
  let (_, c) ← readTLV c
  let (responses, _) ← readTLV c
  guard (responses.tag = tagSequence ∧ responses.bytes ≠ [])
  let (single, _) ← readTLV responses.bytes
  guard (single.tag = tagSequence)
  let (_, s) ← readTLV single.bytes
  let (_, s) ← readTLV s
  let (_, s) ← readTLV s
  let (nu, _) ← readTLV s
  guard (nu.cls = classContextSpecific ∧ nu.tag = 0)
  let (gt, _) ← readTLV nu.bytes
  guard (gt.tag = tagGeneralizedTime)
  parseGeneralizedTime (ofBytes gt.bytes)

/-- Both alphabets and any padding are taken. -/
def decodeBase64UrlLoose (s : GoString) : Option Bytes :=
  let trimmed := trimRight (· = .char '=') (trimSpace s)
  let replaced := trimmed.map fun r =>
    if r = .char '-' then .char '+' else if r = .char '_' then .char '/' else r
  Base64.decodeString Base64.rawStdEncoding (bytes replaced)

/-! ### Enforcement -/

def phase3Step : Nat := 3

def subsetExcess (claimed attested : List GoString) : List GoString :=
  (claimed.filter (· ∉ attested)).eraseDups

section

variable {N : Type} (pf : Platform N)

def phase3Enforce (clock : Time) (frame : IdentFrame N) (leaf : pf.Certificate) (now : Time) :
    IdentVerifyResult :=
  let now := if now = 0 then clock else now
  let rolesExcess := match readUtf8SequenceExtension (pf.extensions leaf) oidIdNpsNodeRoles with
    | some attested => subsetExcess (frame.nodeRoles.getD []) attested
    | none => []
  let capsExcess := match readUtf8SequenceExtension (pf.extensions leaf) oidIdNpsCapabilities with
    | some attested => subsetExcess frame.capabilities attested
    | none => []
  if rolesExcess ≠ [] then
    fail phase3Step errCertNodeRolesMismatch
      ("IdentFrame.node_roles claims role(s) not attested by id-nps-node-roles: " ++
        join ", " rolesExcess ++ ".")
  else if capsExcess ≠ [] then
    fail phase3Step errCertCapabilitiesExceeded
      ("IdentFrame.capabilities claims capabilit(ies) not attested by id-nps-capabilities: " ++
        join ", " capsExcess ++ ".")
  else if trimSpace frame.ocspStaple = [] then
    fail phase3Step errOcspStapleExpired
      "Phase-3 enforcement requires ocsp_staple on v2-x509 IdentFrames; none was supplied."
  else
    match decodeBase64UrlLoose frame.ocspStaple with
    | none => fail phase3Step errOcspStapleExpired "ocsp_staple is not valid base64url."
    | some der =>
      match tryGetOcspNextUpdate der with
      | none =>
        fail phase3Step errOcspStapleExpired
          "ocsp_staple could not be parsed as a DER OCSPResponse with a nextUpdate."
      | some nextUpdate =>
        if nextUpdate > now then passed
        else
          fail phase3Step errOcspStapleExpired
            ("ocsp_staple nextUpdate " ++ ofChars (GoTime.formatNano nextUpdate) ++
              " has elapsed.")

def decodeCertChainLeaf (chain : List GoString) : Except GoString pf.Certificate :=
  match chain with
  | [] => .error "cert_chain is empty"
  | first :: _ =>
    match decodeBase64UrlLoose first with
    | none => .error (pf.base64Error first)
    | some der =>
      match pf.parseCertificate der with
      | none => .error (pf.certificateError der)
      | some leaf => .ok leaf

end

end NpsSdk.Nip
