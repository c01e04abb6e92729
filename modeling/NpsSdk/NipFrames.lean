import NpsSdk.JsonDecode
import NpsSdk.NipIdentity

/-! Identity and revocation frames, and what of them is signed. The signature of an identity frame covers
`unsignedDict`, which leaves out the certificate chain, the staple and the node roles. -/

namespace NpsSdk.Nip

/-! ### The platform -/

structure Extension where
  id : List Nat
  value : Bytes

/-- What the standard library supplies and the model leaves open: how numbers are written, signatures,
X.509 certificates, the case of characters, and the texts of its errors. -/
structure Platform (N : Type) where
  fmt : NumberFormat N
  ed : Ed25519
  Certificate : Type
  parseCertificate : Bytes → Option Certificate
  extensions : Certificate → List Extension
  toLower : Char → Char
  /-- One character for all that are equal under simple folding. -/
  simpleFold : Char → Char
  jsonError : GoString → GoString
  base64Error : GoString → GoString
  timeError : GoString → GoString
  certificateError : Bytes → GoString

theorem length_zeroKey (_ : Unit) : (List.replicate 32 (0 : UInt8)).length = 32 := List.length_replicate

/-- A scheme that accepts every signature. -/
def anySignature : Ed25519 where
  PrivateKey := Unit
  publicKey _ := List.replicate 32 0
  sign _ _ := List.replicate 64 0
  verify _ _ _ := true
  length_publicKey := length_zeroKey
  length_sign _ _ := List.length_replicate
  verify_sign _ _ := rfl

def plainPlatform (ed : Ed25519) : Platform JsonNumber where
  fmt := jsonNumber
  ed := ed
  Certificate := Bytes
  parseCertificate := some
  extensions _ := []
  toLower := Char.toLower
  simpleFold := Char.toLower
  jsonError _ := []
  base64Error _ := []
  timeError _ := []
  certificateError _ := []

/-! ### Error codes -/

def errCertExpired : GoString := "NIP-CERT-EXPIRED"
def errCertRevoked : GoString := "NIP-CERT-REVOKED"
def errCertSignatureInvalid : GoString := "NIP-CERT-SIGNATURE-INVALID"
def errCertUntrustedIssuer : GoString := "NIP-CERT-UNTRUSTED-ISSUER"
def errCertCapabilityMissing : GoString := "NIP-CERT-CAPABILITY-MISSING"
def errCertScopeViolation : GoString := "NIP-CERT-SCOPE-VIOLATION"
def errCertFormatInvalid : GoString := "NIP-CERT-FORMAT-INVALID"
def errCertParentRevoked : GoString := "NIP-CERT-PARENT-REVOKED"
def errCertNodeRolesMismatch : GoString := "NIP-CERT-NODE-ROLES-MISMATCH"
def errCertCapabilitiesExceeded : GoString := "NIP-CERT-CAPABILITIES-EXCEEDED"
def errOcspUnavailable : GoString := "NIP-OCSP-UNAVAILABLE"
def errOcspStapleExpired : GoString := "NIP-OCSP-STAPLE-EXPIRED"
def errCaNidNotFound : GoString := "NIP-CA-NID-NOT-FOUND"
def errCaNidAlreadyExists : GoString := "NIP-CA-NID-ALREADY-EXISTS"
def errCaRenewalTooEarly : GoString := "NIP-CA-RENEWAL-TOO-EARLY"
def errCaScopeExpansionDenied : GoString := "NIP-CA-SCOPE-EXPANSION-DENIED"
def errCaGroupRevoked : GoString := "NIP-CA-GROUP-REVOKED"
def errCaParentNotFound : GoString := "NIP-CA-PARENT-NOT-FOUND"
def errCaParentNotGroup : GoString := "NIP-CA-PARENT-NOT-GROUP"
def errCaSessionValidityInvalid : GoString := "NIP-CA-SESSION-VALIDITY-INVALID"

/-! ### Assurance levels -/

structure AssuranceLevel where
  wire : GoString
  rank : Int
  deriving DecidableEq

def assuranceAnonymous : AssuranceLevel := ⟨"anonymous", 0⟩
def assuranceAttested : AssuranceLevel := ⟨"attested", 1⟩
def assuranceVerified : AssuranceLevel := ⟨"verified", 2⟩

/-- The empty text is the anonymous level; an unknown one is an error. -/
def assuranceFromWire (wire : GoString) : Option AssuranceLevel :=
  if wire = [] then some assuranceAnonymous
  else [assuranceAnonymous, assuranceAttested, assuranceVerified].find? (·.wire = wire)

/-! ### Reading members of a frame -/

section

variable {N : Type} (d : FrameDict N)

/-- A member of another type is taken for absent. -/
def optStr (key : String) : Option GoString :=
  match d[key]? with
  | some (.string s) => some s
  | _ => none

def str (key : String) : GoString := (optStr d key).getD []

def optMap (key : String) : Option (FrameDict N) :=
  match d[key]? with
  | some (.object fields) => some (JsonValue.toMap fields)
  | _ => none

def stringItem : JsonValue N → Option GoString
  | .string s => some s
  | _ => none

/-- Items that are not strings are left out; without any the slice is nil. -/
def stringSlice (value : Option (JsonValue N)) : Option (List GoString) :=
  match value with
  | some (.array items) =>
    match items.filterMap stringItem with
    | [] => none
    | texts => some texts
  | _ => none

def strings (texts : List GoString) : JsonValue N := .array (texts.map .string)

/-- Members without a value are not written. -/
def setIf (key : String) (value : Option (JsonValue N)) : FrameDict N :=
  match value with
  | some v => d.insert key v
  | none => d

def nonEmpty (s : GoString) : Option (JsonValue N) := if s = [] then none else some (.string s)

theorem getElem?_setIf_ne {key other : String} (value : Option (JsonValue N))
    (h : key ≠ other) : (setIf d key value)[other]? = d[other]? := by
  cases value with
  | none => rfl
  | some v => exact GoMap.getElem?_insert_ne _ _ _ _ h

end

/-! ### Identity frames -/

structure IdentFrame (N : Type) where
  nid : GoString
  pubKey : GoString
  metadata : Option (FrameDict N) := none
  signature : Option GoString := none
  scope : Option (FrameDict N) := none
  lineage : Option (FrameDict N) := none
  issuedBy : GoString := []
  issuedAt : GoString := []
  expiresAt : GoString := []
  serial : GoString := []
  assuranceLevel : Option AssuranceLevel := none
  certFormat : Option GoString := none
  certChain : Option (List GoString) := none
  ocspStaple : GoString := []
  nodeRoles : Option (List GoString) := none
  capabilities : List GoString := []

def certFormatV2X509 : GoString := "v2-x509"

namespace IdentFrame

variable {N : Type} (f : IdentFrame N)

/-- The members that are signed. -/
def unsignedDict : FrameDict N :=
  let d : FrameDict N := (∅ : FrameDict N).insert "nid" (.string f.nid)
  let d := d.insert "pub_key" (.string f.pubKey)
  let d := setIf d "metadata" (f.metadata.map .ofMap)
  let d := setIf d "assurance_level" (f.assuranceLevel.map fun level => .string level.wire)
  let d := setIf d "capabilities" (if f.capabilities = [] then none else some (strings f.capabilities))
  let d := setIf d "scope" (f.scope.map .ofMap)
  let d := setIf d "lineage" (f.lineage.map .ofMap)
  let d := setIf d "issued_by" (nonEmpty f.issuedBy)
  let d := setIf d "issued_at" (nonEmpty f.issuedAt)
  let d := setIf d "expires_at" (nonEmpty f.expiresAt)
  setIf d "serial" (nonEmpty f.serial)

/-- The frame the CA answers with, without a staple and node roles. -/
def wire : FrameDict N :=
  let d : FrameDict N := (∅ : FrameDict N).insert "frame" (.string "0x20")
  let d := d.insert "nid" (.string f.nid)
  let d := d.insert "pub_key" (.string f.pubKey)
  let d := setIf d "issued_by" (nonEmpty f.issuedBy)
  let d := setIf d "issued_at" (nonEmpty f.issuedAt)
  let d := setIf d "expires_at" (nonEmpty f.expiresAt)
  let d := setIf d "serial" (nonEmpty f.serial)
  let d := d.insert "capabilities" (strings f.capabilities)
  let d := setIf d "scope" (f.scope.map .ofMap)
  let d := setIf d "signature" (f.signature.map .string)
  let d := setIf d "metadata" (f.metadata.map .ofMap)
  let d := setIf d "assurance_level" (f.assuranceLevel.map fun level => .string level.wire)
  let d := setIf d "cert_format" (f.certFormat.map .string)
  let d := setIf d "cert_chain" (f.certChain.map strings)
  setIf d "lineage" (f.lineage.map .ofMap)

def fromDict (d : FrameDict N) : IdentFrame N where
  nid := str d "nid"
  pubKey := str d "pub_key"
  metadata := optMap d "metadata"
  signature := optStr d "signature"
  scope := optMap d "scope"
  lineage := optMap d "lineage"
  issuedBy := str d "issued_by"
  issuedAt := str d "issued_at"
  expiresAt := str d "expires_at"
  serial := str d "serial"
  assuranceLevel := (optStr d "assurance_level").bind assuranceFromWire
  certFormat := optStr d "cert_format"
  certChain := stringSlice d["cert_chain"]?
  ocspStaple := str d "ocsp_staple"
  nodeRoles := stringSlice d["node_roles"]?
  capabilities := (stringSlice d["capabilities"]?).getD []

/-- The answer of the CA as it is read. -/
def received (fmt : NumberFormat N) (f : IdentFrame N) : Option (IdentFrame N) :=
  match JsonValue.unmarshal fmt (GoString.ofChars (canonicalText fmt f.wire)) with
  | some (.object fields) => some (fromDict (JsonValue.toMap fields))
  | _ => none

def withUnsigned (certFormat : Option GoString) (certChain : Option (List GoString))
    (ocspStaple : GoString) (nodeRoles : Option (List GoString)) : IdentFrame N :=
  { f with certFormat := certFormat, certChain := certChain, ocspStaple := ocspStaple,
           nodeRoles := nodeRoles }

/-- No frame has a `frame` member in what is signed. -/
theorem unsignedDict_frame : f.unsignedDict["frame"]? = none := by
  unfold unsignedDict
  simp only [getElem?_setIf_ne, ne_eq, String.reduceEq, not_false_eq_true, GoMap.getElem?_insert]
  exact Std.ExtTreeMap.getElem?_empty

end IdentFrame

/-! ### Revocation frames -/

structure RevokeFrame where
  targetNID : GoString
  serial : Option GoString
  reason : GoString
  revokedAt : GoString
  parentNID : Option GoString := none
  signerNID : GoString
  signature : GoString

end NpsSdk.Nip
