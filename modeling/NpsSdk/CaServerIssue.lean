import NpsSdk.NipVerifier

/-! The certificates of the standalone CA server. The server writes its public key in hexadecimal and its
signatures in padded base64, and signs a map of its own; the verifier of the SDK reads both texts as
unpadded base64url. -/

namespace NpsSdk.CaServer

open NpsSdk.Nip GoString

/-! ### Keys -/

def hexEncode (bs : Bytes) : GoString := ofAscii (Hex.encode bs)

def pubKeyString (pub : Bytes) : GoString := keyPrefix ++ hexEncode pub

/-- A key of 32 bytes has 64 digits, which base64url reads as 48 bytes. -/
theorem rawURLDecode_hexEncode {pub : Bytes} (hpub : pub.length = 32) :
    ∃ raw, rawURLDecode (hexEncode pub) = some raw ∧ raw.length = 48 := by
  have hlength : (Hex.encode pub).length = 4 * 16 := by rw [Hex.length_encode, hpub]
  obtain ⟨raw, hraw, hsize⟩ :=
    Base64.length_of_decodeMap (fun c hc => (Hex.encode_alphabet hc).2) hlength
  refine ⟨raw, ?_, hsize⟩
  rw [rawURLDecode, hexEncode, bytes_ofAscii fun c hc => (Hex.encode_alphabet hc).1, hraw]

/-! ### Signing -/

section

variable {N : Type} (fmt : NumberFormat N) {ed : Ed25519}

/-- The members in the order of their keys, each marshalled by itself; a comma before all but the
first. -/
def canonicalMembers : Bool → List (String × JsonValue N) → List Char
  | _, [] => []
  | first, (key, value) :: members =>
    (if first then [] else [',']) ++ JsonValue.marshal fmt (.string (ofString key)) ++ [':'] ++
      JsonValue.marshal fmt value ++ canonicalMembers false members

def canonicalJSON (obj : FrameDict N) : Bytes :=
  bytes (ofChars (['{'] ++ canonicalMembers fmt true obj.toList ++ ['}']))

/-- `base64.StdEncoding.EncodeToString`. -/
def stdEncode (bs : Bytes) : GoString := ofAscii (Base64.encodeStd bs)

def signDict (sk : ed.PrivateKey) (obj : FrameDict N) : GoString :=
  keyPrefix ++ stdEncode (ed.sign sk (canonicalJSON fmt obj))

/-- A signature has 64 bytes, so its text is padded and base64url without padding does not read it. -/
theorem rawURLDecode_stdEncode_sign (sk : ed.PrivateKey) (message : Bytes) :
    rawURLDecode (stdEncode (ed.sign sk message)) = none := by
  rw [rawURLDecode, stdEncode, bytes_ofAscii (Base64.encodeStd_ascii _)]
  refine Base64.decodeString_encodeStd ?_
  rw [ed.length_sign]
  decide

end

/-! ### Issuance -/

section

variable {N : Type} (pf : Platform N)

/-- `now.Add` of so many days, as far as a duration holds them. -/
def expiry (now : Time) (validityDays : Int) : Time := now + (validityDays * GoTime.day).bmod (2 ^ 64)

def rfc3339 (t : Time) : GoString := ofChars (GoTime.formatSeconds t ['Z'])

def unsignedCert (caNID subjectNID subjectPubKey : GoString) (capabilities : Option (List GoString))
    (scope : Option (FrameDict N)) (issuedAt expiresAt serial : GoString) : FrameDict N :=
  let d : FrameDict N := (∅ : FrameDict N).insert "capabilities" (strings (capabilities.getD []))
  let d := d.insert "expires_at" (.string expiresAt)
  let d := d.insert "issued_at" (.string issuedAt)
  let d := d.insert "issued_by" (.string caNID)
  let d := d.insert "nid" (.string subjectNID)
  let d := d.insert "pub_key" (.string subjectPubKey)
  let d := d.insert "scope" (.ofMap (scope.getD ∅))
  d.insert "serial" (.string serial)

/-- The metadata is not signed. -/
def issueCert (sk : pf.ed.PrivateKey) (caNID subjectNID subjectPubKey : GoString)
    (capabilities : Option (List GoString)) (scope : Option (FrameDict N)) (validityDays : Int)
    (serial : GoString) (metadata : Option (FrameDict N)) (now : Time) : FrameDict N :=
  let unsigned := unsignedCert caNID subjectNID subjectPubKey capabilities scope (rfc3339 now)
    (rfc3339 (expiry now validityDays)) serial
  let cert := unsigned.insert "signature" (.string (signDict pf.fmt sk unsigned))
  setIf cert "metadata" (metadata.map .ofMap)

variable (sk : pf.ed.PrivateKey) (caNID subjectNID subjectPubKey : GoString)
  (capabilities : Option (List GoString)) (scope : Option (FrameDict N)) (validityDays : Int)
  (serial : GoString) (metadata : Option (FrameDict N)) (now : Time)

/-- The certificate as the SDK reads it. -/
def issuedFrame : IdentFrame N :=
  IdentFrame.fromDict
    (issueCert pf sk caNID subjectNID subjectPubKey capabilities scope validityDays serial metadata now)

theorem issuedFrame_issuedBy :
    (issuedFrame pf sk caNID subjectNID subjectPubKey capabilities scope validityDays serial metadata
      now).issuedBy = caNID := by
  simp only [issuedFrame, IdentFrame.fromDict, str, optStr, issueCert, unsignedCert, getElem?_setIf_ne,
    GoMap.getElem?_insert, ne_eq, String.reduceEq, not_false_eq_true, if_true, if_false,
    Option.getD_some]

theorem issuedFrame_signature :
    ∃ message, (issuedFrame pf sk caNID subjectNID subjectPubKey capabilities scope validityDays serial
      metadata now).signature = some (keyPrefix ++ stdEncode (pf.ed.sign sk message)) := by
  refine ⟨canonicalJSON pf.fmt (unsignedCert caNID subjectNID subjectPubKey capabilities scope
    (rfc3339 now) (rfc3339 (expiry now validityDays)) serial), ?_⟩
  simp [issuedFrame, IdentFrame.fromDict, optStr, issueCert, getElem?_setIf_ne, signDict]

/-- The key the server publishes is not one the verifier can read. -/
theorem parsePubKeyString_pubKeyString {pub : Bytes} (hpub : pub.length = 32) :
    parsePubKeyString pf (pubKeyString pub) = .error "public key wrong size: 48" := by
  obtain ⟨raw, hraw, hsize⟩ := rawURLDecode_hexEncode hpub
  rw [parsePubKeyString, pubKeyString, afterKeyPrefix_append]
  dsimp only
  rw [hraw]
  dsimp only
  rw [hsize]
  rfl

/-- Nor can it read the signature, whatever key it has for the server. -/
theorem checkSignature_issuedFrame (issuerPubKeyStr : GoString) :
    (checkSignature pf issuerPubKeyStr (issuedFrame pf sk caNID subjectNID subjectPubKey capabilities
      scope validityDays serial metadata now)).valid = false := by
  obtain ⟨message, hsignature⟩ := issuedFrame_signature pf sk caNID subjectNID subjectPubKey capabilities
    scope validityDays serial metadata now
  rw [checkSignature, hsignature, Option.bind_some, afterKeyPrefix_append]
  cases parsePubKeyString pf issuerPubKeyStr with
  | error err => rfl
  | ok =>
    dsimp only
    rw [rawURLDecode_stdEncode_sign]
    rfl

theorem checkIssuer_issuedFrame {options : VerifierOptions pf}
    (htrusted : options.trustedCaPublicKeys caNID = some (pubKeyString (pf.ed.publicKey sk))) :
    checkIssuer pf options (issuedFrame pf sk caNID subjectNID subjectPubKey capabilities scope
        validityDays serial metadata now) =
      fail 3 errCertSignatureInvalid ("failed to decode public key for issuer '" ++ caNID ++
        "': public key wrong size: 48") := by
  rw [checkIssuer, issuedFrame_issuedBy, htrusted]
  dsimp only
  rw [checkSignature, parsePubKeyString_pubKeyString pf (pf.ed.length_publicKey sk), issuedFrame_issuedBy]
  simp only [List.append_assoc]
  rfl

/-- No certificate of the server passes the signature step of a verifier that trusts the server by the key
it publishes, nor of one that has any other text as its key. -/
theorem issued_signature_refused (options : VerifierOptions pf)
    (htrusted : options.trustedCaPublicKeys caNID = some (pubKeyString (pf.ed.publicKey sk))) :
    (checkIssuer pf options (issuedFrame pf sk caNID subjectNID subjectPubKey capabilities scope
      validityDays serial metadata now)).valid = false ∧
    ∀ issuerPubKeyStr, (checkSignature pf issuerPubKeyStr (issuedFrame pf sk caNID subjectNID subjectPubKey
      capabilities scope validityDays serial metadata now)).valid = false := by
  refine ⟨?_, checkSignature_issuedFrame pf sk caNID subjectNID subjectPubKey capabilities scope
    validityDays serial metadata now⟩
  rw [checkIssuer_issuedFrame pf sk caNID subjectNID subjectPubKey capabilities scope validityDays serial
    metadata now htrusted]
  rfl

end

/-! ### An agent -/

def localCa : GoString := "urn:nps:org:ca.local"

def trustingOptions : VerifierOptions (plainPlatform anySignature) where
  trustedCaPublicKeys nid :=
    if nid = localCa then some (pubKeyString (anySignature.publicKey ())) else none

theorem trusted_localCa : trustingOptions.trustedCaPublicKeys localCa =
    some (pubKeyString (anySignature.publicKey ())) := by
  simp only [trustingOptions, if_true]

def firstAgent : IdentFrame JsonNumber :=
  issuedFrame (plainPlatform anySignature) () localCa "urn:nps:agent:ca.local:a1" "ed25519:k" none none 30
    "0x000001" none 0

theorem firstAgent_refused : (checkIssuer (plainPlatform anySignature) trustingOptions firstAgent).valid = false ∧
    ∀ issuerPubKeyStr, (checkSignature (plainPlatform anySignature) issuerPubKeyStr firstAgent).valid = false :=
  issued_signature_refused (plainPlatform anySignature) () localCa "urn:nps:agent:ca.local:a1" "ed25519:k"
    none none 30 "0x000001" none 0 trustingOptions trusted_localCa

/-- The signature is refused even where every signature of the server's key would be accepted. -/
theorem firstAgent_key_unreadable : checkIssuer (plainPlatform anySignature) trustingOptions firstAgent =
      fail 3 errCertSignatureInvalid ("failed to decode public key for issuer '" ++ localCa ++
        "': public key wrong size: 48") :=
  checkIssuer_issuedFrame (plainPlatform anySignature) () localCa "urn:nps:agent:ca.local:a1" "ed25519:k"
    none none 30 "0x000001" none 0 trusted_localCa

end NpsSdk.CaServer
