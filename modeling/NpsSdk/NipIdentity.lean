import NpsSdk.Base64
import NpsSdk.JsonText

/-! Keys and signatures. A payload is signed as the JSON text of a map; keys and signatures are written
as `ed25519:` and unpadded base64url. Ed25519 itself is a parameter: what it accepts a signature for
beyond the message that was signed is left to the results that need it. -/

namespace NpsSdk.Nip

open GoString

abbrev Bytes := List UInt8

abbrev FrameDict (N : Type) := GoMap (JsonValue N)

/-! ### Base64 -/

def rawURLEncode (bs : Bytes) : GoString := ofAscii (Base64.encodeRawURL bs)

def rawURLDecode (s : GoString) : Option Bytes :=
  Base64.decodeString Base64.rawURLEncoding (bytes s)

theorem rawURLDecode_rawURLEncode (bs : Bytes) : rawURLDecode (rawURLEncode bs) = some bs := by
  rw [rawURLDecode, rawURLEncode, bytes_ofAscii (Base64.encodeRawURL_ascii bs),
    Base64.decodeString_encodeRawURL]

/-! ### Signatures -/

/-- What is assumed of the scheme: lengths, and that a signature is accepted for what was signed. -/
structure Ed25519 where
  PrivateKey : Type
  publicKey : PrivateKey → Bytes
  sign : PrivateKey → Bytes → Bytes
  verify : Bytes → Bytes → Bytes → Bool
  length_publicKey : ∀ key, (publicKey key).length = 32
  length_sign : ∀ key message, (sign key message).length = 64
  verify_sign : ∀ key message, verify (publicKey key) message (sign key message) = true

/-- The signature of a message is accepted for the bytes that were signed and for no others. -/
def Ed25519.SignsOnly (ed : Ed25519) (key : ed.PrivateKey) (message : Bytes) : Prop :=
  ∀ other, ed.verify (ed.publicKey key) other (ed.sign key message) = true → other = message

def keyPrefix : GoString := "ed25519:"

def afterKeyPrefix (s : GoString) : Option GoString :=
  if keyPrefix.isPrefixOf s then some (s.drop keyPrefix.length) else none

/-- The bytes of a key or a signature; none if there are not as many as asked for. -/
def decodeKeyText (size : Nat) (s : GoString) : Option Bytes :=
  match afterKeyPrefix s with
  | none | some [] => none
  | some text =>
    match rawURLDecode text with
    | some raw => if raw.length = size then some raw else none
    | none => none

def encodeKeyText (raw : Bytes) : GoString := keyPrefix ++ rawURLEncode raw

theorem afterKeyPrefix_append (text : GoString) : afterKeyPrefix (keyPrefix ++ text) = some text := by
  rw [afterKeyPrefix, if_pos (List.isPrefixOf_iff_prefix.mpr (List.prefix_append _ _)), List.drop_left]

section

variable {N : Type} (fmt : NumberFormat N) {ed : Ed25519}

def canonicalText (d : FrameDict N) : List Char := JsonValue.marshal fmt (.ofMap d)

/-- The bytes that are signed. -/
def canonicalJSON (d : FrameDict N) : Bytes := bytes (ofChars (canonicalText fmt d))

theorem canonicalText_of_canonicalJSON_eq {d d' : FrameDict N}
    (h : canonicalJSON fmt d = canonicalJSON fmt d') : canonicalText fmt d = canonicalText fmt d' :=
  bytes_ofChars_injective h

structure NipIdentity (ed : Ed25519) where
  privKey : ed.PrivateKey

namespace NipIdentity

def pubKey (id : NipIdentity ed) : Bytes := ed.publicKey id.privKey

def pubKeyString (id : NipIdentity ed) : GoString := encodeKeyText id.pubKey

def sign (id : NipIdentity ed) (payload : FrameDict N) : GoString :=
  encodeKeyText (ed.sign id.privKey (canonicalJSON fmt payload))

end NipIdentity

variable (ed) in
/-- What cannot be read is not accepted. -/
def verifyWithPubKeyStr (payload : FrameDict N) (pubKeyStr signature : GoString) : Bool :=
  match decodeKeyText 32 pubKeyStr with
  | none => false
  | some pubBytes =>
    match decodeKeyText 64 signature with
    | none => false
    | some sigBytes => ed.verify pubBytes (canonicalJSON fmt payload) sigBytes

end

end NpsSdk.Nip
