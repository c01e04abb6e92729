import NpsSdk.Base64
import NpsSdk.NopModels

/-! The signature of a callback and its check. The orchestrator accepts a secret in three encodings, the
portable profile in one of them; HMAC-SHA256 is an arbitrary function of key and message. Strings are
their bytes. -/

namespace NpsSdk.Nop

open Base64

abbrev Bytes := List UInt8

/-- A value of type `any` in a decoded JSON object, as far as the check looks at it. -/
inductive AnyValue where
  | null
  | string (s : Bytes)
  | other

def stringValue : Option AnyValue → Bytes
  | some (.string s) => s
  | _ => []

def hexDigit (n : UInt8) : UInt8 := if n < 10 then 48 + n else 87 + n

def hexEncode (bs : Bytes) : Bytes := bs.flatMap fun (b : UInt8) => [hexDigit (b >>> 4), hexDigit (b &&& 15)]

/-- The bytes of `sha256=`. -/
def signaturePrefix : Bytes := [115, 104, 97, 50, 53, 54, 61]

def decodeBase64URL (value : Bytes) : Option Bytes :=
  match decodeString rawURLEncoding value with
  | some key => some key
  | none =>
    match decodeString urlEncoding value with
    | some key => some key
    | none => decodeString stdEncoding value

section

variable (hmacSHA256 : Bytes → Bytes → Bytes)

def buildCallbackSignature (callbackSecret payload : Bytes) : Bytes :=
  if callbackSecret = [] then []
  else match decodeBase64URL callbackSecret with
  | none => []
  | some key =>
    if key.length ≠ 32 then [] else signaturePrefix ++ hexEncode (hmacSHA256 key payload)

structure HmacVerdict where
  valid : Bool
  error : Option String
  deriving DecidableEq

def evaluatePortableHMAC (input : GoMap AnyValue) : HmacVerdict :=
  match input["signature"]? with
  | none | some .null => { valid := false, error := some errCallbackHmacMissing }
  | some signature =>
    match decodeString rawURLEncoding (stringValue input["secret_base64url"]?) with
    | none => { valid := false, error := some errCallbackHmacInvalid }
    | some key =>
      let expected :=
        signaturePrefix ++ hexEncode (hmacSHA256 key (stringValue input["raw_body"]?))
      let valid := decide (key.length = 32 ∧ expected = stringValue (some signature))
      { valid, error := if valid then none else some errCallbackHmacInvalid }

/-! ### Keys -/

variable {secret key : Bytes}

section

variable (h : decodeString rawURLEncoding secret = some key)
include h

/-- The key both sides use where the check accepts a secret. -/
theorem decodeBase64URL_of_raw :
    decodeBase64URL secret = some key := by
  rw [decodeBase64URL, h]

theorem not_padded_of_raw : stdPadding ∉ secret :=
  not_mem_of_decodeFrom rfl (by decide) (by decide) h

end

/-- A key of 32 bytes does not fill its last quantum, so a padded encoding of it ends in padding. -/
theorem padded_of_decodeString {enc : Base64.Encoding} (henc : enc.padChar = some stdPadding)
    (h : decodeString enc secret = some key) (hkey : key.length = 32) : stdPadding ∈ secret := by
  by_contra hnone
  have hlength := length_mod_three_of_not_mem henc hnone h
  rw [hkey] at hlength
  cases hlength

section

variable (h : decodeBase64URL secret = some key) (hkey : key.length = 32)
include h hkey

/-- The orchestrator finds a key of 32 bytes in a secret that the check cannot decode exactly if the
secret is padded. -/
theorem raw_eq_none_iff_padded :
    decodeString rawURLEncoding secret = none ↔ stdPadding ∈ secret := by
  refine ⟨?_, ?_⟩
  · intro hraw
    rw [decodeBase64URL, hraw] at h
    cases hurl : decodeString urlEncoding secret with
    | some =>
      rw [hurl] at h
      cases h
      exact padded_of_decodeString rfl hurl hkey
    | none =>
      rw [hurl] at h
      exact padded_of_decodeString rfl h hkey
  · intro hpadded
    cases hraw : decodeString rawURLEncoding secret with
    | none => rfl
    | some => exact absurd hpadded (not_padded_of_raw hraw)

/-! ### Agreement -/

theorem buildCallbackSignature_eq (payload : Bytes) :
    buildCallbackSignature hmacSHA256 secret payload = signaturePrefix ++ hexEncode (hmacSHA256 key payload) := by
  have hsecret : secret ≠ [] := by
    intro hempty
    rw [hempty] at h
    cases h
    cases hkey
  rw [buildCallbackSignature, if_neg hsecret, h]
  dsimp only
  rw [if_neg fun hne => hne hkey]

end

theorem buildCallbackSignature_ne_nil {secret payload : Bytes}
    (h : buildCallbackSignature hmacSHA256 secret payload ≠ []) :
    ∃ key, decodeBase64URL secret = some key ∧ key.length = 32 := by
  unfold buildCallbackSignature at h
  split_ifs at h with hempty
  · exact absurd rfl h
  split at h
  · exact absurd rfl h
  rename_i key hdecode
  split_ifs at h with hkey
  · exact absurd rfl h
  · exact ⟨key, hdecode, not_not.mp hkey⟩

/-- What the check accepts is decoded to a key of 32 bytes by the raw encoding. -/
theorem key_of_valid {input : GoMap AnyValue} (h : (evaluatePortableHMAC hmacSHA256 input).valid = true) :
    ∃ key, decodeString rawURLEncoding (stringValue input["secret_base64url"]?) = some key ∧ key.length = 32 := by
  unfold evaluatePortableHMAC at h
  split at h
  · cases h
  · cases h
  split at h
  · cases h
  · rename_i key hkey
    exact ⟨key, hkey, (of_decide_eq_true h).1⟩

/-- The check against the signature, the secret and the body of a callback. -/
def Presents (input : GoMap AnyValue) (secret payload signature : Bytes) : Prop :=
  input["signature"]? = some (.string signature) ∧
    stringValue input["secret_base64url"]? = secret ∧ stringValue input["raw_body"]? = payload

/-- The two sides agree on a secret and a payload. -/
structure SignaturesAgree (secret payload : Bytes) : Prop where
  emitted : buildCallbackSignature hmacSHA256 secret payload ≠ [] → ∀ input,
    Presents input secret payload (buildCallbackSignature hmacSHA256 secret payload) →
      (evaluatePortableHMAC hmacSHA256 input).valid = true
  withheld : buildCallbackSignature hmacSHA256 secret payload = [] → ∀ input,
    stringValue input["secret_base64url"]? = secret →
      (evaluatePortableHMAC hmacSHA256 input).valid = false

def presented (secret payload signature : Bytes) : GoMap AnyValue :=
  ((∅ : GoMap AnyValue).insert "signature" (.string signature)).insert "secret_base64url"
    (.string secret) |>.insert "raw_body" (.string payload)

theorem presents_presented (secret payload signature : Bytes) :
    Presents (presented secret payload signature) secret payload signature := by
  unfold Presents presented
  simp only [GoMap.getElem?_insert]
  exact ⟨rfl, rfl, rfl⟩

/-- The two sides agree exactly on the secrets that are not a padded key of 32 bytes. -/
theorem signaturesAgree_iff (secret payload : Bytes) : SignaturesAgree hmacSHA256 secret payload ↔
      ¬(stdPadding ∈ secret ∧ ∃ key, decodeBase64URL secret = some key ∧ key.length = 32) := by
  refine ⟨?_, ?_⟩
  · intro hagree hpadded
    obtain ⟨hpad, key, hdecode, hkey⟩ := hpadded
    have hsignature := buildCallbackSignature_eq hmacSHA256 hdecode hkey payload
    have hvalid := hagree.emitted (by rw [hsignature]; exact List.cons_ne_nil _ _) _
      (presents_presented secret payload _)
    obtain ⟨raw, hraw, -⟩ := key_of_valid hmacSHA256 hvalid
    rw [(presents_presented secret payload _).2.1] at hraw
    exact not_padded_of_raw hraw hpad
  · intro hplain
    refine ⟨?_, ?_⟩
    · intro hemitted input hinput
      obtain ⟨key, hdecode, hkey⟩ := buildCallbackSignature_ne_nil hmacSHA256 hemitted
      obtain ⟨hsignature, hsecret, hbody⟩ := hinput
      cases hraw : decodeString rawURLEncoding secret with
      | none =>
        exact absurd ⟨(raw_eq_none_iff_padded hdecode hkey).mp hraw, key, hdecode, hkey⟩ hplain
      | some rawKey =>
        have hsame : rawKey = key :=
          Option.some.inj ((decodeBase64URL_of_raw hraw).symm.trans hdecode)
        rw [buildCallbackSignature_eq hmacSHA256 hdecode hkey payload] at hsignature
        unfold evaluatePortableHMAC
        rw [hsignature, hsecret, hraw, hbody, hsame]
        exact decide_eq_true ⟨hkey, rfl⟩
    · intro hwithheld input hsecret
      by_contra hvalid
      rw [Bool.not_eq_false] at hvalid
      obtain ⟨key, hraw, hkey⟩ := key_of_valid hmacSHA256 hvalid
      rw [hsecret] at hraw
      rw [buildCallbackSignature_eq hmacSHA256 (decodeBase64URL_of_raw hraw) hkey] at hwithheld
      cases hwithheld

end

def paddedSecret : Bytes := List.replicate 43 65 ++ [61]

/-- The callback is signed and the signature is refused. -/
theorem padded_secret_refused : buildCallbackSignature (fun _ _ => []) paddedSecret [] ≠ [] ∧
      (evaluatePortableHMAC (fun _ _ => []) (presented paddedSecret []
        (buildCallbackSignature (fun _ _ => []) paddedSecret []))).valid = false := by
  decide +kernel

end NpsSdk.Nop
